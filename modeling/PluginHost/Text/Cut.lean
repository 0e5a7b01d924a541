/-!
Blank characters, and the cuts that are made at them or at one occurrence of a separator.
-/

namespace PluginHost.Text

/-- The characters with Unicode's `White_Space` property. -/
def isBlank (c : Char) : Bool :=
  let n := c.toNat
  (0x9 ≤ n && n ≤ 0xD) || n == 0x20 || n == 0x85 || n == 0xA0 || n == 0x1680 ||
  (0x2000 ≤ n && n ≤ 0x200A) || n == 0x2028 || n == 0x2029 || n == 0x202F || n == 0x205F ||
  n == 0x3000

def trimStart (s : List Char) : List Char := s.dropWhile isBlank

def trimEnd (s : List Char) : List Char := (s.reverse.dropWhile isBlank).reverse

/-- The text without the blanks at its two ends. -/
def trim (s : List Char) : List Char := trimEnd (trimStart s)

/-- The maximal blank-free parts of a text, in order. -/
def words (s : List Char) : List (List Char) := (s.splitOnP isBlank).filter (!·.isEmpty)

/-! The lines of a text. -/

/-- A line without the one carriage return that may stand before its line feed. -/
def dropReturn (line : List Char) : List Char :=
  if line.getLast? = some '\r' then line.dropLast else line

/-- The lines of a text. A line feed ends a line, so none follows the last line feed; a carriage
    return counts as part of the line end only right before a line feed. -/
def lines (s : List Char) : List (List Char) :=
  let parts := s.splitOnP (· = '\n')
  let ended := parts.dropLast.map dropReturn
  match parts.getLast? with
  | none | some [] => ended
  | some unended => ended ++ [unended]

/-- The parts before and after the first occurrence of `separator`. -/
def cutFirst? (separator : List Char) : List Char → Option (List Char × List Char)
  | [] => if separator.isEmpty then some ([], []) else none
  | c :: rest =>
    if separator.isPrefixOf (c :: rest) then some ([], (c :: rest).drop separator.length)
    else (cutFirst? separator rest).map fun (before, after) => (c :: before, after)

/-- The parts before and after the last `mark`. -/
def cutLast? (mark : Char) : List Char → Option (List Char × List Char)
  | [] => none
  | c :: rest =>
    match cutLast? mark rest with
    | some (before, after) => some (c :: before, after)
    | none => if c = mark then some ([], rest) else none

/-- The two parts of a cut at the last `mark` and the mark make up the text. -/
theorem eq_append_of_cutLast? {mark : Char} {s before after : List Char}
    (hcut : cutLast? mark s = some (before, after)) : s = before ++ mark :: after := by
  induction s generalizing before after with
  | nil => simp [cutLast?] at hcut
  | cons c rest ih =>
    unfold cutLast? at hcut
    split at hcut
    · next b a hrest =>
      simp only [Option.some.injEq, Prod.mk.injEq] at hcut
      obtain ⟨rfl, rfl⟩ := hcut
      simp [ih hrest]
    · split at hcut
      · next hmark =>
        simp only [Option.some.injEq, Prod.mk.injEq] at hcut
        obtain ⟨rfl, rfl⟩ := hcut
        simp [hmark]
      · simp at hcut

/-- Whether `part` occurs in the text. -/
def contains (part s : List Char) : Bool := (cutFirst? part s).isSome

/-- Every `old` becomes `new`. -/
def replaceChar (old new : Char) (s : List Char) : List Char :=
  s.map fun c => if c = old then new else c

/-- Replaces at most so many occurrences of a text, from the left. -/
def replaceWithin (old new : List Char) : Nat → List Char → List Char
  | 0, s => s
  | count + 1, s =>
    match cutFirst? old s with
    | some (before, after) => before ++ new ++ replaceWithin old new count after
    | none => s

/-- Every occurrence of a text becomes another one. There are at most as many as characters. -/
def replaceAll (old new : List Char) (s : List Char) : List Char :=
  replaceWithin old new s.length s

end PluginHost.Text
