import PluginHost.Json.Value
import PluginHost.Text.Numeral
/-!
Reading JSON text: exactly one value with nothing but whitespace around it.

The source is a list of characters in which `none` stands for a part of a byte string that is no
character. Such a part may stand inside a string only, and that string then has no text.
-/

namespace PluginHost.Json

abbrev Source := List (Option Char)

def isSpace (c : Option Char) : Bool :=
  c == some ' ' || c == some '\n' || c == some '\t' || c == some '\r'

def skipSpace (s : Source) : Source := s.dropWhile isSpace

def isDigit : Option Char → Bool
  | some c => c.isDigit
  | none => false

/-- The digits at the start of a source and what follows them. -/
def takeDigits (s : Source) : List Char × Source :=
  ((s.takeWhile isDigit).filterMap id, s.dropWhile isDigit)

/-- One element of a string: a character as it stands, a part that is no character, the character
    of a short escape, or the code unit of a long one. -/
inductive Piece where
  | char (c : Char)
  | broken
  | escape (c : Char)
  | unit (n : Nat)
deriving DecidableEq

/-- The character of a short escape. -/
def shortEscape? : Char → Option Char
  | '"' => some '"'
  | '\\' => some '\\'
  | '/' => some '/'
  | 'b' => some '\x08'
  | 'f' => some '\x0C'
  | 'n' => some '\n'
  | 'r' => some '\r'
  | 't' => some '\t'
  | _ => none

/-- The pieces up to the closing quote, and what follows it. -/
def pieces? : Source → Option (List Piece × Source)
  | [] => none
  | some '"' :: rest => some ([], rest)
  | some '\\' :: some 'u' :: some a :: some b :: some c :: some d :: rest => do
    let n ← Text.hexNat? [a, b, c, d]
    let (more, rest) ← pieces? rest
    return (.unit n :: more, rest)
  | some '\\' :: some e :: rest => do
    let c ← shortEscape? e
    let (more, rest) ← pieces? rest
    return (.escape c :: more, rest)
  | some c :: rest =>
    if c = '\\' ∨ c.toNat < 0x20 then none
    else (pieces? rest).map fun (more, rest) => (.char c :: more, rest)
  | none :: rest => (pieces? rest).map fun (more, rest) => (.broken :: more, rest)

def isHighSurrogate (n : Nat) : Bool := 0xD800 ≤ n && n ≤ 0xDBFF

def isLowSurrogate (n : Nat) : Bool := 0xDC00 ≤ n && n ≤ 0xDFFF

/-- The characters of a string. Two code units make one character where they are a high and a low
    surrogate in this order; a surrogate that stands alone has no character. -/
def characters? : List Piece → Option (List Char)
  | [] => some []
  | .char c :: rest => (characters? rest).map (c :: ·)
  | .escape c :: rest => (characters? rest).map (c :: ·)
  | .broken :: _ => none
  | .unit high :: rest =>
    if isHighSurrogate high then
      match rest with
      | .unit low :: rest =>
        if isLowSurrogate low then
          (characters? rest).map
            (Char.ofNat (0x10000 + (high - 0xD800) * 0x400 + (low - 0xDC00)) :: ·)
        else none
      | _ => none
    else if isLowSurrogate high then none
    else (characters? rest).map (Char.ofNat high :: ·)

def Piece.isPlain : Piece → Bool
  | .char _ => true
  | _ => false

def spelled (ps : List Piece) : Spelled :=
  ⟨(characters? ps).map String.ofList, ps.all Piece.isPlain⟩

/-- The rest of a string after its opening quote. -/
def string? (s : Source) : Option (Spelled × Source) :=
  (pieces? s).map fun (ps, rest) => (spelled ps, rest)

/-- The fraction of a number, if a point stands next; it has at least one digit. -/
def fraction? : Source → Option (Option (List Char) × Source)
  | some '.' :: rest =>
    match takeDigits rest with
    | ([], _) => none
    | (digits, rest) => some (some digits, rest)
  | s => some (none, s)

/-- The power of ten of a number, if it has one; it has at least one digit. -/
def exponent? : Source → Option (Option (Bool × List Char) × Source)
  | some e :: rest =>
    if e = 'e' ∨ e = 'E' then
      let (negative, rest) := match rest with
        | some '-' :: rest => (true, rest)
        | some '+' :: rest => (false, rest)
        | _ => (false, rest)
      match takeDigits rest with
      | ([], _) => none
      | (digits, rest) => some (some (negative, digits), rest)
    else some (none, some e :: rest)
  | s => some (none, s)

/-- A number without its sign. No digit follows a leading zero. -/
def magnitude? (negative : Bool) (s : Source) : Option (Number × Source) := do
  let (whole, rest) := takeDigits s
  if whole.isEmpty || (whole.length > 1 && whole.head? == some '0') then none
  else
    let (fraction, rest) ← fraction? rest
    let (exponent, rest) ← exponent? rest
    return (⟨negative, whole, fraction, exponent⟩, rest)

mutual

/-- A value at the start of a source, and what follows it. -/
def value? : Nat → Source → Option (Tree × Source)
  | 0, _ => none
  | fuel + 1, s =>
    match skipSpace s with
    | some 'n' :: some 'u' :: some 'l' :: some 'l' :: rest => some (.null, rest)
    | some 't' :: some 'r' :: some 'u' :: some 'e' :: rest => some (.bool true, rest)
    | some 'f' :: some 'a' :: some 'l' :: some 's' :: some 'e' :: rest => some (.bool false, rest)
    | some '"' :: rest => (string? rest).map fun (text, rest) => (.str text, rest)
    | some '[' :: rest =>
      match skipSpace rest with
      | some ']' :: rest => some (.arr [], rest)
      | rest => (items? fuel rest).map fun (items, rest) => (.arr items, rest)
    | some '{' :: rest =>
      match skipSpace rest with
      | some '}' :: rest => some (.obj [], rest)
      | rest => (members? fuel rest).map fun (members, rest) => (.obj members, rest)
    | some '-' :: rest => (magnitude? true rest).map fun (n, rest) => (.num n, rest)
    | s => (magnitude? false s).map fun (n, rest) => (.num n, rest)

/-- One or more items and the closing bracket. -/
def items? : Nat → Source → Option (List Tree × Source)
  | 0, _ => none
  | fuel + 1, s => do
    let (item, rest) ← value? fuel s
    match skipSpace rest with
    | some ']' :: rest => some ([item], rest)
    | some ',' :: rest => (items? fuel rest).map fun (items, rest) => (item :: items, rest)
    | _ => none

/-- One or more members and the closing brace. -/
def members? : Nat → Source → Option (List (Spelled × Tree) × Source)
  | 0, _ => none
  | fuel + 1, s =>
    match skipSpace s with
    | some '"' :: rest => do
      let (name, rest) ← string? rest
      match skipSpace rest with
      | some ':' :: rest =>
        let (item, rest) ← value? fuel rest
        match skipSpace rest with
        | some '}' :: rest => some ([(name, item)], rest)
        | some ',' :: rest =>
          (members? fuel rest).map fun (members, rest) => ((name, item) :: members, rest)
        | _ => none
      | _ => none
    | _ => none

end

/-- The one value of a source. Every value, item and member takes at least one character, so the
    length of the source bounds the recursion. -/
def tree? (s : Source) : Option Tree :=
  match value? (s.length + 1) s with
  | some (t, rest) => if (skipSpace rest).isEmpty then some t else none
  | none => none

def ofText? (text : String) : Option Tree := tree? (text.toList.map some)

def ofBytes? (bytes : List UInt8) : Option Tree := tree? (Text.chars bytes)

end PluginHost.Json
