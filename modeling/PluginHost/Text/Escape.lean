import PluginHost.Text.Numeral
/-!
Escapes: backslashes that make other characters of those behind them.
-/

namespace PluginHost.Text

/-- The character of an escape with one letter. -/
def escape? : Char → Option Char
  | 'a' => some '\x07'
  | 'b' => some '\x08'
  | 'e' => some '\x1b'
  | 'f' => some '\x0c'
  | 'n' => some '\n'
  | 'r' => some '\r'
  | 't' => some '\t'
  | 'v' => some '\x0b'
  | '\\' => some '\\'
  | _ => none

def isOctal (c : Char) : Bool := '0' ≤ c && c ≤ '7'

/-- The byte that up to so many octal digits at the start of a text write, and the rest. -/
def takeOctal (count : Nat) (s : List Char) : Char × List Char :=
  let digits := (s.take count).takeWhile isOctal
  (Char.ofNat (digitsValue 8 digits % 256), s.drop digits.length)

/-- The byte that a number behind a letter for its base writes, and the rest. -/
def takeCoded (s : List Char) : Option (Char × List Char) :=
  let take := fun (base count : Nat) (rest : List Char) =>
    match (takeDigits base (rest.take count)).1 with
    | [] => none
    | digits => some (Char.ofNat (digitsValue base digits % 256), rest.drop digits.length)
  match s with
  | 'x' :: rest => take 16 2 rest
  | 'o' :: rest => take 8 3 rest
  | 'd' :: rest => take 10 3 rest
  | _ => none

/-- What an escape stands for, and what follows it. A backslash before anything else stands for
    itself. -/
def takeEscape (s : List Char) : Char × List Char :=
  match s with
  | c :: rest =>
    if isOctal c then takeOctal 3 s
    else
      match escape? c with
      | some e => (e, rest)
      | none => ('\\', s)
  | [] => ('\\', [])

/-- A text with what its escapes stand for, and whether one of them says that no output follows. Octal
    digits may stand behind a zero. The fuel bounds the characters. -/
def unescapeWithin : Nat → List Char → List Char → List Char × Bool
  | 0, done, _ => (done.reverse, false)
  | _, done, [] => (done.reverse, false)
  | fuel + 1, done, '\\' :: rest =>
    match rest with
    | 'c' :: _ => (done.reverse, true)
    | '0' :: d :: after =>
      let (c, rest) := if isOctal d then takeOctal 3 (d :: after) else takeEscape rest
      unescapeWithin fuel (c :: done) rest
    | rest =>
      let (c, rest) := takeEscape rest
      unescapeWithin fuel (c :: done) rest
  | fuel + 1, done, c :: rest => unescapeWithin fuel (c :: done) rest

def unescape (s : List Char) : List Char × Bool := unescapeWithin s.length [] s

end PluginHost.Text
