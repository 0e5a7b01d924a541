import PluginHost.Text.CharClass
/-!
Numbers as text: canonical decimal writing, and the reading that number fields of diagnostics and of the
command line share; hexadecimal text; and integers in a base that their first digits tell.
-/

namespace PluginHost.Text

def ofNat (n : Nat) : List Char := Nat.toDigits 10 n

def ofInt : Int → List Char
  | .ofNat n => ofNat n
  | .negSucc n => '-' :: ofNat (n + 1)

/-- The number that a non-empty run of digits writes, leading zeros included. -/
def digits? (s : List Char) : Option Nat :=
  if s.isEmpty || !s.all Char.isDigit then none else some (Nat.ofDigitChars 10 s 0)

/-- An unsigned number below `bound`; one plus sign may stand in front. -/
def natBelow? (bound : Nat) (s : List Char) : Option Nat :=
  let body := match s with
    | '+' :: rest => rest
    | _ => s
  (digits? body).filter (· < bound)

/-- A signed number; one sign may stand in front. -/
def int? : List Char → Option Int
  | '-' :: rest => (digits? rest).map fun n => -(n : Int)
  | '+' :: rest => (digits? rest).map Int.ofNat
  | s => (digits? s).map Int.ofNat

/-! Hexadecimal text. -/

/-- The digit for a value below 16, in lower case. -/
def hexDigit (n : Nat) : Char := Nat.digitChar n

def hexValue? (c : Char) : Option Nat :=
  if '0' ≤ c ∧ c ≤ '9' then some (c.toNat - '0'.toNat)
  else if 'a' ≤ c ∧ c ≤ 'f' then some (c.toNat - 'a'.toNat + 10)
  else if 'A' ≤ c ∧ c ≤ 'F' then some (c.toNat - 'A'.toNat + 10)
  else none

/-- The last `width` hexadecimal digits of a number. -/
def hexFixed : Nat → Nat → List Char
  | 0, _ => []
  | width + 1, n => hexFixed width (n / 16) ++ [hexDigit (n % 16)]

/-- A number in hexadecimal without leading zeros. -/
def hexOfNat (n : Nat) : List Char := Nat.toDigits 16 n

/-- A number in hexadecimal, filled with zeros up to `width` digits. -/
def hexPadded (width n : Nat) : List Char :=
  let digits := hexOfNat n
  List.replicate (width - digits.length) '0' ++ digits

def hexNat? (s : List Char) : Option Nat :=
  s.foldlM (fun n c => (hexValue? c).map (n * 16 + ·)) 0

/-- Two lower-case digits a byte. -/
def hexOfBytes (bytes : List UInt8) : List Char :=
  bytes.flatMap fun b => hexFixed 2 b.toNat

def bytesOfHex? : List Char → Option (List UInt8)
  | [] => some []
  | [_] => none
  | high :: low :: rest => do
    let h ← hexValue? high
    let l ← hexValue? low
    return UInt8.ofNat (h * 16 + l) :: (← bytesOfHex? rest)

/-! Integers at the start of a text, in a base that their first digits tell. -/

/-- The value of the longest run of digits at the start of a text, and what follows it. -/
def takeDigits (base : Nat) (s : List Char) : List Char × List Char :=
  let isDigit := fun c => (hexValue? c).any (· < base)
  (s.takeWhile isDigit, s.dropWhile isDigit)

def digitsValue (base : Nat) (digits : List Char) : Nat :=
  digits.foldl (fun n c => n * base + (hexValue? c).getD 0) 0

/-- A number without a sign: hexadecimal behind `0x`, octal behind `0`, else decimal. -/
def takeLiteral (s : List Char) : Option (Nat × List Char) :=
  let plain := fun (base : Nat) =>
    let (digits, rest) := takeDigits base s
    if digits.isEmpty then none else some (digitsValue base digits, rest)
  match s with
  | '0' :: x :: rest =>
    if x = 'x' || x = 'X' then
      match takeDigits 16 rest with
      | ([], _) => plain 8
      | (digits, after) => some (digitsValue 16 digits, after)
    else plain 8
  | '0' :: _ => plain 8
  | _ => plain 10

/-- The sign in front of a number, and the rest. -/
def takeSign : List Char → Bool × List Char
  | '-' :: rest => (true, rest)
  | '+' :: rest => (false, rest)
  | s => (false, s)

/-- A signed number behind blanks, in a base that its first digits tell. -/
def takeSignedLiteral (s : List Char) : Option (Int × List Char) := do
  let (isNegative, rest) := takeSign (s.dropWhile isSpace)
  let (n, rest) ← takeLiteral rest
  return (if isNegative then -(n : Int) else n, rest)

/-- A signed decimal number behind blanks. -/
def takeSignedDecimal (s : List Char) : Option (Int × List Char) :=
  let (isNegative, rest) := takeSign (s.dropWhile isSpace)
  match takeDigits 10 rest with
  | ([], _) => none
  | (digits, rest) =>
    let n := digitsValue 10 digits
    some (if isNegative then -(n : Int) else n, rest)

/-- The nearest number of 64 bits. -/
def clamp64 (n : Int) : Int :=
  if n < -0x8000000000000000 then -0x8000000000000000
  else if 0x7FFFFFFFFFFFFFFF < n then 0x7FFFFFFFFFFFFFFF
  else n

/-- Whether a number has 64 bits. -/
def fits64 (n : Int) : Bool := clamp64 n = n

end PluginHost.Text
