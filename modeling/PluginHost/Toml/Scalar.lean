import PluginHost.Text.Numeral
import PluginHost.Toml.Value
/-!
Scalars in TOML documents.
-/

namespace PluginHost.Toml

/-! Quoted text: with or without escapes, on one line or on several.

Each reader starts behind the opening quotes and gives the text and what follows the closing ones. -/

/-- Whether a character may stand in quoted text as it is. -/
def isQuotable (c : Char) : Bool := c == '\t' || (0x20 ≤ c.toNat && c.toNat ≠ 0x7F)

/-- The character of a one-letter escape. -/
def shortEscape? : Char → Option Char
  | 'b' => some '\x08'
  | 't' => some '\t'
  | 'n' => some '\n'
  | 'f' => some '\x0C'
  | 'r' => some '\r'
  | '"' => some '"'
  | '\\' => some '\\'
  | _ => none

/-- The character with a code point. -/
def character? (n : Nat) : Option Char :=
  if n.isValidChar then some (Char.ofNat n) else none

/-- Behind three closing quotes: one or two more quotes belong to the text. -/
def closing (quote : Char) : List Char → List Char × List Char
  | a :: b :: rest =>
    if a = quote then if b = quote then ([quote, quote], rest) else ([quote], b :: rest)
    else ([], a :: b :: rest)
  | [a] => if a = quote then ([quote], []) else ([], [a])
  | [] => ([], [])

/-- What is being read in text with escapes. -/
inductive Mode where
  | text
  /-- Behind a backslash and blanks, where the line has to end. -/
  | lineEnd
  /-- Behind a line that ended in a backslash: blanks and line ends are passed over. -/
  | blank
  /-- In the digits of a code point; `more` follow the next one. -/
  | point (more value : Nat)
deriving DecidableEq

/-- Puts a character in front of the text that is still to be read. -/
def emit (c : Char) (read : Option (List Char × List Char)) : Option (List Char × List Char) :=
  read.map fun (text, rest) => (c :: text, rest)

def isBlankOrEnd (c : Char) : Bool := c == ' ' || c == '\t' || c == '\n'

/-- Whether a carriage return stands here as the first half of a line end. -/
def isReturn (c : Char) (rest : List Char) : Bool := c == '\r' && rest.head? == some '\n'

/-- Text with escapes, on one line or on several. On several lines, a backslash at the end of a line
    takes away the line end and all blanks and line ends after it; any other line end is kept as a
    line feed. -/
def basic? (several : Bool) : Mode → List Char → Option (List Char × List Char)
  | _, [] => none
  | .point more value, c :: rest =>
    match Text.hexValue? c, more with
    | none, _ => none
    | some digit, 0 =>
      (character? (value * 16 + digit)).bind fun x => emit x (basic? several .text rest)
    | some digit, more + 1 => basic? several (.point more (value * 16 + digit)) rest
  | .lineEnd, c :: rest =>
    if c == ' ' || c == '\t' || isReturn c rest then basic? several .lineEnd rest
    else if c == '\n' then basic? several .blank rest
    else none
  | mode, c :: rest =>
    if mode == .blank && (isBlankOrEnd c || isReturn c rest) then basic? several .blank rest
    else if c == '"' then
      if !several then some ([], rest)
      else if ['"', '"'].isPrefixOf rest then some (closing '"' (rest.drop 2))
      else emit '"' (basic? several .text rest)
    else if c == '\\' then
      match rest with
      | [] => none
      | 'u' :: rest => basic? several (.point 3 0) rest
      | 'U' :: rest => basic? several (.point 7 0) rest
      | e :: rest =>
        if several && (isBlankOrEnd e || isReturn e rest) then
          basic? several (if e == '\n' then .blank else .lineEnd) rest
        else (shortEscape? e).bind fun x => emit x (basic? several .text rest)
    else if several && isReturn c rest then basic? several .text rest
    else if isQuotable c || (several && c == '\n') then emit c (basic? several .text rest)
    else none

def literal? : List Char → Option (List Char × List Char)
  | [] => none
  | '\'' :: rest => some ([], rest)
  | c :: rest =>
    if isQuotable c then emit c (literal? rest) else none

/-- Several lines without escapes. -/
def literalLines? : List Char → Option (List Char × List Char)
  | [] => none
  | '\'' :: '\'' :: '\'' :: rest => some (closing '\'' rest)
  | '\r' :: '\n' :: rest => emit '\n' (literalLines? rest)
  | c :: rest => if isQuotable c || c == '\n' then emit c (literalLines? rest) else none

/-- The text without a line end at its start. -/
def dropLineEnd : List Char → List Char
  | '\n' :: rest => rest
  | '\r' :: '\n' :: rest => rest
  | s => s

/-- Quoted text of any kind at the start of a text. -/
def quotation? : List Char → Option (List Char × List Char)
  | '"' :: '"' :: '"' :: rest => basic? true .text (dropLineEnd rest)
  | '\'' :: '\'' :: '\'' :: rest => literalLines? (dropLineEnd rest)
  | '"' :: rest => basic? false .text rest
  | '\'' :: rest => literal? rest
  | _ => none

/-! Scalars that are written without quotes: booleans, numbers, dates and times. -/

/-- The characters that such scalars are made of. -/
def isScalarChar (c : Char) : Bool :=
  c.isAlphanum || c == '+' || c == '-' || c == '_' || c == '.' || c == ':'

/-- Digits without the underscores between them. An underscore stands between two digits. -/
def ungroup? (isDigit : Char → Bool) : List Char → Option (List Char)
  | [] => none
  | [c] => if isDigit c then some [c] else none
  | c :: '_' :: rest => if isDigit c then (ungroup? isDigit rest).map (c :: ·) else none
  | c :: rest => if isDigit c then (ungroup? isDigit rest).map (c :: ·) else none

/-- The value of digits in a base, if it fits into 63 bits. -/
def based? (base : Nat) (digits : List Char) : Option Value := do
  let isDigit := fun c => (Text.hexValue? c).any (· < base)
  let digits ← ungroup? isDigit digits
  let n := digits.foldl (fun n c => n * base + (Text.hexValue? c).getD 0) 0
  if n < 0x8000000000000000 then some (.int n) else none

/-- The digits of a decimal number: no zero leads but the only one. -/
def wholeDigits? (s : List Char) : Option (List Char) := do
  let digits ← ungroup? Char.isDigit s
  if digits.length > 1 && digits.head? = some '0' then none else some digits

/-- The sign in front of a number, and the rest. -/
def sign : List Char → Bool × List Char
  | '-' :: rest => (true, rest)
  | '+' :: rest => (false, rest)
  | s => (false, s)

/-- A decimal integer of 64 bits. -/
def decimalInt? (s : List Char) : Option Value := do
  let (negative, s) := sign s
  let digits ← wholeDigits? s
  let n : Int := Nat.ofDigitChars 10 digits 0
  let value := if negative then -n else n
  if -0x8000000000000000 ≤ value ∧ value < 0x8000000000000000 then some (.int value) else none

/-- A number in hexadecimal, octal, binary or decimal notation. -/
def int? : List Char → Option Value
  | '0' :: 'x' :: digits => based? 16 digits
  | '0' :: 'o' :: digits => based? 8 digits
  | '0' :: 'b' :: digits => based? 2 digits
  | s => decimalInt? s

/-- The power of ten that follows the exponent mark. -/
def power? (s : List Char) : Option Int := do
  let (negative, s) := sign s
  let digits ← ungroup? Char.isDigit s
  let n : Int := Nat.ofDigitChars 10 digits 0
  return if negative then -n else n

/-- A text cut at its exponent mark, if it has one. -/
def cutExponent (s : List Char) : List Char × Option (List Char) :=
  let mantissa := s.takeWhile fun c => c ≠ 'e' && c ≠ 'E'
  (mantissa, if mantissa.length < s.length then some (s.drop (mantissa.length + 1)) else none)

/-- A decimal number with a fraction, an exponent or both. Only what exceeds the range upward is
    refused. -/
def decimalFloat? (s : List Char) : Option Value := do
  let (negative, s) := sign s
  let (mantissa, exponent) := cutExponent s
  let power ← match exponent with
    | none => some 0
    | some text => power? text
  let whole := mantissa.takeWhile (· ≠ '.')
  let fraction ← if whole.length < mantissa.length then
      ungroup? Char.isDigit (mantissa.drop (whole.length + 1))
    else if exponent.isSome then some [] else none
  let digits ← wholeDigits? whole
  let x := Binary64.ofDecimal negative (Nat.ofDigitChars 10 (digits ++ fraction) 0)
    (power - fraction.length)
  if x = .infinity false then none else some (.float x)

def float? (s : List Char) : Option Value :=
  let (negative, body) := sign s
  match body with
  | ['i', 'n', 'f'] => some (.float (.infinity negative))
  | ['n', 'a', 'n'] => some (.float (.nan negative))
  | _ => decimalFloat? s

/-- The value of a scalar that makes up the whole text. -/
def scalar? (s : List Char) : Option Value :=
  match s with
  | ['t', 'r', 'u', 'e'] => some (.bool true)
  | ['f', 'a', 'l', 's', 'e'] => some (.bool false)
  | _ => ((Datetime.ofLiteral? s).map Value.datetime).or ((float? s).or (int? s))

/-- A scalar at the start of a text, and what follows it. One space may stand between a date and a
    time of day. -/
def scalarAt? (s : List Char) : Option (Value × List Char) :=
  let first := s.takeWhile isScalarChar
  let rest := s.dropWhile isScalarChar
  let joined? := match date? first, rest with
    | some (_, []), ' ' :: more =>
      let second := more.takeWhile isScalarChar
      (scalar? (first ++ ' ' :: second)).map fun v => (v, more.dropWhile isScalarChar)
    | _, _ => none
  joined?.or ((scalar? first).map fun v => (v, rest))

end PluginHost.Toml
