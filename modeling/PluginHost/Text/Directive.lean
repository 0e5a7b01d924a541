import PluginHost.Binary64.Basic
import PluginHost.Text.Numeral
/-!
Directives of formats: how texts and numbers are written with a given width and precision.
-/

namespace PluginHost.Text

/-- What stands between a percent sign and a letter, and the letter. -/
structure Directive where
  isLeft : Bool
  hasSign : Bool
  hasBlank : Bool
  isAlternate : Bool
  hasZeros : Bool
  width : Nat
  precision : Option Nat
  letter : Char
deriving DecidableEq, Inhabited

namespace Directive

/-- The directive with no flags. -/
def plain (letter : Char) : Directive := ⟨false, false, false, false, false, 0, none, letter⟩

def withFlag (d : Directive) : Char → Directive
  | '-' => { d with isLeft := true }
  | '+' => { d with hasSign := true }
  | ' ' => { d with hasBlank := true }
  | '#' => { d with isAlternate := true }
  | '0' => { d with hasZeros := true }
  | _ => d

/-- The width that an argument gives; a negative one stands for a flag too. -/
def withWidth (d : Directive) (n : Int) : Directive :=
  if n < 0 then { d with isLeft := true, width := n.natAbs } else { d with width := n.toNat }

/-- A body behind a sign, filled up to the width. Zeros go between them, if they may be used. -/
def fill (d : Directive) (mayZero : Bool) (sign body : List Char) : List Char :=
  let count := d.width - (sign.length + body.length)
  if d.isLeft then sign ++ body ++ List.replicate count ' '
  else if d.hasZeros && mayZero then sign ++ List.replicate count '0' ++ body
  else List.replicate count ' ' ++ sign ++ body

def text (d : Directive) (s : List Char) : List Char :=
  d.fill false [] (match d.precision with
    | some n => s.take n
    | none => s)

def sign (d : Directive) (isNegative : Bool) : List Char :=
  if isNegative then ['-'] else if d.hasSign then ['+'] else if d.hasBlank then [' '] else []

/-- Digits with zeros in front up to the precision; no digits stand for zero if that is nought. -/
def digits (d : Directive) (base n : Nat) : List Char :=
  match d.precision with
  | none => Nat.toDigits base n
  | some p =>
    let s := if n = 0 then [] else Nat.toDigits base n
    List.replicate (p - s.length) '0' ++ s

/-- A signed number. -/
def integer (d : Directive) (n : Int) : List Char :=
  d.fill d.precision.isNone (d.sign (n < 0)) (d.digits 10 n.natAbs)

/-- An unsigned number in the base that the letter tells. -/
def natural (d : Directive) (n : Nat) : List Char :=
  match d.letter with
  | 'o' =>
    let s := d.digits 8 n
    d.fill d.precision.isNone [] (if d.isAlternate && s.head? ≠ some '0' then '0' :: s else s)
  | 'x' =>
    d.fill d.precision.isNone (if d.isAlternate && n ≠ 0 then ['0', 'x'] else []) (d.digits 16 n)
  | 'X' =>
    d.fill d.precision.isNone (if d.isAlternate && n ≠ 0 then ['0', 'X'] else [])
      ((d.digits 16 n).map Char.toUpper)
  | _ => d.fill d.precision.isNone [] (d.digits 10 n)

/-- Digits with a point so many places before their end. -/
def point (d : Directive) (places : Nat) (s : List Char) : List Char :=
  let s := List.replicate (places + 1 - s.length) '0' ++ s
  let whole := s.take (s.length - places)
  if places = 0 then (if d.isAlternate then whole ++ ['.'] else whole)
  else whole ++ '.' :: s.drop (s.length - places)

/-- A magnitude with so many places behind the point. -/
def fixed (d : Directive) (places : Nat) (x : Binary64) : List Char :=
  let (n, m) := x.ratio
  d.point places (ofNat (Binary64.roundHalfEven (n * Binary64.tenTo places) m))

/-- The digits of a magnitude, one before the point and so many behind it, and its exponent. -/
def scientific (places : Nat) (x : Binary64) : List Char × Int :=
  if x.significand = 0 then (List.replicate (places + 1) '0', 0)
  else
    let (n, m) := x.ratio
    let magnitude := x.decimalMagnitude
    let up : Int := places - magnitude
    let s := ofNat (Binary64.roundHalfEven (n * Binary64.tenTo up.toNat)
      (m * Binary64.tenTo (-up).toNat))
    if s.length = places + 1 then (s, magnitude) else (s.take (places + 1), magnitude + 1)

def exponentText (e : Int) : List Char :=
  let s := ofNat e.natAbs
  (if e < 0 then ['e', '-'] else ['e', '+']) ++ List.replicate (2 - s.length) '0' ++ s

/-- A text with a point without the zeros at its end. -/
def trimZeros (s : List Char) : List Char :=
  if s.contains '.' then
    match (s.reverse.dropWhile (· = '0')) with
    | '.' :: rest => rest.reverse
    | rest => rest.reverse
  else s

/-- A magnitude in the form that takes less room. -/
def general (d : Directive) (precision : Nat) (x : Binary64) : List Char :=
  let precision := max 1 precision
  let (s, e) := scientific (precision - 1) x
  let trim := fun s => if d.isAlternate then s else trimZeros s
  if -4 ≤ e && e < precision then trim (d.fixed ((precision : Int) - 1 - e).toNat x)
  else trim (d.point (precision - 1) s) ++ exponentText e

/-- A magnitude as a hexadecimal fraction of a power of two. -/
def hexadecimal (x : Binary64) : List Char :=
  let digits := (hexFixed 13 x.fractionField).reverse.dropWhile (· = '0') |>.reverse
  let e : Int := if x.significand = 0 then 0 else (max 1 x.exponentField : Nat) - (1023 : Int)
  ['0', 'x', if x.exponentField = 0 then '0' else '1'] ++
    (if digits.isEmpty then [] else '.' :: digits) ++
    (if e < 0 then ['p', '-'] else ['p', '+']) ++ ofNat e.natAbs

/-- A number with a point. -/
def float (d : Directive) (x : Binary64) : List Char :=
  let precision := d.precision.getD 6
  let body :=
    if x.isNaN then ['n', 'a', 'n']
    else if x.isInfinite then ['i', 'n', 'f']
    else match d.letter.toLower with
      | 'e' =>
        let (s, e) := scientific precision x
        d.point precision s ++ exponentText e
      | 'g' => d.general precision x
      | 'a' => hexadecimal x
      | _ => d.fixed precision x
  let body := if d.letter.isUpper then body.map Char.toUpper else body
  d.fill x.isFinite (d.sign x.isNegative) body

/-- What stands behind a percent sign: flags, and the width and precision, each a number or a star.
    The rest begins with the letter. -/
structure Parts where
  flags : List Char
  /-- There is no number where a star stands. -/
  width : Option Nat
  /-- There may be none. -/
  precision : Option (Option Nat)
  rest : List Char

def takeNumber (s : List Char) : Option Nat × List Char :=
  match s with
  | '*' :: rest => (none, rest)
  | s =>
    let digits := s.takeWhile Char.isDigit
    (some (Nat.ofDigitChars 10 digits 0), s.drop digits.length)

def takeParts (s : List Char) : Parts :=
  let isFlag := fun c => c ∈ ['#', '-', '+', ' ', '0']
  let (width, rest) := takeNumber (s.dropWhile isFlag)
  let flags := s.takeWhile isFlag
  match rest with
  | '.' :: rest =>
    let (precision, rest) := takeNumber rest
    ⟨flags, width, some precision, rest⟩
  | rest => ⟨flags, width, none, rest⟩

end Directive

end PluginHost.Text
