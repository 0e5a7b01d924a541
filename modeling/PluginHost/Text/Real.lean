import PluginHost.Binary64.Basic
import PluginHost.Text.Numeral
/-!
Numbers with a point and an exponent at the start of a text.
-/

namespace PluginHost.Text

/-- An exponent behind its letter, if there is one. -/
def takeExponent (isLetter : Char → Bool) (s : List Char) : Int × List Char :=
  match s with
  | c :: rest =>
    if isLetter c then
      let (isNegative, rest) := takeSign rest
      match takeDigits 10 rest with
      | ([], _) => (0, s)
      | (digits, rest) =>
        let n : Int := digitsValue 10 digits
        (if isNegative then -n else n, rest)
    else (0, s)
  | [] => (0, s)

/-- Digits with a point among them, and how many stand behind it. -/
def takePointed (base : Nat) (s : List Char) : Option (Nat × Nat × List Char) :=
  let (whole, rest) := takeDigits base s
  let (part, rest) := match rest with
    | '.' :: after =>
      let (part, left) := takeDigits base after
      if whole.isEmpty && part.isEmpty then ([], rest) else (part, left)
    | rest => ([], rest)
  if whole.isEmpty && part.isEmpty then none
  else some (digitsValue base (whole ++ part), part.length, rest)

/-- A word, whatever its case, at the start of a text. -/
def takeWord? (word : String) (s : List Char) : Option (List Char) :=
  if (s.take word.length).map Char.toLower = word.toList then some (s.drop word.length) else none

/-- A magnitude at the start of a text. -/
def takeMagnitude (isNegative : Bool) (s : List Char) : Option (Binary64 × List Char) :=
  let decimal := (takePointed 10 s).map fun (n, places, rest) =>
    let (e, rest) := takeExponent (fun c => c = 'e' || c = 'E') rest
    (Binary64.ofDecimal isNegative n (e - places), rest)
  match s with
  | '0' :: x :: after =>
    if x = 'x' || x = 'X' then
      match takePointed 16 after with
      | some (n, places, rest) =>
        let (e, rest) := takeExponent (fun c => c = 'p' || c = 'P') rest
        let e := (min 2000 (max (-2000) e)) - 4 * places
        some (Binary64.ofRatio isNegative (n <<< e.toNat) (1 <<< (-e).toNat), rest)
      | none => decimal
    else decimal
  | s =>
    match takeWord? "infinity" s <|> takeWord? "inf" s with
    | some rest => some (Binary64.infinity isNegative, rest)
    | none =>
      match takeWord? "nan" s with
      | some rest => some (Binary64.nan isNegative, rest)
      | none => decimal

/-- A number behind blanks and a sign. -/
def takeReal (s : List Char) : Option (Binary64 × List Char) :=
  let (isNegative, rest) := takeSign (s.dropWhile isSpace)
  takeMagnitude isNegative rest

end PluginHost.Text
