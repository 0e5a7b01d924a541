import PluginHost.Text.Numeral
/-!
Dates and times of TOML documents.
-/

namespace PluginHost.Toml

structure Date where
  year : Nat
  month : Nat
  day : Nat
deriving DecidableEq, Inhabited

structure Time where
  hour : Nat
  minute : Nat
  second : Nat
  nanosecond : Nat
deriving DecidableEq, Inhabited

/-- How far local time is ahead of universal time. -/
inductive Offset where
  | universal
  | minutes (ahead : Int)
deriving DecidableEq, Inhabited

/-- A date, a time of day, or both; with both there may be an offset. -/
structure Datetime where
  date : Option Date
  time : Option Time
  offset : Option Offset
deriving DecidableEq, Inhabited

def isLeapYear (year : Nat) : Bool :=
  year % 4 = 0 && (year % 100 ≠ 0 || year % 400 = 0)

def daysInMonth (year month : Nat) : Nat :=
  match month with
  | 2 => if isLeapYear year then 29 else 28
  | 4 | 6 | 9 | 11 => 30
  | _ => 31

/-- The number that exactly `count` digits at the start of a text write, and what follows. -/
def fixedDigits? (count : Nat) (s : List Char) : Option (Nat × List Char) :=
  let digits := s.take count
  if digits.length = count && digits.all Char.isDigit then
    some (Nat.ofDigitChars 10 digits 0, s.drop count)
  else none

/-- What follows a given character. -/
def after? (c : Char) : List Char → Option (List Char)
  | x :: rest => if x = c then some rest else none
  | [] => none

/-- A day that the calendar has. -/
def date? (s : List Char) : Option (Date × List Char) := do
  let (year, s) ← fixedDigits? 4 s
  let (month, s) ← fixedDigits? 2 (← after? '-' s)
  let (day, s) ← fixedDigits? 2 (← after? '-' s)
  if 1 ≤ month ∧ month ≤ 12 ∧ 1 ≤ day ∧ day ≤ daysInMonth year month then
    some (⟨year, month, day⟩, s)
  else none

/-- The digits after a point in the seconds, if there is a point. -/
def secondFraction? : List Char → Option (Nat × List Char)
  | '.' :: s =>
    let digits := s.takeWhile Char.isDigit
    if digits.isEmpty then none
    else
      let kept := digits.take 9
      let padded := kept ++ List.replicate (9 - kept.length) '0'
      some (Nat.ofDigitChars 10 padded 0, s.dropWhile Char.isDigit)
  | s => some (0, s)

/-- How far times of day and offsets may go. -/
structure ClockBounds where
  lastHour : Nat
  /-- Whether there is an offset of so many hours and minutes. -/
  hasOffset : Nat → Nat → Bool

/-- The bounds of a document: what a clock shows. -/
def ClockBounds.document : ClockBounds := ⟨23, fun hours minutes => hours ≤ 23 && minutes ≤ 59⟩

/-- The bounds of a text on its own: a day may end with hour 24, and an offset is at most a day,
    whatever its minutes. -/
def ClockBounds.text : ClockBounds := ⟨24, fun hours minutes => hours * 60 + minutes ≤ 1440⟩

/-- A time of day; the last second of a day may be a leap second. Digits beyond nanoseconds are
    dropped. -/
def time? (bounds : ClockBounds) (s : List Char) : Option (Time × List Char) := do
  let (hour, s) ← fixedDigits? 2 s
  let (minute, s) ← fixedDigits? 2 (← after? ':' s)
  let (second, s) ← fixedDigits? 2 (← after? ':' s)
  let (nanosecond, s) ← secondFraction? s
  if hour ≤ bounds.lastHour ∧ minute ≤ 59 ∧ second ≤ 60 then
    some (⟨hour, minute, second, nanosecond⟩, s)
  else none

/-- An offset of hours and minutes. -/
def offsetMinutes? (bounds : ClockBounds) (s : List Char) : Option Nat := do
  let (hours, s) ← fixedDigits? 2 s
  let (minutes, s) ← fixedDigits? 2 (← after? ':' s)
  if s.isEmpty && bounds.hasOffset hours minutes then some (hours * 60 + minutes) else none

/-- An offset that makes up the whole text; no text is no offset. -/
def offset? (bounds : ClockBounds) : List Char → Option (Option Offset)
  | [] => some none
  | ['Z'] | ['z'] => some (some .universal)
  | '+' :: s => (offsetMinutes? bounds s).map fun (n : Nat) => some (.minutes n)
  | '-' :: s => (offsetMinutes? bounds s).map fun (n : Nat) => some (.minutes (-n))
  | _ => none

/-- The date, time or both that a whole text writes. -/
def Datetime.within? (bounds : ClockBounds) (s : List Char) : Option Datetime :=
  match date? s with
  | some (date, []) => some ⟨some date, none, none⟩
  | some (date, mark :: rest) =>
    if mark = 'T' ∨ mark = 't' ∨ mark = ' ' then do
      let (time, rest) ← time? bounds rest
      let offset ← offset? bounds rest
      return ⟨some date, some time, offset⟩
    else none
  | none =>
    match time? bounds s with
    | some (time, []) => some ⟨none, some time, none⟩
    | _ => none

/-- The date, time or both that stands for itself in a document. -/
def Datetime.ofLiteral? : List Char → Option Datetime := within? .document

/-- The date, time or both that a text on its own writes. -/
def Datetime.ofText? : List Char → Option Datetime := within? .text

/-- A number filled with zeros up to `width` digits. -/
def padded (width n : Nat) : List Char :=
  let digits := Text.ofNat n
  List.replicate (width - digits.length) '0' ++ digits

def Date.text (d : Date) : List Char :=
  padded 4 d.year ++ '-' :: padded 2 d.month ++ '-' :: padded 2 d.day

/-- The time with as many digits after the point as it needs. -/
def Time.text (t : Time) : List Char :=
  padded 2 t.hour ++ ':' :: padded 2 t.minute ++ ':' :: padded 2 t.second ++
    if t.nanosecond = 0 then []
    else '.' :: ((padded 9 t.nanosecond).reverse.dropWhile (· = '0')).reverse

def Offset.text : Offset → List Char
  | .universal => ['Z']
  | .minutes ahead =>
    let n := ahead.natAbs
    (if ahead < 0 then '-' else '+') :: padded 2 (n / 60) ++ ':' :: padded 2 (n % 60)

def Datetime.text (d : Datetime) : List Char :=
  let date := (d.date.map Date.text).getD []
  let time := (d.time.map Time.text).getD []
  let between := if d.date.isSome && d.time.isSome then ['T'] else []
  date ++ between ++ time ++ (d.offset.map Offset.text).getD []

end PluginHost.Toml
