import PluginHost.Binary64.Basic
import PluginHost.Text.Directive
import PluginHost.Text.Real
/-!
Values and tables of values.
-/

namespace PluginHost.Utility.Awk

/-! Tables from texts to values, in the order in which such programs go through them.

The entries lie in as many lists as there are places; the number of a key tells its place. Keys are
texts, but those that were made from integers have lists of their own as long as nobody asks for texts.
An entry that is found goes to the front of its list. -/

/-- An entry of a table: its key, the integer that it was made from, and its value. -/
structure TableEntry (α : Type) where
  key : String
  number : Option Int
  value : α
deriving Inhabited

structure Table (α : Type) where
  entries : Array (Option (TableEntry α))
  /-- The entries of each place by their texts. -/
  texts : Array (List Nat)
  /-- The entries of each place by their integers. -/
  numbers : Array (List Nat)
  size : Nat
  hasTexts : Bool
deriving Inhabited

/-- What leads to an entry. -/
inductive Key where
  | text (s : String)
  | number (n : Int)
deriving Inhabited

namespace Table

/-- How many places a table has at first. -/
def firstPlaces : Nat := 64

/-- How many entries there are for each place at most. -/
def entriesPerPlace : Nat := 12

def empty {α : Type} : Table α :=
  ⟨#[], Array.replicate firstPlaces [], Array.replicate firstPlaces [], 0, false⟩

/-- The number that a text has. -/
def hash (s : String) : Nat :=
  (s.toList.foldl (fun (h : UInt32) c => (h ^^^ UInt32.ofNat c.toNat) * 16777619) 2166136261).toNat

def textPlace {α : Type} (t : Table α) (key : String) : Nat := hash key % t.texts.size

def numberPlace {α : Type} (t : Table α) (n : Int) : Nat := (n % (t.texts.size : Int)).toNat

def entryAt {α : Type} (t : Table α) (index : Nat) : Option (TableEntry α) := (t.entries[index]?).join

def keyAt {α : Type} (t : Table α) (index : Nat) : String := ((t.entryAt index).map (·.key)).getD ""

/-- Gives all entries a place by their texts. -/
def withTexts {α : Type} (t : Table α) : Table α :=
  if t.hasTexts then t
  else
    let texts := t.numbers.foldl (fun texts indices =>
      indices.foldl (fun (texts : Array (List Nat)) index =>
        texts.modify (hash (t.keyAt index) % t.texts.size) (index :: ·)) texts)
      (Array.replicate t.texts.size [])
    { t with texts, hasTexts := true }

/-- Makes twice as many places once there are too many entries. -/
def grown {α : Type} (t : Table α) : Table α :=
  if t.size ≤ t.texts.size * entriesPerPlace then t
  else
    let places := 2 * t.texts.size
    let split := fun (lists : Array (List Nat)) (place : Nat → Nat) =>
      (lists.mapIdx fun n indices => indices.filter fun index => place index = n) ++
        (lists.mapIdx fun n indices => indices.filter fun index => place index = n + lists.size)
    { t with
      texts := split t.texts fun index => hash (t.keyAt index) % places
      numbers := split t.numbers fun index =>
        ((((t.entryAt index).bind (·.number)).getD 0) % (places : Int)).toNat }

/-- Finds an entry by its text, and makes it if that is wanted. -/
def findText {α : Type} (t : Table α) (key : String) (new : Option α) : Table α × Option Nat :=
  let t := t.withTexts
  let place := t.textPlace key
  let indices := t.texts[place]?.getD []
  match indices.find? fun index => t.keyAt index = key with
  | some index =>
    ({ t with texts := t.texts.setIfInBounds place (index :: indices.filter (· ≠ index)) }, some index)
  | none =>
    match new with
    | none => (t, none)
    | some value =>
      let index := t.entries.size
      let t := { t with entries := t.entries.push (some ⟨key, none, value⟩), size := t.size + 1 }.grown
      ({ t with texts := t.texts.modify (t.textPlace key) (index :: ·) }, some index)

/-- Finds an entry by its integer, and makes it if that is wanted. -/
def findNumber {α : Type} (t : Table α) (n : Int) (new : Option α) : Table α × Option Nat :=
  let place := t.numberPlace n
  let indices := t.numbers[place]?.getD []
  match indices.find? fun index => ((t.entryAt index).bind (·.number)) = some n with
  | some index =>
    ({ t with numbers := t.numbers.setIfInBounds place (index :: indices.filter (· ≠ index)) },
      some index)
  | none =>
    let key := toString n
    if t.hasTexts then
      match t.findText key new with
      | (t, none) => (t, none)
      | (t, some index) =>
        ({ t with
          entries := t.entries.modify index fun e => e.map fun e => { e with number := some n }
          numbers := t.numbers.modify (t.numberPlace n) (index :: ·) }, some index)
    else
      match new with
      | none => (t, none)
      | some value =>
        let index := t.entries.size
        let t := { t with
          entries := t.entries.push (some ⟨key, some n, value⟩), size := t.size + 1 }.grown
        ({ t with numbers := t.numbers.modify (t.numberPlace n) (index :: ·) }, some index)

def find {α : Type} (t : Table α) (key : Key) (new : Option α) : Table α × Option Nat :=
  match key with
  | .text s => t.findText s new
  | .number n => t.findNumber n new

def valueAt? {α : Type} (t : Table α) (index : Nat) : Option α := (t.entryAt index).map (·.value)

def setAt {α : Type} (t : Table α) (index : Nat) (value : α) : Table α :=
  { t with entries := t.entries.modify index fun e => e.map fun e => { e with value } }

/-- Puts a value where a key leads to. -/
def insert {α : Type} (t : Table α) (key : Key) (value : α) : Table α :=
  match t.find key (some value) with
  | (t, some index) => t.setAt index value
  | (t, none) => t

def erase {α : Type} (t : Table α) (key : Key) : Table α :=
  match t.find key none with
  | (t, none) => t
  | (t, some index) =>
    if t.size ≤ 1 then empty
    else
      let without := fun (lists : Array (List Nat)) (place : Nat) =>
        lists.modify place (·.filter (· ≠ index))
      let texts := without t.texts (t.textPlace (t.keyAt index))
      let numbers := match (t.entryAt index).bind (·.number) with
        | some n => without t.numbers (t.numberPlace n)
        | none => t.numbers
      { t with texts, numbers, entries := t.entries.setIfInBounds index none, size := t.size - 1 }

/-- The keys in the order in which they are gone through. -/
def keys {α : Type} (t : Table α) : Table α × List String :=
  let t := t.withTexts
  (t, t.texts.toList.flatMap fun indices => indices.map t.keyAt)

end Table

/-! Values: numbers, texts, and texts from outside that look like numbers. -/

inductive Value where
  | unset
  | number (x : Float)
  | text (s : String)
  /-- A text from outside with the number that it looks like. -/
  | both (s : String) (x : Float)
deriving Inhabited

/-- The integer that a finite number has before its point. -/
def truncated (x : Float) : Int :=
  let b := Binary64.ofFloat x
  if !b.isFinite then 0
  else
    let (n, m) := b.ratio
    if b.isNegative then -((n / m : Nat) : Int) else (n / m : Nat)

def ofInt (n : Int) : Float := (Binary64.ofRatio (n < 0) n.natAbs 1).toFloat

/-- Whether a number is an integer that is written with all its digits. -/
def isWhole (x : Float) : Bool :=
  Binary64.isFinite (.ofFloat x) && x == x.floor && -9.3e18 < x && x < 1.8446744073709552e19

namespace Value

/-- What the start of a text has as a number. -/
def numberOf (s : String) : Float :=
  match Text.takeReal s.toList with
  | some (x, _) => x.toFloat
  | none => 0

/-- A value from outside. -/
def ofInput (s : String) : Value :=
  match Text.takeReal s.toList with
  | some (x, rest) => if rest.all Text.isSpace then both s x.toFloat else text s
  | none => text s

def toNumber : Value → Float
  | unset => 0
  | number x => x
  | text s => numberOf s
  | both _ x => x

/-- A number as a text; a format tells how if it is not whole. -/
def numberText (format : String) (x : Float) : String :=
  if isWhole x then toString (truncated x)
  else
    let b := Binary64.ofFloat x
    if b.isNaN then "-nan"
    else match format.toList with
      | '%' :: rest =>
        let parts := Text.Directive.takeParts rest
        match parts.rest with
        | letter :: after =>
          let d := parts.flags.foldl Text.Directive.withFlag (.plain letter)
          let d := { d with width := parts.width.getD 0, precision := parts.precision.bind id }
          String.ofList ((if letter ∈ ['d', 'i'] then d.integer (truncated x) else d.float b) ++ after)
        | [] => format
      | _ => format

def toText (format : String) : Value → String
  | unset => ""
  | number x => numberText format x
  | text s | both s _ => s

def isTrue : Value → Bool
  | unset => false
  | number x | both _ x => x != 0
  | text s => !s.isEmpty

def ofBool (b : Bool) : Value := number (if b then 1 else 0)

def ofNat (n : Nat) : Value := number (ofInt n)

/-- The number by which a value is compared with other numbers. -/
def comparable? : Value → Option Float
  | unset => some 0
  | number x | both _ x => some x
  | text _ => none

/-- Compares two values as numbers if both are some, else as texts. -/
def order (format : String) (a b : Value) : Ordering :=
  match a.comparable?, b.comparable? with
  | some x, some y => if x < y then .lt else if x == y then .eq else .gt
  | _, _ =>
    let s := a.toText format
    let t := b.toText format
    if s < t then .lt else if s = t then .eq else .gt

/-- What a value leads to in a table. -/
def key (format : String) : Value → Key
  | number x => if isWhole x then .number (truncated x) else .text (numberText format x)
  | v => .text (v.toText format)

end Value

/-- Writes values in the places of directives. What is wrong is given as a message. The fuel bounds the
    characters; `turn` counts the directives. -/
def formatWithin (convert : String) : Nat → Nat → List Char → List Value → List Char →
    Except String (List Char)
  | 0, _, done, _, _ => .ok done.reverse
  | _, _, done, _, [] => .ok done.reverse
  | fuel + 1, turn, done, values, '%' :: '%' :: rest =>
    formatWithin convert fuel turn ('%' :: done) values rest
  | fuel + 1, turn, done, values, '%' :: rest =>
    let parts := Text.Directive.takeParts rest
    let d := parts.flags.foldl Text.Directive.withFlag (.plain ' ')
    let (d, values, missing) := match parts.width, values with
      | some n, values => ({ d with width := n }, values, false)
      | none, v :: values => (d.withWidth (truncated v.toNumber), values, false)
      | none, [] => (d, [], true)
    let (d, values, missing) := match parts.precision, values with
      | none, values => (d, values, missing)
      | some (some n), values => ({ d with precision := some n }, values, missing)
      | some none, v :: values =>
        let n := truncated v.toNumber
        ({ d with precision := if n < 0 then none else some n.toNat }, values, missing)
      | some none, [] => (d, [], true)
    match parts.rest with
    | [] => .ok (('%' :: rest).reverse ++ done).reverse
    | c :: after =>
      let after := if c = 'l' || c = 'h' then after.drop 1 else after
      let c := if c = 'l' || c = 'h' then (parts.rest[1]?).getD c else c
      if c ∉ ['c', 'd', 'i', 'o', 'x', 'X', 'u', 's', 'e', 'E', 'f', 'F', 'g', 'G', 'a', 'A'] then
        .error ("improper conversion(number " ++ toString turn ++ ")")
      else
        match values, missing with
        | v :: values, false =>
          let d := { d with letter := c }
          let x := v.toNumber
          let whole := Text.clamp64 (truncated x)
          let written := match c with
            | 'c' => match v with
              | .number x => d.fill false [] [Char.ofNat ((truncated x % 256).toNat)]
              | v => d.fill false [] [((v.toText convert).toList.head?).getD (Char.ofNat 0)]
            | 's' => d.text (v.toText convert).toList
            | 'd' | 'i' => d.integer whole
            | 'o' | 'x' | 'X' | 'u' => d.natural ((truncated x % 0x10000000000000000).toNat)
            | _ => d.float (.ofFloat x)
          formatWithin convert fuel (turn + 1) (written.reverse ++ done) values after
        | _, _ => .error "not enough arguments passed"
  | fuel + 1, turn, done, values, c :: rest =>
    formatWithin convert fuel turn (c :: done) values rest

/-- Writes values as a format says. -/
def formatted (convert : String) (format : String) (values : List Value) : Except String String :=
  (formatWithin convert (format.length + 1) 1 [] values format.toList).map String.ofList

end PluginHost.Utility.Awk
