/-!
UTF-8: writing characters as bytes, and reading bytes that need not be well formed.

A reader that fails as a whole and a reader that puts U+FFFD for each ill-formed part both come
from one split of the bytes into characters and maximal ill-formed parts. Programs that do not look at
encodings work on octets: texts in which every character stands for one byte, and a character beyond ASCII
is as many characters as its UTF-8 form has bytes.
-/

namespace PluginHost

namespace Text

/-- The UTF-8 bytes of a text. -/
def utf8 (s : List Char) : List UInt8 :=
  s.foldr (fun c bytes => String.utf8EncodeChar c ++ bytes) []

/-- A byte of the form `10xxxxxx`. -/
def isContinuation (b : UInt8) : Bool := b &&& 0xC0 == 0x80

/-- The second bytes that may follow a lead byte, and how many more continuation bytes follow the
    second: neither overlong forms, surrogates nor values above U+10FFFF pass. -/
def leadRange? (lead : UInt8) : Option (UInt8 × UInt8 × Nat) :=
  if 0xC2 ≤ lead && lead ≤ 0xDF then some (0x80, 0xBF, 0)
  else if lead == 0xE0 then some (0xA0, 0xBF, 1)
  else if lead == 0xED then some (0x80, 0x9F, 1)
  else if 0xE1 ≤ lead && lead ≤ 0xEF then some (0x80, 0xBF, 1)
  else if lead == 0xF0 then some (0x90, 0xBF, 2)
  else if 0xF1 ≤ lead && lead ≤ 0xF3 then some (0x80, 0xBF, 2)
  else if lead == 0xF4 then some (0x80, 0x8F, 2)
  else none

/-- The value bits of a lead byte that announces `more` continuation bytes after the second. -/
def leadBits (lead : UInt8) (more : Nat) : Nat := lead.toNat % 1 <<< (5 - more)

/-- Reads `count` continuation bytes onto `value`. The second component is false if one of them is
    missing; the bytes from there on are left. -/
def continuations : Nat → Nat → List UInt8 → Nat × Bool × List UInt8
  | 0, value, bytes => (value, true, bytes)
  | _ + 1, value, [] => (value, false, [])
  | count + 1, value, b :: rest =>
    if isContinuation b then continuations count (value * 64 + b.toNat % 64) rest
    else (value, false, b :: rest)

theorem length_continuations_le (count value : Nat) (bytes : List UInt8) :
    (continuations count value bytes).2.2.length ≤ bytes.length := by
  induction count generalizing value bytes with
  | zero => simp [continuations]
  | succ count ih =>
    cases bytes with
    | nil => simp [continuations]
    | cons b rest =>
      simp only [continuations]
      split
      · exact Nat.le_trans (ih _ rest) (Nat.le_succ _)
      · exact Nat.le_refl _

/-- One character, or `none` for a maximal ill-formed part, and the bytes after it. -/
def nextChar (lead : UInt8) (rest : List UInt8) : Option Char × List UInt8 :=
  if lead < 0x80 then (some (Char.ofNat lead.toNat), rest)
  else match leadRange? lead, rest with
    | some (low, high, more), second :: tail =>
      if low ≤ second && second ≤ high then
        match continuations more (leadBits lead more * 64 + second.toNat % 64) tail with
        | (value, true, left) => (some (Char.ofNat value), left)
        | (_, false, left) => (none, left)
      else (none, rest)
    | _, _ => (none, rest)

theorem length_nextChar_le (lead : UInt8) (rest : List UInt8) :
    (nextChar lead rest).2.length ≤ rest.length := by
  unfold nextChar
  split
  · exact Nat.le_refl _
  · split
    · next low high more second tail _ =>
      have hlength := length_continuations_le more (leadBits lead more * 64 + second.toNat % 64) tail
      split
      · split
        · next hread => rw [hread] at hlength; simpa using Nat.le_succ_of_le hlength
        · next hread => rw [hread] at hlength; simpa using Nat.le_succ_of_le hlength
      · exact Nat.le_refl _
    · exact Nat.le_refl _

/-- The characters of a byte string in order, with `none` for each maximal ill-formed part. -/
def chars : List UInt8 → List (Option Char)
  | [] => []
  | lead :: rest => (nextChar lead rest).1 :: chars (nextChar lead rest).2
termination_by bytes => bytes.length
decreasing_by
  have := length_nextChar_le lead rest
  simp only [List.length_cons]
  omega

/-- The text that well-formed bytes write. -/
def ofUtf8? (bytes : List UInt8) : Option (List Char) := (chars bytes).mapM id

/-- The text of any bytes, with U+FFFD for each ill-formed part. -/
def ofUtf8Lossy (bytes : List UInt8) : List Char :=
  (chars bytes).map fun c => c.getD (Char.ofNat 0xFFFD)

end Text

/-! Octets. -/

namespace Octets

/-- The text of some bytes. -/
def ofBytes (bytes : List UInt8) : List Char := bytes.map fun b => Char.ofNat b.toNat

/-- The bytes of a text. -/
def toBytes (s : List Char) : List UInt8 := s.map fun c => UInt8.ofNat c.toNat

/-- A text of characters as the text of its bytes. -/
def encode (text : String) : String := String.ofList (ofBytes (Text.utf8 text.toList))

/-- The text of characters that the bytes of a text write. -/
def decode (octets : String) : String :=
  String.ofList (Text.ofUtf8Lossy (toBytes octets.toList))

end Octets

end PluginHost
