import Mathlib.Algebra.Group.Nat.Defs
import PluginHost.Text.Utf8
/-!
What is written in UTF-8 is read back as the characters that were written.

The four lengths of an encoded character are settled one by one; the ranges of second bytes are wide enough
for every character and just narrow enough to keep out surrogates.
-/

namespace PluginHost.Text

theorem isContinuation_ofNat : ∀ k < 64, isContinuation (UInt8.ofNat (k + 128)) = true := by
  decide

theorem leadRange?_two : ∀ k < 32, 2 ≤ k →
    leadRange? (UInt8.ofNat (k + 192)) = some (UInt8.ofNat 0x80, UInt8.ofNat 0xBF, 0) := by
  decide

theorem leadRange?_three : ∀ k < 16, leadRange? (UInt8.ofNat (k + 224)) =
    some (UInt8.ofNat (if k = 0 then 0xA0 else 0x80), UInt8.ofNat (if k = 13 then 0x9F else 0xBF), 1) := by
  decide

theorem leadRange?_four : ∀ k < 5, leadRange? (UInt8.ofNat (k + 240)) =
    some (UInt8.ofNat (if k = 0 then 0x90 else 0x80), UInt8.ofNat (if k = 4 then 0x8F else 0xBF), 2) := by
  decide

theorem toNat_ofNat_mod {k : Nat} (hk : k < 64) : (UInt8.ofNat (k + 128)).toNat % 64 = k := by
  rw [UInt8.toNat_ofNat']
  omega

/-- One continuation byte carries six bits. -/
theorem continuations_cons {k : Nat} (hk : k < 64) (count value : Nat) (rest : List UInt8) :
    continuations (count + 1) value (UInt8.ofNat (k + 128) :: rest) =
      continuations count (value * 64 + k) rest := by
  rw [continuations, if_pos (isContinuation_ofNat k hk), toNat_ofNat_mod hk]

theorem leadBits_ofNat {k base more : Nat} (hk : k < 2 ^ (5 - more)) (hbase : 2 ^ (5 - more) ∣ base)
    (hsmall : k + base < 256) : leadBits (UInt8.ofNat (k + base)) more = k := by
  obtain ⟨m, rfl⟩ := hbase
  rw [leadBits, UInt8.toNat_ofNat', Nat.mod_eq_of_lt hsmall, Nat.one_shiftLeft,
    Nat.add_mul_mod_self_left, Nat.mod_eq_of_lt hk]

/-- A lead byte above ASCII, a second byte in its range and as many continuation bytes as it announces are
    read as one character. -/
theorem nextChar_of_lead {n k low high more value : Nat} {tail left : List UInt8}
    (hn : 0x80 ≤ n) (hsmall : n < 256)
    (hlead : leadRange? (UInt8.ofNat n) = some (UInt8.ofNat low, UInt8.ofNat high, more))
    (hlow : low ≤ k + 128) (hk : k < 64) (hhigh : k + 128 ≤ high) (hrange : high < 256)
    (htail : continuations more (leadBits (UInt8.ofNat n) more * 64 + k) tail = (value, true, left)) :
    nextChar (UInt8.ofNat n) (UInt8.ofNat (k + 128) :: tail) = (some (Char.ofNat value), left) := by
  have hascii : ¬ UInt8.ofNat n < 0x80 := by
    rw [UInt8.lt_iff_toNat_lt, UInt8.toNat_ofNat']
    exact Nat.not_lt.mpr (by rwa [Nat.mod_eq_of_lt hsmall])
  have hbelow : UInt8.ofNat low ≤ UInt8.ofNat (k + 128) := by
    rw [UInt8.le_iff_toNat_le, UInt8.toNat_ofNat', UInt8.toNat_ofNat']
    omega
  have habove : UInt8.ofNat (k + 128) ≤ UInt8.ofNat high := by
    rw [UInt8.le_iff_toNat_le, UInt8.toNat_ofNat', UInt8.toNat_ofNat']
    omega
  unfold nextChar
  simp only [if_neg hascii, hlead, decide_eq_true hbelow, decide_eq_true habove, Bool.and_self, if_true,
    toNat_ofNat_mod hk, htail]

/-- The bytes of one character are read as that character, whatever follows them. -/
theorem nextChar_utf8EncodeChar (c : Char) (rest : List UInt8) :
    ∃ lead more, String.utf8EncodeChar c = lead :: more ∧
      nextChar lead (more ++ rest) = (some c, rest) := by
  have hvalid : c.toNat < 0xD800 ∨ 0xDFFF < c.toNat ∧ c.toNat < 0x110000 := c.valid
  have hback := Char.ofNat_toNat c
  rw [String.utf8EncodeChar, show c.val.toNat = c.toNat from rfl]
  generalize c.toNat = v at hvalid hback
  subst hback
  split
  · next hone =>
    have hascii : UInt8.ofNat v < 0x80 := by
      rw [UInt8.lt_iff_toNat_lt, UInt8.toNat_ofNat']
      exact Nat.lt_of_le_of_lt (Nat.mod_le _ _) (Nat.lt_succ_of_le hone)
    refine ⟨_, _, rfl, ?_⟩
    unfold nextChar
    rw [if_pos hascii, UInt8.toNat_ofNat', Nat.mod_eq_of_lt (by omega)]
    rfl
  · next hone =>
    split
    · next htwo =>
      refine ⟨_, _, rfl, ?_⟩
      rw [List.cons_append, List.nil_append]
      refine nextChar_of_lead (by omega) (by omega) (leadRange?_two _ (by omega) (by omega))
        (by omega) (by omega) (by omega) (by omega) ?_
      rw [leadBits_ofNat (by omega) (by decide) (by omega), continuations,
        show v / 64 % 32 * 64 + v % 64 = v by omega]
    · next htwo =>
      split
      · next hthree =>
        refine ⟨_, _, rfl, ?_⟩
        rw [List.cons_append, List.cons_append, List.nil_append]
        refine nextChar_of_lead (by omega) (by omega) (leadRange?_three _ (by omega))
          ?_ (by omega) ?_ ?_ ?_
        · split <;> omega
        · split <;> omega
        · split <;> omega
        · rw [leadBits_ofNat (by omega) (by decide) (by omega), continuations_cons (by omega),
            continuations, show (v / 4096 % 16 * 64 + v / 64 % 64) * 64 + v % 64 = v by omega]
      · next hthree =>
        rw [show v / 262144 % 8 = v / 262144 by omega]
        refine ⟨_, _, rfl, ?_⟩
        rw [List.cons_append, List.cons_append, List.cons_append, List.nil_append]
        refine nextChar_of_lead (by omega) (by omega) (leadRange?_four _ (by omega))
          ?_ (by omega) ?_ ?_ ?_
        · split <;> omega
        · split <;> omega
        · split <;> omega
        · rw [leadBits_ofNat (by omega) (by decide) (by omega), continuations_cons (by omega),
            continuations_cons (by omega), continuations,
            show ((v / 262144 * 64 + v / 4096 % 64) * 64 + v / 64 % 64) * 64 + v % 64 = v by omega]

theorem utf8_cons (c : Char) (s : List Char) : utf8 (c :: s) = String.utf8EncodeChar c ++ utf8 s := rfl

theorem utf8_append (s t : List Char) : utf8 (s ++ t) = utf8 s ++ utf8 t := by
  induction s with
  | nil => rfl
  | cons c s ih => rw [List.cons_append, utf8_cons, utf8_cons, ih, List.append_assoc]

theorem chars_utf8 (s : List Char) : chars (utf8 s) = s.map some := by
  induction s with
  | nil =>
    rw [utf8, List.foldr_nil, chars]
    rfl
  | cons c s ih =>
    obtain ⟨lead, more, hencode, hnext⟩ := nextChar_utf8EncodeChar c (utf8 s)
    rw [utf8_cons, hencode, List.cons_append, chars, hnext, ih, List.map_cons]

/-- No character takes less than one byte. -/
theorem length_le_length_utf8 (s : List Char) : s.length ≤ (utf8 s).length := by
  induction s with
  | nil => exact Nat.le_refl _
  | cons c s ih =>
    rw [utf8_cons, List.length_append, List.length_cons, String.length_utf8EncodeChar]
    have hsize := c.utf8Size_pos
    omega

/-- No character takes more than four bytes. -/
theorem length_utf8_le (s : List Char) : (utf8 s).length ≤ 4 * s.length := by
  induction s with
  | nil => exact Nat.le_refl _
  | cons c s ih =>
    rw [utf8_cons, List.length_append, List.length_cons, String.length_utf8EncodeChar]
    have hsize := c.utf8Size_le_four
    omega

end PluginHost.Text
