import Mathlib.Algebra.Group.Nat.Defs
import PluginHost.Image.Artifact
/-!
The streams that are written, as their reader sees them.

A writer refuses a body whose length does not fit into four bytes, a reader one that is longer than
`maxBodyBytes`; between the two lie streams that are written and never read.
-/

namespace PluginHost.Stream

theorem length_littleEndianBytes (count n : Nat) : (littleEndianBytes count n).length = count := by
  induction count generalizing n with
  | zero => rfl
  | succ count ih => rw [littleEndianBytes, List.length_cons, ih]

/-- A number that fits into the bytes is the number they write. -/
theorem littleEndian_littleEndianBytes {count n : Nat} (hfits : n < 256 ^ count) :
    littleEndian (littleEndianBytes count n) = n := by
  induction count generalizing n with
  | zero => exact (Nat.lt_one_iff.mp hfits).symm
  | succ count ih =>
    have hquotient : n / 256 < 256 ^ count :=
      Nat.div_lt_of_lt_mul (by rwa [Nat.pow_succ, Nat.mul_comm] at hfits)
    rw [littleEndianBytes, littleEndian, ih hquotient, UInt8.toNat_ofNat']
    exact Nat.mod_add_div n 256

variable {magic body bytes : List UInt8}

theorem encode_eq_ok_iff : encode magic body = .ok bytes ↔ body.length < UInt32.size ∧
    bytes = magic ++ littleEndianBytes 2 formatVersion ++ littleEndianBytes 4 body.length ++ body := by
  unfold encode
  split
  · next hfits =>
    rw [Except.ok.injEq]
    exact ⟨fun heq => ⟨hfits, heq.symm⟩, fun h => h.2.symm⟩
  · next hlong => exact ⟨nofun, fun h => absurd h.1 hlong⟩

/-- A stream that was written has its parts where the reader looks for them. -/
theorem parts_of_encode (hmagic : magic.length = 5) (hencode : encode magic body = .ok bytes) :
    bytes.length = headerLength + body.length ∧ bytes.take 5 = magic ∧
      littleEndian ((bytes.drop 5).take 2) = formatVersion ∧
      littleEndian ((bytes.drop 7).take 4) = body.length ∧ bytes.drop headerLength = body := by
  obtain ⟨hfits, rfl⟩ := encode_eq_ok_iff.mp hencode
  have hlength : littleEndian (littleEndianBytes 4 body.length) = body.length :=
    littleEndian_littleEndianBytes hfits
  have hversion : littleEndian (littleEndianBytes 2 formatVersion) = formatVersion := rfl
  refine ⟨?_, ?_, ?_, ?_, ?_⟩
  · simp only [List.length_append, hmagic, length_littleEndianBytes, headerLength]
  · rw [List.append_assoc, List.append_assoc, List.take_left' hmagic]
  · rw [List.append_assoc, List.append_assoc, List.drop_left' hmagic,
      List.take_left' (length_littleEndianBytes 2 _), hversion]
  · rw [List.append_assoc, List.drop_left' (by rw [List.length_append, hmagic, length_littleEndianBytes]),
      List.take_left' (length_littleEndianBytes 4 _), hlength]
  · refine List.drop_left' ?_
    simp only [List.length_append, hmagic, length_littleEndianBytes, headerLength]

/-- Of a stream that was written the reader refuses nothing but its length. -/
theorem readHeader_of_encode (hmagic : magic.length = 5) (hencode : encode magic body = .ok bytes) :
    readHeader magic bytes =
      if body.length ≤ maxBodyBytes then .ok body.length else .error (.bodyTooLong body.length) := by
  obtain ⟨hlength, hstart, hversion, hdeclared, _⟩ := parts_of_encode hmagic hencode
  have hlong : ¬ bytes.length < headerLength := by
    rw [hlength]
    exact Nat.not_lt.mpr (Nat.le_add_right _ _)
  have hpresent : bytes.length - headerLength = body.length := by
    rw [hlength, Nat.add_sub_cancel_left]
  simp only [readHeader, if_neg hlong, hstart, hversion, hdeclared, hpresent, ne_eq, not_true_eq_false,
    if_false]
  split
  · next hover => rw [if_neg (Nat.not_le.mpr hover)]
  · next hover => rw [if_pos (Nat.not_lt.mp hover)]

theorem check_of_encode (hmagic : magic.length = 5) (hencode : encode magic body = .ok bytes) :
    check magic bytes = if body.length ≤ maxBodyBytes then .ok ()
      else .error (HeaderFault.bodyTooLong body.length).toFault := by
  rw [check, readHeader_of_encode hmagic hencode]
  by_cases hsize : body.length ≤ maxBodyBytes
  · rw [if_pos hsize, if_pos hsize]
  · rw [if_neg hsize, if_neg hsize]

theorem body_of_encode (hmagic : magic.length = 5) (hencode : encode magic body = .ok bytes) :
    Stream.body magic bytes = if body.length ≤ maxBodyBytes then .ok body
      else .error (HeaderFault.bodyTooLong body.length).toFault := by
  rw [Stream.body, check_of_encode hmagic hencode, (parts_of_encode hmagic hencode).2.2.2.2]
  split <;> rfl

end PluginHost.Stream
