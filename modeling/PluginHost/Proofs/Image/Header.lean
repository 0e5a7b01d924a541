import PluginHost.Proofs.Image.Stream
/-!
The bytes that are taken for a stream.

A reader that would come to a halt when it reads past the end of the bytes or goes below zero gives the same
answers, so it never does either. Main statement: `readHeader_exact`.
-/

namespace PluginHost.Stream

variable {magic bytes other : List UInt8} {n k : Nat}

/-- The bytes are a magic of five bytes, the version, a length and a body of that length, which is not longer
    than a body may be. -/
structure IsStream (magic : List UInt8) (n : Nat) (bytes : List UInt8) : Prop where
  magic_length : magic.length = 5
  length_le : n ≤ maxBodyBytes
  parts : ∃ body : List UInt8, body.length = n ∧
    bytes = magic ++ littleEndianBytes 2 formatVersion ++ littleEndianBytes 4 n ++ body

/-- What a reader that accepts the bytes has found in them. -/
structure Declares (magic : List UInt8) (n : Nat) (bytes : List UInt8) : Prop where
  start : bytes.take 5 = magic
  version : littleEndian ((bytes.drop 5).take 2) = formatVersion
  declared : littleEndian ((bytes.drop 7).take 4) = n
  length_le : n ≤ maxBodyBytes
  length_eq : bytes.length = headerLength + n

theorem declares_of_readHeader (h : readHeader magic bytes = .ok n) : Declares magic n bytes := by
  simp only [readHeader] at h
  -- Any check that fails comes to a fault.
  split at h
  · cases h
  next hlong =>
  split at h
  · cases h
  next hstart =>
  split at h
  · cases h
  next hversion =>
  split at h
  · cases h
  next hbound =>
  split at h
  · cases h
  next hpresent =>
  cases h
  exact ⟨Decidable.not_not.mp hstart, Decidable.not_not.mp hversion, rfl, Nat.not_lt.mp hbound, by omega⟩

/-- Bytes are what is written for the number that they write. -/
theorem littleEndianBytes_littleEndian (bytes : List UInt8) :
    littleEndianBytes bytes.length (littleEndian bytes) = bytes := by
  induction bytes with
  | nil => rfl
  | cons b rest ih =>
    have hb : b.toNat < 256 := b.toNat_lt
    have hquotient : (b.toNat + 256 * littleEndian rest) / 256 = littleEndian rest := by omega
    have hlowest : UInt8.ofNat (b.toNat + 256 * littleEndian rest) = b := by
      apply UInt8.toNat_inj.mp
      rw [UInt8.toNat_ofNat']
      omega
    rw [List.length_cons, littleEndian, littleEndianBytes, hquotient, hlowest, ih]

theorem Declares.isStream (h : Declares magic n bytes) : IsStream magic n bytes := by
  have hlength : bytes.length = 11 + n := h.length_eq
  have hversion : littleEndianBytes 2 formatVersion = (bytes.drop 5).take 2 := by
    have htwo : ((bytes.drop 5).take 2).length = 2 := by
      rw [List.length_take, List.length_drop]
      omega
    have hback := littleEndianBytes_littleEndian ((bytes.drop 5).take 2)
    rwa [htwo, h.version] at hback
  have hdeclared : littleEndianBytes 4 n = (bytes.drop 7).take 4 := by
    have hfour : ((bytes.drop 7).take 4).length = 4 := by
      rw [List.length_take, List.length_drop]
      omega
    have hback := littleEndianBytes_littleEndian ((bytes.drop 7).take 4)
    rwa [hfour, h.declared] at hback
  refine ⟨?_, h.length_le, bytes.drop 11, ?_, ?_⟩
  · rw [← h.start, List.length_take]
    omega
  · rw [List.length_drop]
    omega
  · have hmiddle : (bytes.drop 5).take 2 ++ bytes.drop 7 = bytes.drop 5 := by
      simpa only [List.drop_drop] using List.take_append_drop 2 (bytes.drop 5)
    have hend : (bytes.drop 7).take 4 ++ bytes.drop 11 = bytes.drop 7 := by
      simpa only [List.drop_drop] using List.take_append_drop 4 (bytes.drop 7)
    rw [← h.start, hversion, hdeclared, List.append_assoc, List.append_assoc, hend, hmiddle,
      List.take_append_drop]

/-- A stream is what is written for its body, and is accepted like it. -/
theorem IsStream.readHeader_eq (h : IsStream magic n bytes) : readHeader magic bytes = .ok n := by
  obtain ⟨body, rfl, hbytes⟩ := h.parts
  have hfits : body.length < UInt32.size := Nat.lt_of_le_of_lt h.length_le (by decide)
  have hencode : encode magic body = .ok bytes := encode_eq_ok_iff.mpr ⟨hfits, hbytes⟩
  rw [readHeader_of_encode h.magic_length hencode, if_pos h.length_le]

theorem readHeader_eq_ok_iff : readHeader magic bytes = .ok n ↔ IsStream magic n bytes :=
  ⟨fun h => (declares_of_readHeader h).isStream, IsStream.readHeader_eq⟩

/-- The length of a stream stands at its beginning, so that no stream is the beginning of another one. -/
theorem Declares.eq_of_prefix (h : Declares magic k other) (h' : Declares magic n bytes)
    (hbegins : other <+: bytes) : other = bytes := by
  have hother : other.length = 11 + k := h.length_eq
  have hbytes : bytes.length = 11 + n := h'.length_eq
  have hlengths : k = n := by
    obtain ⟨rest, rfl⟩ := hbegins
    have hsame : ((other ++ rest).drop 7).take 4 = (other.drop 7).take 4 := by
      rw [List.drop_append_of_le_length (by omega),
        List.take_append_of_le_length (by rw [List.length_drop]; omega)]
    rw [← h.declared, ← h'.declared, hsame]
  exact hbegins.eq_of_length (by rw [hother, hbytes, hlengths])

/-! The reader with accesses that can go wrong. -/

/-- So many bytes from a position on. There is no result if they go past the end. -/
def slice? (bytes : List UInt8) (start count : Nat) : Option (List UInt8) :=
  if start + count ≤ bytes.length then some ((bytes.drop start).take count) else none

/-- A difference. There is no result if it is below zero. -/
def difference? (m n : Nat) : Option Nat := if n ≤ m then some (m - n) else none

/-- Reads a header in the same steps as `readHeader`. There is no result if a step goes wrong. -/
def readHeader? (magic bytes : List UInt8) : Option (Except HeaderFault Nat) := do
  if bytes.length < headerLength then return .error (.tooShort bytes.length)
  if (← slice? bytes 0 5) ≠ magic then return .error (.wrongMagic magic)
  let version := littleEndian (← slice? bytes 5 2)
  if version ≠ formatVersion then return .error (.wrongVersion version)
  let declared := littleEndian (← slice? bytes 7 4)
  if declared > maxBodyBytes then return .error (.bodyTooLong declared)
  let present ← difference? bytes.length headerLength
  if present ≠ declared then return .error (.wrongLength declared present)
  return .ok declared

/-- No step goes wrong, since the length is looked at first. -/
theorem readHeader?_eq (magic bytes : List UInt8) : readHeader? magic bytes = some (readHeader magic bytes) := by
  by_cases hshort : bytes.length < headerLength
  · simp [readHeader?, readHeader, hshort]
  have hlength : 11 ≤ bytes.length := Nat.not_lt.mp hshort
  have hstart : slice? bytes 0 5 = some (bytes.take 5) := if_pos (by omega)
  have hversion : slice? bytes 5 2 = some ((bytes.drop 5).take 2) := if_pos (by omega)
  have hdeclared : slice? bytes 7 4 = some ((bytes.drop 7).take 4) := if_pos (by omega)
  have hpresent : difference? bytes.length headerLength = some (bytes.length - headerLength) := if_pos hlength
  simp only [readHeader?, readHeader, if_neg hshort, hstart, hversion, hdeclared, hpresent, bind, Option.bind, pure,
    apply_ite some]

/-- A header is read without a step that goes wrong, whatever the bytes are. It is right exactly if they are a
    stream: one of this kind only, and neither shorter nor longer than it is. -/
theorem readHeader_exact (magic bytes : List UInt8) :
    readHeader? magic bytes = some (readHeader magic bytes) ∧
    (∀ n, readHeader magic bytes = .ok n ↔ IsStream magic n bytes) ∧
    ∀ n, readHeader magic bytes = .ok n →
      (∀ other k, readHeader magic other = .ok k → other <+: bytes ∨ bytes <+: other → other = bytes) ∧
      ∀ kind k, readHeader kind bytes = .ok k → kind = magic := by
  refine ⟨readHeader?_eq magic bytes, fun n => readHeader_eq_ok_iff, fun n haccepted => ⟨?_, ?_⟩⟩
  · intro other k hother hbegins
    have hbytes := declares_of_readHeader haccepted
    have hdeclares := declares_of_readHeader hother
    obtain hshorter | hlonger := hbegins
    · exact hdeclares.eq_of_prefix hbytes hshorter
    · exact (hbytes.eq_of_prefix hdeclares hlonger).symm
  · intro kind k hkind
    rw [← (declares_of_readHeader hkind).start, (declares_of_readHeader haccepted).start]

/-- A module stream with a body of two bytes. -/
example : readHeader moduleMagic [0x50, 0x57, 0x4D, 0x4F, 0x44, 1, 0, 2, 0, 0, 0, 0x7B, 0x7D] = .ok 2 :=
  rfl

end PluginHost.Stream
