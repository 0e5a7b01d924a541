import PluginHost.Compile.Compiler
import PluginHost.Proofs.Compile.StagingArea
import PluginHost.Proofs.Image.Stream
import PluginHost.Proofs.Text.Utf8
/-!
What the digest of binaries in memory tells about them.

The digest is taken of the names, lengths and bytes of the binaries in a row. Lengths have eight bytes each,
but nothing says where a name ends. Main statement: of two lists of binaries with the same digest input, one
is the other exactly if their names are as long, one by one.
-/

namespace PluginHost

theorem Text.utf8_injective {s s' : List Char} (h : utf8 s = utf8 s') : s = s' := by
  have hchars : s.map some = s'.map some := by rw [← chars_utf8, ← chars_utf8, h]
  exact List.map_inj_right (fun _ _ => Option.some.inj) |>.mp hchars

theorem Text.hexValue?_hexDigit : ∀ k < 16, hexValue? (hexDigit k) = some k := by decide

theorem Text.bytesOfHex?_hexOfBytes (bytes : List UInt8) : bytesOfHex? (hexOfBytes bytes) = some bytes := by
  induction bytes with
  | nil => rfl
  | cons b rest ih =>
    have hdigits : hexOfBytes (b :: rest) =
        hexDigit (b.toNat / 16 % 16) :: hexDigit (b.toNat % 16) :: hexOfBytes rest := rfl
    have hvalue : b.toNat / 16 % 16 * 16 + b.toNat % 16 = b.toNat := by
      have hlt := b.toNat_lt
      omega
    rw [hdigits, bytesOfHex?, hexValue?_hexDigit _ (Nat.mod_lt _ (by decide)),
      hexValue?_hexDigit _ (Nat.mod_lt _ (by decide)), ih]
    simp only [bind, Option.bind, pure, hvalue, UInt8.ofNat_toNat]

theorem Text.hexOfBytes_injective {bytes bytes' : List UInt8} (h : hexOfBytes bytes = hexOfBytes bytes') :
    bytes = bytes' :=
  Option.some.inj (by rw [← bytesOfHex?_hexOfBytes, h, bytesOfHex?_hexOfBytes])

namespace References

variable {r r' : References}

/-- No binary is longer than a length of 64 bits can say, which is more than a memory holds. -/
def Addressable (r : References) : Prop := ∀ b ∈ r.blobs, b.bytes.length < 2 ^ 64

instance (r : References) : Decidable r.Addressable :=
  inferInstanceAs (Decidable (∀ b ∈ r.blobs, b.bytes.length < 2 ^ 64))

/-- How many bytes the names of the binaries take. -/
def nameSizes (r : References) : List Nat := r.blobs.map fun b => (Text.utf8 b.fileName.toList).length

/-- What stands for a binary in front of anything else: with the size of its name it can be read again. -/
theorem blob_eq_of_blobText_append {b b' : Blob} {rest rest' : List UInt8}
    (hb : b.bytes.length < 2 ^ 64) (hb' : b'.bytes.length < 2 ^ 64)
    (hsize : (Text.utf8 b.fileName.toList).length = (Text.utf8 b'.fileName.toList).length)
    (h : blobText b ++ rest = blobText b' ++ rest') : b = b' ∧ rest = rest' := by
  simp only [blobText, List.append_assoc] at h
  obtain ⟨hname, h⟩ := List.append_inj h hsize
  obtain ⟨hlength, h⟩ := List.append_inj h
    (by rw [Stream.length_littleEndianBytes, Stream.length_littleEndianBytes])
  have hread : ∀ n, n < 2 ^ 64 → Stream.littleEndian (Stream.littleEndianBytes 8 n) = n :=
    fun _ h => Stream.littleEndian_littleEndianBytes (Nat.lt_of_lt_of_eq h (by decide))
  have hlength : b.bytes.length = b'.bytes.length := by rw [← hread _ hb, hlength, hread _ hb']
  obtain ⟨hbytes, hrest⟩ := List.append_inj h hlength
  have hname : b.fileName = b'.fileName := String.toList_injective (Text.utf8_injective hname)
  obtain ⟨_, _⟩ := b
  obtain ⟨_, _⟩ := b'
  cases hname
  cases hbytes
  exact ⟨rfl, hrest⟩

theorem blobs_eq_of_digestInput_eq (hr : r.Addressable) (hr' : r'.Addressable)
    (hsizes : r.nameSizes = r'.nameSizes) (h : r.digestInput = r'.digestInput) : r.blobs = r'.blobs := by
  simp only [Addressable, nameSizes, digestInput] at hr hr' hsizes h
  generalize r.blobs = blobs at hr hsizes h ⊢
  generalize r'.blobs = blobs' at hr' hsizes h ⊢
  induction blobs generalizing blobs' with
  | nil => exact (List.map_eq_nil_iff.mp hsizes.symm).symm
  | cons b rest ih =>
    cases blobs' with
    | nil => cases hsizes
    | cons b' rest' =>
      rw [List.forall_mem_cons] at hr hr'
      rw [List.map_cons, List.map_cons, List.cons.injEq] at hsizes
      rw [List.flatMap_cons, List.flatMap_cons] at h
      obtain ⟨rfl, hrest⟩ := blob_eq_of_blobText_append hr.1 hr'.1 hsizes.1 h
      rw [ih hr.2 rest' hr'.2 hsizes.2 hrest]

end References

/-- A service that does not stage binaries again hands out the files that it has. -/
theorem Compiler.provide_of_hasStaged {c : Compiler} {disk : Disk} {r : References} {s : StagedReferences}
    (hstaged : c.staged = some s) (hblobs : r.blobs ≠ []) (h : c.hasStaged disk r = true) :
    c.provide disk r = (c, disk, .ok (r.paths ++ s.paths)) := by
  rw [provide, if_neg (by simpa using hblobs), if_pos h, hstaged]
  rfl

namespace References

variable {r r' : References}

/-- Two lists of binaries with the same digest input are the same exactly if their names take as many bytes
    each. So, if the digest of the two inputs does not collide, files that were staged for the one list are
    handed out for the other only if the inputs agree, and then they are the right files exactly if the
    names take as many bytes each. -/
theorem digestInput_tells_iff (hr : r.Addressable) (hr' : r'.Addressable) :
    (r.digestInput = r'.digestInput → (r.blobs = r'.blobs ↔ r.nameSizes = r'.nameSizes)) ∧
    ((Digest.sha256 r.digestInput = Digest.sha256 r'.digestInput → r.digestInput = r'.digestInput) →
      ∀ {c : Compiler} {before disk : Disk} {s : StagedReferences},
        (StagedReferences.stage before r).2 = .ok s → c.staged = some s → r'.blobs ≠ [] →
        c.hasStaged disk r' = true →
          c.provide disk r' = (c, disk, .ok (r'.paths ++ s.paths)) ∧
            (r.blobs = r'.blobs ↔ r.nameSizes = r'.nameSizes)) := by
  have htells : r.digestInput = r'.digestInput → (r.blobs = r'.blobs ↔ r.nameSizes = r'.nameSizes) :=
    fun hinput => ⟨congrArg _, fun hsizes => blobs_eq_of_digestInput_eq hr hr' hsizes hinput⟩
  refine ⟨htells, fun hcollision c before disk s hstage hstaged hblobs hreused => ?_⟩
  refine ⟨Compiler.provide_of_hasStaged hstaged hblobs hreused, htells (hcollision ?_)⟩
  obtain ⟨_, hstaging⟩ := StagedReferences.stage_eq_ok hstage
  rw [Compiler.hasStaged, hstaged, Option.any_some, Bool.and_eq_true, decide_eq_true_eq,
    hstaging.digest] at hreused
  exact Text.hexOfBytes_injective (String.ofList_injective hreused.1)

end References

namespace Framing

/-- One binary, and the same binary next to a file on disk. -/
def alone : References := ⟨[], [⟨"game.pwmod", [1, 2]⟩]⟩
def accompanied : References := ⟨["host.pwmod"], [⟨"game.pwmod", [1, 2]⟩]⟩

def freshDisk : Disk := ⟨[("tmp", .directory [])], [], 0⟩

def staged : StagedReferences :=
  ⟨alone.blobDigest, "/tmp/patchwork-refs-0", ["/tmp/patchwork-refs-0/game.pwmod"]⟩

def stagedDisk : Disk := (StagedReferences.stage freshDisk alone).1

/-- The file that was staged for the one list is handed out for the other, and it is the right one. -/
theorem same_binary_reused :
    (⟨true, some staged⟩ : Compiler).provide stagedDisk accompanied =
        (⟨true, some staged⟩, stagedDisk, .ok ["host.pwmod", "/tmp/patchwork-refs-0/game.pwmod"]) ∧
      (alone.blobs = accompanied.blobs ↔ alone.nameSizes = accompanied.nameSizes) := by
  have hstage : (StagedReferences.stage freshDisk alone).2 = .ok staged := rfl
  have hreused : Compiler.hasStaged ⟨true, some staged⟩ stagedDisk accompanied = true := by decide +kernel
  have halone : alone.Addressable := by decide
  have haccompanied : accompanied.Addressable := by decide
  exact (References.digestInput_tells_iff halone haccompanied).2 (fun _ => rfl) hstage rfl (by decide) hreused

/-- A binary whose name ends early, and whose bytes go on as if two binaries stood there. -/
def imitating : References := ⟨[], [⟨"a", [0, 98, 36, 0, 0, 0, 0, 0, 0, 0] ++ List.replicate 36 0⟩]⟩
def imitated : References := ⟨[], [⟨"a.", []⟩, ⟨"b", List.replicate 36 0⟩]⟩

/-- One binary that is taken for two others: the second compilation is handed its file in place of theirs. -/
theorem imitation_reused :
    let toolchain : Toolchain := fun disk _ => (disk, .ok ⟨true, []⟩)
    let first := (Compiler.ofReuse true).compile toolchain freshDisk ["p.cs"] imitating .forAnalysis
    let second := first.compiler.compile toolchain first.disk ["p.cs"] imitated .forAnalysis
    imitating.digestInput = imitated.digestInput ∧ imitating.blobs ≠ imitated.blobs ∧
      first.compiler.staged.map (·.paths) = some ["/tmp/patchwork-refs-0/a"] ∧
      second.calls.map (·.invocation.references) = [["/tmp/patchwork-refs-0/a"]] := by
  decide +kernel

end Framing

end PluginHost
