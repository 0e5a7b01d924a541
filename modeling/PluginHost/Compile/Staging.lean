import PluginHost.Digest.Sha256
import PluginHost.Disk.Disk
import PluginHost.Fault
import PluginHost.Image.Artifact
import PluginHost.Text.Numeral
import PluginHost.Text.Quoted
/-!
Staging: binaries in memory are written to a temporary directory, because compilers read files.
-/

namespace PluginHost

/-! The binaries that sources are compiled against. -/

/-- A binary that is held in memory. -/
structure Blob where
  fileName : String
  bytes : List UInt8
deriving DecidableEq, Inhabited

/-- Binaries on disk and in memory. -/
structure References where
  paths : List String
  blobs : List Blob
deriving DecidableEq, Inhabited

namespace References

/-- What stands for one blob in the digest: its name, the length of its bytes as a little-endian
    number of 64 bits, and its bytes. -/
def blobText (b : Blob) : List UInt8 :=
  Text.utf8 b.fileName.toList ++ Stream.littleEndianBytes 8 b.bytes.length ++ b.bytes

/-- What the digest of the blobs is taken of. -/
def digestInput (r : References) : List UInt8 := r.blobs.flatMap blobText

/-- The digest by which staged blobs are told apart, in hexadecimal. -/
def blobDigest (r : References) : String :=
  String.ofList (Text.hexOfBytes (Digest.sha256 r.digestInput))

end References

/-- Staged binaries. -/
structure StagedReferences where
  /-- The digest of the binaries, by which they are recognized. -/
  digest : String
  directory : String
  paths : List String
deriving DecidableEq, Inhabited

namespace StagedReferences

/-- Writes one binary under the last part of its name, which no other one may have. -/
def stageBlob (directory : String) (disk : Disk) (blob : Blob) : Except Fault (Disk × String) :=
  let quoted := String.ofList (Text.quoted blob.fileName.toList)
  match Path.fileName? blob.fileName with
  | none => .error (.stagingFailed ("invalid file name " ++ quoted))
  | some name =>
    let path := Path.join directory name
    if disk.contains path then
      .error (.stagingFailed ("duplicate in-memory reference " ++ quoted))
    else
      match disk.write path blob.bytes with
      | .ok disk => .ok (disk, path)
      | .error fault => .error (.stagingFailed fault.message)

/-- Writes binaries in order; the first that cannot be written ends it. -/
def stageBlobs (directory : String) : Disk → List Blob → Except Fault (Disk × List String)
  | disk, [] => .ok (disk, [])
  | disk, blob :: rest => do
    let (disk, path) ← stageBlob directory disk blob
    let (disk, paths) ← stageBlobs directory disk rest
    return (disk, path :: paths)

/-- Stages the binaries of some references in a new directory, of which nothing stays if it fails. -/
def stage (disk : Disk) (references : References) : Disk × Except Fault StagedReferences :=
  match disk.makeTemporary "patchwork-refs-" with
  | .error fault => (disk, .error (.stagingFailed fault.message))
  | .ok (disk, directory) =>
    match stageBlobs directory disk references.blobs with
    | .error fault => (disk.removeTree directory, .error fault)
    | .ok (disk, paths) => (disk, .ok ⟨references.blobDigest, directory, paths⟩)

end StagedReferences

end PluginHost
