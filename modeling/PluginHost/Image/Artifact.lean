import PluginHost.Digest.Sha256
import PluginHost.Disk.Disk
import PluginHost.Fault
import PluginHost.Image.Codec
import PluginHost.Json.Printer
import PluginHost.Json.Reader
import PluginHost.Text.Quoted
import PluginHost.Text.Utf8
/-!
Compiled plugins: a module stream, and a symbol stream if there is one.

A stream is five bytes that name its kind, the format version and the length of the body as
little-endian numbers, and the body. The header of each stream is checked when the artifact is made;
its body only when it is asked for. On disk the symbol stream lies next to the module stream.
-/

namespace PluginHost

namespace Stream

def moduleMagic : List UInt8 := [0x50, 0x57, 0x4D, 0x4F, 0x44]

def symbolsMagic : List UInt8 := [0x50, 0x57, 0x53, 0x59, 0x4D]

def formatVersion : Nat := 1

def headerLength : Nat := 11

/-- The longest body that is read. -/
def maxBodyBytes : Nat := 64 * 1024 * 1024

/-- Why a header was refused. -/
inductive HeaderFault where
  | tooShort (size : Nat)
  | wrongMagic (expected : List UInt8)
  | wrongVersion (version : Nat)
  | bodyTooLong (declared : Nat)
  | wrongLength (declared present : Nat)
deriving DecidableEq

def HeaderFault.toFault : HeaderFault → Fault
  | .tooShort size =>
    .invalidHeader ("stream is " ++ Fault.number size ++ " bytes, shorter than the " ++
      Fault.number headerLength ++ " byte header")
  | .wrongMagic expected =>
    .invalidHeader ("expected magic " ++ String.ofList (Text.quoted (Text.ofUtf8Lossy expected)))
  | .wrongVersion version => .unsupportedFormat (UInt16.ofNat version)
  | .bodyTooLong declared =>
    .invalidHeader ("declared body of " ++ Fault.number declared ++ " bytes exceeds limit " ++
      Fault.number maxBodyBytes)
  | .wrongLength declared present =>
    .invalidHeader ("declared body of " ++ Fault.number declared ++ " bytes but " ++
      Fault.number present ++ " present")

/-- The number that bytes write, least significant first. -/
def littleEndian : List UInt8 → Nat
  | [] => 0
  | b :: rest => b.toNat + 256 * littleEndian rest

/-- The lowest `count` bytes of a number, least significant first. -/
def littleEndianBytes : Nat → Nat → List UInt8
  | 0, _ => []
  | count + 1, n => UInt8.ofNat n :: littleEndianBytes count (n / 256)

/-- Checks a header and gives the length of the body. -/
def readHeader (magic bytes : List UInt8) : Except HeaderFault Nat :=
  let present := bytes.length - headerLength
  let version := littleEndian ((bytes.drop 5).take 2)
  let declared := littleEndian ((bytes.drop 7).take 4)
  if bytes.length < headerLength then .error (.tooShort bytes.length)
  else if bytes.take 5 ≠ magic then .error (.wrongMagic magic)
  else if version ≠ formatVersion then .error (.wrongVersion version)
  else if declared > maxBodyBytes then .error (.bodyTooLong declared)
  else if present ≠ declared then .error (.wrongLength declared present)
  else .ok declared

/-- Fails unless the header is right. -/
def check (magic bytes : List UInt8) : Except Fault Unit :=
  match readHeader magic bytes with
  | .ok _ => .ok ()
  | .error fault => .error fault.toFault

/-- A body behind its header. The length has to fit into four bytes. -/
def encode (magic body : List UInt8) : Except Fault (List UInt8) :=
  if body.length < UInt32.size then
    .ok (magic ++ littleEndianBytes 2 formatVersion ++ littleEndianBytes 4 body.length ++ body)
  else .error (.malformedArtifact "body too large")

/-- The body of a stream whose header is right. -/
def body (magic bytes : List UInt8) : Except Fault (List UInt8) :=
  (check magic bytes).map fun _ => bytes.drop headerLength

end Stream

/-! Artifacts, made from streams or from images. -/

open Json

structure Artifact where
  name : String
  module : List UInt8
  symbols : Option (List UInt8)
deriving DecidableEq, Inhabited

namespace Artifact

/-- Takes streams as they are, after a look at their headers. -/
def ofBytes (name : String) (module : List UInt8) (symbols : Option (List UInt8)) :
    Except Fault Artifact := do
  Stream.check Stream.moduleMagic module
  match symbols with
  | some bytes => Stream.check Stream.symbolsMagic bytes
  | none => pure ()
  return ⟨name, module, symbols⟩

/-- The stream of a value in compact form. -/
def encodeBody (magic : List UInt8) (v : Value) : Except Fault (List UInt8) :=
  Stream.encode magic (Text.utf8 (compact v))

/-- Reads the body of a stream as one value. -/
def decodeBody {α : Type} (magic : List UInt8) (decode : Decoder α) (bytes : List UInt8) :
    Except Fault α := do
  let body ← Stream.body magic bytes
  match (ofBytes? body).bind (decode Context.json) with
  | some value => return value
  | none => throw (.malformedArtifact "failed to decode body: not the JSON form of its kind")

/-- The artifact of an image, under the image's name. -/
def ofImage (image : Image) (symbols : Option Symbols) : Except Fault Artifact := do
  let module ← encodeBody Stream.moduleMagic (Image.record.encode image)
  match symbols with
  | none => return ⟨image.name, module, none⟩
  | some table =>
    let bytes ← encodeBody Stream.symbolsMagic (Symbols.record.encode table)
    return ⟨image.name, module, some bytes⟩

def image (a : Artifact) : Except Fault Image :=
  decodeBody Stream.moduleMagic Image.record.decode a.module

/-- The symbol table with its points in order, if there is a symbol stream. -/
def debugSymbols (a : Artifact) : Except Fault (Option Symbols) :=
  match a.symbols with
  | none => .ok none
  | some bytes =>
    (decodeBody Stream.symbolsMagic Symbols.record.decode bytes).map fun s => some s.normalize

/-- The digest of the module stream in hexadecimal. -/
def fingerprint (a : Artifact) : String :=
  String.ofList (Text.hexOfBytes (Digest.sha256 a.module))

/-! Artifacts on disk. -/

/-- The extension of symbol streams. -/
def symbolsExtension : String := "pwsym"

def symbolsPath (path : String) : String := Path.withExtension path symbolsExtension

def readBytes (disk : Disk) (path : String) : Except Fault (List UInt8) :=
  (disk.read path).mapError .io

/-- Reads a module, and the symbols next to it if there are any. It is named after the file. -/
def load (disk : Disk) (path : String) : Except Fault Artifact := do
  let module ← readBytes disk path
  let symbols ←
    if disk.isFile (symbolsPath path) then (readBytes disk (symbolsPath path)).map some
    else .ok none
  ofBytes ((Path.stem? path).getD "") module symbols

end Artifact

end PluginHost
