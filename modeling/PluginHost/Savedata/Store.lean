import PluginHost.Disk.Disk
import PluginHost.Fault
import PluginHost.SortedMap
import PluginHost.Text.Quoted
import PluginHost.Toml.Printer
import PluginHost.Toml.Reader
import PluginHost.Toml.Tree
/-!
Savedata: the table of settings that a plugin keeps between runs, its document, and the stores in which the
savedata of every plugin is kept under the plugin's identity.
-/

namespace PluginHost

namespace Savedata

open Toml (Table Value)

def get? (data : Table) (key : String) : Option Value := Assoc.get? data key

/-- The value that one key after the other leads to; all but the last lead to tables. -/
def getIn? (data : Table) : List String → Option Value
  | [] => none
  | [key] => get? data key
  | key :: path =>
    match get? data key with
    | some (.table inner) => getIn? inner path
    | _ => none

/-- The value at a path of keys with dots between. -/
def getPath? (data : Table) (path : String) : Option Value :=
  getIn? data ((path.toList.splitOnP (· = '.')).map String.ofList)

def set (data : Table) (key : String) (value : Value) : Table := Assoc.insert key value data

/-- Sets a value unless the key has one. -/
def setDefault (data : Table) (key : String) (value : Value) : Table :=
  if (get? data key).isSome then data else set data key value

/-- The table under a key, empty if there is another value or none. -/
def childTable (data : Table) (key : String) : Table :=
  match get? data key with
  | some (.table inner) => inner
  | _ => []

/-- Changes the table under a key, which replaces any other value. -/
def updateSection (data : Table) (key : String) (change : Table → Table) : Table :=
  set data key (.table (change (childTable data key)))

/-- The key of the document under which the table stands. -/
def documentKey : String := "Savedata"

/-- The table of a document; without one it is empty. Tables inside it may stand for dates. -/
def ofDocument? (text : String) : Option Table := do
  match Assoc.get? (← Toml.written? text) documentKey with
  | none => some []
  | some (.table data) => (Toml.datedEntries? data).map Assoc.ofList
  | some (.datetime d) => some [(Toml.datetimeKey, .str (String.ofList d.text))]
  | some _ => none

/-- The document of a table. -/
def document (data : Table) : String := Toml.document [(documentKey, .table data)]

end Savedata

/-! Stores. -/

/-- Savedata as it was loaded. -/
structure SavedataDocument where
  data : Toml.Table
  /-- Whether there was none, so that this one is new. -/
  created : Bool
deriving Inhabited

/-- The operations of a store whose contents are a `σ`. -/
structure SavedataStore (σ : Type) where
  load : σ → String → σ × Except HostFault SavedataDocument
  save : σ → String → Toml.Table → σ × Except HostFault Unit

namespace SavedataStore

/-- What a lookup makes of the savedata it found. -/
def documentOf : Option Toml.Table → SavedataDocument
  | some data => ⟨data, false⟩
  | none => ⟨[], true⟩

/-- A store that lasts as long as the host runs. -/
def inMemory : SavedataStore (SortedMap String Toml.Table) where
  load documents identity := (documents, .ok (documentOf (documents.get? identity)))
  save documents identity data := (documents.insert identity data, .ok ())

/-- Whether an identity names a place below the root: all its components are names or `.`. -/
def isInside (identity : String) : Bool :=
  !identity.isEmpty && (Path.components identity).all fun c => match c with
    | .normal _ | .current => true
    | .root | .parent => false

/-- The file of an identity, `<root>/<identity>.toml`. -/
def documentPath (root identity : String) : Except HostFault String :=
  if isInside identity then .ok (Path.join root identity ++ ".toml")
  else .error (.savedata ("invalid plugin identity " ++
    String.ofList (Text.quoted identity.toList)))

/-- Reads the document of an identity. -/
def loadFile (root : String) (disk : Disk) (identity : String) :
    Except HostFault SavedataDocument := do
  let path ← documentPath root identity
  if !disk.contains path then return documentOf none
  match disk.readText path with
  | .error fault => throw (.io fault)
  | .ok text =>
    match Savedata.ofDocument? text with
    | some data => return documentOf (some data)
    | none => throw (.savedata ("failed to parse " ++ path ++ ": not a savedata document"))

/-- Writes the document of an identity and makes the directories that it lies in. -/
def saveFile (root : String) (disk : Disk) (identity : String) (data : Toml.Table) :
    Disk × Except HostFault Unit :=
  match documentPath root identity with
  | .error fault => (disk, .error fault)
  | .ok path =>
    match (Path.parent? path).elim (disk, .ok ()) disk.makeDirectories with
    | (disk, .error fault) => (disk, .error (.io fault))
    | (disk, .ok ()) =>
      match disk.write path (Text.utf8 (Savedata.document data).toList) with
      | .ok disk => (disk, .ok ())
      | .error fault => (disk, .error (.io fault))

/-- A store of one TOML document for each identity below a root directory. -/
def onDisk (root : String) : SavedataStore Disk where
  load disk identity := (disk, loadFile root disk identity)
  save disk identity data := saveFile root disk identity data

end SavedataStore

end PluginHost
