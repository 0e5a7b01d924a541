import PluginHost.Json.Access
import PluginHost.Lifecycle.Codec
import PluginHost.Lifecycle.Plugin
import PluginHost.Registry
import PluginHost.Savedata.Store
import PluginHost.Toml.Exact
/-!
Scripted plugins: plugins whose stages are lists of actions.

Actions are carried out in order until one ends the stage. An action is an object whose member `do`
says what is done.
-/

namespace PluginHost.Script

open Json (Tree Value)

/-- How an action ends its stage, if it does. `stopped` is what the stage has come to. -/
def ending? {α : Type} (stopped : α) (action : Tree) : Option (Completion α) :=
  let message := (action.member "message").text
  match (action.member "do").text with
  | "fail" => some (.failed message)
  | "panic" => some (.panicked (some message))
  | "panic_static" => some (.panicked (some "static message"))
  | "panic_other" => some (.panicked none)
  | "stop" => some (.returned stopped)
  | _ => none

/-- A function, by its qualified name, by its parts or by a list of them. -/
def functionOf (t : Tree) : FunctionName :=
  match t with
  | .str s => ((s.text.bind FunctionName.ofQualified?)).getD default
  | .obj _ => ⟨(t.member "namespace").text, (t.member "type_name").text, (t.member "name").text⟩
  | t => ⟨(t.item 0).text, (t.item 1).text, (t.item 2).text⟩

/-- The patch that an action declares. -/
def patchOf (action : Tree) : Patch :=
  let target := functionOf (action.member "target")
  let stub := functionOf (action.member "stub")
  let priority := (action.member "priority").int?.map Int32.ofInt
  match (action.member "do").text with
  | "before" => { Patch.before target stub with priority }
  | "after" => { Patch.after target stub with priority }
  | _ => (Patch.record.decode .json (action.member "descriptor")).getD default

/-- Declares patches after those that were declared. -/
def declare (declared : PatchList) : List Tree → Completion (List Patch)
  | [] => .returned declared.patches
  | action :: rest => (ending? declared.patches action).getD (declare (declared.push (patchOf action)) rest)

/-- The value that stands in an action. -/
def tomlOf (action : Tree) : Toml.Value :=
  (Toml.Value.ofExact? (action.member "value")).getD (.str "")

/-- One more than the integer of a key, which is zero unless there is one. -/
def incremented (data : Toml.Table) (key : String) : Toml.Value :=
  match Savedata.get? data key with
  | some (.int n) => .int (n + 1)
  | _ => .int 1

/-- The savedata after an action. -/
def change (data : Toml.Table) (action : Tree) : Toml.Table :=
  let key := (action.member "key").text
  match (action.member "do").text with
  | "set" => Savedata.set data key (tomlOf action)
  | "default" => Savedata.setDefault data key (tomlOf action)
  | "section" => Savedata.updateSection data key fun inner =>
      Savedata.set inner (action.member "name").text (tomlOf action)
  | "incr" => Savedata.set data key (incremented data key)
  | _ => data

/-- Works on savedata. The action `note` logs the table. -/
def configure (next : PatchStage) (data : Toml.Table) (log : List Value) :
    List Tree → Configuration
  | [] => ⟨data, log, .returned next⟩
  | action :: rest =>
    match ending? next action with
    | some result => ⟨data, log, result⟩
    | none =>
      let noted := if (action.member "do").text = "note" then [Toml.Table.exact data] else []
      configure next (change data action) (log ++ noted) rest

/-- What a plugin says about itself after an action. -/
def describe (action : Tree) (info : PluginInfo) : PluginInfo :=
  let value := action.member "value"
  match (action.member "do").text with
  | "set_name" => { info with name := value.text }
  | "set_version" => { info with version := some value.text }
  | "set_author" => { info with author := some value.text }
  | "set_uses_savedata" => { info with usesSavedata := value.truth }
  | _ => info

/-- Goes on with an answer of the host; without access or with a fault the stage fails. -/
def answered {α : Type} (next : α → Initialization) :
    Option (Except HostFault α) → Initialization
  | none => .finish (.failed "no member access")
  | some (.error fault) => .finish (.failed fault.message)
  | some (.ok a) => next a

/-- The first stage of a plugin. -/
def initialization (plugin : InitializedPlugin) : List Tree → Initialization
  | [] => .finish (.returned plugin)
  | action :: rest =>
    match ending? plugin action with
    | some result => .finish result
    | none =>
      let next := initialization plugin rest
      let member : MemberName := ⟨(action.member "type").text, (action.member "member").text⟩
      match (action.member "do").text with
      | "info" => .inspect fun info => .log (PluginInfo.record.encode info) next
      | "has_access" => .hasAccess fun b => .log (.bool b) next
      | "get" => .read member (answered fun v => .log v next)
      | "set" =>
        .write member ((action.member "value").value?.getD .null) (answered fun _ => next)
      | _ => .declare (describe action) next

/-- The plugin of a script, which has a list of actions for each stage. -/
def plugin (script : Tree) : Completion Initialization :=
  let stage : PatchStage := ⟨declare .empty (script.member "pre_patch").items⟩
  let first := initialization
    ⟨fun data => configure stage data [] (script.member "configure").items, stage⟩
    (script.member "initialize").items
  (ending? first (script.member "construct")).getD (.returned first)

/-- The constructors of a module with a script for each type. -/
def activator (scripts : Tree) : Activator := fun typeName =>
  match scripts.member? typeName with
  | some script => plugin script
  | none => .failed ("no constructor for " ++ typeName)

/-- Code that is scripts, for modules by name. -/
def loader (modules : Tree) : Loader Activator := fun artifact =>
  match modules.member? artifact.name with
  | some scripts => .ok (activator scripts)
  | none => .error (.moduleLoad artifact.name "no executable code registered for module")

end PluginHost.Script
