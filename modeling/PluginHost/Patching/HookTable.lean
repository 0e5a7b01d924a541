import PluginHost.Patching.Patch
/-!
The hook table: which stubs run before and after the functions of the host.

For each function and side there is a chain of stubs in the order in which they run: by descending
priority, and among equal priorities in order of attachment.
-/

namespace PluginHost

/-- A side of a function. -/
structure Site where
  target : FunctionName
  location : Location
deriving DecidableEq, Inhabited

structure AttachedStub where
  stub : FunctionName
  priority : Int32
  /-- The identity of the plugin that attached it. -/
  owner : String
deriving DecidableEq, Inhabited

/-- Why a stub was not attached. -/
inductive HookFault where
  | unknownTarget (target : FunctionName)
  | duplicateStub (target stub : FunctionName)
deriving DecidableEq

def HookFault.message : HookFault → String
  | .unknownTarget target => "Target function not found in host: " ++ target.display
  | .duplicateStub target stub =>
    "Stub " ++ stub.display ++ " is already attached to " ++ target.display

structure HookTable where
  /-- The functions that can be patched, each once. -/
  functions : List FunctionName
  chains : List (Site × List AttachedStub)
deriving DecidableEq, Inhabited

namespace HookTable

/-- Makes a function patchable. -/
def addFunction (t : HookTable) (f : FunctionName) : HookTable :=
  if f ∈ t.functions then t else { t with functions := t.functions ++ [f] }

/-- A table without stubs for the given functions. -/
def ofFunctions (functions : List FunctionName) : HookTable := functions.foldl addFunction ⟨[], []⟩

/-- The stubs at a site, in the order in which they run. -/
def dispatchOrder (t : HookTable) (site : Site) : List AttachedStub :=
  (t.chains.lookup site).getD []

/-- The number of attached stubs. -/
def hookCount (t : HookTable) : Nat := (t.chains.flatMap fun c => c.2).length

/-- Puts a stub behind all stubs of at least its priority. -/
def insertByPriority (s : AttachedStub) : List AttachedStub → List AttachedStub
  | [] => [s]
  | a :: rest => if a.priority < s.priority then s :: a :: rest else a :: insertByPriority s rest

/-- Sets the chain of a site. -/
def setChain (site : Site) (chain : List AttachedStub) :
    List (Site × List AttachedStub) → List (Site × List AttachedStub)
  | [] => [(site, chain)]
  | c :: rest => if c.1 = site then (site, chain) :: rest else c :: setChain site chain rest

/-- Attaches a stub to a function of the host, unless the stub is attached to this side already. -/
def intercept (t : HookTable) (site : Site) (s : AttachedStub) : Except HookFault HookTable :=
  if site.target ∉ t.functions then .error (.unknownTarget site.target)
  else if (t.dispatchOrder site).any fun a => a.stub = s.stub then
    .error (.duplicateStub site.target s.stub)
  else .ok { t with chains := setChain site (insertByPriority s (t.dispatchOrder site)) t.chains }

/-- Takes away every stub of an owner, and says how many there were. -/
def detachOwner (t : HookTable) (owner : String) : HookTable × Nat :=
  let kept := t.chains.map fun c => (c.1, c.2.filter fun s => s.owner ≠ owner)
  let detached : HookTable := { t with chains := kept }
  (detached, t.hookCount - detached.hookCount)

/-- Whether stubs can be attached at all. -/
def isPatchable (t : HookTable) : Bool := !t.functions.isEmpty

end HookTable

end PluginHost
