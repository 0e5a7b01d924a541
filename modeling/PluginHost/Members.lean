import PluginHost.Json.Value
import PluginHost.Fault
import PluginHost.Patching.Patch
import PluginHost.Policy.Policy
/-!
Members of the host that plugins may read and write, as far as a tier allows.
-/

namespace PluginHost

/-- A member of a host type. -/
structure MemberName where
  type : String
  member : String
deriving DecidableEq, Inhabited

def MemberName.display (m : MemberName) : String := m.type ++ "::" ++ m.member

/-- The members that exist, with their values. -/
abbrev Members := List (MemberName × Json.Value)

namespace Members

def read? (ms : Members) (m : MemberName) : Option Json.Value := ms.lookup m

/-- Adds a member, or gives a new value to one that exists. -/
def define (ms : Members) (m : MemberName) (v : Json.Value) : Members :=
  match ms with
  | [] => [(m, v)]
  | e :: rest => if e.1 = m then (m, v) :: rest else e :: define rest m v

/-- Gives a new value to a member, which has to exist. -/
def write (ms : Members) (m : MemberName) (v : Json.Value) : Except HostFault Members :=
  if (ms.read? m).isSome then .ok (ms.define m v) else .error (.notFound m.display)

/-- Whether a tier lets plugins touch the members of a type. No tier opens the framework's. -/
def allows (tier : Tier) (type : String) : Bool :=
  (protecting? type).isNone && !(tier.classify type).isRestricted

/-- Fails unless the type of a member may be touched. Whether the member exists is not looked at. -/
def check (tier : Tier) (m : MemberName) : Except HostFault Unit :=
  if allows tier m.type then .ok () else .error (.accessDenied m.display)

/-- Reads a member under a tier. -/
def guardedRead (tier : Tier) (ms : Members) (m : MemberName) : Except HostFault Json.Value := do
  check tier m
  match ms.read? m with
  | some v => return v
  | none => throw (.notFound m.display)

/-- Writes a member under a tier. -/
def guardedWrite (tier : Tier) (ms : Members) (m : MemberName) (v : Json.Value) :
    Except HostFault Members := do
  check tier m
  ms.write m v

end Members

end PluginHost
