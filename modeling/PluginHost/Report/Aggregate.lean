import PluginHost.Compliance.Report
import PluginHost.Lifecycle.Codec
import PluginHost.Lifecycle.Outcome
import PluginHost.SortedMap
/-!
Aggregate reports: compliance and run outcome of every plugin under its identity.
-/

namespace PluginHost

/-- Why a plugin, or one of its patches, took no effect. -/
inductive FailureReason where
  | construction
  | initialization
  | configurationLoad
  | prePatch
  | protectedNamespace
  | nullDescriptor
  | interceptionFailure
deriving DecidableEq, Inhabited

namespace FailureReason

def ofStage : Stage → FailureReason
  | .construction => construction
  | .initialization => initialization
  | .configurationLoad => configurationLoad
  | .prePatch => prePatch

def display : FailureReason → String
  | construction => "failed construction"
  | initialization => "failed Initialize"
  | configurationLoad => "failed configuration load"
  | prePatch => "failed PrePatch"
  | protectedNamespace => "attempted protected-namespace patch"
  | nullDescriptor => "null descriptor"
  | interceptionFailure => "interception failure"

end FailureReason

structure FailureEntry where
  reason : FailureReason
  detail : String
deriving DecidableEq, Inhabited

/-- One plugin instance as the report shows it. -/
structure InstanceSummary where
  typeName : String
  displayName : Option String
  state : PluginState
  patchesApplied : UInt64
  failures : List FailureEntry
deriving DecidableEq, Inhabited

namespace PatchOutcome

/-- Stub and target of the patch. -/
def describe (o : PatchOutcome) : String :=
  let side := fun (f : Option FunctionName) => (f.map FunctionName.display).getD "<none>"
  side o.descriptor.stub ++ " -> " ++ side o.descriptor.target

/-- The failure of a patch that was not applied. -/
def failure? (o : PatchOutcome) : Option FailureEntry :=
  match o.status with
  | .applied => none
  | .nullDescriptor => some ⟨.nullDescriptor, o.describe⟩
  | .protectedNamespace ns =>
    some ⟨.protectedNamespace, o.describe ++ " (protected: " ++ ns ++ ")"⟩
  | .interceptionFailed message => some ⟨.interceptionFailure, message⟩

end PatchOutcome

/-- The summary of a record: the failure of the plugin first, then those of its patches. -/
def InstanceSummary.ofRecord (r : RuntimeRecord) : InstanceSummary where
  typeName := r.typeName
  displayName := r.info.map PluginInfo.name
  state := r.state
  patchesApplied := UInt64.ofNat (r.descriptors.countP fun o => o.status = .applied)
  failures :=
    (r.failure.map fun f => FailureEntry.mk (.ofStage f.stage) f.message).toList ++
      r.descriptors.filterMap PatchOutcome.failure?

/-- All that is known about one identity. -/
structure PluginEntry where
  compliance : Option ComplianceReport
  instances : List InstanceSummary
deriving DecidableEq, Inhabited

namespace PluginEntry

def empty : PluginEntry := ⟨none, []⟩

def failureReasons (e : PluginEntry) : List FailureReason :=
  e.instances.flatMap fun i => i.failures.map FailureEntry.reason

end PluginEntry

structure AggregateReport where
  result : ResultCode
  fatalDetail : Option String
  plugins : SortedMap String PluginEntry
deriving DecidableEq, Inhabited

namespace AggregateReport

def plugin? (r : AggregateReport) (identity : String) : Option PluginEntry := r.plugins.get? identity

/-- The first instance of a plugin type, in the order of identities. -/
def instance? (r : AggregateReport) (typeName : String) : Option InstanceSummary :=
  (r.plugins.values.flatMap PluginEntry.instances).find? fun i => i.typeName = typeName

abbrev Entries := SortedMap String PluginEntry

/-- Changes the entry of an identity, which starts empty. -/
def update (identity : String) (change : PluginEntry → PluginEntry) (entries : Entries) : Entries :=
  entries.insert identity (change ((entries.get? identity).getD .empty))

def addCompliance (entries : Entries) (c : ComplianceReport) : Entries :=
  update c.identity (fun e => { e with compliance := some c }) entries

def addRecord (entries : Entries) (r : RuntimeRecord) : Entries :=
  update r.identity (fun e => { e with instances := e.instances ++ [.ofRecord r] }) entries

end AggregateReport

/-- Compliance reports and the outcome of a run, if there was one, under their identities. Without
    a run nothing could fail, so the result is success. -/
def aggregate (compliance : List ComplianceReport) (outcome : Option Outcome) : AggregateReport where
  result := (outcome.map Outcome.result).getD .success
  fatalDetail := outcome.bind Outcome.fatalDetail
  plugins :=
    let entries := compliance.foldl AggregateReport.addCompliance .empty
    ((outcome.map Outcome.records).getD []).foldl AggregateReport.addRecord entries

/-! The written form of aggregate reports and their entries. -/

open Json

def FailureReason.word : FailureReason → String
  | .construction => "construction"
  | .initialization => "initialize"
  | .configurationLoad => "configuration_load"
  | .prePatch => "pre_patch"
  | .protectedNamespace => "protected_namespace"
  | .nullDescriptor => "null_descriptor"
  | .interceptionFailure => "interception_failure"

def FailureReason.encode (r : FailureReason) : Value := .str r.word

def FailureReason.decode : Decoder FailureReason :=
  Decoder.name
    [("construction", .construction), ("initialize", .initialization),
     ("configuration_load", .configurationLoad), ("pre_patch", .prePatch),
     ("protected_namespace", .protectedNamespace), ("null_descriptor", .nullDescriptor),
     ("interception_failure", .interceptionFailure)]

def FailureEntry.record : Record FailureEntry FailureEntry :=
  Record.start FailureEntry.mk
    |>.field (.of "reason" FailureEntry.reason FailureReason.encode FailureReason.decode)
    |>.field (.text "detail" FailureEntry.detail)

def InstanceSummary.record : Record InstanceSummary InstanceSummary :=
  Record.start InstanceSummary.mk
    |>.field (.text "type_name" InstanceSummary.typeName)
    |>.field (.option "display_name" InstanceSummary.displayName .str Decoder.text)
    |>.field (.of "state" InstanceSummary.state PluginState.encode PluginState.decode)
    |>.field (.uint64 "patches_applied" InstanceSummary.patchesApplied)
    |>.field (.list "failures" InstanceSummary.failures FailureEntry.record.encode
      FailureEntry.record.decode)

def PluginEntry.record : Record PluginEntry PluginEntry :=
  Record.start PluginEntry.mk
    |>.field (.option "compliance" PluginEntry.compliance ComplianceReport.record.encode
      ComplianceReport.record.decode)
    |>.field (.list "instances" PluginEntry.instances InstanceSummary.record.encode
      InstanceSummary.record.decode)

/-- The members of a report that do not depend on when and by which run it was made. -/
def AggregateReport.members (r : AggregateReport) : List (String × Value) :=
  [("result", r.result.encode)] ++
    (r.fatalDetail.map fun detail => ("fatal_detail", Value.str detail)).toList ++
    [("plugins", .obj (r.plugins.entries.map fun e => (e.1, PluginEntry.record.encode e.2)))]

end PluginHost
