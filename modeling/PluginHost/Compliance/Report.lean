import PluginHost.Compile.Diagnostic
import PluginHost.Compliance.Analysis
import PluginHost.Json.Record
/-!
Compliance reports: how one plugin fares against every tier of a policy.
-/

namespace PluginHost

structure ComplianceReport where
  identity : String
  /-- The digest of the module that was tested, if there was one. -/
  fingerprint : Option String
  compileErrors : List Diagnostic
  loadError : Option String
  tiers : List TierResult
deriving DecidableEq, Inhabited

namespace ComplianceReport

/-- Whether the plugin was tested against no tier. -/
def isUntested (r : ComplianceReport) : Bool := r.tiers.all (!·.tested)

/-- The greater of two ranks, the first of which may be missing. -/
def highest (best : Option UInt8) (rank : UInt8) : Option UInt8 :=
  match best with
  | some b => some (if b < rank then rank else b)
  | none => some rank

/-- The highest rank among the tiers that were tested and passed. -/
def highestPassedTier (r : ComplianceReport) : Option UInt8 :=
  ((r.tiers.filter fun t => t.tested && t.passed).map (·.tier)).foldl highest none

/-- The first result for a rank. -/
def tier? (r : ComplianceReport) (rank : UInt8) : Option TierResult :=
  r.tiers.find? fun t => t.tier = rank

end ComplianceReport

/-! The written form of violations, test results and compliance reports. -/

open Json

def ViolationReason.cases : List (String × ViolationReason) :=
  [("restricted_type", .restrictedType), ("restricted_method", .restrictedMethod)]

def ViolationReason.word : ViolationReason → String
  | .restrictedType => "restricted_type"
  | .restrictedMethod => "restricted_method"

def ViolationReason.encode (r : ViolationReason) : Value := .str r.word

def ViolationReason.decode : Decoder ViolationReason := Decoder.name ViolationReason.cases

def Violation.record : Record Violation Violation :=
  Record.start Violation.mk
    |>.field (.text "location" Violation.location)
    |>.field (.text "offending_name" Violation.offendingName)
    |>.field (.of "reason" Violation.reason ViolationReason.encode ViolationReason.decode)
    |>.field (.bool "is_generic_argument" Violation.isGenericArgument)

def TierResult.record : Record TierResult TierResult :=
  Record.start TierResult.mk
    |>.field (.uint8 "tier" TierResult.tier)
    |>.field (.bool "tested" TierResult.tested)
    |>.field (.bool "passed" TierResult.passed)
    |>.field (.list "violations" TierResult.violations Violation.record.encode
      Violation.record.decode)

def ComplianceReport.record : Record ComplianceReport ComplianceReport :=
  Record.start ComplianceReport.mk
    |>.field (.text "identity" ComplianceReport.identity)
    |>.field (.option "fingerprint" ComplianceReport.fingerprint .str Decoder.text)
    |>.field (((Field.list "compile_errors" ComplianceReport.compileErrors Diagnostic.record.encode
      Diagnostic.record.decode).orElse []).omitting List.isEmpty)
    |>.field (((Field.option "load_error" ComplianceReport.loadError .str Decoder.text).orElse
      none).omitting Option.isNone)
    |>.field (.list "tiers" ComplianceReport.tiers TierResult.record.encode TierResult.record.decode)

end PluginHost
