import PluginHost.Compliance.Report
import PluginHost.Image.Artifact
import PluginHost.Policy.Policy
/-!
Reports, modules and policies as lines of text.
-/

namespace PluginHost.Cli

def number (n : Nat) : String := String.ofList (Text.ofNat n)

/-- How a plugin fares, in a few words. -/
def summary (r : ComplianceReport) : String :=
  if r.isUntested then "untested"
  else
    match r.highestPassedTier with
    | some rank => "passes tier " ++ number rank.toNat
    | none => "passes no tier"

def violationLine (v : Violation) : String :=
  "    - " ++ v.offendingName ++ " at " ++ v.location ++
    if v.isGenericArgument then " [generic argument]" else ""

/-- The result of one tier, with its name if the policy has one for it. -/
def tierLines (policy : Policy) (t : TierResult) : List String :=
  let name := match policy.tier t.tier with
    | .ok tier => tier.name
    | .error _ => "?"
  ("  [" ++ (if t.passed then "PASS" else "FAIL") ++ "] tier " ++ number t.tier.toNat ++ " (" ++
    name ++ ")") :: t.violations.map violationLine

def complianceLines (policy : Policy) (isQuiet : Bool) (r : ComplianceReport) : List String :=
  (r.identity ++ ": " ++ summary r) ::
    if isQuiet then []
    else
      (r.compileErrors.map fun d => "  error: " ++ d.display) ++
        (r.loadError.toList.map fun text => "  load error: " ++ text) ++
        (r.tiers.filter fun t => t.tested).flatMap (tierLines policy)

def typeLines (t : TypeDef) : List String :=
  let base := (t.baseType.map fun b => " : " ++ b.display).getD ""
  ("  type " ++ t.fullName ++ base) ::
    t.methods.map fun m =>
      "    " ++ m.name ++ " (" ++ number m.body.length ++ " instructions)"

def moduleLines (a : Artifact) (image : Image) : List String :=
  ["Module: " ++ a.name, "  Fingerprint: " ++ a.fingerprint,
   "  Debug symbols: " ++ if a.symbols.isSome then "yes" else "no"] ++
    image.types.flatMap typeLines

def tierSummary (t : Tier) : List String :=
  ["Tier " ++ number t.rank.toNat ++ ": " ++ t.name,
   "  restricted: " ++ number t.restrictedNamespaces.size ++ " namespace(s), " ++
     number t.restrictedTypes.size ++ " type(s), " ++ number t.restrictedMethods.size ++
     " method(s)",
   "  whitelisted: " ++ number t.whitelistedNamespaces.size ++ " namespace(s), " ++
     number t.whitelistedTypes.size ++ " type(s)"]

end PluginHost.Cli
