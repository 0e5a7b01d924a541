import PluginHost.Json.Record
import PluginHost.Policy.Policy
import PluginHost.Toml.Reader
import PluginHost.Toml.Tree
/-!
The written form of verdicts, tiers and policies, and policies as TOML documents.
-/

namespace PluginHost

open Json

def Verdict.cases : List (String × Verdict) :=
  [("restricted", .restricted), ("whitelisted", .whitelisted), ("unrestricted", .unrestricted)]

def Verdict.word : Verdict → String
  | .restricted => "restricted"
  | .whitelisted => "whitelisted"
  | .unrestricted => "unrestricted"

def Verdict.encode (v : Verdict) : Value := .str v.word

def Verdict.decode : Decoder Verdict := Decoder.name Verdict.cases

def Tier.record : Record Tier Tier :=
  Record.start Tier.mk
    |>.field (.uint8 "rank" Tier.rank)
    |>.field (.text "name" Tier.name)
    |>.field ((Field.nameSet "restricted_namespaces" Tier.restrictedNamespaces).orElse .empty)
    |>.field ((Field.nameSet "restricted_types" Tier.restrictedTypes).orElse .empty)
    |>.field ((Field.nameSet "restricted_methods" Tier.restrictedMethods).orElse .empty)
    |>.field ((Field.nameSet "whitelisted_namespaces" Tier.whitelistedNamespaces).orElse .empty)
    |>.field ((Field.nameSet "whitelisted_types" Tier.whitelistedTypes).orElse .empty)

/-- A policy as it is read, its tiers neither ordered nor compared. -/
def Policy.record : Record Policy Policy :=
  Record.start Policy.mk
    |>.field (.list "tier" Policy.tiers Tier.record.encode Tier.record.decode)

/-! Policies as TOML documents. -/

/-- The policy of a document with one `[[tier]]` for each tier. -/
def Policy.ofToml (text : String) : Except Fault Policy :=
  let decode := fun t => Policy.record.decode Toml.context (Toml.Value.table t).tree
  match (Toml.document? text).bind decode with
  | some policy => ofTiers policy.tiers
  | none => .error (.invalidPolicy "invalid policy TOML: not a document with tiers")

end PluginHost
