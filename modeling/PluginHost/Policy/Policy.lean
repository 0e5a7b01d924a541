import PluginHost.Fault
import PluginHost.NameSet
import PluginHost.Symbol
/-!
Tiers and policies: which names a plugin may refer to.

A tier restricts namespaces, types and methods and makes exceptions for some namespaces and types.
Tiers are judged independently of one another; a higher rank is more restrictive by convention only.
A policy holds tiers in ascending order of their ranks.
-/

namespace PluginHost

/-- What a tier says about a name. -/
inductive Verdict where
  | restricted
  | whitelisted
  | unrestricted
deriving DecidableEq, Inhabited

def Verdict.isRestricted (v : Verdict) : Bool := v = .restricted

structure Tier where
  rank : UInt8
  name : String
  restrictedNamespaces : NameSet
  restrictedTypes : NameSet
  restrictedMethods : NameSet
  whitelistedNamespaces : NameSet
  whitelistedTypes : NameSet
deriving DecidableEq, Inhabited

namespace Tier

/-- A tier without rules. -/
def empty (rank : UInt8) (name : String) : Tier :=
  ⟨rank, name, .empty, .empty, .empty, .empty, .empty⟩

def restrictNamespace (t : Tier) (ns : String) : Tier :=
  { t with restrictedNamespaces := t.restrictedNamespaces.insert ns }

/-- Restricts a type; for an array type its element type. -/
def restrictType (t : Tier) (type : String) : Tier :=
  { t with restrictedTypes := t.restrictedTypes.insert (Symbol.stripArraySuffix type) }

def restrictMethod (t : Tier) (method : String) : Tier :=
  { t with restrictedMethods := t.restrictedMethods.insert method }

def whitelistNamespace (t : Tier) (ns : String) : Tier :=
  { t with whitelistedNamespaces := t.whitelistedNamespaces.insert ns }

/-- Whitelists a type; for an array type its element type. -/
def whitelistType (t : Tier) (type : String) : Tier :=
  { t with whitelistedTypes := t.whitelistedTypes.insert (Symbol.stripArraySuffix type) }

/-- A tier with one rule for each name of five lists. -/
def build (rank : UInt8) (name : String) (restrictedNamespaces restrictedTypes restrictedMethods
    whitelistedNamespaces whitelistedTypes : List String) : Tier :=
  let t := restrictedNamespaces.foldl restrictNamespace (empty rank name)
  let t := restrictedTypes.foldl restrictType t
  let t := restrictedMethods.foldl restrictMethod t
  let t := whitelistedNamespaces.foldl whitelistNamespace t
  whitelistedTypes.foldl whitelistType t

/-- Judges the full name of a type or namespace, an array type as its element type. Exceptions come
    first, so that one can be made inside a restricted namespace. -/
def classify (t : Tier) (symbol : String) : Verdict :=
  let symbol := Symbol.stripArraySuffix symbol
  if symbol ∈ t.whitelistedTypes then .whitelisted
  else if t.whitelistedNamespaces.any (Symbol.namespaceContains · symbol) then .whitelisted
  else if symbol ∈ t.restrictedTypes then .restricted
  else if t.restrictedNamespaces.any (Symbol.namespaceContains · symbol) then .restricted
  else .unrestricted

/-- Whether exactly this plain method name is restricted. -/
def isMethodRestricted (t : Tier) (plainName : String) : Bool := plainName ∈ t.restrictedMethods

end Tier

/-! Policies. -/

structure Policy where
  tiers : List Tier
deriving DecidableEq, Inhabited

namespace Policy

/-- The first rank that a tier shares with the tier right after it. -/
def repeatedRank? : List Tier → Option UInt8
  | t :: u :: rest => if t.rank = u.rank then some t.rank else repeatedRank? (u :: rest)
  | _ => none

/-- The policy with given tiers, of which there is at least one and no two have the same rank. -/
def ofTiers (tiers : List Tier) : Except Fault Policy :=
  if tiers.isEmpty then .error (.invalidPolicy "a policy must define at least one tier")
  else
    let sorted := tiers.mergeSort fun t u => t.rank ≤ u.rank
    match repeatedRank? sorted with
    | some rank => .error (.invalidPolicy ("duplicate tier rank " ++ Fault.number rank.toNat))
    | none => .ok ⟨sorted⟩

/-- The tier of a rank. -/
def tier (p : Policy) (rank : UInt8) : Except Fault Tier :=
  match p.tiers.find? fun t => t.rank = rank with
  | some t => .ok t
  | none => .error (.tierNotFound rank)

/-- The methods that bring code into the host at run time. -/
def dynamicLoading : List String :=
  ["System.Reflection.Assembly::Load",
   "System.Reflection.Assembly::LoadFrom",
   "System.Reflection.Assembly::LoadFile",
   "System.Reflection.Assembly::UnsafeLoadFrom",
   "System.AppDomain::Load"]

/-- Protects the framework itself. -/
def trustedTier : Tier :=
  .build 1 "Trusted" ["Patchwork", "HarmonyLib"] [] [] [] []

/-- Keeps plugins from native code, code generation and processes. -/
def systemTier : Tier :=
  .build 2 "System"
    ["Patchwork", "HarmonyLib", "System.Runtime.InteropServices", "System.Reflection.Emit"]
    ["System.Diagnostics.Process", "System.Diagnostics.ProcessStartInfo"]
    dynamicLoading [] []

/-- Keeps plugins from reflection, files, the network and the registry. -/
def sandboxedTier : Tier :=
  .build 3 "Sandboxed"
    ["Patchwork", "HarmonyLib", "System.Runtime.InteropServices", "System.Reflection",
     "System.Diagnostics", "System.IO", "System.Net", "Microsoft.Win32"]
    []
    dynamicLoading
    ["System.Diagnostics.CodeAnalysis", "System.Diagnostics.Debug"]
    ["System.Reflection.BindingFlags", "System.IO.Path", "System.IO.MemoryStream"]

/-- Leaves core value types, collections, text and mathematics. -/
def minimalTier : Tier :=
  .build 4 "Minimal"
    ["Patchwork", "HarmonyLib", "System.Runtime", "System.Reflection", "System.Diagnostics",
     "System.IO", "System.Net", "System.Threading", "System.Security", "Microsoft"]
    ["System.Environment", "System.AppDomain", "System.Activator", "System.Type"]
    dynamicLoading
    ["System.Runtime.CompilerServices"]
    ["System.Diagnostics.DebuggableAttribute"]

/-- The policy that holds unless another is configured. -/
def reference : Policy := ⟨[trustedTier, systemTier, sandboxedTier, minimalTier]⟩

end Policy

end PluginHost
