import PluginHost.Json.Decoder
import PluginHost.Json.Value
import PluginHost.Path
import PluginHost.Text.Numeral
/-!
Units: the modules that a compilation makes, each with a name of its own.
-/

namespace PluginHost

/-! What a compilation makes of its sources. -/

inductive CompileMode where
  /-- One module of all sources. -/
  | combined
  /-- One module of every source. -/
  | perSource
deriving DecidableEq, Inhabited

structure CompileOptions where
  mode : CompileMode
  /-- Symbol streams show where in the sources a violation stands. -/
  emitDebugSymbols : Bool
deriving DecidableEq, Inhabited

namespace CompileOptions

def forAnalysis : CompileOptions := ⟨.combined, true⟩

def forLoading : CompileOptions := ⟨.combined, false⟩

end CompileOptions

namespace CompileMode

def word : CompileMode → String
  | combined => "combined"
  | perSource => "per_source"

def encode (m : CompileMode) : Json.Value := .str m.word

def decode : Json.Decoder CompileMode :=
  Json.Decoder.name [("combined", combined), ("per_source", perSource)]

end CompileMode

/-- Sources that become one module. -/
structure CompileUnit where
  name : String
  sources : List String
deriving DecidableEq, Inhabited

namespace CompileUnit

/-- The name of a unit by its first source, with the number of the other sources if there are any. -/
def baseName (sources : List String) : String :=
  let stem := (sources.head?.bind Path.stem?).getD "plugin"
  if sources.length > 1 then stem ++ "+" ++ String.ofList (Text.ofNat (sources.length - 1)) else stem

def numbered (base : String) (n : Nat) : String := base ++ "-" ++ String.ofList (Text.ofNat n)

/-- The first of `base-n`, `base-(n + 1)`, … that is not taken, among as many as the fuel says. -/
def firstFree (base : String) (taken : List String) : Nat → Nat → String
  | 0, n => numbered base n
  | fuel + 1, n =>
    if numbered base n ∈ taken then firstFree base taken fuel (n + 1) else numbered base n

/-- A name that is not taken: the base, or else the base with the least number from 2 on. One of as
    many numbers as there are taken names is free. -/
def freeName (base : String) (taken : List String) : String :=
  if base ∈ taken then firstFree base taken taken.length 2 else base

/-- Names groups of sources one after another. -/
def nameAll (taken : List String) : List (List String) → List CompileUnit
  | [] => []
  | sources :: rest =>
    let name := freeName (baseName sources) taken
    ⟨name, sources⟩ :: nameAll (name :: taken) rest

/-- The units of a compilation. -/
def ofSources (mode : CompileMode) (sources : List String) : List CompileUnit :=
  nameAll [] <| match mode with
    | .combined => [sources]
    | .perSource => sources.map fun s => [s]

end CompileUnit

end PluginHost
