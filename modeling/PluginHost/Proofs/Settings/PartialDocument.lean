import PluginHost.Proofs.Toml.Table
import PluginHost.Settings.Storage
/-!
Settings that are read from documents in which only some of them stand.

What a document gives is kept, and what it leaves out is as in the standard settings. Only the extra arguments of
the compiler are different: where a document has a table for the compiler, there are none unless it gives them.
Main statement: `ofDocument_of_partial`.
-/

namespace PluginHost

open Json (Field Record Tree)

/-! Keys in documents. -/

namespace SettingsKey

/-- The table of a document in which a key stands. -/
def table : SettingsKey → String
  | program | extraArgs | references | emitDebugSymbols | reuseStagedReferences => "compiler"
  | policyPath => "policy"
  | sourceDir | savedataDir => "plugins"

/-- What a key is called in its table. -/
def entry : SettingsKey → String
  | program => "program"
  | extraArgs => "extra_args"
  | references => "references"
  | emitDebugSymbols => "emit_debug_symbols"
  | reuseStagedReferences => "reuse_staged_references"
  | policyPath => "path"
  | sourceDir => "source_dir"
  | savedataDir => "savedata_dir"

theorem name_eq (key : SettingsKey) : key.name = key.table ++ "." ++ key.entry := by
  cases key <;> rfl

/-- The values that a document can give to a key. -/
def Accepts : SettingsKey → Toml.Value → Prop
  | program, v => ∃ text, text ≠ "" ∧ v = .str text
  | extraArgs, v | references, v => ∃ items, v = Settings.texts items
  | emitDebugSymbols, v | reuseStagedReferences, v => ∃ b, v = .bool b
  | policyPath, v | sourceDir, v | savedataDir, v => ∃ text, v = .str text

end SettingsKey

namespace Settings

/-- What a document gives to a key. -/
def given? (doc : Toml.Table) (key : SettingsKey) : Option Toml.Value :=
  match Assoc.get? doc key.table with
  | some (.table t) => Assoc.get? t key.entry
  | _ => none

/-- What a key is set to, in the form in which a document gives it. -/
def value? (s : Settings) : SettingsKey → Option Toml.Value
  | .program => some (.str s.compiler.program)
  | .extraArgs => some (texts s.compiler.extraArgs)
  | .references => some (texts s.compiler.references)
  | .emitDebugSymbols => some (.bool s.compiler.emitDebugSymbols)
  | .reuseStagedReferences => some (.bool s.compiler.reuseStagedReferences)
  | .policyPath => s.policy.path.map .str
  | .sourceDir => s.plugins.sourceDir.map .str
  | .savedataDir => s.plugins.savedataDir.map .str

/-- A document gives some keys, each in its own form. It may hold other entries too. -/
structure IsPartial (doc : Toml.Table) : Prop where
  tables : ∀ group ∈ ["compiler", "policy", "plugins"], ∀ v, Assoc.get? doc group = some v → ∃ t, v = .table t
  values : ∀ key v, given? doc key = some v → key.Accepts v

/-- The standard settings without extra arguments. -/
def bare : Settings := { standard with compiler := { CompilerSettings.standard with extraArgs := [] } }

/-- The settings from which a document takes what it leaves out. -/
def base (doc : Toml.Table) : Settings := if (Assoc.get? doc "compiler").isSome then bare else standard

/-- Only the extra arguments can be different from the standard ones. -/
theorem value?_base (doc : Toml.Table) {key : SettingsKey} (hkey : key ≠ .extraArgs) :
    (base doc).value? key = standard.value? key := by
  rw [base]
  split
  · cases key with
    | extraArgs => exact absurd rfl hkey
    | _ => rfl
  · rfl

/-- What a document leaves out is as in the standard settings exactly if it gives extra arguments or has no table for
    the compiler. -/
theorem value?_base_iff (doc : Toml.Table) :
    (∀ key, (given? doc key).or ((base doc).value? key) = (given? doc key).or (standard.value? key)) ↔
      (given? doc .extraArgs).isSome ∨ Assoc.get? doc "compiler" = none := by
  constructor
  · intro hsame
    cases htable : Assoc.get? doc "compiler" with
    | none => exact Or.inr rfl
    | some v =>
      cases hgiven : given? doc .extraArgs with
      | some items => exact Or.inl rfl
      | none =>
        have hargs := hsame .extraArgs
        rw [hgiven, Option.none_or, Option.none_or, base, htable] at hargs
        cases hargs
  · rintro (hargs | hnone) key
    · by_cases hkey : key = .extraArgs
      · rw [hkey, Option.or_of_isSome hargs, Option.or_of_isSome hargs]
      · rw [value?_base doc hkey]
    · rw [base, hnone]
      rfl

end Settings

/-! Fields. -/

variable {doc t : Toml.Table} {parts : List (String × Tree)} {c : Json.Context} {name : String}

namespace Json.Field

variable {ρ α : Type}

/-- A field comes to what a table gives to it, or to the value of its absence. -/
theorem exists_reads {f : Field ρ α} (write : α → Option Toml.Value) {default : α} (hdefault : f.absent = some default)
    (hlookup : parts.lookup f.name = (Assoc.get? t f.name).map Toml.Value.tree)
    (hdecode : ∀ v, Assoc.get? t f.name = some v → ∃ x, f.decode c v.tree = some x ∧ write x = some v) :
    ∃ x, f.Reads c parts x ∧ write x = (Assoc.get? t f.name).or (write default) := by
  cases hgiven : Assoc.get? t f.name with
  | none => exact ⟨default, .absent (by rw [hlookup, hgiven, Option.map_none]) hdefault, rfl⟩
  | some v =>
    obtain ⟨x, hread, hwrite⟩ := hdecode v hgiven
    exact ⟨x, .part (by rw [hlookup, hgiven, Option.map_some]) hread, hwrite⟩

theorem exists_reads_text (get : ρ → String) (default : String)
    (hlookup : parts.lookup name = (Assoc.get? t name).map Toml.Value.tree)
    (hform : ∀ v, Assoc.get? t name = some v → ∃ text, v = .str text) :
    ∃ text, ((Field.text name get).orElse default).Reads c parts text ∧
      some (.str text) = (Assoc.get? t name).or (some (.str default)) := by
  refine exists_reads (fun text => some (.str text)) rfl hlookup fun v hv => ?_
  obtain ⟨text, rfl⟩ := hform v hv
  exact ⟨text, rfl, rfl⟩

theorem exists_reads_bool (get : ρ → Bool) (default : Bool)
    (hlookup : parts.lookup name = (Assoc.get? t name).map Toml.Value.tree)
    (hform : ∀ v, Assoc.get? t name = some v → ∃ b, v = .bool b) :
    ∃ b, ((Field.bool name get).orElse default).Reads c parts b ∧
      some (.bool b) = (Assoc.get? t name).or (some (.bool default)) := by
  refine exists_reads (fun b => some (.bool b)) rfl hlookup fun v hv => ?_
  obtain ⟨b, rfl⟩ := hform v hv
  exact ⟨b, rfl, rfl⟩

theorem exists_reads_texts (get : ρ → List String) (default : List String) {depth : Nat} {surplus : Bool}
    (hlookup : parts.lookup name = (Assoc.get? t name).map Toml.Value.tree)
    (hform : ∀ v, Assoc.get? t name = some v → ∃ items, v = Settings.texts items) :
    ∃ items, ((Field.list name get .str Json.Decoder.text).orElse default).Reads ⟨depth + 1, surplus⟩ parts items ∧
      some (Settings.texts items) = (Assoc.get? t name).or (some (Settings.texts default)) := by
  refine exists_reads (fun items => some (Settings.texts items)) rfl hlookup fun v hv => ?_
  obtain ⟨items, rfl⟩ := hform v hv
  exact ⟨items, Toml.mapM_text_treeItems ⟨depth, surplus⟩ items, rfl⟩

theorem exists_reads_option (get : ρ → Option String)
    (hlookup : parts.lookup name = (Assoc.get? t name).map Toml.Value.tree)
    (hform : ∀ v, Assoc.get? t name = some v → ∃ text, v = .str text) :
    ∃ text, (Field.option name get .str Json.Decoder.text).Reads c parts text ∧
      text.map .str = (Assoc.get? t name).or none := by
  refine exists_reads (f := Field.option name get .str Json.Decoder.text) (Option.map .str) rfl hlookup fun v hv => ?_
  obtain ⟨text, rfl⟩ := hform v hv
  exact ⟨some text, rfl, rfl⟩

end Json.Field

/-! Groups. -/

open Json.Field

/-- What a table holds under the keys of a group is in their forms. -/
def Settings.Fills (t : Toml.Table) (group : String) : Prop :=
  ∀ (key : SettingsKey) (v : Toml.Value), key.table = group → Assoc.get? t key.entry = some v → key.Accepts v

/-- In some settings a group is what a table gives of it, and else as in other settings. -/
def Settings.TakenFrom (s : Settings) (t : Toml.Table) (group : String) (rest : Settings) : Prop :=
  ∀ key : SettingsKey, key.table = group → s.value? key = (Assoc.get? t key.entry).or (rest.value? key)

open Settings

theorem CompilerSettings.exists_decode (hnodup : (t.map (·.1)).Nodup) (hfills : Fills t "compiler") (depth : Nat)
    (surplus : Bool) :
    ∃ g, CompilerSettings.record.decode ⟨depth + 2, surplus⟩ (Toml.Value.table t).tree = some g ∧
      ∀ s : Settings, s.compiler = g → s.TakenFrom t "compiler" bare := by
  obtain ⟨parts, hlookup, hdecode⟩ := Toml.decode_table CompilerSettings.record hnodup
  obtain ⟨program, hprogram, hprogramValue⟩ := exists_reads_text CompilerSettings.program standard.program
    (c := ⟨depth + 1, surplus⟩) (hlookup "program" (by decide +kernel)) fun v hv =>
      (hfills .program v rfl hv).imp fun _ h => h.2
  obtain ⟨extraArgs, hextraArgs, hextraArgsValue⟩ := exists_reads_texts CompilerSettings.extraArgs []
    (hlookup "extra_args" (by decide +kernel)) (hfills .extraArgs · rfl)
  obtain ⟨references, hreferences, hreferencesValue⟩ := exists_reads_texts CompilerSettings.references []
    (hlookup "references" (by decide +kernel)) (hfills .references · rfl)
  obtain ⟨symbols, hsymbols, hsymbolsValue⟩ := exists_reads_bool CompilerSettings.emitDebugSymbols
    standard.emitDebugSymbols (hlookup "emit_debug_symbols" (by decide +kernel)) (hfills .emitDebugSymbols · rfl)
  obtain ⟨reuse, hreuse, hreuseValue⟩ := exists_reads_bool CompilerSettings.reuseStagedReferences
    standard.reuseStagedReferences (hlookup "reuse_staged_references" (by decide +kernel))
    (hfills .reuseStagedReferences · rfl)
  have hbuild : CompilerSettings.record.build ⟨depth + 1, surplus⟩ parts =
      some ⟨program, extraArgs, references, symbols, reuse⟩ :=
    Record.build_field (Record.build_field (Record.build_field (Record.build_field
      (Record.build_field rfl hprogram) hextraArgs) hreferences) hsymbols) hreuse
  refine ⟨_, (hdecode _ _).trans hbuild, fun s hs key hkey => ?_⟩
  cases key with
  | program => rw [value?, hs, hprogramValue]; rfl
  | extraArgs => rw [value?, hs, hextraArgsValue]; rfl
  | references => rw [value?, hs, hreferencesValue]; rfl
  | emitDebugSymbols => rw [value?, hs, hsymbolsValue]; rfl
  | reuseStagedReferences => rw [value?, hs, hreuseValue]; rfl
  | policyPath | sourceDir | savedataDir => exact absurd hkey (by decide)

theorem PolicySettings.exists_decode (hnodup : (t.map (·.1)).Nodup) (hfills : Fills t "policy") (depth : Nat)
    (surplus : Bool) :
    ∃ g, PolicySettings.record.decode ⟨depth + 1, surplus⟩ (Toml.Value.table t).tree = some g ∧
      ∀ s : Settings, s.policy = g → s.TakenFrom t "policy" standard := by
  obtain ⟨parts, hlookup, hdecode⟩ := Toml.decode_table PolicySettings.record hnodup
  obtain ⟨path, hpath, hpathValue⟩ := exists_reads_option PolicySettings.path (c := ⟨depth, surplus⟩)
    (hlookup "path" (by decide +kernel)) (hfills .policyPath · rfl)
  have hbuild : PolicySettings.record.build ⟨depth, surplus⟩ parts = some ⟨path⟩ := Record.build_field rfl hpath
  refine ⟨_, (hdecode _ _).trans hbuild, fun s hs key hkey => ?_⟩
  cases key with
  | policyPath => rw [value?, hs, hpathValue]; rfl
  | _ => exact absurd hkey (by decide)

theorem PluginSettings.exists_decode (hnodup : (t.map (·.1)).Nodup) (hfills : Fills t "plugins") (depth : Nat)
    (surplus : Bool) :
    ∃ g, PluginSettings.record.decode ⟨depth + 1, surplus⟩ (Toml.Value.table t).tree = some g ∧
      ∀ s : Settings, s.plugins = g → s.TakenFrom t "plugins" standard := by
  obtain ⟨parts, hlookup, hdecode⟩ := Toml.decode_table PluginSettings.record hnodup
  obtain ⟨source, hsource, hsourceValue⟩ := exists_reads_option PluginSettings.sourceDir (c := ⟨depth, surplus⟩)
    (hlookup "source_dir" (by decide +kernel)) (hfills .sourceDir · rfl)
  obtain ⟨savedata, hsavedata, hsavedataValue⟩ := exists_reads_option PluginSettings.savedataDir
    (c := ⟨depth, surplus⟩) (hlookup "savedata_dir" (by decide +kernel)) (hfills .savedataDir · rfl)
  have hbuild : PluginSettings.record.build ⟨depth, surplus⟩ parts = some ⟨source, savedata⟩ :=
    Record.build_field (Record.build_field rfl hsource) hsavedata
  refine ⟨_, (hdecode _ _).trans hbuild, fun s hs key hkey => ?_⟩
  cases key with
  | sourceDir => rw [value?, hs, hsourceValue]; rfl
  | savedataDir => rw [value?, hs, hsavedataValue]; rfl
  | _ => exact absurd hkey (by decide)

/-! Documents. -/

namespace Settings

/-- A group comes to what its table in a document gives of it, or to what it is without a table. -/
theorem exists_reads_group {γ : Type} {f : Field Settings γ} {rest : Settings} (hpartial : IsPartial doc)
    (hordered : (Toml.Value.table doc).Ordered) (hgroup : f.name ∈ ["compiler", "policy", "plugins"])
    (hlookup : parts.lookup f.name = (Assoc.get? doc f.name).map Toml.Value.tree)
    (hvalue : ∀ s, f.get s = f.get rest → ∀ key : SettingsKey, key.table = f.name → s.value? key = rest.value? key)
    (habsent : Assoc.get? doc f.name = none → f.absent = some (f.get rest))
    (hread : ∀ t, Assoc.get? doc f.name = some (.table t) → (t.map (·.1)).Nodup → Fills t f.name →
      ∃ g, f.decode c (Toml.Value.table t).tree = some g ∧ ∀ s, f.get s = g → s.TakenFrom t f.name rest) :
    ∃ g, f.Reads c parts g ∧ ∀ s, f.get s = g → ∀ key : SettingsKey, key.table = f.name →
      s.value? key = (given? doc key).or (rest.value? key) := by
  cases hfound : Assoc.get? doc f.name with
  | none =>
    refine ⟨f.get rest, .absent (by rw [hlookup, hfound, Option.map_none]) (habsent hfound), fun s hs key hkey => ?_⟩
    rw [given?, hkey, hfound, hvalue s hs key hkey]
    rfl
  | some v =>
    obtain ⟨t, rfl⟩ := hpartial.tables _ hgroup v hfound
    have hgiven : ∀ key : SettingsKey, key.table = f.name → given? doc key = Assoc.get? t key.entry := by
      intro key hkey
      rw [given?, hkey, hfound]
    have hnodup : (t.map (·.1)).Nodup := by
      cases hordered with
      | table _ hvalues =>
        cases hvalues _ (Assoc.mem_values_of_get? hfound) with
        | table hkeys _ => exact Assoc.nodup_keys hkeys
    have hfills : Fills t f.name := fun key v hkey hv => hpartial.values key v ((hgiven key hkey).trans hv)
    obtain ⟨g, hdecode, htaken⟩ := hread t hfound hnodup hfills
    refine ⟨g, .part (by rw [hlookup, hfound, Option.map_some]) hdecode, fun s hs key hkey => ?_⟩
    rw [hgiven key hkey]
    exact htaken s hs key hkey

section

variable (hpartial : IsPartial doc) (hordered : (Toml.Value.table doc).Ordered)
  (hlookup : ∀ name, (record.names.lookup name).isSome →
    parts.lookup name = (Assoc.get? doc name).map Toml.Value.tree)

include hpartial hordered hlookup

theorem exists_reads_compiler :
    ∃ g, ((Field.of "compiler" compiler CompilerSettings.record.encode
        CompilerSettings.record.decode).orElse .standard).Reads ⟨999, true⟩ parts g ∧
      ∀ s : Settings, s.compiler = g → ∀ key : SettingsKey, key.table = "compiler" →
        s.value? key = (given? doc key).or ((base doc).value? key) := by
  refine exists_reads_group (f := (Field.of "compiler" compiler _ _).orElse _) hpartial hordered (by decide)
    (hlookup "compiler" (by decide +kernel)) (fun s hs key hkey => ?_) (fun hnone => ?_) fun t ht hnodup hfills => ?_
  · have hsame : s.compiler = (base doc).compiler := hs
    cases key with
    | policyPath | sourceDir | savedataDir => exact absurd hkey (by decide)
    | _ => rw [value?, value?, hsame]
  · have hnone : Assoc.get? doc "compiler" = none := hnone
    rw [base, hnone]
    rfl
  · have htable : Assoc.get? doc "compiler" = some (.table t) := ht
    rw [base, htable]
    exact CompilerSettings.exists_decode hnodup hfills 997 true

theorem exists_reads_policy :
    ∃ g, ((Field.of "policy" policy PolicySettings.record.encode
        PolicySettings.record.decode).orElse ⟨none⟩).Reads ⟨999, true⟩ parts g ∧
      ∀ s : Settings, s.policy = g → ∀ key : SettingsKey, key.table = "policy" →
        s.value? key = (given? doc key).or (standard.value? key) := by
  refine exists_reads_group (f := (Field.of "policy" policy _ _).orElse _) hpartial hordered (by decide)
    (hlookup "policy" (by decide +kernel)) (fun s hs key hkey => ?_) (fun _ => rfl)
    fun t _ hnodup hfills => PolicySettings.exists_decode hnodup hfills 998 true
  have hsame : s.policy = standard.policy := hs
  cases key with
  | policyPath => rw [value?, value?, hsame]
  | _ => exact absurd hkey (by decide)

theorem exists_reads_plugins :
    ∃ g, ((Field.of "plugins" plugins PluginSettings.record.encode
        PluginSettings.record.decode).orElse ⟨none, none⟩).Reads ⟨999, true⟩ parts g ∧
      ∀ s : Settings, s.plugins = g → ∀ key : SettingsKey, key.table = "plugins" →
        s.value? key = (given? doc key).or (standard.value? key) := by
  refine exists_reads_group (f := (Field.of "plugins" plugins _ _).orElse _) hpartial hordered (by decide)
    (hlookup "plugins" (by decide +kernel)) (fun s hs key hkey => ?_) (fun _ => rfl)
    fun t _ hnodup hfills => PluginSettings.exists_decode hnodup hfills 998 true
  have hsame : s.plugins = standard.plugins := hs
  cases key with
  | sourceDir | savedataDir => rw [value?, value?, hsame]
  | _ => exact absurd hkey (by decide)

omit hlookup in
/-- A document that gives some keys is read: what it gives is kept, and the rest is as in the settings from which it
    takes what it leaves out. -/
theorem exists_decode :
    ∃ s, record.decode Toml.context (Toml.Value.table doc).tree = some s ∧
      ∀ key, s.value? key = (given? doc key).or ((base doc).value? key) := by
  have hnodup : (doc.map (·.1)).Nodup := by
    cases hordered with
    | table hkeys _ => exact Assoc.nodup_keys hkeys
  obtain ⟨parts, hlookup, hdecode⟩ := Toml.decode_table record hnodup
  obtain ⟨c, hcompiler, hcompilerValue⟩ := exists_reads_compiler hpartial hordered hlookup
  obtain ⟨p, hpolicy, hpolicyValue⟩ := exists_reads_policy hpartial hordered hlookup
  obtain ⟨d, hplugins, hpluginsValue⟩ := exists_reads_plugins hpartial hordered hlookup
  have hbuild : record.build ⟨999, true⟩ parts = some ⟨c, p, d⟩ :=
    Record.build_field (Record.build_field (Record.build_field rfl hcompiler) hpolicy) hplugins
  refine ⟨_, (hdecode 999 true).trans hbuild, fun key => ?_⟩
  cases key with
  | program | extraArgs | references | emitDebugSymbols | reuseStagedReferences =>
    exact hcompilerValue _ rfl _ rfl
  | policyPath =>
    rw [value?_base doc (by decide)]
    exact hpolicyValue _ rfl _ rfl
  | sourceDir | savedataDir =>
    rw [value?_base doc (by decide)]
    exact hpluginsValue _ rfl _ rfl

end

theorem check_of_partial (hpartial : IsPartial doc) {s : Settings}
    (hvalue : ∀ key, s.value? key = (given? doc key).or ((base doc).value? key)) : s.check = .ok () := by
  have hprogram : s.compiler.program ≠ "" := by
    have hfound := hvalue .program
    rw [value?_base doc (by decide)] at hfound
    cases hgiven : given? doc .program with
    | none =>
      rw [hgiven, Option.none_or, value?, value?, Option.some_inj, Toml.Value.str.injEq] at hfound
      rw [hfound]
      decide
    | some v =>
      obtain ⟨text, hne, rfl⟩ := hpartial.values .program v hgiven
      rw [hgiven, Option.some_or, value?, Option.some_inj, Toml.Value.str.injEq] at hfound
      rwa [hfound]
  rw [check, if_neg (by simpa using hprogram)]

/-- A document that gives some keys in their forms is read. What it gives is kept, and the rest is as in the standard
    settings; but there are no extra arguments if it leaves them out and has a table for the compiler. So it comes to
    the standard settings with what it gives exactly if it gives extra arguments or has no such table. -/
theorem ofDocument_of_partial (text : String) (doc : Toml.Table) (hdoc : Toml.document? text = some doc)
    (hpartial : IsPartial doc) :
    ∃ s, ofDocument text = .ok s ∧ (∀ key, s.value? key = (given? doc key).or ((base doc).value? key)) ∧
      ((∀ key, s.value? key = (given? doc key).or (standard.value? key)) ↔
        (given? doc .extraArgs).isSome ∨ Assoc.get? doc "compiler" = none) := by
  obtain ⟨s, hdecode, hvalue⟩ := exists_decode hpartial (Toml.ordered_of_document? hdoc)
  refine ⟨s, ?_, hvalue, ?_⟩
  · rw [ofDocument, hdoc, Option.bind_some, hdecode]
    simp only [check_of_partial hpartial hvalue]
    rfl
  · simp only [hvalue]
    exact value?_base_iff doc

end Settings

namespace SomeKeys

/-- A document that gives a compiler and arguments for it, and where the policy is. -/
def document : String := "[compiler]\nprogram = \"mcs\"\nextra_args = [\"-q\"]\n\n[policy]\npath = \"tiers.toml\"\n"

def entries : Toml.Table :=
  [("compiler", .table [("extra_args", .arr [.str "-q"]), ("program", .str "mcs")]),
    ("policy", .table [("path", .str "tiers.toml")])]

theorem isPartial_entries : IsPartial entries where
  tables := by
    intro group hgroup v hv
    obtain rfl | rfl | rfl : group = "compiler" ∨ group = "policy" ∨ group = "plugins" := by simpa using hgroup
    all_goals cases hv
    all_goals exact ⟨_, rfl⟩
  values := by
    rintro (_ | _ | _ | _ | _ | _ | _ | _) v hv
    all_goals cases hv
    · exact ⟨"mcs", by decide, rfl⟩
    · exact ⟨["-q"], rfl⟩
    · exact ⟨"tiers.toml", rfl⟩

theorem given_keys_kept :
    Toml.document? document = some entries ∧ IsPartial entries ∧
      ∃ s, Settings.ofDocument document = .ok s ∧
        ∀ key, s.value? key = (given? entries key).or (standard.value? key) := by
  have hdoc : Toml.document? document = some entries := by decide +kernel
  obtain ⟨s, hread, -, hiff⟩ := Settings.ofDocument_of_partial document entries hdoc isPartial_entries
  exact ⟨hdoc, isPartial_entries, s, hread, hiff.mpr (Or.inl rfl)⟩

end SomeKeys

namespace OnlyProgram

/-- A document that gives a compiler, and no arguments for it. -/
def document : String := "[compiler]\nprogram = \"mcs\"\n"

def entries : Toml.Table := [("compiler", .table [("program", .str "mcs")])]

theorem isPartial_entries : IsPartial entries where
  tables := by
    intro group hgroup v hv
    obtain rfl | rfl | rfl : group = "compiler" ∨ group = "policy" ∨ group = "plugins" := by simpa using hgroup
    all_goals cases hv
    exact ⟨_, rfl⟩
  values := by
    rintro (_ | _ | _ | _ | _ | _ | _ | _) v hv
    all_goals cases hv
    exact ⟨"mcs", by decide, rfl⟩

/-- The extra arguments are not given, and those of the standard settings are lost. -/
theorem standard_arguments_lost :
    Toml.document? document = some entries ∧ IsPartial entries ∧ given? entries .extraArgs = none ∧
      ∃ s, Settings.ofDocument document = .ok s ∧ s.compiler = ⟨"mcs", [], [], true, true⟩ ∧
        s.value? .extraArgs ≠ standard.value? .extraArgs := by
  have hdoc : Toml.document? document = some entries := by decide +kernel
  have hread : Settings.ofDocument document = .ok ⟨⟨"mcs", [], [], true, true⟩, ⟨none⟩, ⟨none, none⟩⟩ := by
    rw [Settings.ofDocument, hdoc]
    rfl
  refine ⟨hdoc, isPartial_entries, rfl, _, hread, rfl, fun hsame => ?_⟩
  cases hsame

end OnlyProgram

end PluginHost
