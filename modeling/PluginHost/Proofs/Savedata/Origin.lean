import PluginHost.Proofs.Savedata.Updates
/-!
Where saves come from.

A save is issued by a plugin that was initialized, declared savedata, was handed its document and returned from
its configuration; it carries the table as the plugin has left it. Nothing else is ever written: a plugin that
fails before that point issues no save, whatever it did to the table. Main statement: this accounts for all the
saves of a run, and for all that is written to the store, however the saves land.
-/

namespace PluginHost

open Toml (Table)

namespace SavedataStore

variable {σ : Type}

/-- A store has gone from one state to another by loads and by given saves, in this order. -/
inductive Worked (store : SavedataStore σ) : σ → List (String × Table) → σ → Prop
  | done {s : σ} : Worked store s [] s
  | loaded {s t : σ} {saves : List (String × Table)} (identity : String) :
    Worked store (store.load s identity).1 saves t → Worked store s saves t
  | saved {s t : σ} {saves : List (String × Table)} (save : String × Table) :
    Worked store (store.save s save.1 save.2).1 saves t → Worked store s (save :: saves) t

/-- Saves under other identities leave a document as it is. -/
theorem Worked.document_eq {store : SavedataStore σ} {identity : String} {document : σ → Option Table}
    (hkeeps : store.Keeps identity document) {s t : σ} {saves : List (String × Table)}
    (h : store.Worked s saves t) (hothers : ∀ save ∈ saves, save.1 ≠ identity) : document t = document s := by
  induction h with
  | done => rfl
  | loaded other _ ih => rw [ih hothers, hkeeps.document_load]
  | saved save _ ih =>
    rw [List.forall_mem_cons] at hothers
    rw [ih hothers.2, hkeeps.document_save_other _ _ hothers.1]

end SavedataStore

variable {σ : Type}

/-- In its turn a plugin is initialized, has savedata, is handed its document and returns from its
    configuration, which leaves a table. -/
inductive Turn.Configures (host : Host σ) (t : Turn σ) : Table → Prop
  | returned {first : Initialization} {next : InitializedPlugin} {document : SavedataDocument}
      {stage : PatchStage} (constructed : t.plugin.code t.plugin.typeName = .returned first)
      (initialized : (first.run host.access (.named t.plugin.typeName) t.found.members []).result =
        .returned next)
      (declared : (first.run host.access (.named t.plugin.typeName) t.found.members []).info.usesSavedata =
        true)
      (loaded : (host.store.load t.found.store t.plugin.identity).2 = .ok document)
      (configured : (next.configure document.data).next = .returned stage) :
    Configures host t (next.configure document.data).data

/-- The saves of a turn: one under the identity of the plugin if it configures its savedata, else none. -/
inductive Turn.Issues (host : Host σ) (t : Turn σ) : List (String × Table) → Prop
  | save {data : Table} : t.Configures host data → Issues host t [(t.plugin.identity, data)]
  | none : (∀ data, ¬ t.Configures host data) → Issues host t []

/-- The record of a plugin that came past its configuration and has savedata. -/
def RuntimeRecord.HasConfigured (record : RuntimeRecord) : Prop :=
  record.info.any (·.usesSavedata) = true ∧ (record.state = .patched ∨ record.state = .failed .prePatch)

theorem DiscoveredPlugin.configuration?_eq_some_iff {p : DiscoveredPlugin Activator} {access : Option Tier}
    {members : Members} {configure : Table → Configuration} :
    p.configuration? access members = some configure ↔
      ∃ first next, p.code p.typeName = .returned first ∧
        (first.run access (.named p.typeName) members []).result = .returned next ∧
        (first.run access (.named p.typeName) members []).info.usesSavedata = true ∧
        next.configure = configure := by
  rw [configuration?]
  cases hcode : p.code p.typeName with
  | returned first =>
    cases hresult : (first.run access (.named p.typeName) members []).result <;>
      simp [Completion.outcome, Except.toOption, hresult]
  | failed message => simp [Completion.outcome, Except.toOption]
  | panicked message => simp [Completion.outcome, Except.toOption]

namespace Host

variable (host : Host σ) (r : Registry Activator)

theorem updated?_eq_some_iff {store : σ} {identity : String} {configure : Table → Configuration}
    {data : Table} :
    host.updated? store identity configure = some data ↔
      ∃ document stage, (host.store.load store identity).2 = .ok document ∧
        (configure document.data).next = .returned stage ∧ (configure document.data).data = data := by
  rw [updated?]
  cases hload : (host.store.load store identity).2 with
  | error fault => simp
  | ok document => cases hnext : (configure document.data).next <;> simp [hnext]

/-- How the stage of configuration ends, and what has been made of the document then. -/
theorem configure_ends (identity typeName : String) (info : PluginInfo) (plugin : InitializedPlugin)
    (w : World σ) :
    let ended := (host.configure identity typeName info plugin w).2
    let made := (if info.usesSavedata then some plugin.configure else none).bind
      (host.updated? w.store identity)
    (info.usesSavedata = false ∧ (∃ stage, ended = .ok stage) ∧ made = none) ∨
      (info.usesSavedata = true ∧ (∃ stage, ended = .ok stage) ∧ made.isSome = true) ∨
      ∃ failure, ended = .error failure ∧ failure.stage = .configurationLoad ∧ made = none := by
  intro ended made
  cases huses : info.usesSavedata with
  | false => exact .inl ⟨rfl, ⟨plugin.patchStage, by simp [ended, configure, huses]⟩, by simp [made, huses]⟩
  | true =>
    have hmade : made = host.updated? w.store identity plugin.configure := by simp [made, huses]
    rw [hmade]
    rcases hload : host.store.load w.store identity with ⟨store, fault | document⟩
    · refine .inr (.inr ⟨unloaded fault, ?_, rfl, by simp [updated?, hload]⟩)
      simp [ended, configure, huses, hload, unloaded]
    · cases hended : (plugin.configure document.data).next.outcome .configurationLoad with
      | error failure =>
        refine .inr (.inr ⟨failure, ?_, Completion.stage_of_outcome hended, ?_⟩)
        · simp [ended, configure, huses, hload, hended]
        · rw [Option.eq_none_iff_forall_ne_some]
          intro data hdata
          obtain ⟨_, _, hdocument, hnext, _⟩ := host.updated?_eq_some_iff.mp hdata
          rw [hload] at hdocument
          cases hdocument
          rw [hnext] at hended
          cases hended
      | ok stage =>
        have hnext := Completion.returned_of_outcome hended
        have hupdated : host.updated? w.store identity plugin.configure =
            some (plugin.configure document.data).data :=
          host.updated?_eq_some_iff.mpr ⟨document, stage, by rw [hload], hnext, rfl⟩
        refine .inr (.inl ⟨rfl, ⟨stage, ?_⟩, by rw [hupdated]; rfl⟩)
        simp [ended, configure, huses, hload, hended]

theorem finishPlugin_hasConfigured (identity typeName : String) (info : PluginInfo)
    (plugin : InitializedPlugin) (w : World σ) :
    (host.finishPlugin r identity typeName info plugin w).2.HasConfigured ↔
      ((if info.usesSavedata then some plugin.configure else none).bind
        (host.updated? w.store identity)).isSome = true := by
  have hends := host.configure_ends identity typeName info plugin w
  rcases hconfigure : host.configure identity typeName info plugin w with ⟨after, failure | stage⟩
  · rw [hconfigure] at hends
    rw [host.finishPlugin_of_configuration r hconfigure]
    obtain ⟨_, ⟨_, hok⟩, _⟩ | ⟨_, ⟨_, hok⟩, _⟩ | ⟨_, herror, hstage, hmade⟩ := hends
    · cases hok
    · cases hok
    · cases herror
      rw [hmade]
      simp [RuntimeRecord.HasConfigured, failedRecord, hstage]
  · rw [hconfigure] at hends
    -- Whether its patches are declared makes no difference to what it has saved.
    have hrecord : (host.finishPlugin r identity typeName info plugin w).2.HasConfigured ↔
        info.usesSavedata = true := by
      cases hdeclared : stage.patches.outcome .prePatch with
      | error failure =>
        rw [host.finishPlugin_of_prePatch r hconfigure hdeclared]
        simp [RuntimeRecord.HasConfigured, failedRecord, Completion.stage_of_outcome hdeclared]
      | ok patches =>
        rw [host.finishPlugin_of_patches r hconfigure hdeclared]
        simp [RuntimeRecord.HasConfigured]
    rw [hrecord]
    obtain ⟨huses, _, hmade⟩ | ⟨huses, _, hmade⟩ | ⟨_, herror, _⟩ := hends
    · rw [hmade, huses]
      simp
    · exact iff_of_true huses hmade
    · cases herror

/-- The record of a plugin tells whether it has sent its savedata to the store. -/
theorem runPlugin_hasConfigured (w : World σ) (p : DiscoveredPlugin Activator) :
    (host.runPlugin r w p).2.HasConfigured ↔
      ((p.configuration? host.access w.members).bind
        (host.updated? w.store p.identity)).isSome = true := by
  cases hmade : (p.code p.typeName).outcome .construction with
  | error failure =>
    have hnone : p.configuration? host.access w.members = none := by
      rw [DiscoveredPlugin.configuration?, hmade]
      rfl
    rw [host.runPlugin_of_construction r hmade, hnone]
    simp [RuntimeRecord.HasConfigured, failedRecord]
  | ok first =>
    generalize hdone : first.run host.access (.named p.typeName) w.members [] = done
    cases hended : done.result.outcome .initialization with
    | error failure =>
      have hnone : p.configuration? host.access w.members = none := by
        simp [DiscoveredPlugin.configuration?, hmade, hdone, hended, Except.toOption]
      rw [host.runPlugin_of_initialization r hmade hdone hended, hnone]
      simp [RuntimeRecord.HasConfigured, failedRecord, Completion.stage_of_outcome hended]
    | ok next =>
      have hconfiguration : p.configuration? host.access w.members =
          if done.info.usesSavedata then some next.configure else none := by
        simp [DiscoveredPlugin.configuration?, hmade, hdone, hended, Except.toOption]
      rw [host.runPlugin_of_returned r hmade hdone hended, hconfiguration]
      exact host.finishPlugin_hasConfigured r p.identity p.typeName done.info next (initialized w p done)

end Host

/-- The table that a plugin sends to the store in its turn. -/
def Turn.save? (host : Host σ) (t : Turn σ) : Option Table :=
  (t.plugin.configuration? host.access t.found.members).bind
    (host.updated? t.found.store t.plugin.identity)

theorem Turn.save?_eq_some_iff {host : Host σ} {t : Turn σ} {data : Table} :
    t.save? host = some data ↔ t.Configures host data := by
  simp only [save?, Option.bind_eq_some_iff, DiscoveredPlugin.configuration?_eq_some_iff,
    host.updated?_eq_some_iff]
  constructor
  · rintro ⟨_, ⟨first, next, hfirst, hnext, huses, rfl⟩, document, stage, hload, hstage, rfl⟩
    exact .returned hfirst hnext huses hload hstage
  · rintro ⟨hfirst, hnext, huses, hload, hstage⟩
    exact ⟨_, ⟨_, _, hfirst, hnext, huses, rfl⟩, _, _, hload, hstage, rfl⟩

/-- The saves of a turn, of which there is one at most. -/
def Turn.saves (host : Host σ) (t : Turn σ) : List (String × Table) :=
  (t.save? host).toList.map fun data => (t.plugin.identity, data)

theorem Turn.issues_saves (host : Host σ) (t : Turn σ) : t.Issues host (t.saves host) := by
  rw [saves]
  cases hsave : t.save? host with
  | none => exact .none fun data hdata => by rw [save?_eq_some_iff.mpr hdata] at hsave; cases hsave
  | some data => exact .save (save?_eq_some_iff.mp hsave)

theorem forall₂_issues (host : Host σ) (turns : List (Turn σ)) :
    List.Forall₂ (Turn.Issues host) turns (turns.map (Turn.saves host)) :=
  List.forall₂_map_right_iff.mpr (List.forall₂_same.mpr fun t _ => t.issues_saves host)

namespace Host

variable (host : Host σ) (r : Registry Activator)

/-- The turns of plugins that run one after another, with no save landing in between. -/
def turnsFrom : World σ → List (DiscoveredPlugin Activator) → List (Turn σ)
  | _, [] => []
  | w, p :: rest => ⟨w, p⟩ :: turnsFrom (host.runPlugin r w p).1 rest

/-- The turns of a run over a batch: none if it is aborted. -/
def turns (w : World σ) (packages : List Package) : List (Turn σ) :=
  match host.prepare w.hooks packages with
  | .ok r => host.turnsFrom r w r.discover
  | .error _ => []

theorem runPlugins_saves (w : World σ) (plugins : List (DiscoveredPlugin Activator)) :
    (host.runPlugins r w plugins).1.saves =
      w.saves ++ (host.turnsFrom r w plugins).flatMap (Turn.saves host) := by
  induction plugins generalizing w with
  | nil => exact (List.append_nil _).symm
  | cons p rest ih =>
    rw [runPlugins, ih, (host.runPlugin_savedata r w p).1, turnsFrom, List.flatMap_cons, List.append_assoc]
    rfl

theorem runPlugins_hasConfigured (w : World σ) (plugins : List (DiscoveredPlugin Activator)) :
    List.Forall₂ (fun t record => record.HasConfigured ↔ ∃ data, t.Configures host data)
      (host.turnsFrom r w plugins) (host.runPlugins r w plugins).2 := by
  induction plugins generalizing w with
  | nil => exact .nil
  | cons p rest ih =>
    have hfirst : (host.runPlugin r w p).2.HasConfigured ↔ ∃ data, Turn.Configures host ⟨w, p⟩ data := by
      simp only [host.runPlugin_hasConfigured r w p, Option.isSome_iff_exists, ← Turn.save?_eq_some_iff]
      rfl
    exact .cons hfirst (ih _)

/-- However saves land while plugins have their turns: what has landed and what is still under way are together
    what was under way before and what the turns have issued, and the store has seen nothing else. -/
theorem Interleaved.worked {host : Host σ} {r : Registry Activator} {w u : World σ} {turns : List (Turn σ)}
    (h : host.Interleaved r w turns u) :
    ∃ landed, host.store.Worked w.store landed u.store ∧
      (landed ++ u.saves).Perm (w.saves ++ turns.flatMap (Turn.saves host)) := by
  induction h with
  | @done w => exact ⟨[], .done, by rw [List.flatMap_nil, List.append_nil, List.nil_append]⟩
  | @turn w u p turns _ ih =>
    obtain ⟨landed, hworked, hperm⟩ := ih
    obtain ⟨hsaves, hstore⟩ := host.runPlugin_savedata r w p
    refine ⟨landed, ?_, ?_⟩
    · rcases hstore with hstore | hstore
      · rw [← hstore]
        exact hworked
      · rw [hstore] at hworked
        exact .loaded p.identity hworked
    · rw [hsaves, List.append_assoc] at hperm
      exact hperm
  | @landing w u turns save before after hsaves _ ih =>
    obtain ⟨landed, hworked, hperm⟩ := ih
    refine ⟨save :: landed, .saved save hworked, ?_⟩
    rw [hsaves, List.append_assoc, List.cons_append]
    refine (hperm.cons save).trans ?_
    rw [land, List.append_assoc]
    exact List.perm_middle.symm

theorem Interleaved.issued {host : Host σ} {r : Registry Activator} {w u : World σ} {turns : List (Turn σ)}
    (h : host.Interleaved r w turns u) :
    ∃ issued landed, List.Forall₂ (Turn.Issues host) turns issued ∧
      host.store.Worked w.store landed u.store ∧ (landed ++ u.saves).Perm (w.saves ++ issued.flatten) := by
  obtain ⟨landed, hworked, hperm⟩ := h.worked
  rw [List.flatMap_def] at hperm
  exact ⟨_, landed, forall₂_issues host turns, hworked, hperm⟩

/-- A run issues one save for every plugin that was initialized, has savedata, was handed its document and
    returned from its configuration: under its identity, with the table as it was left, in the order of turns. No
    other plugin issues any, and the records tell which these are. However the saves land, nothing else is written
    to the store, and a document under whose identity nothing was saved stays as it was. -/
theorem saves_of_run (w : World σ) (packages : List Package) :
    (∃ issued, List.Forall₂ (Turn.Issues host) (host.turns w packages) issued ∧
        (host.run w packages).1.saves = w.saves ++ issued.flatten) ∧
      List.Forall₂ (fun t record => record.HasConfigured ↔ ∃ data, t.Configures host data)
        (host.turns w packages) (host.run w packages).2.records ∧
      ∀ turns u, host.RunsTo w packages turns u →
        ∃ issued landed, List.Forall₂ (Turn.Issues host) turns issued ∧
          host.store.Worked w.store landed u.store ∧ (landed ++ u.saves).Perm (w.saves ++ issued.flatten) ∧
          ∀ identity document, host.store.Keeps identity document →
            (∀ save ∈ w.saves ++ issued.flatten, save.1 ≠ identity) → document u.store = document w.store := by
  refine ⟨⟨_, forall₂_issues host _, ?_⟩, ?_, fun turns u hrun => ?_⟩
  · rw [run, turns]
    cases host.prepare w.hooks packages with
    | error fault => exact (List.append_nil _).symm
    | ok r =>
      rw [← List.flatMap_def]
      exact host.runPlugins_saves r w r.discover
  · rw [run, turns]
    cases host.prepare w.hooks packages with
    | error fault => exact .nil
    | ok r => exact host.runPlugins_hasConfigured r w r.discover
  · have hissued : ∃ issued landed, List.Forall₂ (Turn.Issues host) turns issued ∧
        host.store.Worked w.store landed u.store ∧
        (landed ++ u.saves).Perm (w.saves ++ issued.flatten) := by
      cases hrun with
      | aborted _ => exact ⟨[], [], .nil, .done, by rw [List.flatten_nil, List.append_nil, List.nil_append]⟩
      | completed _ _ _ hinterleaved => exact hinterleaved.issued
    obtain ⟨issued, landed, hissues, hworked, hperm⟩ := hissued
    refine ⟨issued, landed, hissues, hworked, hperm, fun identity document hkeeps hothers => ?_⟩
    refine hworked.document_eq hkeeps fun save hsave => hothers save ?_
    exact hperm.subset (List.mem_append_left _ hsave)

end Host

namespace Careless

/-- A plugin that edits its savedata and then ends its configuration in a given way. -/
def editing (ended : Completion PatchStage) : Initialization :=
  .finish (.returned ⟨fun data => ⟨Assoc.insert "edited" (.bool true) data, [], ended⟩, ⟨.returned []⟩⟩)

def code : Activator := fun typeName =>
  match typeName with
  | "Mods.Careful" => .returned (editing (.returned ⟨.returned []⟩))
  | "Mods.Failing" => .returned (editing (.failed "no"))
  | "Mods.Panicking" => .returned (editing (.panicked none))
  | _ => .returned (.declare (fun info => { info with usesSavedata := false })
    (editing (.returned ⟨.returned []⟩)))

def image : Image :=
  ⟨"mods", [⟨"mods", ["Careful", "Failing", "Panicking", "Plain"].map Siblings.type⟩]⟩

def package : Package := ⟨"mods.cs", (Artifact.ofImage image none).toOption.getD default⟩

def host : Host (SortedMap String Table) := ⟨fun _ => .ok code, .inMemory, [], none⟩

def registry : Registry Activator := .addAll .empty [⟨"mods.cs", image, false, code⟩]

theorem host_prepare : host.prepare Siblings.world.hooks [package] = .ok registry := by
  have hload : package.artifact.module.length ≤ maxModuleBytes ∧
      package.artifact.image.toOption = some image := by
    decide +kernel
  have hloads : package.Loads host.loader ⟨"mods.cs", image, false, code⟩ :=
    ⟨rfl, rfl, hload.1, eq_ok_of_toOption hload.2, rfl⟩
  exact host.prepare_of_loads (by decide +kernel) rfl (.cons hloads .nil)

/-- Of four plugins that edit their savedata one saves it: two fail afterwards, and one has declared none. -/
theorem careful_plugin_saves :
    let w := Siblings.world
    let done := host.run w [package]
    done.1.saves.map (·.1) = ["mods.cs"] ∧
      done.2.records.map (·.state) =
        [.patched, .failed .configurationLoad, .failed .configurationLoad, .patched] ∧
      ∃ turns, host.RunsTo w [package] turns (host.carryOutSaves done.1) ∧
        ∃ issued landed, List.Forall₂ (Turn.Issues host) turns issued ∧
          host.store.Worked w.store landed (host.carryOutSaves done.1).store ∧
          landed.Perm issued.flatten := by
  intro w done
  obtain ⟨turns, hrun, _⟩ := host.run_runsTo (w := w) host_prepare
  obtain ⟨issued, landed, hissues, hworked, hperm, _⟩ := (host.saves_of_run w [package]).2.2 turns _ hrun
  refine ⟨by decide +kernel, by decide +kernel, turns, hrun, issued, landed, hissues, hworked, ?_⟩
  rw [show (host.carryOutSaves done.1).saves = [] from rfl, List.append_nil] at hperm
  exact hperm

end Careless

end PluginHost
