import PluginHost.Proofs.Orchestration.Interleaving
import PluginHost.Proofs.Orchestration.Loading
import PluginHost.Proofs.Orchestration.PluginRun
import PluginHost.Savedata.Store
/-!
What becomes of the changes that plugins make to their savedata.

A store may fail to hand out a document, and what else it does is its own affair. Two things are asked of
it at times: that it keeps the document of an identity, and that the document of an identity does not show
in what becomes of the others. The store in memory does both.

All plugins of a module share one document. A plugin works on the document as it finds it and sends the
whole of it back, so what was still under way when it was loaded is lost once both have landed. Main
statement: in the end the document is what some of the changes make of it one after another, and it is what
all of them make of it if nothing was under way whenever a plugin that changed it loaded it.
-/

namespace PluginHost

/-! What is asked of a store. -/

namespace SavedataStore

variable {σ : Type}

/-- The store keeps the document of an identity: what it hands out is the document, and only a save under
    the identity changes it. -/
structure Keeps (store : SavedataStore σ) (identity : String) (document : σ → Option Toml.Table) :
    Prop where
  load : ∀ {s d}, (store.load s identity).2 = .ok d → d = documentOf (document s)
  document_load : ∀ s other, document (store.load s other).1 = document s
  document_save : ∀ s data, document (store.save s identity data).1 = some data
  document_save_other : ∀ s {other} data, other ≠ identity →
    document (store.save s other data).1 = document s

/-- Nothing that is done under an identity shows under another: states that differ in that regard only are
    alike, give the same answers and stay alike. -/
structure Conceals (store : SavedataStore σ) (identity : String) (Alike : σ → σ → Prop) : Prop where
  equivalence : Equivalence Alike
  load_own : ∀ s, Alike s (store.load s identity).1
  save_own : ∀ s data, Alike s (store.save s identity data).1
  load : ∀ {s t other}, other ≠ identity → Alike s t →
    (store.load t other).2 = (store.load s other).2 ∧
      Alike (store.load s other).1 (store.load t other).1
  save : ∀ {s t other} data, other ≠ identity → Alike s t →
    Alike (store.save s other data).1 (store.save t other data).1

theorem inMemory_keeps (identity : String) : inMemory.Keeps identity (·.get? identity) where
  load h := by
    cases h
    rfl
  document_load _ _ := rfl
  document_save s data := by
    rw [inMemory, SortedMap.get?_insert, if_pos rfl]
  document_save_other s other data hother := by
    rw [inMemory, SortedMap.get?_insert, if_neg (Ne.symm hother)]

theorem inMemory_conceals (identity : String) :
    inMemory.Conceals identity fun s t => ∀ other, other ≠ identity → s.get? other = t.get? other where
  equivalence :=
    ⟨fun _ _ _ => rfl, fun h other hother => (h other hother).symm,
      fun h h' other hother => (h other hother).trans (h' other hother)⟩
  load_own _ _ _ := rfl
  save_own s data other hother := by
    rw [inMemory, SortedMap.get?_insert, if_neg hother]
  load {s t other} hother halike := by
    have hfound := halike other hother
    exact ⟨congrArg (fun found => Except.ok (documentOf found)) hfound.symm, halike⟩
  save {s t other} data hother halike := by
    intro key hkey
    rw [inMemory, SortedMap.get?_insert, SortedMap.get?_insert, halike key hkey]

end SavedataStore

/-! Changes of documents. -/

open Toml (Table)

/-- The callback in which a plugin works on its savedata: none if the plugin is not initialized or does
    without savedata. -/
def DiscoveredPlugin.configuration? (p : DiscoveredPlugin Activator) (access : Option Tier)
    (members : Members) : Option (Table → Configuration) := do
  let first ← ((p.code p.typeName).outcome .construction).toOption
  let done := first.run access (.named p.typeName) members []
  let next ← (done.result.outcome .initialization).toOption
  if done.info.usesSavedata then some next.configure else none

namespace Host

variable {σ : Type} (host : Host σ) (r : Registry Activator)

/-- What a callback makes of the document in a store: none if the document is not handed out or the
    callback does not succeed. -/
def updated? (store : σ) (identity : String) (configure : Table → Configuration) : Option Table :=
  match (host.store.load store identity).2 with
  | .error _ => none
  | .ok document =>
    match (configure document.data).next with
    | .returned _ => some (configure document.data).data
    | _ => none

/-- The configuration of a plugin adds a save if its callback has made something of the document, and comes
    near the store by loading at most. -/
theorem configure_savedata (identity typeName : String) (info : PluginInfo) (plugin : InitializedPlugin)
    (w : World σ) :
    let after := (host.configure identity typeName info plugin w).1
    after.saves = w.saves ++ ((if info.usesSavedata then some plugin.configure else none).bind
        (host.updated? w.store identity)).toList.map (fun data => (identity, data)) ∧
      (after.store = w.store ∨ after.store = (host.store.load w.store identity).1) := by
  intro after
  cases huses : info.usesSavedata with
  | false =>
    have hafter : after = w := by simp [after, configure, huses]
    simp [hafter]
  | true =>
    rcases hload : host.store.load w.store identity with ⟨store, fault | document⟩
    · simp [after, configure, huses, hload, updated?, World.note]
    · cases hnext : (plugin.configure document.data).next <;>
        simp [after, configure, huses, hload, hnext, updated?, World.note, Completion.outcome]

theorem finishPlugin_savedata (identity typeName : String) (info : PluginInfo)
    (plugin : InitializedPlugin) (w : World σ) :
    (host.finishPlugin r identity typeName info plugin w).1.saves =
        (host.configure identity typeName info plugin w).1.saves ∧
      (host.finishPlugin r identity typeName info plugin w).1.store =
        (host.configure identity typeName info plugin w).1.store := by
  rcases hconfigure : host.configure identity typeName info plugin w with ⟨after, failure | stage⟩
  · rw [host.finishPlugin_of_configuration r hconfigure]
    exact ⟨rfl, rfl⟩
  · cases hdeclared : stage.patches.outcome .prePatch with
    | error failure =>
      rw [host.finishPlugin_of_prePatch r hconfigure hdeclared]
      exact ⟨rfl, rfl⟩
    | ok patches =>
      rw [host.finishPlugin_of_patches r hconfigure hdeclared]
      exact ⟨rfl, rfl⟩

/-- A plugin's turn does the same. -/
theorem runPlugin_savedata (w : World σ) (p : DiscoveredPlugin Activator) :
    let after := (host.runPlugin r w p).1
    after.saves = w.saves ++ ((p.configuration? host.access w.members).bind
        (host.updated? w.store p.identity)).toList.map (fun data => (p.identity, data)) ∧
      (after.store = w.store ∨ after.store = (host.store.load w.store p.identity).1) := by
  intro after
  cases hmade : (p.code p.typeName).outcome .construction with
  | error failure =>
    have hnone : p.configuration? host.access w.members = none := by
      rw [DiscoveredPlugin.configuration?, hmade]
      rfl
    simp [after, hnone, host.runPlugin_of_construction r hmade, World.note]
  | ok first =>
    generalize hdone : first.run host.access (.named p.typeName) w.members [] = done
    cases hended : done.result.outcome .initialization with
    | error failure =>
      have hnone : p.configuration? host.access w.members = none := by
        simp [DiscoveredPlugin.configuration?, hmade, hdone, hended, Except.toOption]
      simp [after, hnone, host.runPlugin_of_initialization r hmade hdone hended, initialized, World.note]
    | ok next =>
      have hconfiguration : p.configuration? host.access w.members =
          if done.info.usesSavedata then some next.configure else none := by
        simp [DiscoveredPlugin.configuration?, hmade, hdone, hended, Except.toOption]
      obtain ⟨hsaves, hstore⟩ := host.finishPlugin_savedata r p.identity p.typeName done.info next
        (initialized w p done)
      simp only [after, host.runPlugin_of_returned r hmade hdone hended, hsaves, hstore, hconfiguration]
      exact host.configure_savedata p.identity p.typeName done.info next (initialized w p done)

end Host

/-- The callback with which a plugin has changed its savedata in its turn. -/
def Turn.update? {σ : Type} (host : Host σ) (t : Turn σ) : Option (Table → Configuration) :=
  (t.plugin.configuration? host.access t.found.members).filter fun configure =>
    (host.updated? t.found.store t.plugin.identity configure).isSome

/-- What callbacks make of a document, each of what the one before has left. -/
def afterUpdates (document : Option Table) (updates : List (Table → Configuration)) : Option Table :=
  updates.foldl (fun document configure => some (configure (document.getD [])).data) document

theorem afterUpdates_concat (document : Option Table) (updates : List (Table → Configuration))
    (configure : Table → Configuration) :
    afterUpdates document (updates ++ [configure]) =
      some (configure ((afterUpdates document updates).getD [])).data := by
  rw [afterUpdates, List.foldl_append]
  rfl

/-- What is saved under an identity, in order. -/
def savesUnder (identity : String) (saves : List (String × Table)) : List Table :=
  (saves.filter fun s => s.1 = identity).map (·.2)

theorem savesUnder_append (identity : String) (saves more : List (String × Table)) :
    savesUnder identity (saves ++ more) = savesUnder identity saves ++ savesUnder identity more := by
  rw [savesUnder, List.filter_append, List.map_append]
  rfl

theorem savesUnder_map (identity owner : String) (documents : List Table) :
    savesUnder identity (documents.map fun data => (owner, data)) =
      if owner = identity then documents else [] := by
  by_cases h : owner = identity <;> simp [savesUnder, List.filter_map, Function.comp_def, h]

/-- The savedata of an identity that is under way to the store, the oldest first. -/
def World.pendingOf {σ : Type} (w : World σ) (identity : String) : List Table :=
  savesUnder identity w.saves

namespace Host

variable {σ : Type} (host : Host σ) (r : Registry Activator)

/-- The callbacks that have changed the savedata of an identity, in the order of turns. -/
def updatesOf (identity : String) (turns : List (Turn σ)) : List (Table → Configuration) :=
  (turns.filter fun t => t.plugin.identity = identity).filterMap (Turn.update? host)

/-- No plugin that changes the savedata of an identity has loaded it while an earlier change was still
    under way. -/
def Timely (identity : String) (turns : List (Turn σ)) : Prop :=
  ∀ t ∈ turns, t.plugin.identity = identity → (t.update? host).isSome = true →
    t.found.pendingOf identity = []

theorem updatesOf_cons (identity : String) (t : Turn σ) (turns : List (Turn σ)) :
    host.updatesOf identity (t :: turns) = host.updatesOf identity [t] ++ host.updatesOf identity turns := by
  rw [← List.singleton_append, updatesOf, List.filter_append, List.filterMap_append]
  rfl

theorem updatesOf_singleton (identity : String) (t : Turn σ) :
    host.updatesOf identity [t] =
      if t.plugin.identity = identity then (t.update? host).toList else [] := by
  by_cases h : t.plugin.identity = identity
  · cases hupdate : t.update? host <;> simp [updatesOf, h, hupdate]
  · simp [updatesOf, h]

variable {host} {identity : String} {document : σ → Option Table}

theorem updated?_eq (hkeeps : host.store.Keeps identity document) {store : σ}
    {configure : Table → Configuration} {data : Table}
    (h : host.updated? store identity configure = some data) :
    data = (configure ((document store).getD [])).data := by
  rw [updated?] at h
  split at h
  · cases h
  · next loaded hload =>
    have hloaded : loaded.data = (document store).getD [] := by
      rw [hkeeps.load hload]
      cases document store <;> rfl
    split at h
    · cases h
      rw [hloaded]
    · cases h

/-- What a turn makes of the document is what the callback makes of it that has changed it. -/
theorem turn_made (t : Turn σ) (hkeeps : host.store.Keeps t.plugin.identity document) :
    (t.plugin.configuration? host.access t.found.members).bind
        (host.updated? t.found.store t.plugin.identity) =
      (t.update? host).map fun configure => (configure ((document t.found.store).getD [])).data := by
  rw [Turn.update?]
  cases t.plugin.configuration? host.access t.found.members with
  | none => rfl
  | some configure =>
    cases hupdated : host.updated? t.found.store t.plugin.identity configure with
    | none => simp [Option.filter, hupdated]
    | some data => simp [Option.filter, hupdated, updated?_eq hkeeps hupdated]

/-- What a turn does to the savedata of an identity: it leaves the document and sends what its callback has
    made of it on the way. -/
theorem turn_savedata (hkeeps : host.store.Keeps identity document) (t : Turn σ) :
    let after := (host.runPlugin r t.found t.plugin).1
    document after.store = document t.found.store ∧
      after.pendingOf identity = t.found.pendingOf identity ++ (host.updatesOf identity [t]).map
        fun configure => (configure ((document t.found.store).getD [])).data := by
  intro after
  obtain ⟨hsaves, hstore⟩ := host.runPlugin_savedata r t.found t.plugin
  constructor
  · rcases hstore with hstore | hstore
    · rw [hstore]
    · rw [hstore, hkeeps.document_load]
  · rw [World.pendingOf, hsaves, savesUnder_append]
    refine congrArg _ ?_
    rw [savesUnder_map, updatesOf_singleton]
    split
    · next hidentity =>
      subst hidentity
      rw [turn_made t hkeeps]
      cases t.update? host <;> rfl
    · rfl

/-- What a landing does to the savedata of an identity: one save of it replaces the document, or nothing
    changes. -/
theorem land_savedata (hkeeps : host.store.Keeps identity document) {w : World σ}
    {save : String × Table} {before after : List (String × Table)}
    (hsaves : w.saves = before ++ save :: after) :
    let landed := host.land w save (before ++ after)
    (∃ data older newer, w.pendingOf identity = older ++ data :: newer ∧
        landed.pendingOf identity = older ++ newer ∧ document landed.store = some data) ∨
      (landed.pendingOf identity = w.pendingOf identity ∧ document landed.store = document w.store) := by
  intro landed
  obtain ⟨owner, data⟩ := save
  by_cases howner : owner = identity
  · subst howner
    refine .inl ⟨data, savesUnder owner before, savesUnder owner after, ?_, savesUnder_append _ _ _,
      hkeeps.document_save w.store data⟩
    rw [World.pendingOf, hsaves, savesUnder_append]
    simp [savesUnder]
  · refine .inr ⟨?_, hkeeps.document_save_other w.store data howner⟩
    rw [World.pendingOf, World.pendingOf, hsaves, savesUnder_append]
    refine (savesUnder_append _ _ _).trans ?_
    simp [savesUnder, howner]

/-- Everything that is stored or under way comes from some of the updates so far, and from at least one
    unless there has been none. -/
structure Accounted (identity : String) (document : σ → Option Table) (start : Option Table)
    (past : List (Table → Configuration)) (w : World σ) : Prop where
  stored : ∃ kept, kept.Sublist past ∧ document w.store = afterUpdates start kept ∧
    (kept = [] → w.pendingOf identity = [] → past = [])
  pending : ∀ data ∈ w.pendingOf identity, ∃ kept, kept.Sublist past ∧ kept ≠ [] ∧
    some data = afterUpdates start kept

/-- What all the updates so far have made is stored, or is the one save that is under way. -/
def UpToDate (identity : String) (document : σ → Option Table) (start : Option Table)
    (past : List (Table → Configuration)) (w : World σ) : Prop :=
  (w.pendingOf identity = [] ∧ document w.store = afterUpdates start past) ∨
    ∃ data, w.pendingOf identity = [data] ∧ some data = afterUpdates start past

variable {start : Option Table} {past : List (Table → Configuration)}

theorem Accounted.land (hkeeps : host.store.Keeps identity document) {w : World σ}
    {save : String × Table} {before after : List (String × Table)}
    (hsaves : w.saves = before ++ save :: after) (h : Accounted identity document start past w) :
    Accounted identity document start past (host.land w save (before ++ after)) := by
  obtain ⟨data, older, newer, hpending, hleft, hdocument⟩ | ⟨hpending, hdocument⟩ :=
    land_savedata hkeeps hsaves
  · obtain ⟨kept, hkept, hsome, hdata⟩ := h.pending data (by simp [hpending])
    refine ⟨⟨kept, hkept, hdocument.trans hdata, fun hnone => absurd hnone hsome⟩, ?_⟩
    intro other hother
    rw [hleft] at hother
    refine h.pending other ?_
    rw [hpending]
    exact (List.sublist_cons_self data newer).append_left older |>.subset hother
  · obtain ⟨kept, hkept, hstored, hsome⟩ := h.stored
    exact ⟨⟨kept, hkept, hdocument.trans hstored, hpending ▸ hsome⟩, hpending ▸ h.pending⟩

theorem Accounted.turn (hkeeps : host.store.Keeps identity document) (t : Turn σ)
    (h : Accounted identity document start past t.found) :
    Accounted identity document start (past ++ host.updatesOf identity [t])
      (host.runPlugin r t.found t.plugin).1 := by
  obtain ⟨hdocument, hpending⟩ := turn_savedata r hkeeps t
  obtain ⟨kept, hkept, hstored, hsome⟩ := h.stored
  refine ⟨⟨kept, hkept.trans (List.sublist_append_left _ _), hdocument.trans hstored, ?_⟩, ?_⟩
  · intro hnone hempty
    rw [hpending, List.append_eq_nil_iff, List.map_eq_nil_iff] at hempty
    rw [hsome hnone hempty.1, hempty.2, List.append_nil]
  · intro data hdata
    rw [hpending, List.mem_append, List.mem_map] at hdata
    rcases hdata with hdata | ⟨configure, hconfigure, rfl⟩
    · obtain ⟨kept, hkept, hsome, hdata⟩ := h.pending data hdata
      exact ⟨kept, hkept.trans (List.sublist_append_left _ _), hsome, hdata⟩
    · refine ⟨kept ++ [configure], ?_, by simp, ?_⟩
      · exact hkept.append (List.singleton_sublist.mpr hconfigure)
      · rw [afterUpdates_concat, hstored]

theorem UpToDate.land (hkeeps : host.store.Keeps identity document) {w : World σ}
    {save : String × Table} {before after : List (String × Table)}
    (hsaves : w.saves = before ++ save :: after) (h : UpToDate identity document start past w) :
    UpToDate identity document start past (host.land w save (before ++ after)) := by
  obtain ⟨data, older, newer, hpending, hleft, hdocument⟩ | ⟨hpending, hdocument⟩ :=
    land_savedata hkeeps hsaves
  · rcases h with ⟨hnone, _⟩ | ⟨made, hmade, hlast⟩
    · simp [hnone] at hpending
    · -- The save that lands is the only one, so it is the latest.
      obtain ⟨rfl, rfl, rfl⟩ : older = [] ∧ data = made ∧ newer = [] := by
        rw [hmade] at hpending
        cases older <;> simp_all
      exact .inl ⟨hleft, hdocument.trans hlast⟩
  · rw [UpToDate, hpending, hdocument]
    exact h

theorem UpToDate.turn (hkeeps : host.store.Keeps identity document) (t : Turn σ)
    (htimely : host.Timely identity [t]) (h : UpToDate identity document start past t.found) :
    UpToDate identity document start (past ++ host.updatesOf identity [t])
      (host.runPlugin r t.found t.plugin).1 := by
  obtain ⟨hdocument, hpending⟩ := turn_savedata r hkeeps t
  by_cases hany : host.updatesOf identity [t] = []
  · rw [hany, List.append_nil, UpToDate, hdocument, hpending, hany, List.map_nil, List.append_nil]
    exact h
  · rw [updatesOf_singleton] at hany hpending ⊢
    obtain ⟨hidentity, hupdate⟩ : t.plugin.identity = identity ∧ (t.update? host).isSome = true := by
      by_cases hidentity : t.plugin.identity = identity <;>
        cases hupdate : t.update? host <;> simp_all
    obtain ⟨configure, hconfigure⟩ := Option.isSome_iff_exists.mp hupdate
    have hlanded := htimely t (List.mem_singleton_self t) hidentity hupdate
    have hstored : document t.found.store = afterUpdates start past := by
      rcases h with ⟨_, hstored⟩ | ⟨data, hdata, _⟩
      · exact hstored
      · simp [hlanded] at hdata
    rw [if_pos hidentity, hconfigure, Option.toList_some] at hpending ⊢
    refine .inr ⟨(configure ((document t.found.store).getD [])).data, ?_, ?_⟩
    · rw [hpending, hlanded]
      rfl
    · rw [afterUpdates_concat, hstored]

theorem Interleaved.accounted (hkeeps : host.store.Keeps identity document) {w u : World σ}
    {turns : List (Turn σ)} (hrun : host.Interleaved r w turns u)
    (h : Accounted identity document start past w) :
    Accounted identity document start (past ++ host.updatesOf identity turns) u := by
  induction hrun generalizing past with
  | done =>
    rw [updatesOf, List.filter_nil, List.filterMap_nil, List.append_nil]
    exact h
  | turn _ ih =>
    rw [updatesOf_cons, ← List.append_assoc]
    exact ih (h.turn r hkeeps _)
  | landing hsaves _ ih => exact ih (h.land hkeeps hsaves)

theorem Interleaved.upToDate (hkeeps : host.store.Keeps identity document) {w u : World σ}
    {turns : List (Turn σ)} (hrun : host.Interleaved r w turns u) (htimely : host.Timely identity turns)
    (h : UpToDate identity document start past w) :
    UpToDate identity document start (past ++ host.updatesOf identity turns) u := by
  induction hrun generalizing past with
  | done =>
    rw [updatesOf, List.filter_nil, List.filterMap_nil, List.append_nil]
    exact h
  | turn _ ih =>
    rw [updatesOf_cons, ← List.append_assoc]
    rw [Timely, List.forall_mem_cons] at htimely
    exact ih htimely.2 (h.turn r hkeeps _ (List.forall_mem_singleton.mpr htimely.1))
  | landing hsaves _ ih => exact ih htimely (h.land hkeeps hsaves)

/-- What a run has made of the document of an identity once every save has landed: it is what some of the
    updates make of it, each of what the one before has left, and no update is missing if each plugin has
    loaded what the one before has saved. There is one that counts if there is any. -/
theorem savedata_of_run (hkeeps : host.store.Keeps identity document) {w u : World σ}
    {packages : List Package} {turns : List (Turn σ)} (hpending : w.pendingOf identity = [])
    (hrun : host.RunsTo w packages turns u) :
    (∃ kept, kept.Sublist (host.updatesOf identity turns) ∧
        (kept = [] → host.updatesOf identity turns = []) ∧
        document u.store = afterUpdates (document w.store) kept) ∧
      (host.Timely identity turns →
        document u.store = afterUpdates (document w.store) (host.updatesOf identity turns)) := by
  cases hrun with
  | aborted _ => exact ⟨⟨[], List.Sublist.refl _, fun _ => rfl, rfl⟩, fun _ => rfl⟩
  | completed _ _ hlanded hinterleaved =>
    have hnone : u.pendingOf identity = [] := by
      rw [World.pendingOf, hlanded]
      rfl
    have haccounted : Accounted identity document (document w.store) [] w :=
      ⟨⟨[], List.Sublist.refl _, rfl, fun _ _ => rfl⟩, by simp [hpending]⟩
    have hupToDate : UpToDate identity document (document w.store) [] w := .inl ⟨hpending, rfl⟩
    constructor
    · obtain ⟨kept, hkept, hstored, hsome⟩ := (hinterleaved.accounted _ hkeeps haccounted).stored
      exact ⟨kept, hkept, fun hempty => hsome hempty hnone, hstored⟩
    · intro htimely
      rcases hinterleaved.upToDate _ hkeeps htimely hupToDate with ⟨_, hstored⟩ | ⟨data, hdata, _⟩
      · exact hstored
      · simp [hnone] at hdata

end Host

namespace Siblings

/-- A plugin that leaves a mark in its savedata. -/
def code (mark : String) : Completion Initialization :=
  let stage : PatchStage := ⟨.returned []⟩
  .returned (.finish (.returned
    ⟨fun data => ⟨Assoc.insert mark (.bool true) data, [], .returned stage⟩, stage⟩))

def type (name : String) : TypeDef :=
  ⟨"Mods", name, some (.named "Patchwork" "Plugin"), false, false, [], [], []⟩

def image : Image := ⟨"mods", [⟨"mods", [type "First", type "Second"]⟩]⟩

def package : Package := ⟨"mods.cs", (Artifact.ofImage image none).toOption.getD default⟩

def host : Host (SortedMap String Table) := ⟨fun _ => .ok code, .inMemory, [], none⟩

/-- Before the run there is no document. -/
def world : World (SortedMap String Table) :=
  ⟨.ofFunctions [⟨"Game", "Player", "Jump"⟩], [], .empty, [], [], []⟩

def registry : Registry Activator := .addAll .empty [⟨"mods.cs", image, false, code⟩]

def first : DiscoveredPlugin Activator := ⟨"mods.cs", "Mods.First", code⟩

def second : DiscoveredPlugin Activator := ⟨"mods.cs", "Mods.Second", code⟩

theorem host_prepare : host.prepare world.hooks [package] = .ok registry := by
  have hload : package.artifact.module.length ≤ maxModuleBytes ∧
      package.artifact.image.toOption = some image := by
    decide +kernel
  have hloads : package.Loads host.loader ⟨"mods.cs", image, false, code⟩ :=
    ⟨rfl, rfl, hload.1, eq_ok_of_toOption hload.2, rfl⟩
  exact host.prepare_of_loads (by decide +kernel) rfl (.cons hloads .nil)

theorem registry_discover : registry.discover = [first, second] := rfl

/-- The second plugin loads the document before the save of the first one has landed. -/
theorem update_lost :
    ∃ turns u, host.RunsTo world [package] turns u ∧
      u.store.get? "mods.cs" ≠
        afterUpdates (world.store.get? "mods.cs") (host.updatesOf "mods.cs" turns) := by
  let w := (host.runPlugin registry world first).1
  refine ⟨[⟨world, first⟩, ⟨w, second⟩],
    host.carryOutSaves (host.runPlugin registry w second).1, ?_, ?_⟩
  · exact .completed host_prepare registry_discover.symm rfl
      (.turn (.turn (host.carryOutSaves_interleaved _ _)))
  · intro heq
    have hlength := congrArg (Option.map List.length) heq
    exact absurd hlength (by decide +kernel)

/-- The save of the first plugin lands before the second one loads the document. -/
theorem updates_kept :
    let w := host.carryOutSaves (host.runPlugin registry world first).1
    let u := host.carryOutSaves (host.runPlugin registry w second).1
    let turns : List (Turn _) := [⟨world, first⟩, ⟨w, second⟩]
    host.RunsTo world [package] turns u ∧ host.Timely "mods.cs" turns ∧
      u.store.get? "mods.cs" =
        afterUpdates (world.store.get? "mods.cs") (host.updatesOf "mods.cs" turns) := by
  intro w u turns
  have hfirst : host.Interleaved registry world [⟨world, first⟩] w :=
    .turn (host.carryOutSaves_interleaved _ _)
  have hsecond : host.Interleaved registry w [⟨w, second⟩] u :=
    .turn (host.carryOutSaves_interleaved _ _)
  have hrun : host.RunsTo world [package] turns u :=
    .completed host_prepare registry_discover.symm rfl (hfirst.trans hsecond)
  have htimely : host.Timely "mods.cs" turns :=
    List.forall_mem_cons.mpr ⟨fun _ _ => rfl, List.forall_mem_singleton.mpr fun _ _ => rfl⟩
  exact ⟨hrun, htimely,
    (Host.savedata_of_run (SavedataStore.inMemory_keeps "mods.cs") rfl hrun).2 htimely⟩

end Siblings

end PluginHost
