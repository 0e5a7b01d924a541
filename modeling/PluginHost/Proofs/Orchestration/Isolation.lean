import PluginHost.Proofs.Orchestration.Attachment
import PluginHost.Proofs.Orchestration.Withholding
import PluginHost.Proofs.Savedata.Updates
/-!
What other plugins notice of a plugin that fails: nothing.

A run that takes a failing plugin along is compared with one that never discovers it. Between the plugins the
two worlds may differ in the savedata under the identity of that plugin, and in what was logged; nothing else
is left of it, and no other plugin can see that. Main statement: the other plugins have the same records in
both runs, and the hooks are the same.
-/

namespace PluginHost

/-- Initializing the plugin leaves the members of the host as they were, whatever they are. -/
def DiscoveredPlugin.WritesNothing (p : DiscoveredPlugin Activator) (access : Option Tier) : Prop :=
  ∀ first, p.code p.typeName = .returned first →
    ∀ members, (first.run access (.named p.typeName) members []).members = members

def RuntimeRecord.HasFailed (record : RuntimeRecord) : Prop := ∃ stage, record.state = .failed stage

/-- A plugin that has failed has no patches. -/
theorem Ran.patches_of_hasFailed {identity typeName : String} {events : List Event} {record : RuntimeRecord}
    (h : Ran identity typeName events record) (hfailed : record.HasFailed) : record.patches = [] := by
  obtain ⟨stage, hstage⟩ := hfailed
  cases h with
  | patched => cases hstage
  | construction | initialization | configuration | prePatch => rfl

theorem HookTable.Follows.eq_of_nil {t u : HookTable} (h : t.Follows [] u) : u = t := by
  cases h
  rfl

/-- Two worlds that differ in the savedata of an identity and in what was logged. -/
structure World.AlikeBut {σ : Type} (identity : String) (Alike : σ → σ → Prop) (w v : World σ) : Prop where
  hooks : v.hooks = w.hooks
  members : v.members = w.members
  store : Alike w.store v.store
  saves : v.saves.filter (·.1 ≠ identity) = w.saves.filter (·.1 ≠ identity)

theorem World.AlikeBut.refl {σ : Type} {store : SavedataStore σ} {identity : String} {Alike : σ → σ → Prop}
    (hconceals : store.Conceals identity Alike) (w : World σ) : w.AlikeBut identity Alike w :=
  ⟨rfl, rfl, hconceals.equivalence.refl w.store, rfl⟩

namespace Host

variable {σ : Type} {host : Host σ} {r s : Registry Activator} {identity : String} {Alike : σ → σ → Prop}

theorem applyPatch_resembles (h : r.Resembles s) : applyPatch s = applyPatch r := by
  funext identity hooks p
  rw [applyPatch, applyPatch]
  simp only [h.resolvesFunction]

theorem applyPatches_resembles (h : r.Resembles s) (identity : String) (hooks : HookTable)
    (patches : List Patch) : applyPatches s identity hooks patches = applyPatches r identity hooks patches := by
  induction patches generalizing hooks with
  | nil => rfl
  | cons p rest ih => simp only [applyPatches, applyPatch_resembles h, ih]

theorem configure_alike (hconceals : host.store.Conceals identity Alike) {other : String}
    (hother : other ≠ identity) {w v : World σ} (h : w.AlikeBut identity Alike v) (typeName : String)
    (info : PluginInfo) (plugin : InitializedPlugin) :
    (host.configure other typeName info plugin v).2 = (host.configure other typeName info plugin w).2 ∧
      (host.configure other typeName info plugin w).1.AlikeBut identity Alike
        (host.configure other typeName info plugin v).1 := by
  cases huses : info.usesSavedata with
  | false => simpa [configure, huses] using h
  | true =>
    obtain ⟨hloaded, hstore⟩ := hconceals.load hother h.store
    rcases hload : host.store.load w.store other with ⟨store, fault | document⟩ <;>
      rcases hload' : host.store.load v.store other with ⟨store', loaded⟩ <;>
      rw [hload, hload'] at hloaded hstore <;> cases hloaded
    · simp only [configure, huses, hload, hload', World.note]
      exact ⟨rfl, h.hooks, h.members, hstore, h.saves⟩
    · cases hended : (plugin.configure document.data).next.outcome .configurationLoad with
      | error failure =>
        simp only [configure, huses, hload, hload', hended, World.note]
        exact ⟨rfl, h.hooks, h.members, hstore, h.saves⟩
      | ok next =>
        simp only [configure, huses, hload, hload', hended, World.note]
        refine ⟨rfl, h.hooks, h.members, hstore, ?_⟩
        change (v.saves ++ [_]).filter _ = (w.saves ++ [_]).filter _
        rw [List.filter_append, List.filter_append, h.saves]

theorem finishPlugin_alike (hresembles : r.Resembles s) (hconceals : host.store.Conceals identity Alike)
    {other : String} (hother : other ≠ identity) {w v : World σ} (h : w.AlikeBut identity Alike v)
    (typeName : String) (info : PluginInfo) (plugin : InitializedPlugin) :
    (host.finishPlugin s other typeName info plugin v).2 =
        (host.finishPlugin r other typeName info plugin w).2 ∧
      (host.finishPlugin r other typeName info plugin w).1.AlikeBut identity Alike
        (host.finishPlugin s other typeName info plugin v).1 := by
  obtain ⟨hresult, hafter⟩ := configure_alike hconceals hother h typeName info plugin
  rcases hw : host.configure other typeName info plugin w with ⟨w', failure | stage⟩ <;>
    rcases hv : host.configure other typeName info plugin v with ⟨v', result⟩ <;>
    rw [hw, hv] at hresult hafter <;> cases hresult
  · rw [host.finishPlugin_of_configuration r hw, host.finishPlugin_of_configuration s hv]
    exact ⟨rfl, hafter⟩
  · cases hdeclared : stage.patches.outcome .prePatch with
    | error failure =>
      rw [host.finishPlugin_of_prePatch r hw hdeclared, host.finishPlugin_of_prePatch s hv hdeclared]
      exact ⟨rfl, hafter.hooks, hafter.members, hafter.store, hafter.saves⟩
    | ok patches =>
      have hpatches : applyPatches s other v'.hooks patches = applyPatches r other w'.hooks patches := by
        rw [applyPatches_resembles hresembles, hafter.hooks]
      rw [host.finishPlugin_of_patches r hw hdeclared, host.finishPlugin_of_patches s hv hdeclared, hpatches]
      exact ⟨rfl, rfl, hafter.members, hafter.store, hafter.saves⟩

/-- A plugin of another identity goes the same way in both worlds and leaves them alike. -/
theorem runPlugin_alike (hresembles : r.Resembles s) (hconceals : host.store.Conceals identity Alike)
    {q : DiscoveredPlugin Activator} (hother : q.identity ≠ identity) {w v : World σ}
    (h : w.AlikeBut identity Alike v) :
    (host.runPlugin s v q).2 = (host.runPlugin r w q).2 ∧
      (host.runPlugin r w q).1.AlikeBut identity Alike (host.runPlugin s v q).1 := by
  cases hmade : (q.code q.typeName).outcome .construction with
  | error failure =>
    rw [host.runPlugin_of_construction r hmade, host.runPlugin_of_construction s hmade]
    exact ⟨rfl, h.hooks, h.members, h.store, h.saves⟩
  | ok first =>
    generalize hdone : first.run host.access (.named q.typeName) w.members [] = done
    have hdone' : first.run host.access (.named q.typeName) v.members [] = done := by rw [h.members, hdone]
    have hinitialized : (initialized w q done).AlikeBut identity Alike (initialized v q done) :=
      ⟨h.hooks, rfl, h.store, h.saves⟩
    cases hended : done.result.outcome .initialization with
    | error failure =>
      rw [host.runPlugin_of_initialization r hmade hdone hended,
        host.runPlugin_of_initialization s hmade hdone' hended]
      exact ⟨rfl, hinitialized⟩
    | ok next =>
      rw [host.runPlugin_of_returned r hmade hdone hended, host.runPlugin_of_returned s hmade hdone' hended]
      exact finishPlugin_alike hresembles hconceals hother hinitialized q.typeName done.info next

section

variable (host) (r)

theorem configure_members (identity typeName : String) (info : PluginInfo) (plugin : InitializedPlugin)
    (w : World σ) : (host.configure identity typeName info plugin w).1.members = w.members := by
  rw [configure]
  split
  · rfl
  · dsimp only
    split
    · rfl
    · split <;> rfl

theorem finishPlugin_members (identity typeName : String) (info : PluginInfo) (plugin : InitializedPlugin)
    (w : World σ) : (host.finishPlugin r identity typeName info plugin w).1.members = w.members := by
  rw [← host.configure_members identity typeName info plugin w]
  rcases hconfigure : host.configure identity typeName info plugin w with ⟨after, failure | stage⟩
  · rw [host.finishPlugin_of_configuration r hconfigure]
  · cases hdeclared : stage.patches.outcome .prePatch with
    | error failure =>
      rw [host.finishPlugin_of_prePatch r hconfigure hdeclared]
      rfl
    | ok patches =>
      rw [host.finishPlugin_of_patches r hconfigure hdeclared]
      rfl

theorem runPlugin_members {w : World σ} {p : DiscoveredPlugin Activator}
    (hsilent : p.WritesNothing host.access) : (host.runPlugin r w p).1.members = w.members := by
  cases hmade : (p.code p.typeName).outcome .construction with
  | error failure =>
    rw [host.runPlugin_of_construction r hmade]
    rfl
  | ok first =>
    have hmembers := hsilent first (Completion.returned_of_outcome hmade) w.members
    generalize hdone : first.run host.access (.named p.typeName) w.members [] = done at hmembers
    cases hended : done.result.outcome .initialization with
    | error failure =>
      rw [host.runPlugin_of_initialization r hmade hdone hended]
      exact hmembers
    | ok next =>
      rw [host.runPlugin_of_returned r hmade hdone hended, finishPlugin_members]
      exact hmembers

theorem runPlugin_identity (w : World σ) (p : DiscoveredPlugin Activator) :
    (host.runPlugin r w p).2.identity = p.identity := by
  obtain ⟨_, _, _, hran⟩ := host.runPlugin_ran r w p
  exact hran.identity

end

/-- All that a plugin leaves behind that has failed and written no member is savedata of its own. -/
theorem runPlugin_failed_alike {p : DiscoveredPlugin Activator}
    (hconceals : host.store.Conceals p.identity Alike) (hsilent : p.WritesNothing host.access)
    {w v : World σ} (hfailed : (host.runPlugin r w p).2.HasFailed) (h : w.AlikeBut p.identity Alike v) :
    (host.runPlugin r w p).1.AlikeBut p.identity Alike v := by
  obtain ⟨_, _, _, hran⟩ := host.runPlugin_ran r w p
  obtain ⟨hsaves, hstore⟩ := host.runPlugin_savedata r w p
  have hhooks : (host.runPlugin r w p).1.hooks = w.hooks := by
    have hfollows := host.runPlugin_follows r w p
    rw [hran.patches_of_hasFailed hfailed] at hfollows
    exact hfollows.eq_of_nil
  refine ⟨h.hooks.trans hhooks.symm, h.members.trans (host.runPlugin_members r hsilent).symm, ?_, ?_⟩
  · rcases hstore with hstore | hstore
    · rw [hstore]
      exact h.store
    · rw [hstore]
      exact hconceals.equivalence.trans (hconceals.equivalence.symm (hconceals.load_own w.store)) h.store
  · rw [hsaves, List.filter_append, h.saves]
    simp [List.filter_map, Function.comp_def]

/-- A save that lands in one of two worlds lands in the other as well, unless it is of the identity in
    which they may differ. -/
theorem land_alike (hconceals : host.store.Conceals identity Alike) {w v : World σ}
    {save : String × Toml.Table} {before after : List (String × Toml.Table)}
    (hsaves : w.saves = before ++ save :: after) (h : w.AlikeBut identity Alike v) :
    (host.land w save (before ++ after)).AlikeBut identity Alike v ∨
      ∃ first last, v.saves = first ++ save :: last ∧
        (host.land w save (before ++ after)).AlikeBut identity Alike
          (host.land v save (first ++ last)) := by
  obtain ⟨owner, data⟩ := save
  have hpending := h.saves
  rw [hsaves, List.filter_append] at hpending
  by_cases howner : owner = identity
  · subst howner
    refine .inl ⟨h.hooks, h.members, ?_, ?_⟩
    · exact hconceals.equivalence.trans (hconceals.equivalence.symm (hconceals.save_own w.store data)) h.store
    · rw [hpending, List.filter_cons_of_neg (by simp)]
      exact (List.filter_append _ _).symm
  · rw [List.filter_cons_of_pos (by simpa using howner)] at hpending
    obtain ⟨first, rest, hv, hfirst, hrest⟩ := List.filter_eq_append_iff.mp hpending
    obtain ⟨more, last, rfl, hmore, _, hlast⟩ := List.filter_eq_cons_iff.mp hrest
    refine .inr ⟨first ++ more, last, by rw [hv, List.append_assoc], h.hooks, h.members, ?_, ?_⟩
    · exact hconceals.save data howner h.store
    · change (first ++ more ++ last).filter _ = (before ++ after).filter _
      rw [List.filter_append, List.filter_append, List.filter_append, hfirst, hlast,
        List.filter_eq_nil_iff.mpr hmore, List.append_nil]

/-- The plugins run one after another, with and without those of an identity that fail. -/
theorem runPlugins_isolated (hresembles : r.Resembles s) (hconceals : host.store.Conceals identity Alike)
    {plugins : List (DiscoveredPlugin Activator)} {w v : World σ}
    (hsilent : ∀ p ∈ plugins, p.identity = identity → p.WritesNothing host.access)
    (hfailed : ∀ record ∈ (host.runPlugins r w plugins).2, record.identity = identity → record.HasFailed)
    (h : w.AlikeBut identity Alike v) :
    let others := host.runPlugins s v (plugins.filter (·.identity ≠ identity))
    others.2 = (host.runPlugins r w plugins).2.filter (·.identity ≠ identity) ∧
      (host.runPlugins r w plugins).1.AlikeBut identity Alike others.1 := by
  induction plugins generalizing w v with
  | nil => exact ⟨rfl, h⟩
  | cons p rest ih =>
    rw [List.forall_mem_cons] at hsilent
    rw [runPlugins, List.forall_mem_cons] at hfailed
    have hidentity := host.runPlugin_identity r w p
    by_cases hp : p.identity = identity
    · subst hp
      have hfirst := runPlugin_failed_alike hconceals (hsilent.1 rfl) (hfailed.1 hidentity) h
      simpa [runPlugins, hidentity] using ih hsilent.2 hfailed.2 hfirst
    · obtain ⟨hrecord, hfirst⟩ := runPlugin_alike hresembles hconceals hp h
      obtain ⟨hrecords, hrest⟩ := ih hsilent.2 hfailed.2 hfirst
      have hkept : (p :: rest).filter (·.identity ≠ identity) = p :: rest.filter (·.identity ≠ identity) :=
        List.filter_cons_of_pos (by simpa using hp)
      rw [hkept]
      refine ⟨?_, hrest⟩
      simp only [runPlugins, hrecord]
      rw [hrecords, List.filter_cons_of_pos (by simpa [hidentity] using hp)]

/-- The same when saves land while the plugins run. -/
theorem Interleaved.isolated (hresembles : r.Resembles s) (hconceals : host.store.Conceals identity Alike)
    {w u v : World σ} {turns : List (Turn σ)} (hrun : host.Interleaved r w turns u)
    (hsilent : ∀ t ∈ turns, t.plugin.identity = identity → t.plugin.WritesNothing host.access)
    (hfailed : ∀ record ∈ host.recordsOf r turns, record.identity = identity → record.HasFailed)
    (h : w.AlikeBut identity Alike v) :
    ∃ others v', host.Interleaved s v others v' ∧
      others.map (·.plugin) = (turns.map (·.plugin)).filter (·.identity ≠ identity) ∧
      host.recordsOf s others = (host.recordsOf r turns).filter (·.identity ≠ identity) ∧
      u.AlikeBut identity Alike v' := by
  induction hrun generalizing v with
  | done => exact ⟨[], v, .done, rfl, rfl, h⟩
  | @turn w u p turns _ ih =>
    rw [List.forall_mem_cons] at hsilent
    rw [recordsOf, List.map_cons, List.forall_mem_cons] at hfailed
    have hidentity := host.runPlugin_identity r w p
    by_cases hp : p.identity = identity
    · subst hp
      have hfirst := runPlugin_failed_alike hconceals (hsilent.1 rfl) (hfailed.1 hidentity) h
      obtain ⟨others, v', hothers, hplugins, hrecords, halike⟩ := ih hsilent.2 hfailed.2 hfirst
      refine ⟨others, v', hothers, ?_, ?_, halike⟩
      · simpa using hplugins
      · rw [hrecords, recordsOf, recordsOf, List.map_cons, List.filter_cons_of_neg (by simpa using hidentity)]
    · obtain ⟨hrecord, hfirst⟩ := runPlugin_alike hresembles hconceals hp h
      obtain ⟨others, v', hothers, hplugins, hrecords, halike⟩ := ih hsilent.2 hfailed.2 hfirst
      refine ⟨⟨v, p⟩ :: others, v', .turn hothers, ?_, ?_, halike⟩
      · simpa [hp] using hplugins
      · rw [recordsOf, List.map_cons, hrecord, recordsOf, List.map_cons,
          List.filter_cons_of_pos (by simpa [hidentity] using hp)]
        exact congrArg _ hrecords
  | landing hsaves _ ih =>
    rcases land_alike hconceals hsaves h with hland | ⟨first, last, hv, hland⟩
    · exact ih hsilent hfailed hland
    · obtain ⟨others, v', hothers, hrest⟩ := ih hsilent hfailed hland
      exact ⟨others, v', .landing hv hothers, hrest⟩

/-- A plugin has its identity to itself, writes no member of the host, and fails. Then the batch in which its
    type is marked abstract is loaded, too, the run over it gives the other plugins the same records, and it
    leaves the same hooks. So it is as well when saves land while the run goes on: what a run with the plugin
    can come to, a run without it can. -/
theorem failed_plugin_isolated {w : World σ} {before after : List Package} {given withheld : Package}
    {p : DiscoveredPlugin Activator} (hprepare : host.prepare w.hooks (before ++ given :: after) = .ok r)
    (halone : r.discover.filter (·.identity = p.identity) = [p])
    (hwithheld : withheld.Withholds given host.loader p) (hsilent : p.WritesNothing host.access)
    (hconceals : host.store.Conceals p.identity Alike) :
    let done := host.run w (before ++ given :: after)
    let without := host.run w (before ++ withheld :: after)
    ∃ s, host.prepare w.hooks (before ++ withheld :: after) = .ok s ∧
      s.discover = r.discover.filter (·.identity ≠ p.identity) ∧
      ((∀ record ∈ done.2.records, record.identity = p.identity → record.HasFailed) →
        without.2 = ⟨.success, none, done.2.records.filter (·.identity ≠ p.identity)⟩ ∧
          without.1.hooks = done.1.hooks) ∧
      ∀ turns u, host.RunsTo w (before ++ given :: after) turns u →
        (∀ record ∈ host.recordsOf r turns, record.identity = p.identity → record.HasFailed) →
        ∃ others v, host.RunsTo w (before ++ withheld :: after) others v ∧
          host.recordsOf s others = (host.recordsOf r turns).filter (·.identity ≠ p.identity) ∧
          v.hooks = u.hooks := by
  intro done without
  obtain ⟨s, hwithout, hresembles, hdiscover⟩ := host.prepare_withheld hprepare halone hwithheld
  have halike := World.AlikeBut.refl hconceals w
  have honly : ∀ q ∈ r.discover, q.identity = p.identity → q.WritesNothing host.access := by
    intro q hq hidentity
    have hmember : q ∈ r.discover.filter (·.identity = p.identity) :=
      List.mem_filter.mpr ⟨hq, by simpa using hidentity⟩
    rw [halone, List.mem_singleton] at hmember
    rwa [hmember]
  refine ⟨s, hwithout, hdiscover, ?_, ?_⟩
  · intro hfailed
    simp only [done, without, run, hprepare, hwithout, hdiscover] at hfailed ⊢
    obtain ⟨hrecords, hafter⟩ := runPlugins_isolated hresembles hconceals honly hfailed halike
    exact ⟨congrArg _ hrecords, hafter.hooks⟩
  · intro turns u hrun hfailed
    cases hrun with
    | aborted hfault => cases hprepare.symm.trans hfault
    | completed hr hplugins hlanded hinterleaved =>
      cases hprepare.symm.trans hr
      have hturns : ∀ t ∈ turns, t.plugin.identity = p.identity → t.plugin.WritesNothing host.access :=
        fun t ht => honly t.plugin (hplugins ▸ List.mem_map_of_mem ht)
      obtain ⟨others, v, hothers, hremaining, hrecords, hafter⟩ :=
        hinterleaved.isolated hresembles hconceals hturns hfailed halike
      have hsaved := hothers.trans (host.carryOutSaves_interleaved s v)
      rw [List.append_nil] at hsaved
      refine ⟨others, host.carryOutSaves v, .completed hwithout ?_ rfl hsaved, hrecords, hafter.hooks⟩
      rw [hremaining, hplugins, hdiscover]

end Host

namespace Bystander

def jump : FunctionName := ⟨"Game", "Player", "Jump"⟩

/-- A plugin that saves its savedata and then panics, and one that patches a function of the host. -/
def code (typeName : String) : Completion Initialization :=
  let patches : Completion (List Patch) :=
    if typeName = "Mods.Broken" then .panicked none
    else .returned [.before jump ⟨"Mods", "Zoom", "OnJump"⟩]
  .returned (.finish (.returned ⟨fun data => ⟨data, [], .returned ⟨patches⟩⟩, ⟨patches⟩⟩))

def image (name : String) (methods : List MethodDef) : Image :=
  ⟨"mods", [⟨"mods", [⟨"Mods", name, some (.named "Patchwork" "Plugin"), false, false, [], [], methods⟩]⟩]⟩

def brokenImage : Image := image "Broken" []

def zoomImage : Image := image "Zoom" [⟨0, "OnJump", .named "System" "Void", [], [], [], []⟩]

def package (identity : String) (image : Image) : Package :=
  ⟨identity, (Artifact.ofImage image none).toOption.getD default⟩

def broken : Package := package "broken.cs" brokenImage

def withheld : Package := package "broken.cs" (brokenImage.withhold "Mods.Broken")

def zoom : Package := package "zoom.cs" zoomImage

def host : Host (SortedMap String Toml.Table) := ⟨fun _ => .ok code, .inMemory, [], none⟩

def world : World (SortedMap String Toml.Table) := ⟨.ofFunctions [jump], [], .empty, [], [], []⟩

def registry : Registry Activator :=
  .addAll .empty [⟨"broken.cs", brokenImage, false, code⟩, ⟨"zoom.cs", zoomImage, false, code⟩]

def plugin : DiscoveredPlugin Activator := ⟨"broken.cs", "Mods.Broken", code⟩

theorem package_loads {identity : String} {image : Image}
    (h : (package identity image).artifact.module.length ≤ maxModuleBytes ∧
      (package identity image).artifact.image.toOption = some image) :
    (package identity image).Loads host.loader ⟨identity, image, false, code⟩ :=
  ⟨rfl, rfl, h.1, eq_ok_of_toOption h.2, rfl⟩

theorem broken_loads : broken.Loads host.loader ⟨"broken.cs", brokenImage, false, code⟩ :=
  package_loads (by decide +kernel)

theorem host_prepare : host.prepare world.hooks [broken, zoom] = .ok registry := by
  have hzoom : zoom.Loads host.loader ⟨"zoom.cs", zoomImage, false, code⟩ :=
    package_loads (by decide +kernel)
  exact host.prepare_of_loads (by decide +kernel) rfl (.cons broken_loads (.cons hzoom .nil))

theorem registry_alone : registry.discover.filter (·.identity = plugin.identity) = [plugin] := rfl

theorem withheld_withholds : withheld.Withholds broken host.loader plugin := by
  have hwithheld : withheld.Loads host.loader
      ⟨"broken.cs", brokenImage.withhold "Mods.Broken", false, code⟩ :=
    package_loads (by decide +kernel)
  exact ⟨rfl, rfl, ⟨brokenImage, broken_loads.image, ⟨_, List.mem_singleton_self _, rfl, rfl⟩, hwithheld.image⟩,
    hwithheld.length, ⟨code, rfl⟩⟩

theorem plugin_writesNothing : plugin.WritesNothing host.access := by
  intro first hfirst members
  cases hfirst
  rfl

/-- The patch of the other plugin is there without the broken one as it is with it. -/
theorem bystander_unharmed :
    (host.run world [broken, zoom]).2.records.map (fun record => (record.identity, record.state)) =
        [("broken.cs", .failed .prePatch), ("zoom.cs", .patched)] ∧
      (host.run world [withheld, zoom]).2.records =
        (host.run world [broken, zoom]).2.records.filter (·.identity ≠ plugin.identity) ∧
      (host.run world [withheld, zoom]).1.hooks = (host.run world [broken, zoom]).1.hooks := by
  have hstates : (host.run world [broken, zoom]).2.records.map
      (fun record => (record.identity, record.state)) =
        [("broken.cs", .failed .prePatch), ("zoom.cs", .patched)] := by
    simp only [Host.run, host_prepare]
    decide +kernel
  have hfailed : ∀ record ∈ (host.run world [broken, zoom]).2.records,
      record.identity = plugin.identity → record.HasFailed := by
    intro record hrecord hidentity
    have hmember := List.mem_map_of_mem (f := fun record => (record.identity, record.state)) hrecord
    rw [hstates] at hmember
    exact ⟨.prePatch, by simpa [hidentity, plugin] using hmember⟩
  have hprepare : host.prepare world.hooks ([] ++ broken :: [zoom]) = .ok registry := host_prepare
  obtain ⟨_, _, _, hsame, _⟩ := Host.failed_plugin_isolated hprepare registry_alone
    withheld_withholds plugin_writesNothing (SavedataStore.inMemory_conceals plugin.identity)
  simp only [List.nil_append] at hsame
  obtain ⟨houtcome, hhooks⟩ := hsame hfailed
  exact ⟨hstates, by rw [houtcome], hhooks⟩

end Bystander

end PluginHost
