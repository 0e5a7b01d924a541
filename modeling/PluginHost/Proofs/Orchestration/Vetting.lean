import Mathlib.Data.List.Induction
import PluginHost.Proofs.Orchestration.Attachment
/-!
What stands in a hook table that runs share.

A patch names its target and its stub as a plugin likes. It is applied only after its target was compared
with the protected namespaces and with the functions of the host, and its stub was looked up among the
modules of the run. Main statement: whatever runs share a table that began without stubs, at every moment
each stub in it stands at an unprotected function of the host, and was found among the modules of the run
that attached it.
-/

namespace PluginHost

/-- A loaded module defines the type to which the function's type name leads, and the type has a method of
    the function's name. -/
def Registry.Defines {γ : Type} (r : Registry γ) (f : FunctionName) : Prop :=
  ∃ module ∈ r.modules, ∃ type ∈ module.image.types, r.resolve? f.declaringType = some type ∧
    type.fullName = f.declaringType ∧ ∃ method ∈ type.methods, method.name = f.name

theorem Registry.defines_of_resolvesFunction {γ : Type} {r : Registry γ} {f : FunctionName}
    (h : r.resolvesFunction f = true) : r.Defines f := by
  rw [resolvesFunction] at h
  cases hresolve : r.resolve? f.declaringType with
  | none =>
    rw [hresolve] at h
    cases h
  | some type =>
    rw [hresolve, Option.any_some, List.any_eq_true] at h
    obtain ⟨method, hmethod, hname⟩ := h
    obtain ⟨module, hmodule, hfind⟩ := List.exists_of_findSome?_eq_some (r.resolve?_eq _ ▸ hresolve)
    have hfullName : type.fullName = f.declaringType := by simpa using List.find?_some hfind
    exact ⟨module, hmodule, type, List.mem_of_find?_eq_some hfind, hresolve, hfullName, method,
      hmethod, by simpa using hname⟩

namespace HookTable

theorem mem_foldl_joining {stubs chain : List AttachedStub} {s : AttachedStub} :
    s ∈ stubs.foldl (fun chain s => s.joining chain) chain ↔ s ∈ chain ∨ s ∈ stubs := by
  induction stubs generalizing chain with
  | nil => simp
  | cons a rest ih =>
    rw [List.foldl_cons, ih, (a.joining_perm chain).mem_iff, List.mem_cons, List.mem_cons,
      or_assoc, or_left_comm]

theorem mem_attachmentsAt {site : Site} {patches : List (String × PatchOutcome)} {s : AttachedStub} :
    s ∈ attachmentsAt site patches ↔ ∃ e ∈ patches, e.2.attachment? e.1 = some (site, s) := by
  simp only [attachmentsAt, List.mem_map, List.mem_filter, List.mem_filterMap, decide_eq_true_eq]
  constructor
  · rintro ⟨⟨_, _⟩, ⟨⟨e, he, hattachment⟩, rfl⟩, rfl⟩
    exact ⟨e, he, hattachment⟩
  · rintro ⟨e, he, hattachment⟩
    exact ⟨(site, s), ⟨⟨e, he, hattachment⟩, rfl⟩, rfl⟩

/-- What stands at a site was there before, or one of the patches has put it there. -/
theorem Follows.mem_dispatchOrder_iff {t u : HookTable} {patches : List (String × PatchOutcome)}
    (h : t.Follows patches u) {site : Site} {s : AttachedStub} :
    s ∈ u.dispatchOrder site ↔
      s ∈ t.dispatchOrder site ∨ ∃ e ∈ patches, e.2.attachment? e.1 = some (site, s) := by
  rw [h.dispatchOrder, mem_foldl_joining, mem_attachmentsAt]

end HookTable

/-- The target and the stub of an attachment are those of the patch, which was applied. -/
theorem PatchOutcome.of_attachment? {identity : String} {o : PatchOutcome} {site : Site}
    {s : AttachedStub} (h : o.attachment? identity = some (site, s)) :
    o.status = .applied ∧ o.descriptor.target = some site.target ∧ o.descriptor.stub = some s.stub := by
  rw [attachment?] at h
  split at h
  · next hstatus htarget hstub =>
    cases h
    exact ⟨hstatus, htarget, hstub⟩
  · cases h

namespace Host

variable {σ : Type} (host : Host σ) (r : Registry Activator)

/-- A patch that was applied has passed every check. -/
theorem applyPatch_applied {identity : String} {hooks : HookTable} {p : Patch} {target stub : FunctionName}
    (htarget : p.target = some target) (hstub : p.stub = some stub)
    (happlied : (applyPatch r identity hooks p).2.status = .applied) :
    protecting? target.declaringType = none ∧ r.resolvesFunction stub = true ∧
      target ∈ hooks.functions := by
  rw [applyPatch, htarget, hstub] at happlied
  dsimp only at happlied
  split at happlied
  · cases happlied
  · next hunprotected =>
    split at happlied
    · cases happlied
    · next hresolves =>
      refine ⟨hunprotected, by simpa using hresolves, ?_⟩
      rcases hooks.intercept_cases ⟨target, p.location⟩ ⟨stub, p.effectivePriority, identity⟩ with
        ⟨_, hrefused⟩ | ⟨hfunction, _⟩ | ⟨hfunction, _⟩
      · rw [hrefused] at happlied
        cases happlied
      · exact hfunction
      · exact hfunction

/-- An outcome that comes of trying a patch on a table with the given functions. -/
def Tried (functions : List FunctionName) (e : String × PatchOutcome) : Prop :=
  ∃ (hooks : HookTable) (p : Patch), hooks.functions = functions ∧ e.2 = (applyPatch r e.1 hooks p).2

theorem applyPatches_tried (identity : String) (hooks : HookTable) (patches : List Patch) :
    ∀ o ∈ (applyPatches r identity hooks patches).2, Tried r hooks.functions (identity, o) := by
  induction patches generalizing hooks with
  | nil => exact List.forall_mem_nil _
  | cons p rest ih =>
    rw [applyPatches, List.forall_mem_cons]
    refine ⟨⟨hooks, p, rfl, rfl⟩, ?_⟩
    have hfunctions := (applyPatch_follows r identity hooks p).functions
    rw [← hfunctions]
    exact ih _

theorem runPlugin_tried (w : World σ) (plugin : DiscoveredPlugin Activator) :
    ∀ e ∈ (host.runPlugin r w plugin).2.patches, Tried r w.hooks.functions e := by
  have htried := applyPatches_tried r (host.runPlugin r w plugin).2.identity w.hooks
    (host.runPlugin r w plugin).2.declared
  rw [host.runPlugin_applies r w plugin] at htried
  exact List.forall_mem_map.mpr htried

theorem runPlugins_tried (w : World σ) (plugins : List (DiscoveredPlugin Activator)) :
    ∀ e ∈ (host.runPlugins r w plugins).2.flatMap RuntimeRecord.patches, Tried r w.hooks.functions e := by
  induction plugins generalizing w with
  | nil => exact List.forall_mem_nil _
  | cons plugin rest ih =>
    rw [runPlugins, List.flatMap_cons, List.forall_mem_append]
    refine ⟨host.runPlugin_tried r w plugin, ?_⟩
    have hfunctions := (host.runPlugin_follows r w plugin).functions
    rw [← hfunctions]
    exact ih _

/-- Whatever a run reports as attached has passed every check, among the modules of that run. -/
theorem run_attachment_vetted {w : World σ} {packages : List Package} {e : String × PatchOutcome}
    {site : Site} {s : AttachedStub} (he : e ∈ (host.run w packages).2.patches)
    (hattachment : e.2.attachment? e.1 = some (site, s)) :
    ∃ r, host.prepare w.hooks packages = .ok r ∧ protecting? site.target.declaringType = none ∧
      r.resolvesFunction s.stub = true ∧ site.target ∈ w.hooks.functions := by
  cases hprepare : host.prepare w.hooks packages with
  | error fault =>
    simp only [run, hprepare] at he
    cases he
  | ok r =>
    simp only [run, hprepare] at he
    obtain ⟨hooks, p, hfunctions, houtcome⟩ := host.runPlugins_tried r w r.discover e he
    obtain ⟨happlied, htarget, hstub⟩ := PatchOutcome.of_attachment? hattachment
    have hpatch : e.2.descriptor = p := by rw [houtcome, applyPatch_descriptor]
    rw [hpatch] at htarget hstub
    rw [houtcome] at happlied
    rw [← hfunctions]
    exact ⟨r, rfl, applyPatch_applied r htarget hstub happlied⟩

end Host

/-- One of the runs that share a hook table: a host, a batch, and all that the run finds but the table. -/
structure Session where
  State : Type
  host : Host State
  world : World State
  packages : List Package

namespace Session

/-- What a run on a table leaves, and its outcome. -/
def run (session : Session) (hooks : HookTable) : World session.State × Outcome :=
  session.host.run { session.world with hooks } session.packages

theorem run_follows (session : Session) (hooks : HookTable) :
    hooks.Follows (session.run hooks).2.patches (session.run hooks).1.hooks :=
  session.host.run_follows { session.world with hooks } session.packages

/-- A run on a table reports a stub as attached, and a module that it has loaded defines the stub. -/
def Attaches (session : Session) (hooks : HookTable) (site : Site) (s : AttachedStub) : Prop :=
  (∃ e ∈ (session.run hooks).2.patches, e.2.attachment? e.1 = some (site, s)) ∧
    ∃ r, session.host.prepare hooks session.packages = .ok r ∧ r.Defines s.stub

end Session

namespace HookTable

variable {start t : HookTable} {earlier : List Session} {session : Session} {site : Site}
  {s : AttachedStub}

/-- The table that runs leave, each on the table of the one before. -/
def afterSessions (start : HookTable) (sessions : List Session) : HookTable :=
  sessions.foldl (fun hooks session => (session.run hooks).1.hooks) start

/-- A stub that may stand where it does: at an unprotected function of the host, attached by one of the
    runs. -/
structure Vetted (start : HookTable) (sessions : List Session) (site : Site) (s : AttachedStub) : Prop where
  unprotected : ∀ ns ∈ protectedNamespaces, ¬ ns.toList <+: site.target.declaringType.toList
  function : site.target ∈ start.functions
  attached : ∃ before session after, sessions = before ++ session :: after ∧
    session.Attaches (start.afterSessions before) site s

theorem Vetted.later (h : start.Vetted earlier site s) : start.Vetted (earlier ++ [session]) site s where
  unprotected := h.unprotected
  function := h.function
  attached := by
    obtain ⟨before, attaching, after, rfl, hattaches⟩ := h.attached
    exact ⟨before, attaching, after ++ [session], by simp, hattaches⟩

theorem afterSessions_append_singleton (start : HookTable) (earlier : List Session) (session : Session) :
    start.afterSessions (earlier ++ [session]) =
      (session.run (start.afterSessions earlier)).1.hooks := by
  rw [afterSessions, List.foldl_append]
  rfl

theorem functions_afterSessions (start : HookTable) (sessions : List Session) :
    (start.afterSessions sessions).functions = start.functions := by
  induction sessions using List.reverseRecOn with
  | nil => rfl
  | append_singleton earlier session ih =>
    rw [afterSessions_append_singleton, ← ih]
    exact (session.run_follows _).functions

/-- What one more run adds: if every stub is vetted before it, so is every stub after any number of its
    patches. -/
theorem vetted_of_follows
    (hearlier : ∀ site, ∀ s ∈ (start.afterSessions earlier).dispatchOrder site,
      start.Vetted earlier site s)
    {tried : List (String × PatchOutcome)}
    (htried : tried <+: (session.run (start.afterSessions earlier)).2.patches)
    (ht : (start.afterSessions earlier).Follows tried t) (hs : s ∈ t.dispatchOrder site) :
    start.Vetted (earlier ++ [session]) site s := by
  rcases ht.mem_dispatchOrder_iff.mp hs with hbefore | ⟨e, he, hattachment⟩
  · exact (hearlier site s hbefore).later
  · have hpatch := htried.mem he
    obtain ⟨r, hprepare, hunprotected, hresolves, hfunction⟩ :=
      session.host.run_attachment_vetted hpatch hattachment
    have hfunctions := functions_afterSessions start earlier
    refine ⟨protecting?_eq_none_iff.mp hunprotected, ?_, earlier, session, [], rfl,
      ⟨e, hpatch, hattachment⟩, r, hprepare, Registry.defines_of_resolvesFunction hresolves⟩
    rw [← hfunctions]
    exact hfunction

theorem vetted_of_mem (hstart : ∀ site, start.dispatchOrder site = []) (sessions : List Session) :
    ∀ site, ∀ s ∈ (start.afterSessions sessions).dispatchOrder site, start.Vetted sessions site s := by
  induction sessions using List.reverseRecOn with
  | nil =>
    intro site s hs
    rw [afterSessions, List.foldl_nil, hstart] at hs
    cases hs
  | append_singleton earlier session ih =>
    intro site s hs
    rw [afterSessions_append_singleton] at hs
    exact vetted_of_follows ih (List.prefix_refl _) (session.run_follows _) hs

/-- Runs share a table that began without stubs. At any moment, after any number of runs and of the patches
    that the next run tries, no stub stands at a function of a type whose name starts with a protected
    namespace, each stands at a function of the host, and each was attached in one of the runs, which had
    loaded a module that defines it. -/
theorem attached_stubs_vetted (hstart : ∀ site, start.dispatchOrder site = [])
    (earlier : List Session) (session : Session) {tried : List (String × PatchOutcome)}
    (htried : tried <+: (session.run (start.afterSessions earlier)).2.patches)
    (ht : (start.afterSessions earlier).Follows tried t) :
    t.functions = start.functions ∧ ∀ site, ∀ s ∈ t.dispatchOrder site,
      start.Vetted (earlier ++ [session]) site s :=
  ⟨ht.functions.trans (functions_afterSessions start earlier),
    fun _ _ hs => vetted_of_follows (vetted_of_mem hstart earlier) htried ht hs⟩

/-- A plugin that patches a function of the host with a method of its own, in the first run on a table. -/
theorem attached_stubs_vetted_first_run :
    let method : MethodDef := ⟨0, "OnJump", .named "System" "Void", [], [], [], []⟩
    let type : TypeDef :=
      ⟨"Mods", "Zoom", some (.named "Patchwork" "Plugin"), false, false, [], [], [method]⟩
    let artifact := (Artifact.ofImage ⟨"mods", [⟨"mods", [type]⟩]⟩ none).toOption.getD default
    let target : FunctionName := ⟨"Game", "Player", "Jump"⟩
    let stub : FunctionName := ⟨"Mods", "Zoom", "OnJump"⟩
    let stage : PatchStage := ⟨.returned [.before target stub]⟩
    let plugin : InitializedPlugin := ⟨fun data => ⟨data, [], .returned stage⟩, stage⟩
    let host : Host (SortedMap String Toml.Table) :=
      ⟨fun _ => .ok fun _ => .returned (.finish (.returned plugin)), .inMemory, [], none⟩
    let start := ofFunctions [target]
    let session : Session := ⟨_, host, ⟨start, [], .empty, [], [], []⟩, [⟨"zoom.cs", artifact⟩]⟩
    (session.run start).1.hooks.dispatchOrder ⟨target, .before⟩ = [⟨stub, 400, "zoom.cs"⟩] ∧
      start.Vetted [session] ⟨target, .before⟩ ⟨stub, 400, "zoom.cs"⟩ := by
  intro method type artifact target stub stage plugin host start session
  have horder : (session.run start).1.hooks.dispatchOrder ⟨target, .before⟩ =
      [⟨stub, 400, "zoom.cs"⟩] := by
    decide +kernel
  have hvetted := attached_stubs_vetted (fun _ => rfl) [] session (List.prefix_refl _)
    (session.run_follows start)
  refine ⟨horder, hvetted.2 _ _ ?_⟩
  rw [horder]
  exact List.mem_singleton.mpr rfl

end HookTable

end PluginHost
