import Mathlib.Data.List.Nodup
import PluginHost.Proofs.Orchestration.Vetting
/-!
Stubs that stand twice at a site.

An attachment is refused if its stub stands at the site already. Stubs are compared part by part, while a stub
is looked up by its joined name, and a joined name can be split in more than one way. Main statement: no
descriptor stands twice in a chain, and a qualified name does so exactly if patches that split it differently
were applied there.
-/

namespace PluginHost

namespace HookTable

/-- No stub stands twice at a site. -/
def StubsDistinct (t : HookTable) : Prop := ∀ site, ((t.dispatchOrder site).map AttachedStub.stub).Nodup

/-- A property of tables that no attachment takes away. -/
def KeptByAttachment (P : HookTable → Prop) : Prop :=
  ∀ {t u : HookTable} {site : Site} {s : AttachedStub}, t.intercept site s = .ok u → P t → P u

theorem stubsDistinct_kept : KeptByAttachment StubsDistinct := by
  intro t u site s hok h
  rcases t.intercept_cases site s with ⟨_, hrefused⟩ | ⟨_, _, hrefused⟩ | ⟨_, hnew, v, hv, hattaches⟩
  · rw [hrefused] at hok
    cases hok
  · rw [hrefused] at hok
    cases hok
  · rw [hv] at hok
    cases hok
    intro other
    by_cases hother : other = site
    · subst hother
      rw [hattaches.chain, ((s.joining_perm _).map _).nodup_iff, List.map_cons, List.nodup_cons]
      refine ⟨fun hmem => ?_, h other⟩
      obtain ⟨a, ha, hstub⟩ := List.mem_map.mp hmem
      exact hnew a ha hstub
    · rw [hattaches.others other hother]
      exact h other

theorem foldl_joining_perm (stubs chain : List AttachedStub) :
    (stubs.foldl (fun chain s => s.joining chain) chain).Perm (stubs ++ chain) := by
  induction stubs generalizing chain with
  | nil => exact .refl _
  | cons a rest ih =>
    rw [List.foldl_cons]
    exact (ih _).trans (((a.joining_perm chain).append_left rest).trans List.perm_middle)

/-- A chain that began empty holds what was attached, each as often as it was. -/
theorem Follows.dispatchOrder_perm {t u : HookTable} {patches : List (String × PatchOutcome)} {site : Site}
    (h : t.Follows patches u) (hempty : t.dispatchOrder site = []) :
    (u.dispatchOrder site).Perm (attachmentsAt site patches) := by
  rw [h.dispatchOrder, hempty]
  simpa using foldl_joining_perm (attachmentsAt site patches) []

end HookTable

namespace Host

variable {σ : Type} (host : Host σ) (r : Registry Activator) {P : HookTable → Prop}
  (hP : HookTable.KeptByAttachment P)

include hP

theorem applyPatch_keeps (identity : String) {hooks : HookTable} (p : Patch) (h : P hooks) :
    P (applyPatch r identity hooks p).1 := by
  rw [applyPatch]
  split
  · split
    · exact h
    · split
      · exact h
      · split
        · next u hok => exact hP hok h
        · exact h
  · exact h

theorem applyPatches_keeps (identity : String) {hooks : HookTable} (patches : List Patch) (h : P hooks) :
    P (applyPatches r identity hooks patches).1 := by
  induction patches generalizing hooks with
  | nil => exact h
  | cons p rest ih => exact ih (applyPatch_keeps r hP identity p h)

theorem runPlugin_keeps {w : World σ} (plugin : DiscoveredPlugin Activator) (h : P w.hooks) :
    P (host.runPlugin r w plugin).1.hooks := by
  have hkept := applyPatches_keeps r hP (host.runPlugin r w plugin).2.identity
    (host.runPlugin r w plugin).2.declared h
  rw [host.runPlugin_applies r w plugin] at hkept
  exact hkept

theorem runPlugins_keeps {w : World σ} (plugins : List (DiscoveredPlugin Activator)) (h : P w.hooks) :
    P (host.runPlugins r w plugins).1.hooks := by
  induction plugins generalizing w with
  | nil => exact h
  | cons plugin rest ih => exact ih (host.runPlugin_keeps r hP plugin h)

/-- Whatever attachments keep, a run keeps. -/
theorem run_keeps {w : World σ} (packages : List Package) (h : P w.hooks) :
    P (host.run w packages).1.hooks := by
  cases hprepare : host.prepare w.hooks packages with
  | error fault =>
    simp only [run, hprepare]
    exact h
  | ok r =>
    simp only [run, hprepare]
    exact host.runPlugins_keeps r hP r.discover h

end Host

theorem attachmentsAt_sublist (site : Site) {patches more : List (String × PatchOutcome)}
    (h : patches.Sublist more) : (attachmentsAt site patches).Sublist (attachmentsAt site more) :=
  ((h.filterMap _).filter _).map _

namespace HookTable

variable {start t : HookTable}

/-- The patches that runs report, run after run, each on the table of the one before. -/
def reported (start : HookTable) : List Session → List (String × PatchOutcome)
  | [] => []
  | session :: rest => (session.run start).2.patches ++ (session.run start).1.hooks.reported rest

theorem follows_reported (start : HookTable) (sessions : List Session) :
    start.Follows (start.reported sessions) (start.afterSessions sessions) := by
  induction sessions generalizing start with
  | nil => exact .done
  | cons session rest ih => exact (session.run_follows start).append (ih _)

theorem stubsDistinct_afterSessions (hstart : start.StubsDistinct) (sessions : List Session) :
    (start.afterSessions sessions).StubsDistinct := by
  induction sessions generalizing start with
  | nil => exact hstart
  | cons session rest ih => exact ih (session.host.run_keeps stubsDistinct_kept session.packages hstart)

/-- What runs and the first patches of a further run have attached at a site, stub by stub. -/
theorem nodup_attachmentsAt (hstart : ∀ site, start.dispatchOrder site = []) (earlier : List Session)
    (session : Session) {tried : List (String × PatchOutcome)}
    (htried : tried <+: (session.run (start.afterSessions earlier)).2.patches) (site : Site) :
    ((attachmentsAt site (start.reported earlier ++ tried)).map AttachedStub.stub).Nodup := by
  have hdistinct : start.StubsDistinct := fun site => by rw [hstart]; exact List.nodup_nil
  have hafter := stubsDistinct_afterSessions hdistinct earlier
  have hend := session.host.run_keeps stubsDistinct_kept session.packages
    (w := { session.world with hooks := start.afterSessions earlier }) hafter
  have hfollows := (start.follows_reported earlier).append (session.run_follows _)
  have hall := ((hfollows.dispatchOrder_perm (hstart site)).map AttachedStub.stub).nodup_iff.mp (hend site)
  have hsublist := attachmentsAt_sublist site (htried.sublist.append_left (start.reported earlier))
  exact (hsublist.map AttachedStub.stub).nodup hall

/-- Runs share a table that began without stubs. At any moment, after any number of runs and of the patches
    that the next run tries, no descriptor stands twice at a site. Qualified names stand once each exactly if
    no two of the stubs that were attached there have one name split in two ways; so they do where every stub
    is split as its name is read. -/
theorem names_attached_once_iff (hstart : ∀ site, start.dispatchOrder site = []) (earlier : List Session)
    (session : Session) {tried : List (String × PatchOutcome)}
    (htried : tried <+: (session.run (start.afterSessions earlier)).2.patches)
    (ht : (start.afterSessions earlier).Follows tried t) (site : Site) :
    let attached := attachmentsAt site (start.reported earlier ++ tried)
    let names := (t.dispatchOrder site).map fun s => s.stub.display
    ((t.dispatchOrder site).map AttachedStub.stub).Nodup ∧
    (names.Nodup ↔ ∀ a ∈ attached, ∀ b ∈ attached, a.stub.display = b.stub.display → a.stub = b.stub) ∧
    ((∀ a ∈ attached, FunctionName.ofQualified? a.stub.display = some a.stub) → names.Nodup) := by
  intro attached names
  have hperm : (t.dispatchOrder site).Perm attached :=
    ((start.follows_reported earlier).append ht).dispatchOrder_perm (hstart site)
  have hstubs : (attached.map AttachedStub.stub).Nodup :=
    nodup_attachmentsAt hstart earlier session htried site
  have hnames : names.Nodup ↔
      ∀ a ∈ attached, ∀ b ∈ attached, a.stub.display = b.stub.display → a.stub = b.stub := by
    rw [(hperm.map _).nodup_iff, ← Function.comp_def FunctionName.display, ← List.map_map,
      List.nodup_map_iff_inj_on hstubs]
    simp only [List.forall_mem_map]
  refine ⟨(hperm.map _).nodup_iff.mpr hstubs, hnames, fun hread => hnames.mpr fun a ha b hb hdisplay => ?_⟩
  have ha := hread a ha
  rw [hdisplay, hread b hb] at ha
  exact (Option.some.inj ha).symm

end HookTable

/-! A plugin that patches one function of the host with methods of its own. -/

namespace Spelled

def jump : FunctionName := ⟨"Game", "Player", "Jump"⟩

def start : HookTable := .ofFunctions [jump]

def method (name : String) : MethodDef := ⟨0, name, .named "System" "Void", [], [], [], []⟩

def type : TypeDef :=
  ⟨"Mods.Hooks", "Zoom", some (.named "Patchwork" "Plugin"), false, false, [], [],
    [method "OnJump", method "OnFall"]⟩

def artifact : Artifact := (Artifact.ofImage ⟨"mods", [⟨"mods", [type]⟩]⟩ none).toOption.getD default

/-- A run in which the plugin names the given stubs. -/
def session (stubs : List FunctionName) : Session :=
  let stage : PatchStage := ⟨.returned (stubs.map (Patch.before jump))⟩
  let plugin : InitializedPlugin := ⟨fun data => ⟨data, [], .returned stage⟩, stage⟩
  let host : Host (SortedMap String Toml.Table) :=
    ⟨fun _ => .ok fun _ => .returned (.finish (.returned plugin)), .inMemory, [], none⟩
  ⟨_, host, ⟨start, [], .empty, [], [], []⟩, [⟨"zoom.cs", artifact⟩]⟩

theorem start_empty (site : Site) : start.dispatchOrder site = [] := rfl

def onJump : FunctionName := ⟨"Mods.Hooks", "Zoom", "OnJump"⟩

def onFall : FunctionName := ⟨"Mods.Hooks", "Zoom", "OnFall"⟩

/-- The first stub is named twice, and each stub is split as its name is read. -/
def careful : Session := session [onJump, onFall, onJump]

/-- The third patch repeats the first and is refused, so each of the two methods stands once at the site. -/
theorem names_attached_once_two_methods :
    let site : Site := ⟨jump, .before⟩
    let patches := (careful.run start).2.patches
    start.Follows patches (careful.run start).1.hooks ∧
      attachmentsAt site patches = [⟨onJump, 400, "zoom.cs"⟩, ⟨onFall, 400, "zoom.cs"⟩] ∧
      (∀ a ∈ attachmentsAt site patches, FunctionName.ofQualified? a.stub.display = some a.stub) ∧
      (((careful.run start).1.hooks.dispatchOrder site).map fun s => s.stub.display).Nodup := by
  intro site patches
  have hfollows := careful.run_follows start
  have hattached : attachmentsAt site patches =
      [⟨onJump, 400, "zoom.cs"⟩, ⟨onFall, 400, "zoom.cs"⟩] := by decide +kernel
  have hread : ∀ a ∈ attachmentsAt site patches,
      FunctionName.ofQualified? a.stub.display = some a.stub := by
    rw [hattached]
    decide +kernel
  obtain ⟨_, _, honce⟩ :=
    HookTable.names_attached_once_iff start_empty [] careful (List.prefix_refl _) hfollows site
  rw [HookTable.reported, List.nil_append] at honce
  exact ⟨hfollows, hattached, hread, honce hread⟩

/-- One method is attached twice: the second patch takes a part of the namespace for a part of the type name,
    and so names another descriptor with the same qualified name. -/
theorem split_name_attached_twice :
    let stubs : List FunctionName := [onJump, ⟨"Mods", "Hooks.Zoom", "OnJump"⟩]
    let chain := ((session stubs).run start).1.hooks.dispatchOrder ⟨jump, .before⟩
    (∀ site, start.dispatchOrder site = []) ∧ chain.map AttachedStub.stub = stubs ∧
      ¬ (chain.map fun s => s.stub.display).Nodup := by
  intro stubs chain
  have hstubs : chain.map AttachedStub.stub = stubs := by decide +kernel
  refine ⟨start_empty, hstubs, ?_⟩
  rw [← Function.comp_def FunctionName.display, ← List.map_map, hstubs]
  decide +kernel

end Spelled

end PluginHost
