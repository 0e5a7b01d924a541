import PluginHost.Proofs.Orchestration.Interleaving
import PluginHost.Proofs.Orchestration.Repetition
import PluginHost.Proofs.Patching.History
/-!
A batch that is run again on the table that its first run left.

A patch that was applied finds its own stub at its target the second time, and a patch that was refused finds
whatever it was refused for. Main statement: if the calls of plugin code go as they went before, the second run
attaches nothing, and every plugin and every other patch fares as in the first run. Stubs that were attached in
between change nothing about this.
-/

namespace PluginHost

/-! Tables. -/

namespace HookTable

variable {t u v : HookTable} {site : Site} {s : AttachedStub}

/-- The second table has the same functions, and every stub of the first stands in it at the same site. -/
structure Within (t u : HookTable) : Prop where
  functions : u.functions = t.functions
  stubs : ∀ site, (t.dispatchOrder site).map AttachedStub.stub ⊆ (u.dispatchOrder site).map AttachedStub.stub

theorem Within.refl (t : HookTable) : t.Within t := ⟨rfl, fun _ => List.Subset.refl _⟩

theorem Within.trans (h : t.Within u) (h' : u.Within v) : t.Within v :=
  ⟨h'.functions.trans h.functions, fun site => List.Subset.trans (h.stubs site) (h'.stubs site)⟩

/-- To stand within a table stays with an attachment to that table. -/
theorem within_kept (t : HookTable) : KeptByAttachment t.Within := by
  intro u v site s hok h
  have hattaches := attaches_of_intercept hok
  refine h.trans ⟨hattaches.functions, fun other => ?_⟩
  by_cases hother : other = site
  · subst hother
    rw [hattaches.chain]
    exact fun stub hstub => ((s.joining_perm _).map _).mem_iff.mpr (List.mem_cons_of_mem _ hstub)
  · rw [hattaches.others other hother]
    exact List.Subset.refl _

theorem Within.run_intercepts (h : t.Within u) (attempts : List (Site × AttachedStub)) :
    t.Within (u.run (attempts.map fun e => .intercept e.1 e.2)) := by
  induction attempts generalizing u with
  | nil => exact h
  | cons e rest ih =>
    refine ih ?_
    cases hintercept : u.intercept e.1 e.2 with
    | error fault =>
      rw [apply_of_error hintercept]
      exact h
    | ok next =>
      rw [apply_of_ok hintercept]
      exact within_kept t hintercept h

theorem intercept_eq_unknownTarget (h : site.target ∉ t.functions) :
    t.intercept site s = .error (.unknownTarget site.target) := by
  rw [intercept, if_pos h]

theorem intercept_eq_duplicateStub (h : site.target ∈ t.functions)
    (hstub : s.stub ∈ (t.dispatchOrder site).map AttachedStub.stub) :
    t.intercept site s = .error (.duplicateStub site.target s.stub) := by
  obtain ⟨a, ha, heq⟩ := List.mem_map.mp hstub
  rcases t.intercept_cases site s with ⟨hunknown, _⟩ | ⟨_, _, hrefused⟩ | ⟨_, hnew, _⟩
  · exact absurd h hunknown
  · exact hrefused
  · exact absurd heq (hnew a ha)

/-- What was attached cannot be attached again. -/
theorem intercept_of_attached (hok : t.intercept site s = .ok u) (h : u.Within v) :
    v.intercept site s = .error (.duplicateStub site.target s.stub) := by
  rcases t.intercept_cases site s with ⟨_, hrefused⟩ | ⟨_, _, hrefused⟩ | ⟨htarget, _, w, hw, hattaches⟩
  · rw [hrefused] at hok
    cases hok
  · rw [hrefused] at hok
    cases hok
  · rw [hw] at hok
    cases hok
    refine intercept_eq_duplicateStub (by rwa [h.functions, hattaches.functions]) (h.stubs site ?_)
    rw [hattaches.chain]
    exact ((s.joining_perm _).map _).mem_iff.mpr List.mem_cons_self

/-- What was refused is refused again, for the same reason. -/
theorem intercept_of_refused {fault : HookFault} (herror : t.intercept site s = .error fault) (h : t.Within v) :
    v.intercept site s = .error fault := by
  rcases t.intercept_cases site s with ⟨hunknown, hrefused⟩ | ⟨htarget, ⟨a, ha, heq⟩, hrefused⟩ | ⟨_, _, w, hw, _⟩
  · rw [hrefused] at herror
    cases herror
    exact intercept_eq_unknownTarget (by rwa [h.functions])
  · rw [hrefused] at herror
    cases herror
    exact intercept_eq_duplicateStub (by rwa [h.functions]) (h.stubs site (List.mem_map.mpr ⟨a, ha, heq⟩))
  · rw [hw] at herror
    cases herror

end HookTable

/-! Patches. -/

/-- What the patch comes to if it is tried again while its stub stands where it was attached. -/
def PatchOutcome.repeated (o : PatchOutcome) : PatchOutcome :=
  match o.status, o.descriptor.target, o.descriptor.stub with
  | .applied, some target, some stub =>
    ⟨o.descriptor, .interceptionFailed (HookFault.duplicateStub target stub).message⟩
  | _, _, _ => o

namespace Host

variable (r : Registry Activator) {t u v : HookTable}

/-- A patch that is tried again leaves the table as it is. -/
theorem applyPatch_again (identity : String) (p : Patch) (h : (applyPatch r identity t p).1.Within v) :
    applyPatch r identity v p = (v, (applyPatch r identity t p).2.repeated) := by
  rw [applyPatch] at h ⊢
  rw [applyPatch]
  split
  · next target stub htarget hstub =>
    rw [htarget, hstub] at h
    dsimp only at h
    split
    · rfl
    · next hunprotected =>
      rw [hunprotected] at h
      split
      · rfl
      · next hresolves =>
        rw [if_neg hresolves] at h
        cases hintercept : t.intercept ⟨target, p.location⟩ ⟨stub, p.effectivePriority, identity⟩ with
        | ok next =>
          rw [hintercept] at h
          simp only [HookTable.intercept_of_attached hintercept h, PatchOutcome.repeated, htarget, hstub]
        | error fault =>
          rw [hintercept] at h
          simp only [HookTable.intercept_of_refused hintercept h, PatchOutcome.repeated]
  · rfl

theorem applyPatches_again (identity : String) {patches : List Patch}
    (h : (applyPatches r identity t patches).1.Within v) :
    applyPatches r identity v patches = (v, (applyPatches r identity t patches).2.map PatchOutcome.repeated) := by
  induction patches generalizing t with
  | nil => rfl
  | cons p rest ih =>
    rw [applyPatches] at h ⊢
    have hfirst : (applyPatch r identity t p).1.Within v :=
      (applyPatches_keeps r (HookTable.within_kept _) identity rest (.refl _)).trans h
    rw [applyPatches, applyPatch_again r identity p hfirst]
    dsimp only
    rw [ih h]
    rfl

end Host

/-! Records. -/

/-- The second table comes from the first when the patches in records are applied one after another, and each
    outcome is what came of that. -/
inductive Applies (r : Registry Activator) : HookTable → List RuntimeRecord → HookTable → Prop
  | done {t : HookTable} : Applies r t [] t
  | record {t u v : HookTable} {record : RuntimeRecord} {rest : List RuntimeRecord} :
    Host.applyPatches r record.identity t record.declared = (u, record.descriptors) → Applies r u rest v →
      Applies r t (record :: rest) v

/-- What a record says of the plugin, but for the outcomes of its patches. -/
def RuntimeRecord.account (record : RuntimeRecord) : String × String × PluginState × List Patch :=
  (record.identity, record.typeName, record.state, record.declared)

/-- The patch cannot be applied to any table. -/
def PatchStatus.isInadmissible : PatchStatus → Bool
  | .nullDescriptor | .protectedNamespace _ => true
  | .applied | .interceptionFailed _ => false

/-- The patches that could not be applied to any table, with the identities of their plugins. -/
def inadmissiblePatches (patches : List (String × PatchOutcome)) : List (String × PatchOutcome) :=
  patches.filter fun p => p.2.status.isInadmissible

theorem PatchOutcome.repeated_cases (o : PatchOutcome) :
    o.repeated = o ∨ o.status.isInadmissible = false ∧ o.repeated.status.isInadmissible = false := by
  rw [repeated]
  split
  · next hstatus _ _ =>
    rw [hstatus]
    exact Or.inr ⟨rfl, rfl⟩
  · exact Or.inl rfl

/-- The second record is the first but for the patches that were applied. -/
structure RuntimeRecord.Repeats (first second : RuntimeRecord) : Prop where
  identity : second.identity = first.identity
  typeName : second.typeName = first.typeName
  state : second.state = first.state
  descriptors : second.descriptors = first.descriptors.map PatchOutcome.repeated

namespace RuntimeRecord.Repeats

variable {records others : List RuntimeRecord}

theorem patches_eq (h : List.Forall₂ Repeats records others) :
    others.flatMap patches = (records.flatMap patches).map fun p => (p.1, p.2.repeated) := by
  induction h with
  | nil => rfl
  | @cons first second _ _ hfirst _ ih =>
    have hpatches : second.patches = first.patches.map fun p => (p.1, p.2.repeated) := by
      rw [patches, patches, hfirst.identity, hfirst.descriptors, List.map_map, List.map_map]
      rfl
    rw [List.flatMap_cons, List.flatMap_cons, List.map_append, ih, hpatches]

theorem inadmissiblePatches_eq (h : List.Forall₂ Repeats records others) :
    inadmissiblePatches (others.flatMap patches) = inadmissiblePatches (records.flatMap patches) := by
  rw [patches_eq h]
  generalize records.flatMap patches = given
  induction given with
  | nil => rfl
  | cons p rest ih =>
    rw [inadmissiblePatches, inadmissiblePatches] at ih ⊢
    rw [List.map_cons, List.filter_cons, List.filter_cons, ih]
    rcases p.2.repeated_cases with hsame | ⟨hstatus, hrepeated⟩
    · rw [hsame]
    · rw [hstatus, hrepeated]
      rfl

end RuntimeRecord.Repeats

namespace Applies

variable {r : Registry Activator} {t u v w : HookTable} {records others : List RuntimeRecord}

theorem within (h : Applies r t records u) : t.Within u := by
  induction h with
  | done => exact .refl _
  | @record t u v record rest happlied _ ih =>
    have hkept := Host.applyPatches_keeps r (HookTable.within_kept t) record.identity record.declared (.refl t)
    rw [happlied] at hkept
    exact hkept.trans ih

/-- The patches of one run, applied once more to what they left. -/
theorem again (h : Applies r t records u) (hagain : Applies r v others w)
    (haccounts : others.map RuntimeRecord.account = records.map RuntimeRecord.account) (hwithin : u.Within v) :
    w = v ∧ List.Forall₂ RuntimeRecord.Repeats records others := by
  induction h generalizing others v with
  | done =>
    rw [List.map_nil, List.map_eq_nil_iff] at haccounts
    subst haccounts
    cases hagain
    exact ⟨rfl, .nil⟩
  | @record t u x record rest happlied hrest ih =>
    cases hagain with
    | done => cases haccounts
    | @record _ y _ other more hother hmore =>
      rw [List.map_cons, List.map_cons, List.cons.injEq] at haccounts
      obtain ⟨haccount, haccounts⟩ := haccounts
      obtain ⟨hidentity, htypeName, hstate, hdeclared⟩ :
          other.identity = record.identity ∧ other.typeName = record.typeName ∧ other.state = record.state ∧
            other.declared = record.declared := by
        simpa only [RuntimeRecord.account, Prod.mk.injEq] using haccount
      have hleft : (Host.applyPatches r record.identity t record.declared).1.Within v := by
        rw [happlied]
        exact hrest.within.trans hwithin
      have hrepeated := Host.applyPatches_again r record.identity hleft
      rw [happlied, ← hidentity, ← hdeclared, hother, Prod.mk.injEq] at hrepeated
      obtain ⟨rfl, hdescriptors⟩ := hrepeated
      obtain ⟨hend, hrecords⟩ := ih hmore haccounts hwithin
      exact ⟨hend, .cons ⟨hidentity, htypeName, hstate, hdescriptors⟩ hrecords⟩

end Applies

/-! Calls. -/

namespace Event

def isCall : Event → Bool
  | called .. => true
  | loaded .. | saved .. => false

/-- The first call of a plugin's code. -/
def isConstruction : Event → Bool
  | called _ _ .construction _ => true
  | _ => false

/-- What the last call of a plugin's code says of the plugin. If that is a call that returned before the last
    stage, the savedata was not handed out. -/
def account? : Event → Option (String × String × PluginState × List Patch)
  | called identity typeName .prePatch (.returned patches) => some (identity, typeName, .patched, patches)
  | called identity typeName _ (.returned _) => some (identity, typeName, .failed .configurationLoad, [])
  | called identity typeName stage (.failed _) => some (identity, typeName, .failed stage, [])
  | loaded .. | saved .. => none

end Event

/-- A list that begins with the only element of its kind. -/
def BeginsWith {α : Type} (p : α → Bool) (xs : List α) : Prop :=
  ∃ first rest, xs = first :: rest ∧ p first = true ∧ ∀ x ∈ rest, p x = false

/-- Lists that begin so can be told apart after they were joined. -/
theorem flatten_inj_of_beginsWith {α : Type} {p : α → Bool} {xs ys : List (List α)}
    (hx : ∀ x ∈ xs, BeginsWith p x) (hy : ∀ y ∈ ys, BeginsWith p y) (h : xs.flatten = ys.flatten) : xs = ys := by
  have hend : ∀ zs : List (List α), (∀ z ∈ zs, BeginsWith p z) → zs.flatten.takeWhile (fun a => !p a) = [] := by
    intro zs hzs
    cases zs with
    | nil => rfl
    | cons z rest =>
      obtain ⟨first, more, rfl, hfirst, _⟩ := hzs z List.mem_cons_self
      rw [List.flatten_cons, List.cons_append, List.takeWhile_cons_of_neg (by simp [hfirst])]
  induction xs generalizing ys with
  | nil =>
    cases ys with
    | nil => rfl
    | cons y _ =>
      obtain ⟨first, more, rfl, _⟩ := hy y List.mem_cons_self
      cases h
  | cons x xs ih =>
    obtain ⟨first, rest, rfl, _, hrest⟩ := hx x List.mem_cons_self
    cases ys with
    | nil => cases h
    | cons y ys =>
      obtain ⟨first', rest', rfl, _, hrest'⟩ := hy y List.mem_cons_self
      have hxs : ∀ x ∈ xs, BeginsWith p x := fun x hx' => hx x (List.mem_cons_of_mem _ hx')
      have hys : ∀ y ∈ ys, BeginsWith p y := fun y hy' => hy y (List.mem_cons_of_mem _ hy')
      rw [List.flatten_cons, List.flatten_cons, List.cons_append, List.cons_append, List.cons.injEq] at h
      obtain ⟨rfl, htail⟩ := h
      -- What stands before the next beginning is the rest of the first list.
      have hsame : rest = rest' := by
        have hcut := congrArg (List.takeWhile fun a => !p a) htail
        rwa [List.takeWhile_append_of_pos (by simpa using hrest), List.takeWhile_append_of_pos (by simpa using hrest'),
          hend xs hxs, hend ys hys, List.append_nil, List.append_nil] at hcut
      subst hsame
      rw [ih hxs hys (List.append_cancel_left htail)]

/-- The calls of one plugin begin with its construction, and the last of them tells what the record says. -/
theorem Ran.calls {identity typeName : String} {events : List Event} {record : RuntimeRecord}
    (h : Ran identity typeName events record) :
    BeginsWith Event.isConstruction (events.filter Event.isCall) ∧
      (events.filter Event.isCall).getLast?.bind Event.account? = some record.account := by
  cases h with
  | construction hstage =>
    exact ⟨⟨_, _, rfl, rfl, nofun⟩, by rw [Host.failedRecord, hstage]; rfl⟩
  | initialization info hstage =>
    exact ⟨⟨_, _, rfl, rfl, by simp [Event.isConstruction]⟩, by rw [Host.failedRecord, hstage]; rfl⟩
  | configuration hconfigured =>
    cases hconfigured with
    | refused huses fault => exact ⟨⟨_, _, rfl, rfl, by simp [Event.isConstruction]⟩, rfl⟩
    | failed huses hstage =>
      exact ⟨⟨_, _, rfl, rfl, by simp [Event.isConstruction]⟩, by rw [Host.failedRecord, hstage]; rfl⟩
  | prePatch hconfigured hstage =>
    cases hconfigured with
    | skipped huses =>
      exact ⟨⟨_, _, rfl, rfl, by simp [Event.isConstruction]⟩, by rw [Host.failedRecord, hstage]; rfl⟩
    | returned huses =>
      exact ⟨⟨_, _, rfl, rfl, by simp [Event.isConstruction]⟩, by rw [Host.failedRecord, hstage]; rfl⟩
  | patched outcomes hconfigured =>
    cases hconfigured with
    | skipped huses => exact ⟨⟨_, _, rfl, rfl, by simp [Event.isConstruction]⟩, rfl⟩
    | returned huses => exact ⟨⟨_, _, rfl, rfl, by simp [Event.isConstruction]⟩, rfl⟩

/-- The events of plugins, with the record of each. -/
def Courses : List (List Event) → List RuntimeRecord → Prop :=
  List.Forall₂ fun events record => Ran record.identity record.typeName events record

namespace Courses

variable {events others : List (List Event)} {records more : List RuntimeRecord}

theorem beginsWith (h : Courses events records) :
    ∀ calls ∈ events.map (List.filter Event.isCall), BeginsWith Event.isConstruction calls := by
  induction h with
  | nil => exact List.forall_mem_nil _
  | cons hran _ ih => exact List.forall_mem_cons.mpr ⟨hran.calls.1, ih⟩

theorem accounts (h : Courses events records) :
    (events.map (List.filter Event.isCall)).map (fun calls => calls.getLast?.bind Event.account?) =
      (records.map RuntimeRecord.account).map some := by
  induction h with
  | nil => rfl
  | cons hran _ ih =>
    rw [List.map_cons, List.map_cons, List.map_cons, List.map_cons, hran.calls.2, ih]

/-- The calls of a run tell what its records say, but for the outcomes of patches. -/
theorem accounts_eq (h : Courses events records) (h' : Courses others more)
    (hcalls : others.flatten.filter Event.isCall = events.flatten.filter Event.isCall) :
    more.map RuntimeRecord.account = records.map RuntimeRecord.account := by
  rw [List.filter_flatten, List.filter_flatten] at hcalls
  have hsame := flatten_inj_of_beginsWith h'.beginsWith h.beginsWith hcalls
  have haccounts := h'.accounts
  rw [hsame, h.accounts] at haccounts
  exact (List.map_injective_iff.mpr (Option.some_injective _) haccounts).symm

end Courses

/-- The calls of plugin code since an earlier world. -/
def World.callsSince {σ : Type} (u w : World σ) : List Event :=
  (u.events.drop w.events.length).filter Event.isCall

/-! Runs. -/

namespace Host

variable {σ : Type} (host : Host σ) (r : Registry Activator)

variable {host r}

theorem Interleaved.applies {w u : World σ} {turns : List (Turn σ)} (h : host.Interleaved r w turns u) :
    Applies r w.hooks (host.recordsOf r turns) u.hooks := by
  induction h with
  | done => exact .done
  | turn _ ih => exact .record (host.runPlugin_applies r _ _) ih
  | landing _ _ ih => exact ih

theorem Interleaved.courses {w u : World σ} {turns : List (Turn σ)} (h : host.Interleaved r w turns u) :
    ∃ events, u.events = w.events ++ events.flatten ∧ Courses events (host.recordsOf r turns) := by
  induction h with
  | done => exact ⟨[], (List.append_nil _).symm, .nil⟩
  | @turn w u p turns _ ih =>
    obtain ⟨rest, hrest, hcourses⟩ := ih
    obtain ⟨events, hevents, _, hran⟩ := host.runPlugin_ran r w p
    refine ⟨events :: rest, ?_, .cons ?_ hcourses⟩
    · rw [hrest, hevents, List.flatten_cons, List.append_assoc]
    · rwa [hran.identity, hran.typeName]
  | landing _ _ ih => exact ih

/-- Whatever saves land while either run goes on: if plugin code is called as before on a table in which all stands
    that the first run left, the table stays as it is and each record is that of the first run, but for the
    patches that were applied. -/
theorem Interleaved.again {w u v x : World σ} {turns others : List (Turn σ)}
    (first : host.Interleaved r w turns u) (second : host.Interleaved r v others x)
    (hwithin : u.hooks.Within v.hooks) (hcalls : x.callsSince v = u.callsSince w) :
    x.hooks = v.hooks ∧ List.Forall₂ RuntimeRecord.Repeats (host.recordsOf r turns) (host.recordsOf r others) := by
  obtain ⟨events, hevents, hcourses⟩ := first.courses
  obtain ⟨events', hevents', hcourses'⟩ := second.courses
  rw [World.callsSince, World.callsSince, hevents, hevents', List.drop_left, List.drop_left] at hcalls
  exact first.applies.again second.applies (hcourses.accounts_eq hcourses' hcalls) hwithin

theorem prepare_congr (host : Host σ) {t u : HookTable} (h : u.functions = t.functions) (packages : List Package) :
    host.prepare u packages = host.prepare t packages := by
  rw [prepare, prepare, createEngine, createEngine, HookTable.isPatchable, HookTable.isPatchable, h]

theorem run_of_prepare (host : Host σ) {w : World σ} {packages : List Package} {r : Registry Activator}
    (h : host.prepare w.hooks packages = .ok r) :
    host.run w packages =
      ((host.runPlugins r w r.discover).1, ⟨.success, none, (host.runPlugins r w r.discover).2⟩) := by
  rw [run, h]

theorem run_repeats (host : Host σ) {w v : World σ} {packages : List Package}
    (hwithin : (host.run w packages).1.hooks.Within v.hooks)
    (hcalls : (host.run v packages).1.callsSince v = (host.run w packages).1.callsSince w) :
    (host.run v packages).1.hooks = v.hooks ∧ (host.run v packages).2.result = (host.run w packages).2.result ∧
      List.Forall₂ RuntimeRecord.Repeats (host.run w packages).2.records (host.run v packages).2.records := by
  have hfunctions : v.hooks.functions = w.hooks.functions :=
    hwithin.functions.trans (host.run_follows w packages).functions
  have hprepared := host.prepare_congr hfunctions packages
  cases hprepare : host.prepare w.hooks packages with
  | error fault =>
    rw [hprepare] at hprepared
    simp only [run, hprepare, hprepared, List.forall₂_nil_left_iff, and_self]
  | ok r =>
    rw [hprepare] at hprepared
    rw [host.run_of_prepare hprepare, host.run_of_prepare hprepared] at hcalls ⊢
    rw [host.run_of_prepare hprepare] at hwithin
    obtain ⟨turns, _, hrecords, hfirst⟩ := host.runPlugins_interleaved r w r.discover
    obtain ⟨others, _, hothers, hsecond⟩ := host.runPlugins_interleaved r v r.discover
    obtain ⟨hkept, hrepeats⟩ := hfirst.again hsecond hwithin hcalls
    rw [hrecords, hothers] at hrepeats
    exact ⟨hkept, rfl, hrepeats⟩

/-- A batch is run again on the table that its first run left, or that was left to others since, who attached stubs
    but neither took any away nor added functions. If the calls of plugin code go in the second run as in the first,
    the second run changes no chain and reports no patch as applied. It ends as the first did, with the same plugins
    in the same states, and the same patches lack a side or are refused for their target; but for the patches that
    were applied, all outcomes are the same. -/
theorem run_again (host : Host σ) {w v : World σ} {packages : List Package} {attempts : List (Site × AttachedStub)}
    (hhooks : v.hooks = (host.run w packages).1.hooks.run (attempts.map fun e => .intercept e.1 e.2))
    (hcalls : (host.run v packages).1.callsSince v = (host.run w packages).1.callsSince w) :
    let first := host.run w packages
    let second := host.run v packages
    (∀ site, second.1.hooks.dispatchOrder site = v.hooks.dispatchOrder site) ∧
    appliedPatches second.2.patches = [] ∧
    second.2.result = first.2.result ∧
    inadmissiblePatches second.2.patches = inadmissiblePatches first.2.patches ∧
    List.Forall₂ RuntimeRecord.Repeats first.2.records second.2.records := by
  intro first second
  have hwithin : first.1.hooks.Within v.hooks := hhooks ▸ (HookTable.Within.refl _).run_intercepts attempts
  obtain ⟨hkept, hresult, hrecords⟩ := host.run_repeats hwithin hcalls
  have hcount := (host.run_follows v packages).hookCount
  have hnone : (appliedPatches second.2.patches).length = 0 := by
    rw [hkept] at hcount
    exact Nat.left_eq_add.mp hcount
  exact ⟨fun site => congrArg (HookTable.dispatchOrder · site) hkept, List.length_eq_zero_iff.mp hnone, hresult,
    RuntimeRecord.Repeats.inadmissiblePatches_eq hrecords, hrecords⟩

end Host

/-! Two plugins that want to run the same method before a function of the host. -/

namespace Reapplied

def jump : FunctionName := ⟨"Game", "Player", "Jump"⟩

def onJump (typeName : String) : FunctionName := ⟨"Mods", typeName, "OnJump"⟩

def package (identity typeName : String) : Package :=
  let method : MethodDef := ⟨0, "OnJump", .named "System" "Void", [], [], [], []⟩
  let type : TypeDef := ⟨"Mods", typeName, some (.named "Patchwork" "Plugin"), false, false, [], [], [method]⟩
  ⟨identity, (Artifact.ofImage ⟨typeName, [⟨typeName, [type]⟩]⟩ none).toOption.getD default⟩

def batch : List Package := [package "zoom.cs" "Zoom", package "glide.cs" "Glide"]

/-- The first plugin patches a protected type as well; the second declares a patch without a target. -/
def declaredBy : String → List Patch
  | "Mods.Zoom" => [.before jump (onJump "Zoom"), .before ⟨"Patchwork", "Core", "Run"⟩ (onJump "Zoom")]
  | _ => [.before jump (onJump "Zoom"), ⟨none, some (onJump "Glide"), .before, none⟩, .after jump (onJump "Glide")]

def code (typeName : String) : Completion Initialization :=
  let stage : PatchStage := ⟨.returned (declaredBy typeName)⟩
  .returned (.finish (.returned ⟨fun data => ⟨data, [], .returned stage⟩, stage⟩))

def host : Host (SortedMap String Toml.Table) := ⟨fun _ => .ok code, .inMemory, [], none⟩

def start : World (SortedMap String Toml.Table) := ⟨.ofFunctions [jump], [], .empty, [], [], []⟩

/-- In between, someone else attaches a stub to the same function. -/
def between : List (Site × AttachedStub) := [(⟨jump, .before⟩, ⟨⟨"Tools", "Trace", "Enter"⟩, 500, "trace.cs"⟩)]

/-- What the second run finds: the saves of the first have landed. -/
def later : World (SortedMap String Toml.Table) :=
  { host.carryOutSaves (host.run start batch).1 with
    hooks := (host.run start batch).1.hooks.run (between.map fun e => .intercept e.1 e.2) }

end Reapplied

open Reapplied in
/-- Two stubs are attached in the first run, and one in between; the second run adds none. -/
theorem Host.run_again_two_plugins :
    let first := host.run start batch
    let second := host.run later batch
    later.hooks = first.1.hooks.run (between.map fun e => .intercept e.1 e.2) ∧
      second.1.callsSince later = first.1.callsSince start ∧
      (appliedPatches first.2.patches).length = 2 ∧ later.hooks.hookCount = 3 ∧
      (inadmissiblePatches first.2.patches).length = 2 ∧
      (∀ site, second.1.hooks.dispatchOrder site = later.hooks.dispatchOrder site) ∧
      appliedPatches second.2.patches = [] ∧
      second.2.result = first.2.result ∧
      inadmissiblePatches second.2.patches = inadmissiblePatches first.2.patches ∧
      List.Forall₂ RuntimeRecord.Repeats first.2.records second.2.records := by
  have hhooks : later.hooks = (host.run start batch).1.hooks.run (between.map fun e => .intercept e.1 e.2) := by
    rw [later]
  obtain ⟨hcalls, happlied, hcount, hinadmissible⟩ :
      (host.run later batch).1.callsSince later = (host.run start batch).1.callsSince start ∧
        (appliedPatches (host.run start batch).2.patches).length = 2 ∧ later.hooks.hookCount = 3 ∧
        (inadmissiblePatches (host.run start batch).2.patches).length = 2 := by
    decide +kernel
  exact ⟨hhooks, hcalls, happlied, hcount, hinadmissible, Host.run_again host hhooks hcalls⟩

end PluginHost
