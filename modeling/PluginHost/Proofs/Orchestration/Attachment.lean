import PluginHost.Proofs.Orchestration.PluginRun
import PluginHost.Proofs.Patching.Chain
/-!
Records and hook table.

A run leaves two things that are made apart: the records of its plugins, and the hook table. Main
statement: the table is what the records say. Every patch that was applied has put one stub into one chain,
in the order of the records, and no other patch has touched the table.
-/

namespace PluginHost

/-- The patches of a plugin, with the identity that it has. -/
def RuntimeRecord.patches (r : RuntimeRecord) : List (String × PatchOutcome) :=
  r.descriptors.map fun o => (r.identity, o)

/-- The patches of all plugins, in the order of the records. -/
def Outcome.patches (o : Outcome) : List (String × PatchOutcome) :=
  o.records.flatMap RuntimeRecord.patches

/-- What was attached if the outcome of a patch is to be believed. -/
def PatchOutcome.attachment? (identity : String) (o : PatchOutcome) : Option (Site × AttachedStub) :=
  match o.status, o.descriptor.target, o.descriptor.stub with
  | .applied, some target, some stub =>
    some (⟨target, o.descriptor.location⟩, ⟨stub, o.descriptor.effectivePriority, identity⟩)
  | _, _, _ => none

/-- What was attached at a site if the outcomes of patches are to be believed, the first first. -/
def attachmentsAt (site : Site) (patches : List (String × PatchOutcome)) : List AttachedStub :=
  ((patches.filterMap fun p => p.2.attachment? p.1).filter fun e => e.1 = site).map (·.2)

/-- The patches that were applied. -/
def appliedPatches (patches : List (String × PatchOutcome)) : List (String × PatchOutcome) :=
  patches.filter fun p => p.2.status = .applied

namespace HookTable

/-- The second table comes from the first by what the outcomes of patches say, one after another. A patch
    that was applied has attached its stub, and any other has left the table as it was. -/
inductive Follows : HookTable → List (String × PatchOutcome) → HookTable → Prop
  | done {t : HookTable} : Follows t [] t
  | applied {t u v : HookTable} {identity : String} {o : PatchOutcome} {e : Site × AttachedStub}
      {rest : List (String × PatchOutcome)} :
    o.status = .applied → o.attachment? identity = some e → t.Attaches u e.1 e.2 → Follows u rest v →
      Follows t ((identity, o) :: rest) v
  | untouched {t v : HookTable} {identity : String} {o : PatchOutcome}
      {rest : List (String × PatchOutcome)} :
    o.status ≠ .applied → Follows t rest v → Follows t ((identity, o) :: rest) v

namespace Follows

variable {t u v : HookTable} {patches more : List (String × PatchOutcome)}

theorem append (h : t.Follows patches u) (hmore : u.Follows more v) :
    t.Follows (patches ++ more) v := by
  induction h with
  | done => exact hmore
  | applied hstatus he hattaches _ ih => exact .applied hstatus he hattaches (ih hmore)
  | untouched hstatus _ ih => exact .untouched hstatus (ih hmore)

theorem functions (h : t.Follows patches u) : u.functions = t.functions := by
  induction h with
  | done => rfl
  | applied _ _ hattaches _ ih => exact ih.trans hattaches.functions
  | untouched _ _ ih => exact ih

theorem hookCount (h : t.Follows patches u) :
    u.hookCount = t.hookCount + (appliedPatches patches).length := by
  induction h with
  | done => rfl
  | @applied t u _ identity o _ rest hstatus _ hattaches _ ih =>
    have hcons : appliedPatches ((identity, o) :: rest) = (identity, o) :: appliedPatches rest :=
      List.filter_cons_of_pos (by simpa using hstatus)
    rw [ih, hattaches.hookCount, hcons, List.length_cons]
    omega
  | @untouched _ _ identity o rest hstatus _ ih =>
    have hcons : appliedPatches ((identity, o) :: rest) = appliedPatches rest :=
      List.filter_cons_of_neg (by simpa using hstatus)
    rw [ih, hcons]

theorem attachment?_eq_none {identity : String} {o : PatchOutcome} (h : o.status ≠ .applied) :
    o.attachment? identity = none := by
  rw [PatchOutcome.attachment?]
  split
  · next happlied _ _ => exact absurd happlied h
  · rfl

theorem attachmentsAt_cons (site : Site) (identity : String) (o : PatchOutcome)
    (rest : List (String × PatchOutcome)) :
    attachmentsAt site ((identity, o) :: rest) =
      (((o.attachment? identity).filter fun e => e.1 = site).map (·.2)).toList ++
        attachmentsAt site rest := by
  cases he : o.attachment? identity with
  | none => simp [attachmentsAt, he]
  | some e =>
    by_cases hsite : e.1 = site <;>
      simp [attachmentsAt, he, Option.filter, hsite]

theorem dispatchOrder (h : t.Follows patches u) (site : Site) :
    u.dispatchOrder site =
      (attachmentsAt site patches).foldl (fun chain s => s.joining chain) (t.dispatchOrder site) := by
  induction h with
  | done => rfl
  | @applied t u _ identity o e rest _ he hattaches _ ih =>
    rw [ih, attachmentsAt_cons, he]
    by_cases hsite : e.1 = site
    · subst hsite
      simp [Option.filter, hattaches.chain]
    · simp [Option.filter, hsite, hattaches.others site (Ne.symm hsite)]
  | untouched hstatus _ ih =>
    rw [ih, attachmentsAt_cons, attachment?_eq_none hstatus]
    rfl

end Follows

end HookTable

namespace Host

variable {σ : Type} (host : Host σ) (r : Registry Activator)

/-- Whichever check a patch fails, it leaves the table alone; otherwise it has attached its stub. -/
theorem applyPatch_follows (identity : String) (hooks : HookTable) (p : Patch) :
    hooks.Follows [(identity, (applyPatch r identity hooks p).2)] (applyPatch r identity hooks p).1 := by
  rw [applyPatch]
  split
  · next target stub htarget hstub =>
    split
    · exact .untouched nofun .done
    · split
      · exact .untouched nofun .done
      · split
        · next u hok =>
          have he : (⟨p, .applied⟩ : PatchOutcome).attachment? identity =
              some (⟨target, p.location⟩, ⟨stub, p.effectivePriority, identity⟩) := by
            rw [PatchOutcome.attachment?, htarget, hstub]
          exact .applied rfl he (HookTable.attaches_of_intercept hok) .done
        · exact .untouched nofun .done
  · exact .untouched nofun .done

theorem applyPatches_follows (identity : String) (hooks : HookTable) (patches : List Patch) :
    hooks.Follows ((applyPatches r identity hooks patches).2.map fun o => (identity, o))
      (applyPatches r identity hooks patches).1 := by
  induction patches generalizing hooks with
  | nil => exact .done
  | cons p rest ih =>
    rw [applyPatches]
    exact (applyPatch_follows r identity hooks p).append (ih _)

theorem runPlugin_follows (w : World σ) (plugin : DiscoveredPlugin Activator) :
    w.hooks.Follows (host.runPlugin r w plugin).2.patches (host.runPlugin r w plugin).1.hooks := by
  have hfollows := applyPatches_follows r (host.runPlugin r w plugin).2.identity w.hooks
    (host.runPlugin r w plugin).2.declared
  rw [host.runPlugin_applies r w plugin] at hfollows
  exact hfollows

theorem runPlugins_follows (w : World σ) (plugins : List (DiscoveredPlugin Activator)) :
    w.hooks.Follows ((host.runPlugins r w plugins).2.flatMap RuntimeRecord.patches)
      (host.runPlugins r w plugins).1.hooks := by
  induction plugins generalizing w with
  | nil => exact .done
  | cons plugin rest ih =>
    rw [runPlugins]
    exact (host.runPlugin_follows r w plugin).append (ih _)

theorem run_follows (w : World σ) (packages : List Package) :
    w.hooks.Follows (host.run w packages).2.patches (host.run w packages).1.hooks := by
  cases hprepare : host.prepare w.hooks packages with
  | error fault =>
    simp only [run, hprepare]
    exact .done
  | ok r =>
    simp only [run, hprepare]
    exact host.runPlugins_follows r w r.discover

/-- Whatever table a run begins with and however it ends, the table follows the outcomes of its patches
    one by one. So every chain is the chain from before with the stubs that were applied at its site put
    in, the first of the records first; the functions are the same; and there are as many stubs more as
    patches were applied. -/
theorem run_hooks_agree (w : World σ) (packages : List Package) :
    let done := host.run w packages
    w.hooks.Follows done.2.patches done.1.hooks ∧
    (∀ site, done.1.hooks.dispatchOrder site =
      (attachmentsAt site done.2.patches).foldl (fun chain s => s.joining chain)
        (w.hooks.dispatchOrder site)) ∧
    done.1.hooks.functions = w.hooks.functions ∧
    done.1.hooks.hookCount = w.hooks.hookCount + (appliedPatches done.2.patches).length := by
  have h := host.run_follows w packages
  exact ⟨h, h.dispatchOrder, h.functions, h.hookCount⟩

end Host

end PluginHost
