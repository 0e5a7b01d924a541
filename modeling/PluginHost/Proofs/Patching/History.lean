import Mathlib.Algebra.BigOperators.Group.Finset.Piecewise
import PluginHost.Proofs.Patching.Chain
/-!
The history of a hook table.

A history is any sequence of operations. What it leaves can be told from a log of the attachments that
were accepted and whose owner was not detached since. Main statement: the stubs at a site run in the order
to which sorting brings that log, an attachment is refused for one of two reasons and for no other, and the
counts are those of the log.
-/

namespace PluginHost

/-- One operation on a hook table. -/
inductive HookStep where
  | intercept (site : Site) (s : AttachedStub)
  | addFunction (f : FunctionName)
  | detachOwner (owner : String)

/-- The table after an operation. An attachment that is refused leaves it as it was. -/
def HookTable.apply (t : HookTable) : HookStep → HookTable
  | .intercept site s => (t.intercept site s).toOption.getD t
  | .addFunction f => t.addFunction f
  | .detachOwner owner => (t.detachOwner owner).1

theorem HookTable.apply_of_ok {t u : HookTable} {site : Site} {s : AttachedStub}
    (h : t.intercept site s = .ok u) : t.apply (.intercept site s) = u := by
  rw [apply, h]
  rfl

theorem HookTable.apply_of_error {t : HookTable} {site : Site} {s : AttachedStub} {fault : HookFault}
    (h : t.intercept site s = .error fault) : t.apply (.intercept site s) = t := by
  rw [apply, h]
  rfl

/-- What a history has left: the functions that can be patched, and the attachments in order of
    acceptance. -/
structure HookLog where
  functions : List FunctionName
  attachments : List (Site × AttachedStub)

namespace HookLog

/-- The stubs that were attached at a site, the first accepted first. -/
def stubsAt (log : HookLog) (site : Site) : List AttachedStub :=
  (log.attachments.filter fun e => e.1 = site).map (·.2)

/-- The target can be patched, and the stub does not stand at the site already. -/
def Accepts (log : HookLog) (site : Site) (s : AttachedStub) : Prop :=
  site.target ∈ log.functions ∧ ∀ a ∈ log.stubsAt site, a.stub ≠ s.stub

instance (log : HookLog) (site : Site) (s : AttachedStub) : Decidable (log.Accepts site s) :=
  inferInstanceAs (Decidable (_ ∧ _))

def record (log : HookLog) : HookStep → HookLog
  | .intercept site s =>
    if log.Accepts site s then { log with attachments := log.attachments ++ [(site, s)] } else log
  | .addFunction f => { log with functions := log.functions ++ [f] }
  | .detachOwner owner =>
    { log with attachments := log.attachments.filter fun e => e.2.owner ≠ owner }

/-- The log of a history that began with a table without stubs. -/
def ofSteps (functions : List FunctionName) (steps : List HookStep) : HookLog :=
  steps.foldl record ⟨functions, []⟩

/-- Sites that cover all attachments share them out. -/
theorem sum_length_stubsAt (log : HookLog) (sites : Finset Site)
    (hsites : ∀ site ∉ sites, log.stubsAt site = []) :
    ∑ site ∈ sites, (log.stubsAt site).length = log.attachments.length := by
  obtain ⟨functions, attachments⟩ := log
  induction attachments with
  | nil => simp [stubsAt]
  | cons e rest ih =>
    have hrest : ∀ site ∉ sites, (⟨functions, rest⟩ : HookLog).stubsAt site = [] := by
      intro site hsite
      have hnil := hsites site hsite
      simp only [stubsAt, List.map_eq_nil_iff, List.filter_eq_nil_iff] at hnil ⊢
      exact fun a ha => hnil a (List.mem_cons_of_mem _ ha)
    have hmem : e.1 ∈ sites := by
      by_contra hnot
      have hnil := hsites e.1 hnot
      simp [stubsAt] at hnil
    have hstep : ∀ site, ((⟨functions, e :: rest⟩ : HookLog).stubsAt site).length =
        ((⟨functions, rest⟩ : HookLog).stubsAt site).length + if e.1 = site then 1 else 0 := by
      intro site
      by_cases hsite : e.1 = site <;> simp [stubsAt, hsite]
    simp only [hstep, Finset.sum_add_distrib, ih hrest, Finset.sum_ite_eq, if_pos hmem,
      List.length_cons]

end HookLog

namespace HookTable

/-- The table after all operations of a history. -/
def run (t : HookTable) (steps : List HookStep) : HookTable := steps.foldl apply t

/-- A table and a log tell the same. -/
structure Reflects (t : HookTable) (log : HookLog) : Prop where
  functions : ∀ f, f ∈ t.functions ↔ f ∈ log.functions
  chain : ∀ site, StablySorted AttachedStub.precedes (log.stubsAt site) (t.dispatchOrder site)
  attached : t.attached.Perm log.attachments

namespace Reflects

variable {t : HookTable} {log : HookLog}

theorem ofFunctions (functions : List FunctionName) :
    (HookTable.ofFunctions functions).Reflects ⟨functions, []⟩ where
  functions _ := mem_functions_ofFunctions
  chain site := by
    rw [dispatchOrder, chains_ofFunctions]
    exact ⟨List.Pairwise.nil, fun _ => rfl⟩
  attached := by rw [HookTable.attached, chains_ofFunctions]; exact List.Perm.refl _

theorem accepts_iff (h : t.Reflects log) (site : Site) (s : AttachedStub) :
    log.Accepts site s ↔
      site.target ∈ t.functions ∧ ∀ a ∈ t.dispatchOrder site, a.stub ≠ s.stub := by
  rw [HookLog.Accepts, h.functions]
  simp only [(h.chain site).mem_iff AttachedStub.precedes_total]

theorem intercept (h : t.Reflects log) (site : Site) (s : AttachedStub) :
    (t.apply (.intercept site s)).Reflects (log.record (.intercept site s)) := by
  rw [HookLog.record]
  rcases t.intercept_cases site s with
    ⟨htarget, hrefused⟩ | ⟨_, ⟨a, ha, hstub⟩, hrefused⟩ | ⟨htarget, hstub, u, hok, hattaches⟩
  · rw [apply_of_error hrefused, if_neg fun haccepts => htarget ((h.accepts_iff site s).mp haccepts).1]
    exact h
  · rw [apply_of_error hrefused,
      if_neg fun haccepts => ((h.accepts_iff site s).mp haccepts).2 a ha hstub]
    exact h
  · rw [apply_of_ok hok, if_pos ((h.accepts_iff site s).mpr ⟨htarget, hstub⟩)]
    refine ⟨fun f => ?_, fun other => ?_, ?_⟩
    · rw [hattaches.functions]
      exact h.functions f
    · by_cases hother : other = site
      · have hchain := AttachedStub.stablySorted_joining (s := s) (h.chain other)
        subst hother
        simpa [HookLog.stubsAt, hattaches.chain] using hchain
      · rw [hattaches.others other hother]
        simpa [HookLog.stubsAt, Ne.symm hother] using h.chain other
    · exact hattaches.attached.trans
        ((h.attached.cons (site, s)).trans (List.perm_append_singleton _ _).symm)

theorem addFunction (h : t.Reflects log) (f : FunctionName) :
    (t.apply (.addFunction f)).Reflects (log.record (.addFunction f)) where
  functions g := by
    rw [apply, HookLog.record, mem_functions_addFunction, h.functions g, List.mem_append,
      List.mem_singleton]
  chain site := by
    rw [apply, dispatchOrder, chains_addFunction]
    exact h.chain site
  attached := by
    rw [apply, HookTable.attached, chains_addFunction]
    exact h.attached

theorem detachOwner (h : t.Reflects log) (owner : String) :
    (t.apply (.detachOwner owner)).Reflects (log.record (.detachOwner owner)) where
  functions := h.functions
  chain site := by
    rw [apply, dispatchOrder_detachOwner, HookLog.record]
    have hcommute : (log.attachments.filter fun e => e.2.owner ≠ owner).filter (fun e => e.1 = site) =
        (log.attachments.filter fun e => e.1 = site).filter fun e => e.2.owner ≠ owner := by
      rw [List.filter_filter, List.filter_filter]
      simp only [Bool.and_comm]
    rw [HookLog.stubsAt, hcommute, ← Function.comp_def (fun s : AttachedStub => decide (s.owner ≠ owner)),
      ← List.filter_map]
    exact (h.chain site).filter _
  attached := by
    rw [apply, attached_detachOwner]
    exact h.attached.filter _

/-- What one operation does, the log records. -/
theorem apply (h : t.Reflects log) (step : HookStep) :
    (t.apply step).Reflects (log.record step) := by
  cases step with
  | intercept site s => exact h.intercept site s
  | addFunction f => exact h.addFunction f
  | detachOwner owner => exact h.detachOwner owner

theorem run (h : t.Reflects log) (steps : List HookStep) :
    (t.run steps).Reflects (steps.foldl HookLog.record log) := by
  induction steps generalizing t log with
  | nil => exact h
  | cons step rest ih => exact ih (h.apply step)

theorem dispatchOrder_eq (h : t.Reflects log) (site : Site) :
    t.dispatchOrder site = (log.stubsAt site).mergeSort AttachedStub.precedes :=
  (h.chain site).unique AttachedStub.precedes_total
    (stablySorted_mergeSort AttachedStub.precedes_trans AttachedStub.precedes_total _)

theorem intercept_eq_error_iff (h : t.Reflects log) (site : Site) (s : AttachedStub) :
    (∃ fault, t.intercept site s = .error fault) ↔
      site.target ∉ log.functions ∨ ∃ a ∈ t.dispatchOrder site, a.stub = s.stub := by
  rw [← h.functions]
  rcases t.intercept_cases site s with
    ⟨htarget, hrefused⟩ | ⟨_, hstub, hrefused⟩ | ⟨htarget, hstub, u, hok, _⟩
  · exact ⟨fun _ => Or.inl htarget, fun _ => ⟨_, hrefused⟩⟩
  · exact ⟨fun _ => Or.inr hstub, fun _ => ⟨_, hrefused⟩⟩
  · rw [hok]
    constructor
    · rintro ⟨fault, hfault⟩
      cases hfault
    · rintro (hnot | ⟨a, ha, heq⟩)
      · exact absurd htarget hnot
      · exact absurd heq (hstub a ha)

theorem hookCount_eq (h : t.Reflects log) : t.hookCount = log.attachments.length := by
  rw [hookCount_eq_length_attached, h.attached.length_eq]

theorem hookCount_eq_sum (h : t.Reflects log) (sites : Finset Site)
    (hsites : ∀ site ∉ sites, t.dispatchOrder site = []) :
    t.hookCount = ∑ site ∈ sites, (t.dispatchOrder site).length := by
  have hlength : ∀ site, (t.dispatchOrder site).length = (log.stubsAt site).length := by
    intro site
    rw [h.dispatchOrder_eq, List.length_mergeSort]
  rw [h.hookCount_eq, ← log.sum_length_stubsAt sites]
  · exact Finset.sum_congr rfl fun site _ => (hlength site).symm
  · intro site hsite
    rw [← List.length_eq_zero_iff, ← hlength, hsites site hsite, List.length_nil]

theorem detachOwner_count (h : t.Reflects log) (owner : String) :
    (t.detachOwner owner).2 = (log.attachments.filter fun e => e.2.owner = owner).length := by
  rw [HookTable.detachOwner_count]
  exact (h.attached.filter _).length_eq

end Reflects

/-- After any history, the stubs at a site stand by descending priority, and those of one priority in the
    order in which they were accepted. Only an unknown target or a stub that stands there already is
    refused, and then nothing changes. An owner that is detached takes away its own stubs, is told how many
    they were, and leaves the others in their order. -/
theorem history_reflected (functions : List FunctionName) (steps : List HookStep) :
    let t := (ofFunctions functions).run steps
    let log := HookLog.ofSteps functions steps
    (∀ site, t.dispatchOrder site = (log.stubsAt site).mergeSort AttachedStub.precedes) ∧
    (∀ site s, ((∃ fault, t.intercept site s = .error fault) ↔
        site.target ∉ log.functions ∨ ∃ a ∈ t.dispatchOrder site, a.stub = s.stub) ∧
      ∀ fault, t.intercept site s = .error fault → t.apply (.intercept site s) = t) ∧
    (∀ owner, (t.detachOwner owner).2 =
        (log.attachments.filter fun e => e.2.owner = owner).length ∧
      ∀ site, (t.detachOwner owner).1.dispatchOrder site =
        (t.dispatchOrder site).filter fun s => s.owner ≠ owner) ∧
    t.hookCount = log.attachments.length ∧
    ∀ sites : Finset Site, (∀ site ∉ sites, t.dispatchOrder site = []) →
      t.hookCount = ∑ site ∈ sites, (t.dispatchOrder site).length := by
  intro t log
  have h : t.Reflects log := (Reflects.ofFunctions functions).run steps
  exact ⟨h.dispatchOrder_eq,
    fun site s => ⟨h.intercept_eq_error_iff site s, fun _ hfault => apply_of_error hfault⟩,
    fun owner => ⟨h.detachOwner_count owner, t.dispatchOrder_detachOwner owner⟩,
    h.hookCount_eq, h.hookCount_eq_sum⟩

end HookTable

end PluginHost
