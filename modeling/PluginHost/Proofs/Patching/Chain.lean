import PluginHost.Patching.HookTable
import PluginHost.Proofs.Order.StablySorted
/-!
What one operation does to the chains of a hook table.

An attachment either is refused for one of two reasons or adds one stub to one chain. Main statement: the
place where the stub is put is the one that sorting gives it, so a chain that was stably sorted stays so.
-/

namespace PluginHost

/-- Descending priority: the first stub may run before the second. -/
def AttachedStub.precedes (a b : AttachedStub) : Bool := b.priority ≤ a.priority

namespace AttachedStub

@[simp]
theorem precedes_iff {a b : AttachedStub} : a.precedes b = true ↔ b.priority ≤ a.priority := by
  simp [precedes]

theorem precedes_trans (a b c : AttachedStub) (hab : a.precedes b = true)
    (hbc : b.precedes c = true) : a.precedes c = true := by
  rw [precedes_iff] at hab hbc ⊢
  exact Int32.le_trans hbc hab

theorem precedes_total (a b : AttachedStub) : (a.precedes b || b.precedes a) = true := by
  rw [Bool.or_eq_true, precedes_iff, precedes_iff]
  exact Int32.le_total b.priority a.priority

/-- A chain with one more stub: behind all stubs of at least its priority, ahead of the rest. -/
def joining (s : AttachedStub) (chain : List AttachedStub) : List AttachedStub :=
  chain.takeWhile (·.precedes s) ++ s :: chain.dropWhile (·.precedes s)

theorem insertByPriority_eq_joining (s : AttachedStub) (chain : List AttachedStub) :
    HookTable.insertByPriority s chain = s.joining chain := by
  induction chain with
  | nil => rfl
  | cons a rest ih =>
    rw [HookTable.insertByPriority, joining]
    by_cases hlt : a.priority < s.priority
    · have hbehind : a.precedes s = false := by simpa [precedes] using hlt
      simp [hlt, hbehind]
    · have hahead : a.precedes s = true := by simpa using hlt
      simp [hlt, hahead, ih, joining]

theorem joining_perm (s : AttachedStub) (chain : List AttachedStub) :
    (s.joining chain).Perm (s :: chain) := by
  have hsplit := List.takeWhile_append_dropWhile (p := (·.precedes s)) (l := chain)
  rw [joining]
  exact List.perm_middle.trans (by rw [hsplit])

theorem pairwise_insertByPriority {s : AttachedStub} {chain : List AttachedStub}
    (hordered : chain.Pairwise fun a b => a.precedes b = true) :
    (HookTable.insertByPriority s chain).Pairwise fun a b => a.precedes b = true := by
  induction chain with
  | nil => exact List.pairwise_singleton _ s
  | cons a rest ih =>
    obtain ⟨hhead, hrest⟩ := List.pairwise_cons.mp hordered
    rw [HookTable.insertByPriority]
    split
    · next hlt =>
      have hs : s.precedes a = true := precedes_iff.mpr (Int32.le_of_lt hlt)
      refine List.pairwise_cons.mpr ⟨fun b hb => ?_, hordered⟩
      rcases List.mem_cons.mp hb with rfl | hb
      · exact hs
      · exact precedes_trans s a b hs (hhead b hb)
    · next hnot =>
      have ha : a.precedes s = true := precedes_iff.mpr (Int32.not_lt.mp hnot)
      refine List.pairwise_cons.mpr ⟨fun b hb => ?_, ih hrest⟩
      rw [insertByPriority_eq_joining] at hb
      rcases List.mem_cons.mp ((joining_perm s rest).mem_iff.mp hb) with rfl | hb
      · exact ha
      · exact hhead b hb

/-- Among stubs of one priority the new one comes last. -/
theorem filter_insertByPriority {s : AttachedStub} {chain : List AttachedStub}
    (hordered : chain.Pairwise fun a b => a.precedes b = true) (c : AttachedStub) :
    (HookTable.insertByPriority s chain).filter (rankedAlike precedes c) =
      chain.filter (rankedAlike precedes c) ++ [s].filter (rankedAlike precedes c) := by
  induction chain with
  | nil => rfl
  | cons a rest ih =>
    obtain ⟨hhead, hrest⟩ := List.pairwise_cons.mp hordered
    rw [HookTable.insertByPriority]
    split
    · next hlt =>
      by_cases hs : rankedAlike precedes c s = true
      · -- What stands behind `s` has a lower priority than `c`.
        have hnone : (a :: rest).filter (rankedAlike precedes c) = [] := by
          refine List.filter_eq_nil_iff.mpr fun b hb halike => ?_
          have hba := StablySorted.le_of_mem_cons precedes_total hordered hb
          simp only [rankedAlike, Bool.and_eq_true, precedes_iff] at hs halike hba
          have hsa : s.priority ≤ a.priority :=
            Int32.le_trans hs.1 (Int32.le_trans halike.2 hba)
          exact Int32.not_lt.mpr hsa hlt
        rw [List.filter_cons_of_pos hs, hnone, List.filter_cons_of_pos hs]
        rfl
      · rw [List.filter_cons_of_neg hs, List.filter_cons_of_neg hs, List.filter_nil, List.append_nil]
    · rw [List.filter_cons, List.filter_cons, ih hrest]
      split <;> rfl

/-- Attaching one more stub is sorting a list that ends with it. -/
theorem stablySorted_joining {s : AttachedStub} {given chain : List AttachedStub}
    (h : StablySorted precedes given chain) :
    StablySorted precedes (given ++ [s]) (s.joining chain) := by
  rw [← insertByPriority_eq_joining]
  refine ⟨pairwise_insertByPriority h.ordered, fun c => ?_⟩
  rw [filter_insertByPriority h.ordered, h.kept, List.filter_append]

end AttachedStub

namespace HookTable

variable {t u : HookTable} {site : Site} {s : AttachedStub}

/-- All attached stubs with their sites, chain after chain. -/
def attached (t : HookTable) : List (Site × AttachedStub) :=
  t.chains.flatMap fun c => c.2.map fun s => (c.1, s)

theorem hookCount_eq_length_attached (t : HookTable) : t.hookCount = t.attached.length := by
  simp [hookCount, attached, List.length_flatMap]

theorem lookup_setChain (chain : List AttachedStub) (chains : List (Site × List AttachedStub))
    (other : Site) :
    (setChain site chain chains).lookup other =
      if other = site then some chain else chains.lookup other := by
  induction chains with
  | nil =>
    rw [setChain, List.lookup_cons]
    by_cases h : other = site
    · rw [if_pos h, beq_iff_eq.mpr h]
    · rw [if_neg h, beq_eq_false_iff_ne.mpr h]
  | cons c rest ih =>
    rw [setChain]
    by_cases hc : c.1 = site
    · rw [if_pos hc, List.lookup_cons, List.lookup_cons, hc]
      by_cases h : other = site
      · rw [if_pos h, beq_iff_eq.mpr h]
      · rw [if_neg h, beq_eq_false_iff_ne.mpr h]
    · rw [if_neg hc, List.lookup_cons, List.lookup_cons, ih]
      by_cases h : other = site
      · have hne : (other == c.1) = false := beq_eq_false_iff_ne.mpr fun heq => hc (heq.symm.trans h)
        simp only [hne, if_pos h]
      · simp only [if_neg h]

theorem attached_setChain_perm (chains : List (Site × List AttachedStub)) :
    ((setChain site (s.joining ((chains.lookup site).getD [])) chains).flatMap
        fun c => c.2.map fun s => (c.1, s)).Perm
      ((site, s) :: chains.flatMap fun c => c.2.map fun s => (c.1, s)) := by
  induction chains with
  | nil => exact List.Perm.refl _
  | cons c rest ih =>
    rw [setChain]
    by_cases hc : c.1 = site
    · rw [if_pos hc, List.lookup_cons, beq_iff_eq.mpr hc.symm, List.flatMap_cons, List.flatMap_cons]
      have hjoined := (AttachedStub.joining_perm s c.2).map fun s => (site, s)
      rw [← hc] at hjoined ⊢
      exact hjoined.append_right _
    · have hne : (site == c.1) = false := beq_eq_false_iff_ne.mpr fun heq => hc heq.symm
      rw [if_neg hc, List.lookup_cons, hne, List.flatMap_cons, List.flatMap_cons]
      exact (ih.append_left _).trans List.perm_middle

/-- The second table is the first with one more stub at a site: that chain alone is another. -/
structure Attaches (t u : HookTable) (site : Site) (s : AttachedStub) : Prop where
  functions : u.functions = t.functions
  chain : u.dispatchOrder site = s.joining (t.dispatchOrder site)
  others : ∀ other, other ≠ site → u.dispatchOrder other = t.dispatchOrder other
  attached : u.attached.Perm ((site, s) :: t.attached)

theorem Attaches.hookCount (h : t.Attaches u site s) : u.hookCount = t.hookCount + 1 := by
  rw [hookCount_eq_length_attached, hookCount_eq_length_attached, h.attached.length_eq,
    List.length_cons]

/-- All that an attachment can come to. -/
theorem intercept_cases (t : HookTable) (site : Site) (s : AttachedStub) :
    (site.target ∉ t.functions ∧
        t.intercept site s = .error (.unknownTarget site.target)) ∨
      (site.target ∈ t.functions ∧ (∃ a ∈ t.dispatchOrder site, a.stub = s.stub) ∧
        t.intercept site s = .error (.duplicateStub site.target s.stub)) ∨
      (site.target ∈ t.functions ∧ (∀ a ∈ t.dispatchOrder site, a.stub ≠ s.stub) ∧
        ∃ u, t.intercept site s = .ok u ∧ t.Attaches u site s) := by
  rw [intercept]
  by_cases htarget : site.target ∈ t.functions
  · rw [if_neg (not_not_intro htarget)]
    by_cases hstub : ∃ a ∈ t.dispatchOrder site, a.stub = s.stub
    · rw [if_pos (by simpa using hstub)]
      exact Or.inr (Or.inl ⟨htarget, hstub, rfl⟩)
    · rw [if_neg (by simpa using hstub)]
      refine Or.inr (Or.inr ⟨htarget, by simpa using hstub, _, rfl, rfl, ?_, ?_, ?_⟩)
      · rw [dispatchOrder, lookup_setChain, if_pos rfl, Option.getD_some,
          AttachedStub.insertByPriority_eq_joining]
      · intro other hother
        rw [dispatchOrder, lookup_setChain, if_neg hother, dispatchOrder]
      · rw [AttachedStub.insertByPriority_eq_joining]
        exact attached_setChain_perm t.chains
  · rw [if_pos htarget]
    exact Or.inl ⟨htarget, rfl⟩

theorem attaches_of_intercept (h : t.intercept site s = .ok u) : t.Attaches u site s := by
  rcases t.intercept_cases site s with ⟨_, hrefused⟩ | ⟨_, _, hrefused⟩ | ⟨_, _, v, hok, hattaches⟩
  · rw [hrefused] at h
    cases h
  · rw [hrefused] at h
    cases h
  · rw [hok] at h
    cases h
    exact hattaches

theorem dispatchOrder_detachOwner (t : HookTable) (owner : String) (site : Site) :
    (t.detachOwner owner).1.dispatchOrder site =
      (t.dispatchOrder site).filter fun s => s.owner ≠ owner := by
  simp only [detachOwner, dispatchOrder]
  induction t.chains with
  | nil => rfl
  | cons c rest ih =>
    rw [List.map_cons, List.lookup_cons, List.lookup_cons]
    cases site == c.1 with
    | true => rfl
    | false => exact ih

theorem attached_detachOwner (t : HookTable) (owner : String) :
    (t.detachOwner owner).1.attached = t.attached.filter fun e => e.2.owner ≠ owner := by
  simp only [detachOwner, attached, List.filter_flatMap, List.flatMap_map, List.filter_map]
  rfl

theorem detachOwner_count (t : HookTable) (owner : String) :
    (t.detachOwner owner).2 = (t.attached.filter fun e => e.2.owner = owner).length := by
  have hsplit := List.length_eq_countP_add_countP (fun e => decide (e.2.owner = owner)) (l := t.attached)
  have hkept : (t.detachOwner owner).1.hookCount =
      (t.attached.filter fun e => ¬ e.2.owner = owner).length := by
    rw [hookCount_eq_length_attached, attached_detachOwner]
  have hcount : (t.detachOwner owner).2 = t.hookCount - (t.detachOwner owner).1.hookCount := rfl
  have htotal := t.hookCount_eq_length_attached
  simp only [List.countP_eq_length_filter, decide_eq_true_eq] at hsplit
  omega

theorem mem_functions_addFunction {f g : FunctionName} :
    g ∈ (t.addFunction f).functions ↔ g ∈ t.functions ∨ g = f := by
  rw [addFunction]
  split
  · next hmem =>
    constructor
    · exact Or.inl
    · rintro (hold | rfl)
      · exact hold
      · exact hmem
  · simp

theorem chains_addFunction (t : HookTable) (f : FunctionName) :
    (t.addFunction f).chains = t.chains := by
  rw [addFunction]
  split <;> rfl

theorem mem_functions_foldl {functions : List FunctionName} {t : HookTable} {f : FunctionName} :
    f ∈ (functions.foldl addFunction t).functions ↔ f ∈ t.functions ∨ f ∈ functions := by
  induction functions generalizing t with
  | nil => simp
  | cons g rest ih => rw [List.foldl_cons, ih, mem_functions_addFunction, List.mem_cons, or_assoc]

theorem chains_foldl (functions : List FunctionName) (t : HookTable) :
    (functions.foldl addFunction t).chains = t.chains := by
  induction functions generalizing t with
  | nil => rfl
  | cons f rest ih => rw [List.foldl_cons, ih, chains_addFunction]

theorem mem_functions_ofFunctions {functions : List FunctionName} {f : FunctionName} :
    f ∈ (ofFunctions functions).functions ↔ f ∈ functions := by
  simp [ofFunctions, mem_functions_foldl]

theorem chains_ofFunctions (functions : List FunctionName) : (ofFunctions functions).chains = [] :=
  chains_foldl functions _

end HookTable

end PluginHost
