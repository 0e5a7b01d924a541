/-!
Stable sorting: items in order of rank, with items of one rank in the order in which they were given.

Main statements: a list has only one stably sorted form, and merge sort gives it.
-/

namespace PluginHost

variable {α : Type} {le : α → α → Bool} {items sorted : List α}

/-- Neither item ranks before the other. -/
def rankedAlike (le : α → α → Bool) (a b : α) : Bool := le a b && le b a

/-- The items of a list in order of rank. Among items of one rank the order of the list is kept, so nothing
    is lost, added or repeated. -/
structure StablySorted (le : α → α → Bool) (items sorted : List α) : Prop where
  ordered : sorted.Pairwise fun a b => le a b = true
  kept : ∀ a, sorted.filter (rankedAlike le a) = items.filter (rankedAlike le a)

theorem rankedAlike_self (htotal : ∀ a b, (le a b || le b a) = true) (a : α) :
    rankedAlike le a a = true := by
  simpa [rankedAlike] using htotal a a

namespace StablySorted

theorem mem_iff (htotal : ∀ a b, (le a b || le b a) = true) (h : StablySorted le items sorted)
    {a : α} : a ∈ sorted ↔ a ∈ items := by
  have hself := rankedAlike_self htotal a
  constructor
  · intro hmem
    have hkept : a ∈ sorted.filter (rankedAlike le a) := List.mem_filter.mpr ⟨hmem, hself⟩
    rw [h.kept] at hkept
    exact (List.mem_filter.mp hkept).1
  · intro hmem
    have hkept : a ∈ items.filter (rankedAlike le a) := List.mem_filter.mpr ⟨hmem, hself⟩
    rw [← h.kept] at hkept
    exact (List.mem_filter.mp hkept).1

theorem filter (h : StablySorted le items sorted) (p : α → Bool) :
    StablySorted le (items.filter p) (sorted.filter p) where
  ordered := h.ordered.filter p
  kept a := by
    rw [List.filter_filter, List.filter_filter]
    simp only [Bool.and_comm (rankedAlike le a _)]
    rw [← List.filter_filter, ← List.filter_filter, h.kept a]

/-- The first item of an ordered list ranks before everything in it. -/
theorem le_of_mem_cons (htotal : ∀ a b, (le a b || le b a) = true) {a b : α} {rest : List α}
    (hordered : (a :: rest).Pairwise fun a b => le a b = true) (hmem : b ∈ a :: rest) :
    le a b = true := by
  rcases List.mem_cons.mp hmem with rfl | hrest
  · simpa using htotal b b
  · exact (List.pairwise_cons.mp hordered).1 b hrest

/-- Rank and the order among items of one rank leave nothing open. -/
theorem unique (htotal : ∀ a b, (le a b || le b a) = true) {xs ys : List α}
    (hxs : StablySorted le items xs) (hys : StablySorted le items ys) : xs = ys := by
  induction xs generalizing items ys with
  | nil =>
    refine (List.eq_nil_iff_forall_not_mem.mpr fun b hb => ?_).symm
    have hitem := (hys.mem_iff htotal).mp hb
    exact List.not_mem_nil ((hxs.mem_iff htotal).mpr hitem)
  | cons a xs ih =>
    cases ys with
    | nil =>
      have hitem := (hxs.mem_iff htotal).mp List.mem_cons_self
      exact absurd ((hys.mem_iff htotal).mpr hitem) List.not_mem_nil
    | cons b ys =>
      have hmem : ∀ c, c ∈ a :: xs ↔ c ∈ b :: ys := fun c =>
        (hxs.mem_iff htotal).trans (hys.mem_iff htotal).symm
      have hab := le_of_mem_cons htotal hxs.ordered ((hmem b).mpr List.mem_cons_self)
      have hba := le_of_mem_cons htotal hys.ordered ((hmem a).mp List.mem_cons_self)
      -- Both heads come first among the items of their common rank.
      have hkept := (hxs.kept a).trans (hys.kept a).symm
      rw [List.filter_cons_of_pos (rankedAlike_self htotal a),
        List.filter_cons_of_pos (by simp [rankedAlike, hab, hba])] at hkept
      obtain rfl := (List.cons.inj hkept).1
      have htails : ∀ c, xs.filter (rankedAlike le c) = ys.filter (rankedAlike le c) := by
        intro c
        have hboth := (hxs.kept c).trans (hys.kept c).symm
        by_cases hc : rankedAlike le c a = true
        · rw [List.filter_cons_of_pos hc, List.filter_cons_of_pos hc] at hboth
          exact (List.cons.inj hboth).2
        · rwa [List.filter_cons_of_neg hc, List.filter_cons_of_neg hc] at hboth
      have hrest : xs = ys := ih ⟨(List.pairwise_cons.mp hxs.ordered).2, htails⟩
        ⟨(List.pairwise_cons.mp hys.ordered).2, fun _ => rfl⟩
      rw [hrest]

end StablySorted

theorem stablySorted_mergeSort (htrans : ∀ a b c, le a b = true → le b c = true → le a c = true)
    (htotal : ∀ a b, (le a b || le b a) = true) (items : List α) :
    StablySorted le items (items.mergeSort le) where
  ordered := List.pairwise_mergeSort htrans htotal items
  kept a := by
    have halike : (items.filter (rankedAlike le a)).Pairwise fun b c => le b c = true := by
      refine List.pairwise_filter.mpr (List.pairwise_of_forall fun b c hb hc => ?_)
      simp only [rankedAlike, Bool.and_eq_true] at hb hc
      exact htrans b a c hb.2 hc.1
    have hsublist := (List.sublist_mergeSort htrans htotal halike List.filter_sublist).filter
      (rankedAlike le a)
    rw [List.filter_filter, show (fun b => rankedAlike le a b && rankedAlike le a b) =
      rankedAlike le a from funext fun _ => Bool.and_self _] at hsublist
    exact (hsublist.eq_of_length
      ((List.mergeSort_perm items le).filter (rankedAlike le a)).length_eq.symm).symm

end PluginHost
