import PluginHost.Proofs.Policy.Verdict
/-!
Which tiers make up a policy.

Tiers are sorted by rank and then compared with their neighbours only. That is enough: in ascending order equal
ranks stand together, the least ones first. Main statement: `ofTiers_exact`.
-/

namespace PluginHost.Policy

variable {tiers others : List Tier} {rank other : UInt8}

/-- More than one tier has the rank. -/
def Repeated (tiers : List Tier) (rank : UInt8) : Prop := 2 ≤ (tiers.map Tier.rank).count rank

/-- More than one tier has the rank, and no lower rank is repeated. -/
structure LeastRepeated (tiers : List Tier) (rank : UInt8) : Prop where
  repeated : Repeated tiers rank
  least : ∀ other, Repeated tiers other → rank ≤ other

theorem Repeated.mem (h : Repeated tiers rank) : rank ∈ tiers.map Tier.rank :=
  List.count_pos_iff.mp (Nat.lt_of_lt_of_le Nat.zero_lt_two h)

theorem Repeated.not_nodup (h : Repeated tiers rank) : ¬ (tiers.map Tier.rank).Nodup := fun hnodup =>
  absurd (List.nodup_iff_count_le_one.mp hnodup rank) (Nat.not_le.mpr h)

theorem repeated_iff_of_perm (hperm : others.Perm tiers) : Repeated others rank ↔ Repeated tiers rank := by
  rw [Repeated, Repeated, (hperm.map Tier.rank).count_eq]

theorem LeastRepeated.of_perm (hperm : others.Perm tiers) (h : LeastRepeated others rank) :
    LeastRepeated tiers rank where
  repeated := (repeated_iff_of_perm hperm).mp h.repeated
  least other hother := h.least other ((repeated_iff_of_perm hperm).mpr hother)

theorem LeastRepeated.unique (h : LeastRepeated tiers rank) (h' : LeastRepeated tiers other) : rank = other :=
  UInt8.le_antisymm (h.least other h'.repeated) (h'.least rank h.repeated)

/-! Tiers in ascending order of their ranks. -/

section

variable {t u : Tier} {rest : List Tier}

/-- A tier whose neighbour has another rank is below all that follow. -/
theorem rank_lt_of_ne_neighbour (hordered : (t :: u :: rest).Pairwise fun t u => t.rank ≤ u.rank)
    (hne : t.rank ≠ u.rank) : ∀ v ∈ u :: rest, t.rank < v.rank := by
  obtain ⟨hhead, hrest⟩ := List.pairwise_cons.mp hordered
  have hlt : t.rank < u.rank := UInt8.lt_of_le_of_ne (hhead u List.mem_cons_self) hne
  intro v hv
  obtain rfl | hv := List.mem_cons.mp hv
  · exact hlt
  · exact UInt8.lt_of_lt_of_le hlt ((List.pairwise_cons.mp hrest).1 v hv)

theorem repeated_cons_iff (hlower : ∀ v ∈ rest, t.rank < v.rank) : Repeated (t :: rest) rank ↔ Repeated rest rank := by
  have hnew : t.rank ∉ rest.map Tier.rank := by
    intro hmem
    obtain ⟨v, hv, heq⟩ := List.mem_map.mp hmem
    exact absurd (hlower v hv) (heq ▸ UInt8.lt_irrefl _)
  by_cases hrank : rank = t.rank
  · subst hrank
    have hnone := List.count_eq_zero.mpr hnew
    simp [Repeated, hnone]
  · simp [Repeated, Ne.symm hrank]

end

theorem pairwise_lt_of_repeatedRank? (hordered : tiers.Pairwise fun t u => t.rank ≤ u.rank)
    (hnone : repeatedRank? tiers = none) : tiers.Pairwise fun t u => t.rank < u.rank := by
  fun_induction repeatedRank? tiers with
  | case1 t u rest heq => cases hnone
  | case2 t u rest hne ih =>
    exact List.pairwise_cons.mpr ⟨rank_lt_of_ne_neighbour hordered hne, ih hordered.tail hnone⟩
  | case3 tiers hshort =>
    cases tiers with
    | nil => exact .nil
    | cons t rest =>
      cases rest with
      | nil => exact List.pairwise_singleton _ t
      | cons u rest => exact absurd rfl (hshort t u rest)

/-- The first rank that neighbours share is the least that is repeated at all. -/
theorem leastRepeated_of_repeatedRank? (hordered : tiers.Pairwise fun t u => t.rank ≤ u.rank)
    (hsome : repeatedRank? tiers = some rank) : LeastRepeated tiers rank := by
  fun_induction repeatedRank? tiers with
  | case1 t u rest heq =>
    obtain rfl : t.rank = rank := Option.some.inj hsome
    refine ⟨by simp [Repeated, heq], fun other hother => ?_⟩
    obtain ⟨v, hv, rfl⟩ := List.mem_map.mp hother.mem
    obtain rfl | hv := List.mem_cons.mp hv
    · exact UInt8.le_refl _
    · exact (List.pairwise_cons.mp hordered).1 v hv
  | case2 t u rest hne ih =>
    have hrest := ih hordered.tail hsome
    have hlower := rank_lt_of_ne_neighbour hordered hne
    refine ⟨(repeated_cons_iff hlower).mpr hrest.repeated, fun other hother => ?_⟩
    exact hrest.least other ((repeated_cons_iff hlower).mp hother)
  | case3 tiers hshort => cases hsome

/-! Tiers in any order. -/

/-- The tiers in the order in which a policy holds them. -/
def byRank (tiers : List Tier) : List Tier := tiers.mergeSort fun t u => t.rank ≤ u.rank

theorem byRank_perm (tiers : List Tier) : (byRank tiers).Perm tiers := List.mergeSort_perm tiers _

theorem pairwise_byRank (tiers : List Tier) : (byRank tiers).Pairwise fun t u => t.rank ≤ u.rank := by
  have hordered : (byRank tiers).Pairwise fun t u => decide (t.rank ≤ u.rank) = true := by
    refine List.pairwise_mergeSort (fun t u v htu huv => ?_) (fun t u => ?_) tiers
    · rw [decide_eq_true_iff] at htu huv ⊢
      exact UInt8.le_trans htu huv
    · rw [Bool.or_eq_true, decide_eq_true_iff, decide_eq_true_iff]
      exact UInt8.le_total t.rank u.rank
  exact hordered.imp of_decide_eq_true

theorem byRank_eq_of_perm (hperm : others.Perm tiers) (hnodup : (tiers.map Tier.rank).Nodup) :
    byRank others = byRank tiers := by
  refine List.Perm.eq_of_pairwise (fun t u ht hu htu hut => ?_) (pairwise_byRank others) (pairwise_byRank tiers)
    ((byRank_perm others).trans (hperm.trans (byRank_perm tiers).symm))
  exact List.inj_on_of_nodup_map hnodup (hperm.mem_iff.mp ((byRank_perm others).mem_iff.mp ht))
    ((byRank_perm tiers).mem_iff.mp hu) (UInt8.le_antisymm htu hut)

theorem nodup_of_repeatedRank? (hnone : repeatedRank? (byRank tiers) = none) : (tiers.map Tier.rank).Nodup := by
  have hstrict := pairwise_lt_of_repeatedRank? (pairwise_byRank tiers) hnone
  have hnodup : ((byRank tiers).map Tier.rank).Nodup := List.pairwise_map.mpr (hstrict.imp UInt8.ne_of_lt)
  exact ((byRank_perm tiers).map Tier.rank).nodup_iff.mp hnodup

theorem repeatedRank?_byRank (hsome : repeatedRank? (byRank tiers) = some rank) : LeastRepeated tiers rank :=
  (leastRepeated_of_repeatedRank? (pairwise_byRank tiers) hsome).of_perm (byRank_perm tiers)

/-- Tiers have different ranks, or there is a least rank that is repeated. -/
theorem nodup_or_leastRepeated (tiers : List Tier) :
    (tiers.map Tier.rank).Nodup ∨ ∃ rank, LeastRepeated tiers rank := by
  cases hfirst : repeatedRank? (byRank tiers) with
  | none => exact .inl (nodup_of_repeatedRank? hfirst)
  | some rank => exact .inr ⟨rank, repeatedRank?_byRank hfirst⟩

/-- Tiers of different ranks, in strictly ascending order. -/
theorem pairwise_lt_byRank (hnodup : (tiers.map Tier.rank).Nodup) :
    (byRank tiers).Pairwise fun t u => t.rank < u.rank :=
  pairwise_lt_of_repeatedRank? (pairwise_byRank tiers)
    (repeatedRank?_eq_none (((byRank_perm tiers).map Tier.rank).nodup_iff.mpr hnodup))

theorem ofTiers_of_leastRepeated (h : LeastRepeated tiers rank) :
    ofTiers tiers = .error (.invalidPolicy ("duplicate tier rank " ++ Fault.number rank.toNat)) := by
  have hne : tiers ≠ [] := by
    rintro rfl
    cases h.repeated.mem
  have hfirst : repeatedRank? (byRank tiers) = some rank := by
    cases hfirst : repeatedRank? (byRank tiers) with
    | none => exact absurd (nodup_of_repeatedRank? hfirst) h.repeated.not_nodup
    | some first => rw [(repeatedRank?_byRank hfirst).unique h]
  rw [byRank] at hfirst
  rw [ofTiers, if_neg (by simpa using hne)]
  simp only [hfirst]

theorem ofTiers_eq_ok_iff {p : Policy} :
    ofTiers tiers = .ok p ↔ tiers ≠ [] ∧ (tiers.map Tier.rank).Nodup ∧ p = ⟨byRank tiers⟩ := by
  constructor
  · intro hok
    have hne : tiers ≠ [] := by
      rintro rfl
      cases hok
    obtain hnodup | ⟨rank, hleast⟩ := nodup_or_leastRepeated tiers
    · rw [ofTiers_eq_ok hne hnodup, Except.ok.injEq] at hok
      exact ⟨hne, hnodup, hok.symm⟩
    · rw [ofTiers_of_leastRepeated hleast] at hok
      cases hok
  · rintro ⟨hne, hnodup, rfl⟩
    exact ofTiers_eq_ok hne hnodup

theorem ofTiers_eq_of_perm (hperm : others.Perm tiers) : ofTiers others = ofTiers tiers := by
  obtain hnodup | ⟨rank, hleast⟩ := nodup_or_leastRepeated tiers
  · by_cases hne : tiers = []
    · subst hne
      rw [hperm.eq_nil]
    · have hnodup' : (others.map Tier.rank).Nodup := (hperm.map Tier.rank).nodup_iff.mpr hnodup
      have hne' : others ≠ [] := fun hnil => hne (hnil ▸ hperm).nil_eq.symm
      rw [ofTiers_eq_ok_iff.mpr ⟨hne, hnodup, rfl⟩, ofTiers_eq_ok_iff.mpr ⟨hne', hnodup', rfl⟩,
        byRank_eq_of_perm hperm hnodup]
  · rw [ofTiers_of_leastRepeated hleast, ofTiers_of_leastRepeated (hleast.of_perm hperm.symm)]

theorem tier_eq_error {p : Policy} (habsent : rank ∉ p.tiers.map Tier.rank) :
    p.tier rank = .error (.tierNotFound rank) := by
  have hnone : (p.tiers.find? fun t => t.rank = rank) = none := by
    refine List.find?_eq_none.mpr fun t ht heq => habsent (List.mem_map.mpr ⟨t, ht, ?_⟩)
    exact of_decide_eq_true heq
  rw [tier, hnone]

/-- Tiers make up a policy exactly if there are some and no rank is repeated. It holds them in strictly ascending
    order and finds each under its rank. If ranks are repeated, the least of them is named; in what order the tiers
    are given makes no difference. -/
theorem ofTiers_exact (tiers : List Tier) :
    ((∃ p, ofTiers tiers = .ok p) ↔ tiers ≠ [] ∧ (tiers.map Tier.rank).Nodup) ∧
    (∀ p, ofTiers tiers = .ok p →
      p.tiers.Perm tiers ∧ (p.tiers.Pairwise fun t u => t.rank < u.rank) ∧
      (∀ t ∈ tiers, p.tier t.rank = .ok t) ∧
      ∀ rank, rank ∉ tiers.map Tier.rank → p.tier rank = .error (.tierNotFound rank)) ∧
    (¬ (tiers.map Tier.rank).Nodup → ∃ rank, LeastRepeated tiers rank ∧
      ofTiers tiers = .error (.invalidPolicy ("duplicate tier rank " ++ Fault.number rank.toNat))) ∧
    ∀ others : List Tier, others.Perm tiers → ofTiers others = ofTiers tiers := by
  refine ⟨?_, ?_, ?_, fun others => ofTiers_eq_of_perm⟩
  · simp only [ofTiers_eq_ok_iff, exists_and_left, exists_eq, and_true]
  · intro p hok
    obtain ⟨_, hnodup, rfl⟩ := ofTiers_eq_ok_iff.mp hok
    have hperm := byRank_perm tiers
    have hsorted : ((byRank tiers).map Tier.rank).Nodup := (hperm.map Tier.rank).nodup_iff.mpr hnodup
    refine ⟨hperm, pairwise_lt_byRank hnodup, fun t ht => ?_, fun rank habsent => ?_⟩
    · exact (tier_eq_ok_iff hsorted).mpr ⟨hperm.mem_iff.mpr ht, rfl⟩
    · exact tier_eq_error fun hmem => habsent ((hperm.map Tier.rank).mem_iff.mp hmem)
  · intro hrepeated
    obtain hnodup | ⟨rank, hleast⟩ := nodup_or_leastRepeated tiers
    · exact absurd hnodup hrepeated
    · exact ⟨rank, hleast, ofTiers_of_leastRepeated hleast⟩

end PluginHost.Policy
