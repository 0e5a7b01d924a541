import Mathlib.Data.Option.Basic
import PluginHost.Proofs.Regex.Ends
/-!
Which match of a regular expression is found.

It is known where the longest match from a position ends before a way through the expression is looked for; the way
tells which groups stand for which parts. The search for it has enough fuel, so there is one for every match. Main
statement: the match that is found is the first one, and the longest of those that begin where it does, and its groups
stand for parts of it that they match; and if none is found there is none.
-/

namespace PluginHost

namespace Regex

variable {s : Subject} {r : Regex} {p q : Nat}

/-- The groups of an expression, by number, with what stands in each. -/
def groupsIn : Regex → List (Nat × Regex)
  | seq a b | alt a b => a.groupsIn ++ b.groupsIn
  | times _ _ r => r.groupsIn
  | group number r => (number, r) :: r.groupsIn
  | _ => []

/-- A group of the expression stands for a part between two positions that it matches. -/
def Told (s : Subject) (r : Regex) (p q : Nat) (part : Nat × Nat × Nat) : Prop :=
  ∃ inner, (part.1, inner) ∈ r.groupsIn ∧ Matches s inner part.2.1 part.2.2 ∧ p ≤ part.2.1 ∧ part.2.2 ≤ q

theorem Told.mono {outer : Regex} {p' q' : Nat} {part : Nat × Nat × Nat} (h : Told s r p q part)
    (hgroups : r.groupsIn ⊆ outer.groupsIn) (hp : p' ≤ p) (hq : q ≤ q') : Told s outer p' q' part := by
  obtain ⟨inner, hinner, hmatches, hstart, hstop⟩ := h
  exact ⟨inner, hgroups hinner, hmatches, Nat.le_trans hp hstart, Nat.le_trans hstop hq⟩

theorem bounded_rest {least : Nat} {most : Option Nat} (h : (times least most r).Bounded) :
    (times (least - 1) (most.map (· - 1)) r).Bounded := by
  refine ⟨fun bound hbound => ?_, h.2⟩
  obtain ⟨b, hb, rfl⟩ := Option.map_eq_some_iff.mp hbound
  exact Nat.sub_le_sub_right (h.1 b hb) 1

theorem matches_times_succ {least : Nat} {most : Option Nat} {m : Nat} (hmost : most ≠ some 0)
    (hfirst : Matches s r p m) (hrest : Matches s (times (least - 1) (most.map (· - 1)) r) m q) :
    Matches s (times least most r) p q := by
  obtain ⟨n, hleast, hbound, hsteps⟩ := hrest
  refine ⟨n + 1, by omega, fun bound hb => ?_, .succ hfirst hsteps⟩
  have hle := hbound (bound - 1) (Option.mem_map_of_mem _ hb)
  have hpos : bound ≠ 0 := fun hzero => hmost (hzero ▸ hb)
  omega

variable {fuel : Nat} {groups : Groups} {goOn : Nat → Groups → Option Groups} {done : Groups}

theorem walk_single (h : r.isSingle = true) :
    walk s (fuel + 1) r p groups goOn = match s.chars[p]? with
      | some c => if r.acceptsChar s c then goOn (p + 1) groups else none
      | none => none := by
  cases r <;> first | rfl | cases h

theorem walk_times_single (h : r.isSingle = true) (least : Nat) (most : Option Nat) :
    walk s (fuel + 1) (times least most r) p groups goOn =
      (List.range (r.runFrom s most p + 1 - least)).findSome? fun k => goOn (p + r.runFrom s most p - k) groups := by
  rw [walk, if_pos h]

/-- One more part is looked for. It may stay where it is as long as more parts are asked for. -/
def oneMore (s : Subject) (fuel least : Nat) (most : Option Nat) (r : Regex) (p : Nat) (groups : Groups)
    (goOn : Nat → Groups → Option Groups) : Option Groups :=
  walk s fuel r p groups fun q groups =>
    if q = p && least = 0 then none else walk s fuel (times (least - 1) (most.map (· - 1)) r) q groups goOn

theorem walk_times (h : ¬ r.isSingle = true) (least : Nat) (most : Option Nat) :
    walk s (fuel + 1) (times least most r) p groups goOn =
      if most = some 0 then goOn p groups
      else if least = 0 then oneMore s fuel least most r p groups goOn <|> goOn p groups
      else oneMore s fuel least most r p groups goOn := by
  rw [walk, if_neg h]
  rfl

/-- A search that goes on from a match comes to an end, and what groups stand for besides what they stood for before
    are parts of the match. -/
def Finishes (s : Subject) (r : Regex) (p : Nat) (groups : Groups) (goOn : Nat → Groups → Option Groups)
    (done : Groups) : Prop :=
  ∃ q found, Matches s r p q ∧ goOn q found = some done ∧ ∀ part ∈ found, part ∈ groups ∨ Told s r p q part

/-- A match without groups of its own leaves all groups as they are. -/
theorem finishes_of_matches (hmatches : Matches s r p q) (hdone : goOn q groups = some done) :
    Finishes s r p groups goOn done := ⟨q, groups, hmatches, hdone, fun _ => .inl⟩

/-- Of a match in two parts, the groups stand for parts of either. -/
theorem Finishes.trans {a b : Regex} {next : Nat → Groups → Option Groups} (h : Finishes s a p groups next done)
    (hnext : ∀ {m found}, next m found = some done → Finishes s b m found goOn done)
    (hjoin : ∀ {m q}, Matches s a p m → Matches s b m q → Matches s r p q)
    (ha : a.groupsIn ⊆ r.groupsIn) (hb : b.groupsIn ⊆ r.groupsIn) : Finishes s r p groups goOn done := by
  obtain ⟨m, found, hfirst, hrest, hfound⟩ := h
  obtain ⟨q, found', hsecond, hdone, hfound'⟩ := hnext hrest
  refine ⟨q, found', hjoin hfirst hsecond, hdone, fun part hpart => ?_⟩
  rcases hfound' part hpart with hpart | htold
  · exact (hfound part hpart).imp_right fun htold => htold.mono ha (Nat.le_refl p) hsecond.bounds.1
  · exact .inr (htold.mono hb hfirst.bounds.1 (Nat.le_refl q))

theorem Finishes.imp {a : Regex} (h : Finishes s a p groups goOn done)
    (hmatches : ∀ {q}, Matches s a p q → Matches s r p q) (ha : a.groupsIn ⊆ r.groupsIn) :
    Finishes s r p groups goOn done := by
  obtain ⟨q, found, hinner, hdone, hfound⟩ := h
  exact ⟨q, found, hmatches hinner, hdone, fun part hpart => (hfound part hpart).imp_right fun htold =>
    htold.mono ha (Nat.le_refl p) (Nat.le_refl q)⟩

/-- A search finds nothing but matches. -/
theorem finishes_of_walk (hback : r.hasBack = false) (hbounded : r.Bounded)
    (h : walk s fuel r p groups goOn = some done) : Finishes s r p groups goOn done := by
  induction fuel generalizing r p groups goOn with
  | zero => cases h
  | succ fuel ih =>
    cases r with
    | empty => exact finishes_of_matches rfl h
    | char | any | oneOf =>
      rw [walk_single rfl] at h
      split at h
      · next c hc =>
        obtain ⟨haccepts, hdone⟩ := Option.ite_none_right_eq_some.mp h
        exact finishes_of_matches ⟨c, hc, haccepts, rfl⟩ hdone
      · cases h
    | seq a b =>
      rw [hasBack, Bool.or_eq_false_iff] at hback
      exact (ih hback.1 hbounded.1 h).trans (ih hback.2 hbounded.2) (fun ha hb => ⟨_, ha, hb⟩)
        (List.subset_append_left _ _) (List.subset_append_right _ _)
    | alt a b =>
      rw [hasBack, Bool.or_eq_false_iff] at hback
      rcases (Option.orElse_eq_some _ _ _).mp h with h | ⟨-, h⟩
      · exact (ih hback.1 hbounded.1 h).imp .inl (List.subset_append_left _ _)
      · exact (ih hback.2 hbounded.2 h).imp .inr (List.subset_append_right _ _)
    | times least most r =>
      have hbackInner : r.hasBack = false := hback
      by_cases hr : r.isSingle = true
      · rw [walk_times_single hr] at h
        obtain ⟨k, hk, hdone⟩ := List.exists_of_findSome?_eq_some h
        rw [List.mem_range] at hk
        have hplace : p + r.runFrom s most p - k ∈ List.range' (p + least) (r.runFrom s most p + 1 - least) :=
          List.mem_range'_1.mpr (by omega)
        exact finishes_of_matches ((mem_runs_iff hr).mp ⟨by omega, hplace⟩) hdone
      · have hstay : least = 0 → goOn p groups = some done → Finishes s (times least most r) p groups goOn done :=
          fun hleast => finishes_of_matches ⟨0, Nat.le_of_eq hleast, fun _ _ => Nat.zero_le _, .zero p⟩
        have hmore : most ≠ some 0 → oneMore s fuel least most r p groups goOn = some done →
            Finishes s (times least most r) p groups goOn done := by
          intro hmost hmore
          refine (ih hbackInner hbounded.2 hmore).trans (fun hrest => ?_) (matches_times_succ hmost)
            (List.Subset.refl _) (List.Subset.refl _)
          split at hrest
          · cases hrest
          · exact ih hback (bounded_rest hbounded) hrest
        rw [walk_times hr] at h
        split at h
        · next hmost => exact hstay (Nat.le_zero.mp (hbounded.1 0 hmost)) h
        · next hmost =>
          split at h
          · next hleast =>
            rcases (Option.orElse_eq_some _ _ _).mp h with h | ⟨-, h⟩
            · exact hmore hmost h
            · exact hstay hleast h
          · exact hmore hmost h
    | group number r =>
      have hbackInner : r.hasBack = false := hback
      rw [walk] at h
      obtain ⟨q, found, hmatches, hdone, hfound⟩ := ih hbackInner hbounded h
      refine ⟨q, _, hmatches, hdone, fun part hpart => ?_⟩
      rcases List.mem_cons.mp hpart with rfl | hpart
      · exact .inr ⟨r, List.mem_cons_self, hmatches, Nat.le_refl p, Nat.le_refl q⟩
      · exact (hfound part (List.mem_filter.mp hpart).1).imp_right fun htold =>
          htold.mono (List.subset_cons_self _ _) (Nat.le_refl p) (Nat.le_refl q)
    | back number => cases hback
    | anchor a =>
      obtain ⟨hholds, hdone⟩ := Option.ite_none_right_eq_some.mp h
      exact finishes_of_matches ⟨hholds, rfl⟩ hdone

/-! Fuel. -/

/-- How deep the search for a way may be: every part of a repetition is looked for inside the search for the part
    before it. -/
def depth (s : Subject) : Regex → Nat
  | seq a b | alt a b => max (depth s a) (depth s b) + 1
  | times least _ r => depth s r + least + s.chars.size + 2
  | group _ r => depth s r + 1
  | _ => 1

theorem exists_fuel (h : depth s r ≤ fuel) : ∃ left, fuel = left + 1 := by
  have hpos : 0 < depth s r := by cases r <;> exact Nat.succ_pos _
  exact Nat.exists_eq_succ_of_ne_zero (by omega)

/-- The fuel with which a search begins is enough. -/
theorem depth_le (s : Subject) (r : Regex) : depth s r ≤ 2 * (r.size + 1) * (s.chars.size + 2) := by
  induction r with
  | seq a b iha ihb | alt a b iha ihb =>
    have ha : 2 * (a.size + 1) * (s.chars.size + 2) ≤ 2 * (a.size + b.size + 1) * (s.chars.size + 2) :=
      Nat.mul_le_mul_right _ (by omega)
    have hb : 2 * (b.size + 1) * (s.chars.size + 2) ≤ 2 * (a.size + b.size + 1) * (s.chars.size + 2) :=
      Nat.mul_le_mul_right _ (by omega)
    rw [depth, size, show 2 * (a.size + b.size + 1 + 1) = 2 * (a.size + b.size + 1) + 2 by omega, Nat.add_mul]
    omega
  | times least most r ih =>
    have hmore : least + s.chars.size + 2 ≤ 2 * (least + 2) * (s.chars.size + 2) := by
      have hleast : least + 2 ≤ (least + 2) * (s.chars.size + 2) := Nat.le_mul_of_pos_right _ (by omega)
      have hroom : s.chars.size + 2 ≤ (least + 2) * (s.chars.size + 2) := Nat.le_mul_of_pos_left _ (by omega)
      rw [Nat.mul_assoc]
      omega
    rw [depth, size, show 2 * (r.size + least + 2 + 1) = 2 * (r.size + 1) + 2 * (least + 2) by omega, Nat.add_mul]
    omega
  | group number r ih =>
    rw [depth, size, show 2 * (r.size + 1 + 1) = 2 * (r.size + 1) + 2 by omega, Nat.add_mul]
    omega
  | _ =>
    change 1 ≤ 2 * (1 + 1) * (s.chars.size + 2)
    omega

/-- There is a way for every match, as long as the search has enough fuel and may go on from where the match ends. -/
def Complete (s : Subject) (r : Regex) : Prop :=
  ∀ {fuel p q groups goOn}, Matches s r p q → p ≤ s.chars.size → depth s r ≤ fuel →
    (∀ found, (goOn q found).isSome) → (walk s fuel r p groups goOn).isSome

theorem complete_single (h : r.isSingle = true) : Complete s r := by
  intro fuel p q groups goOn hmatches _ hfuel hgoOn
  obtain ⟨fuel, rfl⟩ := exists_fuel hfuel
  obtain ⟨c, hc, haccepts, rfl⟩ := (matches_of_isSingle h).mp hmatches
  rw [walk_single h, hc]
  simpa only [haccepts, if_true] using hgoOn groups

theorem complete_times_single (h : r.isSingle = true) (least : Nat) (most : Option Nat) :
    Complete s (times least most r) := by
  intro fuel p q groups goOn hmatches _ hfuel hgoOn
  obtain ⟨fuel, rfl⟩ := exists_fuel hfuel
  obtain ⟨hleast, hplace⟩ := (mem_runs_iff h).mpr hmatches
  rw [List.mem_range'_1] at hplace
  rw [walk_times_single h, List.findSome?_isSome_iff]
  refine ⟨p + r.runFrom s most p - q, List.mem_range.mpr (by omega), ?_⟩
  rw [show p + r.runFrom s most p - (p + r.runFrom s most p - q) = q by omega]
  exact hgoOn groups

theorem complete_times (h : Complete s r) (hr : ¬ r.isSingle = true) (least : Nat) (most : Option Nat) :
    Complete s (times least most r) := by
  rintro fuel p q groups goOn ⟨n, hleast, hmost, hsteps⟩ hp hfuel hgoOn
  -- Each part that is looked for uses up one that is asked for, or a position.
  replace hfuel : depth s r + least + (s.chars.size - p) + 2 ≤ fuel := by
    rw [depth] at hfuel
    omega
  induction n generalizing p least most fuel groups with
  | zero =>
    cases Iterated.zero_iff.mp hsteps
    obtain ⟨fuel, rfl⟩ : ∃ left, fuel = left + 1 := ⟨fuel - 1, by omega⟩
    rw [walk_times hr, if_pos (Nat.le_zero.mp hleast)]
    split
    · exact hgoOn groups
    · rw [Option.orElse_eq_orElse, Option.orElse_eq_or, Option.isSome_or, hgoOn groups, Bool.or_true]
  | succ n ih =>
    obtain ⟨m, hfirst, hrest⟩ := Iterated.succ_iff.mp hsteps
    by_cases hstays : least = 0 ∧ m = p
    · obtain ⟨rfl, rfl⟩ := hstays
      exact ih 0 most (Nat.zero_le n) (fun bound hb => Nat.le_of_succ_le (hmost bound hb)) hrest hp hfuel
    · obtain ⟨fuel, rfl⟩ : ∃ left, fuel = left + 1 := ⟨fuel - 1, by omega⟩
      have hbounds := hfirst.bounds
      have hmore : (oneMore s fuel least most r p groups goOn).isSome := by
        refine h hfirst hp (by omega) fun found => ?_
        rw [if_neg]
        · refine ih _ _ (by omega) (fun bound hbound => ?_) hrest (by omega) (by omega)
          obtain ⟨b, hb, rfl⟩ := Option.map_eq_some_iff.mp hbound
          have hle := hmost b hb
          omega
        · simpa [and_comm] using hstays
      have hsome : most ≠ some 0 := fun hzero => absurd (hmost 0 hzero) (Nat.not_succ_le_zero n)
      rw [walk_times hr, if_neg hsome]
      split
      · rw [Option.orElse_eq_orElse, Option.orElse_eq_or, Option.isSome_or, hmore, Bool.true_or]
      · exact hmore

theorem complete (s : Subject) (r : Regex) : Complete s r := by
  induction r with
  | empty =>
    rintro fuel p q groups goOn ⟨⟩ _ hfuel hgoOn
    obtain ⟨fuel, rfl⟩ := exists_fuel hfuel
    exact hgoOn groups
  | char | any | oneOf => exact complete_single rfl
  | seq a b iha ihb =>
    rintro fuel p q groups goOn ⟨m, ha, hb⟩ hp hfuel hgoOn
    obtain ⟨fuel, rfl⟩ := exists_fuel hfuel
    rw [depth] at hfuel
    have hbounds := ha.bounds
    exact iha ha hp (by omega) fun found => ihb hb (by omega) (by omega) hgoOn
  | alt a b iha ihb =>
    rintro fuel p q groups goOn hmatches hp hfuel hgoOn
    obtain ⟨fuel, rfl⟩ := exists_fuel hfuel
    rw [depth] at hfuel
    rw [walk, Option.orElse_eq_orElse, Option.orElse_eq_or, Option.isSome_or, Bool.or_eq_true]
    exact hmatches.imp (fun ha => iha ha hp (by omega) hgoOn) fun hb => ihb hb hp (by omega) hgoOn
  | times least most r ih =>
    by_cases hr : r.isSingle = true
    · exact complete_times_single hr least most
    · exact complete_times ih hr least most
  | group number r ih =>
    rintro fuel p q groups goOn hmatches hp hfuel hgoOn
    obtain ⟨fuel, rfl⟩ := exists_fuel hfuel
    exact ih hmatches hp (Nat.le_of_succ_le_succ hfuel) fun found => hgoOn _
  | back number => exact fun hmatches => hmatches.elim
  | anchor a =>
    rintro fuel p q groups goOn ⟨hholds, rfl⟩ _ hfuel hgoOn
    obtain ⟨fuel, rfl⟩ := exists_fuel hfuel
    rw [walk, if_pos hholds]
    exact hgoOn groups

/-! Matches that are found. -/

/-- The longest match from its start on, whose groups stand for parts that they match. -/
structure Match.Longest (s : Subject) (r : Regex) (m : Match) : Prop where
  is_match : Matches s r m.start m.stop
  longest : ∀ q, Matches s r m.start q → q ≤ m.stop
  groups : ∀ part ∈ m.groups, Told s r m.start m.stop part

theorem matchAt?_of_ends (hback : r.hasBack = false) (hbounded : r.Bounded) (hp : p ≤ s.chars.size) {stop : Nat}
    {others : List Nat} (hends : (r.ends s [p]).reverse = stop :: others) :
    ∃ m, matchAt? r s p = some m ∧ m.start = p ∧ m.Longest s r := by
  have hfinds := finds_ends (s := s) hback hbounded
  have hmem : ∀ {q}, q ∈ stop :: others ↔ Matches s r p q := by
    intro q
    rw [← hends, List.mem_reverse, hfinds.mem_iff]
    simp
  have hlongest : ∀ q, Matches s r p q → q ≤ stop := by
    have hascending := hfinds.ascending (List.pairwise_singleton (· < ·) p)
    rw [← List.pairwise_reverse, hends] at hascending
    intro q hq
    rcases List.mem_cons.mp (hmem.mpr hq) with rfl | hq
    · exact Nat.le_refl q
    · exact Nat.le_of_lt ((List.pairwise_cons.mp hascending).1 q hq)
  have hmatches : Matches s r p stop := hmem.mp List.mem_cons_self
  have hsome : (walk s (2 * (r.size + 1) * (s.chars.size + 2)) r p [] fun p groups =>
      if p = stop then some groups else none).isSome :=
    complete s r hmatches hp (depth_le s r) fun found => by rw [if_pos rfl]; rfl
  obtain ⟨groups, hway⟩ := Option.isSome_iff_exists.mp hsome
  obtain ⟨q, found, -, hdone, hfound⟩ := finishes_of_walk hback hbounded hway
  obtain ⟨rfl, hsame⟩ := Option.ite_none_right_eq_some.mp hdone
  cases hsame
  refine ⟨⟨p, q, groups⟩, ?_, rfl, hmatches, hlongest, fun part hpart => (hfound part hpart).resolve_left (by simp)⟩
  rw [matchAt?, hends, hback, if_neg Bool.false_ne_true, List.take_succ_cons, List.take_zero, List.findSome?_cons, hway]
  rfl

/-- From a position on, the longest match is found, and none only if there is none. -/
theorem matchAt?_exact (hback : r.hasBack = false) (hbounded : r.Bounded) (hp : p ≤ s.chars.size) :
    (matchAt? r s p = none ↔ ∀ q, ¬ Matches s r p q) ∧
      ∀ m, matchAt? r s p = some m → m.start = p ∧ m.Longest s r := by
  cases hends : (r.ends s [p]).reverse with
  | nil =>
    have hnone : matchAt? r s p = none := by
      rw [matchAt?, hends, List.take_nil, ite_self]
      rfl
    refine ⟨iff_of_true hnone fun q hq => ?_, fun m hm => ?_⟩
    · have hmem := (finds_ends (s := s) hback hbounded).mem_iff.mpr ⟨p, List.mem_singleton_self p, hq⟩
      rw [List.reverse_eq_nil_iff.mp hends] at hmem
      exact List.not_mem_nil hmem
    · rw [hnone] at hm
      cases hm
  | cons stop others =>
    obtain ⟨m, hm, hstart, hlongest⟩ := matchAt?_of_ends hback hbounded hp hends
    rw [hm]
    refine ⟨iff_of_false (Option.some_ne_none m) fun hnone => hnone m.stop (hstart ▸ hlongest.is_match), ?_⟩
    rintro _ ⟨⟩
    exact ⟨hstart, hlongest⟩

theorem searchWithin_exact (hback : r.hasBack = false) (hbounded : r.Bounded) {start : Nat}
    (hfuel : s.chars.size < start + fuel) :
    (searchWithin r s fuel start = none ↔ ∀ p q, start ≤ p → p ≤ s.chars.size → ¬ Matches s r p q) ∧
      ∀ m, searchWithin r s fuel start = some m → start ≤ m.start ∧ m.start ≤ s.chars.size ∧ m.Longest s r ∧
        ∀ p q, start ≤ p → p < m.start → ¬ Matches s r p q := by
  induction fuel generalizing start with
  | zero => exact ⟨iff_of_true rfl fun p q hstart hp => absurd hp (by omega), nofun⟩
  | succ fuel ih =>
    rw [searchWithin]
    split
    · next hbehind => exact ⟨iff_of_true rfl fun p q hstart hp => absurd hp (by omega), nofun⟩
    · next hinside =>
      obtain ⟨hnone, hsome⟩ := matchAt?_exact hback hbounded (Nat.le_of_not_lt hinside)
      cases hat : matchAt? r s start with
      | some m =>
        obtain ⟨rfl, hlongest⟩ := hsome m hat
        dsimp only
        refine ⟨iff_of_false (Option.some_ne_none m) fun hno => ?_, ?_⟩
        · exact hno m.start m.stop (Nat.le_refl _) (Nat.le_of_not_lt hinside) hlongest.is_match
        · rintro _ ⟨⟩
          exact ⟨Nat.le_refl _, Nat.le_of_not_lt hinside, hlongest, fun p q hstart hp => absurd hp (by omega)⟩
      | none =>
        have hhere := hnone.mp hat
        obtain ⟨hnoneRest, hsomeRest⟩ := ih (show s.chars.size < start + 1 + fuel by omega)
        have hsplit : ∀ {p}, start ≤ p → p = start ∨ start + 1 ≤ p := fun h => by omega
        dsimp only
        refine ⟨hnoneRest.trans ⟨fun hno p q hstart hp => ?_, fun hno p q hstart => ?_⟩, fun m hm => ?_⟩
        · rcases hsplit hstart with rfl | hstart
          · exact hhere q
          · exact hno p q hstart hp
        · exact hno p q (Nat.le_of_succ_le hstart)
        · obtain ⟨hstart, hinside, hlongest, hfirst⟩ := hsomeRest m hm
          refine ⟨Nat.le_of_succ_le hstart, hinside, hlongest, fun p q hp hlt => ?_⟩
          rcases hsplit hp with rfl | hp
          · exact hhere q
          · exact hfirst p q hp hlt

/-- A search finds the first match at or behind a position, and the longest of those that begin there. Its groups
    stand for parts of it that they match. If no match is found there is none. -/
theorem search?_exact (hback : r.hasBack = false) (hbounded : r.Bounded) (start : Nat) :
    (r.search? s start = none ↔ ∀ p q, start ≤ p → p ≤ s.chars.size → ¬ Matches s r p q) ∧
      ∀ m, r.search? s start = some m → start ≤ m.start ∧ m.start ≤ s.chars.size ∧ m.Longest s r ∧
        ∀ p q, start ≤ p → p < m.start → ¬ Matches s r p q :=
  searchWithin_exact hback hbounded (by omega)

end Regex

end PluginHost
