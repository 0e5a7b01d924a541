import Mathlib.Data.List.Basic
import PluginHost.Regex.Basic
/-!
Where matches of a regular expression end.

What an expression matches is said by its parts, with no regard to how a match is found. The search works on
ascending lists of positions, and a repetition goes on from the positions that are new to it. Main statement: from
given positions it finds exactly the ends of all matches, each once and in order, if no part stands for a group and
no repetition asks for more at the least than at the most.
-/

namespace PluginHost

/-- A number of steps of a relation. -/
inductive Iterated {α : Type} (step : α → α → Prop) : Nat → α → α → Prop
  | zero (a : α) : Iterated step 0 a a
  | succ {n : Nat} {a b c : α} : step a b → Iterated step n b c → Iterated step (n + 1) a c

namespace Iterated

variable {α : Type} {step : α → α → Prop} {m n : Nat} {a b c : α}

theorem zero_iff : Iterated step 0 a c ↔ c = a := by
  constructor
  · rintro ⟨⟩
    rfl
  · rintro rfl
    exact .zero c

theorem succ_iff : Iterated step (n + 1) a c ↔ ∃ b, step a b ∧ Iterated step n b c := by
  constructor
  · rintro (_ | ⟨hfirst, hrest⟩)
    exact ⟨_, hfirst, hrest⟩
  · rintro ⟨b, hfirst, hrest⟩
    exact .succ hfirst hrest

theorem add_iff : Iterated step (m + n) a c ↔ ∃ b, Iterated step m a b ∧ Iterated step n b c := by
  induction m generalizing a with
  | zero => simp [zero_iff]
  | succ m ih =>
    rw [Nat.succ_add, succ_iff]
    simp only [ih, succ_iff]
    constructor
    · rintro ⟨b, hfirst, d, hmore, hlast⟩
      exact ⟨d, ⟨b, hfirst, hmore⟩, hlast⟩
    · rintro ⟨d, ⟨b, hfirst, hmore⟩, hlast⟩
      exact ⟨b, hfirst, d, hmore, hlast⟩

theorem succ_last_iff : Iterated step (n + 1) a c ↔ ∃ b, Iterated step n a b ∧ step b c := by
  rw [add_iff]
  simp only [succ_iff, zero_iff, exists_eq_right']

end Iterated

/-- Steps that never go back make their way without those that stay, of which there are at most as many as the
    positions between. -/
theorem Iterated.shorten {step : Nat → Nat → Prop} (hforward : ∀ p q, step p q → p ≤ q) {n p q : Nat}
    (h : Iterated step n p q) : p ≤ q ∧ ∃ k, k ≤ n ∧ k ≤ q - p ∧ Iterated step k p q := by
  induction h with
  | zero p => exact ⟨Nat.le_refl p, 0, Nat.le_refl 0, Nat.zero_le _, .zero p⟩
  | @succ n p m q hfirst _ ih =>
    obtain ⟨hmq, k, hkn, hkq, hrest⟩ := ih
    have hpm := hforward p m hfirst
    refine ⟨Nat.le_trans hpm hmq, ?_⟩
    rcases Nat.eq_or_lt_of_le hpm with rfl | hlt
    · exact ⟨k, Nat.le_succ_of_le hkn, hkq, hrest⟩
    · exact ⟨k + 1, Nat.succ_le_succ hkn, by omega, .succ hfirst hrest⟩

/-- A search for what is reached by steps from some positions: it finds that and nothing else, and keeps the order. -/
structure Finds (search : List Nat → List Nat) (step : Nat → Nat → Prop) : Prop where
  mem_iff : ∀ {positions : List Nat} {q : Nat}, q ∈ search positions ↔ ∃ p ∈ positions, step p q
  ascending : ∀ {positions : List Nat}, positions.Pairwise (· < ·) → (search positions).Pairwise (· < ·)

namespace Regex

/-! Lists of positions. -/

theorem mem_unite {fuel : Nat} {a b : List Nat} (hfuel : a.length + b.length ≤ fuel) {x : Nat} :
    x ∈ unite fuel a b ↔ x ∈ a ∨ x ∈ b := by
  fun_induction unite fuel a b with
  | case1 a b =>
    have hb : b = [] := List.length_eq_zero_iff.mp (by omega)
    simp [hb]
  | case2 | case3 => simp
  | case4 fuel y a z b hlt ih =>
    simp only [List.length_cons] at hfuel ih
    simp only [List.mem_cons, ih (by omega), or_assoc]
  | case5 fuel y a z b hnot hlt ih =>
    simp only [List.length_cons] at hfuel ih
    simp only [List.mem_cons, ih (by omega)]
    exact or_left_comm
  | case6 fuel y a z b hnot hnot' ih =>
    simp only [List.length_cons] at hfuel
    have heq : y = z := Nat.le_antisymm (Nat.le_of_not_lt hnot') (Nat.le_of_not_lt hnot)
    simp only [List.mem_cons, ih (by omega), heq]
    exact ⟨fun h => h.elim (.inl ∘ .inl) (.imp .inr .inr), by grind⟩

theorem mem_union {a b : List Nat} {x : Nat} : x ∈ union a b ↔ x ∈ a ∨ x ∈ b := mem_unite (Nat.le_refl _)

theorem subset_unite {fuel : Nat} {a b : List Nat} {x : Nat} (h : x ∈ unite fuel a b) : x ∈ a ∨ x ∈ b := by
  fun_induction unite fuel a b with
  | case1 => exact .inl h
  | case2 => exact .inr h
  | case3 => exact .inl h
  | case4 | case5 | case6 => grind

theorem pairwise_unite {fuel : Nat} {a b : List Nat} (ha : a.Pairwise (· < ·)) (hb : b.Pairwise (· < ·)) :
    (unite fuel a b).Pairwise (· < ·) := by
  fun_induction unite fuel a b with
  | case1 => exact ha
  | case2 => exact hb
  | case3 => exact ha
  | case4 fuel y a z b hlt ih =>
    obtain ⟨hy, ha'⟩ := List.pairwise_cons.mp ha
    obtain ⟨hz, _⟩ := List.pairwise_cons.mp hb
    refine List.pairwise_cons.mpr ⟨fun x hx => ?_, ih ha' hb⟩
    rcases subset_unite hx with hx | hx
    · exact hy x hx
    · rcases List.mem_cons.mp hx with rfl | hx
      · exact hlt
      · exact Nat.lt_trans hlt (hz x hx)
  | case5 fuel y a z b hnot hlt ih =>
    obtain ⟨hy, _⟩ := List.pairwise_cons.mp ha
    obtain ⟨hz, hb'⟩ := List.pairwise_cons.mp hb
    refine List.pairwise_cons.mpr ⟨fun x hx => ?_, ih ha hb'⟩
    rcases subset_unite hx with hx | hx
    · rcases List.mem_cons.mp hx with rfl | hx
      · exact hlt
      · exact Nat.lt_trans hlt (hy x hx)
    · exact hz x hx
  | case6 fuel y a z b hnot hnot' ih =>
    obtain ⟨hy, ha'⟩ := List.pairwise_cons.mp ha
    obtain ⟨hz, hb'⟩ := List.pairwise_cons.mp hb
    have heq : y = z := Nat.le_antisymm (Nat.le_of_not_lt hnot') (Nat.le_of_not_lt hnot)
    refine List.pairwise_cons.mpr ⟨fun x hx => ?_, ih ha' hb'⟩
    rcases subset_unite hx with hx | hx
    · exact hy x hx
    · exact heq ▸ hz x hx

theorem pairwise_union {a b : List Nat} (ha : a.Pairwise (· < ·)) (hb : b.Pairwise (· < ·)) :
    (union a b).Pairwise (· < ·) := pairwise_unite ha hb

/-! Repeated steps. -/

section Steps

variable {search : List Nat → List Nat} {step : Nat → Nat → Prop}

theorem finds_iterate (h : Finds search step) (n : Nat) : Finds (iterate search n) (Iterated step n) := by
  induction n with
  | zero =>
    refine ⟨fun {positions q} => ?_, id⟩
    simp [iterate, Iterated.zero_iff]
  | succ n ih =>
    have hiterate : ∀ positions, iterate search (n + 1) positions = iterate search n (search positions) := by
      intro positions
      rw [iterate]
      split
      · next hempty =>
        rw [List.isEmpty_iff.mp hempty]
        refine (List.eq_nil_iff_forall_not_mem.mpr fun q hq => ?_).symm
        obtain ⟨p, hp, _⟩ := ih.mem_iff.mp hq
        obtain ⟨_, hnone, _⟩ := h.mem_iff.mp hp
        exact List.not_mem_nil hnone
      · rfl
    constructor
    · intro positions q
      rw [hiterate, ih.mem_iff]
      simp only [h.mem_iff, Iterated.succ_iff]
      constructor
      · rintro ⟨b, ⟨p, hp, hfirst⟩, hrest⟩
        exact ⟨p, hp, b, hfirst, hrest⟩
      · rintro ⟨p, hp, b, hfirst, hrest⟩
        exact ⟨b, ⟨p, hp, hfirst⟩, hrest⟩
    · intro positions hpositions
      rw [hiterate]
      exact ih.ascending (h.ascending hpositions)

/-- What is reached from some positions in no more than a number of steps. -/
def Within (step : Nat → Nat → Prop) (first : List Nat) (bound q : Nat) : Prop :=
  ∃ p ∈ first, ∃ n ≤ bound, Iterated step n p q

variable {first current reached : List Nat} {bound k fuel p q : Nat}

theorem Within.mono (h : Within step first k q) (hle : k ≤ bound) : Within step first bound q := by
  obtain ⟨p, hp, n, hn, hsteps⟩ := h
  exact ⟨p, hp, n, Nat.le_trans hn hle, hsteps⟩

theorem Within.onward (h : Within step first k p) (hstep : step p q) : Within step first (k + 1) q := by
  obtain ⟨start, hstart, n, hn, hsteps⟩ := h
  exact ⟨start, hstart, n + 1, Nat.succ_le_succ hn, Iterated.succ_last_iff.mpr ⟨p, hsteps, hstep⟩⟩

/-- What takes one step more is a step away from what is reached before. -/
theorem within_succ_iff : Within step first (k + 1) q ↔
    Within step first k q ∨ ∃ p, Within step first k p ∧ step p q := by
  constructor
  · rintro ⟨start, hstart, n, hn, hsteps⟩
    rcases Nat.le_succ_iff.mp hn with hn | rfl
    · exact .inl ⟨start, hstart, n, hn, hsteps⟩
    · obtain ⟨p, hsteps, hstep⟩ := Iterated.succ_last_iff.mp hsteps
      exact .inr ⟨p, ⟨start, hstart, k, Nat.le_refl k, hsteps⟩, hstep⟩
  · rintro (h | ⟨p, h, hstep⟩)
    · exact h.mono (Nat.le_succ k)
    · exact h.onward hstep

/-- Where a search stands that goes on from what was new in its last turn: it has all that is reached in so many
    steps, and whatever one step more adds is a step away from what it goes on from. -/
structure Frontier (step : Nat → Nat → Prop) (first : List Nat) (k : Nat) (current reached : List Nat) : Prop where
  reached_iff : ∀ {q}, q ∈ reached ↔ Within step first k q
  onward_from : ∀ {p}, p ∈ current → Within step first k p
  next : ∀ {q}, Within step first (k + 1) q → q ∈ reached ∨ ∃ p ∈ current, step p q

theorem frontier_start : Frontier step first 0 first first := by
  have hreached : ∀ {q}, q ∈ first ↔ Within step first 0 q := by
    intro q
    simp [Within, Iterated.zero_iff]
  refine ⟨hreached, hreached.mp, fun h => ?_⟩
  rcases within_succ_iff.mp h with h | ⟨p, h, hstep⟩
  · exact .inl (hreached.mpr h)
  · exact .inr ⟨p, hreached.mpr h, hstep⟩

theorem mem_next_iff (h : Finds search step) :
    q ∈ (search current).filter (!reached.contains ·) ↔ (∃ p ∈ current, step p q) ∧ q ∉ reached := by
  rw [List.mem_filter, h.mem_iff]
  simp

/-- Once nothing new is found, nothing is left to be found. -/
theorem Frontier.done (h : Finds search step) (hfrontier : Frontier step first k current reached)
    (hnone : (search current).filter (!reached.contains ·) = []) (hle : k ≤ bound) :
    q ∈ reached ↔ Within step first bound q := by
  have hclosed : ∀ {q}, Within step first (k + 1) q → q ∈ reached := by
    intro q hq
    rcases hfrontier.next hq with hreached | hstep
    · exact hreached
    · by_contra hnew
      exact List.not_mem_nil (hnone ▸ (mem_next_iff h).mpr ⟨hstep, hnew⟩)
  refine ⟨fun hq => (hfrontier.reached_iff.mp hq).mono hle, fun hq => ?_⟩
  obtain ⟨more, rfl⟩ := Nat.exists_eq_add_of_le hle
  clear hle
  induction more generalizing q with
  | zero => exact hfrontier.reached_iff.mpr hq
  | succ more ih =>
    rcases within_succ_iff.mp hq with hq | ⟨p, hp, hstep⟩
    · exact ih hq
    · exact hclosed ((hfrontier.reached_iff.mp (ih hp)).onward hstep)

theorem Frontier.turn (h : Finds search step) (hfrontier : Frontier step first k current reached) :
    Frontier step first (k + 1) ((search current).filter (!reached.contains ·))
      (union reached ((search current).filter (!reached.contains ·))) := by
  have hcurrent : ∀ {p}, p ∈ (search current).filter (!reached.contains ·) → Within step first (k + 1) p := by
    intro p hp
    obtain ⟨⟨start, hstart, hstep⟩, _⟩ := (mem_next_iff h).mp hp
    exact (hfrontier.onward_from hstart).onward hstep
  have hreached : ∀ {q}, q ∈ union reached ((search current).filter (!reached.contains ·)) ↔
      Within step first (k + 1) q := by
    intro q
    rw [mem_union]
    constructor
    · rintro (hq | hq)
      · exact (hfrontier.reached_iff.mp hq).mono (Nat.le_succ k)
      · exact hcurrent hq
    · intro hq
      by_cases hold : q ∈ reached
      · exact .inl hold
      · exact .inr ((mem_next_iff h).mpr ⟨(hfrontier.next hq).resolve_left hold, hold⟩)
  refine ⟨hreached, hcurrent, fun hq => ?_⟩
  rcases within_succ_iff.mp hq with hq | ⟨p, hp, hstep⟩
  · exact .inl (hreached.mpr hq)
  · rcases mem_union.mp (hreached.mpr hp) with hp | hp
    · exact .inl (hreached.mpr ((hfrontier.reached_iff.mp hp).onward hstep))
    · exact .inr ⟨p, hp, hstep⟩

theorem mem_closure_iff (h : Finds search step) (hfrontier : Frontier step first k current reached) :
    q ∈ closure search fuel current reached ↔ Within step first (k + fuel) q := by
  induction fuel generalizing k current reached with
  | zero => exact hfrontier.reached_iff
  | succ fuel ih =>
    rw [closure]
    split
    · next hnone => exact hfrontier.done h (List.isEmpty_iff.mp hnone) (Nat.le_add_right _ _)
    · rw [ih (hfrontier.turn h), Nat.succ_add_eq_add_succ]

theorem pairwise_closure (h : Finds search step) (hcurrent : current.Pairwise (· < ·))
    (hreached : reached.Pairwise (· < ·)) : (closure search fuel current reached).Pairwise (· < ·) := by
  induction fuel generalizing current reached with
  | zero => exact hreached
  | succ fuel ih =>
    have hnext := (h.ascending hcurrent).sublist (List.filter_sublist (p := (!reached.contains ·)))
    rw [closure]
    split
    · exact hreached
    · exact ih hnext (pairwise_union hreached hnext)

end Steps

/-! Matches. -/

/-- A part of a text that an expression matches, from one position to another. A part that stands for a group
    matches nothing here. -/
def Matches (s : Subject) : Regex → Nat → Nat → Prop
  | empty, p, q => q = p
  | seq a b, p, q => ∃ m, Matches s a p m ∧ Matches s b m q
  | alt a b, p, q => Matches s a p q ∨ Matches s b p q
  | times least most r, p, q => ∃ n, least ≤ n ∧ (∀ bound ∈ most, n ≤ bound) ∧ Iterated (Matches s r) n p q
  | group _ r, p, q => Matches s r p q
  | back _, _, _ => False
  | anchor a, p, q => a.holds s p = true ∧ q = p
  | r, p, q => ∃ c, s.chars[p]? = some c ∧ r.acceptsChar s c = true ∧ q = p + 1

/-- No repetition asks for more at the least than at the most. -/
def Bounded : Regex → Prop
  | seq a b | alt a b => a.Bounded ∧ b.Bounded
  | times least most r => (∀ bound ∈ most, least ≤ bound) ∧ r.Bounded
  | group _ r => r.Bounded
  | _ => True

variable {s : Subject} {r : Regex} {p q : Nat}

theorem matches_of_isSingle (h : r.isSingle = true) :
    Matches s r p q ↔ ∃ c, s.chars[p]? = some c ∧ r.acceptsChar s c = true ∧ q = p + 1 := by
  cases r <;> first | rfl | cases h

/-- A match never goes back, and goes forward only within the text. -/
theorem Matches.bounds (h : Matches s r p q) : p ≤ q ∧ q ≤ max p s.chars.size := by
  have hnext : ∀ {p c}, s.chars[p]? = some c → p ≤ p + 1 ∧ p + 1 ≤ max p s.chars.size := fun hc => by
    have hp := (Array.getElem?_eq_some_iff.mp hc).1
    omega
  induction r generalizing p q with
  | empty =>
    cases h
    exact ⟨Nat.le_refl p, Nat.le_max_left _ _⟩
  | char | any | oneOf =>
    obtain ⟨c, hc, -, rfl⟩ := h
    exact hnext hc
  | seq a b iha ihb =>
    obtain ⟨m, ha, hb⟩ := h
    have hfirst := iha ha
    have hsecond := ihb hb
    omega
  | alt a b iha ihb => exact h.elim iha ihb
  | times least most r ih =>
    obtain ⟨n, -, -, hsteps⟩ := h
    induction hsteps with
    | zero p => exact ⟨Nat.le_refl p, Nat.le_max_left _ _⟩
    | succ hfirst _ ihrest =>
      have hfirst := ih hfirst
      omega
  | group number r ih => exact ih h
  | back number => exact h.elim
  | anchor a =>
    obtain ⟨-, rfl⟩ := h
    exact ⟨Nat.le_refl q, Nat.le_max_left _ _⟩

/-! Single characters in a row. -/

theorem finds_single (h : r.isSingle = true) : Finds (ends s r) (Matches s r) := by
  have hends : ∀ positions, ends s r positions = positions.filterMap fun p =>
      s.chars[p]?.bind fun c => if r.acceptsChar s c then some (p + 1) else none := fun positions => by
    cases r <;> first | exact List.filterMap_congr fun p _ => by cases s.chars[p]? <;> rfl | cases h
  have hstep : ∀ {p q}, (s.chars[p]?.bind fun c => if r.acceptsChar s c then some (p + 1) else none) = some q ↔
      Matches s r p q := by
    intro p q
    simp only [matches_of_isSingle h, Option.bind_eq_some_iff, Option.ite_none_right_eq_some, Option.some.injEq,
      eq_comm (a := q)]
  refine ⟨fun {positions q} => ?_, fun {positions} hpositions => ?_⟩
  · rw [hends, List.mem_filterMap]
    simp only [hstep]
  · rw [hends, List.pairwise_filterMap]
    refine hpositions.imp fun {a b} hlt x hx y hy => ?_
    obtain ⟨_, _, _, rfl⟩ := (matches_of_isSingle h).mp (hstep.mp hx)
    obtain ⟨_, _, _, rfl⟩ := (matches_of_isSingle h).mp (hstep.mp hy)
    exact Nat.succ_lt_succ hlt

/-- Every single character takes one position. -/
theorem eq_add_of_iterated_single (h : r.isSingle = true) {n : Nat} (hsteps : Iterated (Matches s r) n p q) :
    q = p + n := by
  induction hsteps with
  | zero => rfl
  | succ hfirst _ ih =>
    obtain ⟨_, _, _, rfl⟩ := (matches_of_isSingle h).mp hfirst
    rw [ih, Nat.add_right_comm, Nat.add_assoc]

theorem le_runLength_iff (h : r.isSingle = true) {k fuel : Nat} :
    k ≤ runLength s r fuel p ↔ k ≤ fuel ∧ Iterated (Matches s r) k p (p + k) := by
  induction fuel generalizing k p with
  | zero =>
    rw [runLength, Nat.le_zero]
    constructor
    · rintro rfl
      exact ⟨rfl, .zero p⟩
    · exact And.left
  | succ fuel ih =>
    cases k with
    | zero => simp [Iterated.zero_iff]
    | succ k =>
      rw [runLength, Iterated.succ_iff]
      simp only [matches_of_isSingle h]
      cases hc : s.chars[p]? with
      | none => simp
      | some c =>
        dsimp only
        split
        · next haccepts =>
          rw [Nat.succ_le_succ_iff, Nat.succ_le_succ_iff, ih, Nat.add_right_comm p 1 k]
          refine and_congr_right fun _ => ⟨fun hrest => ⟨p + 1, ⟨c, rfl, haccepts, rfl⟩, hrest⟩, ?_⟩
          rintro ⟨_, ⟨_, _, _, rfl⟩, hrest⟩
          exact hrest
        · next haccepts =>
          refine iff_of_false (Nat.not_succ_le_zero k) ?_
          rintro ⟨_, _, ⟨d, hd, haccepted, -⟩, -⟩
          cases hd
          exact haccepts haccepted

theorem le_runFrom_iff (h : r.isSingle = true) {most : Option Nat} {k : Nat} :
    k ≤ runFrom s r most p ↔ (∀ bound ∈ most, k ≤ bound) ∧ Iterated (Matches s r) k p (p + k) := by
  have hroom : Iterated (Matches s r) k p (p + k) → k ≤ s.chars.size - p := by
    intro hsteps
    have hmatches : Matches s (.times 0 none r) p (p + k) := ⟨k, Nat.zero_le k, nofun, hsteps⟩
    have hbounds := hmatches.bounds
    omega
  simp only [runFrom, le_runLength_iff h]
  refine and_congr_left fun hsteps => ?_
  have hfits := hroom hsteps
  cases most with
  | none => simpa using hfits
  | some bound => simp only [Nat.le_min, and_iff_left hfits, Option.mem_some_iff, forall_eq']

/-- How far single characters may go in a row, from some of them on. -/
theorem mem_runs_iff (h : r.isSingle = true) {least : Nat} {most : Option Nat} :
    least ≤ r.runFrom s most p ∧ q ∈ List.range' (p + least) (r.runFrom s most p + 1 - least) ↔
      Matches s (.times least most r) p q := by
  rw [List.mem_range'_1]
  constructor
  · rintro ⟨hleast, hlow, hhigh⟩
    obtain ⟨n, rfl⟩ := Nat.exists_eq_add_of_le (Nat.le_trans (Nat.le_add_right p least) hlow)
    have hn : n ≤ r.runFrom s most p := by omega
    obtain ⟨hmost, hsteps⟩ := (le_runFrom_iff h).mp hn
    exact ⟨n, by omega, hmost, hsteps⟩
  · rintro ⟨n, hleast, hmost, hsteps⟩
    cases eq_add_of_iterated_single h hsteps
    have hn := (le_runFrom_iff h).mpr ⟨hmost, hsteps⟩
    omega

theorem finds_times_single (h : r.isSingle = true) (least : Nat) (most : Option Nat) :
    Finds (ends s (.times least most r)) (Matches s (.times least most r)) := by
  let turn : List Nat → Nat → List Nat := fun found p =>
    if r.runFrom s most p < least then found
    else union found (List.range' (p + least) (r.runFrom s most p + 1 - least))
  have hends : ∀ positions, ends s (.times least most r) positions = positions.foldl turn [] := fun positions => by
    rw [ends, if_pos h]
  have hturn : ∀ {found p q}, q ∈ turn found p ↔ q ∈ found ∨ Matches s (.times least most r) p q := by
    intro found p q
    rw [← mem_runs_iff h]
    dsimp only [turn]
    split
    · next hlt => simp [Nat.not_le_of_lt hlt]
    · next hle => rw [mem_union, and_iff_right (Nat.le_of_not_lt hle)]
  have hmem : ∀ {positions found : List Nat} {q}, q ∈ positions.foldl turn found ↔
      q ∈ found ∨ ∃ p ∈ positions, Matches s (.times least most r) p q := by
    intro positions
    induction positions with
    | nil => simp
    | cons p rest ih =>
      intro found q
      rw [List.foldl_cons, ih, hturn, List.exists_mem_cons_iff, or_assoc]
  have hascending : ∀ {positions found : List Nat}, found.Pairwise (· < ·) →
      (positions.foldl turn found).Pairwise (· < ·) := by
    intro positions
    induction positions with
    | nil => exact id
    | cons p rest ih =>
      intro found hfound
      refine ih ?_
      dsimp only [turn]
      split
      · exact hfound
      · exact pairwise_union hfound List.pairwise_lt_range'
  refine ⟨fun {positions q} => ?_, fun {positions} _ => ?_⟩
  · rw [hends, hmem]
    simp
  · rw [hends]
    exact hascending .nil

/-! Expressions. -/

/-- How many steps of a repetition are looked for behind those that it asks for: no more than it may have, and no
    more than there are positions. -/
def extra (s : Subject) (least : Nat) : Option Nat → Nat
  | some bound => min (bound - least) (s.chars.size + 1)
  | none => s.chars.size + 1

theorem finds_times (h : Finds (ends s r) (Matches s r)) (hr : ¬ r.isSingle = true) {least : Nat} {most : Option Nat}
    (hbounded : ∀ bound ∈ most, least ≤ bound) :
    Finds (ends s (.times least most r)) (Matches s (.times least most r)) := by
  have hends : ∀ positions, ends s (.times least most r) positions =
      closure (ends s r) (extra s least most) (iterate (ends s r) least positions)
        (iterate (ends s r) least positions) := fun positions => by
    rw [ends, if_neg hr]
    cases most <;> rfl
  have hforward : ∀ p q, Matches s r p q → p ≤ q := fun p q hstep => hstep.bounds.1
  refine ⟨fun {positions q} => ?_, fun {positions} hpositions => ?_⟩
  · rw [hends, mem_closure_iff h frontier_start, Nat.zero_add]
    constructor
    · rintro ⟨m, hm, n, hn, hsteps⟩
      obtain ⟨p, hp, hleast⟩ := (finds_iterate h least).mem_iff.mp hm
      refine ⟨p, hp, least + n, Nat.le_add_right _ _, fun bound hbound => ?_, Iterated.add_iff.mpr ⟨m, hleast, hsteps⟩⟩
      cases hbound
      have hle := hbounded bound rfl
      rw [extra] at hn
      omega
    · rintro ⟨p, hp, n, hleast, hmost, hsteps⟩
      obtain ⟨more, rfl⟩ := Nat.exists_eq_add_of_le hleast
      obtain ⟨m, hfirst, hsteps⟩ := Iterated.add_iff.mp hsteps
      -- Steps that stay where they are do not count, so no more are needed than there are positions.
      obtain ⟨_, k, hkn, hkq, hshort⟩ := hsteps.shorten hforward
      have hinside : Matches s (.times k none r) m q :=
        ⟨k, Nat.le_refl k, fun bound hnone => absurd hnone (Option.not_mem_none bound), hshort⟩
      have hbounds := hinside.bounds
      refine ⟨m, (finds_iterate h least).mem_iff.mpr ⟨p, hp, hfirst⟩, k, ?_, hshort⟩
      cases most with
      | none =>
        rw [extra]
        omega
      | some bound =>
        have hle := hmost bound rfl
        rw [extra]
        omega
  · rw [hends]
    have hfirst := (finds_iterate h least).ascending hpositions
    exact pairwise_closure h hfirst hfirst

/-- From given positions, the search finds exactly where matches that begin there end, each once and in order. -/
theorem finds_ends (hback : r.hasBack = false) (hbounded : r.Bounded) : Finds (ends s r) (Matches s r) := by
  induction r with
  | empty => exact ⟨fun {positions q} => by simp [ends, Matches], id⟩
  | char | any | oneOf => exact finds_single rfl
  | seq a b iha ihb =>
    rw [hasBack, Bool.or_eq_false_iff] at hback
    have ha := iha hback.1 hbounded.1
    have hb := ihb hback.2 hbounded.2
    refine ⟨fun {positions q} => ?_, fun hpositions => hb.ascending (ha.ascending hpositions)⟩
    rw [ends, hb.mem_iff]
    simp only [ha.mem_iff]
    constructor
    · rintro ⟨m, ⟨p, hp, hfirst⟩, hsecond⟩
      exact ⟨p, hp, m, hfirst, hsecond⟩
    · rintro ⟨p, hp, m, hfirst, hsecond⟩
      exact ⟨m, ⟨p, hp, hfirst⟩, hsecond⟩
  | alt a b iha ihb =>
    rw [hasBack, Bool.or_eq_false_iff] at hback
    have ha := iha hback.1 hbounded.1
    have hb := ihb hback.2 hbounded.2
    refine ⟨fun {positions q} => ?_, fun hpositions => pairwise_union (ha.ascending hpositions) (hb.ascending hpositions)⟩
    rw [ends, mem_union, ha.mem_iff, hb.mem_iff, ← exists_or]
    simp only [Matches, and_or_left]
  | times least most r ih =>
    by_cases hr : r.isSingle = true
    · exact finds_times_single hr least most
    · exact finds_times (ih hback hbounded.2) hr hbounded.1
  | group number r ih => exact ih hback hbounded
  | back number => cases hback
  | anchor a =>
    refine ⟨fun {positions q} => ?_, fun hpositions => hpositions.sublist List.filter_sublist⟩
    rw [ends, List.mem_filter]
    simp only [Matches]
    constructor
    · rintro ⟨hq, hholds⟩
      exact ⟨q, hq, hholds, rfl⟩
    · rintro ⟨p, hp, hholds, rfl⟩
      exact ⟨hp, hholds⟩

end Regex

end PluginHost
