import Mathlib.Data.List.DropRight
import PluginHost.Text.Cut
/-!
Where a text is cut when something is put before or behind it.

A cut at the first separator does not look at what follows it, and passes over what stands before a
character that is no part of the separator.
-/

namespace PluginHost.Text

theorem eq_append_of_cutFirst? {separator s before after : List Char}
    (hcut : cutFirst? separator s = some (before, after)) : s = before ++ separator ++ after := by
  induction s generalizing before after with
  | nil =>
    simp only [cutFirst?, List.isEmpty_iff] at hcut
    split at hcut
    · next hempty =>
      cases hcut
      rw [hempty]
      rfl
    · cases hcut
  | cons c rest ih =>
    rw [cutFirst?] at hcut
    split at hcut
    · next hstart =>
      obtain ⟨tail, htail⟩ := List.isPrefixOf_iff_prefix.mp hstart
      cases hcut
      rw [← htail, List.drop_left, List.nil_append]
    · cases hrest : cutFirst? separator rest with
      | none =>
        rw [hrest] at hcut
        cases hcut
      | some parts =>
        rw [hrest] at hcut
        cases hcut
        rw [ih hrest]
        simp

/-- A text is cut exactly if the separator occurs in it. -/
theorem cutFirst?_eq_none_iff {separator s : List Char} :
    cutFirst? separator s = none ↔ ¬ separator <:+: s := by
  induction s with
  | nil => simp [cutFirst?, List.infix_nil]
  | cons c rest ih =>
    rw [cutFirst?, List.infix_cons_iff, ← List.isPrefixOf_iff_prefix]
    split
    · next hstart => simp [hstart]
    · next hstart => simp [hstart, ih]

/-- A text is cut where the separator ends for the first time. -/
theorem cutFirst?_eq_some_iff {separator s before after : List Char} (hseparator : separator ≠ []) :
    cutFirst? separator s = some (before, after) ↔
      s = before ++ separator ++ after ∧ ¬ separator <:+: before ++ separator.dropLast := by
  have hshorter : separator.dropLast.length < separator.length := by
    have hpositive := List.length_pos_of_ne_nil hseparator
    rw [List.length_dropLast]
    omega
  have hwithin : ∀ front tail : List Char, front ++ separator.dropLast <+: front ++ separator ++ tail := by
    intro front tail
    rw [List.append_assoc, List.prefix_append_right_inj]
    exact (List.dropLast_prefix _).trans (List.prefix_append _ _)
  induction s generalizing before with
  | nil => simp [cutFirst?, hseparator]
  | cons c rest ih =>
    rw [cutFirst?]
    split
    · next hstart =>
      obtain ⟨tail, htail⟩ := List.isPrefixOf_iff_prefix.mp hstart
      rw [← htail, List.drop_left]
      constructor
      · intro hcut
        cases hcut
        refine ⟨rfl, fun hinside => ?_⟩
        exact absurd hinside.length_le (by simpa using hshorter)
      · rintro ⟨heq, hfirst⟩
        -- The separator at the start of the text would lie within what stands before the cut.
        cases before with
        | nil => simpa using heq
        | cons d before =>
          have hupto : (d :: before) ++ separator.dropLast <+: separator ++ tail := by
            rw [heq]
            exact hwithin (d :: before) after
          have hlength : separator.length ≤ ((d :: before) ++ separator.dropLast).length := by
            rw [List.length_append, List.length_dropLast, List.length_cons]
            omega
          exact absurd (List.prefix_of_prefix_length_le (List.prefix_append _ _) hupto hlength).isInfix hfirst
    · next hstart =>
      rw [Option.map_eq_some_iff]
      constructor
      · rintro ⟨⟨front, back⟩, hcut, heq⟩
        cases heq
        obtain ⟨rfl, hfirst⟩ := ih.mp hcut
        refine ⟨by simp, fun hinside => ?_⟩
        rcases List.infix_cons_iff.mp hinside with hbegins | hlater
        · exact hstart (List.isPrefixOf_iff_prefix.mpr (hbegins.trans (hwithin (c :: front) after)))
        · exact hfirst hlater
      · rintro ⟨heq, hfirst⟩
        cases before with
        | nil => exact absurd (List.isPrefixOf_iff_prefix.mpr ⟨after, heq.symm⟩) hstart
        | cons d before =>
          cases heq
          exact ⟨(before, after), ih.mpr ⟨rfl, fun hlater => hfirst (List.infix_cons hlater)⟩, rfl⟩

/-- What follows the first separator is not looked at. -/
theorem cutFirst?_append {separator s before after : List Char} (hseparator : separator ≠ [])
    (hcut : cutFirst? separator s = some (before, after)) (more : List Char) :
    cutFirst? separator (s ++ more) = some (before, after ++ more) := by
  induction s generalizing before after with
  | nil => simp [cutFirst?, hseparator] at hcut
  | cons c rest ih =>
    rw [cutFirst?] at hcut
    rw [List.cons_append, cutFirst?]
    split at hcut
    · next hstart =>
      obtain ⟨tail, htail⟩ := List.isPrefixOf_iff_prefix.mp hstart
      cases hcut
      rw [← List.cons_append, ← htail, List.append_assoc, List.drop_left, List.drop_left]
      simp
    · next hstart =>
      cases hrest : cutFirst? separator rest with
      | none =>
        rw [hrest] at hcut
        cases hcut
      | some parts =>
        rw [hrest] at hcut
        cases hcut
        -- The separator occurs in the rest, so it is no longer than that and cannot reach beyond it.
        have hlength : separator.length ≤ (c :: rest).length := by
          have heq := congrArg List.length (eq_append_of_cutFirst? hrest)
          simp only [List.length_append, List.length_cons] at heq ⊢
          omega
        have hfurther : ¬ separator.isPrefixOf (c :: (rest ++ more)) = true := by
          intro h
          apply hstart
          rw [ List.isPrefixOf_iff_prefix] at h ⊢
          exact List.prefix_of_prefix_length_le h (List.prefix_append (c :: rest) more) hlength
        rw [if_neg hfurther, ih hrest]
        rfl

/-- A text without the separator is passed over, if a character stands behind it that is no part of
    the separator. -/
theorem cutFirst?_append_mark {separator s : List Char} {mark : Char} (hseparator : separator ≠ [])
    (hmark : mark ∉ separator) (hnone : cutFirst? separator s = none) (rest : List Char) :
    cutFirst? separator (s ++ mark :: rest) =
      (cutFirst? separator rest).map fun (before, after) => (s ++ mark :: before, after) := by
  induction s with
  | nil =>
    obtain ⟨c, tail, rfl⟩ := List.exists_cons_of_ne_nil hseparator
    have hne : c ≠ mark := by
      rintro rfl
      exact hmark List.mem_cons_self
    simp [cutFirst?, hne]
  | cons c s ih =>
    rw [cutFirst?] at hnone
    split at hnone
    · cases hnone
    · next hstart =>
      have hfurther : ¬ separator.isPrefixOf (c :: (s ++ mark :: rest)) = true := by
        intro h
        rw [ List.isPrefixOf_iff_prefix] at hstart h
        have hupto : c :: s ++ [mark] <+: c :: (s ++ mark :: rest) := ⟨rest, by simp⟩
        rcases List.prefix_or_prefix_of_prefix h hupto with hwithin | hbeyond
        · rcases List.prefix_concat_iff.mp hwithin with rfl | hinside
          · exact hmark (by simp)
          · exact hstart hinside
        · exact hmark (hbeyond.subset (by simp))
      rw [List.cons_append, cutFirst?, if_neg hfurther, ih (Option.map_eq_none_iff.mp hnone)]
      cases cutFirst? separator rest <;> rfl

theorem cutLast?_append_mark (mark : Char) (s t : List Char) :
    cutLast? mark (s ++ mark :: t) =
      some (((cutLast? mark t).map fun (before, after) => (s ++ mark :: before, after)).getD (s, t)) := by
  induction s with
  | nil =>
    rw [List.nil_append, cutLast?]
    cases cutLast? mark t with
    | none => simp
    | some parts => rfl
  | cons c s ih =>
    rw [List.cons_append, cutLast?, ih]
    cases cutLast? mark t <;> rfl

theorem cutLast?_eq_none_iff {mark : Char} {s : List Char} : cutLast? mark s = none ↔ mark ∉ s := by
  induction s with
  | nil => simp [cutLast?]
  | cons c rest ih =>
    rw [cutLast?]
    cases hrest : cutLast? mark rest with
    | none => simp [ih.mp hrest, eq_comm]
    | some parts =>
      have hmem : mark ∈ rest := by
        by_contra hnot
        rw [ih.mpr hnot] at hrest
        cases hrest
      simp [hmem]

/-- A text is cut at the mark behind which none stands. -/
theorem cutLast?_eq_some_iff {mark : Char} {s before after : List Char} :
    cutLast? mark s = some (before, after) ↔ s = before ++ mark :: after ∧ mark ∉ after := by
  constructor
  · intro hcut
    obtain rfl := eq_append_of_cutLast? hcut
    rw [cutLast?_append_mark] at hcut
    cases hafter : cutLast? mark after with
    | none => exact ⟨rfl, cutLast?_eq_none_iff.mp hafter⟩
    | some parts =>
      rw [hafter] at hcut
      -- A later mark would make the part behind the cut shorter than itself.
      have hlength := congrArg List.length (eq_append_of_cutLast? hafter)
      simp only [Option.map_some, Option.getD_some, Option.some.injEq, Prod.mk.injEq] at hcut
      rw [hcut.2, List.length_append, List.length_cons] at hlength
      omega
  · rintro ⟨rfl, hafter⟩
    rw [cutLast?_append_mark, cutLast?_eq_none_iff.mpr hafter]
    rfl

/-- No part of a split has a character at which the text is split. -/
theorem eq_false_of_mem_splitOnP {separates : Char → Bool} {s part : List Char} {c : Char}
    (hpart : part ∈ s.splitOnP separates) (hc : c ∈ part) : separates c = false := by
  induction s generalizing part with
  | nil =>
    rw [List.splitOnP_nil, List.mem_singleton] at hpart
    subst hpart
    exact absurd hc List.not_mem_nil
  | cons first rest ih =>
    rw [List.splitOnP_cons_eq_if_modifyHead] at hpart
    split at hpart
    · rcases List.mem_cons.mp hpart with rfl | hrest
      · exact absurd hc List.not_mem_nil
      · exact ih hrest hc
    · next hfirst =>
      obtain ⟨head, tail, hsplit⟩ := List.exists_cons_of_ne_nil (List.splitOnP_ne_nil separates rest)
      rw [hsplit] at hpart ih
      rcases List.mem_cons.mp hpart with rfl | htail
      · rcases List.mem_cons.mp hc with rfl | hc
        · exact Bool.eq_false_iff.mpr hfirst
        · exact ih List.mem_cons_self hc
      · exact ih (List.mem_cons_of_mem _ htail) hc

theorem not_mem_of_mem_splitOnP {mark : Char} {s part : List Char} (hpart : part ∈ s.splitOnP (· = mark)) :
    mark ∉ part := by
  intro hmark
  have hfalse := eq_false_of_mem_splitOnP hpart hmark
  simp at hfalse

theorem count_dropWhile {c : Char} {p : Char → Bool} (hc : p c = false) (s : List Char) :
    (s.dropWhile p).count c = s.count c := by
  induction s with
  | nil => rfl
  | cons d s ih =>
    by_cases hd : p d = true
    · have hne : d ≠ c := by
        rintro rfl
        rw [hc] at hd
        cases hd
      rw [List.dropWhile_cons_of_pos hd, ih, List.count_cons_of_ne hne]
    · rw [List.dropWhile_cons_of_neg hd]

/-- Only blanks are lost at the ends of a text. -/
theorem count_trim {c : Char} (hc : isBlank c = false) (s : List Char) :
    (trim s).count c = s.count c := by
  rw [trim, trimEnd, List.count_reverse, count_dropWhile hc, List.count_reverse, trimStart,
    count_dropWhile hc]

/-- The text has a blank as its last character. -/
def EndsInBlank (s : List Char) : Prop := ∃ c ∈ s.getLast?, isBlank c = true

theorem trimEnd_eq_rdropWhile (s : List Char) : trimEnd s = s.rdropWhile isBlank := rfl

theorem trimEnd_eq_self_iff {s : List Char} : trimEnd s = s ↔ ¬ EndsInBlank s := by
  rw [trimEnd_eq_rdropWhile, List.rdropWhile_eq_self_iff, EndsInBlank]
  constructor
  · rintro h ⟨c, hc, hblank⟩
    obtain ⟨hne, hlast⟩ := List.mem_getLast?_eq_getLast hc
    exact h hne (hlast ▸ hblank)
  · exact fun h hne hblank => h ⟨s.getLast hne, List.getLast?_eq_some_getLast hne, hblank⟩

end PluginHost.Text
