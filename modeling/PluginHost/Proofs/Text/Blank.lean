import PluginHost.Proofs.Text.Cut
/-!
Blanks at the ends of a text and between its words.

A text without blanks at its ends is what trimming leaves of it, and words with blanks between them are read back as
they are.
-/

namespace PluginHost.Text

variable {s : List Char} {c : Char}

/-! The ends of a text. -/

/-- The text has a blank as its first character. -/
def StartsInBlank (s : List Char) : Prop := ∃ c ∈ s.head?, isBlank c = true

/-- The text has a blank at neither end. -/
structure Trimmed (s : List Char) : Prop where
  start : ¬ StartsInBlank s
  stop : ¬ EndsInBlank s

theorem trimStart_eq_self_iff : trimStart s = s ↔ ¬ StartsInBlank s := by
  cases s with
  | nil => simp [trimStart, StartsInBlank]
  | cons c rest =>
    have hstarts : StartsInBlank (c :: rest) ↔ isBlank c = true := by simp [StartsInBlank]
    rw [hstarts, trimStart]
    constructor
    · intro hsame hblank
      rw [List.dropWhile_cons_of_pos hblank] at hsame
      have hlength := (List.dropWhile_suffix (l := rest) isBlank).length_le
      rw [hsame, List.length_cons] at hlength
      omega
    · exact fun hplain => List.dropWhile_cons_of_neg hplain

/-- Trimming leaves a text as it is exactly if there is nothing to trim. -/
theorem trim_eq_self_iff : trim s = s ↔ Trimmed s := by
  constructor
  · intro hsame
    -- Either trimming shortens what it changes.
    have hstart : (trimStart s).length ≤ s.length := (List.dropWhile_suffix isBlank).length_le
    have hstop : (trim s).length ≤ (trimStart s).length := (List.rdropWhile_prefix isBlank _).length_le
    rw [hsame] at hstop
    have hnone : trimStart s = s := (List.dropWhile_suffix isBlank).eq_of_length (by rw [← trimStart]; omega)
    refine ⟨trimStart_eq_self_iff.mp hnone, trimEnd_eq_self_iff.mp ?_⟩
    rwa [trim, hnone] at hsame
  · intro htrimmed
    rw [trim, trimStart_eq_self_iff.mpr htrimmed.start, trimEnd_eq_self_iff.mpr htrimmed.stop]

theorem trimmed_trim (s : List Char) : Trimmed (trim s) := by
  have hstart : ¬ StartsInBlank (trimStart s) :=
    trimStart_eq_self_iff.mp (List.dropWhile_idempotent isBlank s)
  refine ⟨fun hblank => ?_, trimEnd_eq_self_iff.mp (List.rdropWhile_idempotent isBlank _)⟩
  obtain ⟨c, hc, hblank⟩ := hblank
  obtain ⟨tail, htail⟩ : trim s <+: trimStart s := List.rdropWhile_prefix isBlank _
  refine hstart ⟨c, ?_, hblank⟩
  rw [← htail, List.head?_append, hc]
  rfl

theorem trimmed_of_forall (hplain : ∀ c ∈ s, isBlank c = false) : Trimmed s := by
  constructor
  · rintro ⟨c, hc, hblank⟩
    rw [hplain c (List.mem_of_mem_head? hc)] at hblank
    cases hblank
  · rintro ⟨c, hc, hblank⟩
    rw [hplain c (List.mem_of_getLast? hc)] at hblank
    cases hblank

theorem trim_cons_of_isBlank (hblank : isBlank c = true) (s : List Char) : trim (c :: s) = trim s := by
  rw [trim, trimStart, List.dropWhile_cons_of_pos hblank]
  rfl

theorem mem_trim_iff (hplain : isBlank c = false) : c ∈ trim s ↔ c ∈ s := by
  rw [← List.count_pos_iff, count_trim hplain, List.count_pos_iff]

/-! Words. -/

/-- A word is not empty and has no blank in it. -/
structure IsWord (s : List Char) : Prop where
  ne_nil : s ≠ []
  plain : ∀ c ∈ s, isBlank c = false

theorem isWord_of_mem_words {w : List Char} (hw : w ∈ words s) : IsWord w := by
  obtain ⟨hpart, hne⟩ := List.mem_filter.mp hw
  exact ⟨by simpa using hne, fun c hc => eq_false_of_mem_splitOnP hpart hc⟩

theorem words_append (hblank : isBlank c = true) (s t : List Char) : words (s ++ c :: t) = words s ++ words t := by
  rw [words, List.splitOnP_append_cons _ _ hblank, List.filter_append]
  rfl

theorem IsWord.words_eq (hword : IsWord s) : words s = [s] := by
  rw [words, List.splitOnP_eq_singleton hword.plain]
  simp [hword.ne_nil]

/-- Words with single spaces between them are read back. -/
theorem words_intercalate {ws : List (List Char)} (hwords : ∀ w ∈ ws, IsWord w) :
    words ([' '].intercalate ws) = ws := by
  induction ws with
  | nil => rfl
  | cons w rest ih =>
    obtain ⟨hword, hrest⟩ := List.forall_mem_cons.mp hwords
    cases rest with
    | nil => rw [List.intercalate_singleton, hword.words_eq]
    | cons next more =>
      rw [List.intercalate_cons_cons, List.append_assoc, List.singleton_append, words_append (by decide),
        hword.words_eq, ih hrest]
      rfl

end PluginHost.Text
