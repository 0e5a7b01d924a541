import PluginHost.Proofs.Text.Cut
import PluginHost.Proofs.Text.Slice
import PluginHost.Proofs.Turns
import PluginHost.Symbol
/-!
What is left of a name without the array groups at its end.

Blanks are cut off once, before the array groups are, so blanks that stand before an array group stay. Brackets with
anything but commas between them stay too, and so do brackets without a partner. Main statement:
`stripArraySuffix_exact`.
-/

namespace PluginHost.Symbol

open Text

/-! One array group. -/

/-- What stands behind the element type of an array of one dimension more than there are commas. -/
def arrayGroup (commas : Nat) : List Char := '[' :: (List.replicate commas ',' ++ [']'])

theorem cutLast?_arrayGroup (commas : Nat) : cutLast? '[' (List.replicate commas ',' ++ [']']) = none := by
  induction commas with
  | zero => rfl
  | succ commas ih =>
    rw [List.replicate_succ, List.cons_append, cutLast?, ih]
    rfl

theorem dropArrayGroup?_append_arrayGroup (s : List Char) (commas : Nat) :
    dropArrayGroup? (s ++ arrayGroup commas) = some s := by
  rw [dropArrayGroup?, arrayGroup, cutLast?_append_mark, cutLast?_arrayGroup]
  simp

/-- The last opening bracket is that of the last group, since no group has another one in it. -/
theorem dropArrayGroup?_eq_some_iff {s before : List Char} :
    dropArrayGroup? s = some before ↔ ∃ commas, s = before ++ arrayGroup commas := by
  constructor
  · intro hdrop
    rw [dropArrayGroup?] at hdrop
    split at hdrop
    · next front after hcut =>
      split at hdrop
      · next hgroup =>
        cases hdrop
        rw [Bool.and_eq_true, decide_eq_true_eq] at hgroup
        obtain ⟨hlast, hcommas⟩ := hgroup
        obtain ⟨inner, rfl⟩ : ∃ inner, after = inner ++ [']'] := List.getLast?_eq_some_iff.mp hlast
        rw [List.dropLast_concat] at hcommas
        have hinner : inner = List.replicate inner.length ',' :=
          List.eq_replicate_of_mem fun c hc => by simpa using List.all_eq_true.mp hcommas c hc
        rw [eq_append_of_cutLast? hcut]
        exact ⟨inner.length, by rw [arrayGroup, ← hinner]⟩
      · cases hdrop
    · cases hdrop
  · rintro ⟨commas, rfl⟩
    exact dropArrayGroup?_append_arrayGroup before commas

theorem dropArrayGroup?_eq_none_iff {s : List Char} :
    dropArrayGroup? s = none ↔ ∀ before commas, s ≠ before ++ arrayGroup commas := by
  rw [Option.eq_none_iff_forall_ne_some]
  simp only [ne_eq, dropArrayGroup?_eq_some_iff, not_exists]

/-- Behind an array group no blank is cut off. -/
theorem trimEnd_append_arrayGroup (s : List Char) (commas : Nat) :
    trimEnd (s ++ arrayGroup commas) = s ++ arrayGroup commas := by
  rw [arrayGroup, ← List.cons_append, ← List.append_assoc]
  exact List.rdropWhile_concat_neg _ _ _ (by decide)

theorem dropArrayGroup?_of_endsInBlank {s : List Char} (hblank : EndsInBlank s) : dropArrayGroup? s = none := by
  cases hdrop : dropArrayGroup? s with
  | none => rfl
  | some before =>
    -- The last character is the closing bracket of the group.
    obtain ⟨commas, rfl⟩ := dropArrayGroup?_eq_some_iff.mp hdrop
    exact absurd hblank (trimEnd_eq_self_iff.mp (trimEnd_append_arrayGroup before commas))

/-! All array groups. -/

theorem dropArrayGroups_of_none {s : List Char} (h : dropArrayGroup? s = none) : dropArrayGroups s = s := by
  rw [dropArrayGroups]
  split
  · next heq =>
    rw [h] at heq
    cases heq
  · rfl

theorem dropArrayGroups_of_some {s before : List Char} (h : dropArrayGroup? s = some before) :
    dropArrayGroups s = dropArrayGroups before := by
  rw [dropArrayGroups]
  split
  · next heq =>
    rw [h] at heq
    cases heq
    rfl
  · next heq =>
    rw [h] at heq
    cases heq

theorem dropArrayGroups_idem (s : List Char) : dropArrayGroups (dropArrayGroups s) = dropArrayGroups s := by
  fun_induction dropArrayGroups s with
  | case1 s before hdrop ih => exact ih
  | case2 s hdrop => exact dropArrayGroups_of_none hdrop

theorem dropArrayGroups_append (s : List Char) (groups : List Nat) :
    dropArrayGroups (s ++ groups.flatMap arrayGroup) = dropArrayGroups s := by
  -- Groups are dropped from the back.
  induction groups using List.reverseRecOn with
  | nil => rw [List.flatMap_nil, List.append_nil]
  | append_singleton groups commas ih =>
    rw [List.flatMap_append, List.flatMap_singleton, ← List.append_assoc,
      dropArrayGroups_of_some (dropArrayGroup?_append_arrayGroup _ commas), ih]

/-- What is left is the one text that has no group at its end and comes to the whole text with groups behind it. -/
theorem dropArrayGroups_eq_iff {s result : List Char} : dropArrayGroups s = result ↔
    (∃ groups : List Nat, s = result ++ groups.flatMap arrayGroup) ∧
      ∀ before commas, result ≠ before ++ arrayGroup commas := by
  constructor
  · rintro rfl
    fun_induction dropArrayGroups s with
    | case1 s before hdrop ih =>
      obtain ⟨⟨groups, hgroups⟩, hend⟩ := ih
      obtain ⟨commas, rfl⟩ := dropArrayGroup?_eq_some_iff.mp hdrop
      refine ⟨⟨groups ++ [commas], ?_⟩, hend⟩
      rw [List.flatMap_append, List.flatMap_singleton, ← List.append_assoc, ← hgroups]
    | case2 s hdrop => exact ⟨⟨[], by rw [List.flatMap_nil, List.append_nil]⟩, dropArrayGroup?_eq_none_iff.mp hdrop⟩
  · rintro ⟨⟨groups, rfl⟩, hend⟩
    rw [dropArrayGroups_append, dropArrayGroups_of_none (dropArrayGroup?_eq_none_iff.mpr hend)]

theorem length_dropArrayGroups_le (s : List Char) : (dropArrayGroups s).length ≤ s.length := by
  fun_induction dropArrayGroups s with
  | case1 s before hdrop ih => exact ih.trans (length_lt_of_dropArrayGroup? hdrop).le
  | case2 s hdrop => exact le_rfl

/-- Trimming makes a difference exactly to what ends in a blank: array groups before it are then found by the
    trimmed name alone. -/
theorem dropArrayGroups_trimEnd_eq_iff {s : List Char} :
    dropArrayGroups (trimEnd s) = dropArrayGroups s ↔ ¬ EndsInBlank s := by
  constructor
  · intro hsame hblank
    have hlonger : (trimEnd s).length ≠ s.length := fun hlength =>
      trimEnd_eq_self_iff.not_left.mpr hblank ((List.rdropWhile_prefix isBlank s).eq_of_length hlength)
    have htrimmed : (trimEnd s).length ≤ s.length := (List.rdropWhile_prefix isBlank s).length_le
    have hkept : (dropArrayGroups s).length = s.length := by
      rw [dropArrayGroups_of_none (dropArrayGroup?_of_endsInBlank hblank)]
    have hdropped := length_dropArrayGroups_le (trimEnd s)
    rw [hsame] at hdropped
    omega
  · intro hplain
    rw [trimEnd_eq_self_iff.mpr hplain]

/-! Names with array groups. -/

/-- A name with array groups one after another, each given by the number of its commas. -/
def decorate (name : String) (groups : List Nat) : String :=
  name ++ String.ofList (groups.flatMap arrayGroup)

theorem toList_decorate (name : String) (groups : List Nat) :
    (decorate name groups).toList = name.toList ++ groups.flatMap arrayGroup := by
  rw [decorate, String.toList_append, String.toList_ofList]

/-- Array groups take with them the trimming of the name before them. -/
theorem stripArraySuffix_decorate (name : String) (group : Nat) (groups : List Nat) :
    stripArraySuffix (decorate name (group :: groups)) = String.ofList (dropArrayGroups name.toList) := by
  obtain ⟨init, last, hsplit⟩ : ∃ init last, group :: groups = init ++ [last] :=
    List.eq_nil_or_concat' _ |>.resolve_left (List.cons_ne_nil _ _)
  have hgroups : (group :: groups).flatMap arrayGroup = init.flatMap arrayGroup ++ arrayGroup last := by
    rw [hsplit, List.flatMap_append, List.flatMap_singleton]
  have htrim : trimEnd (decorate name (group :: groups)).toList = (decorate name (group :: groups)).toList := by
    rw [toList_decorate, hgroups, ← List.append_assoc, trimEnd_append_arrayGroup]
  rw [stripArraySuffix, htrim, toList_decorate, dropArrayGroups_append]

theorem stripArraySuffix_eq_iff {name element : String} : stripArraySuffix name = element ↔
    (∃ groups, String.ofList (trimEnd name.toList) = decorate element groups) ∧
      ∀ other commas, element ≠ decorate other [commas] := by
  have hgroup : ∀ other commas,
      element = decorate other [commas] ↔ element.toList = other.toList ++ arrayGroup commas := fun other commas => by
    rw [← String.toList_inj, toList_decorate, List.flatMap_singleton]
  rw [← String.toList_inj, stripArraySuffix, String.toList_ofList, dropArrayGroups_eq_iff]
  refine and_congr (exists_congr fun groups => ?_) ⟨fun hend other commas => ?_, fun hend before commas => ?_⟩
  · rw [← String.toList_inj, String.toList_ofList, toList_decorate]
  · exact (hgroup other commas).not.mpr (hend other.toList commas)
  · have hend := (hgroup (String.ofList before) commas).not.mp (hend _ commas)
    rwa [String.toList_ofList] at hend

/-! The groups as they are cut off in turns, with accesses that can go wrong. -/

/-- Reads the text before the last group in the same steps as `dropArrayGroup?`. There is no result if a step goes
    wrong: if a part of the text is asked for that is not there, or if a position comes to lie before the start. -/
def readArrayGroup? (s : List Char) : Option (Option (List Char)) :=
  if s.getLast? = some ']' then
    match lastPosition? '[' s with
    | none => some none
    | some opening => do
      let closing ← Nat.psub (byteCount s) 1
      let inner ← slice? s (opening + 1) closing
      if inner.all (· = ',') then
        let before ← slice? s 0 opening
        return some before
      else return none
  else some none

/-- The last opening bracket lies before a closing one at the end, and both take one byte. -/
theorem readArrayGroup?_eq (s : List Char) : readArrayGroup? s = some (dropArrayGroup? s) := by
  rw [readArrayGroup?, dropArrayGroup?, lastPosition?]
  cases hcut : cutLast? '[' s with
  | none =>
    rw [Option.map_none]
    dsimp only
    split <;> rfl
  | some parts =>
    obtain ⟨before, after⟩ := parts
    obtain rfl := eq_append_of_cutLast? hcut
    rw [Option.map_some]
    dsimp only
    split
    · next hlast =>
      obtain ⟨inner, rfl⟩ := exists_concat_of_getLast?_mark (by decide) hlast
      have hclosing : Nat.psub (byteCount (before ++ '[' :: (inner ++ [']']))) 1 =
          some (byteCount (before ++ '[' :: inner)) := by
        rw [← List.cons_append, ← List.append_assoc]
        exact psub_byteCount_concat _ rfl
      have hinner : slice? (before ++ '[' :: (inner ++ [']'])) (byteCount before + 1)
          (byteCount (before ++ '[' :: inner)) = some inner := slice?_enclosed before inner '[' ']'
      have hbefore : slice? (before ++ '[' :: (inner ++ [']'])) 0 (byteCount before) = some before := slice?_zero _ _
      rw [hclosing, Option.bind_eq_bind, Option.bind_some, hinner, Option.bind_eq_bind, Option.bind_some, hbefore,
        List.getLast?_concat, List.dropLast_concat]
      cases inner.all (· = ',') <;> rfl
    · next hlast =>
      have hopen : after.getLast? ≠ some ']' := fun hclosed => hlast (by
        rw [List.getLast?_append, List.getLast?_cons, hclosed]
        rfl)
      rw [decide_eq_false hopen, Bool.false_and, if_neg Bool.false_ne_true]

/-- One turn cuts a group off or comes to an end. It comes to nothing if a step goes wrong. -/
def groupTurn (s : List Char) : Option (List Char) ⊕ List Char :=
  match readArrayGroup? s with
  | none => .inl none
  | some none => .inl (some s)
  | some (some before) => .inr before

/-- Every group that is cut off makes the text shorter and leaves the same text in the end. -/
theorem endsAfter_dropArrayGroups (s : List Char) :
    ∃ n ≤ s.length + 1, EndsAfter groupTurn n s (some (dropArrayGroups s)) := by
  refine endsAfter_of_turns (fun t => dropArrayGroups t = dropArrayGroups s) List.length (fun t ht => ?_) s rfl
  rw [groupTurn, readArrayGroup?_eq]
  cases hdrop : dropArrayGroup? t with
  | none =>
    rw [dropArrayGroups_of_none hdrop] at ht
    exact .inl (by rw [ht])
  | some before =>
    rw [dropArrayGroups_of_some hdrop] at ht
    exact .inr ⟨before, rfl, ht, length_lt_of_dropArrayGroup? hdrop⟩

/-- For every name whatever, array groups are cut off in turns until no turn is left, after at most as many groups as
    there are characters, and no turn goes wrong. What is left is the one text that does not end in an array group and
    that comes to the name without blanks at its end, with zero or more array groups behind it. -/
theorem stripArraySuffix_exact (name : String) :
    (∃ n ≤ name.length + 1, EndsAfter groupTurn n (trimEnd name.toList) (some (stripArraySuffix name).toList)) ∧
    ∀ element, stripArraySuffix name = element ↔
      (∃ groups, String.ofList (trimEnd name.toList) = decorate element groups) ∧
        ∀ other commas, element ≠ decorate other [commas] := by
  refine ⟨?_, fun element => stripArraySuffix_eq_iff⟩
  obtain ⟨n, hn, hends⟩ := endsAfter_dropArrayGroups (trimEnd name.toList)
  have hlength : (trimEnd name.toList).length ≤ name.length := (List.rdropWhile_prefix isBlank _).length_le
  rw [stripArraySuffix, String.toList_ofList]
  exact ⟨n, by omega, hends⟩

end PluginHost.Symbol
