import PluginHost.Patching.Patch
import PluginHost.Proofs.Text.Cut
/-!
Functions and the texts that name them.

A function is read from its display text, and from one more text if it has no namespace: a dot in front of the type
is then read as the end of an empty namespace, and is lost. Main statement: `qualified_names_lossless`.
-/

namespace PluginHost.FunctionName

open Text

/-- The function is the one that its display text names: the last dot before the first pair of colons stands before
    the name of the type, and neither name is missing. -/
structure IsReadable (f : FunctionName) : Prop where
  typeName_ne : f.typeName ≠ ""
  name_ne : f.name ≠ ""
  undotted : '.' ∉ f.typeName.toList
  uncut : ¬ [':', ':'] <:+: f.declaringType.toList ++ [':']

/-- The text begins with a dot. -/
def LedByDot (s : String) : Prop := s.toList.head? = some '.'

variable {f : FunctionName} {s t : String}

theorem toList_declaringType (f : FunctionName) :
    f.declaringType.toList =
      if f.ns = "" then f.typeName.toList else f.ns.toList ++ '.' :: f.typeName.toList := by
  rw [declaringType, Symbol.qualify]
  by_cases hns : f.ns = ""
  · rw [if_pos hns, if_pos (String.isEmpty_iff.mpr hns)]
  · rw [if_neg hns, if_neg (mt String.isEmpty_iff.mp hns)]
    simp

theorem toList_display (f : FunctionName) :
    f.display.toList = f.declaringType.toList ++ [':', ':'] ++ f.name.toList := by
  simp [display]

/-- The last dot ends the namespace; without one there is none. -/
theorem ownerParts_eq_iff {owner ns typeName : List Char} :
    (cutLast? '.' owner).getD ([], owner) = (ns, typeName) ↔
      '.' ∉ typeName ∧ (owner = ns ++ '.' :: typeName ∨ ns = [] ∧ owner = typeName) := by
  cases hcut : cutLast? '.' owner with
  | none =>
    have hnone := cutLast?_eq_none_iff.mp hcut
    rw [Option.getD_none, Prod.mk.injEq]
    constructor
    · rintro ⟨rfl, rfl⟩
      exact ⟨hnone, Or.inr ⟨rfl, rfl⟩⟩
    · rintro ⟨-, rfl | ⟨rfl, rfl⟩⟩
      · exact absurd (by simp) hnone
      · exact ⟨rfl, rfl⟩
  | some parts =>
    obtain ⟨before, after⟩ := parts
    obtain ⟨rfl, hafter⟩ := cutLast?_eq_some_iff.mp hcut
    rw [Option.getD_some, Prod.mk.injEq]
    constructor
    · rintro ⟨rfl, rfl⟩
      exact ⟨hafter, Or.inl rfl⟩
    · rintro ⟨htype, heq | ⟨-, rfl⟩⟩
      · rw [heq, cutLast?_eq_some_iff.mpr ⟨rfl, htype⟩] at hcut
        cases hcut
        exact ⟨rfl, rfl⟩
      · exact absurd (by simp) htype

/-- A function is read from its owner and its name, with the first pair of colons between them. -/
theorem ofQualified?_eq_some_iff_exists :
    ofQualified? s = some f ↔ f.typeName ≠ "" ∧ f.name ≠ "" ∧ ∃ owner,
      s.toList = owner ++ [':', ':'] ++ f.name.toList ∧ ¬ [':', ':'] <:+: owner ++ [':'] ∧
      (cutLast? '.' owner).getD ([], owner) = (f.ns.toList, f.typeName.toList) := by
  have hcolons : [':', ':'] ≠ [] := List.cons_ne_nil _ _
  constructor
  · intro hread
    obtain ⟨⟨owner, name⟩, hcut, hread⟩ := Option.bind_eq_some_iff.mp hread
    obtain ⟨htext, hfirst⟩ := (cutFirst?_eq_some_iff hcolons).mp hcut
    dsimp only at hread
    split at hread
    · cases hread
    · next hnamed =>
      cases hread
      rw [Bool.or_eq_true, not_or] at hnamed
      exact ⟨by simpa using hnamed.1, by simpa using hnamed.2, owner, by simpa using htext, hfirst, by simp⟩
  · rintro ⟨htype, hname, owner, htext, hfirst, hparts⟩
    have hcut := (cutFirst?_eq_some_iff hcolons).mpr ⟨htext, hfirst⟩
    rw [ofQualified?, hcut]
    dsimp only [Option.bind_eq_bind, Option.bind_some]
    rw [hparts]
    simp [htype, hname]

/-- A function is read from its display text, and from that behind a dot if it has no namespace; and from no other
    text. -/
theorem ofQualified?_eq_some_iff :
    ofQualified? s = some f ↔ f.IsReadable ∧ (s = f.display ∨ f.ns = "" ∧ s = "." ++ f.display) := by
  have hempty : f.ns.toList = [] ↔ f.ns = "" := by simp
  rw [ofQualified?_eq_some_iff_exists]
  constructor
  · rintro ⟨htype, hname, owner, htext, hfirst, hparts⟩
    obtain ⟨hundotted, rfl | ⟨hns, rfl⟩⟩ := ownerParts_eq_iff.mp hparts
    · by_cases hns : f.ns = ""
      · -- The dot in front of the type ends an empty namespace.
        have howner : f.declaringType.toList = f.typeName.toList := by rw [toList_declaringType, if_pos hns]
        rw [hns, String.toList_empty, List.nil_append] at htext hfirst
        refine ⟨⟨htype, hname, hundotted, fun hlater => hfirst ?_⟩, Or.inr ⟨hns, ?_⟩⟩
        · rw [howner] at hlater
          exact List.infix_cons hlater
        · apply String.toList_inj.mp
          rw [htext, String.toList_append, toList_display, howner]
          rfl
      · have howner : f.declaringType.toList = f.ns.toList ++ '.' :: f.typeName.toList := by
          rw [toList_declaringType, if_neg hns]
        refine ⟨⟨htype, hname, hundotted, howner ▸ hfirst⟩, Or.inl ?_⟩
        apply String.toList_inj.mp
        rw [htext, toList_display, howner]
    · have howner : f.declaringType.toList = f.typeName.toList := by
        rw [toList_declaringType, if_pos (hempty.mp hns)]
      refine ⟨⟨htype, hname, hundotted, howner ▸ hfirst⟩, Or.inl ?_⟩
      apply String.toList_inj.mp
      rw [htext, toList_display, howner]
  · rintro ⟨hreadable, rfl | ⟨hns, rfl⟩⟩
    · refine ⟨hreadable.typeName_ne, hreadable.name_ne, f.declaringType.toList, toList_display f, hreadable.uncut,
        ownerParts_eq_iff.mpr ⟨hreadable.undotted, ?_⟩⟩
      rw [toList_declaringType]
      split
      · next hns => exact Or.inr ⟨hempty.mpr hns, rfl⟩
      · exact Or.inl rfl
    · have howner : f.declaringType.toList = f.typeName.toList := by rw [toList_declaringType, if_pos hns]
      have hfirst : ¬ [':', ':'] <:+: '.' :: (f.typeName.toList ++ [':']) := by
        rw [List.infix_cons_iff, not_or]
        exact ⟨by simp, howner ▸ hreadable.uncut⟩
      refine ⟨hreadable.typeName_ne, hreadable.name_ne, '.' :: f.typeName.toList, ?_, hfirst,
        ownerParts_eq_iff.mpr ⟨hreadable.undotted, Or.inl (by rw [hempty.mpr hns]; rfl)⟩⟩
      rw [String.toList_append, toList_display, howner]
      rfl

theorem ofQualified?_display_iff : ofQualified? f.display = some f ↔ f.IsReadable :=
  ofQualified?_eq_some_iff.trans ⟨fun h => h.1, fun h => ⟨h, Or.inl rfl⟩⟩

/-- Without colons in its namespace and its type, a function is readable if both names are there and the type has no
    dot. -/
theorem isReadable_of_colonless (hns : ':' ∉ f.ns.toList) (htype : ':' ∉ f.typeName.toList)
    (htypeName : f.typeName ≠ "") (hundotted : '.' ∉ f.typeName.toList) (hname : f.name ≠ "") : f.IsReadable := by
  have howner : ':' ∉ f.declaringType.toList := by
    rw [toList_declaringType]
    split
    · exact htype
    · simp [hns, htype]
  refine ⟨htypeName, hname, hundotted, fun hcolons => ?_⟩
  have hcount := hcolons.sublist.count_le ':'
  rw [List.count_append, List.count_eq_zero.mpr howner] at hcount
  exact absurd hcount (by decide)

/-- A text that names a type without a namespace begins with the type. -/
theorem not_ledByDot_display (hreadable : f.IsReadable) (hns : f.ns = "") : ¬ LedByDot f.display := by
  have htypeName : f.typeName.toList ≠ [] := fun hnil => hreadable.typeName_ne (String.toList_eq_nil_iff.mp hnil)
  obtain ⟨c, rest, htype⟩ := List.exists_cons_of_ne_nil htypeName
  rw [LedByDot, toList_display, toList_declaringType, if_pos hns, htype]
  rintro ⟨⟩
  exact hreadable.undotted (htype ▸ List.mem_cons_self)

theorem ledByDot_append (s : String) : LedByDot ("." ++ s) := by
  rw [LedByDot, String.toList_append]
  rfl

/-- A function without a namespace has two texts, and the one behind a dot is not its display text. -/
theorem ledByDot_iff (hread : ofQualified? s = some f) (hns : f.ns = "") : LedByDot s ↔ f.display ≠ s := by
  obtain ⟨hreadable, rfl | ⟨-, rfl⟩⟩ := ofQualified?_eq_some_iff.mp hread
  · exact iff_of_false (not_ledByDot_display hreadable hns) fun hne => hne rfl
  · refine iff_of_true (ledByDot_append _) fun hsame => not_ledByDot_display hreadable hns ?_
    rw [hsame]
    exact ledByDot_append _

theorem display_eq_iff (hread : ofQualified? s = some f) : f.display = s ↔ ¬ (f.ns = "" ∧ LedByDot s) := by
  by_cases hns : f.ns = ""
  · rw [ledByDot_iff hread hns]
    simp [hns]
  · obtain ⟨-, rfl | ⟨hnone, -⟩⟩ := ofQualified?_eq_some_iff.mp hread
    · simp [hns]
    · exact absurd hnone hns

/-- Two texts of one function differ only by a dot in front. -/
theorem texts_eq_iff (hs : ofQualified? s = some f) (ht : ofQualified? t = some f) :
    s = t ↔ (LedByDot s ↔ LedByDot t) := by
  constructor
  · rintro rfl
    exact Iff.rfl
  · intro hdots
    by_cases hns : f.ns = ""
    · rw [ledByDot_iff hs hns, ledByDot_iff ht hns, not_iff_not] at hdots
      obtain ⟨-, rfl | ⟨-, rfl⟩⟩ := ofQualified?_eq_some_iff.mp hs
      · exact hdots.mp rfl
      · obtain ⟨-, rfl | ⟨-, rfl⟩⟩ := ofQualified?_eq_some_iff.mp ht
        · exact (hdots.mpr rfl).symm
        · rfl
    · have hdisplay : ∀ r, ofQualified? r = some f → f.display = r := fun r hr =>
        (display_eq_iff hr).mpr fun hled => hns hled.1
      rw [← hdisplay s hs, hdisplay t ht]

/-- A function is displayed as the text from which it was read, unless it has no namespace and the text begins with a
    dot. So two texts of one function are the same if both or neither begin with a dot. A function is read back from
    its display text as it is if there are no colons in its namespace and its type, no dot in its type, and neither
    its type nor its own name is missing. -/
theorem qualified_names_lossless (f : FunctionName) :
    (∀ s, ofQualified? s = some f → (f.display = s ↔ ¬ (f.ns = "" ∧ LedByDot s))) ∧
    (∀ s t, ofQualified? s = some f → ofQualified? t = some f → (s = t ↔ (LedByDot s ↔ LedByDot t))) ∧
    (':' ∉ f.ns.toList → ':' ∉ f.typeName.toList → f.typeName ≠ "" → '.' ∉ f.typeName.toList → f.name ≠ "" →
      ofQualified? f.display = some f) := by
  refine ⟨fun s => display_eq_iff, fun s t => texts_eq_iff, fun hns htype htypeName hundotted hname => ?_⟩
  exact ofQualified?_display_iff.mpr (isReadable_of_colonless hns htype htypeName hundotted hname)

/-- A pair of colons in the name of a function belongs to the name, and a dot in it as well. -/
theorem qualified_name_read_back :
    let jump : FunctionName := ⟨"Game.World", "Player", "Jump::On.Land"⟩
    jump.display = "Game.World.Player::Jump::On.Land" ∧ ofQualified? jump.display = some jump ∧
      ∀ s, ofQualified? s = some jump → s = jump.display := by
  intro jump
  obtain ⟨hdisplayed, -, hread⟩ := qualified_names_lossless jump
  refine ⟨by decide +kernel, hread ?_ ?_ ?_ ?_ ?_, fun s hs => ((hdisplayed s hs).mpr ?_).symm⟩
  · decide +kernel
  · decide +kernel
  · decide
  · decide +kernel
  · decide
  · rintro ⟨hns, -⟩
    exact absurd hns (by decide)

/-- A dot in front of a type without a namespace is read over. -/
theorem leading_dot_lost :
    let jump : FunctionName := ⟨"", "Player", "Jump"⟩
    ofQualified? ".Player::Jump" = some jump ∧ ofQualified? "Player::Jump" = some jump ∧
      jump.display ≠ ".Player::Jump" := by
  decide +kernel

end PluginHost.FunctionName
