import PluginHost.Proofs.Compliance.Disguise
import PluginHost.Proofs.Text.Blank
/-!
How type and name of a method are read from a signature.

A signature is cut at its first parenthesis, then at the first pair of colons, and then at the last space before these.
Behind the parenthesis anything may stand, and behind the colons anything but a parenthesis: no cut is made there.
Main statement: `plainMethodName_exact`.
-/

namespace PluginHost.Symbol

open Text

variable {s owner name : List Char}

/-! The cuts. -/

/-- Without spaces, a text stands behind its last space as a whole. -/
theorem afterLastSpace_of_not_mem (hspace : ' ' ∉ s) : afterLastSpace s = s := by
  rw [afterLastSpace, cutLast?_eq_none_iff.mpr hspace]

theorem afterLastSpace_suffix (s : List Char) : afterLastSpace s <:+ s := by
  rw [afterLastSpace]
  split
  · next before after hcut =>
    rw [eq_append_of_cutLast? hcut]
    exact (List.suffix_cons _ _).trans (List.suffix_append _ _)
  · exact List.suffix_refl s

/-- The first pair of colons begins no later than at the end of an owner that has colons behind it. It may begin one
    colon earlier, if the owner ends in one. -/
theorem prefix_of_cutFirst?_colons {before member : List Char}
    (hcut : cutFirst? [':', ':'] (owner ++ [':', ':'] ++ name) = some (before, member)) : before <+: owner := by
  obtain ⟨heq, hfirst⟩ := (cutFirst?_eq_some_iff (List.cons_ne_nil _ _)).mp hcut
  have howner : owner ++ [':', ':'] <+: owner ++ [':', ':'] ++ name := List.prefix_append _ _
  have hbefore : before ++ [':'] <+: owner ++ [':', ':'] ++ name := ⟨':' :: member, by simp [heq]⟩
  rcases Nat.lt_or_ge owner.length before.length with hlonger | hle
  · have hinside : owner ++ [':', ':'] <+: before ++ [':'] :=
      List.prefix_of_prefix_length_le howner hbefore (by simp; omega)
    exact absurd ((List.suffix_append owner _).isInfix.trans hinside.isInfix) hfirst
  · exact List.prefix_of_prefix_length_le ((List.prefix_append _ _).trans hbefore)
      ((List.prefix_append _ _).trans howner) hle

/-! What is read. -/

/-- An owner without spaces and a name, with colons between them, are read as they are but for blanks at the ends. -/
theorem declaredMethod_colons (howner : '(' ∉ owner) (hspace : ' ' ∉ owner) (hname : '(' ∉ name) :
    declaredMethod (owner ++ [':', ':'] ++ name) = trim (owner ++ [':', ':'] ++ name) := by
  have hbare : (owner ++ [':', ':'] ++ name).takeWhile (· ≠ '(') = owner ++ [':', ':'] ++ name := by
    have hnone : '(' ∉ owner ++ [':', ':'] ++ name := by simp [howner, hname]
    have htake := takeWhile_append_of_not_mem hnone []
    rwa [List.takeWhile_nil, List.append_nil] at htake
  rw [declaredMethod, hbare]
  cases hcut : cutFirst? [':', ':'] (owner ++ [':', ':'] ++ name) with
  | none => exact absurd ⟨owner, name, rfl⟩ (cutFirst?_eq_none_iff.mp hcut)
  | some parts =>
    obtain ⟨before, member⟩ := parts
    have hbefore : ' ' ∉ before := fun hmem => hspace ((prefix_of_cutFirst?_colons hcut).subset hmem)
    dsimp only
    rw [afterLastSpace_of_not_mem hbefore, eq_append_of_cutFirst? hcut]
    simp

/-- A whole signature is read as the owner and the name in it. -/
theorem plainMethodName_signature {returned owner name parameters : String} (hreturned : Unmarked returned.toList)
    (howner : '(' ∉ owner.toList) (hspace : ' ' ∉ owner.toList) (hname : '(' ∉ name.toList)
    (htrimmed : Trimmed (owner ++ "::" ++ name).toList) :
    plainMethodName (returned ++ " " ++ owner ++ "::" ++ name ++ "(" ++ parameters ++ ")") =
      owner ++ "::" ++ name := by
  have hmethod : (owner ++ "::" ++ name).toList = owner.toList ++ [':', ':'] ++ name.toList := by simp
  have hsignature : (returned ++ " " ++ owner ++ "::" ++ name ++ "(" ++ parameters ++ ")").toList =
      (returned.toList ++ ' ' :: (owner ++ "::" ++ name).toList) ++ '(' :: (parameters ++ ")").toList := by simp
  rw [plainMethodName, hsignature, declaredMethod_append_parenthesis, declaredMethod_append_space hreturned, hmethod,
    declaredMethod_colons howner hspace hname, ← hmethod, trim_eq_self_iff.mpr htrimmed, String.ofList_toList]

/-- Whatever is read stands in the signature, before the first parenthesis. -/
theorem declaredMethod_infix (signature : List Char) :
    declaredMethod signature <:+: signature.takeWhile (· ≠ '(') := by
  have htrim : ∀ t : List Char, trim t <:+: t := fun t =>
    (List.rdropWhile_prefix isBlank _).isInfix.trans (List.dropWhile_suffix isBlank).isInfix
  rw [declaredMethod]
  refine (htrim _).trans ?_
  split
  · next before member hcut =>
    rw [eq_append_of_cutFirst? hcut]
    obtain ⟨front, hfront⟩ := afterLastSpace_suffix before
    refine ⟨front, [], ?_⟩
    rw [List.append_nil, ← List.append_assoc, hfront, List.append_assoc]
    rfl
  · exact (afterLastSpace_suffix _).isInfix

/-- A signature with a return type, an owner, a name and parameters is read as owner and name, if no parenthesis stands
    before the parameters, no pair of colons in the return type, no space in the owner, and no blanks at the ends of
    what is to be read. The return type may have spaces, the name spaces and colons, and the parameters anything. Out
    of any text whatever, a part of it is read that has no parenthesis. -/
theorem plainMethodName_exact :
    (∀ returned owner name parameters : String, '(' ∉ returned.toList → ¬ [':', ':'] <:+: returned.toList →
      '(' ∉ owner.toList → ' ' ∉ owner.toList → '(' ∉ name.toList → Trimmed (owner ++ "::" ++ name).toList →
        plainMethodName (returned ++ " " ++ owner ++ "::" ++ name ++ "(" ++ parameters ++ ")") =
          owner ++ "::" ++ name) ∧
    ∀ signature, (plainMethodName signature).toList <:+: signature.toList ∧
      '(' ∉ (plainMethodName signature).toList := by
  refine ⟨fun returned owner name parameters hparenthesis hcolons howner hspace hname htrimmed =>
    plainMethodName_signature ⟨hparenthesis, hcolons⟩ howner hspace hname htrimmed, fun signature => ?_⟩
  have hwithin := declaredMethod_infix signature.toList
  rw [plainMethodName, String.toList_ofList]
  refine ⟨hwithin.trans (List.takeWhile_prefix _).isInfix, fun hmem => ?_⟩
  simpa using List.mem_takeWhile_imp (hwithin.subset hmem)

/-- A return type with spaces, arrays and generic arguments, and a name with spaces and colons. -/
theorem plainMethodName_explicit_implementation :
    let returned := "System.Map`2<System.String, Mods.Box[,]>[]"
    let name := "explicit I::Load it"
    plainMethodName (returned ++ " " ++ "Mods.Box" ++ "::" ++ name ++ "(" ++ "Mods.F( ::*)(x" ++ ")") =
      "Mods.Box" ++ "::" ++ name := by
  intro returned name
  exact plainMethodName_exact.1 returned "Mods.Box" name "Mods.F( ::*)(x" (by decide +kernel) (by decide +kernel)
    (by decide +kernel) (by decide +kernel) (by decide +kernel)
    (trim_eq_self_iff.mp (by decide +kernel))

end PluginHost.Symbol
