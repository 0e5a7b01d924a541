import PluginHost.Compliance.Analysis
import PluginHost.Proofs.Compliance.Mentions
import PluginHost.Proofs.Text.Cut
/-!
What a signature shows of the method it declares, and which calls of a restricted method are seen.

Type and name of a called method are cut out of its rendered signature, and the cuts are made at the
first parenthesis and at the first pair of colons. The return type stands before both, and a module may give
it any name. Main statement: the types that may be returned without hiding which method is called are exactly
those that are rendered without either mark.
-/

namespace PluginHost

namespace Symbol

open Text

/-- A text with neither of the marks at which signatures are cut. -/
def Unmarked (s : List Char) : Prop := '(' ∉ s ∧ ¬ [':', ':'] <:+: s

instance : DecidablePred Unmarked := fun _ => inferInstanceAs (Decidable (_ ∧ ¬ _))

theorem afterLastSpace_append (s t : List Char) :
    afterLastSpace (s ++ ' ' :: t) = afterLastSpace t := by
  rw [afterLastSpace, cutLast?_append_mark, afterLastSpace]
  cases cutLast? ' ' t <;> rfl

/-- The parameters do not matter. -/
theorem declaredMethod_append_parenthesis (s parameters : List Char) :
    declaredMethod (s ++ '(' :: parameters) = declaredMethod s := by
  have htake : (s ++ '(' :: parameters).takeWhile (· ≠ '(') = s.takeWhile (· ≠ '(') := by
    induction s with
    | nil => simp
    | cons c s ih =>
      rw [List.cons_append, List.takeWhile_cons, List.takeWhile_cons, ih]
  rw [declaredMethod, htake, declaredMethod]

theorem takeWhile_append_of_not_mem {mark : Char} {s : List Char} (hmark : mark ∉ s)
    (t : List Char) : (s ++ t).takeWhile (· ≠ mark) = s ++ t.takeWhile (· ≠ mark) := by
  refine List.takeWhile_append_of_pos fun c hc => ?_
  rw [decide_eq_true_eq]
  rintro rfl
  exact hmark hc

/-- A return type without marks does not matter. -/
theorem declaredMethod_append_space {returned : List Char} (hunmarked : Unmarked returned)
    (s : List Char) : declaredMethod (returned ++ ' ' :: s) = declaredMethod s := by
  have htake : (returned ++ ' ' :: s).takeWhile (· ≠ '(') =
      returned ++ ' ' :: s.takeWhile (· ≠ '(') := by
    rw [takeWhile_append_of_not_mem hunmarked.1]
    simp
  have hnone : cutFirst? [':', ':'] returned = none := cutFirst?_eq_none_iff.mpr hunmarked.2
  rw [declaredMethod, htake, declaredMethod, cutFirst?_append_mark (by simp) (by decide) hnone]
  cases cutFirst? [':', ':'] (s.takeWhile (· ≠ '(')) with
  | none => rw [Option.map_none, afterLastSpace_append]
  | some parts =>
    dsimp only [Option.map_some]
    rw [afterLastSpace_append]

/-- Behind a return type with a parenthesis nothing is read. -/
theorem declaredMethod_append_of_mem {returned : List Char} (hmem : '(' ∈ returned)
    (s : List Char) : declaredMethod (returned ++ s) = declaredMethod returned := by
  obtain ⟨before, after, rfl⟩ := List.append_of_mem hmem
  rw [List.append_assoc, List.cons_append, declaredMethod_append_parenthesis,
    declaredMethod_append_parenthesis]

/-- A return type with colons is read as a part of the name: the colons before the method's own name
    are at least the second ones. -/
theorem count_colons_of_infix {returned : List Char} (hparenthesis : '(' ∉ returned)
    (hcolons : [':', ':'] <:+: returned) (s : List Char) :
    2 + (s.takeWhile (· ≠ '(')).count ':' ≤ (declaredMethod (returned ++ s)).count ':' := by
  cases hcut : cutFirst? [':', ':'] returned with
  | none => exact absurd hcolons (cutFirst?_eq_none_iff.mp hcut)
  | some parts =>
    rw [declaredMethod, takeWhile_append_of_not_mem hparenthesis, cutFirst?_append (by simp) hcut,
      count_trim (by decide)]
    simp only [List.count_append, List.count_cons_self]
    omega

end Symbol

/-- A type that is rendered without the marks at which signatures are cut. -/
def TypeRef.Unmarked (t : TypeRef) : Prop := Symbol.Unmarked t.display.toList

instance : DecidablePred TypeRef.Unmarked := fun t =>
  inferInstanceAs (Decidable (Symbol.Unmarked t.display.toList))

namespace MethodRef

/-- What stands in a signature behind the return type. -/
def declaration (m : MethodRef) : List Char :=
  m.declaringType.fullName.toList ++ ':' :: ':' :: m.name.toList

theorem signature_toList (m : MethodRef) :
    ∃ parameters, m.signature.toList =
      m.returnType.display.toList ++ ' ' :: (m.declaration ++ '(' :: parameters) := by
  refine ⟨(",".intercalate (m.parameters.map TypeRef.display)).toList ++ [')'], ?_⟩
  simp [signature, declaration]

/-- Only the return type, the declaring type and the name have a say in a plain name. -/
theorem plainName_eq (m : MethodRef) :
    m.plainName = String.ofList
      (Symbol.declaredMethod (m.returnType.display.toList ++ ' ' :: m.declaration)) := by
  obtain ⟨parameters, hsignature⟩ := m.signature_toList
  rw [plainName, Symbol.plainMethodName, hsignature, ← List.cons_append, ← List.append_assoc,
    Symbol.declaredMethod_append_parenthesis]

theorem plainName_of_unmarked {m : MethodRef} (hreturn : m.returnType.Unmarked) :
    m.plainName = String.ofList (Symbol.declaredMethod m.declaration) := by
  rw [plainName_eq, Symbol.declaredMethod_append_space hreturn]

end MethodRef

/-! Calls of a restricted method. -/

namespace Analysis

/-- A tier takes offence at the method that is called, whatever it thinks of the types. -/
def RecordsCall (tier : Tier) (location : String) (m : MethodRef) : Prop :=
  ∃ v ∈ operandViolations tier location (.method m), v.reason = .restrictedMethod

theorem recordsCall_iff {tier : Tier} {location : String} {m : MethodRef} :
    RecordsCall tier location m ↔ m.plainName ∈ tier.restrictedMethods := by
  simp only [RecordsCall, operandViolations_eq_filter, List.mem_filter, List.mem_append,
    List.mem_flatMap, Operand.call?, Option.toList_some, List.map_singleton, List.mem_singleton,
    decide_eq_true_eq]
  constructor
  · rintro ⟨v, ⟨⟨root, _, htype⟩ | rfl, hrestricts⟩, hreason⟩
    · rcases mem_typeMentions_iff.mp htype with rfl | ⟨t, _, rfl⟩
      · cases hreason
      · cases hreason
    · exact hrestricts
  · intro hrestricted
    exact ⟨callMention location m, ⟨Or.inr rfl, hrestricted⟩, rfl⟩

/-- A call of a method of the type `X`, with nothing but a name and a return type. -/
def probe (returned : TypeRef) (name : String) : MethodRef := ⟨.named "" "X", name, returned, [], []⟩

/-- A type that is returned with the same plain names as no value at all has no marks: a parenthesis would
    make all names one, and colons would add to the two in each name. -/
theorem unmarked_of_plainName_eq {returned : TypeRef}
    (hplain : ∀ name, (probe returned name).plainName =
      (probe (.named "System" "Void") name).plainName) : returned.Unmarked := by
  have hparenthesis : '(' ∉ returned.display.toList := by
    intro hmem
    have hconst : (probe returned "A").plainName = (probe returned "B").plainName := by
      rw [MethodRef.plainName_eq, MethodRef.plainName_eq]
      exact congrArg String.ofList ((Symbol.declaredMethod_append_of_mem hmem _).trans
        (Symbol.declaredMethod_append_of_mem hmem _).symm)
    rw [hplain, hplain] at hconst
    exact absurd hconst (by decide)
  refine ⟨hparenthesis, fun hcolons => ?_⟩
  have hcount := Symbol.count_colons_of_infix hparenthesis hcolons
    (' ' :: (probe (.named "System" "Void") "A").declaration)
  have hvoid : (probe (.named "System" "Void") "A").plainName = "X::A" := by decide
  have hname : String.ofList (Symbol.declaredMethod (returned.display.toList ++
      ' ' :: (probe (.named "System" "Void") "A").declaration)) = "X::A" :=
    (MethodRef.plainName_eq (probe returned "A")).symm.trans ((hplain "A").trans hvoid)
  have hchars := congrArg String.toList hname
  rw [String.toList_ofList] at hchars
  rw [hchars] at hcount
  exact absurd hcount (by decide)

/-- A return type never lets a call pass for another one exactly if it is rendered without a parenthesis
    and without a pair of colons. Parameters and generic arguments are of no account. -/
theorem unmarked_iff_not_disguised (returned : TypeRef) :
    returned.Unmarked ↔ ∀ m m' : MethodRef, m.returnType = returned → m'.returnType.Unmarked →
      m.declaringType = m'.declaringType → m.name = m'.name →
        m.plainName = m'.plainName ∧
          ∀ tier location, RecordsCall tier location m ↔ RecordsCall tier location m' := by
  constructor
  · rintro hunmarked m m' rfl hunmarked' hdeclaring hname
    have hplain : m.plainName = m'.plainName := by
      rw [MethodRef.plainName_of_unmarked hunmarked, MethodRef.plainName_of_unmarked hunmarked',
        MethodRef.declaration, MethodRef.declaration, hdeclaring, hname]
    refine ⟨hplain, fun tier location => ?_⟩
    rw [recordsCall_iff, recordsCall_iff, hplain]
  · intro hsame
    refine unmarked_of_plainName_eq fun name => ?_
    have hvoid : (TypeRef.named "System" "Void").Unmarked := by decide +kernel
    exact (hsame (probe returned name) (probe (.named "System" "Void") name) rfl hvoid rfl rfl).1

/-- A restricted call that returns a type with a parenthesis in its name is let through. -/
theorem parenthesis_disguises_call :
    let tier := (Tier.empty 2 "System").restrictMethod "System.Reflection.Assembly::Load"
    let seen : MethodRef :=
      ⟨.named "System.Reflection" "Assembly", "Load", .named "System.Reflection" "Assembly", [], []⟩
    let unseen : MethodRef := { seen with returnType := .named "" "A(B" }
    seen.plainName = "System.Reflection.Assembly::Load" ∧ unseen.plainName = "A" ∧
      RecordsCall tier "" seen ∧ ¬ RecordsCall tier "" unseen := by
  intro tier seen unseen
  have hseen : seen.plainName = "System.Reflection.Assembly::Load" := by decide +kernel
  have hunseen : unseen.plainName = "A" := by decide +kernel
  refine ⟨hseen, hunseen, ?_, ?_⟩
  · rw [recordsCall_iff, hseen]
    exact NameSet.mem_insert.mpr (Or.inl rfl)
  · rw [recordsCall_iff, hunseen]
    intro hmem
    rcases NameSet.mem_insert.mp hmem with heq | hnone
    · exact absurd heq (by decide)
    · exact List.not_mem_nil hnone

end Analysis

end PluginHost
