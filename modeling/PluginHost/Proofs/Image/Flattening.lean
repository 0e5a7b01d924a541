import PluginHost.Proofs.Image.Occurrence
import PluginHost.Proofs.Turns
/-!
The walk that flattens a reference, turn by turn.

What is still to be looked at lies on a stack, and a turn takes the top away. Every occurrence is put on the stack at
most once, so the walk ends. A reference that was met before is dropped with all its arguments; these were listed by
then, so the list is the one of all occurrences with the repetitions left out. Main statement: `flatten_exact`.
-/

namespace PluginHost.TypeRef

/-! Repetitions. -/

/-- What is new in a list is what is left when the references that were seen and all repetitions are left out. -/
theorem unseen_eq_eraseDups (seen ts : List TypeRef) : unseen seen ts = (ts.filter (· ∉ seen)).eraseDups := by
  induction ts generalizing seen with
  | nil => rfl
  | cons t rest ih =>
    rw [unseen]
    split
    · next hseen => rw [ih, List.filter_cons_of_neg (by simpa using hseen)]
    · next hnew =>
      have hothers : rest.filter (· ∉ t :: seen) = (rest.filter (· ∉ seen)).filter fun u => !u == t := by
        rw [List.filter_filter]
        exact List.filter_congr fun u _ => by simp [Bool.beq_eq_decide_eq]
      rw [ih, List.filter_cons_of_pos (by simpa using hnew), List.eraseDups_cons, hothers]

/-- No reference stands inside itself, so the first occurrence is the only one of its kind. -/
theorem eraseDups_occurrences (root : TypeRef) :
    root.occurrences.eraseDups = root :: unseen [] (occurrencesAll root.genericArguments) := by
  have hall : (occurrencesAll root.genericArguments).filter (fun t => !t == root) =
      (occurrencesAll root.genericArguments).filter (· ∉ ([] : List TypeRef)) := by
    refine List.filter_congr fun t ht => ?_
    have hne : t ≠ root := by
      rintro rfl
      exact not_nested_self t (mem_occurrencesAll_arguments_iff.mp ht)
    simp [hne]
  rw [occurrences_eq, List.eraseDups_cons, hall, unseen_eq_eraseDups]

/-- The first reference of the list is marked, and no other one is. -/
theorem flatten_eq_mapIdx (root : TypeRef) :
    root.flatten = root.occurrences.eraseDups.mapIdx fun i t => (t, decide (i = 0)) := by
  have hothers : ∀ ts : List TypeRef,
      ts.mapIdx (fun i t => (t, decide (i + 1 = 0))) = ts.map fun t => (t, false) := fun ts =>
    List.ext_getElem (by simp) (by simp)
  rw [flatten_eq, eraseDups_occurrences, List.mapIdx_cons, hothers]
  rfl

/-! Turns. -/

/-- Where a walk stands: the references that it has met, those that it has still to look at, the top of the stack
    first, and those that it has listed. The root is marked. -/
structure Walk where
  seen : List TypeRef
  stack : List (TypeRef × Bool)
  listed : List (TypeRef × Bool)

namespace Walk

variable {seen : List TypeRef} {t : TypeRef} {isRoot : Bool} {rest : List (TypeRef × Bool)}

/-- A walk that has not begun. -/
def start (root : TypeRef) : Walk := ⟨[], [(root, true)], []⟩

/-- Puts references on a stack one after another. -/
def push (stack : List (TypeRef × Bool)) (ts : List TypeRef) : List (TypeRef × Bool) :=
  ts.foldl (fun stack t => (t, false) :: stack) stack

/-- In one turn, a walk takes the top of the stack away, and lists it if it is new. Of its arguments the last one is
    put on the stack first. Nothing is left to do when the stack is empty. -/
def turn (w : Walk) : List (TypeRef × Bool) ⊕ Walk :=
  match w.stack with
  | [] => .inl w.listed
  | (t, isRoot) :: rest =>
    if t ∈ w.seen then .inr { w with stack := rest }
    else .inr ⟨t :: w.seen, push rest t.genericArguments.reverse, w.listed ++ [(t, isRoot)]⟩

def unmarked (ts : List TypeRef) : List (TypeRef × Bool) := ts.map fun t => (t, false)

theorem push_reverse (stack : List (TypeRef × Bool)) (ts : List TypeRef) :
    push stack ts.reverse = unmarked ts ++ stack := by
  rw [push, List.foldl_reverse]
  induction ts with
  | nil => rfl
  | cons t rest ih =>
    rw [List.foldr_cons, ih]
    rfl

theorem turn_of_seen (hseen : t ∈ seen) (listed : List (TypeRef × Bool)) :
    turn ⟨seen, (t, isRoot) :: rest, listed⟩ = .inr ⟨seen, rest, listed⟩ := by
  simp [turn, hseen]

/-- The arguments of a new reference come next, the first one on top. -/
theorem turn_of_new (hnew : t ∉ seen) (listed : List (TypeRef × Bool)) :
    turn ⟨seen, (t, isRoot) :: rest, listed⟩ =
      .inr ⟨t :: seen, unmarked t.genericArguments ++ rest, listed ++ [(t, isRoot)]⟩ := by
  simp [turn, hnew, push_reverse]

/-- A walk lists what a visit of its stack lists. It takes a turn for each reference on the stack or inside of one, or
    fewer, and a last one. -/
theorem endsAfter_visit (seen pending : List TypeRef) (listed : List (TypeRef × Bool)) :
    ∃ n ≤ nodesAll pending + 1, EndsAfter turn n ⟨seen, unmarked pending, listed⟩
      (listed ++ unmarked (visit seen pending)) := by
  fun_induction visit seen pending generalizing listed with
  | case1 seen => exact ⟨1, Nat.le_refl 1, .answer (congrArg Sum.inl (List.append_nil listed).symm)⟩
  | case2 seen t pending hseen ih =>
    obtain ⟨n, hn, hends⟩ := ih listed
    refine ⟨n + 1, ?_, .goOn (turn_of_seen hseen listed) hends⟩
    rw [nodesAll, nodes_eq]
    omega
  | case3 seen t pending hnew ih =>
    obtain ⟨n, hn, hends⟩ := ih (listed ++ [(t, false)])
    have hpushed : unmarked t.genericArguments ++ unmarked pending = unmarked (t.genericArguments ++ pending) :=
      List.map_append.symm
    have hturn : turn ⟨seen, unmarked (t :: pending), listed⟩ = _ := turn_of_new hnew listed
    rw [← unmarked, hpushed] at hturn
    rw [nodesAll_append] at hn
    rw [List.append_assoc] at hends
    refine ⟨n + 1, ?_, .goOn hturn hends⟩
    rw [nodesAll, nodes_eq]
    omega

/-- The first turn lists the root with its mark, and all others come after it without one. -/
theorem endsAfter_flatten (root : TypeRef) : ∃ n ≤ root.nodes + 1, EndsAfter turn n (start root) root.flatten := by
  have hvisit : visit [] [root] = root :: visit [root] root.genericArguments := by
    rw [visit, if_neg List.not_mem_nil, List.append_nil]
  obtain ⟨n, hn, hends⟩ := endsAfter_visit [root] root.genericArguments [(root, true)]
  have hturn : turn (start root) = _ := turn_of_new List.not_mem_nil []
  rw [List.append_nil] at hturn
  rw [flatten, hvisit]
  refine ⟨n + 1, ?_, .goOn hturn hends⟩
  rw [nodes_eq]
  omega

end Walk

/-- The walk along the generic arguments of a reference ends, after at most one turn more than there are references in
    it. It lists the reference and everything inside it, each reference before its arguments and these from left to
    right, every one where it stands first and no other time. The first of them is marked, and only that one. -/
theorem flatten_exact (root : TypeRef) :
    (∃ n ≤ root.nodes + 1, EndsAfter Walk.turn n (.start root) root.flatten) ∧
      root.flatten = root.occurrences.eraseDups.mapIdx fun i t => (t, decide (i = 0)) :=
  ⟨Walk.endsAfter_flatten root, flatten_eq_mapIdx root⟩

end PluginHost.TypeRef
