import Mathlib.Data.Finset.Card
import Mathlib.Data.Finset.Range
import PluginHost.Proofs.Registry.Discovery
import PluginHost.Proofs.Registry.Search
/-!
Types that derive from themselves.

A base type is compared with the one that is looked for before anybody asks whether it was met already. So a type
derives from itself as soon as its links lead back to it, and nothing keeps modules from declaring such links.
Main statement: `derivesFrom_self_iff`.
-/

namespace PluginHost

namespace Registry

variable {γ : Type} {r : Registry γ} {name other : String} {m n : Nat}

/-- The name of the base type that a name comes to. -/
def baseName? (r : Registry γ) (name : String) : Option String :=
  (r.resolve? name).bind fun t => t.baseType.map TypeRef.fullName

theorem extends_iff : r.Extends name other ↔ r.baseName? name = some other := by
  simp [Extends, baseName?, Option.bind_eq_some_iff, Option.map_eq_some_iff]

/-- A name with a base type is the name of a type. -/
theorem mem_names_of_baseName? (h : r.baseName? name = some other) : name ∈ r.definitions.map TypeDef.fullName := by
  obtain ⟨t, hresolve, -⟩ := Option.bind_eq_some_iff.mp h
  exact List.mem_map.mpr ⟨t, mem_definitions_of_resolve? hresolve, fullName_of_resolve? hresolve⟩

/-- The name that some links lead to. -/
def climb (r : Registry γ) : Nat → String → Option String
  | 0, name => some name
  | n + 1, name => (r.baseName? name).bind (climb r n)

theorem climb_add (m n : Nat) (name : String) : r.climb (m + n) name = (r.climb m name).bind (r.climb n) := by
  induction m generalizing name with
  | zero => rw [Nat.zero_add, climb, Option.bind_some]
  | succ m ih =>
    rw [Nat.succ_add, climb, climb, Option.bind_assoc]
    exact congrArg _ (funext ih)

/-- A way up that is long enough has a beginning of every shorter length. -/
theorem climb_isSome_of_le (hle : m ≤ n) (h : (r.climb n name).isSome) : (r.climb m name).isSome := by
  obtain ⟨k, rfl⟩ := Nat.exists_eq_add_of_le hle
  rw [climb_add] at h
  exact Option.isSome_of_isSome_bind h

theorem transGen_iff_climb : Relation.TransGen r.Extends name other ↔ ∃ n, r.climb (n + 1) name = some other := by
  constructor
  · intro hchain
    induction hchain using Relation.TransGen.head_induction_on with
    | single hlink => exact ⟨0, by rw [climb, extends_iff.mp hlink]; rfl⟩
    | head hlink _ ih =>
      obtain ⟨n, hn⟩ := ih
      exact ⟨n + 1, by rw [climb, extends_iff.mp hlink, Option.bind_some, hn]⟩
  · rintro ⟨n, hn⟩
    induction n generalizing name with
    | zero =>
      obtain ⟨next, hlink, hend⟩ := Option.bind_eq_some_iff.mp hn
      cases hend
      exact .single (extends_iff.mpr hlink)
    | succ n ih =>
      obtain ⟨next, hlink, hrest⟩ := Option.bind_eq_some_iff.mp hn
      exact .head (extends_iff.mpr hlink) (ih hrest)

theorem derivesFrom_iff_climb : r.derivesFrom name other = true ↔ ∃ n, r.climb (n + 1) name = some other :=
  derivesFrom_iff.trans (descends_iff_transGen.trans transGen_iff_climb)

/-- A way up that is longer than there are types meets a name twice: every name on it but the last is that of a
    type. -/
theorem exists_climb_eq (h : (r.climb (r.typeCount + 1) name).isSome) :
    ∃ i j, i < j ∧ j ≤ r.typeCount ∧ r.climb i name = r.climb j name := by
  let names := (r.definitions.map fun t => some t.fullName).toFinset
  have hcard : names.card < (Finset.range (r.typeCount + 1)).card := by
    rw [Finset.card_range]
    have hle := List.toFinset_card_le (r.definitions.map fun t => some t.fullName)
    rw [List.length_map] at hle
    exact Nat.lt_succ_of_le hle
  have hmaps : ∀ i ∈ Finset.range (r.typeCount + 1), r.climb i name ∈ names := by
    intro i hi
    have hnext := climb_isSome_of_le (Nat.succ_le_of_lt (Finset.mem_range.mp hi)) h
    obtain ⟨last, hlast⟩ := Option.isSome_iff_exists.mp hnext
    rw [climb_add i 1, Option.bind_eq_some_iff] at hlast
    obtain ⟨current, hcurrent, hlink⟩ := hlast
    obtain ⟨parent, hparent, -⟩ := Option.bind_eq_some_iff.mp hlink
    obtain ⟨t, ht, hname⟩ := List.mem_map.mp (mem_names_of_baseName? hparent)
    rw [hcurrent]
    exact List.mem_toFinset.mpr (List.mem_map.mpr ⟨t, ht, congrArg some hname⟩)
  obtain ⟨i, hi, j, hj, hne, heq⟩ := Finset.exists_ne_map_eq_of_card_lt_of_maps_to hcard hmaps
  rw [Finset.mem_range] at hi hj
  rcases Nat.lt_or_gt_of_ne hne with hlt | hlt
  · exact ⟨i, j, hlt, Nat.le_of_lt_succ hj, heq⟩
  · exact ⟨j, i, hlt, Nat.le_of_lt_succ hi, heq.symm⟩

/-- A circle can be gone round as often as one likes. -/
theorem climb_circle (h : r.climb n name = some name) (rounds : Nat) : r.climb (n * rounds) name = some name := by
  induction rounds with
  | zero => rfl
  | succ rounds ih => rw [Nat.mul_succ, climb_add, ih, Option.bind_some, h]

/-- A circle that is longer than there are types has a shorter one in it, since it meets a name twice. -/
theorem exists_short_circle (h : r.climb (n + 1) name = some name) :
    ∃ k < r.typeCount, r.climb (k + 1) name = some name := by
  induction n using Nat.strong_induction_on with
  | _ n ih =>
    by_cases hshort : n < r.typeCount
    · exact ⟨n, hshort, h⟩
    · have hlong : (r.climb (r.typeCount + 1) name).isSome :=
        climb_isSome_of_le (by omega) (Option.isSome_of_eq_some h)
      obtain ⟨i, j, hlt, hj, heq⟩ := exists_climb_eq hlong
      obtain ⟨k, hk⟩ := Nat.exists_eq_add_of_le (show j ≤ n + 1 by omega)
      have hcut : r.climb (i + k) name = some name := by rw [climb_add, heq, ← climb_add, ← hk, h]
      cases hi : i + k with
      | zero => omega
      | succ rest => exact ih rest (by omega) (hi ▸ hcut)

/-- A type derives from itself exactly if its links lead back to it, for which they need no more steps than there are
    types. No type does so exactly if all chains of base types come to an end. -/
theorem derivesFrom_self_iff (r : Registry γ) :
    (∀ name, r.derivesFrom name name = true ↔ ∃ n < r.typeCount, r.climb (n + 1) name = some name) ∧
    ((∀ name, r.derivesFrom name name = false) ↔ ∀ name, r.climb (r.typeCount + 1) name = none) := by
  constructor
  · intro name
    rw [derivesFrom_iff_climb]
    exact ⟨fun ⟨_, hn⟩ => exists_short_circle hn, fun ⟨n, _, hn⟩ => ⟨n, hn⟩⟩
  · constructor
    · intro hnone name
      by_contra hlong
      obtain ⟨i, j, hlt, hj, heq⟩ := exists_climb_eq (Option.isSome_iff_ne_none.mpr hlong)
      obtain ⟨k, rfl⟩ := Nat.exists_eq_add_of_lt hlt
      obtain ⟨met, hmet⟩ := Option.isSome_iff_exists.mp
        (climb_isSome_of_le (show i ≤ r.typeCount + 1 by omega) (Option.isSome_iff_ne_none.mpr hlong))
      have hround : r.climb (k + 1) met = some met := by
        rw [Nat.add_assoc, climb_add, hmet, Option.bind_some] at heq
        exact heq.symm
      exact Bool.false_ne_true ((hnone met).symm.trans (derivesFrom_iff_climb.mpr ⟨k, hround⟩))
    · intro hends name
      rw [Bool.eq_false_iff]
      intro hself
      obtain ⟨n, hn⟩ := derivesFrom_iff_climb.mp hself
      have hlong := climb_circle hn (r.typeCount + 1)
      have hfar : r.typeCount + 1 ≤ (n + 1) * (r.typeCount + 1) := Nat.le_mul_of_pos_left _ (Nat.succ_pos n)
      have hsome := climb_isSome_of_le hfar (Option.isSome_of_eq_some hlong)
      rw [hends name] at hsome
      cases hsome

end Registry

/-! A type that is its own base type, and two modules whose types are each the base type of the other. -/

namespace Circle

open Registry

def type (name base : String) : TypeDef := ⟨"L", name, some (.named "L" base), false, false, [], [], []⟩

def request (name : String) (types : List TypeDef) : LoadRequest Unit :=
  .plugins (fun _ => .ok ()) (name ++ ".cs")
    ((Artifact.ofImage ⟨name, [⟨name, types⟩]⟩ none).toOption.getD default)

def requests : List (LoadRequest Unit) :=
  [request "first" [type "Self" "Self", type "A" "B"], request "second" [type "B" "A"]]

theorem types_derive_from_themselves :
    let r := Registry.empty.afterLoads requests
    (r.modules.map (·.identity)) = ["first.cs", "second.cs"] ∧
      ∀ name ∈ ["L.Self", "L.A", "L.B"], r.derivesFrom name name = true := by
  decide +kernel

end Circle

end PluginHost
