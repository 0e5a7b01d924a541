import PluginHost.Json.Reader
import PluginHost.Json.Value
import PluginHost.Text.Numeral
/-!
The tree as which a written value is read back, and how deep a value nests; and written integers, which are read
back digit by digit and as the same integer.

Main definition: `Value.tree`. It says nothing of numbers with a fraction, which stand in no artifact; the
values without them are singled out by `Value.FloatFree`.
-/

namespace PluginHost.Json

/-- Characters with a short escape of their own. -/
def shortEscaped : List Char := ['"', '\\', '\x08', '\t', '\n', '\x0C', '\r']

/-- The piece as which a written character is read. -/
def pieceOf (c : Char) : Piece :=
  if c ∈ shortEscaped then .escape c else if c.toNat < 0x20 then .unit c.toNat else .char c

/-- A written text as it is read. -/
def Spelled.ofText (s : String) : Spelled := ⟨some s, s.toList.all fun c => (pieceOf c).isPlain⟩

/-- A written integer as it is read. -/
def Number.ofInt : Int → Number
  | .ofNat n => ⟨false, Text.ofNat n, none, none⟩
  | .negSucc n => ⟨true, Text.ofNat (n + 1), none, none⟩

namespace Value

mutual

/-- The tree as which a written value is read. -/
def tree : Value → Tree
  | .null => .null
  | .bool b => .bool b
  | .int n => .num (.ofInt n)
  | .float _ => .null
  | .str s => .str (.ofText s)
  | .arr items => .arr (itemTrees items)
  | .obj members => .obj (memberTrees members)

def itemTrees : List Value → List Tree
  | [] => []
  | v :: rest => v.tree :: itemTrees rest

def memberTrees : List (String × Value) → List (Spelled × Tree)
  | [] => []
  | (name, v) :: rest => (.ofText name, v.tree) :: memberTrees rest

end

mutual

/-- How many arrays and objects lie within one another. -/
def depth : Value → Nat
  | .arr items => depthOfItems items + 1
  | .obj members => depthOfMembers members + 1
  | _ => 0

def depthOfItems : List Value → Nat
  | [] => 0
  | v :: rest => max v.depth (depthOfItems rest)

def depthOfMembers : List (String × Value) → Nat
  | [] => 0
  | (_, v) :: rest => max v.depth (depthOfMembers rest)

end

/-- Every number in the value is an integer. -/
inductive FloatFree : Value → Prop where
  | null : FloatFree .null
  | bool (b : Bool) : FloatFree (.bool b)
  | int (n : Int) : FloatFree (.int n)
  | str (s : String) : FloatFree (.str s)
  | arr {items : List Value} (hitems : ∀ v ∈ items, FloatFree v) : FloatFree (.arr items)
  | obj {members : List (String × Value)} (hmembers : ∀ m ∈ members, FloatFree m.2) :
    FloatFree (.obj members)

theorem itemTrees_eq_map (items : List Value) : itemTrees items = items.map tree := by
  induction items with
  | nil => rfl
  | cons v rest ih => rw [itemTrees, ih, List.map_cons]

theorem memberTrees_eq_map (members : List (String × Value)) :
    memberTrees members = members.map fun m => (.ofText m.1, m.2.tree) := by
  induction members with
  | nil => rfl
  | cons m rest ih => rw [memberTrees, ih, List.map_cons]

theorem depthOfItems_le_iff {items : List Value} {n : Nat} :
    depthOfItems items ≤ n ↔ ∀ v ∈ items, v.depth ≤ n := by
  induction items with
  | nil => simp [depthOfItems]
  | cons v rest ih => rw [depthOfItems, Nat.max_le, ih, List.forall_mem_cons]

theorem depthOfMembers_le_iff {members : List (String × Value)} {n : Nat} :
    depthOfMembers members ≤ n ↔ ∀ m ∈ members, m.2.depth ≤ n := by
  induction members with
  | nil => simp [depthOfMembers]
  | cons m rest ih => rw [depthOfMembers, Nat.max_le, ih, List.forall_mem_cons]

theorem depth_arr_le_iff {items : List Value} {n : Nat} :
    (Value.arr items).depth ≤ n + 1 ↔ ∀ v ∈ items, v.depth ≤ n := by
  rw [depth, Nat.add_le_add_iff_right, depthOfItems_le_iff]

theorem depth_obj_le_iff {members : List (String × Value)} {n : Nat} :
    (Value.obj members).depth ≤ n + 1 ↔ ∀ m ∈ members, m.2.depth ≤ n := by
  rw [depth, Nat.add_le_add_iff_right, depthOfMembers_le_iff]

end Value

/-! Written integers. -/

/-- What may follow a value: nothing, a comma or a closing bracket. -/
inductive FollowsValue : List Char → Prop where
  | nothing : FollowsValue []
  | comma (rest : List Char) : FollowsValue (',' :: rest)
  | bracket (rest : List Char) : FollowsValue (']' :: rest)
  | brace (rest : List Char) : FollowsValue ('}' :: rest)

theorem isDigit_of_mem_ofNat {n : Nat} {c : Char} (hc : c ∈ Text.ofNat n) : c.isDigit = true :=
  Nat.isDigit_of_mem_toDigits (by decide) (by decide) hc

theorem ofNat_ne_nil (n : Nat) : Text.ofNat n ≠ [] := Nat.toDigits_ne_nil

theorem ofDigitChars_ofNat (n : Nat) : Nat.ofDigitChars 10 (Text.ofNat n) 0 = n :=
  Nat.ofDigitChars_toDigits (by decide) (by decide)

theorem ofNat_injective : Function.Injective Text.ofNat := fun n _ h => by
  rw [← ofDigitChars_ofNat n, h, ofDigitChars_ofNat]

/-- Only zero is written with a zero in front. -/
theorem head?_ofNat_ne_zero {n : Nat} (hn : n ≠ 0) : (Text.ofNat n).head? ≠ some '0' := by
  induction n using Nat.strongRecOn with
  | ind n ih =>
    rw [Text.ofNat]
    rcases Nat.lt_or_ge n 10 with hsmall | hlarge
    · rw [Nat.toDigits_of_lt_base hsmall]
      simpa [Nat.digitChar_eq_zero] using hn
    · have hfewer : (Text.ofNat (n / 10)).head? ≠ some '0' := ih (n / 10) (by omega) (by omega)
      obtain ⟨c, more, hfront⟩ := List.exists_cons_of_ne_nil (ofNat_ne_nil (n / 10))
      rw [hfront] at hfewer
      rw [Nat.toDigits_of_base_le (by decide) hlarge, show Nat.toDigits 10 (n / 10) = c :: more from hfront]
      exact hfewer

/-- A number has no leading zero unless it is a single digit. -/
theorem ofNat_canonical (n : Nat) :
    ((Text.ofNat n).length > 1 && (Text.ofNat n).head? == some '0') = false := by
  by_cases hn : n = 0
  · subst hn
    decide
  · have hhead := head?_ofNat_ne_zero hn
    simp [hhead]

theorem takeDigits_ofNat (n : Nat) {rest : List Char} (hrest : FollowsValue rest) :
    takeDigits ((Text.ofNat n ++ rest).map some) = (Text.ofNat n, rest.map some) := by
  have hdigits : ∀ c ∈ (Text.ofNat n).map some, isDigit c = true := by
    intro c hc
    obtain ⟨d, hd, rfl⟩ := List.mem_map.mp hc
    exact isDigit_of_mem_ofNat hd
  have hstop : (rest.map some).takeWhile isDigit = [] ∧
      (rest.map some).dropWhile isDigit = rest.map some := by
    cases hrest <;> exact ⟨rfl, rfl⟩
  rw [takeDigits, List.map_append, List.takeWhile_append_of_pos hdigits, List.dropWhile_append_of_pos hdigits,
    hstop.1, hstop.2, List.append_nil, List.filterMap_map]
  simp

/-- Digits with nothing that could continue a number behind them are read as these digits. -/
theorem magnitude?_ofNat (negative : Bool) (n : Nat) {rest : List Char} (hrest : FollowsValue rest) :
    magnitude? negative ((Text.ofNat n ++ rest).map some) =
      some (⟨negative, Text.ofNat n, none, none⟩, rest.map some) := by
  have hfraction : fraction? (rest.map some) = some (none, rest.map some) := by
    cases hrest <;> rfl
  have hexponent : exponent? (rest.map some) = some (none, rest.map some) := by
    cases hrest <;> rfl
  have hwhole : ((Text.ofNat n).isEmpty ||
      ((Text.ofNat n).length > 1 && (Text.ofNat n).head? == some '0')) = false := by
    rw [ofNat_canonical, Bool.or_false, List.isEmpty_eq_false_iff]
    exact ofNat_ne_nil n
  rw [magnitude?, takeDigits_ofNat n hrest]
  simp [hwhole, hfraction, hexponent]

theorem isSpace_of_isDigit {c : Char} (hc : c.isDigit = true) : isSpace (some c) = false := by
  simp only [isSpace, Bool.or_eq_false_iff, beq_eq_false_iff_ne, ne_eq, Option.some.injEq]
  refine ⟨⟨⟨?_, ?_⟩, ?_⟩, ?_⟩ <;> rintro rfl <;> cases hc

theorem skipSpace_cons {c : Char} (hc : isSpace (some c) = false) (s : Source) :
    skipSpace (some c :: s) = some c :: s :=
  List.dropWhile_cons_of_neg (by rw [hc]; nofun)

/-- An integer is read as its number. -/
theorem value?_ofInt (fuel : Nat) (i : Int) {rest : List Char} (hrest : FollowsValue rest) :
    value? (fuel + 1) ((Text.ofInt i ++ rest).map some) = some (.num (.ofInt i), rest.map some) := by
  cases i with
  | ofNat n =>
    obtain ⟨c, more, hdigits⟩ := List.exists_cons_of_ne_nil (ofNat_ne_nil n)
    have hdigit : c.isDigit = true := isDigit_of_mem_ofNat (hdigits ▸ List.mem_cons_self)
    have hread := magnitude?_ofNat false n hrest
    rw [hdigits, List.cons_append, List.map_cons] at hread
    rw [value?, Text.ofInt, hdigits, List.cons_append, List.map_cons,
      skipSpace_cons (isSpace_of_isDigit hdigit)]
    split
    case h_8 => rw [hread, Option.map_some, Number.ofInt, hdigits]
    all_goals
      next heq =>
        rw [List.cons.injEq, Option.some.injEq] at heq
        rw [heq.1] at hdigit
        cases hdigit
  | negSucc n =>
    have hread := magnitude?_ofNat true (n + 1) hrest
    rw [value?, Text.ofInt, List.cons_append, List.map_cons, skipSpace_cons rfl]
    simp only [hread, Option.map_some]
    rfl

/-- The digits of an integer stand for that integer. -/
theorem Number.int?_ofInt (i : Int) : (Number.ofInt i).int? = some i := by
  cases i with
  | ofNat n =>
    simp [Number.ofInt, Number.int?, ofDigitChars_ofNat]
  | negSucc n =>
    simp [Number.ofInt, Number.int?, ofDigitChars_ofNat]
    omega

end PluginHost.Json
