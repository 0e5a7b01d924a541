import PluginHost.Json.Printer
import PluginHost.Proofs.Json.Numeral
import PluginHost.Proofs.Text.Utf8
/-!
A written value is read back as its tree.

Quoted texts are read by pieces, one for each character as it was written, and only then from pieces to
characters; both passes are followed one character at a time. The text of a value is read with more text behind it,
and the fuel that the text needs is never more than its length. Main statement: `ofBytes?_compact`.
-/

namespace PluginHost.Json

theorem hexNat?_hexFixed : ∀ n < 0x20, Text.hexNat? (Text.hexFixed 4 n) = some n := by decide

/-- Every character is written in one of three ways, and the piece it is read as tells which. -/
theorem escapedChar_cases (c : Char) :
    (∃ e, escapedChar c = ['\\', e] ∧ e ≠ 'u' ∧ shortEscape? e = some c ∧ pieceOf c = .escape c) ∨
    (c.toNat < 0x20 ∧ escapedChar c = '\\' :: 'u' :: Text.hexFixed 4 c.toNat ∧ pieceOf c = .unit c.toNat) ∨
    (c ≠ '"' ∧ c ≠ '\\' ∧ ¬ c.toNat < 0x20 ∧ escapedChar c = [c] ∧ pieceOf c = .char c) := by
  unfold escapedChar
  split
  iterate 7 exact .inl ⟨_, rfl, by decide, rfl, rfl⟩
  next hquote hbackslash hbackspace htab hnewline hfeed hreturn =>
    have hshort : c ∉ shortEscaped := by
      simp only [shortEscaped, List.mem_cons, List.not_mem_nil, or_false, not_or]
      exact ⟨hquote, hbackslash, hbackspace, htab, hnewline, hfeed, hreturn⟩
    by_cases hcontrol : c.toNat < 0x20
    · exact .inr (.inl ⟨hcontrol, if_pos hcontrol, by rw [pieceOf, if_neg hshort, if_pos hcontrol]⟩)
    · exact .inr (.inr ⟨hquote, hbackslash, hcontrol, if_neg hcontrol,
        by rw [pieceOf, if_neg hshort, if_neg hcontrol]⟩)

/-- What is written for one character is read as its piece. -/
theorem pieces?_escapedChar (c : Char) (s : Source) :
    pieces? ((escapedChar c).map some ++ s) =
      (pieces? s).map fun (more, rest) => (pieceOf c :: more, rest) := by
  obtain ⟨e, hwritten, hlong, he, hpiece⟩ | ⟨hcontrol, hwritten, hpiece⟩ |
    ⟨hquote, hbackslash, hcontrol, hwritten, hpiece⟩ := escapedChar_cases c
  · rw [hwritten, hpiece, List.map_cons, List.map_singleton, List.cons_append, List.singleton_append, pieces?]
    · rw [he]
      cases pieces? s <;> rfl
    · exact fun _ _ _ _ _ _ heq => hlong heq
  · obtain ⟨a, b, d, e, hdigits⟩ : ∃ a b d e, Text.hexFixed 4 c.toNat = [a, b, d, e] := ⟨_, _, _, _, rfl⟩
    have hback := hexNat?_hexFixed c.toNat hcontrol
    rw [hdigits] at hback
    rw [hwritten, hpiece, hdigits]
    simp only [List.map_cons, List.map_nil, List.cons_append, List.nil_append, pieces?, hback]
    cases pieces? s <;> rfl
  · rw [hwritten, hpiece, List.map_singleton, List.singleton_append, pieces?,
      if_neg (not_or.mpr ⟨hbackslash, hcontrol⟩)]
    · exact hquote
    · exact fun _ _ _ _ _ _ heq => hbackslash heq
    · exact fun _ _ _ heq => hbackslash heq

theorem pieces?_text (s rest : List Char) :
    pieces? ((s.flatMap escapedChar ++ '"' :: rest).map some) = some (s.map pieceOf, rest.map some) := by
  induction s with
  | nil => rw [List.flatMap_nil, List.nil_append, List.map_cons, pieces?, List.map_nil]
  | cons c s ih =>
    rw [List.flatMap_cons, List.append_assoc, List.map_append, pieces?_escapedChar, ih, Option.map_some,
      List.map_cons]

theorem characters?_pieceOf (c : Char) (ps : List Piece) :
    characters? (pieceOf c :: ps) = (characters? ps).map (c :: ·) := by
  obtain ⟨_, _, _, _, hpiece⟩ | ⟨hcontrol, _, hpiece⟩ | ⟨_, _, _, _, hpiece⟩ := escapedChar_cases c
  · rw [hpiece, characters?]
  · -- A control character is no surrogate.
    have hhigh : isHighSurrogate c.toNat = false := by simp [isHighSurrogate]; omega
    have hlow : isLowSurrogate c.toNat = false := by simp [isLowSurrogate]; omega
    rw [hpiece, characters?.eq_def]
    simp only [hhigh, hlow, Char.ofNat_toNat, Bool.false_eq_true, if_false]
  · rw [hpiece, characters?]

theorem characters?_text (s : List Char) : characters? (s.map pieceOf) = some s := by
  induction s with
  | nil => rfl
  | cons c s ih => rw [List.map_cons, characters?_pieceOf, ih, Option.map_some]

/-- The rest of a quoted text after its opening quote is read as that text. -/
theorem string?_quoted (s : String) (rest : List Char) :
    string? ((s.toList.flatMap escapedChar ++ '"' :: rest).map some) = some (.ofText s, rest.map some) := by
  rw [string?, pieces?_text, Option.map_some]
  simp only [spelled, characters?_text, Option.map_some, String.ofList_toList, List.all_map]
  rfl

/-! Values. -/

open Value

mutual

/-- What follows a text is written behind it and changes nothing in it. -/
theorem compactOnto_append : ∀ (v : Value) (rest more : List Char),
    compactOnto v (rest ++ more) = compactOnto v rest ++ more
  | .null, _, _ => rfl
  | .bool true, _, _ => rfl
  | .bool false, _, _ => rfl
  | .int _, _, _ => by simp only [compactOnto, List.append_assoc]
  | .float _, _, _ => by simp only [compactOnto, List.append_assoc]
  | .str _, _, _ => by simp only [compactOnto, List.append_assoc]
  | .arr items, rest, more => by
    rw [compactOnto, compactOnto, ← List.cons_append, compactItems_append items, List.cons_append]
  | .obj members, rest, more => by
    rw [compactOnto, compactOnto, ← List.cons_append, compactMembers_append members, List.cons_append]

theorem compactItems_append : ∀ (items : List Value) (rest more : List Char),
    compactItems items (rest ++ more) = compactItems items rest ++ more
  | [], _, _ => rfl
  | v :: items, rest, more => by
    rw [compactItems, compactItems, compactMoreItems_append items, compactOnto_append v]

theorem compactMoreItems_append : ∀ (items : List Value) (rest more : List Char),
    compactMoreItems items (rest ++ more) = compactMoreItems items rest ++ more
  | [], _, _ => rfl
  | v :: items, rest, more => by
    rw [compactMoreItems, compactMoreItems, compactMoreItems_append items, compactOnto_append v,
      List.cons_append]

theorem compactMembers_append : ∀ (members : List (String × Value)) (rest more : List Char),
    compactMembers members (rest ++ more) = compactMembers members rest ++ more
  | [], _, _ => rfl
  | (name, v) :: members, rest, more => by
    rw [compactMembers, compactMembers, compactMoreMembers_append members, compactOnto_append v]
    simp only [List.append_assoc, List.cons_append]

theorem compactMoreMembers_append : ∀ (members : List (String × Value)) (rest more : List Char),
    compactMoreMembers members (rest ++ more) = compactMoreMembers members rest ++ more
  | [], _, _ => rfl
  | (name, v) :: members, rest, more => by
    rw [compactMoreMembers, compactMoreMembers, compactMoreMembers_append members, compactOnto_append v]
    simp only [List.append_assoc, List.cons_append]

end

theorem compactOnto_eq (v : Value) (rest : List Char) : compactOnto v rest = compact v ++ rest :=
  compactOnto_append v [] rest

theorem length_compactOnto (v : Value) (rest : List Char) :
    (compactOnto v rest).length = (compact v).length + rest.length := by
  rw [compactOnto_eq, List.length_append]

/-- How the text of a value begins: with neither a space nor the end of an array. -/
theorem compactOnto_begins {v : Value} (hfree : v.FloatFree) (rest : List Char) :
    ∃ c more, compactOnto v rest = c :: more ∧ isSpace (some c) = false ∧ c ≠ ']' := by
  cases hfree with
  | null => exact ⟨_, _, rfl, rfl, by decide⟩
  | bool b => cases b <;> exact ⟨_, _, rfl, rfl, by decide⟩
  | int n =>
    cases n with
    | ofNat n =>
      obtain ⟨c, more, hdigits⟩ := List.exists_cons_of_ne_nil (ofNat_ne_nil n)
      have hdigit : c.isDigit = true := isDigit_of_mem_ofNat (hdigits ▸ List.mem_cons_self)
      refine ⟨c, more ++ rest, ?_, isSpace_of_isDigit hdigit, ?_⟩
      · rw [← List.cons_append, ← hdigits]
        rfl
      · rintro rfl
        cases hdigit
    | negSucc n => exact ⟨_, _, rfl, rfl, by decide⟩
  | str s => exact ⟨_, _, rfl, rfl, by decide⟩
  | arr _ => exact ⟨_, _, rfl, rfl, by decide⟩
  | obj _ => exact ⟨_, _, rfl, rfl, by decide⟩

/-- The value is read back as its tree, with whatever may follow it and fuel for its text. -/
def ReadsBack (v : Value) : Prop :=
  ∀ (fuel : Nat) (rest : List Char), FollowsValue rest → (compact v).length ≤ fuel →
    value? fuel ((compactOnto v rest).map some) = some (v.tree, rest.map some)

/-- A value takes some fuel. -/
theorem exists_fuel {v : Value} (hfree : v.FloatFree) {fuel : Nat} (hfuel : (compact v).length ≤ fuel) :
    ∃ f, fuel = f + 1 := by
  obtain ⟨c, more, htext, _⟩ := compactOnto_begins hfree []
  rw [compact, htext, List.length_cons] at hfuel
  exact ⟨fuel - 1, by omega⟩

/-- The items of an array behind its bracket, if there are any. -/
theorem items?_compactItems {items : List Value} (hback : ∀ v ∈ items, ReadsBack v) (hsome : items ≠ [])
    {fuel : Nat} (hfuel : (compactItems items []).length < fuel) (rest : List Char) :
    items? fuel ((compactItems items (']' :: rest)).map some) = some (itemTrees items, rest.map some) := by
  induction items generalizing fuel with
  | nil => exact absurd rfl hsome
  | cons v items ih =>
    rw [List.forall_mem_cons] at hback
    obtain ⟨fuel, rfl⟩ : ∃ f, fuel = f + 1 := ⟨fuel - 1, by omega⟩
    cases items with
    | nil =>
      have hread := hback.1 fuel _ (.bracket rest) (Nat.le_of_lt_succ hfuel)
      rw [compactItems, compactMoreItems, items?, hread]
      rfl
    | cons w items =>
      have hsplit : ∀ tail, compactItems (v :: w :: items) tail =
          compactOnto v (',' :: compactItems (w :: items) tail) := fun _ => rfl
      -- The comma in the text pays for the step from one item to the next.
      rw [hsplit, length_compactOnto, List.length_cons] at hfuel
      have hread := hback.1 fuel _ (.comma (compactItems (w :: items) (']' :: rest))) (by omega)
      have hlength : (compactItems (w :: items) []).length < fuel := by omega
      have hrest := ih hback.2 (List.cons_ne_nil w items) hlength
      rw [hsplit, items?, hread]
      simp only [Option.bind_eq_bind, Option.bind_some, List.map_cons, skipSpace_cons (c := ',') rfl, hrest]
      rfl

theorem map_quotedText (name : String) (text : List Char) :
    (quotedText name.toList ++ ':' :: text).map some =
      some '"' :: (name.toList.flatMap escapedChar ++ '"' :: ':' :: text).map some := by
  simp [quotedText]

/-- The last member of an object is read as its name and its value. -/
theorem members?_last {name : String} {v : Value} {fuel : Nat} {text : List Char} {rest : Source}
    (hread : value? fuel (text.map some) = some (v.tree, some '}' :: rest)) :
    members? (fuel + 1) ((quotedText name.toList ++ ':' :: text).map some) =
      some ([(.ofText name, v.tree)], rest) := by
  rw [members?, map_quotedText, skipSpace_cons (c := '"') rfl]
  simp only [string?_quoted, Option.bind_eq_bind, Option.bind_some, List.map_cons,
    skipSpace_cons (c := ':') rfl, hread, skipSpace_cons (c := '}') rfl]

/-- Any other member is read in front of the members that follow it. -/
theorem members?_more {name : String} {v : Value} {fuel : Nat} {text : List Char} {rest rest' : Source}
    {more : List (Spelled × Tree)} (hread : value? fuel (text.map some) = some (v.tree, some ',' :: rest))
    (hmore : members? fuel rest = some (more, rest')) :
    members? (fuel + 1) ((quotedText name.toList ++ ':' :: text).map some) =
      some ((.ofText name, v.tree) :: more, rest') := by
  rw [members?, map_quotedText, skipSpace_cons (c := '"') rfl]
  simp only [string?_quoted, Option.bind_eq_bind, Option.bind_some, List.map_cons,
    skipSpace_cons (c := ':') rfl, hread, skipSpace_cons (c := ',') rfl, hmore, Option.map_some]

/-- The members of an object behind its brace, if there are any. -/
theorem members?_compactMembers {members : List (String × Value)} (hback : ∀ m ∈ members, ReadsBack m.2)
    (hsome : members ≠ []) {fuel : Nat} (hfuel : (compactMembers members []).length < fuel)
    (rest : List Char) :
    members? fuel ((compactMembers members ('}' :: rest)).map some) =
      some (memberTrees members, rest.map some) := by
  induction members generalizing fuel with
  | nil => exact absurd rfl hsome
  | cons m members ih =>
    obtain ⟨name, v⟩ := m
    rw [List.forall_mem_cons] at hback
    have hvalue : ReadsBack v := hback.1
    obtain ⟨fuel, rfl⟩ : ∃ f, fuel = f + 1 := ⟨fuel - 1, by omega⟩
    cases members with
    | nil =>
      simp only [compactMembers, compactMoreMembers, List.length_append, List.length_cons,
        length_compactOnto] at hfuel
      exact members?_last (hvalue fuel _ (.brace rest) (by omega))
    | cons m members =>
      have hsplit : ∀ tail, compactMembers ((name, v) :: m :: members) tail =
          quotedText name.toList ++ ':' :: compactOnto v (',' :: compactMembers (m :: members) tail) :=
        fun _ => rfl
      rw [hsplit, List.length_append, List.length_cons, length_compactOnto, List.length_cons] at hfuel
      have hread := hvalue fuel _ (.comma (compactMembers (m :: members) ('}' :: rest))) (by omega)
      rw [hsplit]
      exact members?_more hread (ih hback.2 (List.cons_ne_nil m members) (by omega))

/-- Every value without fractions is read back. -/
theorem readsBack_of_floatFree {v : Value} (hfree : v.FloatFree) : ReadsBack v := by
  -- Induction on `FloatFree` and not on the value: its cases carry the statement for every part of an array
  -- or object, and leave floats out.
  induction hfree with
  | null =>
    intro fuel rest _ hfuel
    obtain ⟨fuel, rfl⟩ := exists_fuel .null hfuel
    rfl
  | bool b =>
    intro fuel rest _ hfuel
    obtain ⟨fuel, rfl⟩ := exists_fuel (.bool b) hfuel
    cases b <;> rfl
  | int n =>
    intro fuel rest hrest hfuel
    obtain ⟨fuel, rfl⟩ := exists_fuel (.int n) hfuel
    exact value?_ofInt fuel n hrest
  | str s =>
    intro fuel rest _ hfuel
    obtain ⟨fuel, rfl⟩ := exists_fuel (.str s) hfuel
    have htext : (compactOnto (.str s) rest).map some =
        some '"' :: (s.toList.flatMap escapedChar ++ '"' :: rest).map some := by
      simp [compactOnto, scalarText, quotedText]
    rw [htext, value?, skipSpace_cons rfl]
    simp only [string?_quoted, Option.map_some]
    rfl
  | @arr items hitems ih =>
    intro fuel rest _ hfuel
    obtain ⟨fuel, rfl⟩ := exists_fuel (.arr hitems) hfuel
    have htext : (compactOnto (.arr items) rest).map some =
        some '[' :: (compactItems items (']' :: rest)).map some := rfl
    rw [htext, value?, skipSpace_cons rfl]
    cases items with
    | nil => rfl
    | cons v items =>
      obtain ⟨c, more, hbegin, hspace, hbracket⟩ := compactOnto_begins (hitems v List.mem_cons_self)
        (compactMoreItems items (']' :: rest))
      have hlength : (compactItems (v :: items) []).length < fuel := by
        rw [compact, compactOnto, ← List.nil_append [']'], compactItems_append, List.length_cons,
          List.length_append, List.length_singleton] at hfuel
        omega
      have hread := items?_compactItems ih (List.cons_ne_nil v items) hlength rest
      -- A first item never looks like the end of an empty array.
      rw [compactItems, hbegin, List.map_cons] at hread ⊢
      simp only [skipSpace_cons hspace]
      split
      · next heq =>
        rw [List.cons.injEq, Option.some.injEq] at heq
        exact absurd heq.1 hbracket
      · rw [hread, Option.map_some, tree]
  | @obj members hmembers ih =>
    intro fuel rest _ hfuel
    obtain ⟨fuel, rfl⟩ := exists_fuel (.obj hmembers) hfuel
    have htext : (compactOnto (.obj members) rest).map some =
        some '{' :: (compactMembers members ('}' :: rest)).map some := rfl
    rw [htext, value?, skipSpace_cons rfl]
    cases members with
    | nil => rfl
    | cons m members =>
      have hlength : (compactMembers (m :: members) []).length < fuel := by
        rw [compact, compactOnto, ← List.nil_append ['}'], compactMembers_append, List.length_cons,
          List.length_append, List.length_singleton] at hfuel
        omega
      have hread := members?_compactMembers ih (List.cons_ne_nil m members) hlength rest
      obtain ⟨more, hbegin⟩ : ∃ more, compactMembers (m :: members) ('}' :: rest) = '"' :: more := ⟨_, rfl⟩
      rw [hbegin, List.map_cons] at hread ⊢
      simp only [skipSpace_cons (c := '"') rfl]
      split
      · next heq =>
        rw [List.cons.injEq, Option.some.injEq] at heq
        exact absurd heq.1 (by decide)
      · rw [hread, Option.map_some, tree]

theorem tree?_compact {v : Value} (hfree : v.FloatFree) : tree? ((compact v).map some) = some v.tree := by
  have hread : value? ((compact v).length + 1) ((compact v).map some) = some (v.tree, []) :=
    readsBack_of_floatFree hfree _ [] .nothing (Nat.le_succ _)
  rw [tree?, List.length_map, hread]
  rfl

/-- The bytes of a written value are read as its tree. -/
theorem ofBytes?_compact {v : Value} (hfree : v.FloatFree) :
    ofBytes? (Text.utf8 (compact v)) = some v.tree := by
  rw [ofBytes?, Text.chars_utf8, tree?_compact hfree]

end PluginHost.Json
