import Mathlib.Data.List.Basic
import Mathlib.Data.Nat.PSub
import PluginHost.Text.Cut
/-!
Parts of a text between two positions that are counted in bytes.

A part that is asked for need not be there: a position may lie behind the end of the text or inside a character, and
the end of a part may lie before its start. Main statement: `slice?_eq_some_iff`.
-/

namespace PluginHost.Text

variable {s before part after : List Char} {start stop : Nat}

/-- The number of bytes that a text takes. -/
def byteCount : List Char → Nat
  | [] => 0
  | c :: rest => c.utf8Size + byteCount rest

theorem byteCount_cons (c : Char) (s : List Char) : byteCount (c :: s) = c.utf8Size + byteCount s := rfl

theorem byteCount_append (s t : List Char) : byteCount (s ++ t) = byteCount s + byteCount t := by
  induction s with
  | nil => exact (Nat.zero_add _).symm
  | cons c rest ih => rw [List.cons_append, byteCount_cons, byteCount_cons, ih, Nat.add_assoc]

/-- What stands before and after a position. There is nothing if the position lies behind the end or inside a
    character. -/
def divide? : List Char → Nat → Option (List Char × List Char)
  | s, 0 => some ([], s)
  | [], _ + 1 => none
  | c :: rest, position + 1 =>
    if c.utf8Size ≤ position + 1 then
      (divide? rest (position + 1 - c.utf8Size)).map fun (before, after) => (c :: before, after)
    else none

theorem divide?_eq_some_iff {position : Nat} :
    divide? s position = some (before, after) ↔ s = before ++ after ∧ byteCount before = position := by
  induction s generalizing position before with
  | nil =>
    cases position with
    | zero =>
      rw [divide?]
      constructor
      · rintro ⟨⟩
        exact ⟨rfl, rfl⟩
      · rintro ⟨hnil, -⟩
        obtain ⟨rfl, rfl⟩ := List.append_eq_nil_iff.mp hnil.symm
        rfl
    | succ position =>
      rw [divide?]
      constructor
      · rintro ⟨⟩
      · rintro ⟨hnil, hcount⟩
        obtain ⟨rfl, rfl⟩ := List.append_eq_nil_iff.mp hnil.symm
        cases hcount
  | cons c rest ih =>
    have hpositive : 0 < c.utf8Size := c.utf8Size_pos
    cases position with
    | zero =>
      rw [divide?]
      constructor
      · rintro ⟨⟩
        exact ⟨rfl, rfl⟩
      · rintro ⟨heq, hcount⟩
        cases before with
        | nil =>
          rw [List.nil_append] at heq
          rw [heq]
        | cons d before =>
          have hd : 0 < d.utf8Size := d.utf8Size_pos
          rw [byteCount_cons] at hcount
          omega
    | succ position =>
      rw [divide?]
      constructor
      · intro hdivide
        split at hdivide
        · next hfits =>
          obtain ⟨⟨front, back⟩, hrest, heq⟩ := Option.map_eq_some_iff.mp hdivide
          cases heq
          obtain ⟨rfl, hcount⟩ := ih.mp hrest
          rw [byteCount_cons]
          exact ⟨rfl, by omega⟩
        · cases hdivide
      · rintro ⟨heq, hcount⟩
        cases before with
        | nil => cases hcount
        | cons d before =>
          cases heq
          rw [byteCount_cons] at hcount
          rw [if_pos (by omega), ih.mpr ⟨rfl, by omega⟩]
          rfl

/-- The part of a text from one position up to another. -/
def slice? (s : List Char) (start stop : Nat) : Option (List Char) := do
  let (front, _) ← divide? s stop
  let (_, part) ← divide? front start
  return part

theorem slice?_eq_some_iff :
    slice? s start stop = some part ↔
      ∃ before after, s = before ++ part ++ after ∧ byteCount before = start ∧ byteCount (before ++ part) = stop := by
  constructor
  · intro hslice
    obtain ⟨⟨front, after⟩, hstop, hslice⟩ := Option.bind_eq_some_iff.mp hslice
    obtain ⟨⟨before, found⟩, hstart, heq⟩ := Option.bind_eq_some_iff.mp hslice
    cases heq
    obtain ⟨rfl, hfront⟩ := divide?_eq_some_iff.mp hstop
    obtain ⟨rfl, hbefore⟩ := divide?_eq_some_iff.mp hstart
    exact ⟨before, after, rfl, hbefore, hfront⟩
  · rintro ⟨before, after, htext, hstart, hstop⟩
    rw [slice?, divide?_eq_some_iff.mpr ⟨htext, hstop⟩]
    dsimp only [Option.bind_eq_bind, Option.bind_some]
    rw [divide?_eq_some_iff.mpr ⟨rfl, hstart⟩]
    rfl

/-! Parts of texts of which it is known how they end. -/

theorem slice?_zero (before after : List Char) : slice? (before ++ after) 0 (byteCount before) = some before :=
  slice?_eq_some_iff.mpr ⟨[], after, rfl, rfl, rfl⟩

/-- The part between two characters, of which the second one is the last of the text. -/
theorem slice?_enclosed (before inner : List Char) (opening closing : Char) :
    slice? (before ++ opening :: (inner ++ [closing])) (byteCount before + opening.utf8Size)
      (byteCount (before ++ opening :: inner)) = some inner :=
  slice?_eq_some_iff.mpr ⟨before ++ [opening], [closing], by simp, by rw [byteCount_append]; rfl, by simp⟩

theorem psub_byteCount_concat {last : Char} (s : List Char) (hlast : last.utf8Size = 1) :
    Nat.psub (byteCount (s ++ [last])) 1 = some (byteCount s) := by
  rw [Nat.psub_eq_some, byteCount_append, byteCount_cons, hlast]
  rfl

/-- A mark that is not the last character has something behind it. -/
theorem exists_concat_of_getLast?_mark {mark last : Char} (hne : mark ≠ last)
    (hlast : (before ++ mark :: after).getLast? = some last) : ∃ inner, after = inner ++ [last] := by
  obtain rfl | ⟨inner, c, rfl⟩ := List.eq_nil_or_concat' after
  · rw [List.getLast?_concat] at hlast
    exact absurd (Option.some.inj hlast) hne
  · refine ⟨inner, ?_⟩
    rw [← List.cons_append, ← List.append_assoc, List.getLast?_concat, Option.some_inj] at hlast
    rw [hlast]

/-- The position of the last occurrence of a character. -/
def lastPosition? (mark : Char) (s : List Char) : Option Nat :=
  (cutLast? mark s).map fun (before, _) => byteCount before

end PluginHost.Text
