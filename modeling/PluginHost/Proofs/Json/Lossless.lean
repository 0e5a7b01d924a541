import PluginHost.Json.Printer
import PluginHost.Proofs.Json.ReadBack
import PluginHost.Proofs.Json.Record
/-!
Kinds of data that come back from the JSON text in which they are written.

A text is read only to some depth, so that what is written is not lost takes two things: the decoder recovers
each value from its written form, and the written forms of a kind nest only so deep. For a record both are known
field by field.
-/

namespace PluginHost.Json

open Value

variable {α ρ : Type} {levels n : Nat} {encode : α → Value} {decode : Decoder α}

/-- Every value is recovered from its written form, which nests at most so deep. -/
structure Lossless (levels : Nat) (encode : α → Value) (decode : Decoder α) : Prop where
  recovers : ∀ a, decode.Recovers (encode a) a
  depth_le : ∀ a, (encode a).depth ≤ levels

/-- Every value is read back from the compact text in which it is written. -/
def RoundTrips (encode : α → Value) (decode : Decoder α) : Prop :=
  ∀ a, (ofText? (encode a).compactText).bind (decode .json) = some a

namespace Lossless

theorem roundTrips (h : Lossless levels encode decode) (hlevels : levels ≤ 127) : RoundTrips encode decode := by
  intro a
  have hfits : (encode a).depth ≤ Context.json.depth := Nat.le_trans (h.depth_le a) hlevels
  rw [ofText?, compactText, String.toList_ofList, tree?_compact (h.recovers a).floatFree, Option.bind_some,
    (h.recovers a).reads, if_pos hfits]

theorem text : Lossless 0 Value.str Decoder.text := ⟨.text, fun _ => Nat.le_refl 0⟩

theorem uint32 : Lossless 0 (fun n : UInt32 => .nat n.toNat) Decoder.uint32 := ⟨.uint32, fun _ => Nat.le_refl 0⟩

theorem int32 : Lossless 0 (fun n : Int32 => .int n.toInt) Decoder.int32 := ⟨.int32, fun _ => Nat.le_refl 0⟩

/-- Names for the values of a kind, each with its value among the cases. -/
theorem word {word : α → String} {cases : List (String × α)} (hcases : ∀ a, cases.lookup (word a) = some a) :
    Lossless 0 (fun a => .str (word a)) (Decoder.name cases) :=
  ⟨fun a => .name (hcases a), fun _ => Nat.le_refl 0⟩

end Lossless

theorem Record.tree_encode_ne_null {β : Type} (r : Record ρ β) (x : ρ) : (r.encode x).tree ≠ .null := by
  simp [Record.encode, tree]

/-- The field is recovered and nests at most so deep. -/
structure Field.Sound (n : Nat) (f : Field ρ α) (x : ρ) : Prop where
  faithful : f.Faithful x
  depth_le : (f.encode (f.get x)).depth ≤ n

namespace Field.Sound

variable {x : ρ} {name : String}

theorem text {get : ρ → String} : (Field.text name get).Sound n x := ⟨.text, Nat.zero_le n⟩

theorem bool {get : ρ → Bool} : (Field.bool name get).Sound n x := ⟨.bool, Nat.zero_le n⟩

theorem uint8 {get : ρ → UInt8} : (Field.uint8 name get).Sound n x := ⟨⟨.uint8 _, nofun⟩, Nat.zero_le n⟩

theorem uint64 {get : ρ → UInt64} : (Field.uint64 name get).Sound n x := ⟨⟨.uint64 _, nofun⟩, Nat.zero_le n⟩

theorem nameSet {get : ρ → NameSet} : (Field.nameSet name get).Sound (n + 1) x where
  faithful := ⟨.nameSet _, nofun⟩
  depth_le := depth_arr_le_iff.mpr (List.forall_mem_map.mpr fun _ _ => Nat.zero_le n)

theorem of {get : ρ → α} (h : Lossless levels encode decode) (hlevels : levels ≤ n) :
    (Field.of name get encode decode).Sound n x :=
  ⟨.of (h.recovers _), Nat.le_trans (h.depth_le _) hlevels⟩

theorem list {get : ρ → List α} (h : Lossless levels encode decode) (hlevels : levels ≤ n) :
    (Field.list name get encode decode).Sound (n + 1) x where
  faithful := .list fun a _ => h.recovers a
  depth_le := depth_arr_le_iff.mpr (List.forall_mem_map.mpr fun a _ => Nat.le_trans (h.depth_le a) hlevels)

theorem option {get : ρ → Option α} (h : Lossless levels encode decode) (hnull : ∀ a, (encode a).tree ≠ .null)
    (hlevels : levels ≤ n) : (Field.option name get encode decode).Sound n x where
  faithful := .option (fun a _ => h.recovers a) fun a _ => hnull a
  depth_le := by
    change (Value.ofOption encode (get x)).depth ≤ n
    cases get x with
    | none => exact Nat.zero_le n
    | some a => exact Nat.le_trans (h.depth_le a) hlevels

theorem optionText {get : ρ → Option String} : (Field.option name get .str .text).Sound n x :=
  .option .text (by simp [tree]) (Nat.zero_le n)

theorem optionUInt32 {get : ρ → Option UInt32} :
    (Field.option name get (fun number => .nat number.toNat) .uint32).Sound n x :=
  .option .uint32 (by simp [nat, tree]) (Nat.zero_le n)

theorem optionInt32 {get : ρ → Option Int32} :
    (Field.option name get (fun number => .int number.toInt) .int32).Sound n x :=
  .option .int32 (by simp [tree]) (Nat.zero_le n)

theorem optionRecord {get : ρ → Option α} {r : Record α α} (h : Lossless levels r.encode r.decode)
    (hlevels : levels ≤ n) : (Field.option name get r.encode r.decode).Sound n x :=
  .option h r.tree_encode_ne_null hlevels

theorem orElse {f : Field ρ α} {value : α} (h : f.Sound n x) (hwritten : f.leftOut (f.get x) = false) :
    (f.orElse value).Sound n x :=
  ⟨h.faithful.orElse hwritten, h.depth_le⟩

theorem omitting {f : Field ρ α} {leftOut : α → Bool} (h : f.Sound n x)
    (habsent : leftOut (f.get x) = true → f.absent = some (f.get x)) : (f.omitting leftOut).Sound n x :=
  ⟨h.faithful.omitting habsent, h.depth_le⟩

end Field.Sound

namespace Record

def Sound (n : Nat) (x : ρ) : {β : Type} → Record ρ β → Prop
  | _, .start _ => True
  | _, .field before next => before.Sound n x ∧ next.Sound n x

theorem Sound.faithful {β : Type} {x : ρ} {r : Record ρ β} (h : r.Sound n x) : r.Faithful x := by
  induction r with
  | start make => trivial
  | field before next ih => exact ⟨ih h.1, h.2.faithful⟩

theorem Sound.depth_le {β : Type} {x : ρ} {r : Record ρ β} (h : r.Sound n x) : ∀ m ∈ r.members x, m.2.depth ≤ n := by
  induction r with
  | start make => exact List.forall_mem_nil _
  | field before next ih =>
    rw [members, List.forall_mem_append]
    refine ⟨ih h.1, ?_⟩
    split
    · exact List.forall_mem_nil _
    · exact List.forall_mem_singleton.mpr h.2.depth_le

/-- A record takes one level more than its fields. -/
theorem lossless {r : Record ρ ρ} (hsound : ∀ x, r.Sound n x) (hnames : (r.names.map (·.1)).Nodup)
    (hrebuilt : ∀ x, r.rebuilt x = x) : Lossless (n + 1) r.encode r.decode where
  recovers x := recovers_encode (hsound x).faithful hnames (hrebuilt x)
  depth_le x := depth_obj_le_iff.mpr (hsound x).depth_le

end Record

end PluginHost.Json
