import PluginHost.Json.Decoder
import PluginHost.Json.Record
import PluginHost.Proofs.Json.Numeral
/-!
Decoders that undo how a value is written, and records that are recovered from their written forms.

Main definition: `Decoder.Recovers`. The depth of the written form alone decides between the value and
nothing, so that what a decoder refuses is known as exactly as what it reads. A record is recovered if every field
is: names are what ties the members that were written to the fields that are read, so the names of a record have
to differ, and a field that is left out is recovered by what stands for its absence.
-/

namespace PluginHost.Json

open Value

variable {ρ α β γ : Type}

/-- From the written form `v` the decoder gets `a` if the form nests no deeper than the context allows, and
    nothing otherwise. -/
structure Decoder.Recovers (decode : Decoder α) (v : Value) (a : α) : Prop where
  floatFree : v.FloatFree
  reads : ∀ c, decode c v.tree = if v.depth ≤ c.depth then some a else none

/-- A function that is defined exactly under some condition is defined on a list under that condition on
    every item. -/
theorem mapM_eq_ite {f : β → Option γ} {p : α → Prop} [DecidablePred p] (written : α → β) (read : α → γ)
    (items : List α) (hitem : ∀ a ∈ items, f (written a) = if p a then some (read a) else none) :
    (items.map written).mapM f = if ∀ a ∈ items, p a then some (items.map read) else none := by
  induction items with
  | nil => simp
  | cons a items ih =>
    rw [List.forall_mem_cons] at hitem
    rw [List.map_cons, List.mapM_cons, hitem.1, ih hitem.2]
    by_cases ha : p a
    · by_cases hrest : ∀ b ∈ items, p b
      · rw [if_pos ha, if_pos hrest, if_pos (List.forall_mem_cons.mpr ⟨ha, hrest⟩)]
        rfl
      · rw [if_pos ha, if_neg hrest, if_neg fun hall => hrest (List.forall_mem_cons.mp hall).2]
        rfl
    · rw [if_neg ha, if_neg fun hall => ha (List.forall_mem_cons.mp hall).1]
      rfl

theorem isPlain_pieceOf_of_isDigit {c : Char} (hc : c.isDigit = true) : (pieceOf c).isPlain = true := by
  have hshort : c ∉ shortEscaped := by
    simp only [shortEscaped, List.mem_cons, List.not_mem_nil, or_false, not_or]
    refine ⟨?_, ?_, ?_, ?_, ?_, ?_, ?_⟩ <;> rintro rfl <;> cases hc
  have hcontrol : ¬ c.toNat < 0x20 := by
    simp only [Char.isDigit, Bool.and_eq_true, decide_eq_true_eq, ge_iff_le, UInt32.le_iff_toNat_le] at hc
    have hlow : 48 ≤ c.toNat := hc.1
    omega
  rw [pieceOf, if_neg hshort, if_neg hcontrol]
  rfl

/-- The digits of a number are read as that number where they name a member. -/
theorem keyUInt32?_ofNat (n : UInt32) :
    Decoder.keyUInt32? (.ofText (String.ofList (Text.ofNat n.toNat))) = some n := by
  have hplain : (Text.ofNat n.toNat).all (fun c => (pieceOf c).isPlain) = true :=
    List.all_eq_true.mpr fun c hc => isPlain_pieceOf_of_isDigit (isDigit_of_mem_ofNat hc)
  have hdigits : (Text.ofNat n.toNat).all Char.isDigit = true :=
    List.all_eq_true.mpr fun c hc => isDigit_of_mem_ofNat hc
  have hsome : (Text.ofNat n.toNat).isEmpty = false := List.isEmpty_eq_false_iff.mpr (ofNat_ne_nil _)
  simp only [Decoder.keyUInt32?, Spelled.ofText, Option.bind_eq_bind, Option.bind_some, String.toList_ofList,
    hplain, hdigits, hsome, ofNat_canonical, ofDigitChars_ofNat]
  simp [n.toNat_lt_size, UInt32.ofNat_toNat]

theorem Context.depth_of_enter {c inside : Context} (henter : c.enter = some inside) :
    inside.depth + 1 = c.depth := by
  obtain ⟨_ | depth, surplus⟩ := c <;> cases henter
  rfl

/-- A list is read by what its items are read by inside the array. -/
theorem Decoder.list_congr {item item' : Decoder α} {c : Context}
    (hitem : ∀ inside, c.enter = some inside → item inside = item' inside) :
    Decoder.list item c = Decoder.list item' c := by
  funext t
  cases t with
  | arr items =>
    rw [list, list]
    cases henter : c.enter with
    | none => rfl
    | some inside => rw [Option.bind_some, Option.bind_some, hitem inside henter]
  | _ => rfl

namespace Decoder.Recovers

variable {decode : Decoder α} {v : Value} {a : α}

/-- A value without parts fits into every context. -/
theorem scalar (hfree : v.FloatFree) (hdepth : v.depth = 0) (hreads : ∀ c, decode c v.tree = some a) :
    decode.Recovers v a where
  floatFree := hfree
  reads c := by rw [hreads, hdepth, if_pos (Nat.zero_le _)]

/-- An array or object is refused where nothing more may be entered, and read inside one level down. -/
theorem entered (hfree : v.FloatFree) (hdepth : 0 < v.depth)
    (houtside : ∀ surplus, decode ⟨0, surplus⟩ v.tree = none)
    (hinside : ∀ depth surplus, decode ⟨depth + 1, surplus⟩ v.tree =
      if v.depth ≤ depth + 1 then some a else none) :
    decode.Recovers v a where
  floatFree := hfree
  reads
    | ⟨0, surplus⟩ => by rw [houtside, if_neg (Nat.not_le.mpr hdepth)]
    | ⟨depth + 1, surplus⟩ => hinside depth surplus

theorem text (s : String) : Decoder.text.Recovers (.str s) s :=
  .scalar (.str s) rfl fun _ => rfl

theorem bool (b : Bool) : Decoder.bool.Recovers (.bool b) b :=
  .scalar (.bool b) rfl fun _ => rfl

theorem intIn {low high i : Int} (hlow : low ≤ i) (hhigh : i < high) :
    (Decoder.intIn low high).Recovers (.int i) i :=
  .scalar (.int i) rfl fun c => by
    rw [Value.tree, Decoder.intIn, Number.int?_ofInt, Option.filter_some]
    simp [hlow, hhigh]

/-- What is made of a recovered value. -/
theorem map (h : decode.Recovers v a) (f : α → β) :
    Decoder.Recovers (fun c t => (decode c t).map f) v (f a) where
  floatFree := h.floatFree
  reads c := by
    rw [h.reads]
    split <;> rfl

theorem uint8 (n : UInt8) : Decoder.uint8.Recovers (.nat n.toNat) n := by
  have h := (intIn (Int.natCast_nonneg n.toNat) (Int.ofNat_lt.mpr n.toNat_lt_size)).map fun i =>
    UInt8.ofNat i.toNat
  rwa [Int.toNat_natCast, UInt8.ofNat_toNat] at h

theorem uint16 (n : UInt16) : Decoder.uint16.Recovers (.nat n.toNat) n := by
  have h := (intIn (Int.natCast_nonneg n.toNat) (Int.ofNat_lt.mpr n.toNat_lt_size)).map fun i =>
    UInt16.ofNat i.toNat
  rwa [Int.toNat_natCast, UInt16.ofNat_toNat] at h

theorem uint32 (n : UInt32) : Decoder.uint32.Recovers (.nat n.toNat) n := by
  have h := (intIn (Int.natCast_nonneg n.toNat) (Int.ofNat_lt.mpr n.toNat_lt_size)).map fun i =>
    UInt32.ofNat i.toNat
  rwa [Int.toNat_natCast, UInt32.ofNat_toNat] at h

theorem uint64 (n : UInt64) : Decoder.uint64.Recovers (.nat n.toNat) n := by
  have h := (intIn (Int.natCast_nonneg n.toNat) (Int.ofNat_lt.mpr n.toNat_lt_size)).map fun i =>
    UInt64.ofNat i.toNat
  rwa [Int.toNat_natCast, UInt64.ofNat_toNat] at h

theorem int32 (n : Int32) : Decoder.int32.Recovers (.int n.toInt) n := by
  have hlow : -0x80000000 ≤ n.toInt := n.le_toInt
  have hhigh : n.toInt < 0x80000000 := n.toInt_lt
  have h := (intIn hlow hhigh).map Int32.ofInt
  rwa [Int32.ofInt_toInt] at h

theorem int64 (n : Int64) : Decoder.int64.Recovers (.int n.toInt) n := by
  have hlow : -0x8000000000000000 ≤ n.toInt := n.le_toInt
  have hhigh : n.toInt < 0x8000000000000000 := n.toInt_lt
  have h := (intIn hlow hhigh).map Int64.ofInt
  rwa [Int64.ofInt_toInt] at h

theorem list {item : Decoder α} {encode : α → Value} {items : List α}
    (hitems : ∀ a ∈ items, item.Recovers (encode a) a) :
    (Decoder.list item).Recovers (.arr (items.map encode)) items := by
  refine .entered (.arr ?_) (by rw [depth]; exact Nat.succ_pos _) (fun _ => rfl) ?_
  · rw [List.forall_mem_map]
    exact fun a ha => (hitems a ha).floatFree
  · intro depth surplus
    rw [tree, itemTrees_eq_map, List.map_map, Decoder.list, Context.enter, Option.bind_some,
      mapM_eq_ite (tree ∘ encode) id items fun a ha => (hitems a ha).reads ⟨depth, surplus⟩, List.map_id]
    simp only [depth_arr_le_iff, List.forall_mem_map]

theorem option {item : Decoder α} {encode : α → Value} {o : Option α}
    (hitem : ∀ a ∈ o, item.Recovers (encode a) a) (hnull : ∀ a ∈ o, (encode a).tree ≠ .null) :
    (Decoder.nullable item).Recovers (Value.ofOption encode o) o := by
  cases o with
  | none => exact .scalar .null rfl fun _ => rfl
  | some a =>
    have hsome := (hitem a rfl).map some
    refine ⟨hsome.floatFree, fun c => ?_⟩
    rw [Value.ofOption, ← hsome.reads c, Decoder.nullable]
    exact hnull a rfl

theorem nameSet (set : NameSet) : Decoder.nameSet.Recovers (Value.texts set.names) set := by
  have h := (list fun (s : String) (_ : s ∈ set.names) => text s).map NameSet.ofList
  rwa [set.ofList_names] at h

/-- One of several names. -/
theorem name {word : String} {cases : List (String × α)} (hcase : cases.lookup word = some a) :
    (Decoder.name cases).Recovers (.str word) a :=
  .scalar (.str word) rfl fun _ => hcase

/-- A tag alone, as the only member of an object. -/
theorem tagged_alone {tag content kind : String} {cases : List (String × Case α)}
    (hcase : cases.lookup kind = some (.alone a)) (hne : tag ≠ content) :
    (Decoder.tagged tag content cases).Recovers (.obj [(tag, .str kind)]) a := by
  refine .entered (.obj ?_) (Nat.succ_pos _) (fun _ => rfl) fun depth surplus => ?_
  · rw [List.forall_mem_singleton]
    exact .str kind
  · rw [if_pos (depth_obj_le_iff.mpr (List.forall_mem_singleton.mpr (Nat.zero_le _)))]
    simp [tree, memberTrees, Decoder.tagged, Context.enter, membersNamed, Spelled.ofText, Decoder.name, hcase,
      hne, Case.value?]

/-- A tag with its content. The tag stands first, so the content need not be kept. -/
theorem tagged_holds {tag content kind : String} {cases : List (String × Case α)}
    (hcase : cases.lookup kind = some (.holds decode)) (hne : tag ≠ content) (hheld : decode.Recovers v a) :
    (Decoder.tagged tag content cases).Recovers (.obj [(tag, .str kind), (content, v)]) a := by
  refine .entered (.obj ?_) (Nat.succ_pos _) (fun _ => rfl) fun depth surplus => ?_
  · rw [List.forall_mem_cons, List.forall_mem_singleton]
    exact ⟨.str kind, hheld.floatFree⟩
  · have hdepth : (Value.obj [(tag, .str kind), (content, v)]).depth ≤ depth + 1 ↔ v.depth ≤ depth := by
      rw [depth_obj_le_iff, List.forall_mem_cons, List.forall_mem_singleton]
      exact and_iff_right (Nat.zero_le _)
    simp only [hdepth, ← hheld.reads ⟨depth, surplus⟩]
    simp [tree, memberTrees, Decoder.tagged, Context.enter, membersNamed, Spelled.ofText, Decoder.name, hcase,
      hne, hne.symm, Case.value?]

/-- Values under numbers. -/
theorem numbered {item : Decoder α} (encode : α → Value) {m : SortedMap UInt32 α}
    (hitems : ∀ e ∈ m.entries, item.Recovers (encode e.2) e.2) :
    (Decoder.numbered item).Recovers
      (.obj (m.entries.map fun e => (String.ofList (Text.ofNat e.1.toNat), encode e.2))) m := by
  refine .entered (.obj ?_) (Nat.succ_pos _) (fun _ => rfl) fun depth surplus => ?_
  · rw [List.forall_mem_map]
    exact fun e he => (hitems e he).floatFree
  · have hentries := mapM_eq_ite (p := fun e => (encode e.2).depth ≤ depth)
      (f := fun (member : Spelled × Tree) => do
        return (← keyUInt32? member.1, ← item ⟨depth, surplus⟩ member.2))
      (fun e => (.ofText (String.ofList (Text.ofNat e.1.toNat)), (encode e.2).tree)) id m.entries (by
        intro e he
        simp only [keyUInt32?_ofNat, (hitems e he).reads]
        split <;> rfl)
    rw [tree, memberTrees_eq_map, List.map_map, Decoder.numbered, Context.enter, Option.bind_some]
    simp only [Function.comp_def, hentries, List.map_id, depth_obj_le_iff, List.forall_mem_map]
    split
    · rw [Option.map_some, m.ofList_entries]
    · rfl

end Decoder.Recovers

/-! Records. -/

/-- The field is recovered, and what is left out is what is put in for a missing field. -/
structure Field.Faithful (f : Field ρ α) (x : ρ) : Prop where
  recovers : f.decode.Recovers (f.encode (f.get x)) (f.get x)
  absent : f.leftOut (f.get x) = true → f.absent = some (f.get x)

namespace Field.Faithful

variable {x : ρ} {name : String}

theorem of {get : ρ → α} {encode : α → Value} {decode : Decoder α}
    (h : decode.Recovers (encode (get x)) (get x)) : (Field.of name get encode decode).Faithful x :=
  ⟨h, nofun⟩

theorem text {get : ρ → String} : (Field.text name get).Faithful x := of (.text (get x))

theorem bool {get : ρ → Bool} : (Field.bool name get).Faithful x := of (.bool (get x))

theorem uint16 {get : ρ → UInt16} : (Field.uint16 name get).Faithful x := of (.uint16 (get x))

theorem uint32 {get : ρ → UInt32} : (Field.uint32 name get).Faithful x := of (.uint32 (get x))

theorem list {get : ρ → List α} {encode : α → Value} {decode : Decoder α}
    (h : ∀ a ∈ get x, decode.Recovers (encode a) a) : (Field.list name get encode decode).Faithful x :=
  of (.list h)

theorem option {get : ρ → Option α} {encode : α → Value} {decode : Decoder α}
    (h : ∀ a ∈ get x, decode.Recovers (encode a) a) (hnull : ∀ a ∈ get x, (encode a).tree ≠ .null) :
    (Field.option name get encode decode).Faithful x :=
  ⟨.option h hnull, nofun⟩

/-- A value to stand in for a missing field makes no difference to a field that is always written. -/
theorem orElse {f : Field ρ α} {value : α} (h : f.Faithful x) (hwritten : f.leftOut (f.get x) = false) :
    (f.orElse value).Faithful x :=
  ⟨h.recovers, fun hleft => absurd (hwritten.symm.trans hleft) nofun⟩

theorem omitting {f : Field ρ α} {leftOut : α → Bool} (h : f.Faithful x)
    (habsent : leftOut (f.get x) = true → f.absent = some (f.get x)) : (f.omitting leftOut).Faithful x :=
  ⟨h.recovers, habsent⟩

end Field.Faithful

namespace Record

/-- What the fields of a record make of it when they are put together again. -/
def rebuilt (x : ρ) : {β : Type} → Record ρ β → β
  | _, .start make => make
  | _, .field before next => before.rebuilt x (next.get x)

def Faithful (x : ρ) : {β : Type} → Record ρ β → Prop
  | _, .start _ => True
  | _, .field before next => before.Faithful x ∧ next.Faithful x

/-- A record is read by what its fields are read by inside its object or array. -/
theorem decode_congr {r r' : Record ρ β} {c : Context} (hnames : r.names = r'.names)
    (hbuild : ∀ inside, c.enter = some inside → ∀ parts, r.build inside parts = r'.build inside parts) :
    r.decode c = r'.decode c := by
  funext t
  cases henter : c.enter with
  | none => cases t <;> simp only [decode, henter, Option.bind_eq_bind, Option.bind_none]
  | some inside =>
    cases t <;> simp only [decode, henter, hnames, hbuild inside henter, Option.bind_eq_bind,
      Option.bind_some]

/-- Members are written in the order of the fields, each at most once. -/
theorem members_sublist_names (x : ρ) (r : Record ρ β) :
    ((r.members x).map (·.1)).Sublist (r.names.map (·.1)) := by
  induction r with
  | start make => exact .slnil
  | field before next ih =>
    rw [members, names, List.map_append, List.map_append]
    refine ih.append ?_
    split
    · exact List.nil_sublist _
    · exact List.Sublist.refl _

theorem floatFree_encode {x : ρ} {r : Record ρ β} (hfaithful : r.Faithful x) : (r.encode x).FloatFree := by
  refine .obj ?_
  induction r with
  | start make => nofun
  | field before next ih =>
    rw [members, List.forall_mem_append]
    refine ⟨ih hfaithful.1, ?_⟩
    split
    · nofun
    · rw [List.forall_mem_singleton]
      exact hfaithful.2.recovers.floatFree

/-- A record is put together exactly if every member that was written fits into the context. -/
theorem build_eq_ite {x : ρ} {r : Record ρ β} {c : Context} {parts : List (String × Tree)}
    (hfaithful : r.Faithful x) (hnames : (r.names.map (·.1)).Nodup)
    (hpresent : ∀ m ∈ r.members x, parts.lookup m.1 = some m.2.tree)
    (habsent : ∀ name ∈ r.names.map (·.1), name ∉ (r.members x).map (·.1) → parts.lookup name = none) :
    r.build c parts = if ∀ m ∈ r.members x, m.2.depth ≤ c.depth then some (r.rebuilt x) else none := by
  induction r with
  | start make => rfl
  | field before next ih =>
    rw [names, List.map_append, List.map_singleton, List.nodup_append] at hnames
    have hnew : next.name ∉ before.names.map (·.1) := fun hmem =>
      hnames.2.2 _ hmem _ (List.mem_singleton.mpr rfl) rfl
    rw [members] at hpresent habsent ⊢
    rw [List.forall_mem_append] at hpresent
    have hbefore := ih hfaithful.1 hnames.1 hpresent.1 fun name hname hnot => by
      refine habsent name ?_ ?_
      · rw [names, List.map_append]
        exact List.mem_append_left _ hname
      · rw [List.map_append, List.mem_append, not_or]
        refine ⟨hnot, ?_⟩
        split
        · nofun
        · rw [List.map_singleton, List.mem_singleton]
          rintro rfl
          exact hnew hname
    rw [build, hbefore]
    by_cases hleft : next.leftOut (next.get x) = true
    · -- No earlier field has the name of the one that was left out, so nothing is found under it.
      have hmissing : parts.lookup next.name = none := by
        refine habsent next.name ?_ ?_
        · rw [names, List.map_append]
          exact List.mem_append_right _ (List.mem_singleton.mpr rfl)
        · rw [if_pos hleft, List.append_nil]
          exact fun hmem => hnew ((before.members_sublist_names x).subset hmem)
      rw [if_pos hleft, List.append_nil, hmissing, hfaithful.2.absent hleft]
      split <;> rfl
    · rw [if_neg hleft] at hpresent ⊢
      have hfound : parts.lookup next.name = some (next.encode (next.get x)).tree :=
        hpresent.2 _ (List.mem_singleton.mpr rfl)
      rw [hfound]
      simp only [hfaithful.2.recovers.reads, List.forall_mem_append, List.forall_mem_singleton, rebuilt]
      by_cases hfits : ∀ m ∈ before.members x, m.2.depth ≤ c.depth
      · by_cases hfit : (next.encode (next.get x)).depth ≤ c.depth
        · rw [if_pos hfits, if_pos hfit, if_pos ⟨hfits, hfit⟩]
          rfl
        · rw [if_pos hfits, if_neg hfit, if_neg fun hall => hfit hall.2]
          rfl
      · rw [if_neg hfits]
        exact (if_neg fun hall => hfits hall.1).symm

/-- The parts as which members are read. -/
def partsOf (members : List (String × Value)) : List (String × Tree) := members.map fun m => (m.1, m.2.tree)

theorem lookup_partsOf {members : List (String × Value)} (hnodup : (members.map (·.1)).Nodup)
    {m : String × Value} (hm : m ∈ members) : (partsOf members).lookup m.1 = some m.2.tree := by
  obtain ⟨front, back, rfl⟩ := List.append_of_mem hm
  rw [List.map_append, List.nodup_append] at hnodup
  refine List.lookup_eq_some_iff.mpr ⟨partsOf front, partsOf back, by simp [partsOf], ?_⟩
  rw [partsOf, List.forall_mem_map]
  intro other hother
  exact bne_iff_ne.mpr (hnodup.2.2 _ (List.mem_map_of_mem hother) _ List.mem_cons_self).symm

theorem lookup_partsOf_eq_none {members : List (String × Value)} {name : String}
    (hname : name ∉ members.map (·.1)) : (partsOf members).lookup name = none := by
  rw [List.lookup_eq_none_iff, partsOf, List.forall_mem_map]
  intro m hm
  rw [bne_iff_ne]
  rintro rfl
  exact hname (List.mem_map.mpr ⟨m, hm, rfl⟩)

/-- If no unknown names were written and none twice, every member is a part. -/
theorem partsOfMembers?_memberTrees {known : List (String × Bool)} {members : List (String × Value)}
    (hknown : ∀ m ∈ members, (known.lookup m.1).isSome) (hnodup : (members.map (·.1)).Nodup) :
    partsOfMembers? known (memberTrees members) = some (partsOf members) := by
  induction members with
  | nil => rfl
  | cons m members ih =>
    obtain ⟨name, v⟩ := m
    rw [List.forall_mem_cons] at hknown
    rw [List.map_cons, List.nodup_cons] at hnodup
    obtain ⟨omissible, hfound⟩ := Option.isSome_iff_exists.mp hknown.1
    rw [memberTrees, partsOfMembers?, ih hknown.2 hnodup.2]
    simp only [Spelled.ofText, Option.bind_eq_bind, Option.bind_some, hfound, lookup_partsOf_eq_none hnodup.1]
    rfl

/-- Every member is written under the name of a field. -/
theorem lookup_names_isSome {x : ρ} {r : Record ρ β} {m : String × Value} (hm : m ∈ r.members x) :
    (r.names.lookup m.1).isSome := by
  obtain ⟨known, hknown, hname⟩ := List.mem_map.mp
    ((r.members_sublist_names x).subset (List.mem_map.mpr ⟨m, hm, rfl⟩))
  rw [Option.isSome_iff_ne_none, Ne, List.lookup_eq_none_iff]
  intro hnone
  exact bne_iff_ne.mp (hnone known hknown) hname.symm

/-- A record whose fields are recovered, and make the record when put together, is recovered. -/
theorem recovers_encode {x : ρ} {r : Record ρ ρ} (hfaithful : r.Faithful x)
    (hnames : (r.names.map (·.1)).Nodup) (hrebuilt : r.rebuilt x = x) : r.decode.Recovers (r.encode x) x := by
  refine .entered (floatFree_encode hfaithful) (Nat.succ_pos _) (fun _ => rfl) fun depth surplus => ?_
  have hnodup : ((r.members x).map (·.1)).Nodup := (r.members_sublist_names x).nodup hnames
  have hparts := partsOfMembers?_memberTrees (fun _ hm => lookup_names_isSome hm) hnodup
  have hbuild := build_eq_ite (c := ⟨depth, surplus⟩) hfaithful hnames (fun _ hm => lookup_partsOf hnodup hm)
    fun _ _ hnot => lookup_partsOf_eq_none hnot
  simp only [encode, tree, decode, Context.enter, Option.bind_eq_bind, Option.bind_some, hparts, hbuild,
    hrebuilt, depth_obj_le_iff]

end Record

end PluginHost.Json
