import PluginHost.Image.Artifact
import PluginHost.Image.Codec
import PluginHost.Proofs.Image.Stream
import PluginHost.Proofs.Json.ReadBack
import PluginHost.Proofs.Json.Record
import PluginHost.Proofs.Order.StablySorted
/-!
Modules and symbol tables are recovered from their written forms, and what is put into an artifact is taken out of
it again.

A type reference is read level by level with a bound taken from the depth that is left. The bound never
shows: reading satisfies the equation of a recursion without one. A stream is read back exactly if its value nests
no deeper than JSON text is read and its body is no longer than a body may be. Main statement: `ofImage_roundTrip`.
-/

namespace PluginHost

open Json

namespace TypeRef

theorem encodeAll_eq_map (ts : List TypeRef) : encodeAll ts = ts.map encode := by
  induction ts with
  | nil => rfl
  | cons t rest ih => rw [encodeAll, ih, List.map_cons]

theorem encode_eq (decodeArgument : Decoder TypeRef) (t : TypeRef) :
    encode t = (record decodeArgument).encode t := by
  obtain ⟨ns, name, args⟩ := t
  rw [encode, encodeAll_eq_map]
  rfl

/-- Generic arguments are read two levels down, inside the object of a reference and the array in it. -/
theorem record_decode_congr {decode decode' : Decoder TypeRef} {c : Context}
    (heq : ∀ inside, inside.depth + 2 = c.depth → decode inside = decode' inside) :
    (record decode).decode c = (record decode').decode c := by
  refine Record.decode_congr rfl fun inside henter parts => ?_
  have hlist : Decoder.list decode inside = Decoder.list decode' inside := by
    refine Decoder.list_congr fun argument hargument => heq argument ?_
    rw [← Context.depth_of_enter henter, ← Context.depth_of_enter hargument]
  simp only [record, Record.build, Field.omitting, Field.orElse, Field.list, hlist]

/-- As long as there are more levels than depth, their number does not matter. -/
theorem decodeWithin_congr {m n : Nat} {c : Context} (hm : c.depth < m) (hn : c.depth < n) :
    decodeWithin m c = decodeWithin n c := by
  induction m generalizing n c with
  | zero => exact absurd hm (Nat.not_lt_zero _)
  | succ m ih =>
    obtain ⟨n, rfl⟩ : ∃ k, n = k + 1 := ⟨n - 1, by omega⟩
    exact record_decode_congr fun inside hinside => ih (by omega) (by omega)

theorem decode_eq : decode = (record decode).decode := by
  funext c
  exact record_decode_congr fun inside hinside => decodeWithin_congr (by omega) (Nat.lt_succ_self _)

/-- A reference is recovered if its generic arguments are. -/
theorem record_recovers {decodeArgument : Decoder TypeRef} {t : TypeRef}
    (hargs : ∀ u ∈ t.genericArguments, decodeArgument.Recovers u.encode u) :
    (record decodeArgument).decode.Recovers ((record decodeArgument).encode t) t := by
  have hlist : (Field.list "generic_arguments" genericArguments encode decodeArgument).Faithful t :=
    .list hargs
  have hfaithful : (record decodeArgument).Faithful t := by
    refine ⟨⟨⟨trivial, .text⟩, .text⟩, (hlist.orElse rfl).omitting fun hempty => ?_⟩
    exact congrArg some (List.isEmpty_iff.mp hempty).symm
  have hnames : (record decodeArgument).names.map (·.1) = ["namespace", "name", "generic_arguments"] := rfl
  exact Record.recovers_encode hfaithful (by rw [hnames]; decide) (by cases t; rfl)

mutual

theorem recovers : ∀ t : TypeRef, decode.Recovers t.encode t
  | ⟨ns, name, args⟩ => by
    have hrecord := record_recovers (t := ⟨ns, name, args⟩) (recoversAll args)
    rwa [← decode_eq, ← encode_eq] at hrecord

theorem recoversAll : ∀ ts : List TypeRef, ∀ t ∈ ts, decode.Recovers t.encode t
  | [] => nofun
  | t :: rest => List.forall_mem_cons.mpr ⟨recovers t, recoversAll rest⟩

end

theorem tree_encode_ne_null (t : TypeRef) : t.encode.tree ≠ .null := by
  obtain ⟨ns, name, args⟩ := t
  nofun

theorem listField_faithful {ρ : Type} {name : String} {get : ρ → List TypeRef} {x : ρ} :
    (listField name get).Faithful x :=
  .orElse (.list fun t _ => recovers t) rfl

end TypeRef

theorem Json.Field.records_faithful {ρ item : Type} {name : String} {get : ρ → List item}
    {r : Record item item} {x : ρ} (hitem : ∀ a, r.decode.Recovers (r.encode a) a) :
    (Field.records name get r).Faithful x :=
  .orElse (.list fun a _ => hitem a) rfl

theorem Annotation.recovers (a : Annotation) : record.decode.Recovers (record.encode a) a :=
  Record.recovers_encode ⟨⟨trivial, .of (TypeRef.recovers _)⟩, TypeRef.listField_faithful⟩ (by decide) rfl

theorem FieldRef.recovers (f : FieldRef) : record.decode.Recovers (record.encode f) f :=
  Record.recovers_encode ⟨⟨⟨trivial, .of (TypeRef.recovers _)⟩, .text⟩, .of (TypeRef.recovers _)⟩
    (by decide) rfl

theorem MethodRef.recovers (m : MethodRef) : record.decode.Recovers (record.encode m) m :=
  Record.recovers_encode ⟨⟨⟨⟨⟨trivial, .of (TypeRef.recovers _)⟩, .text⟩, .of (TypeRef.recovers _)⟩,
    TypeRef.listField_faithful⟩, TypeRef.listField_faithful.omitting fun hempty =>
      congrArg some (List.isEmpty_iff.mp hempty).symm⟩ (by decide) rfl

theorem Operand.recovers (o : Operand) : decode.Recovers o.encode o := by
  cases o with
  | none => exact .tagged_alone rfl (by decide)
  | integer value => exact .tagged_holds rfl (by decide) ((Decoder.Recovers.int64 value).map Operand.integer)
  | text value => exact .tagged_holds rfl (by decide) ((Decoder.Recovers.text value).map Operand.text)
  | field ref => exact .tagged_holds rfl (by decide) (ref.recovers.map Operand.field)
  | method ref => exact .tagged_holds rfl (by decide) (ref.recovers.map Operand.method)
  | type ref => exact .tagged_holds rfl (by decide) (ref.recovers.map Operand.type)

theorem Instruction.recovers (i : Instruction) : record.decode.Recovers (record.encode i) i :=
  Record.recovers_encode ⟨⟨⟨trivial, .uint32⟩, .text⟩,
    .orElse (.of i.operand.recovers) rfl⟩ (by decide) rfl

theorem LocalVariable.recovers (v : LocalVariable) : record.decode.Recovers (record.encode v) v :=
  Record.recovers_encode ⟨⟨trivial, .uint16⟩, .of (TypeRef.recovers _)⟩ (by decide) rfl

theorem FieldDef.recovers (f : FieldDef) : record.decode.Recovers (record.encode f) f :=
  Record.recovers_encode ⟨⟨trivial, .text⟩, .of (TypeRef.recovers _)⟩ (by decide) rfl

theorem MethodDef.recovers (m : MethodDef) : record.decode.Recovers (record.encode m) m :=
  Record.recovers_encode ⟨⟨⟨⟨⟨⟨⟨trivial, .uint32⟩, .text⟩, .of (TypeRef.recovers _)⟩,
    TypeRef.listField_faithful⟩, Field.records_faithful Annotation.recovers⟩,
    Field.records_faithful LocalVariable.recovers⟩, Field.records_faithful Instruction.recovers⟩ (by decide) rfl

theorem TypeDef.recovers (t : TypeDef) : record.decode.Recovers (record.encode t) t :=
  Record.recovers_encode ⟨⟨⟨⟨⟨⟨⟨⟨trivial, .text⟩, .text⟩,
    .orElse (.option (fun base _ => base.recovers) fun base _ => base.tree_encode_ne_null) rfl⟩,
    .orElse .bool rfl⟩, .orElse .bool rfl⟩, Field.records_faithful Annotation.recovers⟩,
    Field.records_faithful FieldDef.recovers⟩, Field.records_faithful MethodDef.recovers⟩ (by decide) rfl

theorem ModuleDef.recovers (m : ModuleDef) : record.decode.Recovers (record.encode m) m :=
  Record.recovers_encode ⟨⟨trivial, .text⟩, Field.records_faithful TypeDef.recovers⟩ (by decide) rfl

theorem Image.recovers (image : Image) : record.decode.Recovers (record.encode image) image :=
  Record.recovers_encode ⟨⟨trivial, .text⟩, Field.records_faithful ModuleDef.recovers⟩ (by decide) rfl

theorem SequencePoint.recovers (p : SequencePoint) : record.decode.Recovers (record.encode p) p :=
  Record.recovers_encode ⟨⟨⟨⟨trivial, .uint32⟩, .text⟩, .uint32⟩, .uint32⟩ (by decide) rfl

theorem Symbols.methods_recovers (methods : SortedMap UInt32 (List SequencePoint)) :
    (Decoder.numbered (Decoder.list SequencePoint.record.decode)).Recovers (encodeMethods methods) methods :=
  .numbered (fun points : List SequencePoint => .arr (points.map SequencePoint.record.encode))
    fun _ _ => .list fun p _ => SequencePoint.recovers p

theorem Symbols.recovers (s : Symbols) : record.decode.Recovers (record.encode s) s :=
  Record.recovers_encode ⟨trivial, .of (methods_recovers s.methods)⟩ (by decide) rfl

/-! Artifacts. -/

namespace Symbols

/-- The second table has the methods of the first, and for each method the same points, stably sorted by
    offset. -/
structure SortsTo (given read : Symbols) : Prop where
  tokens : read.methods.keys = given.methods.keys
  points : ∀ token, StablySorted (fun p q : SequencePoint => p.offset ≤ q.offset)
    (given.points token) (read.points token)

theorem points_normalize (s : Symbols) (token : UInt32) :
    s.normalize.points token = (s.points token).mergeSort fun p q => p.offset ≤ q.offset := by
  have hfind : s.normalize.methods.get? token =
      (s.methods.get? token).map fun points => points.mergeSort fun p q => p.offset ≤ q.offset := by
    simp only [normalize, SortedMap.mapValues, SortedMap.get?, Assoc.get?, List.find?_map, Option.map_map]
    rfl
  rw [points, points, hfind]
  cases s.methods.get? token with
  | none => exact List.mergeSort_nil.symm
  | some points => rfl

theorem sortsTo_normalize (s : Symbols) : s.SortsTo s.normalize where
  tokens := by simp [normalize, SortedMap.mapValues, SortedMap.keys]
  points token := by
    rw [points_normalize]
    refine stablySorted_mergeSort (fun p q r hpq hqr => ?_) (fun p q => ?_) _
    · rw [decide_eq_true_iff] at hpq hqr ⊢
      exact UInt32.le_trans hpq hqr
    · rw [Bool.or_eq_true, decide_eq_true_iff, decide_eq_true_iff]
      exact UInt32.le_total p.offset q.offset

end Symbols

namespace Artifact

/-- The value nests no deeper, and takes no more bytes, than the body of a stream that is read. -/
structure Readable (v : Value) : Prop where
  depth_le : v.depth ≤ Context.json.depth
  size_le : (Text.utf8 (compact v)).length ≤ Stream.maxBodyBytes

variable {α : Type} {magic bytes : List UInt8} {v : Value}

/-- A body is written if its length fits into four bytes. -/
theorem exists_encodeBody (magic : List UInt8) (hsize : (Text.utf8 (compact v)).length < UInt32.size) :
    ∃ bytes, encodeBody magic v = .ok bytes :=
  ⟨_, if_pos hsize⟩

theorem Readable.size_lt (hreadable : Readable v) : (Text.utf8 (compact v)).length < UInt32.size :=
  Nat.lt_of_le_of_lt hreadable.size_le (by decide)

/-- A body is read as what was written, and exactly if it is readable. -/
theorem decodeBody_eq_ok_iff {decode : Decoder α} {a b : α} (hmagic : magic.length = 5)
    (hrecovers : decode.Recovers v a) (hencode : encodeBody magic v = .ok bytes) :
    decodeBody magic decode bytes = .ok b ↔ Readable v ∧ b = a := by
  rw [decodeBody, Stream.body_of_encode hmagic hencode]
  by_cases hsize : (Text.utf8 (compact v)).length ≤ Stream.maxBodyBytes
  · have hread : (ofBytes? (Text.utf8 (compact v))).bind (decode Context.json) =
        if v.depth ≤ Context.json.depth then some a else none := by
      rw [ofBytes?_compact hrecovers.floatFree, Option.bind_some, hrecovers.reads]
    rw [if_pos hsize]
    by_cases hdepth : v.depth ≤ Context.json.depth
    · rw [if_pos hdepth] at hread
      simp only [bind, Except.bind, hread]
      exact ⟨fun heq => ⟨⟨hdepth, hsize⟩, (Except.ok.inj heq).symm⟩, fun h => congrArg _ h.2.symm⟩
    · rw [if_neg hdepth] at hread
      simp only [bind, Except.bind, hread]
      exact ⟨nofun, fun h => absurd h.1.depth_le hdepth⟩
  · rw [if_neg hsize]
    exact ⟨nofun, fun h => absurd h.1.size_le hsize⟩

/-- The header of a stream that was written is refused only for the length of the body. -/
theorem check_eq_ok_iff (hmagic : magic.length = 5) (hencode : encodeBody magic v = .ok bytes) :
    Stream.check magic bytes = .ok () ↔ (Text.utf8 (compact v)).length ≤ Stream.maxBodyBytes := by
  rw [Stream.check_of_encode hmagic hencode]
  split
  · next hsize => exact ⟨fun _ => hsize, fun _ => rfl⟩
  · next hsize => exact ⟨nofun, fun h => absurd h hsize⟩

/-- The streams of the artifact are the ones that are written for the image and the table. What the readers
    of an artifact give is told from this alone. -/
structure Carries (a : Artifact) (image : Image) (symbols : Option Symbols) : Prop where
  name_eq : a.name = image.name
  module_eq : encodeBody Stream.moduleMagic (Image.record.encode image) = .ok a.module
  symbols_rel : Option.Rel
    (fun table bytes => encodeBody Stream.symbolsMagic (Symbols.record.encode table) = .ok bytes)
    symbols a.symbols

variable {a : Artifact} {image : Image} {symbols : Option Symbols}

theorem ofImage_eq_ok_iff : ofImage image symbols = .ok a ↔ a.Carries image symbols := by
  constructor
  · intro hmade
    cases hmodule : encodeBody Stream.moduleMagic (Image.record.encode image) with
    | error fault => simp [ofImage, hmodule, bind, Except.bind] at hmade
    | ok module =>
      cases symbols with
      | none =>
        simp only [ofImage, hmodule, bind, Except.bind, pure, Except.pure, Except.ok.injEq] at hmade
        subst hmade
        exact ⟨rfl, hmodule, .none⟩
      | some table =>
        cases hbytes : encodeBody Stream.symbolsMagic (Symbols.record.encode table) with
        | error fault => simp [ofImage, hmodule, hbytes, bind, Except.bind] at hmade
        | ok bytes =>
          simp only [ofImage, hmodule, hbytes, bind, Except.bind, pure, Except.pure, Except.ok.injEq] at hmade
          subst hmade
          exact ⟨rfl, hmodule, .some hbytes⟩
  · obtain ⟨name, module, streams⟩ := a
    rintro ⟨rfl, hmodule, hsymbols⟩
    cases hsymbols with
    | none => simp [ofImage, hmodule, bind, Except.bind, pure, Except.pure]
    | some hbytes => simp [ofImage, hmodule, hbytes, bind, Except.bind, pure, Except.pure]

namespace Carries

theorem image_eq_ok_iff (h : a.Carries image symbols) {read : Image} :
    a.image = .ok read ↔ Readable (Image.record.encode image) ∧ read = image :=
  decodeBody_eq_ok_iff rfl image.recovers h.module_eq

theorem debugSymbols_eq_ok_iff (h : a.Carries image symbols) {read : Option Symbols} :
    a.debugSymbols = .ok read ↔
      (∀ table ∈ symbols, Readable (Symbols.record.encode table)) ∧ read = symbols.map Symbols.normalize := by
  obtain ⟨name, module, streams⟩ := a
  cases h.symbols_rel with
  | none => exact ⟨fun heq => ⟨nofun, (Except.ok.inj heq).symm⟩, fun hread => congrArg _ hread.2.symm⟩
  | @some table bytes hbytes =>
    have hdecode := fun s => decodeBody_eq_ok_iff (b := s) rfl table.recovers hbytes
    simp only [Option.map_some, debugSymbols]
    constructor
    · intro hread
      cases hbody : decodeBody Stream.symbolsMagic Symbols.record.decode bytes with
      | error fault =>
        rw [hbody] at hread
        cases hread
      | ok s =>
        obtain ⟨hreadable, rfl⟩ := (hdecode s).mp hbody
        rw [hbody] at hread
        exact ⟨fun | _, rfl => hreadable, (Except.ok.inj hread).symm⟩
    · rintro ⟨hreadable, rfl⟩
      rw [(hdecode table).mpr ⟨hreadable table rfl, rfl⟩]
      rfl

/-- The streams are taken as they are if what they hold is readable. -/
theorem ofBytes_eq_ok (h : a.Carries image symbols) (himage : Readable (Image.record.encode image))
    (hsymbols : ∀ table ∈ symbols, Readable (Symbols.record.encode table)) :
    ofBytes a.name a.module a.symbols = .ok a := by
  obtain ⟨name, module, streams⟩ := a
  have hmodule := (check_eq_ok_iff rfl h.module_eq).mpr himage.size_le
  cases h.symbols_rel with
  | none =>
    simp only [ofBytes, hmodule, bind, Except.bind]
    rfl
  | some hbytes =>
    have htable := (check_eq_ok_iff rfl hbytes).mpr (hsymbols _ rfl).size_le
    simp only [ofBytes, hmodule, htable, bind, Except.bind]
    rfl

end Carries

theorem exists_carries (himage : Readable (Image.record.encode image))
    (hsymbols : ∀ table ∈ symbols, Readable (Symbols.record.encode table)) :
    ∃ a : Artifact, a.Carries image symbols := by
  obtain ⟨module, hmodule⟩ := exists_encodeBody Stream.moduleMagic himage.size_lt
  cases symbols with
  | none => exact ⟨⟨image.name, module, none⟩, rfl, hmodule, .none⟩
  | some table =>
    obtain ⟨bytes, hbytes⟩ := exists_encodeBody Stream.symbolsMagic (hsymbols table rfl).size_lt
    exact ⟨⟨image.name, module, some bytes⟩, rfl, hmodule, .some hbytes⟩

/-- An image and a table that nest no deeper and take no more bytes than can be read come out of their
    artifact as they went in, the points of every method in order, and the streams are accepted. -/
theorem ofImage_roundTrip (himage : Readable (Image.record.encode image))
    (hsymbols : ∀ table ∈ symbols, Readable (Symbols.record.encode table)) :
    ∃ a, ofImage image symbols = .ok a ∧ a.image = .ok image ∧
      (∃ read, a.debugSymbols = .ok read ∧ Option.Rel Symbols.SortsTo symbols read) ∧
      ofBytes a.name a.module a.symbols = .ok a := by
  obtain ⟨a, hcarries⟩ := exists_carries himage hsymbols
  have hrel : Option.Rel Symbols.SortsTo symbols (symbols.map Symbols.normalize) := by
    cases symbols with
    | none => exact .none
    | some table => exact .some table.sortsTo_normalize
  exact ⟨a, ofImage_eq_ok_iff.mpr hcarries, hcarries.image_eq_ok_iff.mpr ⟨himage, rfl⟩,
    ⟨_, hcarries.debugSymbols_eq_ok_iff.mpr ⟨hsymbols, rfl⟩, hrel⟩, hcarries.ofBytes_eq_ok himage hsymbols⟩

/-- A method with a generic return type and an escaped text in its body. -/
def describedImage : Image :=
  ⟨"a", [⟨"m", [⟨"N", "T", some (.named "N" "B"), false, true, [], [],
    [⟨7, "M", ⟨"N", "List", [.named "" "E"]⟩, [], [], [], [⟨0, "ldstr", .text "\"\n"⟩]⟩]⟩]⟩]⟩

/-- Two points of that method, the later one first. -/
def describedSymbols : Symbols := ⟨⟨[(7, [⟨4, "d", 2, 2⟩, ⟨0, "d", 1, 1⟩])], List.pairwise_singleton _ _⟩⟩

theorem describedImage_returns : ∃ a, ofImage describedImage (some describedSymbols) = .ok a ∧
    a.image = .ok describedImage ∧
      (∃ read, a.debugSymbols = .ok read ∧ Option.Rel Symbols.SortsTo (some describedSymbols) read) ∧
      ofBytes a.name a.module a.symbols = .ok a :=
  ofImage_roundTrip ⟨by decide, by decide +kernel⟩ fun | _, rfl => ⟨by decide, by decide +kernel⟩

end Artifact

end PluginHost
