import PluginHost.Proofs.Image.RoundTrip
/-!
Artifacts that are made and cannot be read.

The limits of the reader are the only ones: an artifact that was made is accepted exactly if its image and its
table are readable. The writer checks less, so that there are artifacts which are refused.
-/

namespace PluginHost

open Json

namespace Artifact

/-- The streams of the artifact are taken, and both bodies are read. -/
structure Accepted (a : Artifact) : Prop where
  taken : ∃ b, ofBytes a.name a.module a.symbols = .ok b
  image_read : ∃ image, a.image = .ok image
  symbols_read : ∃ symbols, a.debugSymbols = .ok symbols

variable {a : Artifact} {image : Image} {symbols : Option Symbols}

/-- An artifact that was made is accepted exactly if what it was made of is readable. -/
theorem accepted_iff_readable (hmade : ofImage image symbols = .ok a) :
    a.Accepted ↔ Readable (Image.record.encode image) ∧
      ∀ table ∈ symbols, Readable (Symbols.record.encode table) := by
  have hcarries := ofImage_eq_ok_iff.mp hmade
  constructor
  · rintro ⟨_, ⟨_, himage⟩, ⟨_, hsymbols⟩⟩
    exact ⟨(hcarries.image_eq_ok_iff.mp himage).1, (hcarries.debugSymbols_eq_ok_iff.mp hsymbols).1⟩
  · rintro ⟨himage, hsymbols⟩
    exact ⟨⟨a, hcarries.ofBytes_eq_ok himage hsymbols⟩, ⟨image, hcarries.image_eq_ok_iff.mpr ⟨himage, rfl⟩⟩,
      ⟨_, hcarries.debugSymbols_eq_ok_iff.mpr ⟨hsymbols, rfl⟩⟩⟩

/-- A method with a generic return type, and the points of its source that the symbols name. -/
theorem describedImage_accepted : ∃ a, ofImage describedImage (some describedSymbols) = .ok a ∧ a.Accepted := by
  have himage : Readable (Image.record.encode describedImage) := ⟨by decide, by decide +kernel⟩
  have hsymbols : ∀ table ∈ some describedSymbols, Readable (Symbols.record.encode table) := by
    rintro _ ⟨⟩
    exact ⟨by decide, by decide +kernel⟩
  obtain ⟨a, hcarries⟩ := exists_carries himage hsymbols
  have hmade := ofImage_eq_ok_iff.mpr hcarries
  exact ⟨a, hmade, (accepted_iff_readable hmade).mpr ⟨himage, hsymbols⟩⟩

theorem length_compactMoreItems_replicate (n : Nat) (v : Value) (rest : List Char) :
    (compactMoreItems (List.replicate n v) rest).length = n * ((compact v).length + 1) + rest.length := by
  induction n with
  | zero => rw [Nat.zero_mul, Nat.zero_add]; rfl
  | succ n ih =>
    rw [List.replicate_succ, compactMoreItems, List.length_cons, length_compactOnto, ih, Nat.succ_mul]
    omega

/-- The length of an array of equal items. -/
theorem length_compact_arr_replicate {n : Nat} (hn : n ≠ 0) (v : Value) :
    (compact (.arr (List.replicate n v))).length = n * ((compact v).length + 1) + 1 := by
  obtain ⟨n, rfl⟩ := Nat.exists_eq_succ_of_ne_zero hn
  rw [compact, compactOnto, List.replicate_succ, compactItems, List.length_cons, length_compactOnto,
    length_compactMoreItems_replicate, Nat.succ_mul]
  simp only [List.length_cons, List.length_nil]
  omega

/-- The length of an object of two members. -/
theorem length_compact_obj_pair (key key' : String) (v v' : Value) :
    (compact (.obj [(key, v), (key', v')])).length = (quotedText key.toList).length + (compact v).length +
      (quotedText key'.toList).length + (compact v').length + 5 := by
  rw [compact, compactOnto, compactMembers, compactMoreMembers, compactMoreMembers]
  simp only [List.length_cons, List.length_append, List.length_nil, length_compactOnto]
  omega

def emptyType : TypeDef := ⟨"", "", none, false, false, [], [], []⟩

theorem length_emptyType : (compact (TypeDef.record.encode emptyType)).length = 126 := by decide +kernel

def crowdedModule (n : Nat) : ModuleDef := ⟨"", List.replicate n emptyType⟩

/-- An image of `n` modules with `n` types in each, none of which says anything. -/
def crowdedImage (n : Nat) : Image := ⟨"a", List.replicate n (crowdedModule n)⟩

theorem length_crowdedModule {n : Nat} (hn : n ≠ 0) :
    (compact (ModuleDef.record.encode (crowdedModule n))).length = 127 * n + 21 := by
  have hform : ModuleDef.record.encode (crowdedModule n) = .obj [("name", .str ""),
      ("types", .arr (List.replicate n (TypeDef.record.encode emptyType)))] := by
    rw [← List.map_replicate]
    rfl
  have hname : (quotedText "name".toList).length = 6 := by decide
  have htypes : (quotedText "types".toList).length = 7 := by decide
  have hempty : (compact (.str "")).length = 2 := by decide
  rw [hform, length_compact_obj_pair, hname, htypes, hempty, length_compact_arr_replicate hn,
    length_emptyType]
  omega

theorem length_crowdedImage {n : Nat} (hn : n ≠ 0) :
    (compact (Image.record.encode (crowdedImage n))).length = n * (127 * n + 22) + 24 := by
  have hform : Image.record.encode (crowdedImage n) = .obj [("name", .str "a"),
      ("modules", .arr (List.replicate n (ModuleDef.record.encode (crowdedModule n))))] := by
    rw [← List.map_replicate]
    rfl
  have hname : (quotedText "name".toList).length = 6 := by decide
  have hmodules : (quotedText "modules".toList).length = 9 := by decide
  have ha : (compact (.str "a")).length = 3 := by decide
  rw [hform, length_compact_obj_pair, hname, hmodules, ha, length_compact_arr_replicate hn,
    length_crowdedModule hn, show 127 * n + 21 + 1 = 127 * n + 22 from rfl]
  omega

/-- From some size on an image still fits into a stream, but not into one that is read. -/
theorem crowdedImage_refused {n : Nat} (hlarge : 728 ≤ n)
    (hfits : 4 * (n * (127 * n + 22) + 24) < UInt32.size) :
    ∃ a, ofImage (crowdedImage n) none = .ok a ∧ ¬ a.Accepted := by
  have hlength : (compact (Image.record.encode (crowdedImage n))).length = n * (127 * n + 22) + 24 :=
    length_crowdedImage (by omega)
  have hleast := Text.length_le_length_utf8 (compact (Image.record.encode (crowdedImage n)))
  have hmost := Text.length_utf8_le (compact (Image.record.encode (crowdedImage n)))
  rw [hlength] at hleast hmost
  obtain ⟨module, hmodule⟩ := exists_encodeBody Stream.moduleMagic (Nat.lt_of_le_of_lt hmost hfits)
  have hcarries : Carries ⟨"a", module, none⟩ (crowdedImage n) none := ⟨rfl, hmodule, .none⟩
  refine ⟨_, ofImage_eq_ok_iff.mpr hcarries, fun haccepted => ?_⟩
  obtain ⟨_, himage⟩ := haccepted.image_read
  have hsize := (hcarries.image_eq_ok_iff.mp himage).1.size_le
  -- At 728 the text is already longer than a body may be, and it only grows.
  have hproduct : 728 * (127 * 728 + 22) ≤ n * (127 * n + 22) := Nat.mul_le_mul hlarge (by omega)
  have hmax : Stream.maxBodyBytes = 67108864 := rfl
  omega

theorem halfMillionTypes_refused : ∃ a, ofImage (crowdedImage 728) none = .ok a ∧ ¬ a.Accepted :=
  crowdedImage_refused (by decide) (by decide)

/-- A type whose generic arguments nest `n` deep. -/
def nestedType : Nat → TypeRef
  | 0 => .named "" ""
  | n + 1 => ⟨"", "", [nestedType n]⟩

/-- An image of one type that is derived from such a type. -/
def nestedImage (n : Nat) : Image :=
  ⟨"a", [⟨"", [⟨"", "", some (nestedType n), false, false, [], [], []⟩]⟩]⟩

theorem depth_nestedType (n : Nat) : (nestedType n).encode.depth = 2 * n + 1 := by
  induction n with
  | zero => rfl
  | succ n ih =>
    simp [nestedType, TypeRef.encode, TypeRef.encodeAll, Value.depth, Value.depthOfMembers, Value.depthOfItems,
      ih]
    omega

theorem depth_nestedImage (n : Nat) : (Image.record.encode (nestedImage n)).depth = 2 * n + 6 := by
  have htype : (TypeDef.record.encode ⟨"", "", some (nestedType n), false, false, [], [], []⟩) =
      .obj [("namespace", .str ""), ("name", .str ""), ("base_type", (nestedType n).encode),
        ("is_abstract", .bool false), ("is_interface", .bool false), ("annotations", .arr []),
        ("fields", .arr []), ("methods", .arr [])] := rfl
  have himage : Image.record.encode (nestedImage n) = .obj [("name", .str "a"), ("modules",
      .arr [.obj [("name", .str ""), ("types", .arr [TypeDef.record.encode
        ⟨"", "", some (nestedType n), false, false, [], [], []⟩])]])] := rfl
  rw [himage, htype]
  simp only [Value.depth, Value.depthOfMembers, Value.depthOfItems, depth_nestedType]
  omega

/-- No artifact of an image is accepted whose generic arguments nest too deep. -/
theorem nestedImage_refused {n : Nat} (hdeep : 61 ≤ n) (hmade : ofImage (nestedImage n) none = .ok a) :
    ¬ a.Accepted := by
  intro haccepted
  obtain ⟨_, himage⟩ := haccepted.image_read
  have hdepth := ((ofImage_eq_ok_iff.mp hmade).image_eq_ok_iff.mp himage).1.depth_le
  rw [depth_nestedImage] at hdepth
  have hlimit : Context.json.depth = 127 := rfl
  omega

/-- At 61 levels the artifact is made. -/
example : (ofImage (nestedImage 61) none).isOk = true := by decide +kernel

end Artifact

end PluginHost
