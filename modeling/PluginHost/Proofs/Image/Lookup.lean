import PluginHost.Proofs.Image.RoundTrip
/-!
The points that offsets are looked up in.

A symbol stream may list the points of a method in any order and several at one offset. They are sorted when the
stream is read, and sorting keeps the order of points at one offset, so that what is found can be told from the
order of the stream. Main statement: `lookup_debugSymbols`.
-/

namespace PluginHost

namespace Symbols

variable {points sorted : List SequencePoint} {offset : UInt32} {p q : SequencePoint}

/-- Of the points at or before an offset, one has the greatest offset and is the last to have it. -/
structure Precedes (points : List SequencePoint) (offset : UInt32) (p : SequencePoint) : Prop where
  offset_le : p.offset ≤ offset
  greatest : ∀ q ∈ points, q.offset ≤ offset → q.offset ≤ p.offset
  last : (points.filter fun q => q.offset = p.offset).getLast? = some p

/-- All points are behind an offset; one of them has the least offset and is the first to have it. -/
structure Follows (points : List SequencePoint) (offset : UInt32) (p : SequencePoint) : Prop where
  later : ∀ q ∈ points, offset < q.offset
  least : ∀ q ∈ points, p.offset ≤ q.offset
  first : (points.filter fun q => q.offset = p.offset).head? = some p

/-- The point of a method that covers an offset, whatever order the points are in. -/
def Covers (points : List SequencePoint) (offset : UInt32) (p : SequencePoint) : Prop :=
  Precedes points offset p ∨ Follows points offset p

theorem Precedes.mem (h : Precedes points offset p) : p ∈ points :=
  (List.mem_filter.mp (List.mem_of_getLast? h.last)).1

theorem Follows.mem (h : Follows points offset p) : p ∈ points :=
  (List.mem_filter.mp (List.mem_of_head? h.first)).1

theorem Precedes.not_follows (h : Precedes points offset p) : ¬ Follows points offset q := by
  intro hfollows
  exact absurd (hfollows.later p h.mem) (UInt32.not_lt.mpr h.offset_le)

theorem Precedes.unique (hp : Precedes points offset p) (hq : Precedes points offset q) : p = q := by
  have hoffset : p.offset = q.offset :=
    UInt32.le_antisymm (hq.greatest p hp.mem hp.offset_le) (hp.greatest q hq.mem hq.offset_le)
  have hlast := hp.last
  rw [hoffset, hq.last] at hlast
  exact (Option.some.inj hlast).symm

theorem Follows.unique (hp : Follows points offset p) (hq : Follows points offset q) : p = q := by
  have hoffset : p.offset = q.offset := UInt32.le_antisymm (hp.least q hq.mem) (hq.least p hp.mem)
  have hfirst := hp.first
  rw [hoffset, hq.first] at hfirst
  exact (Option.some.inj hfirst).symm

theorem Covers.mem (h : Covers points offset p) : p ∈ points := by
  obtain h | h := h
  · exact h.mem
  · exact h.mem

theorem Covers.unique (hp : Covers points offset p) (hq : Covers points offset q) : p = q := by
  obtain hp | hp := hp <;> obtain hq | hq := hq
  · exact hp.unique hq
  · exact absurd hq hp.not_follows
  · exact absurd hp hq.not_follows
  · exact hp.unique hq

/-! Which point covers an offset is not changed by sorting. -/

theorem offset_total (p q : SequencePoint) : (decide (p.offset ≤ q.offset) || decide (q.offset ≤ p.offset)) = true := by
  rw [Bool.or_eq_true, decide_eq_true_iff, decide_eq_true_iff]
  exact UInt32.le_total p.offset q.offset

/-- Points rank alike if they are at one offset. -/
theorem rankedAlike_offset (p : SequencePoint) :
    rankedAlike (fun p q : SequencePoint => decide (p.offset ≤ q.offset)) p =
      fun q => decide (q.offset = p.offset) := by
  funext q
  rw [rankedAlike, Bool.eq_iff_iff, Bool.and_eq_true, decide_eq_true_iff, decide_eq_true_iff, decide_eq_true_iff]
  constructor
  · exact fun h => UInt32.le_antisymm h.2 h.1
  · exact fun h => ⟨h ▸ UInt32.le_refl _, h ▸ UInt32.le_refl _⟩

/-- A point that covers an offset among sorted points covers it among the points as they were given. -/
theorem Covers.of_sorted (hsorted : StablySorted (fun p q : SequencePoint => p.offset ≤ q.offset) points sorted)
    (h : Covers sorted offset p) : Covers points offset p := by
  have hmem : ∀ q ∈ points, q ∈ sorted := fun q hq => (hsorted.mem_iff offset_total).mpr hq
  have hkept : (sorted.filter fun q => q.offset = p.offset) = points.filter fun q => q.offset = p.offset := by
    rw [← rankedAlike_offset, hsorted.kept]
  obtain hprecedes | hfollows := h
  · exact .inl ⟨hprecedes.offset_le, fun q hq => hprecedes.greatest q (hmem q hq), hkept ▸ hprecedes.last⟩
  · exact .inr ⟨fun q hq => hfollows.later q (hmem q hq), fun q hq => hfollows.least q (hmem q hq),
      hkept ▸ hfollows.first⟩

/-! What is found among points in order of their offsets. -/

section

variable (hordered : points.Pairwise fun p q => decide (p.offset ≤ q.offset) = true)

include hordered

theorem takeWhile_offset_le (offset : UInt32) :
    (points.takeWhile fun p => p.offset ≤ offset) = points.filter fun p => p.offset ≤ offset := by
  induction points with
  | nil => rfl
  | cons p rest ih =>
    obtain ⟨hhead, hrest⟩ := List.pairwise_cons.mp hordered
    by_cases hp : p.offset ≤ offset
    · simp [hp, ih hrest]
    · have hbehind : ∀ q ∈ rest, ¬ q.offset ≤ offset := fun q hq hle =>
        hp (UInt32.le_trans (of_decide_eq_true (hhead q hq)) hle)
      have hnone : (rest.filter fun q => q.offset ≤ offset) = [] :=
        List.filter_eq_nil_iff.mpr fun q hq => by simpa using hbehind q hq
      simp [hp, hnone]

theorem precedes_of_getLast? (hlast : (points.filter fun p => p.offset ≤ offset).getLast? = some p) :
    Precedes points offset p := by
  obtain ⟨before, hbefore⟩ := List.getLast?_eq_some_iff.mp hlast
  have hle : p.offset ≤ offset := of_decide_eq_true (List.mem_filter.mp (List.mem_of_getLast? hlast)).2
  refine ⟨hle, fun q hq hqoffset => ?_, ?_⟩
  · have hmem : q ∈ before ++ [p] := hbefore ▸ List.mem_filter.mpr ⟨hq, decide_eq_true hqoffset⟩
    have hkept := hordered.filter fun p => decide (p.offset ≤ offset)
    rw [hbefore, List.pairwise_append] at hkept
    obtain hq | hq := List.mem_append.mp hmem
    · exact of_decide_eq_true (hkept.2.2 q hq p (List.mem_singleton_self p))
    · rw [List.mem_singleton.mp hq]
      exact UInt32.le_refl _
  · -- The points at the offset of `p` are all at or before the offset in question.
    have hpoints : (points.filter fun q => q.offset = p.offset) =
        (before ++ [p]).filter fun q => q.offset = p.offset := by
      rw [← hbefore, List.filter_filter]
      refine List.filter_congr fun q _ => ?_
      by_cases hq : q.offset = p.offset
      · simp [hq, hle]
      · simp [hq]
    rw [hpoints, List.filter_append]
    simp

theorem follows_of_head? (hnone : (points.filter fun p => p.offset ≤ offset) = []) (hhead : points.head? = some p) :
    Follows points offset p := by
  obtain ⟨rest, rfl⟩ := List.head?_eq_some_iff.mp hhead
  refine ⟨fun q hq => ?_, fun q hq => ?_, ?_⟩
  · exact UInt32.not_le.mp fun hle => List.filter_eq_nil_iff.mp hnone q hq (decide_eq_true hle)
  · exact of_decide_eq_true (StablySorted.le_of_mem_cons offset_total hordered hq)
  · simp

end

variable {s : Symbols} {token : UInt32}

theorem lookup_eq_none_iff : s.lookup token offset = none ↔ s.points token = [] := by
  rw [lookup, Option.or_eq_none_iff, List.head?_eq_none_iff]
  exact ⟨fun h => h.2, fun h => ⟨by rw [h]; rfl, h⟩⟩

/-- If the points of a method are in order, what is found is the point that covers the offset. -/
theorem covers_of_lookup (hordered : (s.points token).Pairwise fun p q => decide (p.offset ≤ q.offset) = true)
    (hfound : s.lookup token offset = some p) : Covers (s.points token) offset p := by
  rw [lookup, takeWhile_offset_le hordered, Option.or_eq_some_iff, List.getLast?_eq_none_iff] at hfound
  obtain hlast | ⟨hnone, hhead⟩ := hfound
  · exact .inl (precedes_of_getLast? hordered hlast)
  · exact .inr (follows_of_head? hordered hnone hhead)

/-- Once the points are sorted, what is found is the point that covers the offset in the order given. -/
theorem SortsTo.lookup_eq_some_iff {given : Symbols} (h : given.SortsTo s) :
    s.lookup token offset = some p ↔ Covers (given.points token) offset p := by
  have hsorted := h.points token
  have hcovers : ∀ q, s.lookup token offset = some q → Covers (given.points token) offset q := fun q hq =>
    (covers_of_lookup hsorted.ordered hq).of_sorted hsorted
  refine ⟨hcovers p, fun hp => ?_⟩
  cases hfound : s.lookup token offset with
  | some q => rw [(hcovers q hfound).unique hp]
  | none =>
    have hmem := (hsorted.mem_iff offset_total).mpr hp.mem
    rw [lookup_eq_none_iff.mp hfound] at hmem
    cases hmem

theorem SortsTo.lookup_eq_none_iff {given : Symbols} (h : given.SortsTo s) :
    s.lookup token offset = none ↔ given.methods.get? token = none ∨ given.methods.get? token = some [] := by
  have hsorted := h.points token
  have hpoints : s.points token = [] ↔ given.points token = [] := by
    simp only [List.eq_nil_iff_forall_not_mem, hsorted.mem_iff offset_total]
  rw [Symbols.lookup_eq_none_iff, hpoints, Symbols.points]
  cases given.methods.get? token <;> simp

end Symbols

namespace Artifact

/-- Of a symbol stream that can be decoded, whatever the order of its points, each lookup finds the point that
    covers the offset; it finds none exactly if the stream has no points for the method. -/
theorem lookup_debugSymbols {a : Artifact} {bytes : List UInt8} {given : Symbols} (hsymbols : a.symbols = some bytes)
    (hdecodes : decodeBody Stream.symbolsMagic Symbols.record.decode bytes = .ok given) :
    ∃ table, a.debugSymbols = .ok (some table) ∧ ∀ token offset,
      (table.lookup token offset = none ↔
        given.methods.get? token = none ∨ given.methods.get? token = some []) ∧
      ∀ p, table.lookup token offset = some p ↔ Symbols.Covers (given.points token) offset p := by
  have hsorts := given.sortsTo_normalize
  refine ⟨given.normalize, ?_, fun token offset => ⟨hsorts.lookup_eq_none_iff, fun p => hsorts.lookup_eq_some_iff⟩⟩
  rw [debugSymbols, hsymbols]
  simp only [hdecodes, Except.map]

/-- A method with two points at either of two offsets, those further on first, and a method without points. -/
def crossedSymbols : Symbols :=
  ⟨⟨[(7, [⟨4, "d", 5, 5⟩, ⟨2, "d", 1, 1⟩, ⟨4, "d", 6, 6⟩, ⟨2, "d", 3, 3⟩]), (9, [])], by simp [Assoc.Ascending]⟩⟩

/-- Behind both points of an offset the second is found, before all points the first. -/
theorem lookup_crossedSymbols : ∃ a bytes, ofImage ⟨"a", []⟩ (some crossedSymbols) = .ok a ∧ a.symbols = some bytes ∧
    decodeBody Stream.symbolsMagic Symbols.record.decode bytes = .ok crossedSymbols ∧
    ∃ table, a.debugSymbols = .ok (some table) ∧ table.lookup 7 8 = some ⟨4, "d", 6, 6⟩ ∧
      table.lookup 7 3 = some ⟨2, "d", 3, 3⟩ ∧ table.lookup 7 1 = some ⟨2, "d", 1, 1⟩ ∧
      table.lookup 9 1 = none ∧ table.lookup 8 1 = none := by
  have hreadable : Readable (Symbols.record.encode crossedSymbols) := ⟨by decide, by decide +kernel⟩
  obtain ⟨⟨name, module, streams⟩, hcarries⟩ : ∃ a : Artifact, a.Carries ⟨"a", []⟩ (some crossedSymbols) :=
    exists_carries ⟨by decide, by decide⟩ fun | _, rfl => hreadable
  cases hcarries.symbols_rel with
  | @some _ bytes hencode =>
    have hdecodes := (decodeBody_eq_ok_iff rfl crossedSymbols.recovers hencode).mpr ⟨hreadable, rfl⟩
    obtain ⟨table, htable, hlookup⟩ := lookup_debugSymbols (a := ⟨name, module, some bytes⟩) rfl hdecodes
    refine ⟨_, bytes, ofImage_eq_ok_iff.mpr hcarries, rfl, hdecodes, table, htable, ?_, ?_, ?_, ?_, ?_⟩
    · exact ((hlookup 7 8).2 _).mpr (.inl ⟨by decide, by decide, by decide⟩)
    · exact ((hlookup 7 3).2 _).mpr (.inl ⟨by decide, by decide, by decide⟩)
    · exact ((hlookup 7 1).2 _).mpr (.inr ⟨by decide, by decide, by decide⟩)
    · exact (hlookup 9 1).1.mpr (.inr rfl)
    · exact (hlookup 8 1).1.mpr (.inl rfl)

end Artifact

end PluginHost
