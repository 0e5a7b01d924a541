import PluginHost.Proofs.Regex.Search
import PluginHost.Regex.Reader
/-!
Regular expressions that are read from texts.

An interval that asks for more at the least than at the most is refused, so no expression that is read has one. Main
statement: whatever text is read as an expression without parts that stand for groups, the first of its longest
matches is found, in whatever is searched.
-/

namespace PluginHost

/-- What is read, if anything is, has a property. -/
def Yields {ε α : Type} (x : Except ε α) (P : α → Prop) : Prop := ∀ a, x = .ok a → P a

namespace Yields

variable {ε α β : Type} {x : Except ε α} {P : α → Prop} {Q : β → Prop} {f : α → Except ε β}

theorem error (fault : ε) : Yields (.error fault) P := nofun

theorem ok {a : α} (h : P a) : Yields (.ok a : Except ε α) P := by
  rintro _ ⟨⟩
  exact h

theorem bind (h : Yields x P) (hf : ∀ a, P a → Yields (f a) Q) : Yields (x >>= f) Q := by
  cases x with
  | error fault => exact error fault
  | ok a => exact hf a (h a rfl)

theorem ite {c : Prop} [Decidable c] {y : Except ε α} (hx : c → Yields x P) (hy : ¬ c → Yields y P) :
    Yields (if c then x else y) P := by
  split
  · next h => exact hx h
  · next h => exact hy h

end Yields

namespace Regex

def Token.Bounded : Token → Prop
  | single r => r.Bounded
  | times least most => ∀ bound ∈ most, least ≤ bound
  | opening | closing | bar => True

theorem Token.bounded_times_none (least : Nat) : (times least none).Bounded := by
  simp [Bounded]

theorem Token.bounded_times_some {least bound : Nat} (h : least ≤ bound) : (times least (some bound)).Bounded := by
  simpa [Bounded] using h

/-! Parts of an expression. -/

theorem takeBracket_bounded (style : RegexStyle) (s : List Char) :
    Yields (takeBracket style s) fun part => part.1.Bounded := by
  unfold takeBracket
  split
  refine .ite (fun _ => .error _) fun _ => ?_
  refine Yields.bind (fun _ _ => trivial) fun items _ => ?_
  cases items
  exact .ok trivial

theorem classEscape?_bounded {c : Char} {r : Regex} (h : classEscape? c = some r) : r.Bounded := by
  unfold classEscape? at h
  split at h
  all_goals first
    | cases h; trivial
    | split at h <;> cases h; trivial

theorem tokens_bounded (style : RegexStyle) (fuel : Nat) (isStart : Bool) (s : List Char) :
    Yields (tokens style fuel isStart s) fun ts => ∀ t ∈ ts, t.Bounded := by
  induction fuel generalizing isStart s with
  | zero =>
    rw [tokens]
    exact .ok (List.forall_mem_nil _)
  | succ fuel ih =>
    have hgoOn : ∀ {t : Token} {isStart : Bool} {rest : List Char}, t.Bounded →
        Yields (do return t :: (← tokens style fuel isStart rest)) fun ts => ∀ t ∈ ts, t.Bounded :=
      fun ht => (ih _ _).bind fun _ hts => .ok (List.forall_mem_cons.mpr ⟨ht, hts⟩)
    have hplain : ∀ {r : Regex} {isStart : Bool} {rest : List Char}, r.Bounded →
        Yields (do return .single r :: (← tokens style fuel isStart rest)) fun ts => ∀ t ∈ ts, t.Bounded :=
      fun hr => hgoOn hr
    have hinterval : ∀ {least : Nat} {most : Option Nat} {rest : List Char}, Yields
        (if most.any (· < least) then throw RegexFault.badInterval
          else if maxTimes < most.getD least then throw .tooBig
          else do return .times least most :: (← tokens style fuel false rest))
        fun ts => ∀ t ∈ ts, t.Bounded := by
      intro least most rest
      refine .ite (fun _ => .error _) fun hbounded => .ite (fun _ => .error _) fun _ => hgoOn fun bound hbound => ?_
      cases hbound
      simpa using hbounded
    have hbrace : ∀ {rest : List Char}, Yields
        (if style.isExtended && style.isLenient then do
            return .single (.char '\x7b') :: (← tokens style fuel false rest)
          else throw .unmatchedBrace)
        fun ts => ∀ t ∈ ts, t.Bounded := .ite (fun _ => hplain trivial) fun _ => .error _
    have halone : ∀ {rest : List Char}, Yields
        (if style.isLenient then tokens style fuel isStart rest else throw .nothingToRepeat)
        fun ts => ∀ t ∈ ts, t.Bounded := .ite (fun _ => ih _ _) fun _ => .error _
    cases s with
    | nil =>
      rw [tokens]
      · exact .ok (List.forall_mem_nil _)
      · exact nofun
    | cons c rest =>
      unfold tokens
      dsimp only
      refine .ite (fun _ => ?_) fun _ => .ite (fun _ => ?_) fun _ => .ite (fun _ => hplain trivial) fun _ =>
        .ite (fun _ => ?_) fun _ => .ite (fun _ => ?_) fun _ => .ite (fun _ => hplain trivial) fun _ =>
        .ite (fun _ => hplain trivial) fun _ => hplain trivial
      · -- a backslash
        cases rest with
        | nil => exact .error _
        | cons e rest =>
          refine .ite (fun _ => hplain trivial) fun _ => .ite (fun _ => hgoOn trivial) fun _ =>
            .ite (fun _ => hgoOn trivial) fun _ => .ite (fun _ => hgoOn trivial) fun _ =>
            .ite (fun _ => ?_) fun _ => .ite (fun _ => hgoOn (Token.bounded_times_none 1)) fun _ =>
            .ite (fun _ => hgoOn (Token.bounded_times_some (Nat.zero_le 1))) fun _ =>
            .ite (fun _ => hplain trivial) fun _ => ?_
          · refine .ite (fun _ => .ite (fun _ => hplain trivial) fun _ => .error _) fun _ => ?_
            split
            · exact hinterval
            · exact hbrace
          · split
            · exact hplain trivial
            · split
              · next r hr => exact hplain (classEscape?_bounded hr)
              · exact hplain trivial
      · -- a bracket
        exact (takeBracket_bounded style rest).bind fun _ hr => hplain hr
      · -- an asterisk
        exact .ite (fun _ => hgoOn (Token.bounded_times_none 0)) fun _ => .ite (fun _ => halone) fun _ => hplain trivial
      · -- the extended style
        split
        · exact hplain trivial
        · exact hplain trivial
        · exact hgoOn trivial
        · exact hgoOn trivial
        · exact hgoOn trivial
        · exact .ite (fun _ => halone) fun _ => hgoOn (Token.bounded_times_none 1)
        · exact .ite (fun _ => halone) fun _ => hgoOn (Token.bounded_times_some (Nat.zero_le 1))
        · refine .ite (fun _ => ?_) fun _ => .ite (fun _ => .error _) fun _ => ?_
          · split
            · exact hinterval
            · exact hbrace
          · split
            · exact ih _ _
            · exact hplain trivial
        · exact hplain trivial

/-! Expressions. -/

/-- What is read from some parts has a property, and the parts that are left are still bounded. -/
def ReadsFrom {α : Type} (x : Reader α) (state : List Token × Nat) (P : α → Prop) : Prop :=
  Yields (x.run state) fun (a, left) => P a ∧ ∀ t ∈ left.1, t.Bounded

namespace ReadsFrom

variable {α β : Type} {x : Reader α} {f : α → Reader β} {state : List Token × Nat} {P : α → Prop} {Q : β → Prop}

theorem pure {a : α} (h : P a) (hstate : ∀ t ∈ state.1, t.Bounded) : ReadsFrom (pure a) state P :=
  Yields.ok ⟨h, hstate⟩

theorem bind (h : ReadsFrom x state P) (hf : ∀ a left, P a → (∀ t ∈ left.1, t.Bounded) → ReadsFrom (f a) left Q) :
    ReadsFrom (x >>= f) state Q :=
  Yields.bind h fun (a, left) ⟨ha, hleft⟩ => hf a left ha hleft

theorem get_bind {f : List Token × Nat → Reader β} (h : ReadsFrom (f state) state Q) :
    ReadsFrom (get >>= f) state Q := h

theorem set_bind {f : PUnit → Reader β} {next : List Token × Nat} (h : ReadsFrom (f ⟨⟩) next Q) :
    ReadsFrom (set next >>= f) state Q := h

end ReadsFrom

variable {r : Regex} {state : List Token × Nat}

theorem repeated_bounded (fuel : Nat) (hr : r.Bounded) (hstate : ∀ t ∈ state.1, t.Bounded) :
    ReadsFrom (repeated fuel r) state Bounded := by
  induction fuel generalizing r state with
  | zero => exact .pure hr hstate
  | succ fuel ih =>
    rw [repeated]
    refine .get_bind ?_
    split
    · next least most rest n _ =>
      obtain ⟨htimes, hrest⟩ := List.forall_mem_cons.mp hstate
      exact .set_bind (ih ⟨htimes, hr⟩ hrest)
    · exact .pure hr hstate

mutual

theorem alternatives_bounded : ∀ (fuel : Nat) {state : List Token × Nat}, (∀ t ∈ state.1, t.Bounded) →
    ReadsFrom (alternatives fuel) state Bounded
  | 0, _, hstate => .pure trivial hstate
  | fuel + 1, state, hstate => by
    rw [alternatives]
    refine .bind (branch_bounded fuel trivial hstate) fun a left ha hleft => .get_bind ?_
    split
    · refine .set_bind (.bind (alternatives_bounded fuel (List.forall_mem_cons.mp hleft).2) fun b left hb hleft => ?_)
      exact .pure ⟨ha, hb⟩ hleft
    · exact .pure ha hleft

theorem branch_bounded : ∀ (fuel : Nat) {read : Regex} {state : List Token × Nat}, read.Bounded →
    (∀ t ∈ state.1, t.Bounded) → ReadsFrom (branch fuel read) state Bounded
  | 0, _, _, hread, hstate => .pure hread hstate
  | fuel + 1, read, state, hread, hstate => by
    have hjoin : ∀ {r : Regex}, r.Bounded → (if read = .empty then r else .seq read r).Bounded := by
      intro r hr
      split
      · exact hr
      · exact ⟨hread, hr⟩
    rw [branch]
    refine .get_bind ?_
    split
    · next r rest n _ =>
      obtain ⟨hr, hrest⟩ := List.forall_mem_cons.mp hstate
      exact .set_bind (.bind (repeated_bounded _ hr hrest) fun a left ha hleft =>
        branch_bounded fuel (hjoin ha) hleft)
    · exact .set_bind (branch_bounded fuel hread (List.forall_mem_cons.mp hstate).2)
    · next rest n _ =>
      refine .set_bind (.bind (alternatives_bounded fuel (List.forall_mem_cons.mp hstate).2) fun r left hr hleft =>
        .get_bind ?_)
      split
      · refine .set_bind (.bind (repeated_bounded _ (show (Regex.group _ _).Bounded from hr)
          (List.forall_mem_cons.mp hleft).2) fun a left ha hleft => ?_)
        exact branch_bounded fuel (hjoin ha) hleft
      · exact Yields.error _
    · exact .pure hread hstate

end

theorem keepClosing_bounded {ts : List Token} (depth : Nat) (h : ∀ t ∈ ts, t.Bounded) :
    ∀ t ∈ keepClosing depth ts, t.Bounded := by
  fun_induction keepClosing depth ts with
  | case1 depth rest ih | case2 rest ih | case3 depth rest ih | case4 depth t rest _ _ _ ih =>
    obtain ⟨ht, hrest⟩ := List.forall_mem_cons.mp h
    exact List.forall_mem_cons.mpr ⟨ht, ih hrest⟩
  | case5 => exact h

/-- An expression that is read asks nowhere for more parts at the least than at the most. -/
theorem ofText_bounded (style : RegexStyle) (s : List Char) : Yields (ofText style s) Bounded := by
  unfold ofText
  refine (tokens_bounded style _ true s).bind fun ts hts => ?_
  have hkept : ∀ t ∈ if style.isLenient && style.isExtended then keepClosing 0 ts else ts, t.Bounded := by
    split
    · exact keepClosing_bounded 0 hts
    · exact hts
  refine Yields.bind (alternatives_bounded _ hkept) fun (r, left) hread => ?_
  exact .ite (fun _ => .error _) fun _ => .ite (fun _ => .error _) fun _ => .ok hread.1

/-- Whatever text is read as an expression without parts that stand for groups: a search finds the first match at or
    behind a position, and the longest of those that begin there, and finds none only if there is none. -/
theorem search?_ofText_exact {style : RegexStyle} {text : List Char} (hread : ofText style text = .ok r)
    (hback : r.hasBack = false) (s : Subject) (start : Nat) :
    (r.search? s start = none ↔ ∀ p q, start ≤ p → p ≤ s.chars.size → ¬ Matches s r p q) ∧
      ∀ m, r.search? s start = some m → start ≤ m.start ∧ m.start ≤ s.chars.size ∧ m.Longest s r ∧
        ∀ p q, start ≤ p → p < m.start → ¬ Matches s r p q :=
  search?_exact hback (ofText_bounded style text r hread) start

/-- Of two matches at one place the longer one counts, in whatever order they are written. -/
example : ((ofText ⟨true, true, true, true⟩ "(a|ab)c?".toList).toOption.bind fun r =>
    (r.search? ⟨#['x', 'a', 'b', 'c'], false⟩ 0).map fun m => (m.start, m.stop, m.groups)) =
      some (1, 4, [(1, 1, 3)]) := by
  decide +kernel

end Regex

end PluginHost
