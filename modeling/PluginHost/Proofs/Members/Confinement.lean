import Mathlib.Data.List.Forall2
import PluginHost.Lifecycle.Plugin
import PluginHost.Proofs.Policy.Verdict
/-!
What plugins learn of the members of the host, and what they can change.

Whether the members of a type may be touched is decided by the name of the type alone, before the store is
looked at. So two stores that hold the same under the types that are open tell a plugin the same, and what is
closed stays as it was. Main statement: this holds of any sequence of calls, and of the code of any plugin,
whose next call may depend on the answers so far.
-/

namespace PluginHost

namespace Members

/-- The members of a type are open to plugins under a tier: no protected namespace covers the type, and the tier does
    not restrict it. -/
structure Open (tier : Tier) (m : MemberName) : Prop where
  unprotected : ∀ ns ∈ protectedNamespaces, ¬ ns.toList <+: m.type.toList
  unrestricted : ¬ tier.Bars (Symbol.stripArraySuffix m.type)

theorem allows_iff_open {tier : Tier} {m : MemberName} : allows tier m.type = true ↔ Open tier m := by
  rw [allows, Bool.and_eq_true, Option.isNone_iff_eq_none, protecting?_eq_none_iff, Bool.not_eq_true',
    ← Bool.not_eq_true, Verdict.isRestricted, decide_eq_true_iff, Tier.classify_eq_restricted_iff]
  exact ⟨fun h => ⟨h.1, h.2⟩, fun h => ⟨h.unprotected, h.unrestricted⟩⟩

instance (tier : Tier) (m : MemberName) : Decidable (Open tier m) := decidable_of_iff _ allows_iff_open

/-- Two stores hold the same under all types that are open. -/
def Agree (tier : Tier) (ms ns : Members) : Prop := ∀ m, Open tier m → ns.read? m = ms.read? m

/-- No member was made or taken away, and what is closed has the value that it had. -/
structure Confined (tier : Tier) (before after : Members) : Prop where
  names : after.map (·.1) = before.map (·.1)
  closed : ∀ m, ¬ Open tier m → after.read? m = before.read? m

variable {tier : Tier} {ms ns : Members} {m : MemberName} {v : Json.Value}

theorem Confined.refl (tier : Tier) (ms : Members) : Confined tier ms ms := ⟨rfl, fun _ _ => rfl⟩

theorem Confined.trans {later : Members} (h : Confined tier ms ns) (hlater : Confined tier ns later) :
    Confined tier ms later :=
  ⟨hlater.names.trans h.names, fun m hm => (hlater.closed m hm).trans (h.closed m hm)⟩

theorem read?_cons (e : MemberName × Json.Value) (rest : Members) (m : MemberName) :
    read? (e :: rest) m = if e.1 = m then some e.2 else rest.read? m := by
  obtain ⟨name, value⟩ := e
  rw [read?, List.lookup_cons]
  by_cases h : name = m
  · rw [if_pos h, h, beq_self_eq_true]
  · rw [if_neg h, beq_eq_false_iff_ne.mpr (Ne.symm h)]
    rfl

theorem read?_define (ms : Members) (m other : MemberName) (v : Json.Value) :
    (ms.define m v).read? other = if m = other then some v else ms.read? other := by
  induction ms with
  | nil => rw [define, read?_cons]
  | cons e rest ih =>
    by_cases he : e.1 = m
    · rw [define, if_pos he, read?_cons, read?_cons, he]
      split <;> rfl
    · rw [define, if_neg he, read?_cons, read?_cons, ih]
      by_cases hother : m = other
      · rw [if_pos hother, if_pos hother, if_neg fun heq => he (heq.trans hother.symm)]
      · rw [if_neg hother, if_neg hother]

theorem names_define {ms : Members} (h : (ms.read? m).isSome = true) :
    (ms.define m v).map (·.1) = ms.map (·.1) := by
  induction ms with
  | nil => cases h
  | cons e rest ih =>
    by_cases he : e.1 = m
    · rw [define, if_pos he, List.map_cons, List.map_cons, he]
    · rw [read?_cons, if_neg he] at h
      rw [define, if_neg he, List.map_cons, List.map_cons, ih h]

theorem check_of_open (h : Open tier m) : check tier m = .ok () :=
  if_pos (allows_iff_open.mpr h)

theorem check_of_closed (h : ¬ Open tier m) : check tier m = .error (.accessDenied m.display) :=
  if_neg (allows_iff_open.not.mpr h)

theorem guardedRead_of_closed (ms : Members) (h : ¬ Open tier m) :
    guardedRead tier ms m = .error (.accessDenied m.display) := by
  rw [guardedRead, check_of_closed h]
  rfl

theorem guardedRead_of_open (ms : Members) (h : Open tier m) :
    guardedRead tier ms m = (ms.read? m).elim (.error (.notFound m.display)) .ok := by
  rw [guardedRead, check_of_open h]
  cases ms.read? m <;> rfl

theorem guardedWrite_of_closed (ms : Members) (v : Json.Value) (h : ¬ Open tier m) :
    guardedWrite tier ms m v = .error (.accessDenied m.display) := by
  rw [guardedWrite, check_of_closed h]
  rfl

theorem guardedWrite_of_open (ms : Members) (v : Json.Value) (h : Open tier m) :
    guardedWrite tier ms m v =
      if (ms.read? m).isSome then .ok (ms.define m v) else .error (.notFound m.display) := by
  rw [guardedWrite, check_of_open h]
  rfl

theorem guardedRead_agree (h : Agree tier ms ns) (m : MemberName) :
    guardedRead tier ns m = guardedRead tier ms m := by
  by_cases hopen : Open tier m
  · rw [guardedRead_of_open ns hopen, guardedRead_of_open ms hopen, h m hopen]
  · rw [guardedRead_of_closed ns hopen, guardedRead_of_closed ms hopen]

theorem guardedWrite_confined (hwrite : guardedWrite tier ms m v = .ok ns) : Confined tier ms ns := by
  by_cases hopen : Open tier m
  · rw [guardedWrite_of_open ms v hopen] at hwrite
    split at hwrite
    · next hsome =>
      cases hwrite
      refine ⟨names_define hsome, fun other hother => ?_⟩
      rw [read?_define, if_neg fun heq : m = other => hother (heq ▸ hopen)]
    · cases hwrite
  · rw [guardedWrite_of_closed ms v hopen] at hwrite
    cases hwrite

/-- A write fails in both of two stores, for the same reason, or in none of them. -/
theorem guardedWrite_agree (h : Agree tier ms ns) (m : MemberName) (v : Json.Value) :
    (∃ fault, guardedWrite tier ms m v = .error fault ∧ guardedWrite tier ns m v = .error fault) ∨
      ∃ ms' ns', guardedWrite tier ms m v = .ok ms' ∧ guardedWrite tier ns m v = .ok ns' ∧
        Agree tier ms' ns' := by
  by_cases hopen : Open tier m
  · rw [guardedWrite_of_open ms v hopen, guardedWrite_of_open ns v hopen, h m hopen]
    by_cases hsome : (ms.read? m).isSome = true
    · refine .inr ⟨ms.define m v, ns.define m v, if_pos hsome, if_pos hsome, fun other hother => ?_⟩
      rw [read?_define, read?_define, h other hother]
    · exact .inl ⟨_, if_neg hsome, if_neg hsome⟩
  · exact .inl ⟨_, guardedWrite_of_closed ms v hopen, guardedWrite_of_closed ns v hopen⟩

end Members

/-- A call with which a plugin reaches for a member of the host. -/
inductive MemberCall where
  | get (member : MemberName)
  | set (member : MemberName) (value : Json.Value)

namespace MemberCall

open Members

def member : MemberCall → MemberName
  | get m => m
  | set m _ => m

/-- What a call leaves of the members and what it answers; a write that succeeds has nothing to tell. -/
def perform (tier : Tier) (ms : Members) : MemberCall → Members × Except HostFault (Option Json.Value)
  | get m => (ms, (guardedRead tier ms m).map some)
  | set m v =>
    match guardedWrite tier ms m v with
    | .ok ms => (ms, .ok none)
    | .error fault => (ms, .error fault)

/-- Calls one after another, with their answers. -/
def performAll (tier : Tier) :
    Members → List MemberCall → Members × List (Except HostFault (Option Json.Value))
  | ms, [] => (ms, [])
  | ms, call :: rest =>
    let (ms, answer) := call.perform tier ms
    let (ms, answers) := performAll tier ms rest
    (ms, answer :: answers)

variable {tier : Tier} {ms ns : Members}

theorem perform_of_closed {call : MemberCall} (h : ¬ Open tier call.member) :
    call.perform tier ms = (ms, .error (.accessDenied call.member.display)) := by
  cases call with
  | get m =>
    rw [perform, guardedRead_of_closed ms (m := m) h]
    rfl
  | set m v =>
    rw [perform, guardedWrite_of_closed ms v (m := m) h]
    rfl

/-- A call is denied exactly if the member is closed. An open member may be missing, which is another fault. -/
theorem perform_denied_iff (call : MemberCall) :
    (call.perform tier ms).2 = .error (.accessDenied call.member.display) ↔ ¬ Open tier call.member := by
  refine ⟨fun h hopen => ?_, fun h => by rw [perform_of_closed h]⟩
  cases call with
  | get m =>
    rw [perform, guardedRead_of_open ms (m := m) hopen] at h
    cases hread : ms.read? m <;> rw [hread] at h <;> cases h
  | set m v =>
    rw [perform, guardedWrite_of_open ms v (m := m) hopen] at h
    by_cases hsome : (ms.read? m).isSome = true
    · rw [if_pos hsome] at h
      cases h
    · rw [if_neg hsome] at h
      cases h

theorem perform_confined (tier : Tier) (ms : Members) (call : MemberCall) :
    Confined tier ms (call.perform tier ms).1 := by
  cases call with
  | get m => exact .refl tier ms
  | set m v =>
    rw [perform]
    split
    · next hwrite => exact guardedWrite_confined hwrite
    · exact .refl tier ms

theorem perform_agree (h : Agree tier ms ns) (call : MemberCall) :
    (call.perform tier ns).2 = (call.perform tier ms).2 ∧
      Agree tier (call.perform tier ms).1 (call.perform tier ns).1 := by
  cases call with
  | get m => exact ⟨congrArg (Except.map some) (guardedRead_agree h m), h⟩
  | set m v =>
    obtain ⟨fault, hms, hns⟩ | ⟨ms', ns', hms, hns, hagree⟩ := guardedWrite_agree h m v
    · simp only [perform, hms, hns]
      exact ⟨trivial, h⟩
    · simp only [perform, hms, hns]
      exact ⟨trivial, hagree⟩

theorem performAll_confined (tier : Tier) (ms : Members) (calls : List MemberCall) :
    Confined tier ms (performAll tier ms calls).1 := by
  induction calls generalizing ms with
  | nil => exact .refl tier ms
  | cons call rest ih => exact (perform_confined tier ms call).trans (ih _)

theorem performAll_agree (h : Agree tier ms ns) (calls : List MemberCall) :
    (performAll tier ns calls).2 = (performAll tier ms calls).2 ∧
      Agree tier (performAll tier ms calls).1 (performAll tier ns calls).1 := by
  induction calls generalizing ms ns with
  | nil => exact ⟨rfl, h⟩
  | cons call rest ih =>
    obtain ⟨hanswer, hagree⟩ := perform_agree h call
    obtain ⟨hanswers, hlast⟩ := ih hagree
    exact ⟨congrArg₂ List.cons hanswer hanswers, hlast⟩

theorem performAll_denied (tier : Tier) (ms : Members) (calls : List MemberCall) :
    List.Forall₂ (fun call answer =>
      answer = .error (.accessDenied call.member.display) ↔ ¬ Open tier call.member)
      calls (performAll tier ms calls).2 := by
  induction calls generalizing ms with
  | nil => exact .nil
  | cons call rest ih => exact .cons (perform_denied_iff call) (ih _)

/-- Two stores that hold the same under all open types give the same answers to any sequence of calls and go
    on holding the same there. In each of them everything that is closed stays as it was, no member comes or
    goes, and exactly the calls for closed members are denied, whether there are such members or not. -/
theorem calls_confined (hagree : Agree tier ms ns) (calls : List MemberCall) :
    (performAll tier ns calls).2 = (performAll tier ms calls).2 ∧
      Agree tier (performAll tier ms calls).1 (performAll tier ns calls).1 ∧
      Confined tier ms (performAll tier ms calls).1 ∧ Confined tier ns (performAll tier ns calls).1 ∧
      List.Forall₂ (fun call answer =>
        answer = .error (.accessDenied call.member.display) ↔ ¬ Open tier call.member)
        calls (performAll tier ms calls).2 := by
  obtain ⟨hanswers, hlast⟩ := performAll_agree hagree calls
  exact ⟨hanswers, hlast, performAll_confined tier ms calls, performAll_confined tier ns calls,
    performAll_denied tier ms calls⟩

end MemberCall

namespace Sandbox

def tier : Tier := .build 3 "Sandboxed" ["Game.Internal"] [] [] [] ["Game.Internal.Settings"]

def health : MemberName := ⟨"Game.Player", "health"⟩

def volume : MemberName := ⟨"Game.Internal.Settings", "volume"⟩

def slot : MemberName := ⟨"Game.Internal.Save", "slot"⟩

def plugins : MemberName := ⟨"Patchwork.Runtime", "plugins"⟩

def members : Members := [(health, .int 100), (slot, .int 1), (volume, .int 5), (plugins, .arr [])]

/-- The same as far as the tier shows: there is no slot, and there are other plugins. -/
def others : Members := [(health, .int 100), (volume, .int 5), (plugins, .arr [.str "other"])]

def calls : List MemberCall :=
  [.set health (.int 50), .get slot, .set plugins .null, .get volume, .set slot .null, .get health]

theorem others_agree : Members.Agree tier members others := by
  intro m hopen
  have hslot : slot ≠ m := fun heq => absurd (heq ▸ hopen) (by decide +kernel)
  have hplugins : plugins ≠ m := fun heq => absurd (heq ▸ hopen) (by decide +kernel)
  simp only [members, others, Members.read?_cons, if_neg hslot, if_neg hplugins]

theorem calls_confined_in_sandbox :
    Members.Agree tier members others ∧
      (MemberCall.performAll tier others calls).2 = (MemberCall.performAll tier members calls).2 ∧
      Members.Confined tier members (MemberCall.performAll tier members calls).1 ∧
      Members.Confined tier others (MemberCall.performAll tier others calls).1 := by
  obtain ⟨hanswers, _, hmembers, hothers, _⟩ := MemberCall.calls_confined others_agree calls
  exact ⟨others_agree, hanswers, hmembers, hothers⟩

end Sandbox

/-- The code of a plugin does the same with two stores that hold the same under all open types, and leaves them
    so. What is closed shows neither in its result nor in what it declares or logs. -/
theorem Initialization.run_agree {tier : Tier} (code : Initialization) {ms ns : Members}
    (h : Members.Agree tier ms ns) (info : PluginInfo) (log : List Json.Value) :
    let done := code.run (some tier) info ms log
    let other := code.run (some tier) info ns log
    other.result = done.result ∧ other.info = done.info ∧ other.log = done.log ∧
      Members.Agree tier done.members other.members := by
  induction code generalizing ms ns info log with
  | finish result => exact ⟨rfl, rfl, rfl, h⟩
  | log line next ih => exact ih h _ _
  | declare change next ih => exact ih h _ _
  | inspect next ih => exact ih _ h _ _
  | hasAccess next ih => exact ih _ h _ _
  | read m next ih =>
    simp only [run, Option.map_some, Members.guardedRead_agree h m]
    exact ih _ h _ _
  | write m v next ih =>
    obtain ⟨fault, hms, hns⟩ | ⟨ms', ns', hms, hns, hagree⟩ := Members.guardedWrite_agree h m v
    · simp only [run, hms, hns]
      exact ih _ h _ _
    · simp only [run, hms, hns]
      exact ih _ hagree _ _

/-- The code of a plugin changes open members only, and makes none. Without access it changes nothing. -/
theorem Initialization.run_confined (code : Initialization) (tier : Tier) (info : PluginInfo)
    (ms : Members) (log : List Json.Value) :
    Members.Confined tier ms (code.run (some tier) info ms log).members := by
  induction code generalizing ms info log with
  | finish result => exact .refl tier ms
  | log line next ih => exact ih _ _ _
  | declare change next ih => exact ih _ _ _
  | inspect next ih => exact ih _ _ _ _
  | hasAccess next ih => exact ih _ _ _ _
  | read m next ih => exact ih _ _ _ _
  | write m v next ih =>
    rw [run]
    split
    · next hwrite => exact (Members.guardedWrite_confined hwrite).trans (ih _ _ _ _)
    · exact ih _ _ _ _

end PluginHost
