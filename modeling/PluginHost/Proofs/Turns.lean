/-!
What is done in turns.

A turn comes to an answer or to where the next turn goes on. Turns end if each keeps an invariant and makes a measure
smaller, and then there are at most as many as the measure says, and one more.
-/

namespace PluginHost

variable {σ α : Type} {turn : σ → α ⊕ σ}

/-- The turns from some state on come to an answer, and so many are taken. -/
inductive EndsAfter (turn : σ → α ⊕ σ) : Nat → σ → α → Prop
  | answer {s : σ} {a : α} (hturn : turn s = .inl a) : EndsAfter turn 1 s a
  | goOn {n : Nat} {s next : σ} {a : α} (hturn : turn s = .inr next) (hrest : EndsAfter turn n next a) :
    EndsAfter turn (n + 1) s a

/-- The answer is the one that the invariant has all along. -/
theorem endsAfter_of_turns (invariant : σ → Prop) (measure : σ → Nat) {a : α}
    (hturns : ∀ s, invariant s →
      turn s = .inl a ∨ ∃ next, turn s = .inr next ∧ invariant next ∧ measure next < measure s)
    (s : σ) (hs : invariant s) : ∃ n ≤ measure s + 1, EndsAfter turn n s a := by
  induction hmeasure : measure s using Nat.strongRecOn generalizing s with
  | ind left ih =>
    rcases hturns s hs with hanswer | ⟨next, hturn, hnext, hsmaller⟩
    · exact ⟨1, Nat.le_add_left 1 left, .answer hanswer⟩
    · obtain ⟨n, hn, hrest⟩ := ih _ (hmeasure ▸ hsmaller) next hnext rfl
      exact ⟨n + 1, by omega, .goOn hturn hrest⟩

end PluginHost
