import Mathlib.Data.Nat.Basic

/-! A `while` loop as a body that goes on from a state or leaves with a result, with its rule for
total correctness. -/
namespace DataCopilot.Loop
variable {σ ρ : Type*}

inductive Pass (σ ρ : Type*) where
  | again (s : σ)
  | leave (r : ρ)

/-- The result of at most `n` passes. -/
def run (body : σ → Pass σ ρ) : Nat → σ → Option ρ
  | 0, _ => none
  | n + 1, s =>
    match body s with
    | .again t => run body n t
    | .leave r => some r

variable {body : σ → Pass σ ρ} {s : σ}

/-- `body` keeps the invariant and makes the variant smaller, and leaves with `post`. -/
structure Rule (body : σ → Pass σ ρ) (inv : σ → Prop) (variant : σ → Nat) (post : ρ → Prop) :
    Prop where
  again : ∀ s t, inv s → body s = .again t → inv t ∧ variant t < variant s
  leave : ∀ s r, inv s → body s = .leave r → post r

theorem Rule.total {inv : σ → Prop} {variant : σ → Nat} {post : ρ → Prop}
    (rule : Rule body inv variant post) (hs : inv s) :
    ∃ r, post r ∧ ∀ n, variant s < n → run body n s = some r := by
  induction hv : variant s using Nat.strong_induction_on generalizing s with
  | _ v ih =>
    cases hb : body s with
    | leave r =>
      refine ⟨r, rule.leave s r hs hb, ?_⟩
      intro n hn
      cases n with
      | zero => omega
      | succ n => rw [run, hb]
    | again t =>
      have ht := rule.again s t hs hb
      obtain ⟨r, hr, hrun⟩ := ih (variant t) (hv ▸ ht.2) ht.1 rfl
      refine ⟨r, hr, ?_⟩
      intro n hn
      cases n with
      | zero => omega
      | succ n =>
        rw [run, hb]
        exact hrun n (by omega)

end DataCopilot.Loop
