import Mathlib.Logic.Basic

/-! Computations that call the outside: they keep the calls they made, newest first, and
end with a value or a failure. -/
namespace DataCopilot.Effects

structure Effect (κ ε α : Type) where
  log : List κ
  outcome : Except ε α

namespace Effect
variable {κ ε α β : Type}

/-! Two definitions and not the fields themselves: computations are then compared as they
stand, before anything is run. -/

def calls (x : Effect κ ε α) : List κ := x.log

def result (x : Effect κ ε α) : Except ε α := x.outcome

protected def bind (x : Effect κ ε α) (f : α → Effect κ ε β) : Effect κ ε β :=
  match x.outcome with
  | .error e => ⟨x.log, .error e⟩
  | .ok a => ⟨(f a).log ++ x.log, (f a).outcome⟩

instance : Monad (Effect κ ε) where
  pure a := ⟨[], .ok a⟩
  bind := Effect.bind

def raise (e : ε) : Effect κ ε α := ⟨[], .error e⟩

def lift (r : Except ε α) : Effect κ ε α := ⟨[], r⟩

/-- One call, with the answer that came back. -/
def call (k : κ) (answer : Except ε α) : Effect κ ε α := ⟨[k], answer⟩

/-- `except`: what to do instead when the computation fails. -/
def handle (x : Effect κ ε α) (h : ε → Effect κ ε α) : Effect κ ε α :=
  match x.outcome with
  | .ok a => ⟨x.log, .ok a⟩
  | .error e => ⟨(h e).log ++ x.log, (h e).outcome⟩

variable {x : Effect κ ε α} {f : α → Effect κ ε β} {h : ε → Effect κ ε α} {k : κ}

@[simp] theorem pure_result (a : α) : (pure a : Effect κ ε α).result = .ok a := rfl
@[simp] theorem pure_calls (a : α) : (pure a : Effect κ ε α).calls = [] := rfl
@[simp] theorem raise_result (e : ε) : (raise e : Effect κ ε α).result = .error e := rfl
@[simp] theorem raise_calls (e : ε) : (raise e : Effect κ ε α).calls = [] := rfl
@[simp] theorem lift_result (r : Except ε α) : (lift r : Effect κ ε α).result = r := rfl
@[simp] theorem lift_calls (r : Except ε α) : (lift r : Effect κ ε α).calls = [] := rfl
@[simp] theorem call_result (r : Except ε α) : (call k r).result = r := rfl
@[simp] theorem call_calls (r : Except ε α) : (call k r).calls = [k] := rfl

@[simp] theorem bind_result {b : β} :
    (x >>= f).result = .ok b ↔ ∃ a, x.result = .ok a ∧ (f a).result = .ok b := by
  change (Effect.bind x f).outcome = _ ↔ ∃ a, x.outcome = _ ∧ (f a).outcome = _
  unfold Effect.bind
  cases hx : x.outcome with
  | error e => simp
  | ok a => simp

theorem bind_error {e : ε} :
    (x >>= f).result = .error e ↔
      x.result = .error e ∨ ∃ a, x.result = .ok a ∧ (f a).result = .error e := by
  change (Effect.bind x f).outcome = _ ↔
    x.outcome = _ ∨ ∃ a, x.outcome = _ ∧ (f a).outcome = _
  unfold Effect.bind
  cases hx : x.outcome with
  | error e => simp
  | ok a => simp

@[simp] theorem mem_bind_calls :
    k ∈ (x >>= f).calls ↔ (∃ a, x.result = .ok a ∧ k ∈ (f a).calls) ∨ k ∈ x.calls := by
  change k ∈ (Effect.bind x f).log ↔ (∃ a, x.outcome = _ ∧ k ∈ (f a).log) ∨ k ∈ x.log
  unfold Effect.bind
  cases hx : x.outcome with
  | error e => simp
  | ok a => simp

theorem bind_of_ok {a : α} (h : x.result = .ok a) :
    (x >>= f).calls = (f a).calls ++ x.calls ∧ (x >>= f).result = (f a).result := by
  change (Effect.bind x f).log = (f a).log ++ x.log ∧ (Effect.bind x f).outcome = (f a).outcome
  have hx : x.outcome = .ok a := h
  unfold Effect.bind
  rw [hx]
  exact ⟨rfl, rfl⟩

theorem bind_of_error {e : ε} (h : x.result = .error e) :
    (x >>= f).calls = x.calls ∧ (x >>= f).result = .error e := by
  change (Effect.bind x f).log = x.log ∧ (Effect.bind x f).outcome = .error e
  have hx : x.outcome = .error e := h
  unfold Effect.bind
  rw [hx]
  exact ⟨rfl, rfl⟩

protected theorem pure_bind (a : α) (f : α → Effect κ ε β) : (pure a : Effect κ ε α) >>= f = f a := by
  change (⟨(f a).log ++ [], (f a).outcome⟩ : Effect κ ε β) = f a
  rw [List.append_nil]

/-- What follows matters at the value only, if there is one. -/
theorem bind_congr {g : α → Effect κ ε β} (h : ∀ a, x.result = .ok a → f a = g a) : x >>= f = x >>= g := by
  change Effect.bind x f = Effect.bind x g
  unfold Effect.bind
  cases hx : x.outcome with
  | error e => rfl
  | ok a => exact congrArg (fun y : Effect κ ε β => (⟨y.log ++ x.log, y.outcome⟩ : Effect κ ε β)) (h a hx)

theorem bind_calls_of_silent (hf : ∀ a, (f a).calls = []) : (x >>= f).calls = x.calls := by
  cases hx : x.result with
  | error e => exact (bind_of_error hx).1
  | ok a => rw [(bind_of_ok hx).1, hf, List.nil_append]

theorem handle_of_ok {a : α} (hx : x.result = .ok a) :
    (x.handle h).calls = x.calls ∧ (x.handle h).result = .ok a := by
  have hr : x.outcome = .ok a := hx
  unfold handle
  rw [hr]
  exact ⟨rfl, rfl⟩

theorem handle_of_error {e : ε} (hx : x.result = .error e) :
    (x.handle h).calls = (h e).calls ++ x.calls ∧ (x.handle h).result = (h e).result := by
  have hr : x.outcome = .error e := hx
  unfold handle
  rw [hr]
  exact ⟨rfl, rfl⟩

theorem handle_raise : x.handle raise = x := by
  cases x with
  | mk log outcome =>
    cases outcome with
    | ok a => rfl
    | error e => rfl

@[simp] theorem handle_result {a : α} :
    (x.handle h).result = .ok a ↔
      x.result = .ok a ∨ ∃ e, x.result = .error e ∧ (h e).result = .ok a := by
  unfold handle result
  cases hx : x.outcome with
  | error e => simp
  | ok b => simp

theorem handle_error {e : ε} :
    (x.handle h).result = .error e ↔ ∃ d, x.result = .error d ∧ (h d).result = .error e := by
  unfold handle result
  cases hx : x.outcome with
  | error e => simp
  | ok b => simp

@[simp] theorem mem_handle_calls :
    k ∈ (x.handle h).calls ↔ (∃ e, x.result = .error e ∧ k ∈ (h e).calls) ∨ k ∈ x.calls := by
  unfold handle result calls
  cases hx : x.outcome with
  | error e => simp
  | ok b => simp

end Effect
end DataCopilot.Effects
