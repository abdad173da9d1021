import DataCopilot.Query.Generate

/-! How many calls `generate` makes, and how many of them end with an invalid reply. The reply that the provider
itself calls invalid is retried out of the other budget, and behind the attempt 1025 the back-off overflows. -/
namespace DataCopilot.Query
open Effects Py

section Outcomes
variable {α : Type} (validate : String → Except (List String) α)

namespace ProviderOutcome

/-- The response model refuses the content. -/
def refused : ProviderOutcome → Bool
  | completion c => !(validate c.content).toBool
  | _ => false

/-- The reply is invalid to the provider or to the response model. -/
def invalid : ProviderOutcome → Bool
  | completion c => !(validate c.content).toBool
  | error e => e.kind = .invalidResponse
  | timeout => false

/-- A reply after which there may be another attempt. -/
def transient : ProviderOutcome → Bool
  | completion c => !(validate c.content).toBool
  | error e => e.kind.retryable
  | timeout => true

end ProviderOutcome

/-- How the attempt `last` ends the run, where `used` refused replies went before it. -/
inductive Ends (C : StructuredLLMClient) (last used : Nat) :
    ProviderOutcome → Except GenerateFailure (StructuredLLMResult α) → Prop where
  | output {c output} (h : validate c.content = .ok output) :
      Ends C last used (.completion c) (.ok ⟨output, C.providerName, c.model, last, c.usage⟩)
  | refused {c issues} (h : validate c.content = .error issues)
      (hb : C.invalidResponseRetries ≤ used ∨ C.maxAttempts ≤ last) :
      Ends C last used (.completion c) (.error (.llm ⟨.invalidResponse, issues⟩))
  | error {e} (h : e.kind.retryable = false ∨ C.maxAttempts ≤ last) : Ends C last used (.error e) (.error (.llm e))
  | timeout (h : C.maxAttempts ≤ last) : Ends C last used .timeout (.error (.llm { kind := .timeout }))
  | overflow {o e} (h : C.delay last = .error e) (ht : o.transient validate = true) (hl : last < C.maxAttempts)
      (hr : o.refused validate = true → used < C.invalidResponseRetries) : Ends C last used o (.error (.python e))

/-- The outcomes of `left` attempts from `attempt` on. -/
def ahead (outcomes : Nat → ProviderOutcome) (attempt left : Nat) : List ProviderOutcome :=
  (List.range' attempt left).map outcomes

/-- How many calls of the provider a run makes. -/
def providerCalls (calls : List GenerateCall) : Nat :=
  calls.countP fun | .complete _ => true | .sleep _ => false

/-- A run goes through outcomes that may be followed by others, within the budget, up to one that ends it. -/
structure Ran (C : StructuredLLMClient) (outcomes : Nat → ProviderOutcome) (left attempt used : Nat)
    (run : Effect GenerateCall GenerateFailure (StructuredLLMResult α)) (before : List ProviderOutcome)
    (last : ProviderOutcome) (after : List ProviderOutcome) : Prop where
  split : ahead outcomes attempt left = before ++ last :: after
  calls : providerCalls run.calls = before.length + 1
  goes : ∀ x ∈ before, x.transient validate = true
  slept : ∀ i < before.length, ∃ d, C.delay (attempt + i) = .ok d
  budget : used + before.countP (ProviderOutcome.refused validate) ≤ C.invalidResponseRetries
  ends : Ends validate C (attempt + before.length) (used + before.countP (ProviderOutcome.refused validate)) last run.result

/-- What `generate` promises: its calls are within both budgets, an error that is not to be retried ends it, and it
ends with a valid output or an error of the model. -/
structure Budgeted (C : StructuredLLMClient) (outcomes : Nat → ProviderOutcome) (n : Nat)
    (result : Except GenerateFailure (StructuredLLMResult α)) : Prop where
  calls : 1 ≤ n ∧ n ≤ C.maxAttempts
  invalid : (ahead outcomes 1 n).countP (ProviderOutcome.invalid validate) ≤ C.invalidResponseRetries + 1
  final : ∀ i e, 1 ≤ i → i ≤ n → outcomes i = .error e → e.kind.retryable = false →
    i = n ∧ result = .error (.llm e)
  result : (∃ r c, result = .ok r ∧ outcomes n = .completion c ∧ validate c.content = .ok r.output ∧ r.attempts = n) ∨
    ∃ e, result = .error (.llm e)

/-- Where there is one invalid reply too many before the attempts end, all invalid replies before it were refused by
the response model. -/
def Refusable (C : StructuredLLMClient) (outcomes : Nat → ProviderOutcome) : Prop :=
  ∀ before o after, ahead outcomes 1 C.maxAttempts = before ++ o :: after →
    (∀ x ∈ before, x.transient validate = true) → o.invalid validate = true →
    before.countP (ProviderOutcome.invalid validate) = C.invalidResponseRetries + 1 →
    ∀ x ∈ before, x.invalid validate = true → x.refused validate = true

/-- There is an attempt behind the 1025th, and all outcomes so far let the run come to it. -/
structure Lasting (C : StructuredLLMClient) (outcomes : Nat → ProviderOutcome) : Prop where
  float : ∃ x, C.initialBackoffSeconds = .float x
  attempts : 1025 < C.maxAttempts
  goes : ∀ x ∈ ahead outcomes 1 1025, x.transient validate = true
  budget : (ahead outcomes 1 1025).countP (ProviderOutcome.refused validate) ≤ C.invalidResponseRetries

end Outcomes

variable {α : Type} {validate : String → Except (List String) α} {C : StructuredLLMClient}
variable {outcomes : Nat → ProviderOutcome} {left attempt used : Nat}

theorem ahead_succ : ahead outcomes attempt (left + 1) = outcomes attempt :: ahead outcomes (attempt + 1) left := by
  rw [ahead, List.range'_succ, List.map_cons]
  rfl

section Steps
variable {run rest : Effect GenerateCall GenerateFailure (StructuredLLMResult α)}
variable {before after : List ProviderOutcome} {last : ProviderOutcome}

theorem Ran.stop (hused : used ≤ C.invalidResponseRetries) (hcalls : providerCalls run.calls = 1)
    (hends : Ends validate C attempt used (outcomes attempt) run.result) :
    Ran validate C outcomes (left + 1) attempt used run [] (outcomes attempt) (ahead outcomes (attempt + 1) left) where
  split := ahead_succ
  calls := hcalls
  goes := by
    intro x hx
    cases hx
  slept := by
    intro i hi
    cases hi
  budget := hused
  ends := hends

theorem Ran.next {used' : Nat} (h : Ran validate C outcomes left (attempt + 1) used' rest before last after)
    (ht : (outcomes attempt).transient validate = true) (hd : ∃ d, C.delay attempt = .ok d)
    (hused : used' = used + if (outcomes attempt).refused validate then 1 else 0)
    (hcalls : providerCalls run.calls = providerCalls rest.calls + 1) (hresult : run.result = rest.result) :
    Ran validate C outcomes (left + 1) attempt used run (outcomes attempt :: before) last after where
  split := by rw [ahead_succ, h.split, List.cons_append]
  calls := by rw [hcalls, h.calls, List.length_cons]
  goes := by
    intro x hx
    cases List.mem_cons.mp hx with
    | inl he => rw [he, ht]
    | inr hm => exact h.goes x hm
  slept := by
    intro i hi
    cases i with
    | zero => exact hd
    | succ i =>
      have hslept := h.slept i (Nat.lt_of_succ_lt_succ hi)
      rwa [Nat.add_assoc, Nat.add_comm 1 i] at hslept
  budget := by
    have hb := h.budget
    rw [List.countP_cons]
    omega
  ends := by
    have he := h.ends
    rw [hused] at he
    rw [List.countP_cons, List.length_cons, hresult]
    have hattempt : attempt + (before.length + 1) = attempt + 1 + before.length := by omega
    have hcount : used + (before.countP (ProviderOutcome.refused validate) +
        if (outcomes attempt).refused validate then 1 else 0) =
        used + (if (outcomes attempt).refused validate then 1 else 0) +
          before.countP (ProviderOutcome.refused validate) := by omega
    rw [hattempt, hcount]
    exact he

end Steps

/-- A call is made before what follows it. -/
theorem call_bind {κ ε β γ : Type} {k : κ} {b : β} {f : β → Effect κ ε γ} :
    (Effect.call k (.ok b) >>= f).calls = (f b).calls ++ [k] ∧ (Effect.call k (.ok b) >>= f).result = (f b).result :=
  ⟨rfl, rfl⟩

theorem providerCalls_snoc {calls : List GenerateCall} {n : Nat} :
    providerCalls (calls ++ [.complete n]) = providerCalls calls + 1 := by
  rw [providerCalls, List.countP_append]
  rfl

theorem providerCalls_sleep {calls : List GenerateCall} {d : Seconds} :
    providerCalls (calls ++ [.sleep d]) = providerCalls calls := by
  rw [providerCalls, List.countP_append]
  rfl

namespace StructuredLLMClient

theorem retry_stop {e : LLMError} {β : Type} {f : Bool → Effect GenerateCall GenerateFailure β}
    (h : e.kind.retryable = false ∨ C.maxAttempts ≤ attempt) :
    (C.retry e attempt >>= f).calls = (f false).calls ∧ (C.retry e attempt >>= f).result = (f false).result := by
  have hcheck : (!e.kind.retryable || decide (C.maxAttempts ≤ attempt)) = true := by
    simpa using h
  rw [retry, if_pos hcheck]
  exact ⟨List.append_nil _, rfl⟩

/-- Two to the power of 1024 is the first that is too large for a float. -/
theorem delay_error {e : PyError} : C.delay attempt = .error e ↔
    e = .overflowError ∧ (∃ x, C.initialBackoffSeconds = .float x) ∧ 1025 ≤ attempt := by
  have hexponent : floatExponent = 1024 := by rw [floatExponent]
  rw [delay]
  cases hs : C.initialBackoffSeconds with
  | int n => simp [Seconds.times, bind, Except.bind, pure, Except.pure]
  | float x =>
    have hpow := @floatOfInt_two_pow (attempt - 1)
    rw [hexponent] at hpow
    cases hf : floatOfInt ((2 ^ (attempt - 1) : Nat) : Int) with
    | none =>
      have hle := hpow.mp hf
      have hlarge : 1025 ≤ attempt := by omega
      simp only [Seconds.times, hf, bind, Except.bind, Except.error.injEq]
      exact ⟨fun h => ⟨h.symm, ⟨x, rfl⟩, hlarge⟩, fun h => h.1.symm⟩
    | some q =>
      have hsmall : ¬ 1025 ≤ attempt := by
        intro h
        have hnone := hpow.mpr (by omega)
        rw [hf] at hnone
        cases hnone
      have hok : ∃ d, Seconds.times (2 ^ (attempt - 1)) (.float x) = .ok d := by
        rw [Seconds.times, hf]
        cases x with
        | finite p => exact ⟨_, rfl⟩
        | inf negative => exact ⟨_, rfl⟩
        | nan => exact ⟨_, rfl⟩
      obtain ⟨d, hd⟩ := hok
      rw [hd]
      simp [bind, Except.bind, pure, Except.pure, hsmall]

theorem scheduleRetry_early (h : attempt ≤ 1024) : (C.scheduleRetry attempt).result = .ok () := by
  rw [scheduleRetry]
  cases hd : C.delay attempt with
  | ok d => rfl
  | error e =>
    have hlarge := (delay_error.mp hd).2.2
    omega

theorem retry_again {e : LLMError} {β : Type} {f : Bool → Effect GenerateCall GenerateFailure β} {d : Seconds}
    (h : ¬ (e.kind.retryable = false ∨ C.maxAttempts ≤ attempt)) (hd : C.delay attempt = .ok d) :
    providerCalls (C.retry e attempt >>= f).calls = providerCalls (f true).calls ∧
      (C.retry e attempt >>= f).result = (f true).result := by
  have hcheck : ¬ (!e.kind.retryable || decide (C.maxAttempts ≤ attempt)) = true := by
    simpa using h
  rw [retry, if_neg hcheck, scheduleRetry, hd]
  exact ⟨providerCalls_sleep, rfl⟩

theorem retry_overflow {e : LLMError} {β : Type} {f : Bool → Effect GenerateCall GenerateFailure β} {x : PyError}
    (h : ¬ (e.kind.retryable = false ∨ C.maxAttempts ≤ attempt)) (hd : C.delay attempt = .error x) :
    (C.retry e attempt >>= f).calls = [] ∧ (C.retry e attempt >>= f).result = .error (.python x) := by
  have hcheck : ¬ (!e.kind.retryable || decide (C.maxAttempts ≤ attempt)) = true := by
    simpa using h
  rw [retry, if_neg hcheck, scheduleRetry, hd]
  exact ⟨rfl, rfl⟩

/-- An attempt that ends with an error of the provider. -/
theorem ran_error {e : LLMError} {run rest : Effect GenerateCall GenerateFailure (StructuredLLMResult α)}
    (hused : used ≤ C.invalidResponseRetries) (ho : (outcomes attempt).refused validate = false)
    (ht : (outcomes attempt).transient validate = e.kind.retryable)
    (hends : e.kind.retryable = false ∨ C.maxAttempts ≤ attempt →
      Ends validate C attempt used (outcomes attempt) (.error (.llm e)))
    (hnext : attempt < C.maxAttempts → ∃ before last after,
      Ran validate C outcomes left (attempt + 1) used rest before last after)
    (hcalls : providerCalls run.calls = providerCalls (C.retry e attempt >>= fun again =>
      if again then rest else .raise (.llm e)).calls + 1)
    (hresult : run.result = (C.retry e attempt >>= fun again => if again then rest else .raise (.llm e)).result) :
    ∃ before last after, Ran validate C outcomes (left + 1) attempt used run before last after := by
  by_cases h : e.kind.retryable = false ∨ C.maxAttempts ≤ attempt
  · have hstop := retry_stop (f := fun again => if again then rest else .raise (.llm e)) h
    refine ⟨[], _, _, Ran.stop hused ?_ ?_⟩
    · rw [hcalls, hstop.1]
      rfl
    · rw [hresult, hstop.2]
      exact hends h
  · obtain ⟨hretryable, hlt⟩ := not_or.mp h
    have htransient : (outcomes attempt).transient validate = true := ht.trans (by simpa using hretryable)
    cases hd : C.delay attempt with
    | error x =>
      have hover := retry_overflow (f := fun again => if again then rest else .raise (.llm e)) h hd
      refine ⟨[], _, _, Ran.stop hused ?_ ?_⟩
      · rw [hcalls, hover.1]
        rfl
      · rw [hresult, hover.2]
        refine .overflow hd htransient (Nat.lt_of_not_le hlt) fun hr => ?_
        rw [ho] at hr
        cases hr
    | ok d =>
      have hagain := retry_again (f := fun again => if again then rest else .raise (.llm e)) h hd
      obtain ⟨before, last, after, hran⟩ := hnext (Nat.lt_of_not_le hlt)
      refine ⟨_, _, _, hran.next htransient ⟨d, hd⟩ (by rw [ho]; rfl) ?_ ?_⟩
      · rw [hcalls, hagain.1]
        rfl
      · rw [hresult, hagain.2]
        rfl

/-- The loop, by the attempts that are left. -/
theorem generateFrom_ran (hleft : attempt + left = C.maxAttempts + 1) (hpos : 0 < left)
    (hused : used ≤ C.invalidResponseRetries) : ∃ before last after, Ran validate C outcomes left attempt used
      (C.generateFrom validate outcomes left attempt used) before last after := by
  induction left generalizing attempt used with
  | zero => exact absurd hpos (Nat.lt_irrefl 0)
  | succ left ih =>
    have hcalls : ∀ f : ProviderOutcome → Effect GenerateCall GenerateFailure (StructuredLLMResult α),
        providerCalls (Effect.call (.complete attempt) (.ok (outcomes attempt)) >>= f).calls =
          providerCalls (f (outcomes attempt)).calls + 1 := by
      intro f
      rw [call_bind.1, providerCalls_snoc]
    have hnext : ∀ used', used' ≤ C.invalidResponseRetries → attempt < C.maxAttempts → ∃ before last after,
        Ran validate C outcomes left (attempt + 1) used' (C.generateFrom validate outcomes left (attempt + 1) used')
          before last after := by
      intro used' hused' hlt
      exact ih (by omega) (by omega) hused'
    rw [generateFrom]
    cases ho : outcomes attempt with
    | timeout =>
      refine ran_error (e := { kind := .timeout }) hused (by rw [ho]; rfl) (by rw [ho]; rfl) ?_ (hnext used hused) ?_ ?_
      · intro h
        rw [ho]
        exact .timeout (h.resolve_left (by decide))
      · rw [← ho, hcalls, ho]
      · rw [call_bind.2]
    | error e =>
      refine ran_error (e := e) hused (by rw [ho]; rfl) (by rw [ho]; rfl) ?_ (hnext used hused) ?_ ?_
      · intro h
        rw [ho]
        exact .error h
      · rw [← ho, hcalls, ho]
      · rw [call_bind.2]
    | completion c =>
      cases hv : validate c.content with
      | ok output =>
        refine ⟨[], _, _, Ran.stop hused ?_ ?_⟩
        · rw [← ho, hcalls, ho]
          simp only [hv]
          rfl
        · rw [call_bind.2, ho]
          simp only [hv]
          exact .output hv
      | error issues =>
        have htrue : (outcomes attempt).refused validate = true := by
          rw [ho, ProviderOutcome.refused, hv]
          rfl
        by_cases hb : used < C.invalidResponseRetries ∧ attempt < C.maxAttempts
        · have ht : (outcomes attempt).transient validate = true := by
            rw [ho] at htrue ⊢
            exact htrue
          cases hd : C.delay attempt with
          | error x =>
            refine ⟨[], _, _, Ran.stop hused ?_ ?_⟩
            · rw [← ho, hcalls, ho]
              simp only [hv, if_pos hb, scheduleRetry, hd]
              rfl
            · rw [call_bind.2]
              simp only [hv, if_pos hb, scheduleRetry, hd]
              exact .overflow hd ht hb.2 fun _ => hb.1
          | ok d =>
            obtain ⟨before, last, after, hran⟩ := hnext (used + 1) hb.1 hb.2
            refine ⟨_, _, _, hran.next ht ⟨d, hd⟩ (by rw [htrue]; rfl) ?_ ?_⟩
            · rw [← ho, hcalls, ho]
              simp only [hv, if_pos hb, scheduleRetry, hd]
              exact congrArg (· + 1) providerCalls_sleep
            · rw [call_bind.2]
              simp only [hv, if_pos hb, scheduleRetry, hd]
              rfl
        · refine ⟨[], _, _, Ran.stop hused ?_ ?_⟩
          · rw [← ho, hcalls, ho]
            simp only [hv, if_neg hb]
            rfl
          · rw [call_bind.2, ho]
            simp only [hv, if_neg hb]
            refine .refused hv ?_
            omega

theorem generate_ran (C : StructuredLLMClient) (validate : String → Except (List String) α)
    (outcomes : Nat → ProviderOutcome) : ∃ before last after,
      Ran validate C outcomes C.maxAttempts 1 0 (C.generate validate outcomes) before last after :=
  generateFrom_ran (Nat.add_comm 1 C.maxAttempts) C.attempts_ok (Nat.zero_le _)

end StructuredLLMClient

section Counting
variable {β : Type} {p q : β → Bool} {l : List β} {m : Nat}

/-- The element that `m` others with the property stand before. -/
theorem exists_split_of_countP (h : m < l.countP p) :
    ∃ before x after, l = before ++ x :: after ∧ p x = true ∧ before.countP p = m := by
  induction l generalizing m with
  | nil => cases h
  | cons a rest ih =>
    rw [List.countP_cons] at h
    by_cases ha : p a = true
    · cases m with
      | zero => exact ⟨[], a, rest, rfl, ha, rfl⟩
      | succ m =>
        rw [if_pos ha] at h
        obtain ⟨before, x, after, hs, hx, hc⟩ := ih (Nat.lt_of_succ_lt_succ h)
        exact ⟨a :: before, x, after, by rw [hs]; rfl, hx, by rw [List.countP_cons, if_pos ha, hc]⟩
    · rw [if_neg ha] at h
      obtain ⟨before, x, after, hs, hx, hc⟩ := ih h
      exact ⟨a :: before, x, after, by rw [hs]; rfl, hx, by rw [List.countP_cons, if_neg ha, hc]; rfl⟩

theorem countP_lt_countP {x : β} (h : ∀ y ∈ l, q y = true → p y = true) (hx : x ∈ l) (hp : p x = true)
    (hq : q x = false) : l.countP q < l.countP p := by
  induction l with
  | nil => cases hx
  | cons a rest ih =>
    have hrest : rest.countP q ≤ rest.countP p :=
      List.countP_mono_left fun y hy => h y (List.mem_cons_of_mem a hy)
    rw [List.countP_cons, List.countP_cons]
    cases List.mem_cons.mp hx with
    | inl he =>
      rw [← he, hp, hq]
      simp only [if_true, Bool.false_eq_true, if_false]
      omega
    | inr hm =>
      have hlt := ih (fun y hy => h y (List.mem_cons_of_mem a hy)) hm
      by_cases hqa : q a = true
      · rw [if_pos hqa, if_pos (h a List.mem_cons_self hqa)]
        omega
      · rw [if_neg hqa]
        omega

end Counting

section Bounds
variable {before after : List ProviderOutcome} {last : ProviderOutcome}
variable {run : Effect GenerateCall GenerateFailure (StructuredLLMResult α)}

theorem invalid_of_refused {x : ProviderOutcome} (h : x.refused validate = true) : x.invalid validate = true := by
  cases x with
  | completion c => exact h
  | timeout => cases h
  | error e => cases h

theorem ahead_length : (ahead outcomes attempt left).length = left := by
  rw [ahead, List.length_map, List.length_range']

theorem ahead_getElem {i : Nat} (h : i < left) : (ahead outcomes attempt left)[i]? = some (outcomes (attempt + i)) := by
  rw [ahead, List.getElem?_map, List.getElem?_range' (by simpa using h), Option.map_some, Nat.one_mul]

theorem ahead_of_split {l l' : List ProviderOutcome} (h : ahead outcomes attempt left = l ++ l') :
    ahead outcomes attempt l.length = l := by
  have hlen := congrArg List.length h
  rw [ahead_length, List.length_append] at hlen
  have happend : ahead outcomes attempt l.length ++ ahead outcomes (attempt + l.length) l'.length = l ++ l' := by
    rw [← h, ahead, ahead, ← List.map_append, List.range'_append_1, ← hlen]
    rfl
  exact (List.append_inj happend ahead_length).1

theorem Ran.made (h : Ran validate C outcomes left attempt used run before last after) :
    ahead outcomes attempt (before.length + 1) = before ++ [last] := by
  have hs := h.split
  rw [List.append_cons] at hs
  have hmade := ahead_of_split hs
  rw [List.length_append] at hmade
  exact hmade

theorem Ran.last_eq (h : Ran validate C outcomes left attempt used run before last after) :
    outcomes (attempt + before.length) = last := by
  have hget := @ahead_getElem outcomes (before.length + 1) attempt before.length (Nat.lt_succ_self _)
  rw [h.made, List.getElem?_concat_length] at hget
  exact (Option.some.inj hget).symm

theorem Ran.length_le (h : Ran validate C outcomes left attempt used run before last after) :
    before.length + 1 ≤ left := by
  have hlen := congrArg List.length h.split
  rw [ahead_length, List.length_append, List.length_cons] at hlen
  omega

variable {ended : Except GenerateFailure (StructuredLLMResult α)}

/-- A reply after which there might be another attempt ends the run where a budget is spent, or the back-off
overflows. -/
theorem Ends.spent (h : Ends validate C attempt used last ended) (ht : last.transient validate = true)
    (hno : ∀ e, ended ≠ .error (.python e)) :
    C.maxAttempts ≤ attempt ∨ C.invalidResponseRetries ≤ used ∧ last.refused validate = true := by
  cases h with
  | output hv =>
    rw [ProviderOutcome.transient, hv] at ht
    cases ht
  | refused hv hb =>
    cases hb with
    | inl hb =>
      right
      refine ⟨hb, ?_⟩
      rw [ProviderOutcome.refused, hv]
      rfl
    | inr hb => exact .inl hb
  | error hb =>
    cases hb with
    | inl hb =>
      rw [ProviderOutcome.transient, hb] at ht
      cases ht
    | inr hb => exact .inl hb
  | timeout hb => exact .inl hb
  | overflow => exact absurd rfl (hno _)

theorem Ends.answer (h : Ends validate C attempt used last ended) (hno : ∀ e, ended ≠ .error (.python e)) :
    (∃ r c, ended = .ok r ∧ last = .completion c ∧ validate c.content = .ok r.output ∧ r.attempts = attempt) ∨
      ∃ e, ended = .error (.llm e) := by
  cases h with
  | output hv => exact .inl ⟨_, _, rfl, rfl, hv, rfl⟩
  | refused hv hb => exact .inr ⟨_, rfl⟩
  | error hb => exact .inr ⟨_, rfl⟩
  | timeout hb => exact .inr ⟨_, rfl⟩
  | overflow => exact absurd rfl (hno _)

theorem Ends.final {e : LLMError} (h : Ends validate C attempt used (.error e) ended)
    (he : e.kind.retryable = false) : ended = .error (.llm e) := by
  cases h with
  | error hb => rfl
  | overflow _ ht =>
    rw [ProviderOutcome.transient, he] at ht
    cases ht

/-- Only the last of the calls of a run ends with an error that is not to be retried. -/
theorem Ran.final {e : LLMError} {i : Nat} (h : Ran validate C outcomes left 1 used run before last after)
    (hi : 1 ≤ i) (hn : i ≤ before.length + 1) (ho : outcomes i = .error e) (he : e.kind.retryable = false) :
    i = before.length + 1 ∧ run.result = .error (.llm e) := by
  by_cases hlast : i = before.length + 1
  · refine ⟨hlast, ?_⟩
    have hends := h.ends
    rw [← h.last_eq, Nat.add_comm, ← hlast, ho] at hends
    exact hends.final he
  · have hget := @ahead_getElem outcomes (before.length + 1) 1 (i - 1) (by omega)
    rw [h.made, List.getElem?_append_left (by omega), Nat.add_sub_of_le hi] at hget
    have ht := h.goes _ (List.mem_of_getElem? hget)
    rw [ho, ProviderOutcome.transient, he] at ht
    cases ht

/-- With one invalid reply too many those before it were not all refused by the response model. -/
theorem Ran.within (h : Ran validate C outcomes C.maxAttempts 1 0 run before last after)
    (hr : Refusable validate C outcomes) :
    (before ++ [last]).countP (ProviderOutcome.invalid validate) ≤ C.invalidResponseRetries + 1 := by
  by_contra hmore
  obtain ⟨p, o, s, hs, ho, hcount⟩ := exists_split_of_countP (Nat.lt_of_not_le hmore)
  have hsplit : ahead outcomes 1 C.maxAttempts = p ++ o :: (s ++ after) := by
    rw [h.split, List.append_cons, hs, List.append_assoc]
    rfl
  have hstart : p <+: before := by
    have hp : p <+: before ++ [last] := ⟨o :: s, hs.symm⟩
    have hlen := congrArg List.length hs
    simp only [List.length_append, List.length_cons, List.length_nil] at hlen
    exact List.prefix_of_prefix_length_le hp (List.prefix_append before [last]) (by omega)
  have hall := hr p o (s ++ after) hsplit (fun x hx => h.goes x (hstart.subset hx)) ho hcount
  have hle : p.countP (ProviderOutcome.invalid validate) ≤ p.countP (ProviderOutcome.refused validate) :=
    List.countP_mono_left hall
  have hsub := hstart.sublist.countP_le (p := ProviderOutcome.refused validate)
  have hbudget := h.budget
  omega

/-- A run goes on past replies that may be followed by others, as long as the response model refused few of them. -/
theorem Ran.reaches {p : List ProviderOutcome} {o : ProviderOutcome} {s : List ProviderOutcome}
    (h : Ran validate C outcomes C.maxAttempts 1 0 run before last after)
    (hs : ahead outcomes 1 C.maxAttempts = p ++ o :: s) (hp : ∀ x ∈ p, x.transient validate = true)
    (hfew : p.countP (ProviderOutcome.refused validate) ≤ C.invalidResponseRetries)
    (hno : ∀ e, run.result ≠ .error (.python e)) : p.length ≤ before.length := by
  by_contra hlt
  have hstart : before ++ [last] <+: p := by
    have hmade : before ++ [last] <+: ahead outcomes 1 C.maxAttempts :=
      ⟨after, by rw [h.split, ← List.append_cons]⟩
    have hp' : p <+: ahead outcomes 1 C.maxAttempts := ⟨o :: s, hs.symm⟩
    apply List.prefix_of_prefix_length_le hmade hp'
    rw [List.length_append]
    exact Nat.lt_of_not_le hlt
  have ht := hp last (hstart.subset (List.mem_append_right _ (List.mem_singleton.mpr rfl)))
  cases h.ends.spent ht hno with
  | inl hmax =>
    have hlen := congrArg List.length hs
    rw [ahead_length, List.length_append, List.length_cons] at hlen
    omega
  | inr hspent =>
    have hcount := hstart.sublist.countP_le (p := ProviderOutcome.refused validate)
    rw [List.countP_append, List.countP_singleton, if_pos hspent.2] at hcount
    omega

theorem Ran.first (h : Ran validate C outcomes C.maxAttempts 1 0 run before last after) {m : Nat}
    (hm : m ≤ before.length + 1) : ahead outcomes 1 m <+: before ++ [last] := by
  rw [← h.made]
  refine ⟨ahead outcomes (1 + m) (before.length + 1 - m), ?_⟩
  rw [ahead, ahead, ahead, ← List.map_append, List.range'_append_1, Nat.add_sub_cancel' hm]

/-- The back-off of a run overflows exactly if the outcomes let it come to the attempt behind the 1025th. -/
theorem Ran.overflow_iff (h : Ran validate C outcomes C.maxAttempts 1 0 run before last after) :
    (∃ e, run.result = .error (.python e)) ↔ Lasting validate C outcomes := by
  constructor
  · rintro ⟨e, he⟩
    have hends := h.ends
    rw [he] at hends
    cases hends with
    | overflow hd ht hl hr =>
      obtain ⟨-, hfloat, hlarge⟩ := StructuredLLMClient.delay_error.mp hd
      have hfirst := h.first (m := 1025) (by omega)
      refine ⟨hfloat, by omega, fun x hx => ?_, ?_⟩
      · cases List.mem_append.mp (hfirst.subset hx) with
        | inl hx => exact h.goes x hx
        | inr hx =>
          rw [List.mem_singleton.mp hx]
          exact ht
      · refine (hfirst.sublist.countP_le (p := ProviderOutcome.refused validate)).trans ?_
        have hbudget := h.budget
        rw [List.countP_append, List.countP_singleton]
        by_cases hrefused : last.refused validate = true
        · have hlt := hr hrefused
          rw [if_pos hrefused]
          omega
        · rw [if_neg hrefused]
          omega
  · intro hl
    by_contra hnot
    have hsplit : ahead outcomes 1 C.maxAttempts =
        ahead outcomes 1 1025 ++ outcomes 1026 :: ahead outcomes 1027 (C.maxAttempts - 1026) := by
      have hmore := hl.attempts
      rw [← @ahead_succ outcomes _ 1026, ahead, ahead, ahead, ← List.map_append, List.range'_append_1]
      congr 2
      omega
    have hreach := h.reaches hsplit hl.goes hl.budget fun e he => hnot ⟨e, he⟩
    rw [ahead_length] at hreach
    obtain ⟨d, hd⟩ := h.slept 1024 (by omega)
    have herror := StructuredLLMClient.delay_error.mpr ⟨rfl, hl.float, Nat.le_refl 1025⟩
    rw [hd] at herror
    cases herror

end Bounds

namespace StructuredLLMClient

/-- The provider calls every reply invalid itself. -/
def garbled : Nat → ProviderOutcome := fun _ => .error { kind := .invalidResponse }

def defaultClient : StructuredLLMClient where
  providerName := "fake"

end StructuredLLMClient
end DataCopilot.Query
