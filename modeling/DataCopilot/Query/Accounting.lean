import DataCopilot.Query.AuditLoss
import DataCopilot.Query.RetryBudget

/-! The tokens of an answer. Both levels add up what they are given, but a completion that the response model
refused is not handed on by `generate`, and its tokens are not counted. -/
namespace DataCopilot.Query
open Sql Agent Effects

/-- The sum of one component. What is absent counts as nothing, and without any there is no sum. -/
def sumTokens (l : List (Option Nat)) : Option Nat := l.foldr addTokens none

def LLMTokenUsage.components : List (LLMTokenUsage → Option Nat) := [inputTokens, outputTokens, totalTokens]

/-- The provider of the model, by the calls of `generate` and the attempts of each, and the other collaborators.
The selection is the first call of `generate`, and the drafts follow. -/
structure ModelWorld where
  client : StructuredLLMClient
  selection : List String → String → Except (List String) TableSelection
  draft : String → Except (List String) NL2SQLDraft
  outcomes : Nat → Nat → ProviderOutcome
  query : Nat → QueryWorld

namespace ProviderOutcome

def usage? : ProviderOutcome → Option LLMTokenUsage
  | completion c => some c.usage
  | _ => none

/-- The response model takes the content. -/
def accepted {α : Type} (validate : String → Except (List String) α) : ProviderOutcome → Bool
  | completion c => (validate c.content).toBool
  | _ => false

end ProviderOutcome

section Usages
variable {α : Type} (C : StructuredLLMClient) (validate : String → Except (List String) α)
variable (outcomes : Nat → ProviderOutcome)

/-- The usages of the completions among the first `n` outcomes. -/
def completions (n : Nat) : List LLMTokenUsage := (ahead outcomes 1 n).filterMap ProviderOutcome.usage?

/-- The usages of the completions in front of the first one that the response model takes. -/
def dropped : List LLMTokenUsage :=
  ((ahead outcomes 1 C.maxAttempts).takeWhile fun o => !o.accepted validate).filterMap ProviderOutcome.usage?

/-- The usage of the first completion that the response model takes. -/
def kept : List LLMTokenUsage :=
  (((ahead outcomes 1 C.maxAttempts).find? (ProviderOutcome.accepted validate)).bind ProviderOutcome.usage?).toList

end Usages

def GenerateFailure.failure : GenerateFailure → Failure
  | llm e => { className := "LLMError", code := some e.kind.code }
  | assertion _ => { className := "AssertionError" }
  | python e => { className := e.className }

namespace ModelWorld
variable (W : ModelWorld) (names : List String)

def selects : Effect GenerateCall GenerateFailure (StructuredLLMResult TableSelection) :=
  W.client.generate (W.selection names) (W.outcomes 0)

def drafts (k : Nat) : Effect GenerateCall GenerateFailure (StructuredLLMResult NL2SQLDraft) :=
  W.client.generate W.draft (W.outcomes (k + 1))

/-- What `answer` sees of the model. -/
def answers : AnswerWorld where
  select _ names := (W.selects names).result.mapError GenerateFailure.failure
  draft k _ := (W.drafts k).result.mapError GenerateFailure.failure
  query := W.query

/-- The usages of all completions that the provider returned for a selection and `n` drafts. -/
def returned (n : Nat) : List LLMTokenUsage :=
  completions (W.outcomes 0) (providerCalls (W.selects names).calls) ++
    (List.range n).flatMap fun k => completions (W.outcomes (k + 1)) (providerCalls (W.drafts k).calls)

/-- How often the provider was called. -/
def calls (n : Nat) : Nat :=
  providerCalls (W.selects names).calls + ((List.range n).map fun k => providerCalls (W.drafts k).calls).sum

def droppedUsages (n : Nat) : List LLMTokenUsage :=
  dropped W.client (W.selection names) (W.outcomes 0) ++
    (List.range n).flatMap fun k => dropped W.client W.draft (W.outcomes (k + 1))

def keptUsages (n : Nat) : List LLMTokenUsage :=
  kept W.client (W.selection names) (W.outcomes 0) ++
    (List.range n).flatMap fun k => kept W.client W.draft (W.outcomes (k + 1))

/-- The tokens of an answer with `n` drafts are those of all completions, and its calls all calls. -/
structure Accounted (n : Nat) (r : NL2SQLResult) : Prop where
  usage : ∀ f ∈ LLMTokenUsage.components, f r.usage = sumTokens ((W.returned names n).map f)
  calls : r.modelCalls = W.calls names n

/-- The refused completions have nothing to count: no numbers, or zeros where the others have a number. -/
def NothingDropped (n : Nat) : Prop :=
  ∀ f ∈ LLMTokenUsage.components, (∀ u ∈ W.droppedUsages names n, f u = none) ∨
    (∀ u ∈ W.droppedUsages names n, (f u).getD 0 = 0) ∧ ∃ u ∈ W.keptUsages names n, f u ≠ none

end ModelWorld

/-- How many drafts were asked for. -/
def draftCalls (calls : List AnswerCall) : Nat :=
  calls.countP fun | .draft _ => true | _ => false

namespace NL2SQLService
variable (S : NL2SQLService) (W : ModelWorld) (question : String) (snapshot : SchemaSnapshot)
  (context : QueryContext) (policy : QueryPolicy)

/-- The names that the response model of the selection knows. -/
def selectable : List String :=
  catalogNames policy.allowedSchema (policy.allowedTables ∩ (snapshot.tables.map TableMetadata.name).toFinset)

/-- An answer accounts for all completions. -/
def Accounts : Prop :=
  ∀ r, (S.answer W.answers question snapshot context policy).result = .ok r →
    W.Accounted (selectable snapshot policy) (draftCalls (S.answer W.answers question snapshot context policy).calls) r

/-- In a run that comes to an answer no refused completion has tokens to count. -/
def DropsNothing : Prop :=
  ∀ r, (S.answer W.answers question snapshot context policy).result = .ok r →
    W.NothingDropped (selectable snapshot policy) (draftCalls (S.answer W.answers question snapshot context policy).calls)

end NL2SQLService

section Sums
variable {a b c : Option Nat} {l l' : List (Option Nat)}

theorem addTokens_none_left : addTokens none a = a := by
  cases a with
  | none => rfl
  | some n => simp [addTokens]

theorem addTokens_comm : addTokens a b = addTokens b a := by
  cases a with
  | none => cases b <;> simp [addTokens]
  | some m =>
    cases b with
    | none => simp [addTokens]
    | some n => simp [addTokens, Nat.add_comm]

theorem addTokens_none_right : addTokens a none = a := by
  rw [addTokens_comm, addTokens_none_left]

theorem addTokens_assoc : addTokens (addTokens a b) c = addTokens a (addTokens b c) := by
  cases a with
  | none => rw [addTokens_none_left, addTokens_none_left]
  | some m =>
    cases b with
    | none => rw [addTokens_none_right, addTokens_none_left]
    | some n =>
      cases c with
      | none => rw [addTokens_none_right, addTokens_none_right]
      | some k => simp [addTokens, Nat.add_assoc]

theorem addTokens_shuffle {d : Option Nat} :
    addTokens (addTokens a b) (addTokens c d) = addTokens (addTokens b c) (addTokens a d) := by
  rw [addTokens_assoc, addTokens_assoc, addTokens_comm (a := a), addTokens_assoc, addTokens_assoc,
    addTokens_comm (a := d)]

theorem addTokens_eq_none : addTokens a b = none ↔ a = none ∧ b = none := by
  cases a with
  | none => rw [addTokens_none_left, eq_self_iff_true, true_and]
  | some m =>
    cases b with
    | none => simp [addTokens]
    | some n => simp [addTokens]

theorem addTokens_getD : (addTokens a b).getD 0 = a.getD 0 + b.getD 0 := by
  cases a with
  | none => rw [addTokens_none_left, Option.getD_none, Nat.zero_add]
  | some m =>
    cases b with
    | none => rfl
    | some n => rfl

theorem sumTokens_cons : sumTokens (a :: l) = addTokens a (sumTokens l) := rfl

theorem sumTokens_append : sumTokens (l ++ l') = addTokens (sumTokens l) (sumTokens l') := by
  induction l with
  | nil => exact addTokens_none_left.symm
  | cons a rest ih => rw [List.cons_append, sumTokens_cons, sumTokens_cons, ih, addTokens_assoc]

theorem sumTokens_eq_none : sumTokens l = none ↔ ∀ x ∈ l, x = none := by
  induction l with
  | nil => simp [sumTokens]
  | cons a rest ih => rw [sumTokens_cons, addTokens_eq_none, ih, List.forall_mem_cons]

theorem sumTokens_getD : (sumTokens l).getD 0 = 0 ↔ ∀ x ∈ l, x.getD 0 = 0 := by
  induction l with
  | nil => simp [sumTokens]
  | cons a rest ih => rw [sumTokens_cons, addTokens_getD, Nat.add_eq_zero_iff, ih, List.forall_mem_cons]

theorem sumTokens_add_eq : addTokens (sumTokens l) (sumTokens l') = sumTokens l ↔
    (∀ x ∈ l', x = none) ∨ (∀ x ∈ l', x.getD 0 = 0) ∧ ∃ x ∈ l, x ≠ none := by
  have hsome : (∃ x ∈ l, x ≠ none) ↔ sumTokens l ≠ none := by
    rw [Ne, sumTokens_eq_none]
    simp
  rw [← sumTokens_eq_none, ← sumTokens_getD, hsome]
  cases sumTokens l with
  | none =>
    rw [addTokens_none_left]
    simp
  | some m =>
    cases sumTokens l' with
    | none => simp [addTokens]
    | some n => simp [addTokens]

end Sums

section Run
variable {α : Type} {C : StructuredLLMClient} {validate : String → Except (List String) α}
variable {outcomes : Nat → ProviderOutcome} {d : StructuredLLMResult α}

/-- What a call of `generate` returns, and what it leaves out. -/
theorem generate_ok (h : (C.generate validate outcomes).result = .ok d) :
    d.attempts = providerCalls (C.generate validate outcomes).calls ∧ kept C validate outcomes = [d.usage] ∧
      completions outcomes (providerCalls (C.generate validate outcomes).calls) =
        dropped C validate outcomes ++ [d.usage] := by
  obtain ⟨before, last, after, hran⟩ := C.generate_ran validate outcomes
  have hbefore : ∀ x ∈ before, x.accepted validate = false := by
    intro x hx
    have ht := hran.goes x hx
    cases x with
    | completion c => simpa [ProviderOutcome.transient, ProviderOutcome.accepted] using ht
    | timeout => rfl
    | error e => rfl
  have hends := hran.ends
  rw [h] at hends
  cases hends with
  | @output c output hv =>
    have hlast : (ProviderOutcome.completion c).accepted validate = true := by
      rw [ProviderOutcome.accepted, hv]
      rfl
    have hdropped : dropped C validate outcomes = before.filterMap ProviderOutcome.usage? := by
      rw [dropped, hran.split, List.takeWhile_append_of_pos, List.takeWhile_cons_of_neg, List.append_nil]
      · simp [hlast]
      · intro x hx
        simp [hbefore x hx]
    have hkept : kept C validate outcomes = [c.usage] := by
      rw [kept, hran.split, List.find?_append, List.find?_eq_none.mpr, List.find?_cons_of_pos hlast]
      · rfl
      · intro x hx
        simp [hbefore x hx]
    refine ⟨?_, hkept, ?_⟩
    · rw [hran.calls, Nat.add_comm]
    · rw [completions, hran.calls, hran.made, List.filterMap_append, hdropped]
      rfl

end Run

section Drafts
variable {β γ : Type} {x : Effect AnswerCall AnswerFailure β} {f : β → Effect AnswerCall AnswerFailure γ}

theorem draftCalls_append {calls earlier : List AnswerCall} :
    draftCalls (calls ++ earlier) = draftCalls calls + draftCalls earlier := List.countP_append

/-- Of two computations one after another both have asked for their drafts. -/
theorem draftCalls_bind {b : β} (h : x.result = .ok b) :
    draftCalls (x >>= f).calls = draftCalls (f b).calls + draftCalls x.calls := by
  rw [(Effect.bind_of_ok h).1, draftCalls_append]

theorem draftCalls_require (r : Except Failure β) : draftCalls (require r).calls = 0 := by
  cases r with
  | ok b => rfl
  | error e => rfl

theorem draftCalls_requireSome (e : Failure) (o : Option β) : draftCalls (requireSome e o).calls = 0 := by
  cases o with
  | some b => rfl
  | none => rfl

theorem draftCalls_caught (x : Effect QueryCall Raised SafeQueryOutcome) : draftCalls (caught x).calls = 0 := by
  change List.countP _ (x.calls.map AnswerCall.query) = 0
  rw [List.countP_map, List.countP_eq_zero]
  intro c _
  exact Bool.false_ne_true

theorem askModel_ok {c : AnswerCall} {answer : Except Failure β} {b : β} :
    (askModel c answer).result = .ok b ↔ answer = .ok b := by
  cases answer with
  | ok b' => simp [askModel]
  | error e => simp [askModel]

end Drafts

namespace NL2SQLService
variable {S : NL2SQLService} {w : AnswerWorld} {question : String} {snapshot : SchemaSnapshot}
variable {context : QueryContext} {policy : QueryPolicy} {p : Prepared} {repairCount modelCalls : Nat}
variable {prompts : List Prompt} {usage : LLMTokenUsage}

/-- One turn of the loop asks for one draft, and adds it up. -/
theorem attempt_ok {tried : Tried}
    (h : (S.attempt w context policy p repairCount prompts modelCalls usage).result = .ok tried) :
    draftCalls (S.attempt w context policy p repairCount prompts modelCalls usage).calls = 1 ∧
      ∃ items d, w.draft repairCount items = .ok d ∧ tried.modelCalls = modelCalls + d.attempts ∧
        tried.usage = usage.add d.usage := by
  rw [attempt] at h ⊢
  obtain ⟨items, hitems, h⟩ := Effect.bind_result.mp h
  rw [draftCalls_bind hitems, draftCalls_require]
  obtain ⟨d, hd, h⟩ := Effect.bind_result.mp h
  rw [draftCalls_bind hd]
  obtain ⟨u, hu, h⟩ := Effect.bind_result.mp h
  rw [draftCalls_bind hu, draftCalls_requireSome]
  obtain ⟨answer, ha, h⟩ := Effect.bind_result.mp h
  rw [draftCalls_bind ha, draftCalls_caught]
  cases h
  exact ⟨rfl, items, d, askModel_ok.mp hd, rfl, rfl⟩

/-- Before the loop there is one selection and no draft. -/
theorem prepare_ok (h : (S.prepare w question snapshot policy).result = .ok p) :
    draftCalls (S.prepare w question snapshot policy).calls = 0 ∧
      ∃ items d, w.select items (selectable snapshot policy) = .ok d ∧ p.modelCalls = d.attempts ∧
        p.usage = d.usage := by
  rw [prepare] at h ⊢
  obtain ⟨safeQuestion, hq, h⟩ := Effect.bind_result.mp h
  rw [draftCalls_bind hq, draftCalls_require]
  obtain ⟨items, hitems, h⟩ := Effect.bind_result.mp h
  rw [draftCalls_bind hitems, draftCalls_require]
  obtain ⟨u, hu, h⟩ := Effect.bind_result.mp h
  rw [draftCalls_bind hu, draftCalls_requireSome]
  obtain ⟨d, hd, h⟩ := Effect.bind_result.mp h
  rw [draftCalls_bind hd]
  obtain ⟨selected, hs, h⟩ := Effect.bind_result.mp h
  rw [draftCalls_bind hs, draftCalls_requireSome]
  obtain ⟨restricted, hr, h⟩ := Effect.bind_result.mp h
  rw [draftCalls_bind hr, draftCalls_requireSome]
  obtain ⟨base, hb, h⟩ := Effect.bind_result.mp h
  rw [draftCalls_bind hb, draftCalls_require]
  cases h
  exact ⟨rfl, items, d, askModel_ok.mp hd, rfl, rfl⟩

theorem caught_ok {x : Effect QueryCall Raised SafeQueryOutcome} {outcome : SafeQueryOutcome}
    (h : x.result = .ok outcome) : (caught x).result = .ok (.ok outcome) := by
  simp only [caught, Effect.result] at h ⊢
  rw [h]

theorem mapError_ok {ε δ β : Type} {g : ε → δ} {x : Except ε β} {b : β} : x.mapError g = .ok b ↔ x = .ok b := by
  cases x with
  | error e => simp [Except.mapError]
  | ok b' => simp [Except.mapError]

theorem component_add {f : LLMTokenUsage → Option Nat} (hf : f ∈ LLMTokenUsage.components) (u v : LLMTokenUsage) :
    f (u.add v) = addTokens (f u) (f v) := by
  simp only [LLMTokenUsage.components, List.mem_cons, List.not_mem_nil, or_false] at hf
  rcases hf with rfl | rfl | rfl
  · rfl
  · rfl
  · rfl

/-- The loop ends with the first query that is answered. -/
theorem loop_answers {remaining : Nat} {tried : Tried} {outcome : SafeQueryOutcome}
    (hx : (S.attempt w context policy p repairCount prompts modelCalls usage).result = .ok tried)
    (ha : tried.answer = .ok outcome) :
    ∃ r, (S.repairLoop w context policy p remaining repairCount prompts modelCalls usage).result = .ok r := by
  cases remaining with
  | zero =>
    rw [repairLoop, (Effect.bind_of_ok hx).2, ha]
    exact ⟨_, rfl⟩
  | succ n =>
    rw [repairLoop, (Effect.bind_of_ok hx).2, ha]
    exact ⟨_, rfl⟩

variable {W : ModelWorld}

/-- What the drafts from number `k` on, `n` of them, add to the calls and to the usage. -/
structure Adds (W : ModelWorld) (k n modelCalls : Nat) (usage : LLMTokenUsage) (r : NL2SQLResult) : Prop where
  answered : ∀ j ∈ List.range' k n, ∃ d, (W.drafts j).result = .ok d
  calls : r.modelCalls = modelCalls + ((List.range' k n).map fun j => providerCalls (W.drafts j).calls).sum
  usage : ∀ f ∈ LLMTokenUsage.components, f r.usage = addTokens (f usage)
    (sumTokens (((List.range' k n).flatMap fun j => kept W.client W.draft (W.outcomes (j + 1))).map f))

theorem Adds.done {d : StructuredLLMResult NL2SQLDraft} {r : NL2SQLResult} (hd : (W.drafts repairCount).result = .ok d)
    (hcalls : r.modelCalls = modelCalls + d.attempts) (husage : r.usage = usage.add d.usage) :
    Adds W repairCount 1 modelCalls usage r := by
  obtain ⟨hattempts, hkept, -⟩ := generate_ok hd
  constructor
  · intro j hj
    rw [List.range'_one, List.mem_singleton] at hj
    exact ⟨d, hj ▸ hd⟩
  · rw [hcalls, hattempts, List.range'_one, List.map_singleton, List.sum_singleton]
    rfl
  · intro f hf
    rw [List.range'_one, List.flatMap_singleton, hkept, husage, component_add hf, List.map_singleton, sumTokens_cons]
    exact congrArg _ addTokens_none_right.symm

theorem Adds.next {d : StructuredLLMResult NL2SQLDraft} {n : Nat} {r : NL2SQLResult}
    (hd : (W.drafts repairCount).result = .ok d)
    (h : Adds W (repairCount + 1) n (modelCalls + d.attempts) (usage.add d.usage) r) :
    Adds W repairCount (n + 1) modelCalls usage r := by
  obtain ⟨hattempts, hkept, -⟩ := generate_ok hd
  constructor
  · intro j hj
    rw [List.range'_succ] at hj
    cases List.mem_cons.mp hj with
    | inl he => exact ⟨d, he ▸ hd⟩
    | inr hm => exact h.answered j hm
  · rw [h.calls, hattempts, List.range'_succ, List.map_cons, List.sum_cons, Nat.add_assoc]
    rfl
  · intro f hf
    rw [h.usage f hf, component_add hf, List.range'_succ, List.flatMap_cons, hkept, List.map_append, sumTokens_append,
      List.map_singleton, sumTokens_cons, addTokens_assoc]
    congr 2
    exact addTokens_none_right.symm

theorem loop_done {remaining : Nat} {r : NL2SQLResult} {tried : Tried} {outcome : SafeQueryOutcome}
    (hx : (S.attempt W.answers context policy p repairCount prompts modelCalls usage).result = .ok tried)
    (ha : tried.answer = .ok outcome)
    (h : (S.repairLoop W.answers context policy p remaining repairCount prompts modelCalls usage).result = .ok r) :
    Adds W repairCount
      (draftCalls (S.repairLoop W.answers context policy p remaining repairCount prompts modelCalls usage).calls)
      modelCalls usage r := by
  obtain ⟨hdrafts, items, d, hd, hcalls, husage⟩ := attempt_ok hx
  rw [loop_of_outcome hx ha, hdrafts]
  rw [repairLoop, (Effect.bind_of_ok hx).2, ha] at h
  cases h
  exact Adds.done (mapError_ok.mp hd) hcalls husage

/-- The loop, by the repairs that are left. -/
theorem loop_adds {remaining : Nat} {r : NL2SQLResult}
    (h : (S.repairLoop W.answers context policy p remaining repairCount prompts modelCalls usage).result = .ok r) :
    Adds W repairCount
      (draftCalls (S.repairLoop W.answers context policy p remaining repairCount prompts modelCalls usage).calls)
      modelCalls usage r := by
  induction remaining generalizing repairCount prompts modelCalls usage with
  | zero =>
    cases hx : (S.attempt W.answers context policy p repairCount prompts modelCalls usage).result with
    | error f =>
      rw [(loop_of_error hx).2] at h
      cases h
    | ok tried =>
      cases ha : tried.answer with
      | error e =>
        rw [(loop_of_last hx ha).2] at h
        cases h
      | ok outcome => exact loop_done hx ha h
  | succ n ih =>
    cases hx : (S.attempt W.answers context policy p repairCount prompts modelCalls usage).result with
    | error f =>
      rw [(loop_of_error hx).2] at h
      cases h
    | ok tried =>
      cases ha : tried.answer with
      | error e =>
        obtain ⟨hdrafts, items, d, hd, hcalls, husage⟩ := attempt_ok hx
        rw [(loop_of_repair hx ha).2] at h
        rw [(loop_of_repair hx ha).1, draftCalls_append, hdrafts]
        have hrest := ih h
        rw [hcalls, husage] at hrest ⊢
        exact Adds.next (mapError_ok.mp hd) hrest
      | ok outcome => exact loop_done hx ha h

theorem sumTokens_interleave {f : LLMTokenUsage → Option Nat} {all kept dropped : Nat → List LLMTokenUsage}
    {l : List Nat} (h : ∀ j ∈ l, all j = dropped j ++ kept j) :
    sumTokens ((l.flatMap all).map f) =
      addTokens (sumTokens ((l.flatMap kept).map f)) (sumTokens ((l.flatMap dropped).map f)) := by
  induction l with
  | nil => rfl
  | cons j rest ih =>
    have hrest := ih fun i hi => h i (List.mem_cons_of_mem j hi)
    rw [List.flatMap_cons, List.flatMap_cons, List.flatMap_cons, h j List.mem_cons_self]
    simp only [List.map_append, sumTokens_append]
    rw [hrest]
    exact addTokens_shuffle

/-- What an answer adds up, and all that there was to add. -/
theorem answer_sums {r : NL2SQLResult} (h : (S.answer W.answers question snapshot context policy).result = .ok r) :
    r.modelCalls = W.calls (selectable snapshot policy)
        (draftCalls (S.answer W.answers question snapshot context policy).calls) ∧
      ∀ f ∈ LLMTokenUsage.components,
        f r.usage = sumTokens ((W.keptUsages (selectable snapshot policy)
          (draftCalls (S.answer W.answers question snapshot context policy).calls)).map f) ∧
        sumTokens ((W.returned (selectable snapshot policy)
          (draftCalls (S.answer W.answers question snapshot context policy).calls)).map f) =
          addTokens (sumTokens ((W.keptUsages (selectable snapshot policy)
            (draftCalls (S.answer W.answers question snapshot context policy).calls)).map f))
            (sumTokens ((W.droppedUsages (selectable snapshot policy)
              (draftCalls (S.answer W.answers question snapshot context policy).calls)).map f)) := by
  obtain ⟨p, hp, hloop⟩ := Effect.bind_result.mp h
  obtain ⟨hnone, items, d, hd, hcalls, husage⟩ := prepare_ok hp
  have hdrafts : draftCalls (S.answer W.answers question snapshot context policy).calls =
      draftCalls (S.repairLoop W.answers context policy p S.maxRepairs 0 p.base p.modelCalls p.usage).calls := by
    rw [answer, draftCalls_bind hp, hnone, Nat.add_zero]
  have hadds := loop_adds hloop
  rw [← hdrafts] at hadds
  obtain ⟨hattempts, hkept, hall⟩ := generate_ok (mapError_ok.mp hd)
  generalize draftCalls (S.answer W.answers question snapshot context policy).calls = n at *
  have hrange : List.range' 0 n = List.range n := List.range_eq_range'.symm
  constructor
  · rw [hadds.calls, hcalls, hattempts, hrange]
    rfl
  · intro f hf
    constructor
    · rw [hadds.usage f hf, husage, ModelWorld.keptUsages, hkept, hrange, List.map_append, sumTokens_append,
        List.map_singleton, sumTokens_cons]
      exact congrArg (addTokens · _) addTokens_none_right.symm
    · have heach : ∀ k ∈ List.range n, completions (W.outcomes (k + 1)) (providerCalls (W.drafts k).calls) =
          dropped W.client W.draft (W.outcomes (k + 1)) ++ kept W.client W.draft (W.outcomes (k + 1)) := by
        intro k hk
        obtain ⟨d', hd'⟩ := hadds.answered k (hrange ▸ hk)
        obtain ⟨-, hkept', hall'⟩ := generate_ok hd'
        rw [hkept']
        exact hall'
      have hinterleave := @sumTokens_interleave f _ _ _ _ heach
      rw [ModelWorld.returned, ModelWorld.keptUsages, ModelWorld.droppedUsages]
      simp only [List.map_append, sumTokens_append]
      rw [hinterleave]
      have hfirst : completions (W.outcomes 0) (providerCalls (W.selects (selectable snapshot policy)).calls) =
          dropped W.client (W.selection (selectable snapshot policy)) (W.outcomes 0) ++
            kept W.client (W.selection (selectable snapshot policy)) (W.outcomes 0) := by
        rw [hkept]
        exact hall
      rw [hfirst, List.map_append, sumTokens_append]
      exact addTokens_shuffle

/-- The usage of a result is that of all completions exactly if the refused ones have nothing to count. -/
theorem accounted_iff {r : NL2SQLResult} (hr : (S.answer W.answers question snapshot context policy).result = .ok r) :
    W.Accounted (selectable snapshot policy)
        (draftCalls (S.answer W.answers question snapshot context policy).calls) r ↔
      W.NothingDropped (selectable snapshot policy)
        (draftCalls (S.answer W.answers question snapshot context policy).calls) := by
  obtain ⟨hcalls, hsums⟩ := answer_sums hr
  generalize draftCalls (S.answer W.answers question snapshot context policy).calls = n at *
  have hcomponent : ∀ f ∈ LLMTokenUsage.components,
      (f r.usage = sumTokens ((W.returned (selectable snapshot policy) n).map f) ↔
        (∀ u ∈ W.droppedUsages (selectable snapshot policy) n, f u = none) ∨
        (∀ u ∈ W.droppedUsages (selectable snapshot policy) n, (f u).getD 0 = 0) ∧
          ∃ u ∈ W.keptUsages (selectable snapshot policy) n, f u ≠ none) := by
    intro f hf
    obtain ⟨hkept, hall⟩ := hsums f hf
    rw [hkept, hall, eq_comm, sumTokens_add_eq]
    simp only [List.mem_map, exists_exists_and_eq_and, forall_exists_index, and_imp, forall_apply_eq_imp_iff₂]
  constructor
  · intro h f hf
    exact (hcomponent f hf).mp (h.usage f hf)
  · intro h
    exact ⟨fun f hf => (hcomponent f hf).mpr (h f hf), hcalls⟩

/-- An answer accounts for its completions exactly if there is nothing to count in those that were refused. -/
theorem answer_accounts_iff (S : NL2SQLService) (W : ModelWorld) (question : String) (snapshot : SchemaSnapshot)
    (context : QueryContext) (policy : QueryPolicy) :
    S.Accounts W question snapshot context policy ↔ S.DropsNothing W question snapshot context policy := by
  constructor
  · intro h r hr
    exact (accounted_iff hr).mp (h r hr)
  · intro h r hr
    exact (accounted_iff hr).mpr (h r hr)

end NL2SQLService
section Orders
open NL2SQLService

/-- Seven tokens for a reply that is not JSON, and then replies that can be read. -/
def stutteringModel : ModelWorld where
  client := StructuredLLMClient.defaultClient
  selection _ content := if content = "not-json" then .error ["$:json_invalid"] else .ok ⟨["orders"], orders_selectable⟩
  draft _ := .ok ordersDraft
  outcomes g attempt :=
    if g = 0 ∧ attempt = 1 then .completion ⟨"not-json", "model", ⟨some 7, none, some 7⟩⟩
    else .completion ⟨"\x7b\x7d", "model", noUsage⟩
  query _ := SafeQueryService.emptyWorld

theorem stuttering_selects (names : List String) : (stutteringModel.selects names).result =
    .ok ⟨⟨["orders"], orders_selectable⟩, "fake", "model", 2, noUsage⟩ := by
  have hsleep : (StructuredLLMClient.defaultClient.scheduleRetry 1).result = .ok () :=
    StructuredLLMClient.scheduleRetry_early (by decide)
  change ((StructuredLLMClient.defaultClient.scheduleRetry 1) >>= fun _ =>
    StructuredLLMClient.defaultClient.generateFrom (stutteringModel.selection names) (stutteringModel.outcomes 0)
      2 2 1).result = _
  rw [(Effect.bind_of_ok hsleep).2]
  rfl

theorem stuttering_answers : ∃ r, (ordersService.answer stutteringModel.answers "Show the orders" ordersCatalog
    SafeQueryService.analystContext catalogPolicy).result = .ok r := by
  obtain ⟨items, hitems⟩ := messages_ok orders_selection_short
  obtain ⟨base, hbase, hshort⟩ := generation_short
  obtain ⟨asked, hasked⟩ := messages_ok hshort
  have hp : (ordersService.prepare stutteringModel.answers "Show the orders" ordersCatalog catalogPolicy).result =
      .ok ⟨["orders"], catalogPolicy, base, 2, noUsage⟩ := by
    refine Effect.bind_result.mpr ⟨"Show the orders", rfl, ?_⟩
    refine Effect.bind_result.mpr ⟨items, by rw [hitems]; rfl, ?_⟩
    refine Effect.bind_result.mpr ⟨(), rfl, ?_⟩
    have hselect : ∀ names, (askModel (.select items names) (stutteringModel.answers.select items names)).result =
        .ok ⟨⟨["orders"], orders_selectable⟩, "fake", "model", 2, noUsage⟩ := by
      intro names
      rw [askModel_ok]
      change (stutteringModel.selects names).result.mapError GenerateFailure.failure = _
      rw [stuttering_selects]
      rfl
    refine Effect.bind_result.mpr ⟨_, hselect _, ?_⟩
    refine Effect.bind_result.mpr ⟨["orders"], rfl, ?_⟩
    refine Effect.bind_result.mpr ⟨catalogPolicy, rfl, ?_⟩
    exact Effect.bind_result.mpr ⟨base, by rw [hbase]; rfl, rfl⟩
  have hquery : ∃ outcome, (ordersService.safeQuery.executeGenerated SafeQueryService.emptyWorld
      SafeQueryService.analystContext catalogPolicy ordersText).result = .ok outcome := by
    have hg : ordersService.safeQuery.guard ordersText catalogPolicy = .ok ordersGuarded := orders_guard
    unfold SafeQueryService.executeGenerated SafeQueryService.executeFixed
    rw [hg]
    exact ⟨_, rfl⟩
  obtain ⟨outcome, houtcome⟩ := hquery
  have hx : (ordersService.attempt stutteringModel.answers SafeQueryService.analystContext catalogPolicy
      ⟨["orders"], catalogPolicy, base, 2, noUsage⟩ 0 base 2 noUsage).result =
      .ok ⟨ordersDraft, "fake", "model", 3, noUsage.add noUsage, .ok outcome⟩ := by
    refine Effect.bind_result.mpr ⟨asked, by rw [hasked]; rfl, ?_⟩
    refine Effect.bind_result.mpr ⟨_, rfl, ?_⟩
    refine Effect.bind_result.mpr ⟨(), rfl, ?_⟩
    exact Effect.bind_result.mpr ⟨_, caught_ok houtcome, rfl⟩
  have hloop : ∃ r, (ordersService.repairLoop stutteringModel.answers SafeQueryService.analystContext catalogPolicy
      ⟨["orders"], catalogPolicy, base, 2, noUsage⟩ 2 0 base 2 noUsage).result = .ok r := loop_answers hx rfl
  obtain ⟨r, hr⟩ := hloop
  exact ⟨r, Effect.bind_result.mpr ⟨_, hp, hr⟩⟩

theorem not_accounts_stuttering : ¬ ordersService.Accounts stutteringModel "Show the orders" ordersCatalog
    SafeQueryService.analystContext catalogPolicy := by
  intro h
  obtain ⟨r, hr⟩ := stuttering_answers
  have hnothing := (accounted_iff hr).mp (h r hr)
  have hfirst : (⟨some 7, none, some 7⟩ : LLMTokenUsage) ∈ stutteringModel.droppedUsages
      (selectable ordersCatalog catalogPolicy) (draftCalls (ordersService.answer stutteringModel.answers
        "Show the orders" ordersCatalog SafeQueryService.analystContext catalogPolicy).calls) := by
    refine List.mem_append_left _ ?_
    exact List.mem_cons_self
  cases hnothing LLMTokenUsage.inputTokens List.mem_cons_self with
  | inl hnone => cases hnone _ hfirst
  | inr hzero => cases hzero.1 _ hfirst

end Orders
end DataCopilot.Query
