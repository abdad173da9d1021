import DataCopilot.Agent.Authorisation
import DataCopilot.Query.Answer

/-! What an answer does once an audit event is lost. The repair loop takes the loss for one of
the failures that another draft may mend. -/
namespace DataCopilot.Query
open Sql Agent Effects

namespace AnswerCall

def lost : AnswerCall → Prop
  | .query c => c.lost
  | _ => False

/-- A call of the model, or an execution. -/
def issues : AnswerCall → Prop
  | .select _ _ | .draft _ | .query (.execute _ _) => True
  | _ => False

/-- The lost event of a query that was executed. -/
def unrecorded : AnswerCall → Bool
  | .query (.record e (.error _)) => e.executorInvoked
  | _ => false

theorem unrecorded_lost {c : AnswerCall} (h : c.unrecorded = true) : c.lost := by
  cases c with
  | select => cases h
  | draft => cases h
  | query c =>
    cases c with
    | estimate => cases h
    | execute => cases h
    | record e answer =>
      cases answer with
      | ok u => cases h
      | error reason => trivial

end AnswerCall

/-- After the loss of an event, no more is asked of the model and no more is executed, and no
result is returned; so at most one executed query is without its event. -/
structure StopsOnLoss (calls : List AnswerCall) (result : Except AnswerFailure NL2SQLResult) :
    Prop where
  stops : ∀ later c earlier, calls = later ++ c :: earlier → c.lost → ∀ d ∈ later, ¬ d.issues
  raises : ∀ c ∈ calls, c.lost → ∃ f, result = .error f
  once : (calls.filter AnswerCall.unrecorded).length ≤ 1

def Quiet (calls : List AnswerCall) : Prop := ∀ c ∈ calls, ¬ c.lost

section Logs
variable {calls earlier rest : List AnswerCall} {c : AnswerCall}
  {result : Except AnswerFailure NL2SQLResult}

theorem Quiet.append (h : Quiet calls) (he : Quiet earlier) : Quiet (calls ++ earlier) := by
  intro c hc
  rw [List.mem_append] at hc
  obtain hc | hc := hc
  · exact h c hc
  · exact he c hc

theorem Quiet.unrecorded (h : Quiet calls) : calls.filter AnswerCall.unrecorded = [] := by
  rw [List.filter_eq_nil_iff]
  intro c hc hu
  exact h c hc (AnswerCall.unrecorded_lost hu)

theorem Quiet.stops (h : Quiet calls) : StopsOnLoss calls result where
  stops later c earlier he hl := by
    subst he
    exact absurd hl (h c (by simp))
  raises c hc hl := absurd hl (h c hc)
  once := by
    rw [h.unrecorded]
    exact Nat.zero_le 1

/-- A loss that comes last stops what follows, if nothing follows. -/
theorem stops_of_last {f : AnswerFailure} (h : Quiet rest) : StopsOnLoss (c :: rest) (.error f) where
  stops later c' earlier he hl := by
    cases later with
    | nil => simp
    | cons d later =>
      rw [List.cons_append, List.cons.injEq] at he
      obtain ⟨_, rfl⟩ := he
      exact absurd hl (h c' (by simp))
  raises _ _ _ := ⟨f, rfl⟩
  once := by
    rw [List.filter_cons, h.unrecorded]
    split <;> simp

/-- What was quiet before does not matter. -/
theorem stops_append (h : Quiet earlier) :
    StopsOnLoss (calls ++ earlier) result ↔ StopsOnLoss calls result := by
  constructor
  · intro hs
    refine ⟨fun later c before he hl => ?_, fun c hc => ?_, ?_⟩
    · refine hs.stops later c (before ++ earlier) ?_ hl
      rw [he]
      simp
    · exact hs.raises c (List.mem_append_left _ hc)
    · have honce := hs.once
      rw [List.filter_append, h.unrecorded, List.append_nil] at honce
      exact honce
  · intro hs
    refine ⟨fun later c before he hl => ?_, fun c hc hl => ?_, ?_⟩
    · obtain ⟨middle, hlater, hbefore⟩ | ⟨middle, hcalls, hbefore⟩ := List.append_eq_append_iff.mp he
      · exact absurd hl (h c (by rw [hbefore]; simp))
      · cases middle with
        | nil =>
          rw [List.nil_append] at hbefore
          exact absurd hl (h c (by rw [← hbefore]; simp))
        | cons c' middle =>
          rw [List.cons_append, List.cons.injEq] at hbefore
          obtain ⟨rfl, _⟩ := hbefore
          exact hs.stops later c middle hcalls hl
    · rw [List.mem_append] at hc
      obtain hc | hc := hc
      · exact hs.raises c hc hl
      · exact absurd hl (h c hc)
    · rw [List.filter_append, h.unrecorded, List.append_nil]
      exact hs.once

end Logs

/-- An event is lost as the last call, if at all, and the computation goes on with a value. -/
def LostLast {α : Type} (P : α → Prop) (x : Effect AnswerCall AnswerFailure α) : Prop :=
  Quiet x.calls ∨ ∃ c rest a, x.calls = c :: rest ∧ c.lost ∧ Quiet rest ∧ x.result = .ok a ∧ P a

namespace LostLast
variable {α β : Type} {P : α → Prop} {Q : β → Prop} {x : Effect AnswerCall AnswerFailure α}
  {f : α → Effect AnswerCall AnswerFailure β}

theorem bind (hx : Quiet x.calls) (hf : ∀ a, x.result = .ok a → LostLast Q (f a)) :
    LostLast Q (x >>= f) := by
  cases hr : x.result with
  | error e =>
    left
    rw [(Effect.bind_of_error hr).1]
    exact hx
  | ok a =>
    obtain ⟨hcalls, hresult⟩ := Effect.bind_of_ok (f := f) hr
    obtain hq | ⟨c, rest, b, hc, hl, hrest, hb, hP⟩ := hf a hr
    · left
      rw [hcalls]
      exact hq.append hx
    · right
      refine ⟨c, rest ++ x.calls, b, ?_, hl, hrest.append hx, hresult.trans hb, hP⟩
      rw [hcalls, hc, List.cons_append]

theorem map {g : α → β} (h : LostLast P x) (hg : ∀ a, P a → Q (g a)) :
    LostLast Q (x >>= fun a => pure (g a)) := by
  obtain hq | ⟨c, rest, a, hc, hl, hrest, ha, hP⟩ := h
  · exact bind hq fun a _ => .inl (by simp [Quiet])
  · obtain ⟨hcalls, hresult⟩ := Effect.bind_of_ok (f := fun a => (pure (g a) : Effect _ _ β)) ha
    exact .inr ⟨c, rest, g a, hcalls.trans hc, hl, hrest, hresult, hg a hP⟩

end LostLast

theorem quiet_bind {α β : Type} {x : Effect AnswerCall AnswerFailure α}
    {f : α → Effect AnswerCall AnswerFailure β} (hx : Quiet x.calls) (hf : ∀ a, Quiet (f a).calls) :
    Quiet (x >>= f).calls := by
  intro c hc
  obtain ⟨a, _, hc⟩ | hc := Effect.mem_bind_calls.mp hc
  · exact hf a c hc
  · exact hx c hc

theorem require_quiet {α : Type} (r : Except Failure α) : Quiet (require r).calls := by
  cases r with
  | error f => simp [Quiet, require]
  | ok a => simp [Quiet, require]

theorem requireSome_quiet {α : Type} (f : Failure) (o : Option α) : Quiet (requireSome f o).calls := by
  cases o with
  | none => simp [Quiet, requireSome]
  | some a => simp [Quiet, requireSome]

theorem askModel_quiet {α : Type} {c : AnswerCall} (hc : ¬ c.lost) (answer : Except Failure α) :
    Quiet (askModel c answer).calls := by
  simpa [Quiet, askModel] using hc

namespace NL2SQLService
variable {S : NL2SQLService} {w : AnswerWorld} {question : String} {snapshot : SchemaSnapshot}
  {context : QueryContext} {policy : QueryPolicy} {p : Prepared} {repairCount : Nat}
  {prompts : List Prompt} {modelCalls : Nat} {usage : LLMTokenUsage}

theorem prepare_quiet : Quiet (S.prepare w question snapshot policy).calls := by
  refine quiet_bind (require_quiet _) fun safeQuestion => ?_
  refine quiet_bind (require_quiet _) fun items => ?_
  refine quiet_bind (requireSome_quiet _ _) fun _ => ?_
  refine quiet_bind (askModel_quiet id _) fun selection => ?_
  refine quiet_bind (requireSome_quiet _ _) fun selected => ?_
  refine quiet_bind (requireSome_quiet _ _) fun restricted => ?_
  refine quiet_bind (require_quiet _) fun base => ?_
  simp [Quiet]

theorem caught_audit {x : Effect QueryCall Raised SafeQueryOutcome}
    (h : x.result = .error (.safety .audit)) : (caught x).result = .ok (.error .audit) := by
  simp [caught, Effect.result] at h ⊢
  simp [h]

/-- A lost event comes back as a value, which the loop takes for a failed query. -/
theorem caught_lost (sql : String) : LostLast (fun answer => ∃ e, answer = .error e)
    (caught (S.safeQuery.executeGenerated (w.query repairCount) context p.restricted sql)) := by
  obtain hq | ⟨e, reason, rest, hcalls, hrest, hresult⟩ :=
    @SafeQueryService.executeFixed_lost S.safeQuery (w.query repairCount) context p.restricted sql
  · left
    intro c hc
    obtain ⟨c', hc', rfl⟩ := List.mem_map.mp hc
    exact hq c' hc'
  · right
    refine ⟨.query (.record e (.error reason)), rest.map .query, .error .audit, ?_, trivial, ?_, ?_,
      _, rfl⟩
    · change ((S.safeQuery.executeFixed (w.query repairCount) context p.restricted sql).calls).map
        AnswerCall.query = _
      rw [hcalls]
      rfl
    · intro c hc
      obtain ⟨c', hc', rfl⟩ := List.mem_map.mp hc
      exact hrest c' hc'
    · exact caught_audit hresult

theorem attempt_lost : LostLast (fun tried : Tried => ∃ e, tried.answer = .error e)
    (S.attempt w context policy p repairCount prompts modelCalls usage) := by
  refine .bind (require_quiet _) fun items _ => ?_
  refine .bind (askModel_quiet id _) fun drafted _ => ?_
  refine .bind (requireSome_quiet _ _) fun _ _ => ?_
  exact (caught_lost _).map fun _ h => h

/-- An attempt that is not the last one allowed loses its event, and a repair can be asked for. -/
def GoesOn (S : NL2SQLService) (w : AnswerWorld) (context : QueryContext) (policy : QueryPolicy)
    (p : Prepared) : Nat → Nat → List Prompt → Nat → LLMTokenUsage → Prop
  | 0, _, _, _, _ => False
  | rest + 1, repairCount, prompts, modelCalls, usage =>
    ∃ tried e, (S.attempt w context policy p repairCount prompts modelCalls usage).result = .ok tried ∧
      tried.answer = .error e ∧
      (((∃ c ∈ (S.attempt w context policy p repairCount prompts modelCalls usage).calls, c.lost) ∧
          ∃ items, messages (repairMessages p.base tried.draft.sql (safeErrorCode e)) = .ok items) ∨
        GoesOn S w context policy p rest (repairCount + 1)
          (repairMessages p.base tried.draft.sql (safeErrorCode e)) tried.modelCalls tried.usage)

/-- Without prompts the attempt ends at once. -/
theorem attempt_silent {f : Failure} (hm : messages prompts = .error f) :
    (S.attempt w context policy p repairCount prompts modelCalls usage).calls = [] ∧
      (S.attempt w context policy p repairCount prompts modelCalls usage).result =
        .error (.failure f) := by
  have hrequire : (require (messages prompts)).result = .error (.failure f) := by
    rw [hm]
    rfl
  obtain ⟨hcalls, hresult⟩ := Effect.bind_of_error hrequire
  refine ⟨hcalls.trans ?_, hresult⟩
  rw [hm]
  rfl

/-- With prompts it asks the model. -/
theorem attempt_asks {items : List LLMMessage} (hm : messages prompts = .ok items) :
    .draft items ∈ (S.attempt w context policy p repairCount prompts modelCalls usage).calls := by
  have hrequire : (require (messages prompts)).result = .ok items := by
    rw [hm]
    rfl
  refine Effect.mem_bind_calls.mpr (.inl ⟨items, hrequire, ?_⟩)
  exact Effect.mem_bind_calls.mpr (.inr List.mem_cons_self)

section Loop
variable {rest : Nat} {x : Effect AnswerCall AnswerFailure Tried}

theorem loop_of_error {remaining : Nat} {f : AnswerFailure}
    (hx : (S.attempt w context policy p repairCount prompts modelCalls usage).result = .error f) :
    (S.repairLoop w context policy p remaining repairCount prompts modelCalls usage).calls =
        (S.attempt w context policy p repairCount prompts modelCalls usage).calls ∧
      (S.repairLoop w context policy p remaining repairCount prompts modelCalls usage).result =
        .error f := by
  rw [repairLoop]
  exact Effect.bind_of_error hx

theorem loop_of_outcome {remaining : Nat} {tried : Tried} {outcome : SafeQueryOutcome}
    (hx : (S.attempt w context policy p repairCount prompts modelCalls usage).result = .ok tried)
    (ha : tried.answer = .ok outcome) :
    (S.repairLoop w context policy p remaining repairCount prompts modelCalls usage).calls =
      (S.attempt w context policy p repairCount prompts modelCalls usage).calls := by
  rw [repairLoop, (Effect.bind_of_ok hx).1]
  simp only [ha]
  rfl

theorem loop_of_last {tried : Tried} {e : QuerySafetyError}
    (hx : (S.attempt w context policy p repairCount prompts modelCalls usage).result = .ok tried)
    (ha : tried.answer = .error e) :
    (S.repairLoop w context policy p 0 repairCount prompts modelCalls usage).calls =
        (S.attempt w context policy p repairCount prompts modelCalls usage).calls ∧
      (S.repairLoop w context policy p 0 repairCount prompts modelCalls usage).result =
        .error (.repairExhausted (safeErrorCode e)) := by
  rw [repairLoop, (Effect.bind_of_ok hx).1, (Effect.bind_of_ok hx).2]
  simp [ha]

theorem loop_of_repair {tried : Tried} {e : QuerySafetyError}
    (hx : (S.attempt w context policy p repairCount prompts modelCalls usage).result = .ok tried)
    (ha : tried.answer = .error e) :
    (S.repairLoop w context policy p (rest + 1) repairCount prompts modelCalls usage).calls =
        (S.repairLoop w context policy p rest (repairCount + 1)
          (repairMessages p.base tried.draft.sql (safeErrorCode e)) tried.modelCalls tried.usage).calls ++
        (S.attempt w context policy p repairCount prompts modelCalls usage).calls ∧
      (S.repairLoop w context policy p (rest + 1) repairCount prompts modelCalls usage).result =
        (S.repairLoop w context policy p rest (repairCount + 1)
          (repairMessages p.base tried.draft.sql (safeErrorCode e)) tried.modelCalls
          tried.usage).result := by
  rw [repairLoop, (Effect.bind_of_ok hx).1, (Effect.bind_of_ok hx).2]
  simp [ha]

theorem loop_silent {remaining : Nat} {f : Failure} (hm : messages prompts = .error f) :
    (S.repairLoop w context policy p remaining repairCount prompts modelCalls usage).calls = [] ∧
      (S.repairLoop w context policy p remaining repairCount prompts modelCalls usage).result =
        .error (.failure f) := by
  obtain ⟨hnone, hfail⟩ := @attempt_silent S w context policy p repairCount prompts modelCalls usage f hm
  obtain ⟨hcalls, hresult⟩ := @loop_of_error S w context policy p repairCount prompts modelCalls usage
    remaining _ hfail
  exact ⟨hcalls.trans hnone, hresult⟩

/-- The last attempt is all that is left of the loop. -/
theorem loop_last_calls :
    (S.repairLoop w context policy p 0 repairCount prompts modelCalls usage).calls =
      (S.attempt w context policy p repairCount prompts modelCalls usage).calls := by
  cases hx : (S.attempt w context policy p repairCount prompts modelCalls usage).result with
  | error f => exact (loop_of_error hx).1
  | ok tried =>
    cases ha : tried.answer with
    | ok outcome => exact loop_of_outcome hx ha
    | error e => exact (loop_of_last hx ha).1

theorem loop_asks {remaining : Nat} {items : List LLMMessage} (hm : messages prompts = .ok items) :
    .draft items ∈
      (S.repairLoop w context policy p remaining repairCount prompts modelCalls usage).calls := by
  rw [repairLoop]
  exact Effect.mem_bind_calls.mpr (.inr (attempt_asks hm))

theorem goesOn_asks {remaining : Nat}
    (h : GoesOn S w context policy p remaining repairCount prompts modelCalls usage) :
    ∃ items, messages prompts = .ok items := by
  cases remaining with
  | zero => exact h.elim
  | succ rest =>
    obtain ⟨tried, _, hx, _⟩ := h
    cases hm : messages prompts with
    | ok items => exact ⟨items, rfl⟩
    | error f =>
      rw [(attempt_silent hm).2] at hx
      cases hx

end Loop

/-- The induction over the repairs that are left. -/
theorem loop_stops_iff (remaining : Nat) :
    StopsOnLoss (S.repairLoop w context policy p remaining repairCount prompts modelCalls usage).calls
        (S.repairLoop w context policy p remaining repairCount prompts modelCalls usage).result ↔
      ¬ GoesOn S w context policy p remaining repairCount prompts modelCalls usage := by
  induction remaining generalizing repairCount prompts modelCalls usage with
  | zero =>
    refine iff_of_true ?_ id
    obtain hq | ⟨c, rest, tried, hcalls, hl, hrest, hx, e, ha⟩ := @attempt_lost S w context policy p
      repairCount prompts modelCalls usage
    · rw [loop_last_calls]
      exact hq.stops
    · rw [(loop_of_last hx ha).1, (loop_of_last hx ha).2, hcalls]
      exact stops_of_last hrest
  | succ n ih =>
    obtain hq | ⟨c, rest, tried, hcalls, hl, hrest, hx, e, ha⟩ := @attempt_lost S w context policy p
      repairCount prompts modelCalls usage
    · cases hx : (S.attempt w context policy p repairCount prompts modelCalls usage).result with
      | error f =>
        rw [(loop_of_error hx).1]
        refine iff_of_true hq.stops ?_
        rintro ⟨tried, e, hx', _⟩
        rw [hx] at hx'
        cases hx'
      | ok tried =>
        cases ha : tried.answer with
        | ok outcome =>
          rw [loop_of_outcome hx ha]
          refine iff_of_true hq.stops ?_
          rintro ⟨tried', e, hx', ha', _⟩
          rw [hx] at hx'
          cases hx'
          rw [ha] at ha'
          cases ha'
        | error e =>
          rw [(loop_of_repair hx ha).1, (loop_of_repair hx ha).2, stops_append hq, ih, not_iff_not]
          constructor
          · intro h
            exact ⟨tried, e, hx, ha, .inr h⟩
          · rintro ⟨tried', e', hx', ha', h⟩
            rw [hx] at hx'
            cases hx'
            rw [ha] at ha'
            cases ha'
            obtain ⟨⟨c, hc, hl⟩, _⟩ | h := h
            · exact absurd hl (hq c hc)
            · exact h
    · rw [(loop_of_repair hx ha).1, (loop_of_repair hx ha).2, hcalls]
      cases hm : messages (repairMessages p.base tried.draft.sql (safeErrorCode e)) with
      | ok items =>
        refine iff_of_false ?_ ?_
        · intro hs
          exact hs.stops _ c rest rfl hl _ (loop_asks hm) trivial
        · rw [not_not]
          exact ⟨tried, e, hx, ha, .inl ⟨⟨c, by rw [hcalls]; exact List.mem_cons_self, hl⟩, items, hm⟩⟩
      | error f =>
        rw [(loop_silent hm).1, (loop_silent hm).2, List.nil_append]
        refine iff_of_true (stops_of_last hrest) ?_
        rintro ⟨tried', e', hx', ha', h⟩
        rw [hx] at hx'
        cases hx'
        rw [ha] at ha'
        cases ha'
        have hasks : ∃ items, messages (repairMessages p.base tried.draft.sql (safeErrorCode e)) =
            .ok items := by
          obtain ⟨_, hitems⟩ | h := h
          · exact hitems
          · exact goesOn_asks h
        obtain ⟨items, hitems⟩ := hasks
        rw [hm] at hitems
        cases hitems

/-- An answer stops after the loss of an audit event exactly when the event is lost in the last
attempt allowed, or nothing more can be asked of the model. -/
theorem audit_loss_stops_iff (S : NL2SQLService) (w : AnswerWorld) (question : String)
    (snapshot : SchemaSnapshot) (context : QueryContext) (policy : QueryPolicy) :
    StopsOnLoss (S.answer w question snapshot context policy).calls
        (S.answer w question snapshot context policy).result ↔
      ¬ ∃ p, (S.prepare w question snapshot policy).result = .ok p ∧
        GoesOn S w context policy p S.maxRepairs 0 p.base p.modelCalls p.usage := by
  unfold answer
  cases hp : (S.prepare w question snapshot policy).result with
  | error f =>
    rw [(Effect.bind_of_error hp).1]
    refine iff_of_true prepare_quiet.stops ?_
    rintro ⟨p, hp', _⟩
    cases hp'
  | ok p =>
    rw [(Effect.bind_of_ok hp).1, (Effect.bind_of_ok hp).2, stops_append prepare_quiet,
      loop_stops_iff, not_iff_not]
    simp

end NL2SQLService

/-! The list of orders, whose first audit event is lost. -/
section Orders
open NL2SQLService SafeQueryService

def ordersService : NL2SQLService where
  safeQuery := ⟨ordersGraph.actions.guard, SQLGuard.fingerprintQuery ordersLibraries⟩
  questionGuard question := .ok question

def noUsage : LLMTokenUsage := ⟨none, none, none⟩

/-- The sink fails on the first event only. -/
def failingSink : AnswerWorld where
  select _ _ := .ok ⟨⟨["orders"], orders_selectable⟩, "provider", "model", 1, noUsage⟩
  draft _ _ := .ok ⟨ordersDraft, "provider", "model", 1, noUsage⟩
  query repairCount := { emptyWorld with
    record := fun _ => if repairCount = 0 then .error "the audit store is unavailable" else .ok () }

theorem orders_selection_short : ∀ m ∈ selectionMessages "Show the orders" ordersCatalog,
    1 ≤ m.2.length ∧ m.2.length ≤ 50000 := by
  have hs := selectionSystem_length
  intro m hm
  simp only [selectionMessages, List.mem_cons, List.not_mem_nil, or_false] at hm
  obtain rfl | rfl := hm
  · change 1 ≤ selectionSystem.length ∧ selectionSystem.length ≤ 50000
    omega
  · rw [Json.dumpsCompact_length]
    decide +kernel

theorem orders_prepared : ∃ base,
    (ordersService.prepare failingSink "Show the orders" ordersCatalog catalogPolicy).result =
      .ok ⟨["orders"], catalogPolicy, base, 1, noUsage⟩ ∧
    ∀ m ∈ base, 1 ≤ m.2.length ∧ m.2.length ≤ 50000 := by
  obtain ⟨items, hitems⟩ := messages_ok orders_selection_short
  obtain ⟨base, hbase, hshort⟩ := generation_short
  refine ⟨base, ?_, hshort⟩
  refine Effect.bind_result.mpr ⟨"Show the orders", rfl, ?_⟩
  refine Effect.bind_result.mpr ⟨items, by rw [hitems]; rfl, ?_⟩
  refine Effect.bind_result.mpr ⟨(), rfl, ?_⟩
  refine Effect.bind_result.mpr ⟨_, rfl, ?_⟩
  refine Effect.bind_result.mpr ⟨["orders"], rfl, ?_⟩
  refine Effect.bind_result.mpr ⟨catalogPolicy, rfl, ?_⟩
  exact Effect.bind_result.mpr ⟨base, by rw [hbase]; rfl, rfl⟩

theorem orders_lost : ∃ e,
    (ordersService.safeQuery.executeGenerated (failingSink.query 0) analystContext catalogPolicy
      ordersText).calls =
      [.record e (.error "the audit store is unavailable"), .execute ordersGuarded catalogPolicy] ∧
    (ordersService.safeQuery.executeGenerated (failingSink.query 0) analystContext catalogPolicy
      ordersText).result = .error (.safety .audit) := by
  have hg : ordersService.safeQuery.guard ordersText catalogPolicy = .ok ordersGuarded := orders_guard
  unfold executeGenerated executeFixed
  rw [hg]
  exact ⟨_, rfl, rfl⟩

theorem orders_attempted {p : Prepared} (hselected : p.selected = ["orders"])
    (hpolicy : p.restricted = catalogPolicy) {prompts : List Prompt} {items : List LLMMessage}
    (hm : messages prompts = .ok items) {modelCalls : Nat} :
    ∃ tried, (ordersService.attempt failingSink analystContext catalogPolicy p 0 prompts modelCalls
        noUsage).result = .ok tried ∧
      tried.draft = ordersDraft ∧ tried.answer = .error .audit ∧
      ∃ c ∈ (ordersService.attempt failingSink analystContext catalogPolicy p 0 prompts modelCalls
        noUsage).calls, c.lost := by
  obtain ⟨e, hcalls, hresult⟩ := orders_lost
  rw [← hpolicy] at hresult hcalls
  have hitems : (require (messages prompts)).result = .ok items := by
    rw [hm]
    rfl
  have htables : validateDraftTables catalogPolicy ordersDraft p.selected = some () := by
    rw [hselected]
    rfl
  have hrequired : (requireSome schemaSelectionError
      (validateDraftTables catalogPolicy ordersDraft p.selected)).result = .ok () := by
    rw [htables]
    rfl
  let tried : Tried :=
    ⟨ordersDraft, "provider", "model", modelCalls + 1, noUsage.add noUsage, .error .audit⟩
  refine ⟨tried, ?_, rfl, rfl, .query (.record e (.error "the audit store is unavailable")), ?_,
    trivial⟩
  · refine Effect.bind_result.mpr ⟨items, hitems, ?_⟩
    refine Effect.bind_result.mpr ⟨_, rfl, ?_⟩
    refine Effect.bind_result.mpr ⟨(), hrequired, ?_⟩
    exact Effect.bind_result.mpr ⟨_, caught_audit hresult, rfl⟩
  · refine Effect.mem_bind_calls.mpr (.inl ⟨items, hitems, ?_⟩)
    refine Effect.mem_bind_calls.mpr (.inl ⟨_, rfl, ?_⟩)
    refine Effect.mem_bind_calls.mpr (.inl ⟨(), hrequired, ?_⟩)
    refine Effect.mem_bind_calls.mpr (.inr (List.mem_map.mpr ⟨_, ?_, rfl⟩))
    change _ ∈ (ordersService.safeQuery.executeGenerated (failingSink.query 0) analystContext
      p.restricted ordersText).calls
    rw [hcalls]
    exact List.mem_cons_self

/-- The run goes on with another draft of the query that was just executed. -/
theorem lost_event_repaired :
    ¬ StopsOnLoss
      (ordersService.answer failingSink "Show the orders" ordersCatalog analystContext
        catalogPolicy).calls
      (ordersService.answer failingSink "Show the orders" ordersCatalog analystContext
        catalogPolicy).result := by
  obtain ⟨base, hp, hshort⟩ := orders_prepared
  obtain ⟨items, hitems⟩ := messages_ok hshort
  obtain ⟨sent, hsent⟩ := messages_ok (@repair_short base "QUERY_AUDIT_FAILED" (.inr rfl) hshort)
  let p : Prepared := ⟨["orders"], catalogPolicy, base, 1, noUsage⟩
  obtain ⟨tried, hx, hdraft, ha, c, hc, hl⟩ := @orders_attempted p rfl rfl base items hitems 1
  have hsent' : messages (repairMessages p.base tried.draft.sql (safeErrorCode .audit)) = .ok sent := by
    rw [hdraft]
    exact hsent
  obtain ⟨newer, older, hsplit⟩ := List.append_of_mem hc
  have hloop := @loop_of_repair ordersService failingSink analystContext catalogPolicy p 0 base 1
    noUsage 1 tried .audit hx ha
  have hasks := @loop_asks ordersService failingSink analystContext catalogPolicy p 1 _
    tried.modelCalls tried.usage 1 sent hsent'
  unfold answer
  rw [(Effect.bind_of_ok hp).1, (Effect.bind_of_ok hp).2]
  intro hs
  refine hs.stops _ c (older ++ (ordersService.prepare failingSink "Show the orders" ordersCatalog
    catalogPolicy).calls) ?_ hl _ (List.mem_append_left newer hasks) trivial
  refine (congrArg (· ++ _) hloop.1).trans ?_
  rw [hsplit]
  simp

end Orders
end DataCopilot.Query
