import DataCopilot.Query.Accounting

/-! What an answer asks of the model, and how much of the model it depends on. -/
namespace DataCopilot.Query
open Sql Agent Effects

namespace AnswerCall

/-- A call of `generate`. -/
def asks : AnswerCall → Bool
  | .select _ _ | .draft _ => true
  | .query _ => false

end AnswerCall

def modelCalls (calls : List AnswerCall) : Nat := calls.countP AnswerCall.asks

section Calls
variable {β γ : Type} {x : Effect AnswerCall AnswerFailure β} {f : β → Effect AnswerCall AnswerFailure γ}

theorem require_ok (b : β) : require (.ok b) = pure b := rfl
theorem requireSome_some (e : Failure) (b : β) : requireSome e (some b) = pure b := rfl

theorem modelCalls_append {calls earlier : List AnswerCall} :
    modelCalls (calls ++ earlier) = modelCalls calls + modelCalls earlier := List.countP_append

theorem modelCalls_bind {b : β} (h : x.result = .ok b) :
    modelCalls (x >>= f).calls = modelCalls (f b).calls + modelCalls x.calls := by
  rw [(Effect.bind_of_ok h).1, modelCalls_append]

theorem modelCalls_pos {calls : List AnswerCall} {c : AnswerCall} (h : c ∈ calls) (hc : c.asks = true) :
    0 < modelCalls calls := List.countP_pos_iff.mpr ⟨c, h, hc⟩

theorem modelCalls_caught (x : Effect QueryCall Raised SafeQueryOutcome) : modelCalls (caught x).calls = 0 := by
  change List.countP _ (x.calls.map AnswerCall.query) = 0
  rw [List.countP_map, List.countP_eq_zero]
  intro c _
  exact Bool.false_ne_true

theorem modelCalls_askModel {c : AnswerCall} (hc : c.asks = true) (answer : Except Failure β) :
    modelCalls (askModel c answer).calls = 1 := by
  change List.countP _ [c] = 1
  rw [List.countP_singleton, if_pos hc]

/-- What follows without a call of the model does not count. -/
theorem modelCalls_bind_silent (h : ∀ b, modelCalls (f b).calls = 0) :
    modelCalls (x >>= f).calls = modelCalls x.calls := by
  cases hx : x.result with
  | error e => rw [(Effect.bind_of_error hx).1]
  | ok b => rw [modelCalls_bind hx, h, Nat.zero_add]

end Calls

namespace AnswerWorld

/-- Two worlds answer the first question, or a later one, in the same way. -/
def Agrees (names : List String) (w w' : AnswerWorld) : Nat → Prop
  | 0 => ∀ items, w.select items names = w'.select items names
  | repairCount + 1 => ∀ items, w.draft repairCount items = w'.draft repairCount items

end AnswerWorld

namespace NL2SQLService
variable (S : NL2SQLService) {w w' : AnswerWorld} (question : String) (snapshot : SchemaSnapshot)
variable (context : QueryContext) (policy : QueryPolicy)

/-- The question that the model is asked to select tables for, if it is asked. -/
def opening : Option String :=
  match S.questionGuard question with
  | .error _ => none
  | .ok safeQuestion =>
    if (messages (selectionMessages safeQuestion snapshot)).toBool = true ∧
      (policy.allowedTables ∩ (snapshot.tables.map TableMetadata.name).toFinset).Nonempty then some safeQuestion
    else none

/-- The tables, the policy and the prompts with which the model is asked for a draft, if it is asked. -/
def drafting (safeQuestion : String) (selection : TableSelection) :
    Option (List String × QueryPolicy × List Prompt) := do
  let selected ← S.validateSelection snapshot policy selection
  let restricted ← policy.restrictToTables selected.toFinset
  match generationMessages safeQuestion snapshot selected restricted with
  | .error _ => none
  | .ok base =>
    match messages base with
    | .error _ => none
    | .ok _ => some (selected, restricted, base)

/-- The query of the draft fails in a way that asks for another draft, and the model can be asked for it. -/
def mends (w : QueryWorld) (selected : List String) (restricted : QueryPolicy) (base : List Prompt)
    (draft : NL2SQLDraft) : Bool :=
  match validateDraftTables policy draft selected with
  | none => false
  | some () =>
    match (S.safeQuery.executeGenerated w context restricted draft.sql).result with
    | .ok _ | .error (.other _) | .error (.safety (.approvalRequired _ _)) => false
    | .error (.safety e) => (messages (repairMessages base draft.sql (safeErrorCode e))).toBool

variable {S question snapshot context policy} {p : Prepared} {repairCount calls : Nat} {prompts : List Prompt}
variable {usage : LLMTokenUsage}

theorem opening_some {safeQuestion : String} (h : S.opening question snapshot policy = some safeQuestion) :
    S.questionGuard question = .ok safeQuestion ∧
      (∃ items, messages (selectionMessages safeQuestion snapshot) = .ok items) ∧
      (policy.allowedTables ∩ (snapshot.tables.map TableMetadata.name).toFinset).Nonempty := by
  unfold opening at h
  cases hguard : S.questionGuard question with
  | error reasonCode => simp [hguard] at h
  | ok q =>
    simp only [hguard, Option.ite_none_right_eq_some, Option.some.injEq] at h
    obtain ⟨⟨hsent, hallowed⟩, rfl⟩ := h
    refine ⟨rfl, ?_, hallowed⟩
    cases hitems : messages (selectionMessages q snapshot) with
    | error f =>
      rw [hitems] at hsent
      cases hsent
    | ok items => exact ⟨items, rfl⟩

theorem opening_of {safeQuestion : String} {items : List LLMMessage}
    (hguard : S.questionGuard question = .ok safeQuestion)
    (hitems : messages (selectionMessages safeQuestion snapshot) = .ok items)
    (hallowed : (policy.allowedTables ∩ (snapshot.tables.map TableMetadata.name).toFinset).Nonempty) :
    S.opening question snapshot policy = some safeQuestion := by
  unfold opening
  rw [hguard]
  exact if_pos ⟨by rw [hitems]; rfl, hallowed⟩

theorem drafting_of {safeQuestion : String} {selection : TableSelection} {selected : List String}
    {restricted : QueryPolicy} {base : List Prompt} {items : List LLMMessage}
    (hselected : S.validateSelection snapshot policy selection = some selected)
    (hrestricted : policy.restrictToTables selected.toFinset = some restricted)
    (hbase : generationMessages safeQuestion snapshot selected restricted = .ok base)
    (hitems : messages base = .ok items) :
    S.drafting snapshot policy safeQuestion selection = some (selected, restricted, base) := by
  unfold drafting
  rw [hselected]
  simp only [Option.bind_eq_bind, Option.bind_some, hrestricted, hbase, hitems]

/-- Without an opening nothing is asked. -/
theorem prepare_closed (h : S.opening question snapshot policy = none) :
    (S.prepare w question snapshot policy).calls = [] ∧
      ∃ f, (S.prepare w question snapshot policy).result = .error f := by
  unfold prepare
  cases hguard : S.questionGuard question with
  | error reasonCode => exact ⟨rfl, _, rfl⟩
  | ok q =>
    rw [require_ok, Effect.pure_bind]
    cases hitems : messages (selectionMessages q snapshot) with
    | error f => exact ⟨rfl, _, rfl⟩
    | ok items =>
      rw [require_ok, Effect.pure_bind]
      by_cases hallowed : (policy.allowedTables ∩ (snapshot.tables.map TableMetadata.name).toFinset).Nonempty
      · rw [opening_of hguard hitems hallowed] at h
        cases h
      · simp only [if_neg hallowed]
        exact ⟨rfl, _, rfl⟩

/-- The rest of `prepare`, once the model has selected. -/
def settle (S : NL2SQLService) (snapshot : SchemaSnapshot) (policy : QueryPolicy) (safeQuestion : String)
    (selection : StructuredLLMResult TableSelection) : Effect AnswerCall AnswerFailure Prepared := do
  let selected ← requireSome schemaSelectionError (S.validateSelection snapshot policy selection.output)
  let restricted ← requireSome (valueError "selected tables must be a non-empty subset of the policy")
    (policy.restrictToTables selected.toFinset)
  let base ← require (generationMessages safeQuestion snapshot selected restricted)
  pure ⟨selected, restricted, base, selection.attempts, selection.usage⟩

theorem prepare_open {safeQuestion : String} (h : S.opening question snapshot policy = some safeQuestion) :
    ∃ items, ∀ w, S.prepare w question snapshot policy =
      askModel (.select items (selectable snapshot policy)) (w.select items (selectable snapshot policy)) >>=
        S.settle snapshot policy safeQuestion := by
  obtain ⟨hguard, ⟨items, hitems⟩, hallowed⟩ := opening_some h
  refine ⟨items, fun w => ?_⟩
  simp only [prepare, hguard, require_ok, Effect.pure_bind, hitems, if_pos hallowed, requireSome_some]
  rfl

theorem settle_silent {safeQuestion : String} {selection : StructuredLLMResult TableSelection} :
    modelCalls (S.settle snapshot policy safeQuestion selection).calls = 0 := by
  unfold settle
  cases S.validateSelection snapshot policy selection.output with
  | none => rfl
  | some selected =>
    rw [requireSome_some, Effect.pure_bind]
    cases policy.restrictToTables selected.toFinset with
    | none => rfl
    | some restricted =>
      rw [requireSome_some, Effect.pure_bind]
      cases generationMessages safeQuestion snapshot selected restricted with
      | error f => rfl
      | ok base => rfl

/-- What is settled before the first draft, or why it is not asked for. -/
theorem settle_cases (safeQuestion : String) (selection : StructuredLLMResult TableSelection) :
    match S.drafting snapshot policy safeQuestion selection.output with
    | some (selected, restricted, base) =>
      (∃ items, messages base = .ok items) ∧ (S.settle snapshot policy safeQuestion selection).result =
        .ok ⟨selected, restricted, base, selection.attempts, selection.usage⟩
    | none => (∃ f, (S.settle snapshot policy safeQuestion selection).result = .error f) ∨
      ∃ p f, (S.settle snapshot policy safeQuestion selection).result = .ok p ∧ messages p.base = .error f := by
  unfold settle drafting
  cases S.validateSelection snapshot policy selection.output with
  | none => exact .inl ⟨_, rfl⟩
  | some selected =>
    simp only [Option.bind_eq_bind, Option.bind_some, requireSome_some, Effect.pure_bind]
    cases policy.restrictToTables selected.toFinset with
    | none => exact .inl ⟨_, rfl⟩
    | some restricted =>
      simp only [Option.bind_some, requireSome_some, Effect.pure_bind]
      cases generationMessages safeQuestion snapshot selected restricted with
      | error f => exact .inl ⟨_, rfl⟩
      | ok base =>
        simp only [require_ok, Effect.pure_bind]
        cases hm : messages base with
        | error f => exact .inr ⟨_, f, rfl, hm⟩
        | ok items => exact ⟨⟨items, hm⟩, rfl⟩

section Congruence

theorem prepare_congr (h : 0 < modelCalls (S.prepare w question snapshot policy).calls →
    w.Agrees (selectable snapshot policy) w' 0) :
    S.prepare w question snapshot policy = S.prepare w' question snapshot policy := by
  unfold prepare at h ⊢
  refine Effect.bind_congr fun safeQuestion hq => ?_
  refine Effect.bind_congr fun items hitems => ?_
  refine Effect.bind_congr fun _ hallowed => ?_
  have hagrees : w.Agrees (selectable snapshot policy) w' 0 := by
    refine h (modelCalls_pos ?_ (c := .select items (selectable snapshot policy)) rfl)
    refine Effect.mem_bind_calls.mpr (.inl ⟨safeQuestion, hq, ?_⟩)
    refine Effect.mem_bind_calls.mpr (.inl ⟨items, hitems, ?_⟩)
    refine Effect.mem_bind_calls.mpr (.inl ⟨(), hallowed, ?_⟩)
    exact Effect.mem_bind_calls.mpr (.inr List.mem_cons_self)
  have hsame := hagrees items
  unfold selectable at hsame
  simp only [hsame]

theorem prepare_asked (h : (S.prepare w question snapshot policy).result = .ok p) :
    0 < modelCalls (S.prepare w question snapshot policy).calls := by
  cases ho : S.opening question snapshot policy with
  | none =>
    obtain ⟨f, hf⟩ := (prepare_closed (w := w) ho).2
    rw [hf] at h
    cases h
  | some safeQuestion =>
    obtain ⟨items, hitems⟩ := prepare_open ho
    rw [hitems w, modelCalls_bind_silent fun _ => settle_silent, modelCalls_askModel rfl]
    exact Nat.one_pos

theorem attempt_congr (hquery : w.query = w'.query)
    (h : ∀ items, w.draft repairCount items = w'.draft repairCount items) :
    S.attempt w context policy p repairCount prompts calls usage =
      S.attempt w' context policy p repairCount prompts calls usage := by
  unfold attempt
  simp only [h, hquery]

theorem attempt_asked {tried : Tried}
    (h : (S.attempt w context policy p repairCount prompts calls usage).result = .ok tried) :
    0 < modelCalls (S.attempt w context policy p repairCount prompts calls usage).calls := by
  cases hm : messages prompts with
  | ok items => exact modelCalls_pos (attempt_asks hm) rfl
  | error f =>
    rw [(attempt_silent hm).2] at h
    cases h

theorem loop_attempt (hquery : w.query = w'.query) {remaining : Nat}
    (h : ∀ j < modelCalls (S.repairLoop w context policy p remaining repairCount prompts calls usage).calls,
      ∀ items, w.draft (repairCount + j) items = w'.draft (repairCount + j) items) :
    S.attempt w context policy p repairCount prompts calls usage =
      S.attempt w' context policy p repairCount prompts calls usage := by
  cases hm : messages prompts with
  | ok items => exact attempt_congr hquery (h 0 (modelCalls_pos (loop_asks hm) rfl))
  | error f =>
    unfold attempt
    rw [hm]
    rfl

/-- By the repairs that are left: the loop depends on the drafts that it asks for. -/
theorem loop_congr (hquery : w.query = w'.query) {remaining : Nat}
    (h : ∀ j < modelCalls (S.repairLoop w context policy p remaining repairCount prompts calls usage).calls,
      ∀ items, w.draft (repairCount + j) items = w'.draft (repairCount + j) items) :
    S.repairLoop w context policy p remaining repairCount prompts calls usage =
      S.repairLoop w' context policy p remaining repairCount prompts calls usage := by
  induction remaining generalizing repairCount prompts calls usage with
  | zero =>
    have hattempt := loop_attempt hquery h
    rw [repairLoop, repairLoop, hattempt]
  | succ rest ih =>
    have hattempt := loop_attempt hquery h
    rw [repairLoop, repairLoop, ← hattempt]
    refine Effect.bind_congr fun tried hx => ?_
    cases ha : tried.answer with
    | ok outcome => rfl
    | error e =>
      refine ih fun j hj items => ?_
      rw [Nat.add_assoc, Nat.add_comm 1 j]
      refine h (j + 1) ?_ items
      rw [(loop_of_repair hx ha).1, modelCalls_append]
      exact Nat.add_lt_add_of_lt_of_le hj (attempt_asked hx)

/-- An answer depends on the replies of the model that it asks for. -/
theorem answer_congr (hquery : w.query = w'.query)
    (h : ∀ j < modelCalls (S.answer w question snapshot context policy).calls,
      w.Agrees (selectable snapshot policy) w' j) :
    S.answer w question snapshot context policy = S.answer w' question snapshot context policy := by
  have hprepare : S.prepare w question snapshot policy = S.prepare w' question snapshot policy := by
    refine prepare_congr fun hasked => h 0 (Nat.lt_of_lt_of_le hasked ?_)
    unfold answer
    cases hp : (S.prepare w question snapshot policy).result with
    | error f => rw [(Effect.bind_of_error hp).1]
    | ok p =>
      rw [modelCalls_bind hp]
      exact Nat.le_add_left _ _
  unfold answer at h ⊢
  rw [← hprepare]
  refine Effect.bind_congr fun p hp => loop_congr hquery fun j hj items => ?_
  rw [Nat.zero_add]
  refine h (j + 1) ?_ items
  rw [modelCalls_bind hp]
  exact Nat.add_lt_add_of_lt_of_le hj (prepare_asked hp)

end Congruence

section Counts
variable {safeQuestion : String} {r : StructuredLLMResult TableSelection} {d : StructuredLLMResult NL2SQLDraft}
variable {f : Failure}

theorem answer_closed (h : S.opening question snapshot policy = none) :
    modelCalls (S.answer w question snapshot context policy).calls = 0 := by
  obtain ⟨hcalls, f, hf⟩ := prepare_closed (w := w) h
  unfold answer
  rw [(Effect.bind_of_error hf).1, hcalls]
  rfl

theorem prepare_count (h : S.opening question snapshot policy = some safeQuestion) :
    modelCalls (S.prepare w question snapshot policy).calls = 1 := by
  obtain ⟨items, hitems⟩ := prepare_open h
  rw [hitems w, modelCalls_bind_silent fun _ => settle_silent, modelCalls_askModel rfl]

theorem prepare_refused (h : S.opening question snapshot policy = some safeQuestion)
    (hselect : ∀ items, w.select items (selectable snapshot policy) = .error f) :
    (S.prepare w question snapshot policy).result = .error (.failure f) := by
  obtain ⟨items, hitems⟩ := prepare_open h
  rw [hitems w, hselect items]
  rfl

theorem answer_refused (h : S.opening question snapshot policy = some safeQuestion)
    (hselect : ∀ items, w.select items (selectable snapshot policy) = .error f) :
    modelCalls (S.answer w question snapshot context policy).calls = 1 := by
  unfold answer
  rw [(Effect.bind_of_error (prepare_refused h hselect)).1, prepare_count h]

theorem prepare_settled (h : S.opening question snapshot policy = some safeQuestion)
    (hselect : ∀ items, w.select items (selectable snapshot policy) = .ok r) :
    (S.prepare w question snapshot policy).result = (S.settle snapshot policy safeQuestion r).result := by
  obtain ⟨items, hitems⟩ := prepare_open h
  have hask : (askModel (.select items (selectable snapshot policy))
      (w.select items (selectable snapshot policy))).result = .ok r := askModel_ok.mpr (hselect items)
  rw [hitems w, (Effect.bind_of_ok hask).2]

theorem answer_undrafted (h : S.opening question snapshot policy = some safeQuestion)
    (hselect : ∀ items, w.select items (selectable snapshot policy) = .ok r)
    (hdraft : S.drafting snapshot policy safeQuestion r.output = none) :
    modelCalls (S.answer w question snapshot context policy).calls = 1 := by
  have hsettle := @settle_cases S snapshot policy safeQuestion r
  rw [hdraft, ← prepare_settled h hselect] at hsettle
  unfold answer
  obtain ⟨f, hf⟩ | ⟨p, f, hp, hm⟩ := hsettle
  · rw [(Effect.bind_of_error hf).1, prepare_count h]
  · rw [modelCalls_bind hp, (loop_silent hm).1, prepare_count h]
    rfl

theorem answer_drafted {selected : List String} {restricted : QueryPolicy} {base : List Prompt}
    (h : S.opening question snapshot policy = some safeQuestion)
    (hselect : ∀ items, w.select items (selectable snapshot policy) = .ok r)
    (hdraft : S.drafting snapshot policy safeQuestion r.output = some (selected, restricted, base)) :
    (∃ items, messages base = .ok items) ∧ modelCalls (S.answer w question snapshot context policy).calls =
      modelCalls (S.repairLoop w context policy ⟨selected, restricted, base, r.attempts, r.usage⟩ S.maxRepairs 0 base
        r.attempts r.usage).calls + 1 := by
  have hsettle := @settle_cases S snapshot policy safeQuestion r
  rw [hdraft, ← prepare_settled h hselect] at hsettle
  unfold answer
  rw [modelCalls_bind hsettle.2, prepare_count h]
  exact ⟨hsettle.1, rfl⟩

theorem attempt_count {items : List LLMMessage} (hm : messages prompts = .ok items) :
    modelCalls (S.attempt w context policy p repairCount prompts calls usage).calls = 1 := by
  unfold attempt
  rw [hm, require_ok, Effect.pure_bind, modelCalls_bind_silent, modelCalls_askModel rfl]
  intro drafted
  cases validateDraftTables policy drafted.output p.selected with
  | none => rfl
  | some u =>
    rw [requireSome_some, Effect.pure_bind, modelCalls_bind_silent fun _ => rfl, modelCalls_caught]

/-- What the loop makes of an exception of the query. -/
def caughtError : Raised → Except AnswerFailure (Except QuerySafetyError SafeQueryOutcome)
  | .other name => .error (.query (.other name))
  | .safety (.approvalRequired reason estimate) => .error (.query (.safety (.approvalRequired reason estimate)))
  | .safety e => .ok (.error e)

theorem caught_error {x : Effect QueryCall Raised SafeQueryOutcome} {raised : Raised}
    (h : x.result = .error raised) : (caught x).result = caughtError raised := by
  have hx : x.outcome = .error raised := h
  unfold caught Effect.result
  rw [hx]
  cases raised with
  | other name => rfl
  | safety e => cases e <;> rfl

/-- An attempt with a draft ends for good, or with an error that is mended exactly if the prompts can be sent. -/
theorem attempt_mends {items : List LLMMessage} (hm : messages prompts = .ok items)
    (hdraft : ∀ items, w.draft repairCount items = .ok d) :
    (S.mends context policy (w.query repairCount) p.selected p.restricted p.base d.output = false ∧
      ((∃ f, (S.attempt w context policy p repairCount prompts calls usage).result = .error f) ∨
        ∃ tried outcome, (S.attempt w context policy p repairCount prompts calls usage).result = .ok tried ∧
          tried.answer = .ok outcome)) ∨
    ∃ tried e, (S.attempt w context policy p repairCount prompts calls usage).result = .ok tried ∧
      tried.answer = .error e ∧ tried.draft = d.output ∧
      S.mends context policy (w.query repairCount) p.selected p.restricted p.base d.output =
        (messages (repairMessages p.base d.output.sql (safeErrorCode e))).toBool := by
  have hask : (askModel (.draft items) (w.draft repairCount items)).result = .ok d := askModel_ok.mpr (hdraft items)
  unfold attempt mends
  rw [hm, require_ok, Effect.pure_bind, (Effect.bind_of_ok hask).2]
  cases validateDraftTables policy d.output p.selected with
  | none => exact .inl ⟨rfl, .inl ⟨_, rfl⟩⟩
  | some u =>
    rw [requireSome_some, Effect.pure_bind]
    cases hx : (S.safeQuery.executeGenerated (w.query repairCount) context p.restricted d.output.sql).result with
    | ok outcome =>
      have hcaught := caught_ok hx
      rw [(Effect.bind_of_ok hcaught).2]
      exact .inl ⟨rfl, .inr ⟨_, outcome, rfl, rfl⟩⟩
    | error raised =>
      have hcaught := caught_error hx
      cases raised with
      | other name => exact .inl ⟨rfl, .inl ⟨_, (Effect.bind_of_error hcaught).2⟩⟩
      | safety e =>
        cases e with
        | approvalRequired reason estimate => exact .inl ⟨rfl, .inl ⟨_, (Effect.bind_of_error hcaught).2⟩⟩
        | _ => exact .inr ⟨_, _, (Effect.bind_of_ok hcaught).2, rfl, rfl, rfl⟩

theorem loop_refused {items : List LLMMessage} {remaining : Nat} (hm : messages prompts = .ok items)
    (hdraft : ∀ items, w.draft repairCount items = .error f) :
    modelCalls (S.repairLoop w context policy p remaining repairCount prompts calls usage).calls = 1 := by
  have hattempt : (S.attempt w context policy p repairCount prompts calls usage).result = .error (.failure f) := by
    unfold attempt
    rw [hm, require_ok, Effect.pure_bind, hdraft items]
    rfl
  rw [(loop_of_error hattempt).1, attempt_count hm]

theorem loop_unmended {items : List LLMMessage} {remaining : Nat} (hm : messages prompts = .ok items)
    (hdraft : ∀ items, w.draft repairCount items = .ok d)
    (hn : S.mends context policy (w.query repairCount) p.selected p.restricted p.base d.output = false) :
    modelCalls (S.repairLoop w context policy p remaining repairCount prompts calls usage).calls = 1 := by
  obtain ⟨_, ⟨f, hf⟩ | ⟨tried, outcome, hx, ha⟩⟩ | ⟨tried, e, hx, ha, hd, hmends⟩ :=
    @attempt_mends S w context policy p repairCount calls prompts usage d items hm hdraft
  · rw [(loop_of_error hf).1, attempt_count hm]
  · rw [loop_of_outcome hx ha, attempt_count hm]
  · cases remaining with
    | zero => rw [(loop_of_last hx ha).1, attempt_count hm]
    | succ rest =>
      cases hrepair : messages (repairMessages p.base d.output.sql (safeErrorCode e)) with
      | ok sent =>
        rw [hn, hrepair] at hmends
        cases hmends
      | error f =>
        rw [(loop_of_repair hx ha).1, hd, (loop_silent hrepair).1, List.nil_append, attempt_count hm]

theorem loop_mended {items : List LLMMessage} {rest : Nat} (hm : messages prompts = .ok items)
    (hdraft : ∀ items, w.draft repairCount items = .ok d)
    (hn : S.mends context policy (w.query repairCount) p.selected p.restricted p.base d.output = true) :
    2 ≤ modelCalls (S.repairLoop w context policy p (rest + 1) repairCount prompts calls usage).calls := by
  obtain ⟨hno, _⟩ | ⟨tried, e, hx, ha, hd, hmends⟩ :=
    @attempt_mends S w context policy p repairCount calls prompts usage d items hm hdraft
  · rw [hn] at hno
    cases hno
  · cases hrepair : messages (repairMessages p.base d.output.sql (safeErrorCode e)) with
    | error f =>
      rw [hn, hrepair] at hmends
      cases hmends
    | ok sent =>
      rw [(loop_of_repair hx ha).1, modelCalls_append, attempt_count hm, hd]
      have hasks := modelCalls_pos (@loop_asks S w context policy p (repairCount + 1) _ tried.modelCalls tried.usage
        rest sent hrepair) rfl
      omega

theorem answer_at_once {selected : List String} {restricted : QueryPolicy} {base : List Prompt}
    {outcome : SafeQueryOutcome} (h : S.opening question snapshot policy = some safeQuestion)
    (hselect : ∀ items, w.select items (selectable snapshot policy) = .ok r)
    (hdrafting : S.drafting snapshot policy safeQuestion r.output = some (selected, restricted, base))
    (hdraft : ∀ items, w.draft 0 items = .ok d) (htables : validateDraftTables policy d.output selected = some ())
    (hx : (S.safeQuery.executeGenerated (w.query 0) context restricted d.output.sql).result = .ok outcome) :
    ∃ r, (S.answer w question snapshot context policy).result = .ok r ∧ r.outcome = outcome ∧ r.repairCount = 0 := by
  have hsettle := @settle_cases S snapshot policy safeQuestion r
  rw [hdrafting, ← prepare_settled h hselect] at hsettle
  obtain ⟨⟨items, hitems⟩, hprepare⟩ := hsettle
  have hask : (askModel (.draft items) (w.draft 0 items)).result = .ok d := askModel_ok.mpr (hdraft items)
  have hattempt : (S.attempt w context policy ⟨selected, restricted, base, r.attempts, r.usage⟩ 0 base r.attempts
      r.usage).result = .ok ⟨d.output, d.provider, d.model, r.attempts + d.attempts, r.usage.add d.usage,
        .ok outcome⟩ := by
    unfold attempt
    rw [hitems, require_ok, Effect.pure_bind, (Effect.bind_of_ok hask).2]
    simp only [htables, requireSome_some, Effect.pure_bind]
    rw [(Effect.bind_of_ok (caught_ok hx)).2]
    rfl
  unfold answer
  rw [(Effect.bind_of_ok hprepare).2, repairLoop, (Effect.bind_of_ok hattempt).2]
  exact ⟨_, rfl, rfl, rfl⟩

end Counts

end NL2SQLService
end DataCopilot.Query
