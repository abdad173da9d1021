import DataCopilot.Evaluation.Replay

/-! Which replays score each case on its own. The script stays in step only behind cases that ask for both of their
responses and no more. -/
namespace DataCopilot.Evaluation
open Sql Agent Effects Query Script

section Client
variable {α : Type} {model : String} {validate : String → Except (List String) α} {r r' : ScriptedResponse}
variable {q : List ScriptedResponse} {output : α} {issues issues' : List String}

theorem scripted_nil : goldClient.scripted model validate [] = ⟨.error scriptExhausted, [], true⟩ := rfl

theorem scripted_first (h : validate r.content = .ok output) :
    goldClient.scripted model validate (r :: q) = ⟨.ok ⟨output, "fake", model, 1, noUsage⟩, q, false⟩ := by
  simp [StructuredLLMClient.scripted, goldClient, StructuredLLMClient.scriptedFrom, h]

theorem scripted_second (h : validate r.content = .error issues) (h' : validate r'.content = .ok output) :
    goldClient.scripted model validate (r :: r' :: q) = ⟨.ok ⟨output, "fake", model, 2, noUsage⟩, q, false⟩ := by
  simp [StructuredLLMClient.scripted, goldClient, StructuredLLMClient.scriptedFrom, h, h']

theorem scripted_refused (h : validate r.content = .error issues) (h' : validate r'.content = .error issues') :
    goldClient.scripted model validate (r :: r' :: q) =
      ⟨.error (GenerateFailure.llm ⟨.invalidResponse, issues'⟩).failure, q, false⟩ := by
  simp [StructuredLLMClient.scripted, goldClient, StructuredLLMClient.scriptedFrom, h, h']

/-- The second attempt that a refused response costs finds none. -/
theorem scripted_short (h : validate r.content = .error issues) :
    goldClient.scripted model validate [r] = ⟨.error scriptExhausted, [], true⟩ := by
  simp [StructuredLLMClient.scripted, goldClient, StructuredLLMClient.scriptedFrom, h]

end Client

namespace Runner
variable {R : Runner} {policy : QueryPolicy} {c : ScriptedCase}

section Demand
variable {expected : SafeQueryOutcome} {answers : ∀ j, Question j}

theorem asked_failed {e : Raised} (h : (R.expected policy c.case).result = .error e) :
    R.asked policy c.case answers = 0 := by
  unfold asked evaluateCase
  rw [h]
  rfl

theorem asked_answered (h : (R.expected policy c.case).result = .ok expected) :
    R.asked policy c.case answers = modelCalls (R.service.answer (R.world c.case answers) c.case.question R.snapshot
      (R.context c.case.id) policy).calls := by
  unfold asked evaluateCase
  rw [h]
  rfl

theorem demand_of_one {turn : Turn ScriptedResponse (Question 0)}
    (ht : R.rounds policy 0 c.responses = turn) (hdry : turn.dry = false)
    (hasked : R.asked policy c.case (answer (R.rounds policy) c.responses) = 1) :
    (R.part policy c).demand = 2 - turn.rest.length := by
  have hone : before (R.rounds policy) c.responses 1 = turn.rest := congrArg Turn.rest ht
  rw [demand_of_settled hasked, hone]
  intro j hj
  obtain rfl := Nat.lt_one_iff.mp hj
  exact (congrArg Turn.dry ht).trans hdry

variable {safeQuestion : String} {selection : TableSelection} {rest : List ScriptedResponse} {attempts : Nat}
variable {selected : List String} {restricted : QueryPolicy} {base : List Prompt}

/-- The selection is accepted, but the case does not come to a draft. -/
theorem asked_undrafted (hx : (R.expected policy c.case).result = .ok expected)
    (ho : R.service.opening c.case.question R.snapshot policy = some safeQuestion)
    (hselect : answers 0 = .ok ⟨selection, "fake", goldModel, attempts, noUsage⟩)
    (hd : R.service.drafting R.snapshot policy safeQuestion selection = none) :
    R.asked policy c.case answers = 1 := by
  rw [asked_answered hx]
  exact NL2SQLService.answer_undrafted ho (fun _ => hselect) hd

/-- The selection is accepted, and the case comes to a draft. -/
theorem asked_drafted (hx : (R.expected policy c.case).result = .ok expected)
    (ho : R.service.opening c.case.question R.snapshot policy = some safeQuestion)
    (hselect : answers 0 = .ok ⟨selection, "fake", goldModel, attempts, noUsage⟩)
    (hd : R.service.drafting R.snapshot policy safeQuestion selection = some (selected, restricted, base)) :
    (∃ items, messages base = .ok items) ∧ R.asked policy c.case answers =
      modelCalls (R.service.repairLoop (R.world c.case answers) (R.context c.case.id) policy
        ⟨selected, restricted, base, attempts, noUsage⟩ R.service.maxRepairs 0 base attempts noUsage).calls + 1 := by
  rw [asked_answered hx]
  have hworld : ∀ items, (R.world c.case answers).select items (NL2SQLService.selectable R.snapshot policy) =
      .ok ⟨selection, "fake", goldModel, attempts, noUsage⟩ := fun _ => hselect
  exact NL2SQLService.answer_drafted ho hworld hd

/-- The draft that is asked for is not there, or is refused. -/
theorem demand_short (hx : (R.expected policy c.case).result = .ok expected)
    (ho : R.service.opening c.case.question R.snapshot policy = some safeQuestion)
    (ht : R.rounds policy 0 c.responses = ⟨.ok ⟨selection, "fake", goldModel, attempts, noUsage⟩, rest, false⟩)
    (hd : R.service.drafting R.snapshot policy safeQuestion selection = some (selected, restricted, base))
    (hrest : goldClient.scripted goldModel R.draft rest = ⟨.error scriptExhausted, [], true⟩) :
    (R.part policy c).demand = 3 := by
  have hone : before (R.rounds policy) c.responses 1 = rest := congrArg Turn.rest ht
  have hround : R.rounds policy 1 (before (R.rounds policy) c.responses 1) = ⟨.error scriptExhausted, [], true⟩ := by
    rw [hone]
    exact hrest
  have hselect : answer (R.rounds policy) c.responses 0 = .ok ⟨selection, "fake", goldModel, attempts, noUsage⟩ :=
    congrArg Turn.value ht
  obtain ⟨⟨items, hitems⟩, hasked⟩ := asked_drafted hx ho hselect hd
  have hdraft : answer (R.rounds policy) c.responses 1 = .error scriptExhausted := congrArg Turn.value hround
  rw [NL2SQLService.loop_refused hitems fun _ => hdraft] at hasked
  refine demand_of_dry (j := 1) ?_ (congrArg Turn.dry hround)
  rw [hasked]
  exact Nat.one_lt_two

/-- The selection is accepted at once, and the draft is left. -/
theorem demand_first (hx : (R.expected policy c.case).result = .ok expected)
    (ho : R.service.opening c.case.question R.snapshot policy = some safeQuestion)
    (hs : R.selection (NL2SQLService.selectable R.snapshot policy) c.selection.content = .ok selection) :
    (R.part policy c).demand =
      match R.service.drafting R.snapshot policy safeQuestion selection with
      | none => 1
      | some (selected, restricted, base) =>
        match R.draft c.draft.content with
        | .error _ => 3
        | .ok draft =>
          if R.service.mends (R.context c.case.id) policy (R.candidateWorld c.case.id 0) selected restricted base draft
          then 3 else 2 := by
  have ht : R.rounds policy 0 c.responses = ⟨.ok ⟨selection, "fake", goldModel, 1, noUsage⟩, [c.draft], false⟩ :=
    scripted_first hs
  cases hd : R.service.drafting R.snapshot policy safeQuestion selection with
  | none => exact demand_of_one ht rfl (asked_undrafted hx ho (congrArg Turn.value ht) hd)
  | some drafting =>
    obtain ⟨selected, restricted, base⟩ := drafting
    cases hdraft : R.draft c.draft.content with
    | error issues => exact demand_short hx ho ht hd (scripted_short hdraft)
    | ok draft =>
      have hone : before (R.rounds policy) c.responses 1 = [c.draft] := congrArg Turn.rest ht
      have hround : R.rounds policy 1 (before (R.rounds policy) c.responses 1) =
          ⟨.ok ⟨draft, "fake", goldModel, 1, noUsage⟩, [], false⟩ := by
        rw [hone]
        exact scripted_first hdraft
      have htwo : before (R.rounds policy) c.responses 2 = [] := congrArg Turn.rest hround
      have hanswer : answer (R.rounds policy) c.responses 1 = .ok ⟨draft, "fake", goldModel, 1, noUsage⟩ :=
        congrArg Turn.value hround
      have hselect : answer (R.rounds policy) c.responses 0 = .ok ⟨selection, "fake", goldModel, 1, noUsage⟩ :=
        congrArg Turn.value ht
      obtain ⟨⟨items, hitems⟩, hasked⟩ := asked_drafted hx ho hselect hd
      cases hmends : R.service.mends (R.context c.case.id) policy (R.candidateWorld c.case.id 0) selected restricted
          base draft with
      | false =>
        rw [NL2SQLService.loop_unmended hitems (fun _ => hanswer) hmends] at hasked
        simp only [hmends]
        rw [demand_of_settled hasked, htwo]
        · rfl
        · intro j hj
          obtain rfl | rfl : j = 0 ∨ j = 1 := by omega
          · exact congrArg Turn.dry ht
          · exact congrArg Turn.dry hround
      | true =>
        have hdrafted : ∀ items, (R.world c.case (answer (R.rounds policy) c.responses)).draft 0 items =
            .ok ⟨draft, "fake", goldModel, 1, noUsage⟩ := fun _ => hanswer
        have htwice := @NL2SQLService.loop_mended R.service _ (R.context c.case.id) policy
          ⟨selected, restricted, base, 1, noUsage⟩ 0 1 base noUsage _ items 1 hitems hdrafted hmends
        simp only [hmends, if_true]
        refine demand_of_dry (j := 2) ?_ ?_
        · rw [hasked]
          exact Nat.lt_succ_of_le htwice
        · rw [htwo]
          rfl

/-- The selection is refused, and the draft is read in its place. -/
theorem demand_second {issues : List String} (hx : (R.expected policy c.case).result = .ok expected)
    (ho : R.service.opening c.case.question R.snapshot policy = some safeQuestion)
    (hs : R.selection (NL2SQLService.selectable R.snapshot policy) c.selection.content = .error issues) :
    (R.part policy c).demand =
      match R.selection (NL2SQLService.selectable R.snapshot policy) c.draft.content with
      | .error _ => 2
      | .ok selection => if (R.service.drafting R.snapshot policy safeQuestion selection).isSome then 3 else 2 := by
  cases hs' : R.selection (NL2SQLService.selectable R.snapshot policy) c.draft.content with
  | error issues' =>
    have ht : R.rounds policy 0 c.responses =
        ⟨.error (GenerateFailure.llm ⟨.invalidResponse, issues'⟩).failure, [], false⟩ := scripted_refused hs hs'
    refine demand_of_one ht rfl ?_
    rw [asked_answered hx]
    exact NL2SQLService.answer_refused ho fun _ => congrArg Turn.value ht
  | ok selection =>
    have ht : R.rounds policy 0 c.responses = ⟨.ok ⟨selection, "fake", goldModel, 2, noUsage⟩, [], false⟩ :=
      scripted_second hs hs'
    cases hd : R.service.drafting R.snapshot policy safeQuestion selection with
    | none =>
      simp only [hd]
      exact demand_of_one ht rfl (asked_undrafted hx ho (congrArg Turn.value ht) hd)
    | some drafting =>
      obtain ⟨selected, restricted, base⟩ := drafting
      simp only [hd]
      exact demand_short hx ho ht hd scripted_nil

theorem demand_unasked (h : R.asked policy c.case (answer (R.rounds policy) c.responses) = 0) :
    (R.part policy c).demand = 0 := by
  rw [demand_of_settled h fun j hj => absurd hj (Nat.not_lt_zero j)]
  rfl

/-- A case asks for as many responses as its inputs say. -/
theorem part_demand (c : ScriptedCase) : (R.part policy c).demand = R.demand policy c := by
  unfold demand
  cases hx : (R.expected policy c.case).result with
  | error e => exact demand_unasked (asked_failed hx)
  | ok expected =>
    cases ho : R.service.opening c.case.question R.snapshot policy with
    | none =>
      refine demand_unasked ?_
      rw [asked_answered hx]
      exact NL2SQLService.answer_closed ho
    | some safeQuestion =>
      cases hs : R.selection (NL2SQLService.selectable R.snapshot policy) c.selection.content with
      | ok selection => exact demand_first hx ho hs
      | error issues => exact demand_second hx ho hs

end Demand

section Script

/-- The places of the script, from the first one on. -/
theorem scriptedCases_places {L : Libraries} {first : Nat} {cases : List NL2SQLGoldCase} {scripted : List ScriptedCase}
    (h : scriptedCases L first cases = .ok scripted) :
    (scripted.flatMap ScriptedCase.responses).Nodup ∧
      ∀ r ∈ scripted.flatMap ScriptedCase.responses, first ≤ r.place := by
  induction cases generalizing first scripted with
  | nil =>
    cases h
    exact ⟨List.nodup_nil, by simp⟩
  | cons c later ih =>
    unfold scriptedCases at h
    cases ht : selectedTables L c.goldSql with
    | error e => simp [ht, bind, Except.bind] at h
    | ok tables =>
      cases hr : scriptedCases L (first + 2) later with
      | error e => simp [ht, hr, bind, Except.bind] at h
      | ok rest =>
        simp only [ht, hr, bind, Except.bind, Except.ok.injEq] at h
        subst h
        obtain ⟨hnodup, hplaces⟩ := ih hr
        constructor
        · simp only [List.flatMap_cons, ScriptedCase.responses, List.cons_append, List.nil_append, List.nodup_cons,
            List.mem_cons, not_or]
          refine ⟨⟨by simp, fun hmem => ?_⟩, fun hmem => ?_, hnodup⟩
          · have hle : first + 2 ≤ first := hplaces _ hmem
            omega
          · have hle : first + 2 ≤ first + 1 := hplaces _ hmem
            omega
        · intro r hr
          simp only [List.flatMap_cons, ScriptedCase.responses, List.cons_append, List.nil_append,
            List.mem_cons] at hr
          obtain rfl | rfl | hr := hr
          · exact Nat.le_refl _
          · exact Nat.le_succ _
          · have hle := hplaces r hr
            omega

end Script

theorem setUp_ok {cases : List NL2SQLGoldCase} {s : Setting} (h : R.setUp cases = .ok s) :
    scriptedCases R.libraries 0 cases = .ok s.scripted := by
  unfold setUp at h
  cases hp : R.validatePricing with
  | error f => simp [hp, bind, Except.bind] at h
  | ok u =>
    cases hs : scriptedCases R.libraries 0 cases with
    | error e => simp [hp, hs, bind, Except.bind, Except.mapError] at h
    | ok scripted =>
      simp only [hp, hs, bind, Except.bind, Except.mapError] at h
      cases hq : QueryPolicy.fromSnapshot R.py.isalnum R.snapshot 10000 100000 with
      | none => simp [hq] at h
      | some policy =>
        simp only [hq, Except.ok.injEq] at h
        rw [← h]

/-- Lists of shares are the same if their values and their responses are. -/
theorem shares_eq_iff {shares shares' : List (Share ScriptedResponse EvaluationCaseResult)} :
    shares = shares' ↔ shares.map Share.value = shares'.map Share.value ∧
      shares.map Share.received = shares'.map Share.received := by
  constructor
  · rintro rfl
    exact ⟨rfl, rfl⟩
  · rintro ⟨hvalues, hreceived⟩
    induction shares generalizing shares' with
    | nil =>
      rw [List.map_nil, eq_comm, List.map_eq_nil_iff] at hvalues
      exact hvalues.symm
    | cons a rest ih =>
      cases shares' with
      | nil => cases hvalues
      | cons a' rest' =>
        rw [List.map_cons, List.map_cons, List.cons.injEq] at hvalues hreceived
        rw [ih hvalues.2 hreceived.2, Share.ext hvalues.1 hreceived.1]

theorem evaluateP10_ok {cases : List NL2SQLGoldCase} {dangerousCases : List DangerousQuestionCase} {s : Setting}
    (h : R.setUp cases = .ok s) : R.evaluateP10 cases dangerousCases =
      .ok ((R.replay s).map Share.value ++ dangerousCases.map R.evaluateDangerousCase) := by
  rw [evaluateP10, h]
  rfl

/-- A replay is that of its parts. -/
theorem replay_alone_iff {s : Setting} (h : (s.scripted.flatMap ScriptedCase.responses).Nodup) :
    R.replay s = s.scripted.map (R.alone s.policy) ↔ s.scripted.Pairwise fun c d =>
      R.demand s.policy c = 2 ∨ R.demand s.policy c < 2 ∧ R.demand s.policy d = 0 := by
  have hscript : Part.script (s.scripted.map (R.part s.policy)) = s.scripted.flatMap ScriptedCase.responses := by
    rw [Part.script, List.flatMap_map]
    rfl
  have hparts : (Part.script (s.scripted.map (R.part s.policy))).Nodup := hscript ▸ h
  have hiff := Part.play_alone_iff hparts
  rw [hscript, List.map_map, List.map_map, List.pairwise_map] at hiff
  simp only [Part.Apart, part_demand] at hiff
  exact hiff

/-- A case that asks for nothing leaves both of its responses to the next one. -/
theorem replay_behind {d : ScriptedCase} (h : (R.part policy c).demand = 0) :
    R.replay ⟨[c, d], policy⟩ =
      [R.alone policy c, share (R.reader policy d.case) (c.responses ++ d.responses)] := by
  obtain ⟨hshare, hrest⟩ := Part.demand_zero h (c.responses ++ d.responses)
  have hscript : [c, d].flatMap ScriptedCase.responses = c.responses ++ d.responses := rfl
  change play [R.reader policy c.case, R.reader policy d.case] ([c, d].flatMap ScriptedCase.responses) = _
  change share (R.reader policy c.case) _ = R.alone policy c at hshare
  change (R.reader policy c.case _).rest = _ at hrest
  rw [hscript, play, play, play, hshare, hrest]

/-- If the next case is to be scored as it is alone, it has to come to the same with the responses left to it. -/
theorem behind_alone {cases : List NL2SQLGoldCase} {d : ScriptedCase} (hs : R.setUp cases = .ok ⟨[c, d], policy⟩)
    (h : (R.part policy c).demand = 0) (halone : R.ScoresAlone cases []) :
    (R.reader policy d.case (c.responses ++ d.responses)).value = (R.alone policy d).value := by
  obtain ⟨hresults, _⟩ := halone _ hs
  rw [evaluateP10_ok hs, replay_behind h] at hresults
  simp only [List.map_cons, List.map_nil, List.append_nil, Except.ok.injEq, List.cons.injEq, and_true] at hresults
  exact hresults.2

/-- The replay scores each case on its own exactly if every case in front of another asks for its two responses, or
for fewer where the other asks for none. -/
theorem gold_replay_alone_iff (R : Runner) (cases : List NL2SQLGoldCase)
    (dangerousCases : List DangerousQuestionCase) :
    R.ScoresAlone cases dangerousCases ↔ ∀ s, R.setUp cases = .ok s → s.scripted.Pairwise fun c d =>
      R.demand s.policy c = 2 ∨ R.demand s.policy c < 2 ∧ R.demand s.policy d = 0 := by
  refine forall_congr' fun s => forall_congr' fun hs => ?_
  rw [← replay_alone_iff (scriptedCases_places (setUp_ok hs)).1, shares_eq_iff, evaluateP10_ok hs, Except.ok.injEq,
    List.append_cancel_right_eq, List.map_map, List.map_map]
  rfl

end Runner

/-! A case whose gold query names a table that the catalog does not have, in front of the list of orders. -/
section Orders
open NL2SQLService SafeQueryService

def secretsText : String := "SELECT token FROM northwind.secrets"

def secretsTree : Sql.Query := selectFrom "token" ⟨⟨"secrets", false⟩, "northwind", "", ""⟩

/-- Libraries that know the trees of both queries. The first is refused before its text is generated. -/
def replayLibraries : Libraries :=
  { ordersLibraries with
    parse := fun s => if s = secretsText then .ok [some (.query secretsTree)] else ordersLibraries.parse s
    parseOne := fun s => if s = secretsText then .ok secretsTree else ordersLibraries.parseOne s }

def secretsCase : NL2SQLGoldCase where
  id := "nw001"
  question := "Show the tokens"
  goldSql := secretsText
  expectedColumns := ["token"]
  question_ok := by decide
  sql_ok := by decide
  columns_ok := by decide

def ordersCase : NL2SQLGoldCase where
  id := "nw002"
  question := "Show the orders"
  goldSql := ordersText
  expectedColumns := ["order_id"]
  question_ok := by decide
  sql_ok := ordersText_bounded
  columns_ok := by decide

/-- A response model that takes one text. The texts are not compared when it is only looked at. -/
@[irreducible] def takes {α : Type} (text : String) (output : α) (issue content : String) : Except (List String) α :=
  if content = text then .ok output else .error [issue]

theorem takes_same {α : Type} {text : String} {output : α} {issue : String} :
    takes text output issue text = .ok output := by
  unfold takes
  exact if_pos rfl

theorem takes_other {α : Type} {text : String} {output : α} {issue content : String} (h : content ≠ text) :
    takes text output issue content = .error [issue] := by
  unfold takes
  exact if_neg h

def ordersSelected : TableSelection := ⟨["orders"], orders_selectable⟩

/-- The response models take what is scripted for the orders. -/
def ordersRunner : Runner where
  snapshot := ordersCatalog
  py := asciiPython
  libraries := replayLibraries
  questionGuard := .ok
  selection _ := takes (selectionResponse ["orders"]) ordersSelected "tables.0:literal_error"
  draft := takes (draftResponse ordersCase ["orders"]) ordersDraft "tables_used:missing"
  estimate _ := .ok ⟨1, 1⟩
  execute _ _ := .ok ⟨["order_id"], [], 0, 2, false⟩
  ids _ := ⟨"tenant-1", "user-1", "job-1", "source-1"⟩
  stamp _ _ := ⟨"event-1", 0, 0⟩
  cost _ _ _ _ := 0
  sameValue a b := a = b

def secretsScripted : ScriptedCase :=
  ⟨secretsCase, ⟨0, selectionResponse ["secrets"]⟩, ⟨1, draftResponse secretsCase ["secrets"]⟩⟩

def ordersScripted : ScriptedCase :=
  ⟨ordersCase, ⟨2, selectionResponse ["orders"]⟩, ⟨3, draftResponse ordersCase ["orders"]⟩⟩

theorem orders_set_up : ordersRunner.setUp [secretsCase, ordersCase] =
    .ok ⟨[secretsScripted, ordersScripted], catalogPolicy⟩ := rfl

theorem secrets_failed : (ordersRunner.expected catalogPolicy secretsCase).result =
    .error (.safety (.policyViolation "TABLE_NOT_ALLOWED")) := rfl

theorem orders_expected : ∃ expected, (ordersRunner.expected catalogPolicy ordersCase).result = .ok expected ∧
    expected.result = ⟨["order_id"], [], 0, 2, false⟩ := ⟨_, rfl, rfl⟩

theorem orders_executed_alone : ∃ outcome, (ordersRunner.safety.executeGenerated
    (ordersRunner.candidateWorld "nw002" 0) (ordersRunner.context "nw002") catalogPolicy ordersText).result =
      .ok outcome ∧ outcome.result = ⟨["order_id"], [], 0, 2, false⟩ := by
  have hwithin : approvalReason ⟨1, 1⟩ catalogPolicy = none := by decide +kernel
  have hguard : ordersRunner.safety.guard ordersText catalogPolicy =
      .ok (SQLGuard.guarded replayLibraries catalogPolicy ordersTree {"northwind.orders"}) := rfl
  have hprice : (price (ordersRunner.candidateWorld "nw002" 0) (ordersRunner.context "nw002") catalogPolicy
      (SQLGuard.guarded replayLibraries catalogPolicy ordersTree {"northwind.orders"})).result =
      .ok (some ⟨1, 1⟩) := by
    have hestimator : (ordersRunner.candidateWorld "nw002" 0).estimator = some fun _ => .ok ⟨1, 1⟩ := rfl
    unfold price
    rw [hestimator]
    simp [hwithin, bind, Effect.bind, Effect.call, pure, Effect.result]
  unfold executeGenerated executeFixed
  rw [hguard]
  simp only [(Effect.bind_of_ok hprice).2]
  exact ⟨_, rfl, rfl⟩

theorem orders_opening : ordersRunner.service.opening "Show the orders" ordersCatalog catalogPolicy =
    some "Show the orders" := by
  obtain ⟨items, hitems⟩ := messages_ok orders_selection_short
  exact opening_of rfl hitems (by decide)

theorem orders_drafting {selection : TableSelection} (h : selection.tables = ["orders"]) :
    ∃ base items, messages base = .ok items ∧
      ordersRunner.service.drafting ordersCatalog catalogPolicy "Show the orders" selection =
        some (["orders"], catalogPolicy, base) := by
  obtain ⟨base, hbase, hshort⟩ := generation_short
  obtain ⟨items, hitems⟩ := messages_ok hshort
  have hselected : ordersRunner.service.validateSelection ordersCatalog catalogPolicy selection = some ["orders"] := by
    unfold validateSelection
    rw [h]
    rfl
  exact ⟨base, items, hitems, drafting_of hselected rfl hbase hitems⟩

theorem dumps_ne {a b : Json}
    (h : Json.render ⟨true, [',', ' '], [':', ' ']⟩ a ≠ Json.render ⟨true, [',', ' '], [':', ' ']⟩ b) :
    a.dumps ≠ b.dumps := by
  intro hab
  refine h ?_
  have htexts := congrArg String.toList hab
  rw [Json.dumps, Json.dumps, String.toList_ofList, String.toList_ofList] at htexts
  exact htexts

theorem orders_selection_refused {names : List String} {content : String}
    (h : content ≠ selectionResponse ["orders"]) :
    ordersRunner.selection names content = .error ["tables.0:literal_error"] := takes_other h

theorem orders_selection_taken {names : List String} :
    ordersRunner.selection names (selectionResponse ["orders"]) = .ok ordersSelected := takes_same

theorem orders_draft_taken : ordersRunner.draft (draftResponse ordersCase ["orders"]) = .ok ordersDraft := takes_same

theorem secrets_selection_ne : selectionResponse ["secrets"] ≠ selectionResponse ["orders"] := by
  unfold selectionResponse
  exact dumps_ne (by decide +kernel)

theorem secrets_draft_ne : draftResponse secretsCase ["secrets"] ≠ selectionResponse ["orders"] := by
  unfold draftResponse selectionResponse
  exact dumps_ne (by decide +kernel)

/-- With the responses of the other case the model fails. -/
theorem orders_behind {c : NL2SQLGoldCase} (hc : c = ordersCase) : (ordersRunner.reader catalogPolicy c
    (secretsScripted.responses ++ ordersScripted.responses)).value =
      failedCase "nw002" .model "LLM_INVALID_RESPONSE" := by
  subst hc
  obtain ⟨expected, hx, _⟩ := orders_expected
  have ht : ordersRunner.rounds catalogPolicy 0 (secretsScripted.responses ++ ordersScripted.responses) =
      ⟨.error (GenerateFailure.llm ⟨.invalidResponse, ["tables.0:literal_error"]⟩).failure,
        ordersScripted.responses, false⟩ :=
    scripted_refused (orders_selection_refused secrets_selection_ne) (orders_selection_refused secrets_draft_ne)
  generalize secretsScripted.responses ++ ordersScripted.responses = q at ht ⊢
  have hprepare := prepare_refused (w := ordersRunner.world ordersCase (answer (ordersRunner.rounds catalogPolicy) q))
    orders_opening fun _ => congrArg Turn.value ht
  have hcandidate : (ordersRunner.candidate catalogPolicy ordersCase
      (answer (ordersRunner.rounds catalogPolicy) q)).result =
      .error (.failure (GenerateFailure.llm ⟨.invalidResponse, ["tables.0:literal_error"]⟩).failure) :=
    (Effect.bind_of_error hprepare).2
  rw [Runner.reader_value, Runner.evaluateCase_error hx hcandidate]
  rfl

theorem orders_passes {c : NL2SQLGoldCase} (hc : c = ordersCase) {answers : ∀ j, Question j}
    (hselect : answers 0 = .ok ⟨ordersSelected, "fake", goldModel, 1, noUsage⟩)
    (hdraft : answers 1 = .ok ⟨ordersDraft, "fake", goldModel, 1, noUsage⟩) :
    (ordersRunner.evaluateCase catalogPolicy c answers).result.passed = true := by
  subst hc
  obtain ⟨expected, hx, hexpected⟩ := orders_expected
  obtain ⟨outcome, houtcome, hresult⟩ := orders_executed_alone
  obtain ⟨base, items, hitems, hdrafting⟩ := @orders_drafting ordersSelected rfl
  obtain ⟨r, hr, hsame, _⟩ := answer_at_once (w := ordersRunner.world ordersCase answers) orders_opening
    (fun _ => hselect) hdrafting (fun _ => hdraft) rfl houtcome
  rw [Runner.evaluateCase_ok hx hr]
  change executionResultsMatch ordersRunner.sameValue r.outcome.result expected.result = true
  rw [hsame, hresult, hexpected]
  rfl

theorem orders_alone : (ordersRunner.alone catalogPolicy ordersScripted).value.passed = true := by
  have ht : ordersRunner.rounds catalogPolicy 0 ordersScripted.responses =
      ⟨.ok ⟨ordersSelected, "fake", goldModel, 1, noUsage⟩, [ordersScripted.draft], false⟩ :=
    scripted_first orders_selection_taken
  have hround : ordersRunner.rounds catalogPolicy 1 [ordersScripted.draft] =
      ⟨.ok ⟨ordersDraft, "fake", goldModel, 1, noUsage⟩, [], false⟩ := scripted_first orders_draft_taken
  have hone : before (ordersRunner.rounds catalogPolicy) ordersScripted.responses 1 = [ordersScripted.draft] :=
    congrArg Turn.rest ht
  rw [← hone] at hround
  have hselect : answer (ordersRunner.rounds catalogPolicy) ordersScripted.responses 0 =
      .ok ⟨ordersSelected, "fake", goldModel, 1, noUsage⟩ := congrArg Turn.value ht
  have hdraft : answer (ordersRunner.rounds catalogPolicy) ordersScripted.responses 1 =
      .ok ⟨ordersDraft, "fake", goldModel, 1, noUsage⟩ := congrArg Turn.value hround
  rw [Runner.alone_value, Runner.reader_value]
  exact orders_passes (c := ordersScripted.case) rfl hselect hdraft

/-- The refused case leaves its responses to the next one. -/
theorem orders_not_scored_alone : ¬ ordersRunner.ScoresAlone [secretsCase, ordersCase] [] := by
  intro h
  have hfirst : (ordersRunner.part catalogPolicy secretsScripted).demand = 0 :=
    Runner.demand_unasked (Runner.asked_failed secrets_failed)
  have hsame := Runner.behind_alone orders_set_up hfirst h
  have hpassed := orders_alone
  rw [← hsame, orders_behind (c := ordersScripted.case) rfl] at hpassed
  cases hpassed

end Orders
end DataCopilot.Evaluation
