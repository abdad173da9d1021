import Mathlib.Data.List.Perm.Subperm
import DataCopilot.Platform.Intelligence

/-! What a call of the controller has counted, sent and recorded at each point of its way, and what follows of
the calls of one user. -/
namespace DataCopilot.Platform
open Metering Transition

/-- The request carries the identity of the caller. -/
structure AgentRequest.For (r : AgentRequest) (c : IntelligenceCall) : Prop where
  path : r.path = c.endpoint.path
  tenantId : r.tenantId = c.caller.tenantId
  userId : r.userId = c.caller.userId
  role : r.role = c.role
  callerToken : r.callerToken = c.caller.token
  body : r.body = c.body

/-- What a call has counted, sent and recorded when it stands at a point. -/
inductive Standing : Option (IntelligenceCall × IntelligencePhase) → List (Hit String Nat) → List AgentRequest →
    List OutcomeAudit → Prop
  | none : Standing .none [] [] []
  | refused {c : IntelligenceCall} {r : IntelligenceResponse} : c.check = some r →
      Standing (some (c, .answered r)) [] [] []
  | accepted {c : IntelligenceCall} : c.check = .none → Standing (some (c, .accepted)) [] [] []
  | limited {c : IntelligenceCall} {h : Hit String Nat} : c.check = .none → h.key = c.rateKey → 60 < h.number →
      Standing (some (c, .limited)) [h] [] []
  | admitted {c : IntelligenceCall} {h : Hit String Nat} : c.check = .none → h.key = c.rateKey → h.number ≤ 60 →
      Standing (some (c, .admitted)) [h] [] []
  | sent {c : IntelligenceCall} {h : Hit String Nat} {r : AgentRequest} : c.check = .none → h.key = c.rateKey →
      h.number ≤ 60 → r.For c → Standing (some (c, .sent)) [h] [r] []
  | received {c : IntelligenceCall} {h : Hit String Nat} {r : AgentRequest} {status : Nat} {body : List UInt8} :
      c.check = .none → h.key = c.rateKey → h.number ≤ 60 → r.For c → Standing (some (c, .received status body)) [h] [r] []
  | unavailable {c : IntelligenceCall} {h : Hit String Nat} {rs : List AgentRequest} : c.check = .none →
      h.key = c.rateKey → h.number ≤ 60 → rs.length ≤ 1 → (∀ r ∈ rs, r.For c) →
      Standing (some (c, .unavailable)) [h] rs []
  | raised {c : IntelligenceCall} {hs : List (Hit String Nat)} {rs : List AgentRequest} : c.check = .none →
      hs.length ≤ 1 → (∀ h ∈ hs, h.key = c.rateKey) → rs.length ≤ 1 →
      (∀ r ∈ rs, r.For c ∧ ∃ h ∈ hs, h.number ≤ 60) → Standing (some (c, .answered .raised)) hs rs []
  | rateLimited {c : IntelligenceCall} {h : Hit String Nat} : c.check = .none → h.key = c.rateKey → 60 < h.number →
      Standing (some (c, .answered .rateLimited)) [h] [] [c.audit "RATE_LIMITED"]
  | relayed {c : IntelligenceCall} {h : Hit String Nat} {r : AgentRequest} {status : Nat} {body : List UInt8} :
      c.check = .none → h.key = c.rateKey → h.number ≤ 60 → r.For c →
      Standing (some (c, .answered (.relayed status body))) [h] [r] [c.audit (outcomeOf status)]
  | failed {c : IntelligenceCall} {h : Hit String Nat} {rs : List AgentRequest} : c.check = .none →
      h.key = c.rateKey → h.number ≤ 60 → rs.length ≤ 1 → (∀ r ∈ rs, r.For c) →
      Standing (some (c, .answered .unavailable)) [h] rs [c.audit "FAILED"]

namespace Intelligence
variable {J : JavaText} {serviceToken : String} {s t : Intelligence} {m : IntelligenceMove} {i j : Nat}
variable {c : IntelligenceCall} {phase : IntelligencePhase}

def hitsOf (s : Intelligence) (i : Nat) : List (Hit String Nat) := s.meter.hits.filter fun h => h.label = i

def sentOf (s : Intelligence) (i : Nat) : List AgentRequest := (s.sent.filter fun r => r.1 = i).map Prod.snd

def auditsOf (s : Intelligence) (i : Nat) : List OutcomeAudit := (s.audits.filter fun a => a.1 = i).map Prod.snd

/-- What stands with a call. -/
def Stands (s : Intelligence) (i : Nat) : Prop := Standing (s.calls i) (s.hitsOf i) (s.sentOf i) (s.auditsOf i)

section Frame

theorem calls_put : (s.put i c phase).calls j = if j = i then some (c, phase) else s.calls j := by
  simp only [put, Function.update_apply]

theorem hitsOf_incr : (s.incr i c).hitsOf j =
    if j = i then ⟨i, c.rateKey, s.meter.now, s.number c⟩ :: s.hitsOf j else s.hitsOf j := by
  by_cases hj : j = i
  · rw [if_pos hj, hj]
    exact List.filter_cons_of_pos (decide_eq_true rfl)
  · rw [if_neg hj]
    exact List.filter_cons_of_neg (by simp [Ne.symm hj])

theorem auditsOf_record {outcome : String} : (s.record i c outcome).auditsOf j =
    if j = i then c.audit outcome :: s.auditsOf j else s.auditsOf j := by
  by_cases hj : j = i
  · simp [record, auditsOf, hj]
  · simp [record, auditsOf, hj, Ne.symm hj]

theorem sentOf_cons {r : AgentRequest} : ({ s with sent := (i, r) :: s.sent } : Intelligence).sentOf j =
    if j = i then r :: s.sentOf j else s.sentOf j := by
  by_cases hj : j = i
  · simp [sentOf, hj]
  · simp [sentOf, hj, Ne.symm hj]

/-- A step that a call takes for itself alone. -/
theorem stands_put (h : ∀ j, s.Stands j) (hc : s.calls i = some (c, phase)) {phase' : IntelligencePhase}
    (hi : ∀ hs rs as, Standing (some (c, phase)) hs rs as → Standing (some (c, phase')) hs rs as) (j : Nat) :
    (s.put i c phase').Stands j := by
  change Standing ((s.put i c phase').calls j) (s.hitsOf j) (s.sentOf j) (s.auditsOf j)
  rw [calls_put]
  by_cases hj : j = i
  · rw [if_pos hj, hj]
    exact hi _ _ _ (hc ▸ h i)
  · rw [if_neg hj]
    exact h j

theorem stands_incr (h : ∀ j, s.Stands j) (hc : s.calls i = some (c, phase)) {phase' : IntelligencePhase}
    (hi : ∀ hs rs as, Standing (some (c, phase)) hs rs as →
      Standing (some (c, phase')) (⟨i, c.rateKey, s.meter.now, s.number c⟩ :: hs) rs as) (j : Nat) :
    ((s.incr i c).put i c phase').Stands j := by
  change Standing (((s.incr i c).put i c phase').calls j) ((s.incr i c).hitsOf j) (s.sentOf j) (s.auditsOf j)
  rw [calls_put, hitsOf_incr]
  by_cases hj : j = i
  · rw [if_pos hj, if_pos hj, hj]
    exact hi _ _ _ (hc ▸ h i)
  · rw [if_neg hj, if_neg hj]
    exact h j

theorem stands_record (h : ∀ j, s.Stands j) (hc : s.calls i = some (c, phase)) {phase' : IntelligencePhase}
    {outcome : String} (hi : ∀ hs rs as, Standing (some (c, phase)) hs rs as →
      Standing (some (c, phase')) hs rs (c.audit outcome :: as)) (j : Nat) :
    ((s.record i c outcome).put i c phase').Stands j := by
  change Standing (((s.record i c outcome).put i c phase').calls j) (s.hitsOf j) (s.sentOf j)
    ((s.record i c outcome).auditsOf j)
  rw [calls_put, auditsOf_record]
  by_cases hj : j = i
  · rw [if_pos hj, if_pos hj, hj]
    exact hi _ _ _ (hc ▸ h i)
  · rw [if_neg hj, if_neg hj]
    exact h j

theorem stands_post (h : ∀ j, s.Stands j) (hc : s.calls i = some (c, phase)) {phase' : IntelligencePhase}
    {r : AgentRequest} (hi : ∀ hs rs as, Standing (some (c, phase)) hs rs as →
      Standing (some (c, phase')) hs (r :: rs) as) (j : Nat) :
    ({ s.put i c phase' with sent := (i, r) :: s.sent } : Intelligence).Stands j := by
  change Standing ((s.put i c phase').calls j) (s.hitsOf j) (({ s with sent := (i, r) :: s.sent } : Intelligence).sentOf j)
    (s.auditsOf j)
  rw [calls_put, sentOf_cons]
  by_cases hj : j = i
  · rw [if_pos hj, if_pos hj, hj]
    exact hi _ _ _ (hc ▸ h i)
  · rw [if_neg hj, if_neg hj]
    exact h j

end Frame

/-! What each move keeps. -/
section Moves

theorem stands_request (h : ∀ j, s.Stands j) (hn : s.next J serviceToken (.request i c) = some t) (j : Nat) :
    t.Stands j := by
  rw [next] at hn
  split at hn
  next => cases hn
  next hc =>
    injection hn with hn
    rw [← hn]
    change Standing (((s.put i c _).calls j)) (s.hitsOf j) (s.sentOf j) (s.auditsOf j)
    rw [calls_put]
    by_cases hj : j = i
    · rw [if_pos hj, hj]
      have hi := h i
      rw [Stands, hc] at hi
      generalize s.hitsOf i = hs, s.sentOf i = rs, s.auditsOf i = as at hi
      cases hi
      cases hk : c.check with
      | none => exact .accepted hk
      | some r => exact .refused hk
    · rw [if_neg hj]
      exact h j

theorem stands_execute (h : ∀ j, s.Stands j) (hn : s.next J serviceToken (.execute i) = some t) (j : Nat) :
    t.Stands j := by
  rw [next] at hn
  split at hn
  next c hc =>
    injection hn with hn
    rw [← hn]
    refine stands_incr h hc ?_ j
    intro hs rs as hi
    cases hi with
    | accepted hk =>
      split
      next hlt => exact .limited hk rfl hlt
      next hle => exact .admitted hk rfl (Nat.le_of_not_lt hle)
  next => cases hn

theorem stands_executeLost (h : ∀ j, s.Stands j) (hn : s.next J serviceToken (.executeLost i) = some t) (j : Nat) :
    t.Stands j := by
  rw [next] at hn
  split at hn
  next c hc =>
    injection hn with hn
    rw [← hn]
    refine stands_incr h hc ?_ j
    intro hs rs as hi
    cases hi with
    | accepted hk =>
      exact .raised hk (Nat.le_refl 1) (List.forall_mem_singleton.mpr rfl) (Nat.zero_le 1) (List.forall_mem_nil _)
  next => cases hn

theorem stands_executeFailed (h : ∀ j, s.Stands j) (hn : s.next J serviceToken (.executeFailed i) = some t)
    (j : Nat) : t.Stands j := by
  rw [next] at hn
  split at hn
  next c hc =>
    injection hn with hn
    rw [← hn]
    refine stands_put h hc ?_ j
    intro hs rs as hi
    cases hi with
    | accepted hk =>
      exact .raised hk (Nat.zero_le 1) (List.forall_mem_nil _) (Nat.zero_le 1) (List.forall_mem_nil _)
  next => cases hn

theorem stands_send {draws : List UUID} (h : ∀ j, s.Stands j)
    (hn : s.next J serviceToken (.send i draws) = some t) (j : Nat) : t.Stands j := by
  rw [next] at hn
  split at hn
  next c hc =>
    obtain ⟨traceparent, -, hn⟩ := Option.map_eq_some_iff.mp hn
    rw [← hn]
    refine stands_post h hc ?_ j
    intro hs rs as hi
    cases hi with
    | admitted hk hkey hle => exact .sent hk hkey hle ⟨rfl, rfl, rfl, rfl, rfl, rfl⟩
  next => cases hn

theorem stands_reply {status : Nat} {body : List UInt8} (h : ∀ j, s.Stands j)
    (hn : s.next J serviceToken (.reply i status body) = some t) (j : Nat) : t.Stands j := by
  rw [next] at hn
  split at hn
  next c hc =>
    injection hn with hn
    rw [← hn]
    refine stands_put h hc ?_ j
    intro hs rs as hi
    cases hi with
    | sent hk hkey hle hfor =>
      split
      next => exact .unavailable hk hkey hle (Nat.le_refl 1) (List.forall_mem_singleton.mpr hfor)
      next => exact .received hk hkey hle hfor
  next => cases hn

theorem stands_fail (h : ∀ j, s.Stands j) (hn : s.next J serviceToken (.fail i) = some t) (j : Nat) :
    t.Stands j := by
  rw [next] at hn
  split at hn
  next c hc =>
    injection hn with hn
    rw [← hn]
    refine stands_put h hc ?_ j
    intro hs rs as hi
    cases hi with
    | admitted hk hkey hle => exact .unavailable hk hkey hle (Nat.zero_le 1) (List.forall_mem_nil _)
  next c hc =>
    injection hn with hn
    rw [← hn]
    refine stands_put h hc ?_ j
    intro hs rs as hi
    cases hi with
    | sent hk hkey hle hfor =>
      exact .unavailable hk hkey hle (Nat.le_refl 1) (List.forall_mem_singleton.mpr hfor)
  next => cases hn

theorem stands_recordOutcome (h : ∀ j, s.Stands j) (hn : s.next J serviceToken (.recordOutcome i) = some t)
    (j : Nat) : t.Stands j := by
  rw [next] at hn
  split at hn
  next c hc =>
    injection hn with hn
    rw [← hn]
    refine stands_record h hc ?_ j
    intro hs rs as hi
    cases hi with
    | limited hk hkey hlt => exact .rateLimited hk hkey hlt
  next c status body hc =>
    injection hn with hn
    rw [← hn]
    refine stands_record h hc ?_ j
    intro hs rs as hi
    cases hi with
    | received hk hkey hle hfor => exact .relayed hk hkey hle hfor
  next c hc =>
    injection hn with hn
    rw [← hn]
    refine stands_record h hc ?_ j
    intro hs rs as hi
    cases hi with
    | unavailable hk hkey hle hlength hfor => exact .failed hk hkey hle hlength hfor
  next => cases hn

theorem stands_recordFailed (h : ∀ j, s.Stands j) (hn : s.next J serviceToken (.recordFailed i) = some t)
    (j : Nat) : t.Stands j := by
  rw [next] at hn
  split at hn
  next c hc =>
    injection hn with hn
    rw [← hn]
    refine stands_put h hc ?_ j
    intro hs rs as hi
    cases hi with
    | limited hk hkey hlt =>
      exact .raised hk (Nat.le_refl 1) (List.forall_mem_singleton.mpr hkey) (Nat.zero_le 1) (List.forall_mem_nil _)
  next c status body hc =>
    injection hn with hn
    rw [← hn]
    refine stands_put h hc ?_ j
    intro hs rs as hi
    cases hi with
    | received hk hkey hle hfor =>
      exact .unavailable hk hkey hle (Nat.le_refl 1) (List.forall_mem_singleton.mpr hfor)
  next c hc =>
    injection hn with hn
    rw [← hn]
    refine stands_put h hc ?_ j
    intro hs rs as hi
    cases hi with
    | unavailable hk hkey hle hlength hfor =>
      refine .raised hk (Nat.le_refl 1) (List.forall_mem_singleton.mpr hkey) hlength fun r hr => ?_
      exact ⟨hfor r hr, _, List.mem_singleton_self _, hle⟩
  next => cases hn

theorem stands_tick {now : Nat} (h : ∀ j, s.Stands j) (hn : s.next J serviceToken (.tick now) = some t) (j : Nat) :
    t.Stands j := by
  rw [next] at hn
  split at hn
  next =>
    injection hn with hn
    rw [← hn]
    exact h j
  next => cases hn

end Moves

/-- The step lemma. -/
theorem stands_next (h : ∀ j, s.Stands j) (hn : s.next J serviceToken m = some t) (j : Nat) : t.Stands j := by
  cases m with
  | request i c => exact stands_request h hn j
  | execute i => exact stands_execute h hn j
  | executeLost i => exact stands_executeLost h hn j
  | executeFailed i => exact stands_executeFailed h hn j
  | send i draws => exact stands_send h hn j
  | reply i status body => exact stands_reply h hn j
  | fail i => exact stands_fail h hn j
  | recordOutcome i => exact stands_recordOutcome h hn j
  | recordFailed i => exact stands_recordFailed h hn j
  | tick now => exact stands_tick h hn j

theorem stands (h : (system J serviceToken).Reachable s) (j : Nat) : s.Stands j := by
  refine h.invariant (P := fun s => ∀ j, s.Stands j) (fun s hi j => ?_) (fun s m t _ hs hn => stands_next hs hn) j
  rw [hi]
  exact .none

/-- The script alone counts, and time goes on. -/
theorem meter_next (hn : s.next J serviceToken m = some t) :
    t.meter = s.meter ∨ (∃ i c, t.meter = s.meter.hit 60000 i (IntelligenceCall.rateKey c)) ∨
      ∃ now, s.meter.now ≤ now ∧ t.meter = s.meter.tick now := by
  cases m with
  | execute i =>
    rw [next] at hn
    split at hn
    next c _ =>
      injection hn with hn
      exact .inr (.inl ⟨i, c, hn ▸ rfl⟩)
    next => cases hn
  | executeLost i =>
    rw [next] at hn
    split at hn
    next c _ =>
      injection hn with hn
      exact .inr (.inl ⟨i, c, hn ▸ rfl⟩)
    next => cases hn
  | send i draws =>
    rw [next] at hn
    split at hn
    next c _ =>
      obtain ⟨_, -, hn⟩ := Option.map_eq_some_iff.mp hn
      exact .inl (hn ▸ rfl)
    next => cases hn
  | tick now =>
    rw [next] at hn
    split at hn
    next hle =>
      injection hn with hn
      exact .inr (.inr ⟨now, hle, hn ▸ rfl⟩)
    next => cases hn
  | _ =>
    rw [next] at hn
    split at hn <;> first
      | injection hn with hn
        exact .inl (hn ▸ rfl)
      | cases hn

theorem sound (h : (system J serviceToken).Reachable s) : s.meter.Sound 60000 60 := by
  refine h.invariant (P := fun s => s.meter.Sound 60000 60) (fun s hi => ?_) fun s m t _ hs hn => ?_
  · rw [hi]
    exact .start rfl rfl
  · rcases meter_next hn with he | ⟨i, c, he⟩ | ⟨now, hle, he⟩
    · exact he ▸ hs
    · exact he ▸ hs.hit (by decide)
    · exact he ▸ hs.tick hle

end Intelligence

namespace Standing
variable {o : Option (IntelligenceCall × IntelligencePhase)} {hs : List (Hit String Nat)} {rs : List AgentRequest}
variable {as : List OutcomeAudit} {r : AgentRequest}

theorem sent_le (h : Standing o hs rs as) : rs.length ≤ 1 := by
  cases h with
  | unavailable _ _ _ hle _ => exact hle
  | raised _ _ _ hle _ => exact hle
  | failed _ _ _ hle _ => exact hle
  | _ => simp

theorem hits_le (h : Standing o hs rs as) : hs.length ≤ 1 := by
  cases h with
  | raised _ hle _ _ _ => exact hle
  | _ => simp

theorem of_hit {x : Hit String Nat} (h : Standing o hs rs as) (hx : x ∈ hs) :
    ∃ c phase, o = some (c, phase) ∧ x.key = c.rateKey := by
  cases h with
  | none => cases hx
  | refused => cases hx
  | accepted => cases hx
  | raised _ _ hkeys _ _ => exact ⟨_, _, rfl, hkeys x hx⟩
  | _ =>
    rw [List.mem_singleton.mp hx]
    exact ⟨_, _, rfl, by assumption⟩

/-- A request that was sent is of a call that passed the checks and was admitted. -/
theorem of_sent (h : Standing o hs rs as) (hr : r ∈ rs) : ∃ c phase x, o = some (c, phase) ∧ c.check = .none ∧
    r.For c ∧ hs = [x] ∧ x.key = c.rateKey ∧ x.number ≤ 60 := by
  cases h with
  | sent hk hkey hle hfor =>
    rw [List.mem_singleton.mp hr]
    exact ⟨_, _, _, rfl, hk, hfor, rfl, hkey, hle⟩
  | received hk hkey hle hfor =>
    rw [List.mem_singleton.mp hr]
    exact ⟨_, _, _, rfl, hk, hfor, rfl, hkey, hle⟩
  | unavailable hk hkey hle _ hfor => exact ⟨_, _, _, rfl, hk, hfor r hr, rfl, hkey, hle⟩
  | raised hk hlength hkeys _ hsent =>
    obtain ⟨hfor, x, hx, hle⟩ := hsent r hr
    have he : hs = [x] := by
      cases hs with
      | nil => cases hx
      | cons y rest =>
        cases rest with
        | nil => rw [List.mem_singleton.mp hx]
        | cons z rest => simp at hlength
    exact ⟨_, _, x, rfl, hk, hfor, he, hkeys x hx, hle⟩
  | relayed hk hkey hle hfor =>
    rw [List.mem_singleton.mp hr]
    exact ⟨_, _, _, rfl, hk, hfor, rfl, hkey, hle⟩
  | failed hk hkey hle _ hfor => exact ⟨_, _, _, rfl, hk, hfor r hr, rfl, hkey, hle⟩
  | _ => cases hr

end Standing

theorem append_ids_inj {start sep : String} {a a' b b' : UUID}
    (h : start ++ a.text ++ sep ++ b.text = start ++ a'.text ++ sep ++ b'.text) : a = a' ∧ b = b' := by
  rw [String.append_assoc, String.append_assoc, String.append_assoc, String.append_assoc] at h
  have hl := congrArg String.toList ((String.append_right_inj _).mp h)
  simp only [String.toList_append] at hl
  have hlength : a.text.toList.length = a'.text.toList.length := by
    rw [UUID.length_text, UUID.length_text]
  obtain ⟨ha, hrest⟩ := List.append_inj hl hlength
  exact ⟨UUID.ext (String.toList_inj.mp ha), UUID.ext (String.toList_inj.mp (List.append_cancel_left hrest))⟩

theorem intelligenceRateKey_inj {tenantId tenantId' userId userId' : UUID}
    (h : intelligenceRateKey tenantId userId = intelligenceRateKey tenantId' userId') :
    tenantId = tenantId' ∧ userId = userId' := append_ids_inj h

/-- The responses to a call that is not forwarded. -/
theorem IntelligenceCall.check_some {c : IntelligenceCall} {r : IntelligenceResponse} (h : c.check = some r) :
    r = .rejected ∨ r = .notFound ∨ r = .accessDenied := by
  rw [check] at h
  split at h
  · injection h with h
    exact .inl h.symm
  · split at h
    · split at h
      · injection h with h
        exact .inr (.inl h.symm)
      · split at h
        · injection h with h
          exact .inr (.inr h.symm)
        · cases h
    · cases h

namespace Intelligence
variable {J : JavaText} {serviceToken : String} {s : Intelligence} {i : Nat} {c : IntelligenceCall}

theorem mem_sentOf {r : AgentRequest} : r ∈ s.sentOf i ↔ (i, r) ∈ s.sent := by
  simp [sentOf]

theorem nodup_sent (h : ∀ j, s.Stands j) : (s.sent.map Prod.fst).Nodup := by
  rw [List.nodup_iff_count_le_one]
  intro i
  have hle := (h i).sent_le
  rw [sentOf, List.length_map, ← List.countP_eq_length_filter] at hle
  rw [List.count, List.countP_map]
  exact Nat.le_trans (Nat.le_of_eq (List.countP_congr fun x _ => by simp)) hle

/-- A request that was sent is of a call that passed the checks, and there is a hit for it that was admitted. -/
theorem of_mem_sent (h : ∀ j, s.Stands j) {r : AgentRequest} (hr : (i, r) ∈ s.sent) : ∃ c phase x,
    s.calls i = some (c, phase) ∧ c.check = none ∧ r.For c ∧ s.hitsOf i = [x] ∧ x.key = c.rateKey ∧ x.number ≤ 60 :=
  (h i).of_sent (mem_sentOf.mpr hr)

/-- The requests of one user for calls that were counted in a minute. -/
def sentWithin (s : Intelligence) (tenantId userId : UUID) (t : Nat) : List (Nat × AgentRequest) :=
  s.sent.filter fun r => r.2.tenantId = tenantId ∧ r.2.userId = userId ∧
    ∃ x ∈ s.meter.hits, x.label = r.1 ∧ t ≤ x.time ∧ x.time ≤ t + 60000

theorem length_sentWithin (h : ∀ j, s.Stands j) (hm : s.meter.Sound 60000 60) (tenantId userId : UUID) (t : Nat) :
    (s.sentWithin tenantId userId t).length ≤ 120 := by
  have hall := hm.within_le (intelligenceRateKey tenantId userId) t
  rw [within_admitted] at hall
  have hnodup : ((s.sentWithin tenantId userId t).map Prod.fst).Nodup :=
    (nodup_sent h).sublist (List.filter_sublist.map _)
  -- every request has a hit of its own
  have hsub : (s.sentWithin tenantId userId t).map Prod.fst ⊆ (s.meter.hits.filter fun x =>
      (x.key = intelligenceRateKey tenantId userId ∧ x.number ≤ 60) ∧ t ≤ x.time ∧ x.time < t + 60000 + 1).map
        Hit.label := by
    intro i hi
    obtain ⟨⟨_, r⟩, hr, rfl⟩ := List.mem_map.mp hi
    obtain ⟨hsent, hof⟩ := List.mem_filter.mp hr
    obtain ⟨ht, hu, x, hx, hlabel, hfrom, hto⟩ := of_decide_eq_true hof
    obtain ⟨c, phase, y, -, -, hfor, hhits, hkey, hle⟩ := of_mem_sent h hsent
    have hmem : x ∈ s.hitsOf _ := List.mem_filter.mpr ⟨hx, decide_eq_true hlabel⟩
    have hxy : x = y := by
      rw [hhits] at hmem
      exact List.mem_singleton.mp hmem
    have hrate : c.rateKey = intelligenceRateKey tenantId userId := by
      rw [IntelligenceCall.rateKey, ← hfor.tenantId, ← hfor.userId, ht, hu]
    have hin : (x.key = intelligenceRateKey tenantId userId ∧ x.number ≤ 60) ∧ t ≤ x.time ∧
        x.time < t + 60000 + 1 := by
      rw [hxy] at hfrom hto ⊢
      exact ⟨⟨hkey.trans hrate, hle⟩, hfrom, Nat.lt_succ_of_le hto⟩
    exact List.mem_map.mpr ⟨x, List.mem_filter.mpr ⟨hx, decide_eq_true hin⟩, hlabel⟩
  have hlength := (List.subperm_of_subset hnodup hsub).length_le
  rw [List.length_map, List.length_map] at hlength
  exact Nat.le_trans hlength hall

theorem nodup_hits (h : ∀ j, s.Stands j) : (s.meter.hits.map Hit.label).Nodup := by
  rw [List.nodup_iff_count_le_one]
  intro i
  have hle := (h i).hits_le
  rw [hitsOf, ← List.countP_eq_length_filter] at hle
  rw [List.count, List.countP_map]
  exact Nat.le_trans (Nat.le_of_eq (List.countP_congr fun x _ => by simp)) hle

theorem of_mem_hits (h : ∀ j, s.Stands j) {x : Hit String Nat} (hx : x ∈ s.meter.hits) :
    ∃ c phase, s.calls x.label = some (c, phase) ∧ x.key = c.rateKey :=
  (h x.label).of_hit (List.mem_filter.mpr ⟨hx, decide_eq_true rfl⟩)

/-- A call of the user is counted between the two times. -/
def CountedBetween (s : Intelligence) (tenantId userId : UUID) (first last i : Nat) : Prop :=
  (∃ c phase, s.calls i = some (c, phase) ∧ c.caller.tenantId = tenantId ∧ c.caller.userId = userId) ∧
    ∃ x ∈ s.meter.hits, x.label = i ∧ first ≤ x.time ∧ x.time ≤ last

/-- A call that is limited comes after sixty others of its user in one minute. -/
theorem limited_after (h : ∀ j, s.Stands j) (hm : s.meter.Sound 60000 60)
    (hc : s.calls i = some (c, .answered .rateLimited)) : ∃ first last others,
    last ≤ first + 60000 ∧ s.CountedBetween c.caller.tenantId c.caller.userId first last i ∧
      (i :: others).Nodup ∧ others.length = 60 ∧
      ∀ j ∈ others, s.CountedBetween c.caller.tenantId c.caller.userId first last j := by
  have hi := h i
  rw [Stands, hc] at hi
  generalize hhits : s.hitsOf i = hs, s.sentOf i = rs, s.auditsOf i = as at hi
  cases hi with
  | refused hk => rcases IntelligenceCall.check_some hk with he | he | he <;> cases he
  | @rateLimited _ x hk hkey hlt =>
    have hmem : x ∈ s.hitsOf i := hhits ▸ List.mem_singleton_self x
    obtain ⟨hx, hlabel⟩ := List.mem_filter.mp hmem
    have hlabel : x.label = i := of_decide_eq_true hlabel
    obtain ⟨later, earlier, he⟩ := List.append_of_mem hx
    obtain ⟨opened, hfrom, hto, hwithin⟩ := hm.refused later earlier x he hlt
    have hnodup := nodup_hits h
    rw [he, List.map_append, List.map_cons, List.nodup_append] at hnodup
    obtain ⟨hnew, hearlier⟩ := List.nodup_cons.mp hnodup.2.1
    rw [within_admitted] at hwithin
    refine ⟨opened, x.time, _, hto, ⟨⟨c, _, hc, rfl, rfl⟩, x, hx, hlabel, hfrom, Nat.le_refl _⟩,
      List.nodup_cons.mpr ⟨?_, hearlier.sublist (List.filter_sublist.map Hit.label)⟩,
      (List.length_map _).trans hwithin, ?_⟩
    · intro hin
      exact hnew (hlabel ▸ (List.filter_sublist.map _).subset hin)
    · intro j hj
      obtain ⟨y, hy, rfl⟩ := List.mem_map.mp hj
      obtain ⟨hy, hcounted⟩ := List.mem_filter.mp hy
      obtain ⟨⟨hykey, -⟩, hyfrom, hyto⟩ := of_decide_eq_true hcounted
      have hyhits : y ∈ s.meter.hits := he ▸ List.mem_append_right _ (List.mem_cons_of_mem x hy)
      obtain ⟨c', phase, hc', hkey'⟩ := of_mem_hits h hyhits
      have huser := intelligenceRateKey_inj (hkey'.symm.trans (hykey.trans hkey))
      exact ⟨⟨c', phase, hc', huser.1, huser.2⟩, y, hyhits, rfl, hyfrom, Nat.le_of_lt_succ hyto⟩

theorem forwarding_limited (h : (system J serviceToken).Reachable s) (tenantId userId : UUID) :
    (∀ t, (s.sentWithin tenantId userId t).length ≤ 120) ∧
      ∀ i c, s.calls i = some (c, .answered .rateLimited) → c.caller.tenantId = tenantId →
        c.caller.userId = userId → ∃ first last others, last ≤ first + 60000 ∧
          s.CountedBetween tenantId userId first last i ∧ (i :: others).Nodup ∧ others.length = 60 ∧
            ∀ j ∈ others, s.CountedBetween tenantId userId first last j := by
  refine ⟨length_sentWithin (stands h) (sound h) tenantId userId, fun i c hc ht hu => ?_⟩
  obtain ⟨first, last, others, hle, hi, hnodup, hlength, hall⟩ := limited_after (stands h) (sound h) hc
  rw [ht, hu] at hi hall
  exact ⟨first, last, others, hle, hi, hnodup, hlength, hall⟩

def searchCall : IntelligenceCall where
  caller := ⟨⟨"7b1d4f6e-0000-4000-8000-0000000000f1", Eq.refl true⟩,
    ⟨"7b1d4f6e-0000-4000-8000-0000000000f0", Eq.refl true⟩, ["ANALYST"], "token"⟩
  endpoint := .search
  body := "\x7b\x7d"
  traceId := "4bf92f3577b34da6a3ce929d0e0e4736"

def plainText : JavaText := ⟨id, fun _ => Vector.replicate 32 0⟩

theorem searchCall_check : searchCall.check = none := rfl

theorem step_request (hc : s.calls i = none) :
    (system J serviceToken).step s (.request i searchCall) (s.put i searchCall .accepted) := by
  change next J serviceToken s _ = _
  simp only [next, hc, searchCall_check]
  rfl

theorem step_execute (hc : s.calls i = some (c, .accepted)) : (system J serviceToken).step s (.execute i)
    ((s.incr i c).put i c (if 60 < s.number c then .limited else .admitted)) := by
  change next J serviceToken s _ = _
  simp only [next, hc]

theorem step_recordLimited (hc : s.calls i = some (c, .limited)) : (system J serviceToken).step s (.recordOutcome i)
    ((s.record i c "RATE_LIMITED").put i c (.answered .rateLimited)) := by
  change next J serviceToken s _ = _
  simp only [next, hc]

/-- In one moment a user may search any number of times. -/
theorem searches_counted (J : JavaText) (serviceToken : String) (n : Nat) : ∃ s,
    (system J serviceToken).Reachable s ∧ s.meter.now = 0 ∧
      count 60000 0 (s.meter.windows searchCall.rateKey) = ⟨n + 1, 60000⟩ ∧ ∀ i, n ≤ i → s.calls i = none := by
  induction n with
  | zero => exact ⟨{}, .start rfl, rfl, rfl, fun i _ => rfl⟩
  | succ n ih =>
    obtain ⟨s, hs, hnow, hcount, hfree⟩ := ih
    have hput : (s.put n searchCall .accepted).calls n = some (searchCall, .accepted) := by
      rw [calls_put, if_pos rfl]
    refine ⟨_, (hs.step (step_request (hfree n (Nat.le_refl n)))).step (step_execute hput), hnow, ?_, fun i hi => ?_⟩
    · change count 60000 0 ((s.meter.hit 60000 n searchCall.rateKey).windows searchCall.rateKey) = _
      rw [Meter.windows_hit, if_pos rfl, hnow, hcount]
      rfl
    · have hne : i ≠ n := by omega
      change (((s.put n searchCall .accepted).incr n searchCall).put n searchCall _).calls i = none
      rw [calls_put, if_neg hne]
      change (s.put n searchCall .accepted).calls i = none
      rw [calls_put, if_neg hne, hfree i (by omega)]

/-- The sixty-first search of a moment is limited. -/
theorem searches_limited : ∃ s : Intelligence, ∃ i first last others,
    s.calls i = some (searchCall, .answered .rateLimited) ∧ last ≤ first + 60000 ∧
      s.CountedBetween searchCall.caller.tenantId searchCall.caller.userId first last i ∧ (i :: others).Nodup ∧
      others.length = 60 ∧
      ∀ j ∈ others, s.CountedBetween searchCall.caller.tenantId searchCall.caller.userId first last j := by
  obtain ⟨s, hs, hnow, hcount, hfree⟩ := searches_counted plainText "service" 60
  have hput : (s.put 60 searchCall .accepted).calls 60 = some (searchCall, .accepted) := by
    rw [calls_put, if_pos rfl]
  have hnumber : 60 < (s.put 60 searchCall .accepted).number searchCall := by
    change 60 < (count 60000 s.meter.now (s.meter.windows searchCall.rateKey)).count
    rw [hnow, hcount]
    decide
  have hexecute : (system plainText "service").step _ (.execute 60) _ := step_execute hput
  rw [if_pos hnumber] at hexecute
  have hreach := ((hs.step (step_request (hfree 60 (Nat.le_refl 60)))).step hexecute).step
    (step_recordLimited (by rw [calls_put, if_pos rfl]))
  have hcalls : ((((s.put 60 searchCall .accepted).incr 60 searchCall).put 60 searchCall .limited).record 60 searchCall
      "RATE_LIMITED" |>.put 60 searchCall (.answered .rateLimited)).calls 60 =
      some (searchCall, .answered .rateLimited) := by
    rw [calls_put, if_pos rfl]
  obtain ⟨first, last, others, hafter⟩ := (forwarding_limited hreach _ _).2 60 searchCall hcalls rfl rfl
  exact ⟨_, 60, first, last, others, hcalls, hafter⟩

end Intelligence

namespace IntelligenceCall
variable {c : IntelligenceCall}

theorem role_mem (h : c.check = none) : c.role ∈ c.caller.roles := by
  rw [check] at h
  split at h
  next => cases h
  next hok =>
    obtain ⟨⟨role, hmem, hrole⟩, -⟩ := not_or.mp hok |>.imp not_not.mp id
    rw [IntelligenceCall.role]
    split
    next ha => exact ha
    next ha =>
      split
      next hb => exact hb
      next hb =>
        simp only [List.mem_cons, List.not_mem_nil, or_false] at hrole
        rcases hrole with he | he | he
        · exact absurd (he ▸ hmem) ha
        · exact absurd (he ▸ hmem) hb
        · exact he ▸ hmem

/-- The agent service is asked to extract for an administrator alone. -/
theorem role_extract (h : c.check = none) (hp : c.endpoint.path = "/internal/v1/graph/extract") :
    c.role = "ADMIN" := by
  rw [check] at h
  split at h
  next => cases h
  next =>
    cases he : c.endpoint with
    | graph operation =>
      rw [he] at h hp
      have hop : operation = "extract" := (String.append_right_inj "/internal/v1/graph/").mp hp
      simp only [hop] at h
      split at h
      next => cases h
      next =>
        split at h
        next => cases h
        next hadmin =>
          rw [IntelligenceCall.role, if_pos]
          exact not_not.mp fun hn => hadmin ⟨trivial, hn⟩
    | search =>
      rw [he] at hp
      exact absurd hp (by decide)
    | mcp =>
      rw [he] at hp
      exact absurd hp (by decide)

end IntelligenceCall

namespace Intelligence
variable {J : JavaText} {serviceToken : String} {s : Intelligence}

/-- Every request is sent once, for a call that passed the checks, with the identity of its caller and a role
that he has; and of every answer there is one record, of every other end none. -/
theorem forwarding_accounted (h : (system J serviceToken).Reachable s) :
    (s.sent.map Prod.fst).Nodup ∧
      (∀ i r, (i, r) ∈ s.sent → ∃ c phase, s.calls i = some (c, phase) ∧ c.check = none ∧ r.For c ∧
        r.role ∈ c.caller.roles ∧ (r.path = "/internal/v1/graph/extract" → r.role = "ADMIN")) ∧
      ∀ i c response, s.calls i = some (c, .answered response) →
        s.auditsOf i = response.outcomes.map c.audit ∧ (response.stopped = true → s.sentOf i = []) := by
  have hstands := stands h
  refine ⟨nodup_sent hstands, fun i r hr => ?_, fun i c response hc => ?_⟩
  · obtain ⟨c, phase, -, hc, hk, hfor, -⟩ := of_mem_sent hstands hr
    refine ⟨c, phase, hc, hk, hfor, ?_, fun hp => ?_⟩
    · rw [hfor.role]
      exact IntelligenceCall.role_mem hk
    · rw [hfor.role]
      exact IntelligenceCall.role_extract hk (hfor.path.symm.trans hp)
  · have hi := hstands i
    rw [Stands, hc] at hi
    generalize s.hitsOf i = hs, s.sentOf i = rs, s.auditsOf i = as at hi
    cases hi with
    | refused hk =>
      rcases IntelligenceCall.check_some hk with he | he | he
      · exact he ▸ ⟨rfl, fun _ => rfl⟩
      · exact he ▸ ⟨rfl, fun _ => rfl⟩
      · exact he ▸ ⟨rfl, fun _ => rfl⟩
    | raised => exact ⟨rfl, fun hn => nomatch hn⟩
    | rateLimited => exact ⟨rfl, fun _ => rfl⟩
    | relayed => exact ⟨rfl, fun hn => nomatch hn⟩
    | failed => exact ⟨rfl, fun hn => nomatch hn⟩

def searchMoves : List IntelligenceMove :=
  [.request 1 searchCall, .execute 1, .send 1 [⟨"0f8fad5b-d9cb-469f-a165-70867728950e", Eq.refl true⟩],
    .reply 1 200 [91, 93], .recordOutcome 1]

/-- A search that is answered, recorded once. -/
theorem search_accounted : ∃ s : Intelligence, s.calls 1 = some (searchCall, .answered (.relayed 200 [91, 93])) ∧
    s.auditsOf 1 = [searchCall.audit "SUCCESS"] ∧ (s.sent.map Prod.fst).Nodup := by
  obtain ⟨s, hs, hc⟩ : ∃ s, searchMoves.foldlM (next plainText "service") {} = some s ∧
      s.calls 1 = some (searchCall, .answered (.relayed 200 [91, 93])) := ⟨_, rfl, rfl⟩
  have hreach : (system plainText "service").Reachable s :=
    (Transition.System.Reachable.start rfl).foldlM (fun _ _ _ h => h) hs
  have haccounted := forwarding_accounted hreach
  exact ⟨s, hc, (haccounted.2.2 1 searchCall _ hc).1, haccounted.1⟩

end Intelligence
end DataCopilot.Platform
