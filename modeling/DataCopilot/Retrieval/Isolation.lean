import DataCopilot.Library.Isolation
import DataCopilot.Retrieval.CacheTransparency

/-! What the calls of a tenant find does not depend on the other tenants: without their calls the same calls end
in the same way, out of the cache or not. -/
namespace DataCopilot.Retrieval
open Transition

/-- Two caches have the same for a tenant. -/
structure CacheAlike (tenantId : UUID) (c d : RetrievalCache) : Prop where
  ttl : c.ttlSeconds = d.ttlSeconds
  entries : ∀ key : CacheKey, key.tenantId = tenantId → c.entries key = d.entries key

namespace CacheAlike
variable {tenantId other : UUID} {c d : RetrievalCache} {now : ℚ} {key : CacheKey} {result : RetrievalResult}
variable {limit : Nat}

theorem refl : CacheAlike tenantId c c := ⟨rfl, fun _ _ => rfl⟩

theorem get (h : CacheAlike tenantId c d) (now : ℚ) {key : CacheKey} (hk : key.tenantId = tenantId) :
    (c.get now key).2 = (d.get now key).2 ∧ CacheAlike tenantId (c.get now key).1 (d.get now key).1 := by
  simp only [RetrievalCache.get, ← h.entries key hk]
  cases c.entries key with
  | none => exact ⟨rfl, h⟩
  | some e =>
    by_cases he : e.expiresAt ≤ now
    · simp only [he, if_true, true_and]
      refine ⟨h.ttl, fun k hk => ?_⟩
      simp only [Function.update_apply, h.entries k hk]
    · simp only [he, if_false, true_and]
      exact h

theorem get_other (h : CacheAlike tenantId c d) (hk : key.tenantId ≠ tenantId) :
    CacheAlike tenantId (c.get now key).1 d := by
  simp only [RetrievalCache.get]
  cases c.entries key with
  | none => exact h
  | some e =>
    by_cases he : e.expiresAt ≤ now
    · simp only [he, if_true]
      refine ⟨h.ttl, fun k hk' => ?_⟩
      have hne : k ≠ key := fun hkk => hk (hkk ▸ hk')
      simp only [Function.update_of_ne hne, h.entries k hk']
    · simp only [he, if_false]
      exact h

theorem put (h : CacheAlike tenantId c d) :
    CacheAlike tenantId (c.put now other result limit) (d.put now other result limit) := by
  refine ⟨h.ttl, fun k hk => ?_⟩
  simp only [RetrievalCache.put, Function.update_apply, h.entries k hk, h.ttl]

theorem put_other (h : CacheAlike tenantId c d) (ho : other ≠ tenantId) :
    CacheAlike tenantId (c.put now other result limit) d := by
  refine ⟨h.ttl, fun k hk => ?_⟩
  have hne : k ≠ result.key other limit := fun he => ho (hk ▸ he ▸ rfl)
  simp only [RetrievalCache.put, Function.update_of_ne hne, h.entries k hk]

theorem invalidateTenant (h : CacheAlike tenantId c d) (other : UUID) :
    CacheAlike tenantId (c.invalidateTenant other) (d.invalidateTenant other) := by
  refine ⟨h.ttl, fun k hk => ?_⟩
  simp only [RetrievalCache.invalidateTenant, h.entries k hk]

theorem invalidateTenant_other (h : CacheAlike tenantId c d) (ho : other ≠ tenantId) :
    CacheAlike tenantId (c.invalidateTenant other) d := by
  refine ⟨h.ttl, fun k hk => ?_⟩
  have hne : k.tenantId ≠ other := fun he => ho (he ▸ hk)
  simp only [RetrievalCache.invalidateTenant, if_pos hne, h.entries k hk]

end CacheAlike

namespace Retrieving
variable {σ υ χ : Type} {R : Revision.Store σ υ UUID χ String} {Q : Searches χ} {S : MetricRetrievalService}
variable {same : UUID → σ → σ → Prop} {tenantId : UUID}

/-- The moves of the calls of a tenant, and those of the clocks. -/
def Concerns (R : Revision.Store σ υ UUID χ String) (tenantId : UUID) (s : Retrieving σ) : RetrieveMove υ → Prop
  | .retrieve _ _ t _ _ _ => t = tenantId
  | .corpusRevision i | .get i | .lexicalSearch i | .vectorSearch i | .put i | .raise i =>
    ∃ p a phase, s.calls i = some ⟨p, a, phase⟩ ∧ a.tenantId = tenantId
  | .replaceDocument _ _ u => R.owner u = tenantId
  | .invalidateTenant k => ∃ p, s.ingests k = some (p, tenantId)
  | .tick _ _ => True

/-- Two calls stand alike when they differ in the states of the store alone that they remember. -/
inductive PhaseAlike (same : σ → σ → Prop) : RetrievePhase σ → RetrievePhase σ → Prop
  | reading : PhaseAlike same .reading .reading
  | looking {r r' : σ} : same r r' → PhaseAlike same (.looking r) (.looking r')
  | missed {r r' : σ} : same r r' → PhaseAlike same (.missed r) (.missed r')
  | searched {r r' : σ} {lexical : List RankedChunk} {saw saw' : List σ} : same r r' →
      PhaseAlike same (.searched r lexical saw) (.searched r' lexical saw')
  | storing {r r' : σ} {result : RetrievalResult} {saw saw' : List σ} : same r r' →
      PhaseAlike same (.storing r result saw) (.storing r' result saw')
  | answered {r r' : σ} {cached : Bool} {result : RetrievalResult} : same r r' →
      PhaseAlike same (.answered r cached result) (.answered r' cached result)
  | raised : PhaseAlike same .raised .raised

/-- The calls of other tenants are not there. -/
inductive CallAlike (same : UUID → σ → σ → Prop) (tenantId : UUID) :
    Option (RetrieveCall σ) → Option (RetrieveCall σ) → Prop
  | none : CallAlike same tenantId none none
  | other {p : Nat} {a : RetrieveArguments} {phase : RetrievePhase σ} : a.tenantId ≠ tenantId →
      CallAlike same tenantId (some ⟨p, a, phase⟩) .none
  | own {p : Nat} {a : RetrieveArguments} {phase phase' : RetrievePhase σ} : a.tenantId = tenantId →
      PhaseAlike (same tenantId) phase phase' → CallAlike same tenantId (some ⟨p, a, phase⟩) (some ⟨p, a, phase'⟩)

inductive IngestAlike (tenantId : UUID) : Option (Nat × UUID) → Option (Nat × UUID) → Prop
  | none : IngestAlike tenantId none none
  | other {p : Nat} {t : UUID} : t ≠ tenantId → IngestAlike tenantId (some (p, t)) .none
  | own {p : Nat} : IngestAlike tenantId (some (p, tenantId)) (some (p, tenantId))

/-- What passes the checks of `retrieve` is for the tenant that asks. -/
theorem arguments_tenant {tenant : UUID} {query : String} {mode : RetrievalMode} {limit : Option Int}
    {a : RetrieveArguments} (h : S.arguments tenant query mode limit = .ok a) : a.tenantId = tenant := by
  simp only [MetricRetrievalService.arguments] at h
  split at h
  · cases h
  · split at h
    · cases h
      rfl
    · cases h

/-- `u` is `s` without the other tenants. -/
structure Alike (same : UUID → σ → σ → Prop) (tenantId : UUID) (s u : Retrieving σ) : Prop where
  store : same tenantId s.store u.store
  caches : ∀ p, CacheAlike tenantId (s.caches p) (u.caches p)
  clocks : s.clocks = u.clocks
  calls : ∀ i, CallAlike same tenantId (s.calls i) (u.calls i)
  ingests : ∀ k, IngestAlike tenantId (s.ingests k) (u.ingests k)

namespace Alike
variable {s u : Retrieving σ} {i p : Nat} {a : RetrieveArguments} {phase phase' : RetrievePhase σ}

theorem own (h : Alike same tenantId s u) (hc : s.calls i = some ⟨p, a, phase⟩) (ha : a.tenantId = tenantId) :
    ∃ phase', u.calls i = some ⟨p, a, phase'⟩ ∧ PhaseAlike (same tenantId) phase phase' := by
  have hi := h.calls i
  rw [hc] at hi
  generalize hu : u.calls i = call at hi
  cases hi with
  | other hne => exact absurd ha hne
  | own _ hp => exact ⟨_, rfl, hp⟩

theorem free (h : Alike same tenantId s u) (hc : s.calls i = none) : u.calls i = none := by
  have hi := h.calls i
  rw [hc] at hi
  generalize hu : u.calls i = call at hi
  cases hi
  rfl

theorem put (h : Alike same tenantId s u) (ha : a.tenantId = tenantId)
    (hp : PhaseAlike (same tenantId) phase phase') : Alike same tenantId (s.put i p a phase) (u.put i p a phase') := by
  refine ⟨h.store, h.caches, h.clocks, fun j => ?_, h.ingests⟩
  simp only [Retrieving.put, Function.update_apply]
  by_cases hj : j = i
  · rw [if_pos hj, if_pos hj]
    exact .own ha hp
  · rw [if_neg hj, if_neg hj]
    exact h.calls j

/-- The place of a call of another tenant is free without it. -/
theorem other_free (h : Alike same tenantId s u) (hc : ∀ p a phase, s.calls i = some ⟨p, a, phase⟩ →
    a.tenantId ≠ tenantId) : u.calls i = none := by
  have hi := h.calls i
  generalize hs : s.calls i = before at hi
  generalize hu : u.calls i = call at hi
  cases hi with
  | none => rfl
  | other => rfl
  | own ha => exact absurd ha (hc _ _ _ hs)

theorem put_other (h : Alike same tenantId s u) (ha : a.tenantId ≠ tenantId) (hu : u.calls i = none) :
    Alike same tenantId (s.put i p a phase) u := by
  refine ⟨h.store, h.caches, h.clocks, fun j => ?_, h.ingests⟩
  simp only [Retrieving.put, Function.update_apply]
  by_cases hj : j = i
  · rw [if_pos hj, hj, hu]
    exact .other ha
  · rw [if_neg hj]
    exact h.calls j

theorem setCache {c d : RetrievalCache} (h : Alike same tenantId s u) (hc : CacheAlike tenantId c d) :
    Alike same tenantId (s.setCache p c) (u.setCache p d) := by
  refine ⟨h.store, fun p' => ?_, h.clocks, h.calls, h.ingests⟩
  simp only [Retrieving.setCache, Function.update_apply]
  by_cases hp : p' = p
  · rw [if_pos hp, if_pos hp]
    exact hc
  · rw [if_neg hp, if_neg hp]
    exact h.caches p'

theorem setCache_other {c : RetrievalCache} (h : Alike same tenantId s u)
    (hc : CacheAlike tenantId c (u.caches p)) : Alike same tenantId (s.setCache p c) u := by
  refine ⟨h.store, fun p' => ?_, h.clocks, h.calls, h.ingests⟩
  simp only [Retrieving.setCache, Function.update_apply]
  by_cases hp : p' = p
  · rw [if_pos hp, hp]
    exact hc
  · rw [if_neg hp]
    exact h.caches p'

/-! A move of another tenant leaves what the tenant sees. -/

variable {t : Retrieving σ} {m : RetrieveMove υ} {read : σ} {result : RetrievalResult}

theorem get_other (h : Alike same tenantId s u) (hc : s.calls i = some ⟨p, a, phase⟩)
    (ha : a.tenantId ≠ tenantId) : Alike same tenantId (s.get R i p a read) u := by
  have hfree : u.calls i = none := h.other_free fun p' a' phase' hc' => by
    rw [hc] at hc'
    cases hc'
    exact ha
  exact (h.setCache_other ((h.caches p).get_other ha)).put_other ha hfree

theorem answer_other (h : Alike same tenantId s u) (hc : s.calls i = some ⟨p, a, phase⟩)
    (ha : a.tenantId ≠ tenantId) : Alike same tenantId (s.answer i p a read result) u := by
  have hfree : u.calls i = none := h.other_free fun p' a' phase' hc' => by
    rw [hc] at hc'
    cases hc'
    exact ha
  exact (h.setCache_other ((h.caches p).put_other ha)).put_other ha hfree

theorem replaceDocument_other (hR : R.Separate same) (h : Alike same tenantId s u) {k : Nat} {x : υ}
    (hok : R.ok s.store x) (hk : s.ingests k = none) (hx : R.owner x ≠ tenantId) :
    Alike same tenantId (s.replaceDocument R p k x) u := by
  refine ⟨hR.others _ _ _ _ h.store hok hx.symm, h.caches, h.clocks, h.calls, fun j => ?_⟩
  have hj := h.ingests k
  rw [hk] at hj
  simp only [Retrieving.replaceDocument, Function.update_apply]
  by_cases hjk : j = k
  · rw [if_pos hjk, hjk]
    generalize u.ingests k = ingest at hj
    cases hj
    exact .other hx
  · rw [if_neg hjk]
    exact h.ingests j

theorem invalidateTenant_other (h : Alike same tenantId s u) {k : Nat} {t : UUID}
    (hk : s.ingests k = some (p, t)) (ht : t ≠ tenantId) : Alike same tenantId (s.invalidateTenant p k t) u := by
  have hcache := h.setCache_other ((h.caches p).invalidateTenant_other ht)
  refine ⟨hcache.store, hcache.caches, hcache.clocks, hcache.calls, fun j => ?_⟩
  have hj := h.ingests k
  rw [hk] at hj
  simp only [Retrieving.invalidateTenant, Function.update_apply]
  by_cases hjk : j = k
  · rw [if_pos hjk, hjk]
    generalize u.ingests k = ingest at hj
    cases hj with
    | other => exact .none
    | own => exact absurd rfl ht
  · rw [if_neg hjk]
    exact h.ingests j

theorem others (hR : R.Separate same) (h : Alike same tenantId s u) (hok : Allowed R s m)
    (hn : s.next R Q S m = some t) (ho : ¬ Concerns R tenantId s m) : Alike same tenantId t u := by
  -- a call of the tenant is not the one that moves
  have hne {i p : Nat} {a : RetrieveArguments} {phase : RetrievePhase σ} (hc : s.calls i = some ⟨p, a, phase⟩)
      (hcon : (∃ p a phase, s.calls i = some ⟨p, a, phase⟩ ∧ a.tenantId = tenantId) → Concerns R tenantId s m) :
      a.tenantId ≠ tenantId := fun ha => ho (hcon ⟨p, a, phase, hc, ha⟩)
  have hmoved {i p : Nat} {a : RetrieveArguments} {phase phase' : RetrievePhase σ}
      (hc : s.calls i = some ⟨p, a, phase⟩) (ha : a.tenantId ≠ tenantId) :
      Alike same tenantId (s.put i p a phase') u := by
    refine h.put_other ha (h.other_free fun p' a' phase'' hc' => ?_)
    rw [hc] at hc'
    cases hc'
    exact ha
  cases m with
  | retrieve i p tenant query mode limit =>
    rw [next] at hn
    split at hn
    next => cases hn
    next hc =>
      split at hn
      next a harguments =>
        injection hn with hn
        rw [← hn]
        have ha : a.tenantId = tenant := arguments_tenant harguments
        exact h.put_other (fun he => ho (ha.symm.trans he)) (h.free hc)
      next =>
        injection hn with hn
        rw [← hn]
        exact h
  | corpusRevision i =>
    rw [next] at hn
    split at hn
    next hc =>
      injection hn with hn
      rw [← hn]
      exact hmoved hc (hne hc id)
    next => cases hn
  | get i =>
    rw [next] at hn
    split at hn
    next hc =>
      injection hn with hn
      rw [← hn]
      exact h.get_other hc (hne hc id)
    next => cases hn
  | lexicalSearch i =>
    rw [next] at hn
    split at hn
    next hc =>
      injection hn with hn
      rw [← hn]
      exact hmoved hc (hne hc id)
    next => cases hn
  | vectorSearch i =>
    rw [next] at hn
    split at hn
    next hc =>
      injection hn with hn
      rw [← hn]
      exact hmoved hc (hne hc id)
    next => cases hn
  | put i =>
    rw [next] at hn
    split at hn
    next hc =>
      injection hn with hn
      rw [← hn]
      exact h.answer_other hc (hne hc id)
    next => cases hn
  | raise i =>
    rw [next] at hn
    split at hn
    next => cases hn
    next hc =>
      injection hn with hn
      rw [← hn]
      exact hmoved hc (hne hc id)
    next => cases hn
  | replaceDocument k p x =>
    rw [next] at hn
    split at hn
    next => cases hn
    next hk =>
      injection hn with hn
      rw [← hn]
      exact h.replaceDocument_other hR hok hk ho
  | invalidateTenant k =>
    rw [next] at hn
    split at hn
    next p t hk =>
      injection hn with hn
      rw [← hn]
      exact h.invalidateTenant_other hk fun ht => ho ⟨p, ht ▸ hk⟩
    next => cases hn
  | tick p now => exact absurd trivial ho

/-! A move of the tenant is possible without the others, and comes to the same. -/

theorem get_own (hR : R.Separate same) (h : Alike same tenantId s u) (ha : a.tenantId = tenantId) {r r' : σ}
    (hr : same tenantId r r') : Alike same tenantId (s.get R i p a r) (u.get R i p a r') := by
  have hkey : keyOf R a r = keyOf R a r' := by
    rw [keyOf, keyOf, ha, hR.revision _ _ _ hr]
  have hkeyed : (keyOf R a r').tenantId = tenantId := ha
  obtain ⟨hfound, hcache⟩ := (h.caches p).get (u.clocks p) hkeyed
  simp only [Retrieving.get, hkey, h.clocks, hfound]
  refine (h.setCache hcache).put ha ?_
  split
  · exact .answered hr
  · exact .missed hr

theorem lexicalSearch_own (hR : R.Separate same) (h : Alike same tenantId s u) (ha : a.tenantId = tenantId)
    {r r' : σ} (hr : same tenantId r r') :
    Alike same tenantId (s.lexicalSearch R Q i p a r) (u.lexicalSearch R Q i p a r') := by
  have hcontent : R.content s.store a.tenantId = R.content u.store a.tenantId := by
    rw [ha]
    exact hR.content _ _ _ h.store
  simp only [Retrieving.lexicalSearch, hcontent]
  exact h.put ha (.searched hr)

theorem vectorSearch_own (hR : R.Separate same) (h : Alike same tenantId s u) (ha : a.tenantId = tenantId)
    {r r' : σ} {lexical : List RankedChunk} {saw saw' : List σ} (hr : same tenantId r r') :
    Alike same tenantId (s.vectorSearch R Q S i p a r lexical saw) (u.vectorSearch R Q S i p a r' lexical saw') := by
  have hcontent : R.content s.store a.tenantId = R.content u.store a.tenantId := by
    rw [ha]
    exact hR.content _ _ _ h.store
  have hrevision : R.revision r a.tenantId = R.revision r' a.tenantId := by
    rw [ha]
    exact hR.revision _ _ _ hr
  simp only [Retrieving.vectorSearch, hcontent, hrevision]
  refine h.put ha ?_
  split
  · exact .storing hr
  · exact .raised

theorem answer_own (h : Alike same tenantId s u) (ha : a.tenantId = tenantId) {r r' : σ}
    (hr : same tenantId r r') : Alike same tenantId (s.answer i p a r result) (u.answer i p a r' result) := by
  simp only [Retrieving.answer, h.clocks]
  exact (h.setCache (h.caches p).put).put ha (.answered hr)

theorem replaceDocument_own (hR : R.Separate same) (h : Alike same tenantId s u) {k : Nat} {x : υ}
    (hok : R.ok s.store x) (hx : R.owner x = tenantId) :
    Alike same tenantId (s.replaceDocument R p k x) (u.replaceDocument R p k x) := by
  refine ⟨(hR.own _ _ _ _ h.store hok hx.symm).2, h.caches, h.clocks, h.calls, fun j => ?_⟩
  simp only [Retrieving.replaceDocument, Function.update_apply]
  by_cases hjk : j = k
  · rw [if_pos hjk, if_pos hjk, hx]
    exact .own
  · rw [if_neg hjk, if_neg hjk]
    exact h.ingests j

theorem invalidateTenant_own (h : Alike same tenantId s u) {k : Nat} :
    Alike same tenantId (s.invalidateTenant p k tenantId) (u.invalidateTenant p k tenantId) := by
  have hcache := h.setCache (p := p) ((h.caches p).invalidateTenant tenantId)
  refine ⟨hcache.store, hcache.caches, hcache.clocks, hcache.calls, fun j => ?_⟩
  simp only [Retrieving.invalidateTenant, Function.update_apply]
  by_cases hjk : j = k
  · rw [if_pos hjk, if_pos hjk]
    exact .none
  · rw [if_neg hjk, if_neg hjk]
    exact h.ingests j

/-- The move is the tenant's own after `u` as well, and leads from there to what is the same for the tenant. -/
def Matches (R : Revision.Store σ υ UUID χ String) (Q : Searches χ) (S : MetricRetrievalService)
    (same : UUID → σ → σ → Prop) (tenantId : UUID) (u t : Retrieving σ) (m : RetrieveMove υ) : Prop :=
  Concerns R tenantId u m ∧ ∃ v, Allowed R u m ∧ u.next R Q S m = some v ∧ Alike same tenantId t v

theorem own_tenantId (hc : s.calls i = some ⟨p, a, phase⟩)
    (ho : ∃ p a phase, s.calls i = some ⟨p, a, phase⟩ ∧ a.tenantId = tenantId) : a.tenantId = tenantId := by
  obtain ⟨p', a', phase', hc', ha⟩ := ho
  rw [hc] at hc'
  cases hc'
  exact ha

theorem next_retrieve {tenant : UUID} {query : String} {mode : RetrievalMode} {limit : Option Int}
    (h : Alike same tenantId s u) (hn : s.next R Q S (.retrieve i p tenant query mode limit) = some t)
    (ho : Concerns R tenantId s (.retrieve i p tenant query mode limit)) :
    Matches R Q S same tenantId u t (.retrieve i p tenant query mode limit) := by
  refine ⟨ho, ?_⟩
  rw [next] at hn
  split at hn
  next => cases hn
  next hc =>
    split at hn
    next a harguments =>
      injection hn with hn
      rw [← hn]
      refine ⟨_, trivial, ?_, h.put ((arguments_tenant harguments).trans ho) .reading⟩
      simp only [next, h.free hc, harguments]
    next harguments =>
      injection hn with hn
      rw [← hn]
      refine ⟨_, trivial, ?_, h⟩
      simp only [next, h.free hc, harguments]

theorem next_corpusRevision (h : Alike same tenantId s u)
    (hn : s.next R Q S (.corpusRevision i) = some t) (ho : Concerns R tenantId s (.corpusRevision i)) :
    Matches R Q S same tenantId u t (.corpusRevision i) := by
  rw [next] at hn
  split at hn
  next hc =>
    injection hn with hn
    rw [← hn]
    obtain ⟨_, hu, hp⟩ := h.own hc (own_tenantId hc ho)
    cases hp
    refine ⟨⟨_, _, _, hu, own_tenantId hc ho⟩, _, trivial, ?_, h.put (own_tenantId hc ho) (.looking h.store)⟩
    simp only [next, hu]
  next => cases hn

theorem next_get (hR : R.Separate same) (h : Alike same tenantId s u)
    (hn : s.next R Q S (.get i) = some t) (ho : Concerns R tenantId s (.get i)) :
    Matches R Q S same tenantId u t (.get i) := by
  rw [next] at hn
  split at hn
  next hc =>
    injection hn with hn
    rw [← hn]
    obtain ⟨_, hu, hp⟩ := h.own hc (own_tenantId hc ho)
    cases hp with
    | looking hr =>
      refine ⟨⟨_, _, _, hu, own_tenantId hc ho⟩, _, trivial, ?_, h.get_own hR (own_tenantId hc ho) hr⟩
      simp only [next, hu]
  next => cases hn

theorem next_lexicalSearch (hR : R.Separate same) (h : Alike same tenantId s u)
    (hn : s.next R Q S (.lexicalSearch i) = some t) (ho : Concerns R tenantId s (.lexicalSearch i)) :
    Matches R Q S same tenantId u t (.lexicalSearch i) := by
  rw [next] at hn
  split at hn
  next hc =>
    injection hn with hn
    rw [← hn]
    obtain ⟨_, hu, hp⟩ := h.own hc (own_tenantId hc ho)
    cases hp with
    | missed hr =>
      refine ⟨⟨_, _, _, hu, own_tenantId hc ho⟩, _, trivial, ?_, h.lexicalSearch_own hR (own_tenantId hc ho) hr⟩
      simp only [next, hu]
  next => cases hn

theorem next_vectorSearch (hR : R.Separate same) (h : Alike same tenantId s u)
    (hn : s.next R Q S (.vectorSearch i) = some t) (ho : Concerns R tenantId s (.vectorSearch i)) :
    Matches R Q S same tenantId u t (.vectorSearch i) := by
  rw [next] at hn
  split at hn
  next p a read lexical saw hc =>
    injection hn with hn
    rw [← hn]
    obtain ⟨_, hu, hp⟩ := h.own hc (own_tenantId hc ho)
    cases hp with
    | @searched _ read' _ _ saw' hr =>
      refine ⟨⟨_, _, _, hu, own_tenantId hc ho⟩, u.vectorSearch R Q S i p a read' lexical saw', trivial, ?_, ?_⟩
      · simp only [next, hu]
      · exact h.vectorSearch_own hR (own_tenantId hc ho) hr
  next => cases hn

theorem next_put (h : Alike same tenantId s u)
    (hn : s.next R Q S (.put i) = some t) (ho : Concerns R tenantId s (.put i)) :
    Matches R Q S same tenantId u t (.put i) := by
  rw [next] at hn
  split at hn
  next hc =>
    injection hn with hn
    rw [← hn]
    obtain ⟨_, hu, hp⟩ := h.own hc (own_tenantId hc ho)
    cases hp with
    | storing hr =>
      refine ⟨⟨_, _, _, hu, own_tenantId hc ho⟩, _, trivial, ?_, h.answer_own (own_tenantId hc ho) hr⟩
      simp only [next, hu]
  next => cases hn

theorem next_raise (h : Alike same tenantId s u)
    (hn : s.next R Q S (.raise i) = some t) (ho : Concerns R tenantId s (.raise i)) :
    Matches R Q S same tenantId u t (.raise i) := by
  rw [next] at hn
  split at hn
  next => cases hn
  next p a phase hopen hc =>
    injection hn with hn
    rw [← hn]
    obtain ⟨_, hu, hp⟩ := h.own hc (own_tenantId hc ho)
    refine ⟨⟨_, _, _, hu, own_tenantId hc ho⟩, _, trivial, ?_, h.put (own_tenantId hc ho) .raised⟩
    cases hp with
    | answered => exact (hopen _ _ _ rfl).elim
    | _ => simp only [next, hu]
  next => cases hn

theorem next_replaceDocument {k : Nat} {x : υ} (hR : R.Separate same) (h : Alike same tenantId s u)
    (hok : Allowed R s (.replaceDocument k p x))
    (hn : s.next R Q S (.replaceDocument k p x) = some t) (ho : Concerns R tenantId s (.replaceDocument k p x)) :
    Matches R Q S same tenantId u t (.replaceDocument k p x) := by
  rw [next] at hn
  split at hn
  next => cases hn
  next hk =>
    injection hn with hn
    rw [← hn]
    have hfree : u.ingests k = none := by
      have hi := h.ingests k
      rw [hk] at hi
      generalize u.ingests k = ingest at hi
      cases hi
      rfl
    refine ⟨ho, _, (hR.own _ _ _ _ h.store hok (Eq.symm ho)).1, ?_, h.replaceDocument_own hR hok ho⟩
    simp only [next, hfree]

theorem next_invalidateTenant {k : Nat} (h : Alike same tenantId s u)
    (hn : s.next R Q S (.invalidateTenant k) = some t) (ho : Concerns R tenantId s (.invalidateTenant k)) :
    Matches R Q S same tenantId u t (.invalidateTenant k) := by
  obtain ⟨p, hk⟩ := ho
  have hu : u.ingests k = some (p, tenantId) := by
    have hi := h.ingests k
    rw [hk] at hi
    generalize u.ingests k = ingest at hi
    cases hi with
    | other hne => exact absurd rfl hne
    | own => rfl
  simp only [next, hk] at hn
  injection hn with hn
  rw [← hn]
  refine ⟨⟨p, hu⟩, _, trivial, ?_, h.invalidateTenant_own⟩
  simp only [next, hu]

theorem next_tick {now : ℚ} (h : Alike same tenantId s u) (hn : s.next R Q S (.tick p now) = some t) :
    Matches R Q S same tenantId u t (.tick p now) := by
  rw [next] at hn
  split at hn
  next hle =>
    injection hn with hn
    rw [← hn]
    refine ⟨trivial, { u with clocks := Function.update u.clocks p now }, trivial, ?_, ?_⟩
    · rw [h.clocks] at hle
      simp only [next, if_pos hle]
    · exact ⟨h.store, h.caches, by rw [h.clocks], h.calls, h.ingests⟩
  next => cases hn

/-- The step lemma. -/
theorem next_own (hR : R.Separate same) (h : Alike same tenantId s u) (hok : Allowed R s m)
    (hn : s.next R Q S m = some t) (ho : Concerns R tenantId s m) : Matches R Q S same tenantId u t m := by
  cases m with
  | retrieve i p tenant query mode limit => exact h.next_retrieve hn ho
  | corpusRevision i => exact h.next_corpusRevision hn ho
  | get i => exact h.next_get hR hn ho
  | lexicalSearch i => exact h.next_lexicalSearch hR hn ho
  | vectorSearch i => exact h.next_vectorSearch hR hn ho
  | put i => exact h.next_put hn ho
  | raise i => exact h.next_raise hn ho
  | replaceDocument k p x => exact h.next_replaceDocument hR hok hn ho
  | invalidateTenant k => exact h.next_invalidateTenant hn ho
  | tick p now => exact h.next_tick hn

end Alike

theorem isolated (hR : R.Separate same) :
    (system R Q S).Isolated (Concerns R tenantId) (Alike same tenantId) := by
  refine ⟨fun s hi => ?_, fun s m t u h hs ho => h.others hR hs.1 hs.2 ho, fun s m t u h hs ho => ?_⟩
  · have hcall : ∀ i, CallAlike same tenantId (s.calls i) (s.calls i) := by
      intro i
      rw [hi.calls i]
      exact .none
    have hingest : ∀ k, IngestAlike tenantId (s.ingests k) (s.ingests k) := by
      intro k
      rw [hi.ingests k]
      exact .none
    exact ⟨hR.start _ _ hi.store, fun _ => .refl, rfl, hcall, hingest⟩
  · obtain ⟨hown, v, hok, hv, halike⟩ := h.next_own hR hs.1 hs.2 ho
    exact ⟨hown, v, ⟨hok, hv⟩, halike⟩

end Retrieving
end DataCopilot.Retrieval
