import DataCopilot.Retrieval.Retrieving

/-! The cache of `retrieve` over any store that keeps its revisions apart: an entry is right for the corpus
that is there, and for those that waiting calls have read, as long as no call misfiles a result. -/
namespace DataCopilot.Retrieval.Retrieving
open MetricRetrievalService
variable {σ υ χ : Type} {R : Revision.Store σ υ UUID χ String} {Q : Searches χ} {S : MetricRetrievalService}
variable {rank : σ → UUID → Nat} {Good : σ → Prop}
variable {s t : Retrieving σ} {m : RetrieveMove υ} {i p : Nat} {a : RetrieveArguments} {phase : RetrievePhase σ}
variable {read : σ} {result : RetrievalResult} {lexical : List RankedChunk} {saw states : List σ}

section Invariant
variable (R Q S rank)

/-- What `retrieve` computes on the corpus that the call has read. -/
def Right (read : σ) (a : RetrieveArguments) (result : RetrievalResult) : Prop :=
  S.uncached Q (R.content read a.tenantId) (R.revision read a.tenantId) a = some result

/-- The searches have seen the revision that the call has read. -/
def Unmixed (read : σ) (a : RetrieveArguments) (saw : List σ) : Prop :=
  ∀ seen ∈ saw, R.revision seen a.tenantId = R.revision read a.tenantId

def Since (states : List σ) (read : σ) (a : RetrieveArguments) (saw : List σ) : Prop :=
  ∀ seen ∈ saw, seen ∈ states ∧ rank read a.tenantId ≤ rank seen a.tenantId

/-- What a call has got hold of where it stands. -/
def Fits (states : List σ) (a : RetrieveArguments) : RetrievePhase σ → Prop
  | .reading | .raised | .answered _ false _ => True
  | .looking read | .missed read => read ∈ states
  | .searched read lexical saw => read ∈ states ∧ Since rank states read a saw ∧
      (Unmixed R read a saw → lexical = MetricRetrievalService.lexical Q (R.content read a.tenantId) a)
  | .storing read result saw => read ∈ states ∧ Since rank states read a saw ∧
      result.key a.tenantId a.limit = keyOf R a read ∧ (Unmixed R read a saw → Right R Q S read a result)
  | .answered read true result => Right R Q S read a result

/-- The entry of a cache is right for the store as it is, and for each call that is about to look it up. -/
structure Filed (s : Retrieving σ) (p : Nat) (key : CacheKey) (result : RetrievalResult) : Prop where
  told : ∃ seen ∈ s.store :: s.past, R.revision seen key.tenantId = key.revision
  now : R.revision s.store key.tenantId = key.revision → Right R Q S s.store key.arguments result
  waiting : ∀ i read, s.calls i = some ⟨p, key.arguments, .looking read⟩ →
    R.revision read key.tenantId = key.revision → Right R Q S read key.arguments result

structure Coherent (s : Retrieving σ) : Prop where
  timeline : R.Timeline (s.store :: s.past)
  fits : ∀ i p a phase, s.calls i = some ⟨p, a, phase⟩ → Fits R Q S rank (s.store :: s.past) a phase
  filed : ∀ p key e, (s.caches p).entries key = some e → Filed R Q S s p key e.result

end Invariant

theorem Right.transfer {read' : σ} (h : Right R Q S read a result)
    (hr : R.revision read' a.tenantId = R.revision read a.tenantId)
    (hc : R.content read' a.tenantId = R.content read a.tenantId) : Right R Q S read' a result := by
  rw [Right, hr, hc]
  exact h

theorem Fits.mono {states' : List σ} (h : Fits R Q S rank states a phase) (hs : states ⊆ states') :
    Fits R Q S rank states' a phase := by
  have hsince : ∀ read saw, Since rank states read a saw → Since rank states' read a saw :=
    fun read saw hi seen hm => ⟨hs (hi seen hm).1, (hi seen hm).2⟩
  cases phase with
  | reading => trivial
  | raised => trivial
  | looking read => exact hs h
  | missed read => exact hs h
  | searched read lexical saw => exact ⟨hs h.1, hsince _ _ h.2.1, h.2.2⟩
  | storing read result saw => exact ⟨hs h.1, hsince _ _ h.2.1, h.2.2⟩
  | answered read cached result =>
    cases cached with
    | false => trivial
    | true => exact h

theorem setCache_entries {cache : RetrievalCache} {p' : Nat} {key : CacheKey} {e : CacheEntry}
    (h : ((s.setCache p cache).caches p').entries key = some e) :
    p' = p ∧ cache.entries key = some e ∨ (s.caches p').entries key = some e := by
  simp only [setCache] at h
  by_cases hp : p' = p
  · rw [hp, Function.update_self] at h
    exact .inl ⟨hp, h⟩
  · rw [Function.update_of_ne hp] at h
    exact .inr h

/-- A call of `t` is the one that has moved, or stands where it stood. -/
theorem call_cases {j p' : Nat} {a' : RetrieveArguments} {phase' : RetrievePhase σ}
    (ht : t.calls = Function.update s.calls i (some ⟨p, a, phase⟩)) (hj : t.calls j = some ⟨p', a', phase'⟩) :
    p' = p ∧ a' = a ∧ phase' = phase ∨ s.calls j = some ⟨p', a', phase'⟩ := by
  rw [ht] at hj
  by_cases hji : j = i
  · rw [hji, Function.update_self] at hj
    cases hj
    exact .inl ⟨rfl, rfl, rfl⟩
  · rw [Function.update_of_ne hji] at hj
    exact .inr hj

/-- A move of one call that leaves the store as it is and files nothing. -/
theorem Coherent.move (h : Coherent R Q S rank s) (hs : t.store = s.store) (hpast : t.past = s.past)
    (ht : t.calls = Function.update s.calls i (some ⟨p, a, phase⟩))
    (he : ∀ p key e, (t.caches p).entries key = some e → (s.caches p).entries key = some e)
    (hl : ∀ read, phase ≠ .looking read) (hfit : Fits R Q S rank (s.store :: s.past) a phase) :
    Coherent R Q S rank t := by
  refine ⟨?_, ?_, ?_⟩
  · rw [hs, hpast]
    exact h.timeline
  · intro j p' a' phase' hj
    rw [hs, hpast]
    cases call_cases ht hj with
    | inl hi =>
      rw [hi.2.1, hi.2.2]
      exact hfit
    | inr hj => exact h.fits _ _ _ _ hj
  · intro p' key e hentry
    have hf := h.filed _ _ _ (he _ _ _ hentry)
    refine ⟨?_, ?_, ?_⟩
    · rw [hs, hpast]
      exact hf.told
    · rw [hs]
      exact hf.now
    · intro j read hj hr
      cases call_cases ht hj with
      | inl hi => exact absurd hi.2.2.symm (hl read)
      | inr hj => exact hf.waiting j read hj hr

theorem Coherent.corpusRevision (h : Coherent R Q S rank s) :
    Coherent R Q S rank (s.put i p a (.looking s.store)) := by
  have ht : (s.put i p a (.looking s.store)).calls =
      Function.update s.calls i (some ⟨p, a, .looking s.store⟩) := rfl
  refine ⟨h.timeline, ?_, ?_⟩
  · intro j p' a' phase' hj
    cases call_cases ht hj with
    | inl hi =>
      rw [hi.2.2]
      exact List.mem_cons_self
    | inr hj => exact h.fits _ _ _ _ hj
  · intro p' key e hentry
    have hf := h.filed _ _ _ hentry
    refine ⟨hf.told, hf.now, ?_⟩
    intro j read hj hr
    cases call_cases ht hj with
    | inl hi =>
      injection hi.2.2 with hread
      rw [hread] at hr ⊢
      exact hf.now hr
    | inr hj => exact hf.waiting j read hj hr

theorem Coherent.get (h : Coherent R Q S rank s) (hc : s.calls i = some ⟨p, a, .looking read⟩) :
    Coherent R Q S rank (s.get R i p a read) := by
  have hfit := h.fits _ _ _ _ hc
  refine h.move rfl rfl rfl ?_ ?_ ?_
  · intro p' key e hentry
    cases setCache_entries hentry with
    | inl hp =>
      rw [hp.1]
      exact RetrievalCache.get_entries hp.2
    | inr hm => exact hm
  · intro read'
    split
    · intro he
      cases he
    · intro he
      cases he
  · split
    · next result hfound =>
      obtain ⟨e, hentry, -, hresult⟩ := RetrievalCache.get_some hfound
      rw [← hresult]
      exact (h.filed _ _ _ hentry).waiting i read hc rfl
    · exact hfit

theorem Coherent.lexicalSearch (hR : R.Lawful rank Good) (h : Coherent R Q S rank s)
    (hc : s.calls i = some ⟨p, a, .missed read⟩) : Coherent R Q S rank (s.lexicalSearch R Q i p a read) := by
  have hread : read ∈ s.store :: s.past := h.fits _ _ _ _ hc
  refine h.move rfl rfl rfl (fun _ _ _ he => he) ?_ ⟨hread, ?_, ?_⟩
  · intro read' he
    cases he
  · intro seen hseen
    split at hseen
    · rw [List.mem_singleton.mp hseen]
      exact ⟨List.mem_cons_self, h.timeline.rank_le hR read hread⟩
    · cases hseen
  · intro hun
    rw [MetricRetrievalService.lexical, MetricRetrievalService.lexical]
    by_cases hm : a.mode.hasLexical = true
    · rw [if_pos hm] at hun ⊢
      have hr := hun s.store (List.mem_singleton.mpr rfl)
      rw [if_pos hm, h.timeline.content_eq hR List.mem_cons_self hread hr]
    · rw [if_neg hm, if_neg hm]

/-- The second search gives what `retrieve` computes on the corpus of the revision that both have seen. -/
theorem Coherent.vectorSearch (hR : R.Lawful rank Good) (h : Coherent R Q S rank s)
    (hc : s.calls i = some ⟨p, a, .searched read lexical saw⟩) :
    Coherent R Q S rank (s.vectorSearch R Q S i p a read lexical saw) := by
  obtain ⟨hread, hsince, hlexical⟩ : Fits R Q S rank (s.store :: s.past) a (.searched read lexical saw) :=
    h.fits _ _ _ _ hc
  refine h.move rfl rfl rfl (fun _ _ _ he => he) ?_ ?_
  · intro read'
    split
    · intro he
      cases he
    · intro he
      cases he
  · split
    · next result hresult =>
      obtain ⟨hq, hm, hrev⟩ := result_key hresult
      refine ⟨hread, ?_, ?_, ?_⟩
      · intro seen hseen
        split at hseen
        · cases List.mem_cons.mp hseen with
          | inl he =>
            rw [he]
            exact ⟨List.mem_cons_self, h.timeline.rank_le hR read hread⟩
          | inr hm => exact hsince seen hm
        · exact hsince seen hseen
      · rw [RetrievalResult.key, hq, hm, hrev]
        rfl
      · intro hun
        by_cases hmode : a.mode.hasVector = true
        · rw [if_pos hmode] at hun
          have hr := hun s.store List.mem_cons_self
          have hcontent := h.timeline.content_eq hR List.mem_cons_self hread hr
          have hl := hlexical fun seen hseen => hun seen (List.mem_cons_of_mem _ hseen)
          rw [hl, hcontent] at hresult
          exact hresult
        · rw [if_neg hmode] at hun
          have hv : S.vector Q (R.content s.store a.tenantId) a = S.vector Q (R.content read a.tenantId) a := by
            rw [MetricRetrievalService.vector, MetricRetrievalService.vector, if_neg hmode, if_neg hmode]
          rw [hlexical hun, hv] at hresult
          exact hresult
    · trivial

/-- A `put` that does not misfile: the entry is right wherever it can be found. -/
theorem Coherent.answer (hR : R.Lawful rank Good) (h : Coherent R Q S rank s)
    (hc : s.calls i = some ⟨p, a, .storing read result saw⟩) (hm : ¬ Misfiles R s (.put i)) :
    Coherent R Q S rank (s.answer i p a read result) := by
  obtain ⟨hread, hsince, hkey, hright⟩ : Fits R Q S rank (s.store :: s.past) a (.storing read result saw) :=
    h.fits _ _ _ _ hc
  have ht : (s.answer i p a read result).calls =
      Function.update s.calls i (some ⟨p, a, .answered read false result⟩) := rfl
  refine ⟨h.timeline, ?_, ?_⟩
  · intro j p' a' phase' hj
    cases call_cases ht hj with
    | inl hi =>
      rw [hi.2.2]
      trivial
    | inr hj => exact h.fits _ _ _ _ hj
  · intro p' key e hentry
    have hold : (s.caches p').entries key = some e → Filed R Q S (s.answer i p a read result) p' key e.result := by
      intro hentry
      have hf := h.filed _ _ _ hentry
      refine ⟨hf.told, hf.now, ?_⟩
      intro j read' hj hr
      cases call_cases ht hj with
      | inl hi => cases hi.2.2
      | inr hj => exact hf.waiting j read' hj hr
    cases setCache_entries hentry with
    | inr hs => exact hold hs
    | inl hp =>
      cases RetrievalCache.put_entries hp.2 with
      | inr hs =>
        rw [hp.1] at hold ⊢
        exact hold hs
      | inl hnew =>
        rw [hnew.1, hnew.2, hkey, hp.1]
        refine ⟨⟨read, hread, rfl⟩, ?_, ?_⟩
        · intro hr
          have hun : Unmixed R read a saw := fun seen hseen =>
            h.timeline.revision_between hR hread (hsince seen hseen).1 (hsince seen hseen).2 hr
          exact (hright hun).transfer hr (h.timeline.content_eq hR List.mem_cons_self hread hr)
        · intro j read' hj hr
          cases call_cases ht hj with
          | inl hi => cases hi.2.2
          | inr hj =>
            by_cases hun : Unmixed R read a saw
            · have hread' : read' ∈ s.store :: s.past := h.fits _ _ _ _ hj
              exact (hright hun).transfer hr (h.timeline.content_eq hR hread' hread hr)
            · refine absurd ⟨p, a, read, result, saw, j, read', hc, ?_, hj, hr⟩ hm
              rw [Unmixed] at hun
              push Not at hun
              exact hun

/-- No entry has the revision that a `replace_document` makes. -/
theorem Coherent.replaceDocument (hR : R.Lawful rank Good) (h : Coherent R Q S rank s) {u : υ} {k : Nat}
    (hok : R.ok s.store u) : Coherent R Q S rank (s.replaceDocument R p k u) := by
  have hgood := h.timeline.sound hR s.store List.mem_cons_self
  refine ⟨h.timeline.update hok, ?_, ?_⟩
  · intro j p' a' phase' hj
    exact (h.fits _ _ _ _ hj).mono (List.subset_cons_self _ _)
  · intro p' key e hentry
    have hf := h.filed _ _ _ hentry
    obtain ⟨seen, hseen, hr⟩ := hf.told
    refine ⟨⟨seen, List.mem_cons_of_mem _ hseen, hr⟩, ?_, hf.waiting⟩
    intro hnow
    change R.revision (R.update s.store u) key.tenantId = key.revision at hnow
    by_cases ho : key.tenantId = R.owner u
    · rw [ho] at hnow hr
      rw [← hr] at hnow
      exact absurd hnow (h.timeline.revision_new hR hok hseen)
    · have hrevision := hR.spared_revision _ _ _ hgood hok ho
      rw [hrevision] at hnow
      exact (hf.now hnow).transfer hrevision (hR.spared _ _ _ hgood hok ho)

theorem Coherent.invalidateTenant (h : Coherent R Q S rank s) {k : Nat} {tenantId : UUID} :
    Coherent R Q S rank (s.invalidateTenant p k tenantId) := by
  refine ⟨h.timeline, h.fits, ?_⟩
  intro p' key e hentry
  have hs : (s.caches p').entries key = some e := by
    cases setCache_entries hentry with
    | inl hp =>
      rw [hp.1]
      exact RetrievalCache.invalidateTenant_entries hp.2
    | inr hm => exact hm
  exact ⟨(h.filed _ _ _ hs).told, (h.filed _ _ _ hs).now, (h.filed _ _ _ hs).waiting⟩

section Moved
variable (R Q S)

/-- The cases of `next`. -/
inductive Moved (s : Retrieving σ) : RetrieveMove υ → Retrieving σ → Prop
  | retrieve {i p : Nat} {tenantId : UUID} {query : String} {mode : RetrievalMode} {limit : Option Int}
      {a : RetrieveArguments} :
      Moved s (.retrieve i p tenantId query mode limit) (s.put i p a .reading)
  | refuse {i p : Nat} {tenantId : UUID} {query : String} {mode : RetrievalMode} {limit : Option Int} :
      Moved s (.retrieve i p tenantId query mode limit) s
  | corpusRevision {i p : Nat} {a : RetrieveArguments} : s.calls i = some ⟨p, a, .reading⟩ →
      Moved s (.corpusRevision i) (s.put i p a (.looking s.store))
  | get {i p : Nat} {a : RetrieveArguments} {read : σ} : s.calls i = some ⟨p, a, .looking read⟩ →
      Moved s (.get i) (s.get R i p a read)
  | lexicalSearch {i p : Nat} {a : RetrieveArguments} {read : σ} : s.calls i = some ⟨p, a, .missed read⟩ →
      Moved s (.lexicalSearch i) (s.lexicalSearch R Q i p a read)
  | vectorSearch {i p : Nat} {a : RetrieveArguments} {read : σ} {lexical : List RankedChunk} {saw : List σ} :
      s.calls i = some ⟨p, a, .searched read lexical saw⟩ →
      Moved s (.vectorSearch i) (s.vectorSearch R Q S i p a read lexical saw)
  | put {i p : Nat} {a : RetrieveArguments} {read : σ} {result : RetrievalResult} {saw : List σ} :
      s.calls i = some ⟨p, a, .storing read result saw⟩ →
      Moved s (.put i) (s.answer i p a read result)
  | raise {i p : Nat} {a : RetrieveArguments} : Moved s (.raise i) (s.put i p a .raised)
  | replaceDocument {k p : Nat} {u : υ} : Moved s (.replaceDocument k p u) (s.replaceDocument R p k u)
  | invalidateTenant {k p : Nat} {tenantId : UUID} :
      Moved s (.invalidateTenant k) (s.invalidateTenant p k tenantId)
  | tick {p : Nat} {now : ℚ} : Moved s (.tick p now) { s with clocks := Function.update s.clocks p now }

end Moved

theorem moved_of_next (h : s.next R Q S m = some t) : Moved R Q S s m t := by
  cases m with
  | retrieve i p tenantId query mode limit =>
    rw [next] at h
    split at h
    next => cases h
    next =>
      split at h
      next =>
        injection h with h
        rw [← h]
        exact .retrieve
      next =>
        injection h with h
        rw [← h]
        exact .refuse
  | corpusRevision i =>
    rw [next] at h
    split at h
    next hc =>
      injection h with h
      rw [← h]
      exact .corpusRevision hc
    next => cases h
  | get i =>
    rw [next] at h
    split at h
    next hc =>
      injection h with h
      rw [← h]
      exact .get hc
    next => cases h
  | lexicalSearch i =>
    rw [next] at h
    split at h
    next hc =>
      injection h with h
      rw [← h]
      exact .lexicalSearch hc
    next => cases h
  | vectorSearch i =>
    rw [next] at h
    split at h
    next hc =>
      injection h with h
      rw [← h]
      exact .vectorSearch hc
    next => cases h
  | put i =>
    rw [next] at h
    split at h
    next hc =>
      injection h with h
      rw [← h]
      exact .put hc
    next => cases h
  | raise i =>
    rw [next] at h
    split at h
    next => cases h
    next =>
      injection h with h
      rw [← h]
      exact .raise
    next => cases h
  | replaceDocument k p u =>
    rw [next] at h
    split at h
    next => cases h
    next =>
      injection h with h
      rw [← h]
      exact .replaceDocument
  | invalidateTenant k =>
    rw [next] at h
    split at h
    next =>
      injection h with h
      rw [← h]
      exact .invalidateTenant
    next => cases h
  | tick p now =>
    rw [next] at h
    by_cases hle : s.clocks p ≤ now
    · rw [if_pos hle] at h
      injection h with h
      rw [← h]
      exact .tick
    · rw [if_neg hle] at h
      cases h

theorem coherent_step (hR : R.Lawful rank Good) (h : Coherent R Q S rank s) (hok : Allowed R s m)
    (hm : ¬ Misfiles R s m) (hs : Moved R Q S s m t) : Coherent R Q S rank t := by
  cases hs with
  | retrieve => exact h.move rfl rfl rfl (fun _ _ _ he => he) (fun _ he => by cases he) trivial
  | refuse => exact h
  | corpusRevision => exact h.corpusRevision
  | get hc => exact h.get hc
  | lexicalSearch hc => exact h.lexicalSearch hR hc
  | vectorSearch hc => exact h.vectorSearch hR hc
  | put hc => exact h.answer hR hc hm
  | raise => exact h.move rfl rfl rfl (fun _ _ _ he => he) (fun _ he => by cases he) trivial
  | replaceDocument => exact h.replaceDocument hR hok
  | invalidateTenant => exact h.invalidateTenant
  | tick =>
    refine ⟨h.timeline, h.fits, ?_⟩
    intro p' key e hentry
    have hf := h.filed _ _ _ hentry
    exact ⟨hf.told, hf.now, hf.waiting⟩

theorem coherent_initial (h : Initial R s) : Coherent R Q S rank s := by
  refine ⟨?_, ?_, ?_⟩
  · rw [h.past]
    exact .start h.store
  · intro i p a phase hc
    rw [h.calls] at hc
    cases hc
  · intro p key e he
    rw [h.caches] at he
    cases he

theorem coherent_reachable (hR : R.Lawful rank Good)
    (h : ((system R Q S).restrict fun s m _ => ¬ Misfiles R s m).Reachable s) : Coherent R Q S rank s := by
  refine h.invariant ?_ ?_
  · intro s hi
    exact coherent_initial hi
  · intro s m t _ hs hm
    exact coherent_step hR hs hm.1.1 hm.2 (moved_of_next hm.1.2)

/-- What the cache answers is what `retrieve` computes on the corpus of the revision that it has read. -/
theorem transparent_reachable (hR : R.Lawful rank Good)
    (h : ((system R Q S).restrict fun s m _ => ¬ Misfiles R s m).Reachable s) : Transparent R Q S s := by
  intro i p a read result hc
  exact (coherent_reachable hR h).fits i p a _ hc

/-- In every run the store goes from one update to the next. -/
theorem timeline_reachable (h : (system R Q S).Reachable s) : R.Timeline (s.store :: s.past) := by
  refine Transition.System.Reachable.invariant (P := fun s => R.Timeline (s.store :: s.past)) ?_ ?_ h
  · intro s hi
    rw [hi.past]
    exact .start hi.store
  · intro s m t _ hs hm
    have hok : Allowed R s m := hm.1
    cases moved_of_next hm.2 with
    | replaceDocument => exact hs.update hok
    | _ => exact hs

theorem revisionsNew_reachable (hR : R.Lawful rank Good) (h : (system R Q S).Reachable s) : RevisionsNew R s := by
  intro u hok earlier hearlier
  exact (timeline_reachable h).revision_new hR hok hearlier

/-- A result that is to be stored has the key of its call. -/
def Keyed (R : Revision.Store σ υ UUID χ String) (s : Retrieving σ) : Prop :=
  ∀ i p a read result saw, s.calls i = some ⟨p, a, .storing read result saw⟩ →
    result.key a.tenantId a.limit = keyOf R a read

theorem Keyed.move (h : Keyed R s) (ht : t.calls = Function.update s.calls i (some ⟨p, a, phase⟩))
    (hphase : ∀ read result saw, phase = .storing read result saw →
      result.key a.tenantId a.limit = keyOf R a read) : Keyed R t := by
  intro j p' a' read result saw hj
  cases call_cases ht hj with
  | inl hi =>
    rw [hi.2.1]
    exact hphase _ _ _ hi.2.2.symm
  | inr hj => exact h _ _ _ _ _ _ hj

theorem keyed_reachable (h : (system R Q S).Reachable s) : Keyed R s := by
  refine h.invariant ?_ ?_
  · intro s hi i p a read result saw hc
    rw [hi.calls] at hc
    cases hc
  · intro s m t _ hs hm
    cases moved_of_next hm.2 with
    | retrieve => exact hs.move rfl fun _ _ _ he => by cases he
    | corpusRevision => exact hs.move rfl fun _ _ _ he => by cases he
    | get =>
      refine hs.move rfl fun _ _ _ he => ?_
      split at he
      · cases he
      · cases he
    | lexicalSearch => exact hs.move rfl fun _ _ _ he => by cases he
    | vectorSearch =>
      refine hs.move rfl fun read result saw he => ?_
      split at he
      · next hresult =>
        injection he with hread he
        obtain ⟨hq, hmode, hrevision⟩ := result_key hresult
        rw [← hread, ← he, RetrievalResult.key, hq, hmode, hrevision]
        rfl
      · cases he
    | put => exact hs.move rfl fun _ _ _ he => by cases he
    | raise => exact hs.move rfl fun _ _ _ he => by cases he
    | _ => exact hs

/-- After a `put`, a call that has read the same revision before answers what has been stored. -/
theorem put_answered (h : (system R Q S).Reachable s) {j : Nat} {read' : σ}
    (hi : s.calls i = some ⟨p, a, .storing read result saw⟩) (hj : s.calls j = some ⟨p, a, .looking read'⟩)
    (hr : R.revision read' a.tenantId = R.revision read a.tenantId) :
    ∃ t u, s.next R Q S (.put i) = some t ∧ t.next R Q S (.get j) = some u ∧
      u.calls j = some ⟨p, a, .answered read' true result⟩ := by
  have hji : j ≠ i := by
    intro he
    rw [he, hi] at hj
    cases hj
  have hlookup : keyOf R a read' = result.key a.tenantId a.limit := by
    rw [keyed_reachable h _ _ _ _ _ _ hi, keyOf, keyOf, hr]
  have hcall : (s.answer i p a read result).calls j = some ⟨p, a, .looking read'⟩ :=
    (Function.update_of_ne hji _ _).trans hj
  have hfound : (((s.answer i p a read result).caches p).get ((s.answer i p a read result).clocks p)
      (keyOf R a read')).2 = some result := by
    rw [hlookup]
    simp only [answer, setCache, put, Function.update_self]
    exact RetrievalCache.get_put
  refine ⟨s.answer i p a read result, (s.answer i p a read result).get R j p a read', ?_, ?_, ?_⟩
  · rw [next, hi]
  · rw [next, hcall]
  · rw [get, hfound]
    exact Function.update_self ..

/-- So each `put` that misfiles can be followed by an answer that comes from another corpus than the one read. -/
theorem misfiled_answered (h : (system R Q S).Reachable s) (hm : Misfiles R s (.put i)) :
    ∃ p a read result saw j read' t u, s.calls i = some ⟨p, a, .storing read result saw⟩ ∧
      (∃ seen ∈ saw, R.revision seen a.tenantId ≠ R.revision read' a.tenantId) ∧
      s.next R Q S (.put i) = some t ∧ t.next R Q S (.get j) = some u ∧
      u.calls j = some ⟨p, a, .answered read' true result⟩ := by
  obtain ⟨p, a, read, result, saw, j, read', hi, hmixed, hj, hr⟩ := hm
  obtain ⟨t, u, ht, hu, hanswer⟩ := put_answered h hi hj hr
  rw [← hr] at hmixed
  exact ⟨p, a, read, result, saw, j, read', t, u, hi, hmixed, ht, hu, hanswer⟩

end DataCopilot.Retrieval.Retrieving
