import DataCopilot.Retrieval.ReplaceSteps

/-! What the calls of `replace_document` rely on where they stand, and that they leave the tables that they
would leave one after the other, in every run. -/
namespace DataCopilot.Retrieval.Replacing
variable {s t : Replacing} {i j : Nat} {c c' : ReplaceCall} {phase phase' : ReplacePhase}
variable {current : Option MetricDocument} {d : MetricDocument} {m : ReplaceMove} {id : UUID}

/-- The row that the call will write over is locked and still the active one. -/
def Holds (s : Replacing) (i : Nat) (c : ReplaceCall) : Option MetricDocument → Prop
  | none => s.tables.titled c.key = []
  | some d => s.locks d.id = some i ∧ s.tables.active c.key = some d

/-- The id that the call has drawn is not in the tables. -/
def New (s : Replacing) (c : ReplaceCall) : Prop := c.documentId ∉ s.order.map ReplaceCall.documentId

def Listed (s : Replacing) (i : Nat) (c : ReplaceCall) (current : Option MetricDocument) : Prop :=
  (i, c.document (nextVersion current)) ∈ s.pending

/-- What a call relies on where it stands. -/
def Fits (s : Replacing) (i : Nat) (c : ReplaceCall) : ReplacePhase → Prop
  | .begun | .selected none => s.New c
  | .waiting id => s.New c ∧ id ∈ s.order.map ReplaceCall.documentId
  | .selected (some d) | .updated d | .deleted d => s.New c ∧ s.Holds i c (some d)
  | .inserted current | .chunked current => s.New c ∧ s.Holds i c current ∧ s.Listed i c current
  | .returned document => ∃ later earlier,
      s.order = later ++ c :: earlier ∧ document = ((serial earlier).replaceDocument c).2
  | .failed | .rolledBack => True

structure Sound (s : Replacing) : Prop where
  tables : s.tables = serial s.order
  ids : (s.order.map ReplaceCall.documentId).Nodup
  drawn : ∀ id ∈ s.order.map ReplaceCall.documentId, id ∈ s.used
  known : ∀ i c phase, s.calls i = some (c, phase) → c.documentId ∈ s.used
  distinct : ∀ i j c c' phase phase', s.calls i = some (c, phase) → s.calls j = some (c', phase') →
    c.documentId = c'.documentId → i = j
  fits : ∀ i c phase, s.calls i = some (c, phase) → s.Fits i c phase
  apart : ∀ p ∈ s.pending, ∀ q ∈ s.pending, p.2.key = q.2.key → p.1 = q.1

theorem Sound.ordered (h : s.Sound) : s.tables.Ordered := by
  rw [h.tables]
  exact serial_ordered h.ids

theorem Sound.mem_order (h : s.Sound) (hd : d ∈ s.tables.documents) :
    d.id ∈ s.order.map ReplaceCall.documentId := by
  rw [h.tables] at hd
  rw [← serial_ids]
  exact List.mem_map_of_mem hd

theorem Sound.fresh (h : s.Sound) (hn : s.New c) (hd : d ∈ s.tables.documents) : d.id ≠ c.documentId := by
  intro he
  have hm := h.mem_order hd
  rw [he] at hm
  exact hn hm

theorem Sound.holds_active (h : s.Sound) (hh : s.Holds i c current) : s.tables.active c.key = current := by
  cases current with
  | none => exact h.ordered.active_none.mpr hh
  | some d => exact hh.2

/-- What a call of another index relies on outlives a move that commits nothing. -/
theorem Frame.fits (hf : Frame s i c phase t) (hj : j ≠ i) (h : s.Fits j c' phase') : t.Fits j c' phase' := by
  have hnew : s.New c' → t.New c' := by
    intro hn
    rw [New, hf.order]
    exact hn
  have hholds : ∀ current, s.Holds j c' current → t.Holds j c' current := by
    intro current hh
    cases current with
    | none =>
      change t.tables.titled c'.key = []
      rw [hf.tables]
      exact hh
    | some d =>
      refine ⟨hf.locks _ _ hj hh.1, ?_⟩
      rw [hf.tables]
      exact hh.2
  have hlisted : ∀ current, s.Listed j c' current → t.Listed j c' current :=
    fun current hl => (hf.pending _ hj).mpr hl
  cases phase' with
  | begun => exact hnew h
  | waiting id =>
    refine ⟨hnew h.1, ?_⟩
    rw [hf.order]
    exact h.2
  | selected current =>
    cases current with
    | none => exact hnew h
    | some d => exact ⟨hnew h.1, hholds _ h.2⟩
  | updated d => exact ⟨hnew h.1, hholds _ h.2⟩
  | deleted d => exact ⟨hnew h.1, hholds _ h.2⟩
  | inserted current => exact ⟨hnew h.1, hholds _ h.2.1, hlisted _ h.2.2⟩
  | chunked current => exact ⟨hnew h.1, hholds _ h.2.1, hlisted _ h.2.2⟩
  | returned document =>
    rw [Fits, hf.order]
    exact h
  | failed => trivial
  | rolledBack => trivial

/-- A move that commits nothing keeps the invariant if it keeps it for the call that moves. -/
theorem Sound.frame (h : s.Sound) (hf : Frame s i c phase t) (hused : c.documentId ∈ t.used)
    (hdistinct : ∀ j c' phase', j ≠ i → s.calls j = some (c', phase') → c'.documentId ≠ c.documentId)
    (hfits : t.Fits i c phase)
    (hapart : ∀ p ∈ t.pending, ∀ q ∈ t.pending, p.2.key = q.2.key → p.1 = q.1) : t.Sound := by
  refine ⟨?_, ?_, ?_, ?_, ?_, ?_, hapart⟩
  · rw [hf.tables, hf.order]
    exact h.tables
  · rw [hf.order]
    exact h.ids
  · intro id hid
    rw [hf.order] at hid
    exact hf.used (h.drawn id hid)
  · intro j c' phase' hj
    cases hf.call_cases hj with
    | inl he =>
      rw [he.2.1]
      exact hused
    | inr hs => exact hf.used (h.known _ _ _ hs.2)
  · intro j k c₁ c₂ phase₁ phase₂ hj hk he
    cases hf.call_cases hj with
    | inl hji =>
      cases hf.call_cases hk with
      | inl hki => rw [hji.1, hki.1]
      | inr hki =>
        rw [hji.2.1] at he
        exact absurd he.symm (hdistinct k c₂ phase₂ hki.1 hki.2)
    | inr hji =>
      cases hf.call_cases hk with
      | inl hki =>
        rw [hki.2.1] at he
        exact absurd he (hdistinct j c₁ phase₁ hji.1 hji.2)
      | inr hki => exact h.distinct _ _ _ _ _ _ hji.2 hki.2 he
  · intro j c' phase' hj
    cases hf.call_cases hj with
    | inl he =>
      rw [he.1, he.2.1, he.2.2]
      exact hfits
    | inr hs => exact hf.fits hs.1 (h.fits _ _ _ hs.2)

/-- The same for a call that goes on. -/
theorem Sound.advance (h : s.Sound) (hc : s.calls i = some (c, phase)) (hf : Frame s i c phase' t)
    (hfits : t.Fits i c phase')
    (hapart : ∀ p ∈ t.pending, ∀ q ∈ t.pending, p.2.key = q.2.key → p.1 = q.1) : t.Sound := by
  refine h.frame hf (hf.used (h.known _ _ _ hc)) ?_ hfits hapart
  intro j c' phase' hj hc' he
  exact hj (h.distinct _ _ _ _ _ _ hc' hc he)

theorem Sound.release_apart (h : s.Sound) : ∀ p ∈ (s.release i).pending, ∀ q ∈ (s.release i).pending,
    p.2.key = q.2.key → p.1 = q.1 := by
  intro p hp q hq
  exact h.apart p (mem_release_pending.mp hp).1 q (mem_release_pending.mp hq).1

/-- Where the call goes in, its title is new or the row is its own. -/
theorem Sound.insert_holds (h : s.Sound) (hfits : s.Fits i c (beforeInsert current))
    (ho : s.insertion i current (c.document (nextVersion current)) = .inserted) : s.Holds i c current := by
  cases current with
  | some d => exact hfits.2
  | none =>
    by_cases hnil : s.tables.titled c.key = []
    · exact hnil
    · obtain ⟨d, hd, hv⟩ := (h.ordered.history c.key).versions.first hnil
      have hm := MetricTables.mem_titled.mp hd
      exact absurd (.inr ⟨hm.2, .inl hv⟩) ((insertion_inserted ho).1 d hm.1)

theorem Sound.insert (h : s.Sound) (hc : s.calls i = some (c, beforeInsert current))
    (ho : s.insertion i current (c.document (nextVersion current)) = .inserted) :
    Sound { s.put i c (.inserted current) with
      pending := (i, c.document (nextVersion current)) :: s.pending } := by
  have hfits := h.fits _ _ _ hc
  have hholds := h.insert_holds hfits ho
  have hnew : s.New c := by
    cases current with
    | none => exact hfits
    | some d => exact hfits.1
  refine h.advance hc frame_insert ⟨hnew, ?_, List.mem_cons_self⟩ ?_
  · cases current with
    | none => exact hholds
    | some d => exact hholds
  · intro p hp q hq he
    have hother := (insertion_inserted ho).2
    cases List.mem_cons.mp hp with
    | inl hpi =>
      cases List.mem_cons.mp hq with
      | inl hqi => rw [hpi, hqi]
      | inr hqs =>
        rw [hpi] at he
        exact absurd he.symm (hother q hqs).2
    | inr hps =>
      cases List.mem_cons.mp hq with
      | inl hqi =>
        rw [hqi] at he
        exact absurd he (hother p hps).2
      | inr hqs => exact h.apart p hps q hqs he

theorem Sound.holds_apart (h : s.Sound) (hi : s.Holds i c current)
    (hj : s.Holds j c' (some d)) (hne : j ≠ i) : c'.key ≠ c.key := by
  intro hk
  have hact := hj.2
  rw [hk, h.holds_active hi] at hact
  rw [hact] at hi
  have he := hi.1
  rw [hj.1] at he
  injection he with he
  exact hne he

theorem Sound.commit_tables (h : s.Sound) (hi : s.Holds i c current) :
    s.tables.write c current = serial (c :: s.order) := by
  change _ = (serial s.order).write c ((serial s.order).active c.key)
  rw [← h.tables, h.holds_active hi]

/-- A commit leaves the other titles as they were. -/
theorem Sound.commit_titled (h : s.Sound) (hi : s.Holds i c current) {key : UUID × String}
    (hk : key ≠ c.key) : (s.tables.write c current).titled key = s.tables.titled key := by
  rw [← h.holds_active hi, h.ordered.titled_write, if_neg hk]

theorem Sound.commit_ordered (h : s.Sound) (hn : s.New c) (hi : s.Holds i c current) :
    (s.tables.write c current).Ordered := by
  rw [h.commit_tables hi]
  exact serial_ordered (List.nodup_cons.mpr ⟨hn, h.ids⟩)

theorem commit_calls : (s.commit i c current).calls =
    Function.update s.calls i (some (c, .returned (c.stored (nextVersion current)))) := rfl

theorem commit_call_cases (hj : (s.commit i c current).calls j = some (c', phase')) :
    j = i ∧ c' = c ∧ phase' = .returned (c.stored (nextVersion current)) ∨
      j ≠ i ∧ s.calls j = some (c', phase') := by
  rw [commit_calls] at hj
  by_cases hji : j = i
  · rw [hji, Function.update_self] at hj
    cases hj
    exact .inl ⟨hji, rfl, rfl⟩
  · rw [Function.update_of_ne hji] at hj
    exact .inr ⟨hji, hj⟩

/-- What another call relies on outlives a commit. -/
theorem Sound.commit_fits (h : s.Sound) (hc : s.calls i = some (c, .chunked current)) (hj : j ≠ i)
    (hc' : s.calls j = some (c', phase')) : (s.commit i c current).Fits j c' phase' := by
  have hfit := h.fits _ _ _ hc
  have hfit' := h.fits _ _ _ hc'
  have hnew : s.New c' → (s.commit i c current).New c' := by
    intro hn hm
    cases List.mem_cons.mp hm with
    | inl he => exact hj (h.distinct _ _ _ _ _ _ hc' hc he)
    | inr hm => exact hn hm
  have hrow : ∀ d, s.Holds j c' (some d) → (s.commit i c current).Holds j c' (some d) := by
    intro d hh
    have hk := h.holds_apart hfit.2.1 hh hj
    refine ⟨release_locks hj hh.1, ?_⟩
    change (s.tables.write c current).active c'.key = some d
    rw [(h.commit_ordered hfit.1 hfit.2.1).active_head, h.commit_titled hfit.2.1 hk, ← h.ordered.active_head]
    exact hh.2
  have hlisted : ∀ current', s.Listed j c' current' → (s.commit i c current).Listed j c' current' :=
    fun _ hl => mem_release_pending.mpr ⟨hl, hj⟩
  have hholds : ∀ current', s.Holds j c' current' → s.Listed j c' current' →
      (s.commit i c current).Holds j c' current' := by
    intro current' hh hl
    cases current' with
    | some d => exact hrow d hh
    | none =>
      have hk : c'.key ≠ c.key := fun hk => hj (h.apart _ hl _ hfit.2.2 hk)
      change (s.tables.write c current).titled c'.key = []
      rw [h.commit_titled hfit.2.1 hk]
      exact hh
  cases phase' with
  | begun => exact hnew hfit'
  | waiting id => exact ⟨hnew hfit'.1, List.mem_cons_of_mem _ hfit'.2⟩
  | selected current' =>
    cases current' with
    | none => exact hnew hfit'
    | some d => exact ⟨hnew hfit'.1, hrow d hfit'.2⟩
  | updated d => exact ⟨hnew hfit'.1, hrow d hfit'.2⟩
  | deleted d => exact ⟨hnew hfit'.1, hrow d hfit'.2⟩
  | inserted current' => exact ⟨hnew hfit'.1, hholds _ hfit'.2.1 hfit'.2.2, hlisted _ hfit'.2.2⟩
  | chunked current' => exact ⟨hnew hfit'.1, hholds _ hfit'.2.1 hfit'.2.2, hlisted _ hfit'.2.2⟩
  | returned document =>
    obtain ⟨later, earlier, horder, hdocument⟩ := hfit'
    refine ⟨c :: later, earlier, ?_, hdocument⟩
    change c :: s.order = _
    rw [horder]
    rfl
  | failed => trivial
  | rolledBack => trivial

theorem Sound.commit (h : s.Sound) (hc : s.calls i = some (c, .chunked current)) :
    (s.commit i c current).Sound := by
  obtain ⟨hnew, hholds, -⟩ := h.fits _ _ _ hc
  refine ⟨h.commit_tables hholds, List.nodup_cons.mpr ⟨hnew, h.ids⟩, ?_, ?_, ?_, ?_, h.release_apart⟩
  · intro id hid
    cases List.mem_cons.mp hid with
    | inl he =>
      rw [he]
      exact h.known _ _ _ hc
    | inr hm => exact h.drawn id hm
  · intro j c' phase' hj
    cases commit_call_cases hj with
    | inl he =>
      rw [he.2.1]
      exact h.known _ _ _ hc
    | inr hs => exact h.known _ _ _ hs.2
  · intro j k c₁ c₂ phase₁ phase₂ hj hk he
    have hwas : ∀ l c' phase', (s.commit i c current).calls l = some (c', phase') →
        ∃ phase'', s.calls l = some (c', phase'') := by
      intro l c' phase' hl
      cases commit_call_cases hl with
      | inl hli =>
        rw [hli.1, hli.2.1]
        exact ⟨_, hc⟩
      | inr hs => exact ⟨_, hs.2⟩
    obtain ⟨_, hsj⟩ := hwas j c₁ phase₁ hj
    obtain ⟨_, hsk⟩ := hwas k c₂ phase₂ hk
    exact h.distinct _ _ _ _ _ _ hsj hsk he
  · intro j c' phase' hj
    cases commit_call_cases hj with
    | inl he =>
      rw [he.1, he.2.1, he.2.2]
      refine ⟨[], s.order, rfl, ?_⟩
      rw [MetricTables.replaceDocument, ← h.tables, h.holds_active hholds]
    | inr hs => exact h.commit_fits hc hs.1 hs.2

theorem sound_step (h : s.Sound) (hm : Moved s m t) : t.Sound := by
  cases hm with
  | @call i c hc hu =>
    have hnew : s.New c := fun hmem => hu (h.drawn _ hmem)
    refine h.frame frame_call List.mem_cons_self ?_ hnew h.apart
    intro j c' phase' _ hj he
    exact hu (he ▸ h.known _ _ _ hj)
  | selectNone hc ha => exact h.advance hc frame_put (h.fits _ _ _ hc) h.apart
  | @selectRow i c d hc ha hl =>
    refine h.advance hc (frame_lock hl) ⟨h.fits _ _ _ hc, Function.update_self .., ha⟩ h.apart
  | selectWait hc ha =>
    have hd := (h.ordered.active_some ha).1
    exact h.advance hc frame_put ⟨h.fits _ _ _ hc, h.mem_order hd⟩ h.apart
  | @wakeRow i c id d hc hl hd hid hk hactive =>
    rw [← hid] at hl
    refine h.advance hc (frame_lock hl) ⟨(h.fits _ _ _ hc).1, Function.update_self .., ?_⟩ h.apart
    rw [← hk]
    exact h.ordered.active_unique hd hactive
  | wakeNone hc _ => exact h.advance hc frame_put (h.fits _ _ _ hc).1 h.apart
  | update hc => exact h.advance hc frame_put (h.fits _ _ _ hc) h.apart
  | delete hc => exact h.advance hc frame_put (h.fits _ _ _ hc) h.apart
  | insert hc ho => exact h.insert hc ho
  | violation hc _ => exact h.advance hc frame_release trivial h.release_apart
  | @insertChunks i c current hc =>
    refine h.advance hc frame_put ?_ h.apart
    have hfit := h.fits _ _ _ hc
    cases current with
    | none => exact hfit
    | some d => exact hfit
  | commit hc => exact h.commit hc
  | rollback hc => exact h.advance hc frame_release trivial h.release_apart

theorem sound_initial {earlier : List ReplaceCall} (h : (earlier.map ReplaceCall.documentId).Nodup) :
    (initial earlier).Sound := by
  refine ⟨rfl, h, fun _ hid => hid, ?_, ?_, ?_, ?_⟩
  · intro i c phase hc
    cases hc
  · intro i j c c' phase phase' hc
    cases hc
  · intro i c phase hc
    cases hc
  · intro p hp
    cases hp

/-- The tables of every run are those of its calls one after the other. -/
theorem sound_reachable (h : system.Reachable s) : s.Sound := by
  refine h.invariant ?_ ?_
  · intro s hi
    obtain ⟨earlier, hn, rfl⟩ := hi
    exact sound_initial hn
  · intro s m t _ hs hm
    exact sound_step hs (moved_of_next hm)

end DataCopilot.Retrieval.Replacing
