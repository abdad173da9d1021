import DataCopilot.Retrieval.Replacement

/-! What a move of `replace_document` can do: the cases of `next`, and what all but a commit leave as it
was. -/
namespace DataCopilot.Retrieval.Replacing
variable {s t : Replacing} {i j : Nat} {c c' : ReplaceCall} {phase phase' : ReplacePhase}
variable {current : Option MetricDocument} {d : MetricDocument} {m : ReplaceMove} {id : UUID}

/-- Where a call stands before its `INSERT`. -/
def beforeInsert : Option MetricDocument → ReplacePhase
  | none => .selected none
  | some d => .deleted d

/-- The cases of `next`. -/
inductive Moved (s : Replacing) : ReplaceMove → Replacing → Prop
  | call {i : Nat} {c : ReplaceCall} : s.calls i = none → c.documentId ∉ s.used →
      Moved s (.call i c) { s.put i c .begun with used := c.documentId :: s.used }
  | selectNone {i : Nat} {c : ReplaceCall} : s.calls i = some (c, .begun) →
      s.tables.active c.key = none → Moved s (.select i) (s.put i c (.selected none))
  | selectRow {i : Nat} {c : ReplaceCall} {d : MetricDocument} : s.calls i = some (c, .begun) →
      s.tables.active c.key = some d → s.locks d.id = none →
      Moved s (.select i) ((s.lock i d.id).put i c (.selected (some d)))
  | selectWait {i : Nat} {c : ReplaceCall} {d : MetricDocument} : s.calls i = some (c, .begun) →
      s.tables.active c.key = some d → Moved s (.select i) (s.put i c (.waiting d.id))
  | wakeRow {i : Nat} {c : ReplaceCall} {id : UUID} {d : MetricDocument} :
      s.calls i = some (c, .waiting id) → s.locks id = none → d ∈ s.tables.documents → d.id = id →
      d.key = c.key → d.status = .active →
      Moved s (.wake i) ((s.lock i d.id).put i c (.selected (some d)))
  | wakeNone {i : Nat} {c : ReplaceCall} {id : UUID} : s.calls i = some (c, .waiting id) →
      (∀ d ∈ s.tables.documents, d.id = id → d.key = c.key → d.status ≠ .active) →
      Moved s (.wake i) (s.put i c (.selected none))
  | update {i : Nat} {c : ReplaceCall} {d : MetricDocument} :
      s.calls i = some (c, .selected (some d)) → Moved s (.update i) (s.put i c (.updated d))
  | delete {i : Nat} {c : ReplaceCall} {d : MetricDocument} : s.calls i = some (c, .updated d) →
      Moved s (.delete i) (s.put i c (.deleted d))
  | insert {i : Nat} {c : ReplaceCall} {current : Option MetricDocument} :
      s.calls i = some (c, beforeInsert current) →
      s.insertion i current (c.document (nextVersion current)) = .inserted →
      Moved s (.insert i) { s.put i c (.inserted current) with
        pending := (i, c.document (nextVersion current)) :: s.pending }
  | violation {i : Nat} {c : ReplaceCall} {current : Option MetricDocument} :
      s.calls i = some (c, beforeInsert current) →
      s.insertion i current (c.document (nextVersion current)) = .violation →
      Moved s (.insert i) ((s.release i).put i c .failed)
  | insertChunks {i : Nat} {c : ReplaceCall} {current : Option MetricDocument} :
      s.calls i = some (c, .inserted current) →
      Moved s (.insertChunks i) (s.put i c (.chunked current))
  | commit {i : Nat} {c : ReplaceCall} {current : Option MetricDocument} :
      s.calls i = some (c, .chunked current) → Moved s (.commit i) (s.commit i c current)
  | rollback {i : Nat} {c : ReplaceCall} {phase : ReplacePhase} : s.calls i = some (c, phase) →
      Moved s (.rollback i) ((s.release i).put i c .rolledBack)

theorem moved_insert (hc : s.calls i = some (c, beforeInsert current))
    (h : s.insert i c current = some t) : Moved s (.insert i) t := by
  rw [insert] at h
  cases ho : s.insertion i current (c.document (nextVersion current)) with
  | inserted =>
    rw [ho] at h
    injection h with h
    rw [← h]
    exact .insert hc ho
  | violation =>
    rw [ho] at h
    injection h with h
    rw [← h]
    exact .violation hc ho
  | waits =>
    rw [ho] at h
    cases h

theorem moved_select (h : s.next (.select i) = some t) : Moved s (.select i) t := by
  rw [next] at h
  split at h
  next c hc =>
    split at h
    next ha =>
      injection h with h
      rw [← h]
      exact .selectNone hc ha
    next d ha =>
      split at h
      next hl =>
        injection h with h
        rw [← h]
        exact .selectRow hc ha hl
      next =>
        injection h with h
        rw [← h]
        exact .selectWait hc ha
  next => cases h

theorem moved_wake (h : s.next (.wake i) = some t) : Moved s (.wake i) t := by
  rw [next] at h
  split at h
  next c id hc =>
    split at h
    next d hl hf =>
      have hm := List.mem_of_find?_eq_some hf
      have hp := List.find?_some hf
      rw [decide_eq_true_eq] at hp
      injection h with h
      rw [← h]
      exact .wakeRow hc hl hm hp.1 hp.2.1 hp.2.2
    next hl hf =>
      injection h with h
      rw [← h]
      refine .wakeNone hc fun d hd hid hkey hactive => ?_
      have hnone := List.find?_eq_none.mp hf d hd
      rw [decide_eq_true_eq] at hnone
      exact hnone ⟨hid, hkey, hactive⟩
    next => cases h
  next => cases h

theorem moved_of_next (h : s.next m = some t) : Moved s m t := by
  cases m with
  | call i c =>
    rw [next] at h
    split at h
    next hc =>
      by_cases hu : c.documentId ∈ s.used
      · rw [if_pos hu] at h
        cases h
      · rw [if_neg hu] at h
        injection h with h
        rw [← h]
        exact .call hc hu
    next => cases h
  | select i => exact moved_select h
  | wake i => exact moved_wake h
  | update i =>
    rw [next] at h
    split at h
    next c d hc =>
      injection h with h
      rw [← h]
      exact .update hc
    next => cases h
  | delete i =>
    rw [next] at h
    split at h
    next c d hc =>
      injection h with h
      rw [← h]
      exact .delete hc
    next => cases h
  | insert i =>
    rw [next] at h
    split at h
    next c hc =>
      have hbefore : s.calls i = some (c, beforeInsert none) := hc
      exact moved_insert hbefore h
    next c d hc =>
      have hbefore : s.calls i = some (c, beforeInsert (some d)) := hc
      exact moved_insert hbefore h
    next => cases h
  | insertChunks i =>
    rw [next] at h
    split at h
    next c current hc =>
      by_cases ho : (c.chunks.map fun chunk => chunk.2.ordinal).Nodup
      · rw [if_pos ho] at h
        injection h with h
        rw [← h]
        exact .insertChunks hc
      · rw [if_neg ho] at h
        cases h
    next => cases h
  | commit i =>
    rw [next] at h
    split at h
    next c current hc =>
      injection h with h
      rw [← h]
      exact .commit hc
    next => cases h
  | rollback i =>
    rw [next] at h
    split at h
    next c phase hc =>
      by_cases hr : phase.running = true
      · rw [if_pos hr] at h
        injection h with h
        rw [← h]
        exact .rollback hc
      · rw [if_neg hr] at h
        cases h
    next => cases h

/-- A move of call `i` that commits nothing: what the other calls have is left to them. -/
structure Frame (s : Replacing) (i : Nat) (c : ReplaceCall) (phase : ReplacePhase) (t : Replacing) : Prop where
  tables : t.tables = s.tables
  order : t.order = s.order
  calls : t.calls = Function.update s.calls i (some (c, phase))
  locks : ∀ id j, j ≠ i → s.locks id = some j → t.locks id = some j
  pending : ∀ p, p.1 ≠ i → (p ∈ t.pending ↔ p ∈ s.pending)
  used : s.used ⊆ t.used

theorem frame_put : Frame s i c phase (s.put i c phase) :=
  ⟨rfl, rfl, rfl, fun _ _ _ h => h, fun _ _ => .rfl, fun _ h => h⟩

theorem frame_lock (hl : s.locks id = none) : Frame s i c phase ((s.lock i id).put i c phase) := by
  refine ⟨rfl, rfl, rfl, ?_, fun _ _ => .rfl, fun _ h => h⟩
  intro id' j _ h
  have hne : id' ≠ id := by
    intro he
    rw [he, hl] at h
    cases h
  change Function.update s.locks id (some i) id' = some j
  rw [Function.update_of_ne hne]
  exact h

theorem release_locks {id : UUID} (hj : j ≠ i) (h : s.locks id = some j) :
    (s.release i).locks id = some j := by
  change (if s.locks id = some i then none else s.locks id) = some j
  rw [h, if_neg]
  intro he
  injection he with he
  exact hj he

theorem mem_release_pending {p : Nat × MetricDocument} :
    p ∈ (s.release i).pending ↔ p ∈ s.pending ∧ p.1 ≠ i := by
  change p ∈ s.pending.filter (fun p => p.1 ≠ i) ↔ _
  rw [List.mem_filter, decide_eq_true_eq]

theorem frame_release : Frame s i c phase ((s.release i).put i c phase) := by
  refine ⟨rfl, rfl, rfl, fun _ _ hj h => release_locks hj h, ?_, fun _ h => h⟩
  intro p hp
  change p ∈ (s.release i).pending ↔ _
  rw [mem_release_pending]
  exact and_iff_left hp

theorem frame_insert {row : MetricDocument} :
    Frame s i c phase { s.put i c phase with pending := (i, row) :: s.pending } := by
  refine ⟨rfl, rfl, rfl, fun _ _ _ h => h, ?_, fun _ h => h⟩
  intro p hp
  change p ∈ (i, row) :: s.pending ↔ _
  rw [List.mem_cons]
  refine or_iff_right ?_
  intro he
  rw [he] at hp
  exact hp rfl

theorem frame_call : Frame s i c phase { s.put i c phase with used := c.documentId :: s.used } :=
  ⟨rfl, rfl, rfl, fun _ _ _ h => h, fun _ _ => .rfl, fun _ h => List.mem_cons_of_mem _ h⟩

/-- A call of `t` is the one that has moved, or stands where it stood. -/
theorem Frame.call_cases (h : Frame s i c phase t) (hj : t.calls j = some (c', phase')) :
    j = i ∧ c' = c ∧ phase' = phase ∨ j ≠ i ∧ s.calls j = some (c', phase') := by
  rw [h.calls] at hj
  by_cases hji : j = i
  · rw [hji, Function.update_self] at hj
    cases hj
    exact .inl ⟨hji, rfl, rfl⟩
  · rw [Function.update_of_ne hji] at hj
    exact .inr ⟨hji, hj⟩

theorem insertion_inserted {row : MetricDocument} (h : s.insertion i current row = .inserted) :
    (∀ d ∈ s.tables.documents, ¬ Conflicts current row d) ∧
      ∀ p ∈ s.pending, p.2.id ≠ row.id ∧ p.2.key ≠ row.key := by
  rw [insertion] at h
  split at h
  · cases h
  · split at h
    · cases h
    · next hc =>
      split at h
      · cases h
      · next hp =>
        refine ⟨fun d hd hcd => hc ⟨d, hd, hcd⟩, fun p hm => ⟨?_, ?_⟩⟩
        · intro he
          exact hp ⟨p, hm, .inl he⟩
        · intro he
          exact hp ⟨p, hm, .inr he⟩

theorem insertion_violation {row : MetricDocument} (h : s.insertion i current row = .violation) :
    ∃ d ∈ s.tables.documents, Conflicts current row d := by
  rw [insertion] at h
  split at h
  · next hv =>
    obtain ⟨d, hd, hc, -⟩ := hv
    exact ⟨d, hd, hc⟩
  · split at h
    · cases h
    · split at h
      · cases h
      · cases h

end DataCopilot.Retrieval.Replacing
