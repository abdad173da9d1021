import DataCopilot.Retrieval.Serialisation

/-! Commits that overtake another call of `replace_document` of the same title: without them no call fails
because of another one, and a call that is overtaken never returns. -/
namespace DataCopilot.Retrieval.Replacing
variable {s t : Replacing} {i j : Nat} {c c' : ReplaceCall} {phase phase' : ReplacePhase}
variable {current : Option MetricDocument} {d : MetricDocument} {m : ReplaceMove} {id : UUID}

/-- No commit has overtaken the call. -/
def Unbeaten (t : MetricTables) (c : ReplaceCall) : ReplacePhase → Prop
  | .selected none => t.titled c.key = []
  | .waiting id => ∃ d, t.active c.key = some d ∧ d.id = id
  | .failed => False
  | _ => True

def InStep (s : Replacing) : Prop :=
  ∀ i c phase, s.calls i = some (c, phase) → Unbeaten s.tables c phase

theorem InStep.frame (h : s.InStep) (hf : Frame s i c phase t) (hi : Unbeaten s.tables c phase) :
    t.InStep := by
  intro j c' phase' hj
  rw [hf.tables]
  cases hf.call_cases hj with
  | inl he =>
    rw [he.2.1, he.2.2]
    exact hi
  | inr hs => exact h _ _ _ hs.2

/-- A call whose title was new, or whose row is its own, meets no row. -/
theorem Sound.no_violation (h : s.Sound) (hin : s.InStep) (hc : s.calls i = some (c, beforeInsert current)) :
    s.insertion i current (c.document (nextVersion current)) ≠ .violation := by
  intro hv
  obtain ⟨d, hd, hconflict⟩ := insertion_violation hv
  have hfits := h.fits _ _ _ hc
  cases current with
  | none =>
    have hnil : s.tables.titled c.key = [] := hin _ _ _ hc
    cases hconflict with
    | inl hid => exact h.fresh hfits hd hid
    | inr hk =>
      have hm := MetricTables.mem_titled.mpr ⟨hd, hk.1⟩
      change d ∈ s.tables.titled c.key at hm
      rw [hnil] at hm
      cases hm
  | some e =>
    obtain ⟨hnew, -, hactive⟩ := hfits
    cases hconflict with
    | inl hid => exact h.fresh hnew hd hid
    | inr hk =>
      obtain ⟨hk, hor⟩ := hk
      change d.key = c.key at hk
      cases hor with
      | inl hv =>
        have hle := ((h.ordered.history c.key).versions.le (MetricTables.mem_titled.mpr ⟨hd, hk⟩)).2
        have he := (h.ordered.active_some hactive).2.2.2
        change d.version = e.version + 1 at hv
        omega
      | inr ha =>
        have hu := h.ordered.active_unique hd ha.1
        rw [hk, hactive] at hu
        exact ha.2 (congrArg (Option.map MetricDocument.id) hu)

theorem InStep.commit (h : s.InStep) (hs : s.Sound) (hc : s.calls i = some (c, .chunked current))
    (ho : ¬ s.Overtakes (.commit i)) : (s.commit i c current).InStep := by
  obtain ⟨hnew, hholds, -⟩ := hs.fits _ _ _ hc
  intro j c' phase' hj
  cases commit_call_cases hj with
  | inl he =>
    rw [he.2.2]
    trivial
  | inr hother =>
    have hu := h _ _ _ hother.2
    have hkey : phase' = .selected none ∨ (∃ id, phase' = .waiting id) → c'.key ≠ c.key :=
      fun hphase hk => ho ⟨c, current, j, c', phase', hc, hother.2, hk, hphase⟩
    cases phase' with
    | selected current' =>
      cases current' with
      | none =>
        change (s.tables.write c current).titled c'.key = []
        rw [hs.commit_titled hholds (hkey (.inl rfl))]
        exact hu
      | some d => trivial
    | waiting id =>
      change ∃ d, (s.tables.write c current).active c'.key = some d ∧ d.id = id
      rw [(hs.commit_ordered hnew hholds).active_head, hs.commit_titled hholds (hkey (.inr ⟨id, rfl⟩)),
        ← hs.ordered.active_head]
      exact hu
    | failed => exact hu
    | begun => trivial
    | updated d => trivial
    | deleted d => trivial
    | inserted current' => trivial
    | chunked current' => trivial
    | returned document => trivial
    | rolledBack => trivial

theorem inStep_step (h : s.InStep) (hs : s.Sound) (ho : ¬ s.Overtakes m) (hm : Moved s m t) :
    t.InStep := by
  cases hm with
  | call hc hu => exact h.frame frame_call trivial
  | selectNone hc ha => exact h.frame frame_put (hs.ordered.active_none.mp ha)
  | selectRow hc ha hl => exact h.frame (frame_lock hl) trivial
  | @selectWait i c d hc ha => exact h.frame frame_put ⟨d, ha, rfl⟩
  | wakeRow hc hl hd hid hk hactive =>
    rw [← hid] at hl
    exact h.frame (frame_lock hl) trivial
  | wakeNone hc hnone =>
    obtain ⟨d, ha, hid⟩ := h _ _ _ hc
    obtain ⟨hd, hk, hactive, -⟩ := hs.ordered.active_some ha
    exact absurd hactive (hnone d hd hid hk)
  | update hc => exact h.frame frame_put trivial
  | delete hc => exact h.frame frame_put trivial
  | insert hc hi => exact h.frame frame_insert trivial
  | violation hc hv => exact absurd hv (hs.no_violation h hc)
  | insertChunks hc => exact h.frame frame_put trivial
  | commit hc => exact h.commit hs hc ho
  | rollback hc => exact h.frame frame_release trivial

theorem inStep_reachable (h : (system.restrict fun s m _ => ¬ s.Overtakes m).Reachable s) : s.InStep := by
  refine h.invariant ?_ ?_
  · intro s hi i c phase hc
    obtain ⟨earlier, -, rfl⟩ := hi
    cases hc
  · intro s m t hr hin hm
    exact inStep_step hin (sound_reachable hr.of_restrict) hm.2 (moved_of_next hm.1)

/-- Without a commit that overtakes another call, calls side by side are calls in the order of their
commits. -/
theorem replacements_serialised (h : (system.restrict fun s m _ => ¬ s.Overtakes m).Reachable s) :
    s.Serialised := by
  have hs := sound_reachable h.of_restrict
  refine ⟨hs.tables, hs.ordered, ?_, ?_⟩
  · intro i c document hc
    exact hs.fits _ _ _ hc
  · intro i c hc
    exact inStep_reachable h i c .failed hc

/-- A commit has overtaken the call: its title is not new any more, or the row that it waits for not
active. -/
def Beaten (s : Replacing) (c : ReplaceCall) : ReplacePhase → Prop
  | .selected none => s.tables.titled c.key ≠ []
  | .waiting id => s.tables.titled c.key ≠ [] ∧ id ∈ s.order.map ReplaceCall.documentId ∧
      ∀ d ∈ s.tables.documents, d.id = id → d.key = c.key → d.status ≠ .active
  | .failed | .rolledBack => True
  | _ => False

def Overtaken (s : Replacing) (j : Nat) (c : ReplaceCall) : Prop :=
  ∃ phase, s.calls j = some (c, phase) ∧ s.Beaten c phase

theorem Overtaken.frame (h : s.Overtaken j c') (hf : Frame s i c phase t) (hj : j ≠ i) : t.Overtaken j c' := by
  obtain ⟨phase', hc', hb⟩ := h
  refine ⟨phase', ?_, ?_⟩
  · rw [hf.calls, Function.update_of_ne hj]
    exact hc'
  · cases phase' with
    | selected current' =>
      cases current' with
      | none =>
        change t.tables.titled c'.key ≠ []
        rw [hf.tables]
        exact hb
      | some d => exact hb
    | waiting id =>
      rw [Beaten, hf.tables, hf.order]
      exact hb
    | failed => trivial
    | rolledBack => trivial
    | begun => exact hb
    | updated d => exact hb
    | deleted d => exact hb
    | inserted current' => exact hb
    | chunked current' => exact hb
    | returned document => exact hb

theorem Sound.commit_titled_ne (h : s.Sound) (hi : s.Holds i c current) {key : UUID × String}
    (hk : key = c.key ∨ s.tables.titled key ≠ []) : (s.tables.write c current).titled key ≠ [] := by
  rw [← h.holds_active hi, h.ordered.titled_write]
  by_cases he : key = c.key
  · rw [if_pos he]
    exact List.cons_ne_nil _ _
  · rw [if_neg he]
    exact hk.resolve_left he

/-- A commit makes no row active but its own. -/
theorem Sound.commit_inactive (hn : s.New c) (hid : id ∈ s.order.map ReplaceCall.documentId)
    {key : UUID × String} (hs : ∀ d ∈ s.tables.documents, d.id = id → d.key = key → d.status ≠ .active) :
    ∀ d ∈ (s.tables.write c current).documents, d.id = id → d.key = key → d.status ≠ .active := by
  intro d hd hdid hk hactive
  cases MetricTables.mem_write hd with
  | inl he =>
    rw [he] at hdid
    change c.documentId = id at hdid
    rw [← hdid] at hid
    exact hn hid
  | inr hold =>
    obtain ⟨e, he, -, -, hed⟩ := hold
    rw [hed hactive] at he
    exact hs d he hdid hk hactive

/-- Nor does it leave another row of its title active. -/
theorem Sound.commit_supersedes (h : s.Sound) (hn : s.New c) (hi : s.Holds i c current)
    (hid : id ∈ s.order.map ReplaceCall.documentId) :
    ∀ d ∈ (s.tables.write c current).documents, d.id = id → d.key = c.key → d.status ≠ .active := by
  intro d hd hdid hk hactive
  have ho := h.commit_ordered hn hi
  have hown : c.document (nextVersion current) ∈ (s.tables.write c current).documents := by
    cases current with
    | none => exact List.mem_cons_self
    | some e => exact List.mem_cons_self
  have hu := ho.active_unique hd hactive
  have hu' : (s.tables.write c current).active c.key = _ := ho.active_unique hown rfl
  rw [hk, hu'] at hu
  injection hu with he
  rw [← hdid, ← he] at hid
  exact hn hid

theorem Sound.commit_beaten (h : s.Sound) (hn : s.New c) (hi : s.Holds i c current)
    (hb : s.Beaten c' phase') : (s.commit i c current).Beaten c' phase' := by
  cases phase' with
  | selected current' =>
    cases current' with
    | none => exact h.commit_titled_ne hi (.inr hb)
    | some d => exact hb
  | waiting id =>
    obtain ⟨hne, hid, hs⟩ := hb
    exact ⟨h.commit_titled_ne hi (.inr hne), List.mem_cons_of_mem _ hid, Sound.commit_inactive hn hid hs⟩
  | failed => trivial
  | rolledBack => trivial
  | begun => exact hb
  | updated d => exact hb
  | deleted d => exact hb
  | inserted current' => exact hb
  | chunked current' => exact hb
  | returned document => exact hb

theorem Overtaken.move (h : s.Overtaken j c') (hc : s.calls i = some (c, phase)) (hf : Frame s i c phase' t)
    (hb : s.Beaten c phase → t.Beaten c phase') : t.Overtaken j c' := by
  by_cases hj : j = i
  · obtain ⟨phase₁, hc₁, hb₁⟩ := h
    rw [hj, hc] at hc₁
    cases hc₁
    refine ⟨phase', ?_, hb hb₁⟩
    rw [hf.calls, hj, Function.update_self]
  · exact h.frame hf hj

/-- A call that has been overtaken finds no row, and its `INSERT` none of the places free. -/
theorem overtaken_step (hs : s.Sound) (h : s.Overtaken j c') (hm : Moved s m t) : t.Overtaken j c' := by
  cases hm with
  | @call i c hc hu =>
    refine h.frame frame_call ?_
    intro hj
    obtain ⟨phase, hc', -⟩ := h
    rw [hj, hc] at hc'
    cases hc'
  | selectNone hc ha => exact h.move hc frame_put fun hb => False.elim hb
  | selectRow hc ha hl => exact h.move hc (frame_lock hl) fun hb => False.elim hb
  | selectWait hc ha => exact h.move hc frame_put fun hb => False.elim hb
  | wakeRow hc hl hd hid hk hactive =>
    rw [← hid] at hl
    exact h.move hc (frame_lock hl) fun hb => absurd hactive (hb.2.2 _ hd hid hk)
  | wakeNone hc hnone => exact h.move hc frame_put fun hb => hb.1
  | update hc => exact h.move hc frame_put fun hb => False.elim hb
  | delete hc => exact h.move hc frame_put fun hb => False.elim hb
  | @insert i c current hc ho =>
    refine h.move hc frame_insert fun hb => ?_
    have hholds := hs.insert_holds (hs.fits _ _ _ hc) ho
    cases current with
    | none => exact absurd hholds hb
    | some d => exact hb
  | violation hc hv => exact h.move hc frame_release fun _ => trivial
  | insertChunks hc => exact h.move hc frame_put fun hb => False.elim hb
  | @commit i c current hc =>
    obtain ⟨hnew, hholds, -⟩ := hs.fits _ _ _ hc
    obtain ⟨phase', hc', hb⟩ := h
    have hj : j ≠ i := by
      intro hj
      rw [hj, hc] at hc'
      cases hc'
      exact hb
    refine ⟨phase', ?_, hs.commit_beaten hnew hholds hb⟩
    rw [commit_calls, Function.update_of_ne hj]
    exact hc'
  | rollback hc => exact h.move hc frame_release fun _ => trivial

theorem overtaken_of_overtakes (hs : s.Sound) (ho : s.Overtakes m) (hm : Moved s m t) :
    ∃ j c phase, s.calls j = some (c, phase) ∧ phase.running = true ∧ t.Overtaken j c := by
  cases hm with
  | @commit i c current hc =>
    obtain ⟨c₁, current₁, j, c', phase', hc₁, hc', hk, hphase⟩ := ho
    rw [hc] at hc₁
    cases hc₁
    obtain ⟨hnew, hholds, -⟩ := hs.fits _ _ _ hc
    have hj : j ≠ i := by
      intro hj
      rw [hj, hc] at hc'
      cases hc'
      cases hphase with
      | inl he => cases he
      | inr he =>
        obtain ⟨id, he⟩ := he
        cases he
    have hcalls : (s.commit i c current).calls j = some (c', phase') := by
      rw [commit_calls, Function.update_of_ne hj]
      exact hc'
    cases hphase with
    | inl he =>
      rw [he] at hc' hcalls
      exact ⟨j, c', _, hc', rfl, _, hcalls, hs.commit_titled_ne hholds (.inl hk)⟩
    | inr he =>
      obtain ⟨id, he⟩ := he
      rw [he] at hc' hcalls
      have hid := (hs.fits _ _ _ hc').2
      refine ⟨j, c', _, hc', rfl, _, hcalls, hs.commit_titled_ne hholds (.inl hk),
        List.mem_cons_of_mem _ hid, ?_⟩
      rw [hk]
      exact hs.commit_supersedes hnew hholds hid
  | _ => cases ho

theorem overtaken_path (hr : system.Reachable s) (h : s.Overtaken j c) {w : List ReplaceMove}
    (hp : system.Path s w t) : t.Overtaken j c := by
  induction hp with
  | refl => exact h
  | step hp hs ih => exact overtaken_step (sound_reachable (hr.path hp)) (ih hr h) (moved_of_next hs)

/-- A call that a commit overtakes never returns. -/
theorem overtaken_never_returns (hr : system.Reachable s) (ho : s.Overtakes m) (hm : system.step s m t) :
    ∃ j c phase, s.calls j = some (c, phase) ∧ phase.running = true ∧
      ∀ w u document, system.Path t w u → u.calls j ≠ some (c, .returned document) := by
  obtain ⟨j, c, phase, hc, hrun, hover⟩ := overtaken_of_overtakes (sound_reachable hr) ho (moved_of_next hm)
  refine ⟨j, c, phase, hc, hrun, ?_⟩
  intro w u document hp hreturned
  obtain ⟨phase', hc', hb⟩ := overtaken_path (hr.step hm) hover hp
  rw [hreturned] at hc'
  cases hc'
  exact hb

def knowledgeTenant : UUID := ⟨"7b1d4f6e-0000-4000-8000-0000000000c1", Eq.refl true⟩

def documentIds : Nat → UUID
  | 0 => ⟨"7b1d4f6e-0000-4000-8000-0000000000d0", Eq.refl true⟩
  | 1 => ⟨"7b1d4f6e-0000-4000-8000-0000000000d1", Eq.refl true⟩
  | _ => ⟨"7b1d4f6e-0000-4000-8000-0000000000d2", Eq.refl true⟩

def chunkIds : Nat → UUID
  | 0 => ⟨"7b1d4f6e-0000-4000-8000-0000000000e0", Eq.refl true⟩
  | 1 => ⟨"7b1d4f6e-0000-4000-8000-0000000000e1", Eq.refl true⟩
  | _ => ⟨"7b1d4f6e-0000-4000-8000-0000000000e2", Eq.refl true⟩

/-- An update of one handbook. -/
def handbook (n : Nat) : ReplaceCall where
  tenantId := knowledgeTenant
  title := "Metrics"
  sourceType := .markdown
  sourceName := "metrics.md"
  contentSha256 := "9f86d081884c7d659a2feaa0c55ad015a3bf4f1b2b0b822cd15d6c15b0f00a08"
  chunks := [(chunkIds n,
    ⟨"metrics.md#revenue", "Revenue", "lines=1-3", 0, "Revenue is net of refunds.", List.replicate 64 0⟩)]
  createdBy := none
  embeddingProfile := "hashing:64"
  documentId := documentIds n
  now := n
  chunks_ok := List.cons_ne_nil _ _

theorem reached_in_step {s t : Replacing} (h : (system.restrict fun s m _ => ¬ s.Overtakes m).Reachable s)
    (m : ReplaceMove) (hm : s.next m = some t) (ho : ¬ s.Overtakes m) :
    (system.restrict fun s m _ => ¬ s.Overtakes m).Reachable t := by
  have hstep : (system.restrict fun s m _ => ¬ s.Overtakes m).step s m t := ⟨hm, ho⟩
  exact h.step hstep

/-- Two updates side by side of a handbook that is there in version 1: call 2 has begun when call 1 commits, and
selects afterwards. -/
theorem handbook_updated : ∃ s : Replacing,
    (system.restrict fun s m _ => ¬ s.Overtakes m).Reachable s ∧
      s.calls 1 = some (handbook 1, .returned ((handbook 1).stored 2)) ∧
      s.calls 2 = some (handbook 2, .returned ((handbook 2).stored 3)) ∧ s.Serialised := by
  have hstart : system.init (initial [handbook 0]) := ⟨[handbook 0], by decide, rfl⟩
  have hcall := reached_in_step (.start hstart) (.call 1 (handbook 1)) rfl fun ho => ho
  have hcall' := reached_in_step hcall (.call 2 (handbook 2)) rfl fun ho => ho
  have hselect := reached_in_step hcall' (.select 1) rfl fun ho => ho
  have hupdate := reached_in_step hselect (.update 1) rfl fun ho => ho
  have hdelete := reached_in_step hupdate (.delete 1) rfl fun ho => ho
  have hinsert := reached_in_step hdelete (.insert 1) rfl fun ho => ho
  have hchunks := reached_in_step hinsert (.insertChunks 1) rfl fun ho => ho
  have hcommit := reached_in_step hchunks (.commit 1) rfl ?_
  · have hselect' := reached_in_step hcommit (.select 2) rfl fun ho => ho
    have hupdate' := reached_in_step hselect' (.update 2) rfl fun ho => ho
    have hdelete' := reached_in_step hupdate' (.delete 2) rfl fun ho => ho
    have hinsert' := reached_in_step hdelete' (.insert 2) rfl fun ho => ho
    have hchunks' := reached_in_step hinsert' (.insertChunks 2) rfl fun ho => ho
    have hcommit' := reached_in_step hchunks' (.commit 2) rfl ?_
    · exact ⟨_, hcommit', rfl, rfl, replacements_serialised hcommit'⟩
    · rintro ⟨c, current, j, c', phase, -, hj, -, hphase⟩
      by_cases h1 : j = 1
      · rw [h1] at hj
        cases hj
        simp at hphase
      · by_cases h2 : j = 2
        · rw [h2] at hj
          cases hj
          simp at hphase
        · simp only [put, lock, commit, release, initial, Function.update_of_ne h1, Function.update_of_ne h2] at hj
          cases hj
  · rintro ⟨c, current, j, c', phase, -, hj, -, hphase⟩
    by_cases h1 : j = 1
    · rw [h1] at hj
      cases hj
      simp at hphase
    · by_cases h2 : j = 2
      · rw [h2] at hj
        cases hj
        simp at hphase
      · simp only [put, lock, initial, Function.update_of_ne h1, Function.update_of_ne h2] at hj
        cases hj

/-- Calls 1 and 2 update a handbook that is there. Call 2 waits for the row; when call 1 commits, the row is
active no more and call 2 goes on as for a new title. -/
def overtakingMoves : List ReplaceMove :=
  [.call 1 (handbook 1), .select 1, .call 2 (handbook 2), .select 2, .update 1, .delete 1, .insert 1,
    .insertChunks 1, .commit 1, .wake 2, .insert 2]

theorem waiting_update_fails : ¬ ∀ s, system.Reachable s → s.Serialised := by
  intro h
  obtain ⟨t, ht, hf⟩ : ∃ t, overtakingMoves.foldlM next (initial [handbook 0]) = some t ∧
      t.calls 2 = some (handbook 2, .failed) := ⟨_, rfl, rfl⟩
  have hstart : system.init (initial [handbook 0]) := ⟨[handbook 0], by decide, rfl⟩
  have hs := h t (.foldlM (fun _ _ _ hm => hm) (.start hstart) ht)
  exact hs.unfailed 2 _ hf

end DataCopilot.Retrieval.Replacing
