import DataCopilot.Platform.DispatchLease

/-! Two workers at one job: what a lease from Redis keeps apart, and why a call is skipped. -/
namespace DataCopilot.Platform.Leasing
open Lease (Locks)
open JobDispatchLease (key)

section Exclusion
variable {leaseDuration : Nat} {s t : Leasing} {i : Nat} {c d : LeaseCall}
variable {locks : Locks String String}

theorem put_calls (j : Nat) : (s.put i c).calls j = if j = i then some c else s.calls j := by
  by_cases h : j = i
  · rw [if_pos h, put, h]
    exact Function.update_self ..
  · rw [if_neg h, put]
    exact Function.update_of_ne h ..

/-- What a phase tells of the command that has set the lease, and of the lock that is still granted. -/
def Stands (granted : Option (String × Nat)) (c : LeaseCall) : LeasePhase → Prop
  | .acquiring => True
  | .answered found => ∃ t, c.set = some (t, found) ∧ (found = true → granted = some (key c.jobId, t))
  | .skipped => ∃ t, c.set = some (t, false)
  | .working given => given = true → ∃ t, c.set = some (t, true) ∧ granted = some (key c.jobId, t)
  | .releasing | .returned => True

structure Fits (locks : Locks String String) (c : LeaseCall) : Prop where
  pending : c.setPending = true → c.set = none ∧ locks.granted c.owner.text = none
  past : ∀ t found, c.set = some (t, found) → t ≤ locks.now
  deleted : ∀ e, c.deleted = some e → e ≤ locks.now
  granted : ∀ k t, locks.granted c.owner.text = some (k, t) → k = key c.jobId ∧ c.set = some (t, true) ∧
    ∀ e, c.deleted = some e → e ≤ t
  stands : Stands (locks.granted c.owner.text) c c.phase
  deletes : c.deletePending = true → c.phase = .releasing ∨ c.phase = .returned

theorem Fits.idle (h : Fits locks c) (hrel : c.phase ≠ .releasing) (hret : c.phase ≠ .returned) :
    c.deletePending = false := by
  cases hd : c.deletePending with
  | false => rfl
  | true =>
    cases h.deletes hd with
    | inl h => exact absurd h hrel
    | inr h => exact absurd h hret

/-- At the time of a refusal another call of the job held the lease: it had set it at most a duration
before, and had not deleted it since. -/
def Held (leaseDuration : Nat) (calls : Nat → Option LeaseCall) (i : Nat) (jobId : UUID) (t : Nat) : Prop :=
  ∃ j d t', j ≠ i ∧ calls j = some d ∧ d.jobId = jobId ∧ d.set = some (t', true) ∧ t' ≤ t ∧
    t ≤ t' + leaseDuration ∧ ∀ e, d.deleted = some e → e ≤ t' ∨ t ≤ e

/-- No two calls have drawn one owner. -/
def Distinct (calls : Nat → Option LeaseCall) : Prop :=
  ∀ i j c d, calls i = some c → calls j = some d → c.owner = d.owner → i = j

structure Sound (leaseDuration : Nat) (s : Leasing) : Prop where
  locks : Lease.Sound leaseDuration s.locks
  owners : ∀ o k t, s.locks.granted o = some (k, t) → ∃ i c, o = c.owner.text ∧ s.calls i = some c
  fits : ∀ i c, s.calls i = some c → Fits s.locks c
  refused : ∀ i c t, s.calls i = some c → c.set = some (t, false) → Held leaseDuration s.calls i c.jobId t

/-- What a move does to the record of its call. -/
structure Grows (now : Nat) (c d : LeaseCall) : Prop where
  jobId : d.jobId = c.jobId
  owner : d.owner = c.owner
  set : ∀ p, c.set = some p → d.set = some p
  deleted : d.deleted = c.deleted ∨ d.deleted = some now

theorem Held.put {t now : Nat} {jobId : UUID} {j : Nat} (h : Held leaseDuration s.calls j jobId t) (ht : t ≤ now)
    (hgrows : ∀ c, s.calls i = some c → Grows now c d) : Held leaseDuration (s.put i d).calls j jobId t := by
  obtain ⟨k, c, t', hne, hc, hjob, hset, hle, hin, hdel⟩ := h
  by_cases hk : k = i
  · have hg := hgrows c (hk ▸ hc)
    refine ⟨k, d, t', hne, by rw [put_calls, if_pos hk], hg.jobId.trans hjob, hg.set _ hset, hle, hin, ?_⟩
    intro e he
    cases hg.deleted with
    | inl h => exact hdel e (h ▸ he)
    | inr h =>
      rw [h] at he
      injection he with he
      exact .inr (he ▸ ht)
  · exact ⟨k, c, t', hne, by rw [put_calls, if_neg hk]; exact hc, hjob, hset, hle, hin, hdel⟩

/-- One call moves, and the locks of the other owners stay as they are. -/
theorem Sound.put (hs : Sound leaseDuration s) (hdistinct : Distinct (s.put i d).calls)
    (hlocks : Lease.Sound leaseDuration locks) (hnow : locks.now = s.locks.now)
    (hothers : ∀ o, o ≠ d.owner.text → locks.granted o = s.locks.granted o) (hfits : Fits locks d)
    (hgrows : ∀ c, s.calls i = some c → Grows s.locks.now c d)
    (hrefused : ∀ t, d.set = some (t, false) → (∃ c, s.calls i = some c ∧ c.set = some (t, false)) ∨
      Held leaseDuration s.calls i d.jobId t) :
    Sound leaseDuration ({ s with locks := locks }.put i d) := by
  constructor
  · exact hlocks
  · intro o k t h
    by_cases ho : o = d.owner.text
    · exact ⟨i, d, ho, by rw [put_calls, if_pos rfl]⟩
    · have h' : s.locks.granted o = some (k, t) := hothers o ho ▸ h
      obtain ⟨j, c, hj, hc⟩ := hs.owners o k t h'
      have hji : j ≠ i := by
        intro he
        rw [hj, (hgrows c (he ▸ hc)).owner] at ho
        exact ho rfl
      exact ⟨j, c, hj, by rw [put_calls, if_neg hji]; exact hc⟩
  · intro j c h
    rw [put_calls] at h
    by_cases hji : j = i
    · rw [if_pos hji] at h
      injection h with h
      rw [← h]
      exact hfits
    · rw [if_neg hji] at h
      have hne : c.owner.text ≠ d.owner.text := by
        intro he
        apply hji
        apply hdistinct j i c d _ _ (UUID.ext he)
        · rw [put_calls, if_neg hji]
          exact h
        · rw [put_calls, if_pos rfl]
      have hg : locks.granted c.owner.text = s.locks.granted c.owner.text := hothers _ hne
      have hf := hs.fits j c h
      constructor
      · intro hp
        exact hg ▸ hf.pending hp
      · intro t found ht
        exact hnow ▸ hf.past t found ht
      · intro e he
        exact hnow ▸ hf.deleted e he
      · intro k t hgr
        exact hf.granted k t (hg ▸ hgr)
      · exact hg ▸ hf.stands
      · exact hf.deletes
  · intro j c t h ht
    rw [put_calls] at h
    by_cases hji : j = i
    · rw [if_pos hji] at h
      injection h with h
      subst h
      have hle : t ≤ s.locks.now := hnow ▸ hfits.past t false ht
      rw [hji]
      cases hrefused t ht with
      | inl hold =>
        obtain ⟨c, hc, hct⟩ := hold
        have hh := (hs.refused i c t hc hct).put hle hgrows
        rw [(hgrows c hc).jobId]
        exact hh
      | inr hnew => exact hnew.put hle hgrows
    · rw [if_neg hji] at h
      exact (hs.refused j c t h ht).put ((hs.fits j c h).past t false ht) hgrows

/-- A move that leaves the commands alone. -/
theorem Sound.phase (hs : Sound leaseDuration s) (hc : s.calls i = some c) (phase : LeasePhase)
    {deletePending : Bool}
    (hdistinct : Distinct (s.put i { c with phase := phase, deletePending := deletePending }).calls)
    (hstands : Stands (s.locks.granted c.owner.text) c phase)
    (hdeletes : deletePending = true → phase = .releasing ∨ phase = .returned) :
    Sound leaseDuration (s.put i { c with phase := phase, deletePending := deletePending }) := by
  have hf := hs.fits i c hc
  apply hs.put hdistinct hs.locks rfl (fun _ _ => rfl)
  · exact ⟨hf.pending, hf.past, hf.deleted, hf.granted, hstands, hdeletes⟩
  · intro c' hc'
    rw [hc] at hc'
    injection hc' with hc'
    subst hc'
    exact ⟨rfl, rfl, fun _ h => h, .inl rfl⟩
  · exact fun t ht => .inl ⟨c, hc, ht⟩

theorem Sound.begins (hs : Sound leaseDuration s) (hc : s.calls i = none) {jobId owner : UUID}
    (hdistinct : Distinct (s.put i { jobId, owner }).calls) : Sound leaseDuration (s.put i { jobId, owner }) := by
  have hfree : s.locks.granted owner.text = none := by
    cases hg : s.locks.granted owner.text with
    | none => rfl
    | some g =>
      obtain ⟨j, c, hj, hcj⟩ := hs.owners _ g.1 g.2 hg
      have hne : j ≠ i := by
        intro he
        rw [he, hc] at hcj
        cases hcj
      refine absurd (hdistinct j i c { jobId, owner } ?_ ?_ (UUID.ext hj.symm)) hne
      · rw [put_calls, if_neg hne]
        exact hcj
      · rw [put_calls, if_pos rfl]
  apply hs.put hdistinct hs.locks rfl (fun _ _ => rfl)
  · constructor
    · exact fun _ => ⟨rfl, hfree⟩
    · exact fun _ _ h => nomatch h
    · exact fun _ h => nomatch h
    · intro k t h
      rw [hfree] at h
      cases h
    · trivial
    · exact fun h => nomatch h
  · intro c h
    rw [hc] at h
    cases h
  · exact fun t h => nomatch h

/-- The command runs: what the client waits for is what Redis has done. -/
theorem Stands.hear {granted granted' : Option (String × Nat)} {t : Nat} {found : Bool}
    (h : Stands granted c c.phase) (hnone : c.set = none) (hset : d.set = some (t, found))
    (hgranted : found = true → granted' = some (key d.jobId, t)) :
    Stands granted' d (Leasing.hear found c.phase) := by
  cases hphase : c.phase with
  | acquiring => exact ⟨t, hset, hgranted⟩
  | answered b =>
    rw [hphase] at h
    obtain ⟨u, hu, -⟩ := h
    rw [hnone] at hu
    cases hu
  | skipped =>
    rw [hphase] at h
    obtain ⟨u, hu⟩ := h
    rw [hnone] at hu
    cases hu
  | working given =>
    rw [hphase] at h
    intro hgiven
    obtain ⟨u, hu, -⟩ := h hgiven
    rw [hnone] at hu
    cases hu
  | releasing => trivial
  | returned => trivial

theorem Sound.sets (hs : Sound leaseDuration s) (hc : s.calls i = some c) (hp : c.setPending = true) {found : Bool}
    (hdistinct : Distinct (s.put i { c with
      setPending := false, set := some (s.locks.now, found), phase := Leasing.hear found c.phase }).calls)
    (hset : s.locks.setIfAbsent leaseDuration (key c.jobId) c.owner.text = (locks, found)) :
    Sound leaseDuration ({ s with locks := locks }.put i { c with
      setPending := false, set := some (s.locks.now, found), phase := Leasing.hear found c.phase }) := by
  have hf := hs.fits i c hc
  obtain ⟨hnone, hfree⟩ := hf.pending hp
  have hlocks := hs.locks.setIfAbsent (k := key c.jobId) hfree
  have hcases := Lease.setIfAbsent_cases leaseDuration s.locks (key c.jobId) c.owner.text
  rw [hset] at hlocks hcases
  have hgrows : ∀ c', s.calls i = some c' → Grows s.locks.now c' { c with
      setPending := false, set := some (s.locks.now, found), phase := Leasing.hear found c.phase } := by
    intro c' hc'
    rw [hc] at hc'
    injection hc' with hc'
    subst hc'
    refine ⟨rfl, rfl, fun p h => ?_, .inl rfl⟩
    rw [hnone] at h
    cases h
  have hdeletes : c.deletePending = true →
      Leasing.hear found c.phase = .releasing ∨ Leasing.hear found c.phase = .returned := by
    intro h
    cases hf.deletes h with
    | inl h => exact .inl (by rw [h]; rfl)
    | inr h => exact .inr (by rw [h]; rfl)
  have hpast : ∀ t b, some (s.locks.now, found) = some (t, b) → t ≤ s.locks.now := by
    intro t b h
    injection h with h
    injection h with h
    exact Nat.le_of_eq h.symm
  obtain ⟨he, o, hk⟩ | ⟨u, he, hnow, hgranted, hothers⟩ := hcases
  · injection he with hlock hfound
    subst hlock hfound
    obtain ⟨t', hg, hin⟩ := hs.locks.holder_iff.mp hk
    obtain ⟨j, d, hj, hd⟩ := hs.owners _ _ _ hg
    subst hj
    obtain ⟨hkey, hdset, hdel⟩ := (hs.fits j d hd).granted _ _ hg
    have hne : j ≠ i := by
      intro he
      rw [he, hc] at hd
      injection hd with hd
      rw [← hd, hfree] at hg
      cases hg
    refine hs.put hdistinct hs.locks rfl (fun _ _ => rfl) ?_ hgrows ?_
    · refine ⟨fun h => (nomatch h), hpast, hf.deleted, ?_, hf.stands.hear hnone rfl fun h => (nomatch h), hdeletes⟩
      intro k t h
      rw [hfree] at h
      cases h
    · intro t ht
      injection ht with ht
      injection ht with ht
      subst ht
      exact .inr ⟨j, d, t', hne, hd, (JobDispatchLease.key_inj hkey).symm, hdset,
        (hs.fits j d hd).past _ _ hdset, hin, fun e he => .inl (hdel e he)⟩
  · injection he with hlock hfound
    subst hlock hfound
    refine hs.put hdistinct hlocks hnow hothers ?_ hgrows fun t ht => nomatch ht
    refine ⟨fun h => (nomatch h), fun t b h => hnow ▸ hpast t b h, fun e h => hnow ▸ hf.deleted e h, ?_,
      hf.stands.hear hnone rfl fun _ => hgranted, hdeletes⟩
    intro k t h
    rw [hgranted] at h
    injection h with h
    injection h with hk ht
    subst hk ht
    exact ⟨rfl, rfl, hf.deleted⟩

theorem Sound.deletes (hs : Sound leaseDuration s) (hc : s.calls i = some c) (hp : c.deletePending = true)
    (hdistinct : Distinct (s.put i { c with deletePending := false, deleted := some s.locks.now }).calls) :
    Sound leaseDuration
      ({ s with locks := s.locks.deleteIfOwned (key c.jobId) c.owner.text }.put i { c with
        deletePending := false, deleted := some s.locks.now }) := by
  have hf := hs.fits i c hc
  have hlocks := hs.locks.deleteIfOwned (k := key c.jobId) fun k t h => (hf.granted k t h).1
  have hnone : (s.locks.deleteIfOwned (key c.jobId) c.owner.text).granted c.owner.text = none := by
    rw [Lease.deleteIfOwned_granted, Function.update_self]
  refine hs.put hdistinct hlocks rfl (fun o ho => ?_) ?_ ?_ fun t ht => .inl ⟨c, hc, ht⟩
  · rw [Lease.deleteIfOwned_granted, Function.update_of_ne ho]
  · constructor
    · exact fun h => ⟨(hf.pending h).1, hnone⟩
    · exact hf.past
    · intro e h
      injection h with h
      exact Nat.le_of_eq h.symm
    · intro k t h
      rw [hnone] at h
      cases h
    · -- the call does not rely on the lock any more
      cases hf.deletes hp with
      | inl h => rw [h]; trivial
      | inr h => rw [h]; trivial
    · exact fun h => nomatch h
  · intro c' hc'
    rw [hc] at hc'
    injection hc' with hc'
    subst hc'
    exact ⟨rfl, rfl, fun _ h => h, .inr rfl⟩

theorem Sound.ticks (hs : Sound leaseDuration s) (d : Nat) :
    Sound leaseDuration { s with locks := s.locks.tick d } := by
  refine ⟨hs.locks.tick d, hs.owners, fun i c h => ?_, hs.refused⟩
  have hf := hs.fits i c h
  exact ⟨hf.pending, fun t b h => Nat.le_add_right_of_le (hf.past t b h),
    fun e h => Nat.le_add_right_of_le (hf.deleted e h), hf.granted, hf.stands, hf.deletes⟩

theorem Sound.next_begin {jobId owner : UUID} (hs : Sound leaseDuration s)
    (h : s.next leaseDuration (.begin i jobId owner) = some t) (hdistinct : Distinct t.calls) :
    Sound leaseDuration t := by
  cases hc : s.calls i with
  | some c => simp [Leasing.next, hc] at h
  | none =>
    simp only [Leasing.next, hc, Option.some.injEq] at h
    subst h
    exact hs.begins hc hdistinct

theorem Sound.next_tick {d : Nat} (hs : Sound leaseDuration s)
    (h : s.next leaseDuration (.tick d) = some t) : Sound leaseDuration t := by
  simp only [Leasing.next, Option.some.injEq] at h
  exact h ▸ hs.ticks d

theorem Sound.next_setIfAbsent (hs : Sound leaseDuration s)
    (h : s.next leaseDuration (.setIfAbsent i) = some t) (hdistinct : Distinct t.calls) : Sound leaseDuration t := by
  cases hc : s.calls i with
  | none => simp [Leasing.next, hc] at h
  | some c =>
    simp only [Leasing.next, hc] at h
    by_cases hp : c.setPending = true
    · rw [if_pos hp] at h
      injection h with h
      subst h
      exact hs.sets hc hp hdistinct rfl
    · rw [if_neg hp] at h
      cases h

theorem Sound.next_reply (hs : Sound leaseDuration s)
    (h : s.next leaseDuration (.reply i) = some t) (hdistinct : Distinct t.calls) : Sound leaseDuration t := by
  cases hc : s.calls i with
  | none => simp [Leasing.next, hc] at h
  | some c =>
    have hf := hs.fits i c hc
    cases hphase : c.phase with
    | answered found =>
      simp only [Leasing.next, hc, hphase, Option.some.injEq] at h
      have hstands := hf.stands
      rw [hphase] at hstands
      obtain ⟨u, hu, hgranted⟩ := hstands
      subst h
      apply hs.phase hc _ hdistinct
      · cases found with
        | true => exact fun _ => ⟨u, hu, hgranted rfl⟩
        | false => exact ⟨u, hu⟩
      · intro hd
        rw [hf.idle (by rw [hphase]; nofun) (by rw [hphase]; nofun)] at hd
        cases hd
    | _ => simp [Leasing.next, hc, hphase] at h

theorem Sound.next_fail (hs : Sound leaseDuration s)
    (h : s.next leaseDuration (.fail i) = some t) (hdistinct : Distinct t.calls) : Sound leaseDuration t := by
  cases hc : s.calls i with
  | none => simp [Leasing.next, hc] at h
  | some c =>
    have hput : c.phase ≠ .releasing → c.phase ≠ .returned →
        Distinct (s.put i { c with phase := .working false }).calls →
        Sound leaseDuration (s.put i { c with phase := .working false }) := by
      intro hrel hret hdistinct
      apply hs.phase hc (.working false) hdistinct
      · exact fun h => nomatch h
      · intro hd
        rw [(hs.fits i c hc).idle hrel hret] at hd
        cases hd
    cases hphase : c.phase with
    | acquiring =>
      simp only [Leasing.next, hc, hphase, Option.some.injEq] at h
      subst h
      exact hput (by rw [hphase]; nofun) (by rw [hphase]; nofun) hdistinct
    | answered found =>
      simp only [Leasing.next, hc, hphase, Option.some.injEq] at h
      subst h
      exact hput (by rw [hphase]; nofun) (by rw [hphase]; nofun) hdistinct
    | _ => simp [Leasing.next, hc, hphase] at h

theorem Sound.next_finish (hs : Sound leaseDuration s)
    (h : s.next leaseDuration (.finish i) = some t) (hdistinct : Distinct t.calls) : Sound leaseDuration t := by
  cases hc : s.calls i with
  | none => simp [Leasing.next, hc] at h
  | some c =>
    cases hphase : c.phase with
    | working given =>
      simp only [Leasing.next, hc, hphase, Option.some.injEq] at h
      subst h
      exact hs.phase hc .releasing hdistinct trivial fun _ => .inl rfl
    | _ => simp [Leasing.next, hc, hphase] at h

theorem Sound.next_delete (hs : Sound leaseDuration s)
    (h : s.next leaseDuration (.delete i) = some t) (hdistinct : Distinct t.calls) : Sound leaseDuration t := by
  cases hc : s.calls i with
  | none => simp [Leasing.next, hc] at h
  | some c =>
    simp only [Leasing.next, hc] at h
    by_cases hp : c.deletePending = true
    · rw [if_pos hp] at h
      injection h with h
      subst h
      exact hs.deletes hc hp hdistinct
    · rw [if_neg hp] at h
      cases h

theorem Sound.next_ends (hs : Sound leaseDuration s)
    (h : s.next leaseDuration (.ends i) = some t) (hdistinct : Distinct t.calls) : Sound leaseDuration t := by
  cases hc : s.calls i with
  | none => simp [Leasing.next, hc] at h
  | some c =>
    cases hphase : c.phase with
    | releasing =>
      simp only [Leasing.next, hc, hphase, Option.some.injEq] at h
      subst h
      exact hs.phase hc .returned hdistinct trivial fun _ => .inr rfl
    | _ => simp [Leasing.next, hc, hphase] at h

/-- The step lemma. -/
theorem Sound.next (hs : Sound leaseDuration s) {m : LeaseMove} (h : s.next leaseDuration m = some t)
    (hdistinct : Distinct t.calls) : Sound leaseDuration t := by
  cases m with
  | begin i jobId owner => exact hs.next_begin h hdistinct
  | tick d => exact hs.next_tick h
  | setIfAbsent i => exact hs.next_setIfAbsent h hdistinct
  | reply i => exact hs.next_reply h hdistinct
  | fail i => exact hs.next_fail h hdistinct
  | finish i => exact hs.next_finish h hdistinct
  | delete i => exact hs.next_delete h hdistinct
  | ends i => exact hs.next_ends h hdistinct

/-- A move is the time's, or one call's, which keeps its owner. -/
theorem next_cases {m : LeaseMove} (h : s.next leaseDuration m = some t) :
    t.calls = s.calls ∨ ∃ i d, t.calls = Function.update s.calls i (some d) ∧
      ∀ c, s.calls i = some c → d.owner = c.owner := by
  have hput : ∀ i c d, s.calls i = some c → t.calls = Function.update s.calls i (some d) → d.owner = c.owner →
      ∃ i d, t.calls = Function.update s.calls i (some d) ∧ ∀ c, s.calls i = some c → d.owner = c.owner := by
    intro i c d hc ht hd
    refine ⟨i, d, ht, fun c' hc' => ?_⟩
    rw [hc] at hc'
    injection hc' with hc'
    rw [← hc', hd]
  cases m with
  | begin i jobId owner =>
    cases hc : s.calls i with
    | some c => simp [Leasing.next, hc] at h
    | none =>
      simp only [Leasing.next, hc, Option.some.injEq] at h
      refine .inr ⟨i, { jobId, owner }, h ▸ rfl, fun c' hc' => ?_⟩
      rw [hc] at hc'
      cases hc'
  | tick d =>
    injection h with h
    exact .inl (by rw [← h])
  | setIfAbsent i | reply i | fail i | finish i | delete i | ends i =>
    cases hc : s.calls i with
    | none => simp [Leasing.next, hc] at h
    | some c =>
      simp only [Leasing.next, hc] at h
      split at h <;> first
        | exact .inr (hput i c _ hc (congrArg Leasing.calls (Option.some.inj h).symm) rfl)
        | cases h

/-- A call is not forgotten, nor does it draw another owner. -/
theorem next_owner {m : LeaseMove} (h : s.next leaseDuration m = some t) {j : Nat} (hc : s.calls j = some c) :
    ∃ d, t.calls j = some d ∧ d.owner = c.owner := by
  obtain ht | ⟨i, d, ht, hd⟩ := next_cases h
  · exact ⟨c, ht ▸ hc, rfl⟩
  · by_cases hji : j = i
    · rw [ht, hji, Function.update_self]
      exact ⟨d, rfl, hd c (hji ▸ hc)⟩
    · rw [ht, Function.update_of_ne hji]
      exact ⟨c, hc, rfl⟩

theorem sound (h : (system leaseDuration).Reachable s) (hdistinct : Distinct s.calls) :
    Sound leaseDuration s := by
  obtain ⟨w, hw⟩ := h
  induction hw with
  | start hi =>
    rw [hi]
    exact ⟨Lease.Sound.start, fun _ _ _ h => (nomatch h), fun _ _ h => (nomatch h), fun _ _ _ h => (nomatch h)⟩
  | step hr hm ih =>
    refine (ih fun i j c d hc hd he => ?_).next hm hdistinct
    obtain ⟨c', hc', hco⟩ := next_owner hm hc
    obtain ⟨d', hd', hdo⟩ := next_owner hm hd
    exact hdistinct i j c' d' hc' hd' (by rw [hco, hdo, he])

/-- Two calls at one job that Redis has given the lease to have it more than a duration apart, and a call is
skipped only where another one had the lease: whatever is lost, and in any order of the commands. -/
theorem leases_exclusive (h : (system leaseDuration).Reachable s) (hdistinct : Distinct s.calls) :
    (∀ i j c d, i ≠ j → s.calls i = some c → s.calls j = some d → c.jobId = d.jobId →
      c.phase = .working true → d.phase = .working true → ∃ t u, c.set = some (t, true) ∧
        d.set = some (u, true) ∧ (t + leaseDuration < u ∨ u + leaseDuration < t)) ∧
    ∀ i c, s.calls i = some c → c.phase = .skipped → ∃ t, c.set = some (t, false) ∧
      Held leaseDuration s.calls i c.jobId t := by
  have hs := sound h hdistinct
  constructor
  · intro i j c d hij hc hd hjob hcw hdw
    have hcs := (hs.fits i c hc).stands
    have hds := (hs.fits j d hd).stands
    rw [hcw] at hcs
    rw [hdw] at hds
    obtain ⟨t, ht, hgt⟩ := hcs rfl
    obtain ⟨u, hu, hgu⟩ := hds rfl
    have hne : c.owner.text ≠ d.owner.text := fun he => hij (hdistinct i j c d hc hd (UUID.ext he))
    rw [← hjob] at hgu
    exact ⟨t, u, ht, hu, hs.locks.apart _ _ _ t u hne hgt hgu⟩
  · intro i c hc hskip
    have hcs := (hs.fits i c hc).stands
    rw [hskip] at hcs
    obtain ⟨t, ht⟩ := hcs
    exact ⟨t, ht, hs.refused i c t hc ht⟩

end Exclusion

section Overlap

def jobOne : UUID := ⟨"00000000-0000-4000-8000-000000000001", Eq.refl true⟩

def ownerOne : UUID := ⟨"00000000-0000-4000-8000-00000000000a", Eq.refl true⟩

def ownerTwo : UUID := ⟨"00000000-0000-4000-8000-00000000000b", Eq.refl true⟩

/-- The first call is still at work when its lease of five minutes has run out. -/
def overlapping : List LeaseMove :=
  [.begin 0 jobOne ownerOne, .setIfAbsent 0, .reply 0, .tick 300001, .begin 1 jobOne ownerTwo, .setIfAbsent 1,
    .reply 1]

def overlapped : Leasing := (overlapping.foldlM (next 300000) {}).getD {}

theorem overlapped_reachable : (system 300000).Reachable overlapped := by
  have hm : overlapping.foldlM (next 300000) {} = some overlapped := rfl
  exact (Transition.System.Reachable.start rfl).foldlM (fun _ _ _ h => h) hm

theorem overlapped_distinct : Distinct overlapped.calls := by
  have hnone : ∀ i, overlapped.calls (i + 2) = none := fun _ => rfl
  intro i j c d hc hd he
  rcases i with _ | _ | i
  · rcases j with _ | _ | j
    · rfl
    · cases hc
      cases hd
      exact absurd he (by decide)
    · rw [hnone] at hd
      cases hd
  · rcases j with _ | _ | j
    · cases hc
      cases hd
      exact absurd he (by decide)
    · rfl
    · rw [hnone] at hd
      cases hd
  · rw [hnone] at hc
    cases hc

theorem overlapped_apart : ∃ c d t u, overlapped.calls 0 = some c ∧ overlapped.calls 1 = some d ∧
    c.set = some (t, true) ∧ d.set = some (u, true) ∧ (t + 300000 < u ∨ u + 300000 < t) := by
  have h := (leases_exclusive overlapped_reachable overlapped_distinct).1 0 1 _ _ (by decide) rfl rfl rfl rfl rfl
  obtain ⟨t, u, ht, hu, hapart⟩ := h
  exact ⟨_, _, t, u, rfl, rfl, ht, hu, hapart⟩

end Overlap

end DataCopilot.Platform.Leasing
