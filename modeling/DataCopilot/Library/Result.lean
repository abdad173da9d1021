import Mathlib.Data.List.Forall2

/-! When a fallible computation succeeds: sequencing, and loops over a list that stop at
the first failure. -/
namespace DataCopilot.Result
variable {ε α β : Type}

theorem bind_eq_ok {x : Except ε α} {f : α → Except ε β} {b : β} :
    (x >>= f) = .ok b ↔ ∃ a, x = .ok a ∧ f a = .ok b := by
  cases x with
  | error e => simp [bind, Except.bind]
  | ok a => simp [bind, Except.bind]

@[simp] theorem pure_eq_ok {a b : α} : (pure a : Except ε α) = .ok b ↔ a = b := by
  simp [pure, Except.pure]

theorem forM_eq_ok {f : α → Except ε Unit} {l : List α} :
    l.forM f = .ok () ↔ ∀ a ∈ l, f a = .ok () := by
  induction l with
  | nil => simp [List.forM, pure, Except.pure]
  | cons a l ih =>
    rw [List.forM, bind_eq_ok, List.forall_mem_cons, ← ih]
    constructor
    · rintro ⟨⟨⟩, ha, hl⟩
      exact ⟨ha, hl⟩
    · rintro ⟨ha, hl⟩
      exact ⟨(), ha, hl⟩

/-- A loop fails with the failure of the first element that has one. -/
theorem forM_eq_error {f : α → Except ε Unit} {l : List α} {e : ε} : l.forM f = .error e ↔
    ∃ before a after, l = before ++ a :: after ∧ (∀ b ∈ before, f b = .ok ()) ∧ f a = .error e := by
  induction l with
  | nil => simp [List.forM, pure, Except.pure]
  | cons a l ih =>
    cases hfa : f a with
    | error e' =>
      have hrun : (a :: l).forM f = .error e' := by
        rw [List.forM, hfa]
        rfl
      rw [hrun]
      constructor
      · intro h
        exact ⟨[], a, l, rfl, by simp, hfa.trans h⟩
      · rintro ⟨before, b, after, he, hb, hf⟩
        cases before with
        | nil =>
          cases he
          exact hfa.symm.trans hf
        | cons c rest =>
          cases he
          rw [hb a List.mem_cons_self] at hfa
          cases hfa
    | ok u =>
      have hrun : (a :: l).forM f = l.forM f := by
        rw [List.forM, hfa]
        rfl
      rw [hrun, ih]
      constructor
      · rintro ⟨before, b, after, he, hb, hf⟩
        refine ⟨a :: before, b, after, by rw [he]; rfl, ?_, hf⟩
        intro c hc
        cases List.mem_cons.mp hc with
        | inl h => rw [h, hfa]
        | inr h => exact hb c h
      · rintro ⟨before, b, after, he, hb, hf⟩
        cases before with
        | nil =>
          cases he
          rw [hfa] at hf
          cases hf
        | cons c rest =>
          cases he
          exact ⟨rest, b, after, rfl, fun d hd => hb d (List.mem_cons_of_mem _ hd), hf⟩

/-- A loop that checks each element and maps it to a value of its own. -/
theorem mapM_eq_ok {ok : α → Prop} {f : α → Except ε β} {g : α → β}
    (hf : ∀ a b, f a = .ok b ↔ ok a ∧ g a = b) {l : List α} {r : List β} :
    l.mapM f = .ok r ↔ (∀ a ∈ l, ok a) ∧ l.map g = r := by
  induction l generalizing r with
  | nil => simp
  | cons a l ih =>
    simp only [List.mapM_cons, bind_eq_ok, pure_eq_ok, hf, ih, List.forall_mem_cons, List.map_cons]
    constructor
    · rintro ⟨b, ⟨ha, rfl⟩, bs, ⟨hl, rfl⟩, rfl⟩
      exact ⟨⟨ha, hl⟩, rfl⟩
    · rintro ⟨⟨ha, hl⟩, rfl⟩
      exact ⟨_, ⟨ha, rfl⟩, _, ⟨hl, rfl⟩, rfl⟩

theorem mapM_eq_ok_iff {f : α → Except ε β} {l : List α} {r : List β} :
    l.mapM f = .ok r ↔ List.Forall₂ (fun a b => f a = .ok b) l r := by
  induction l generalizing r with
  | nil =>
    rw [List.mapM_nil, pure_eq_ok, List.forall₂_nil_left_iff]
    exact eq_comm
  | cons a l ih =>
    rw [List.mapM_cons, bind_eq_ok, List.forall₂_cons_left_iff]
    constructor
    · intro h
      obtain ⟨b, hb, h⟩ := h
      obtain ⟨bs, hbs, h⟩ := bind_eq_ok.mp h
      exact ⟨b, bs, hb, ih.mp hbs, (pure_eq_ok.mp h).symm⟩
    · intro h
      obtain ⟨b, bs, hb, hbs, hr⟩ := h
      exact ⟨b, hb, bind_eq_ok.mpr ⟨bs, ih.mpr hbs, pure_eq_ok.mpr hr.symm⟩⟩

theorem mem_of_forall₂ {R : α → β → Prop} {l : List α} {r : List β} (h : List.Forall₂ R l r) :
    ∀ a ∈ l, ∃ b ∈ r, R a b := by
  induction h with
  | nil => simp
  | @cons a b l r hab _ ih =>
    intro c hc
    cases List.mem_cons.mp hc with
    | inl he => exact ⟨b, List.mem_cons_self, he ▸ hab⟩
    | inr hm =>
      obtain ⟨d, hd, hcd⟩ := ih c hm
      exact ⟨d, List.mem_cons_of_mem b hd, hcd⟩

theorem forall₂_of_mem {R S : α → β → Prop} {l : List α} {r : List β} (hR : List.Forall₂ R l r)
    (h : ∀ a b, a ∈ l → R a b → S a b) : List.Forall₂ S l r := by
  induction hR with
  | nil => exact .nil
  | @cons a b l r hab _ ih =>
    exact .cons (h a b List.mem_cons_self hab) (ih fun x y hx => h x y (List.mem_cons_of_mem a hx))

theorem forall₂_trans {γ : Type} {R : α → β → Prop} {S : β → γ → Prop} {T : α → γ → Prop} {l : List α} {r : List β}
    {s : List γ} (hR : List.Forall₂ R l r) (hS : List.Forall₂ S r s)
    (h : ∀ a b c, b ∈ r → S b c → R a b → T a c) : List.Forall₂ T l s := by
  induction hR generalizing s with
  | nil =>
    cases hS
    exact .nil
  | @cons a b l r hab _ ih =>
    cases hS with
    | @cons _ c _ s hbc hrest =>
      exact .cons (h a b c List.mem_cons_self hbc hab)
        (ih hrest fun x y z hy => h x y z (List.mem_cons_of_mem b hy))

/-- What stands beside a value that comes once is determined by it. -/
theorem eq_of_forall₂ {R : α → β → Prop} {l : List α} {r : List β} (hR : ∀ a b b', R a b → R a b' → b = b')
    (h : List.Forall₂ R l r) (hn : r.Nodup) {a a' : α} {b : β} (ha : a ∈ l) (ha' : a' ∈ l) (hab : R a b)
    (hab' : R a' b) : a = a' := by
  induction h with
  | nil => cases ha
  | @cons c d l r hcd hrest ih =>
    rw [List.nodup_cons] at hn
    have hfirst : ∀ x ∈ l, R x b → R c b → False := by
      intro x hx hxb hcb
      obtain ⟨y, hy, hxy⟩ := mem_of_forall₂ hrest x hx
      rw [hR x y b hxy hxb] at hy
      rw [hR c d b hcd hcb] at hn
      exact hn.1 hy
    cases List.mem_cons.mp ha with
    | inl he =>
      cases List.mem_cons.mp ha' with
      | inl he' => rw [he, he']
      | inr hm' => exact (hfirst a' hm' hab' (he ▸ hab)).elim
    | inr hm =>
      cases List.mem_cons.mp ha' with
      | inl he' => exact (hfirst a hm hab (he' ▸ hab')).elim
      | inr hm' => exact ih hn.2 hm hm'

theorem ok_of_mapM {f : α → Except ε β} {l : List α} {r : List β} (h : l.mapM f = .ok r) :
    ∀ a ∈ l, ∃ b ∈ r, f a = .ok b :=
  mem_of_forall₂ (mapM_eq_ok_iff.mp h)

/-- Two loops that fail at the same elements alike, and do fail, end with the same failure. -/
theorem mapM_of_failure {f g : α → Except ε β} {l : List α}
    (h : ∀ a ∈ l, (∃ e, f a = .error e ∧ g a = .error e) ∨ ∃ b c, f a = .ok b ∧ g a = .ok c)
    (hfail : ∃ a ∈ l, ∃ e, f a = .error e) : l.mapM f = l.mapM g := by
  induction l with
  | nil =>
    obtain ⟨a, ha, -⟩ := hfail
    cases ha
  | cons a l ih =>
    rw [List.mapM_cons, List.mapM_cons]
    cases h a List.mem_cons_self with
    | inl he =>
      obtain ⟨e, hf, hg⟩ := he
      rw [hf, hg]
      rfl
    | inr ho =>
      obtain ⟨b, c, hf, hg⟩ := ho
      have hrest : ∃ d ∈ l, ∃ e, f d = .error e := by
        obtain ⟨d, hd, e, he⟩ := hfail
        cases List.mem_cons.mp hd with
        | inl heq =>
          rw [heq, hf] at he
          cases he
        | inr hm => exact ⟨d, hm, e, he⟩
      have hsame := ih (fun d hd => h d (List.mem_cons_of_mem a hd)) hrest
      have herror : ∃ e, l.mapM f = .error e := by
        cases hm : l.mapM f with
        | error e => exact ⟨e, rfl⟩
        | ok r =>
          obtain ⟨d, hd, e, he⟩ := hrest
          obtain ⟨b', -, hb'⟩ := ok_of_mapM hm d hd
          rw [he] at hb'
          cases hb'
      obtain ⟨e, he⟩ := herror
      rw [hf, hg, ← hsame, he]
      rfl

theorem mapM_congr_mem {f g : α → Except ε β} {l : List α} (h : ∀ a ∈ l, f a = g a) : l.mapM f = l.mapM g := by
  induction l with
  | nil => rfl
  | cons a l ih =>
    rw [List.mapM_cons, List.mapM_cons, h a List.mem_cons_self, ih fun b hb => h b (List.mem_cons_of_mem a hb)]

theorem exists_mapM {f : α → Except ε β} {l : List α} (h : ∀ a ∈ l, ∃ b, f a = .ok b) : ∃ r, l.mapM f = .ok r := by
  induction l with
  | nil => exact ⟨[], rfl⟩
  | cons a l ih =>
    obtain ⟨b, hb⟩ := h a List.mem_cons_self
    obtain ⟨r, hr⟩ := ih fun c hc => h c (List.mem_cons_of_mem a hc)
    refine ⟨b :: r, ?_⟩
    rw [List.mapM_cons, hb, hr]
    rfl

theorem mem_of_mapM {f : α → Except ε β} {l : List α} {r : List β} {b : β} (h : l.mapM f = .ok r)
    (hb : b ∈ r) : ∃ a ∈ l, f a = .ok b := by
  induction l generalizing r with
  | nil =>
    cases h
    cases hb
  | cons a l ih =>
    rw [List.mapM_cons] at h
    obtain ⟨first, hf, h⟩ := bind_eq_ok.mp h
    obtain ⟨later, hl, h⟩ := bind_eq_ok.mp h
    cases h
    cases List.mem_cons.mp hb with
    | inl he => exact ⟨a, List.mem_cons_self, he ▸ hf⟩
    | inr hm =>
      obtain ⟨c, hc, hfc⟩ := ih hl hm
      exact ⟨c, List.mem_cons_of_mem a hc, hfc⟩

end DataCopilot.Result
