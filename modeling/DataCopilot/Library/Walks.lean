import Mathlib.Data.List.Infix
import Mathlib.Data.List.Nodup

/-! Walks in an undirected multigraph that is a list of edges with two ends each. -/
namespace DataCopilot
variable {κ ε : Type*}

/-- The edge with these ends leads from `a` to `b`, in either direction. -/
def Joins (p : κ × κ) (a b : κ) : Prop := p = (a, b) ∨ p = (b, a)

instance [DecidableEq κ] (p : κ × κ) (a b : κ) : Decidable (Joins p a b) :=
  inferInstanceAs (Decidable (_ ∨ _))

theorem Joins.unique {p : κ × κ} {a b c : κ} (h : Joins p a b) (h' : Joins p a c) : b = c := by
  cases h with
  | inl h => cases h' with
    | inl h' => exact (Prod.ext_iff.mp (h.symm.trans h')).2
    | inr h' =>
      have hpair := Prod.ext_iff.mp (h.symm.trans h')
      exact hpair.2.trans hpair.1
  | inr h => cases h' with
    | inl h' =>
      have hpair := Prod.ext_iff.mp (h.symm.trans h')
      exact hpair.1.trans hpair.2
    | inr h' => exact (Prod.ext_iff.mp (h.symm.trans h')).1

/-- A walk by its edges in order and the vertices it stands at. -/
inductive Walk (ends : ε → κ × κ) (edges : List ε) : κ → List ε → List κ → κ → Prop where
  | nil (a : κ) : Walk ends edges a [] [a] a
  | cons {a b c : κ} {e : ε} {es : List ε} {vs : List κ} (he : e ∈ edges)
      (hab : Joins (ends e) a b) (rest : Walk ends edges b es vs c) :
      Walk ends edges a (e :: es) (a :: vs) c

namespace Walk
variable {ends : ε → κ × κ} {edges : List ε} {a b c : κ} {e : ε} {es fs : List ε} {vs ws : List κ}

theorem start_mem (h : Walk ends edges a es vs b) : a ∈ vs := by
  cases h with
  | nil a => exact List.mem_singleton.mpr rfl
  | cons he hab rest => exact List.mem_cons_self

theorem ends_mem (h : Walk ends edges a es vs b) (he : e ∈ es) :
    (ends e).1 ∈ vs ∧ (ends e).2 ∈ vs := by
  induction h with
  | nil a => cases he
  | cons hd hab rest ih =>
    cases List.mem_cons.mp he with
    | inl h =>
      rw [h]
      cases hab with
      | inl hab =>
        rw [hab]
        exact ⟨List.mem_cons_self, List.mem_cons_of_mem _ rest.start_mem⟩
      | inr hab =>
        rw [hab]
        exact ⟨List.mem_cons_of_mem _ rest.start_mem, List.mem_cons_self⟩
    | inr h =>
      have hrest := ih h
      exact ⟨List.mem_cons_of_mem _ hrest.1, List.mem_cons_of_mem _ hrest.2⟩

/-- What holds of the start and of the ends of the edges holds of every vertex. -/
theorem vertices_of {p : κ → Prop} (h : Walk ends edges a es vs b) (ha : p a)
    (hends : ∀ e ∈ edges, p (ends e).1 ∧ p (ends e).2) : ∀ v ∈ vs, p v := by
  induction h with
  | nil a =>
    intro v hv
    exact List.mem_singleton.mp hv ▸ ha
  | cons he hab rest ih =>
    rename_i a b c e es vs
    have hb : p b := by
      have hboth := hends e he
      cases hab with
      | inl hab =>
        rw [hab] at hboth
        exact hboth.2
      | inr hab =>
        rw [hab] at hboth
        exact hboth.1
    intro v hv
    cases List.mem_cons.mp hv with
    | inl hv => exact hv ▸ ha
    | inr hv => exact ih hb v hv

theorem snoc (h : Walk ends edges a es vs b) (he : e ∈ edges)
    (hbc : Joins (ends e) b c) : Walk ends edges a (es ++ [e]) (vs ++ [c]) c := by
  induction h with
  | nil a => exact .cons he hbc (.nil c)
  | cons hd hab rest ih => exact .cons hd hab (ih hbc)

/-- A walk goes on where its first part ends. -/
theorem split (h : Walk ends edges a (es ++ fs) vs c) : ∃ b us ws,
    Walk ends edges a es us b ∧ Walk ends edges b fs ws c ∧ vs = us ++ ws.tail := by
  induction es generalizing a vs with
  | nil =>
    refine ⟨a, [a], vs, .nil a, h, ?_⟩
    cases h with
    | nil a => rfl
    | cons he hab rest => rfl
  | cons e es ih =>
    cases h with
    | cons he hab rest =>
      obtain ⟨b, us, ws, hus, hws, hvs⟩ := ih rest
      exact ⟨b, _ :: us, ws, .cons he hab hus, hws, by rw [hvs, List.cons_append]⟩

/-- The edges say where a walk goes. -/
theorem deterministic (h : Walk ends edges a es vs b) (h' : Walk ends edges a es ws c) :
    vs = ws ∧ b = c := by
  induction h generalizing ws c with
  | nil a =>
    cases h' with
    | nil a => exact ⟨rfl, rfl⟩
  | cons he hab rest ih =>
    cases h' with
    | cons he' hab' rest' =>
      have hb := hab.unique hab'
      subst hb
      have hrest := ih rest'
      exact ⟨by rw [hrest.1], hrest.2⟩

/-- From a vertex of the walk on, the walk is a walk. -/
theorem from_mem (h : Walk ends edges a es vs b) {v : κ} (hv : v ∈ vs) :
    ∃ fs ws, Walk ends edges v fs ws b ∧ fs <:+ es ∧ ws <:+ vs := by
  induction h with
  | nil a =>
    rw [List.mem_singleton.mp hv]
    exact ⟨[], [a], .nil a, List.suffix_rfl, List.suffix_rfl⟩
  | cons he hab rest ih =>
    cases List.mem_cons.mp hv with
    | inl h =>
      rw [h]
      exact ⟨_, _, .cons he hab rest, List.suffix_rfl, List.suffix_rfl⟩
    | inr h =>
      obtain ⟨fs, ws, hwalk, hfs, hws⟩ := ih h
      exact ⟨fs, ws, hwalk, hfs.trans (List.suffix_cons _ _), hws.trans (List.suffix_cons _ _)⟩

/-- Without its loops a walk is a path. -/
theorem exists_path [DecidableEq κ] (h : Walk ends edges a es vs b) :
    ∃ fs ws, Walk ends edges a fs ws b ∧ ws.Nodup ∧ fs.length ≤ es.length := by
  induction h with
  | nil a => exact ⟨[], [a], .nil a, List.nodup_singleton a, Nat.le_refl 0⟩
  | cons he hab rest ih =>
    rename_i a b c e es vs
    obtain ⟨fs, ws, hwalk, hnodup, hlength⟩ := ih
    by_cases ha : a ∈ ws
    · obtain ⟨gs, us, hfrom, hgs, hus⟩ := hwalk.from_mem ha
      refine ⟨gs, us, hfrom, hnodup.sublist hus.sublist, ?_⟩
      have hle := hgs.length_le
      rw [List.length_cons]
      omega
    · refine ⟨e :: fs, a :: ws, .cons he hab hwalk, List.nodup_cons.mpr ⟨ha, hnodup⟩, ?_⟩
      rw [List.length_cons, List.length_cons]
      omega

theorem nodup_edges (h : Walk ends edges a es vs b) (hnodup : vs.Nodup) : es.Nodup := by
  induction h with
  | nil a => exact List.nodup_nil
  | cons he hab rest ih =>
    have hcons := List.nodup_cons.mp hnodup
    refine List.nodup_cons.mpr ⟨?_, ih hcons.2⟩
    intro hmem
    have hends := rest.ends_mem hmem
    cases hab with
    | inl hab =>
      rw [hab] at hends
      exact hcons.1 hends.1
    | inr hab =>
      rw [hab] at hends
      exact hcons.1 hends.2

end Walk

/-- `b` is within `n` steps of `a`. -/
def Within (ends : ε → κ × κ) (edges : List ε) (n : Nat) (a b : κ) : Prop :=
  ∃ es vs, Walk ends edges a es vs b ∧ es.length ≤ n

namespace Within
variable {ends : ε → κ × κ} {edges : List ε} {n : Nat} {a b : κ}

theorem zero_iff : Within ends edges 0 a b ↔ a = b := by
  constructor
  · intro h
    obtain ⟨es, vs, hwalk, hlength⟩ := h
    cases hwalk with
    | nil a => rfl
    | cons he hab rest => cases hlength
  · intro h
    rw [h]
    exact ⟨[], [b], .nil b, Nat.le_refl 0⟩

theorem refl (n : Nat) (a : κ) : Within ends edges n a a := ⟨[], [a], .nil a, Nat.zero_le n⟩

/-- The last step leads from where one more step than `n` is not needed. -/
theorem succ_iff : Within ends edges (n + 1) a b ↔ Within ends edges n a b ∨
    ∃ c, Within ends edges n a c ∧ ∃ e ∈ edges, Joins (ends e) c b := by
  constructor
  · intro h
    obtain ⟨es, vs, hwalk, hlength⟩ := h
    induction es using List.reverseRecOn with
    | nil => exact .inl ⟨[], vs, hwalk, Nat.zero_le n⟩
    | append_singleton es e _ =>
      obtain ⟨c, us, ws, hus, hws, _⟩ := hwalk.split
      rw [List.length_append, List.length_singleton] at hlength
      cases hws with
      | cons he hab rest =>
        cases rest with
        | nil => exact .inr ⟨c, ⟨es, us, hus, by omega⟩, e, he, hab⟩
  · intro h
    cases h with
    | inl h =>
      obtain ⟨es, vs, hwalk, hlength⟩ := h
      exact ⟨es, vs, hwalk, by omega⟩
    | inr h =>
      obtain ⟨c, ⟨es, vs, hwalk, hlength⟩, e, he, hab⟩ := h
      refine ⟨es ++ [e], vs ++ [b], hwalk.snoc he hab, ?_⟩
      rw [List.length_append, List.length_singleton]
      omega

theorem map_iff {δ : Type*} {f : δ → ε} {l : List δ} :
    Within (fun d => ends (f d)) l n a b ↔ Within ends (l.map f) n a b := by
  induction n generalizing b with
  | zero => rw [zero_iff, zero_iff]
  | succ n ih => simp only [succ_iff, ih, List.mem_map, exists_exists_and_eq_and]

end Within

/-- Where the edge with these ends leads from `a`. -/
def neighbor [DecidableEq κ] (p : κ × κ) (a : κ) : Option κ :=
  if p.1 = a then some p.2 else if p.2 = a then some p.1 else none

theorem neighbor_eq_some [DecidableEq κ] {p : κ × κ} {a b : κ} :
    neighbor p a = some b ↔ Joins p a b := by
  obtain ⟨x, y⟩ := p
  simp only [neighbor, Joins, Prod.mk.injEq]
  by_cases hx : x = a
  · rw [if_pos hx, Option.some.injEq]
    grind
  · rw [if_neg hx]
    grind

section Trails
variable [DecidableEq κ] [DecidableEq ε] {ends : ε → κ × κ} {edges used : List ε} {n : Nat} {a b : κ}

/-- Where the walks of at most `n` steps end that have no edge twice and none of `used`. -/
def trailEnds (ends : ε → κ × κ) (edges : List ε) : Nat → List ε → κ → List κ
  | 0, _, a => [a]
  | n + 1, used, a => a :: edges.flatMap fun e =>
      if e ∈ used then [] else
        match neighbor (ends e) a with
        | some b => trailEnds ends edges n (e :: used) b
        | none => []

theorem mem_trailEnds : b ∈ trailEnds ends edges n used a ↔
    ∃ es vs, Walk ends edges a es vs b ∧ es.length ≤ n ∧ es.Nodup ∧ es.Disjoint used := by
  induction n generalizing used a with
  | zero =>
    rw [trailEnds, List.mem_singleton]
    constructor
    · intro h
      rw [h]
      exact ⟨[], [a], .nil a, Nat.le_refl 0, List.nodup_nil, List.disjoint_nil_left _⟩
    · intro h
      obtain ⟨es, vs, hwalk, hlength, _⟩ := h
      cases hwalk with
      | nil a => rfl
      | cons he hab rest => cases hlength
  | succ n ih =>
    rw [trailEnds, List.mem_cons, List.mem_flatMap]
    constructor
    · intro h
      cases h with
      | inl h =>
        rw [h]
        exact ⟨[], [a], .nil a, Nat.zero_le _, List.nodup_nil, List.disjoint_nil_left _⟩
      | inr h =>
        obtain ⟨e, he, hb⟩ := h
        by_cases hused : e ∈ used
        · rw [if_pos hused] at hb
          cases hb
        · rw [if_neg hused] at hb
          cases hc : neighbor (ends e) a with
          | none =>
            rw [hc] at hb
            cases hb
          | some c =>
            rw [hc] at hb
            obtain ⟨es, vs, hwalk, hlength, hnodup, hdisjoint⟩ := ih.mp hb
            have hparts := List.disjoint_cons_right.mp hdisjoint
            refine ⟨e :: es, a :: vs, .cons he (neighbor_eq_some.mp hc) hwalk, ?_, ?_, ?_⟩
            · rw [List.length_cons]
              omega
            · exact List.nodup_cons.mpr ⟨hparts.1, hnodup⟩
            · exact List.disjoint_cons_left.mpr ⟨hused, hparts.2⟩
    · intro h
      obtain ⟨es, vs, hwalk, hlength, hnodup, hdisjoint⟩ := h
      cases hwalk with
      | nil a => exact .inl rfl
      | cons he hab rest =>
        rename_i c e es vs
        have hcons := List.nodup_cons.mp hnodup
        have hparts := List.disjoint_cons_left.mp hdisjoint
        refine .inr ⟨e, he, ?_⟩
        rw [if_neg hparts.1, neighbor_eq_some.mpr hab]
        refine ih.mpr ⟨es, vs, rest, ?_, hcons.2, ?_⟩
        · rw [List.length_cons] at hlength
          omega
        · exact List.disjoint_cons_right.mpr ⟨hcons.1, hparts.2⟩

/-- An edge that comes twice can be left out. -/
theorem mem_trailEnds_nil : b ∈ trailEnds ends edges n [] a ↔ Within ends edges n a b := by
  rw [mem_trailEnds]
  constructor
  · intro h
    obtain ⟨es, vs, hwalk, hlength, _⟩ := h
    exact ⟨es, vs, hwalk, hlength⟩
  · intro h
    obtain ⟨es, vs, hwalk, hlength⟩ := h
    obtain ⟨fs, ws, hpath, hnodup, hle⟩ := hwalk.exists_path
    exact ⟨fs, ws, hpath, hle.trans hlength, hpath.nodup_edges hnodup, List.disjoint_nil_right _⟩

instance (ends : ε → κ × κ) (edges : List ε) (n : Nat) (a b : κ) :
    Decidable (Within ends edges n a b) :=
  decidable_of_iff (b ∈ trailEnds ends edges n [] a) mem_trailEnds_nil

end Trails
end DataCopilot
