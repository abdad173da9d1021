import Mathlib.Algebra.GroupWithZero.Nat
import DataCopilot.Library.Loop
import DataCopilot.Library.Walks

/-! A breadth-first search that keeps a whole path in each entry of its queue, with the vertices
that the path has visited. What it finds first is shortest. -/
namespace DataCopilot.RouteSearch
variable {κ ε : Type*} [DecidableEq κ]

structure Route (κ ε : Type*) where
  node : κ
  route : List ε
  visited : List κ

/-- The route by one edge longer, for each edge that leads to a vertex it has not visited. -/
def extend (ends : ε → κ × κ) (edges : List ε) (x : Route κ ε) : List (Route κ ε) :=
  edges.filterMap fun e =>
    match neighbor (ends e) x.node with
    | some b => if b ∈ x.visited then none else some ⟨b, x.route ++ [e], x.visited ++ [b]⟩
    | none => none

def pass (ends : ε → κ × κ) (edges : List ε) (target : κ) (depth : Nat) :
    List (Route κ ε) → Loop.Pass (List (Route κ ε)) (Option (Route κ ε))
  | [] => .leave none
  | x :: queue =>
    if x.node = target then .leave (some x)
    else if depth ≤ x.route.length then .again queue
    else .again (queue ++ extend ends edges x)

variable {ends : ε → κ × κ} {edges : List ε} {source target : κ} {depth : Nat}
variable {x y : Route κ ε} {queue : List (Route κ ε)}

theorem mem_extend : y ∈ extend ends edges x ↔ ∃ e ∈ edges, ∃ b, Joins (ends e) x.node b ∧
    b ∉ x.visited ∧ y = ⟨b, x.route ++ [e], x.visited ++ [b]⟩ := by
  rw [extend, List.mem_filterMap]
  constructor
  · intro h
    obtain ⟨e, he, hy⟩ := h
    cases hb : neighbor (ends e) x.node with
    | none =>
      rw [hb] at hy
      cases hy
    | some b =>
      rw [hb] at hy
      by_cases hv : b ∈ x.visited
      · simp only [if_pos hv] at hy
        cases hy
      · simp only [if_neg hv] at hy
        exact ⟨e, he, b, neighbor_eq_some.mp hb, hv, (Option.some.inj hy).symm⟩
  · intro h
    obtain ⟨e, he, b, hjoins, hv, hy⟩ := h
    refine ⟨e, he, ?_⟩
    rw [neighbor_eq_some.mpr hjoins]
    simp only [if_neg hv, hy]

theorem length_extend (h : y ∈ extend ends edges x) : y.route.length = x.route.length + 1 := by
  obtain ⟨e, _, b, _, _, hy⟩ := mem_extend.mp h
  rw [hy, List.length_append, List.length_singleton]

/-- The entry is a path from the source within the depth. -/
structure IsPath (ends : ε → κ × κ) (edges : List ε) (source : κ) (depth : Nat) (x : Route κ ε) :
    Prop where
  walk : Walk ends edges source x.route x.visited x.node
  nodup : x.visited.Nodup
  length : x.route.length ≤ depth

theorem IsPath.extend (h : IsPath ends edges source depth x) (hdepth : x.route.length < depth)
    (hy : y ∈ extend ends edges x) : IsPath ends edges source depth y := by
  have hlength := length_extend hy
  obtain ⟨e, he, b, hjoins, hv, hy⟩ := mem_extend.mp hy
  constructor
  · rw [hy]
    exact h.walk.snoc he hjoins
  · rw [hy]
    exact List.nodup_append.mpr ⟨h.nodup, List.nodup_singleton b, fun a ha c hc hac =>
      hv (List.mem_singleton.mp hc ▸ hac ▸ ha)⟩
  · omega

/-- A path that goes on from the entry goes on through one of its extensions. -/
theorem IsPath.extend_towards {es : List ε} {vs : List κ} (h : IsPath ends edges source depth x)
    (hwalk : Walk ends edges source es vs target) (hnodup : vs.Nodup) (hstart : x.route <+: es)
    (hne : x.node ≠ target) : x.route.length < es.length ∧
      ∃ y ∈ RouteSearch.extend ends edges x, y.route <+: es := by
  obtain ⟨rest, hes⟩ := hstart
  rw [← hes] at hwalk
  obtain ⟨b, us, ws, hus, hws, hvs⟩ := hwalk.split
  obtain ⟨hsame, hnode⟩ := h.walk.deterministic hus
  rw [← hes, List.length_append]
  cases hws with
  | nil a => exact absurd hnode hne
  | cons he hab hrest =>
    rename_i c e fs vs'
    have hc : c ∉ x.visited := by
      intro hmem
      rw [hvs, ← hsame, List.tail_cons] at hnodup
      exact (List.disjoint_of_nodup_append hnodup) hmem hrest.start_mem
    refine ⟨by rw [List.length_cons]; omega, ⟨c, x.route ++ [e], x.visited ++ [c]⟩, ?_, ?_⟩
    · exact mem_extend.mpr ⟨e, he, c, hnode ▸ hab, hc, rfl⟩
    · exact ⟨fs, by rw [List.append_assoc, List.singleton_append]⟩

/-- The queue holds paths in the order of their length, two lengths at most, and each path to the
target within the depth goes on from one of them. -/
structure Inv (ends : ε → κ × κ) (edges : List ε) (source target : κ) (depth : Nat)
    (queue : List (Route κ ε)) : Prop where
  path : ∀ x ∈ queue, IsPath ends edges source depth x
  sorted : queue.Pairwise fun x y => x.route.length ≤ y.route.length
  span : ∀ x ∈ queue, ∀ y ∈ queue, y.route.length ≤ x.route.length + 1
  cover : ∀ es vs, Walk ends edges source es vs target → vs.Nodup → es.length ≤ depth →
    ∃ x ∈ queue, x.route <+: es

omit [DecidableEq κ] in
theorem inv_start : Inv ends edges source target depth [⟨source, [], [source]⟩] where
  path := by
    intro x hx
    rw [List.mem_singleton.mp hx]
    exact ⟨.nil source, List.nodup_singleton source, Nat.zero_le depth⟩
  sorted := List.pairwise_singleton _ _
  span := by
    intro x hx y hy
    rw [List.mem_singleton.mp hx, List.mem_singleton.mp hy]
    exact Nat.le_succ _
  cover := by
    intro es vs _ _ _
    exact ⟨_, List.mem_singleton.mpr rfl, ⟨es, rfl⟩⟩

/-- An entry at the depth can be left. -/
theorem Inv.skip (h : Inv ends edges source target depth (x :: queue)) (hne : x.node ≠ target)
    (hdepth : depth ≤ x.route.length) : Inv ends edges source target depth queue where
  path := fun y hy => h.path y (List.mem_cons_of_mem x hy)
  sorted := (List.pairwise_cons.mp h.sorted).2
  span := fun y hy z hz => h.span y (List.mem_cons_of_mem x hy) z (List.mem_cons_of_mem x hz)
  cover := by
    intro es vs hwalk hnodup hlength
    obtain ⟨y, hy, hstart⟩ := h.cover es vs hwalk hnodup hlength
    cases List.mem_cons.mp hy with
    | inl hyx =>
      rw [hyx] at hstart
      have hlonger := ((h.path x List.mem_cons_self).extend_towards hwalk hnodup hstart hne).1
      omega
    | inr hy => exact ⟨y, hy, hstart⟩

theorem Inv.next (h : Inv ends edges source target depth (x :: queue)) (hne : x.node ≠ target)
    (hdepth : x.route.length < depth) :
    Inv ends edges source target depth (queue ++ extend ends edges x) where
  path := by
    intro y hy
    cases List.mem_append.mp hy with
    | inl hy => exact h.path y (List.mem_cons_of_mem x hy)
    | inr hy => exact (h.path x List.mem_cons_self).extend hdepth hy
  sorted := by
    refine List.pairwise_append.mpr ⟨(List.pairwise_cons.mp h.sorted).2, ?_, ?_⟩
    · apply List.pairwise_iff_getElem.mpr
      intro i j hi hj _
      rw [length_extend (List.getElem_mem hi), length_extend (List.getElem_mem hj)]
    · intro y hy z hz
      rw [length_extend hz]
      exact h.span x List.mem_cons_self y (List.mem_cons_of_mem x hy)
  span := by
    have hfirst : ∀ y ∈ queue ++ extend ends edges x, x.route.length ≤ y.route.length ∧
        y.route.length ≤ x.route.length + 1 := by
      intro y hy
      cases List.mem_append.mp hy with
      | inl hy =>
        exact ⟨(List.pairwise_cons.mp h.sorted).1 y hy,
          h.span x List.mem_cons_self y (List.mem_cons_of_mem x hy)⟩
      | inr hy =>
        have hlength := length_extend hy
        omega
    intro y hy z hz
    have hy := hfirst y hy
    have hz := hfirst z hz
    omega
  cover := by
    intro es vs hwalk hnodup hlength
    obtain ⟨y, hy, hstart⟩ := h.cover es vs hwalk hnodup hlength
    cases List.mem_cons.mp hy with
    | inl hyx =>
      rw [hyx] at hstart
      obtain ⟨_, z, hz, hlonger⟩ :=
        (h.path x List.mem_cons_self).extend_towards hwalk hnodup hstart hne
      exact ⟨z, List.mem_append_right queue hz, hlonger⟩
    | inr hy => exact ⟨y, List.mem_append_left _ hy, hstart⟩

/-- What the search is for: a shortest path within the depth, unless there is no walk at all. -/
def Shortest (ends : ε → κ × κ) (edges : List ε) (source target : κ) (depth : Nat) :
    Option (Route κ ε) → Prop
  | some x => x.node = target ∧ IsPath ends edges source depth x ∧
      ∀ es vs, Walk ends edges source es vs target → x.route.length ≤ es.length
  | none => ¬ Within ends edges depth source target

theorem Inv.found (h : Inv ends edges source target depth (x :: queue)) (hx : x.node = target) :
    Shortest ends edges source target depth (some x) := by
  refine ⟨hx, h.path x List.mem_cons_self, ?_⟩
  intro es vs hwalk
  by_cases hlength : es.length ≤ depth
  · obtain ⟨fs, ws, hpath, hnodup, hle⟩ := hwalk.exists_path
    obtain ⟨y, hy, hstart⟩ := h.cover fs ws hpath hnodup (hle.trans hlength)
    have hfirst : x.route.length ≤ y.route.length := by
      cases List.mem_cons.mp hy with
      | inl hyx => rw [hyx]
      | inr hy => exact (List.pairwise_cons.mp h.sorted).1 y hy
    exact (hfirst.trans hstart.length_le).trans hle
  · have hdepth := (h.path x List.mem_cons_self).length
    omega

theorem Inv.exhausted (h : Inv ends edges source target depth []) :
    Shortest ends edges source target depth none := by
  intro hwithin
  obtain ⟨es, vs, hwalk, hlength⟩ := hwithin
  obtain ⟨fs, ws, hpath, hnodup, hle⟩ := hwalk.exists_path
  obtain ⟨y, hy, _⟩ := h.cover fs ws hpath hnodup (hle.trans hlength)
  cases hy

/-- What an entry can still grow to. -/
def weight (edges : List ε) (depth : Nat) (x : Route κ ε) : Nat :=
  (edges.length + 1) ^ (depth + 1 - x.route.length)

def variant (edges : List ε) (depth : Nat) (queue : List (Route κ ε)) : Nat :=
  (queue.map (weight edges depth)).sum

theorem variant_extend (hdepth : x.route.length < depth) :
    variant edges depth (extend ends edges x) < weight edges depth x := by
  have hsame : ∀ w ∈ (extend ends edges x).map (weight edges depth),
      w = (edges.length + 1) ^ (depth - x.route.length) := by
    intro w hw
    obtain ⟨y, hy, he⟩ := List.mem_map.mp hw
    rw [← he, weight, length_extend hy, Nat.add_sub_add_right]
  have hlength : (extend ends edges x).length ≤ edges.length := List.length_filterMap_le _ _
  have hpos : 0 < (edges.length + 1) ^ (depth - x.route.length) := Nat.pow_pos (Nat.succ_pos _)
  calc variant edges depth (extend ends edges x)
      = (extend ends edges x).length * (edges.length + 1) ^ (depth - x.route.length) := by
        rw [variant, List.eq_replicate_of_mem hsame, List.sum_replicate_nat, List.length_map]
    _ ≤ edges.length * (edges.length + 1) ^ (depth - x.route.length) := Nat.mul_le_mul_right _ hlength
    _ < (edges.length + 1) * (edges.length + 1) ^ (depth - x.route.length) :=
        Nat.mul_lt_mul_of_pos_right (Nat.lt_succ_self _) hpos
    _ = weight edges depth x := by
        rw [weight, Nat.mul_comm, ← Nat.pow_succ]
        congr 1
        omega

theorem rule : Loop.Rule (pass ends edges target depth) (Inv ends edges source target depth)
    (variant edges depth) (Shortest ends edges source target depth) where
  again := by
    intro queue rest hinv hpass
    cases queue with
    | nil => cases hpass
    | cons x queue =>
      rw [pass] at hpass
      split at hpass
      · cases hpass
      · rename_i hne
        split at hpass
        · rename_i hdepth
          cases hpass
          have hpos : 0 < weight edges depth x := Nat.pow_pos (Nat.succ_pos _)
          refine ⟨hinv.skip hne hdepth, ?_⟩
          simp only [variant, List.map_cons, List.sum_cons]
          omega
        · rename_i hdepth
          cases hpass
          have hless : variant edges depth (extend ends edges x) < weight edges depth x :=
            variant_extend (Nat.lt_of_not_le hdepth)
          refine ⟨hinv.next hne (Nat.lt_of_not_le hdepth), ?_⟩
          simp only [variant, List.map_cons, List.map_append, List.sum_cons, List.sum_append] at hless ⊢
          omega
  leave := by
    intro queue r hinv hpass
    cases queue with
    | nil =>
      cases hpass
      exact hinv.exhausted
    | cons x queue =>
      rw [pass] at hpass
      split at hpass
      · rename_i hx
        cases hpass
        exact hinv.found hx
      · split at hpass
        · cases hpass
        · cases hpass

/-- The search ends, with a shortest path or without any. -/
theorem search_total (ends : ε → κ × κ) (edges : List ε) (source target : κ) (depth : Nat) :
    ∃ r, Shortest ends edges source target depth r ∧ ∀ n, (edges.length + 1) ^ (depth + 1) < n →
      Loop.run (pass ends edges target depth) n [⟨source, [], [source]⟩] = some r := by
  obtain ⟨r, hr, hrun⟩ := rule.total (s := [⟨source, [], [source]⟩]) inv_start
  refine ⟨r, hr, fun n hn => hrun n ?_⟩
  rw [variant, List.map_singleton, List.sum_singleton]
  exact hn

end DataCopilot.RouteSearch
