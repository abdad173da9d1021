import DataCopilot.Library.RankFusion
import DataCopilot.Retrieval.Ranking
import Mathlib.Data.String.Basic

/-! The fusion of two rankings: each chunk of either has one hit, and what both rank higher comes first. -/
namespace DataCopilot.Retrieval
open RankFusion

/-- The ids of the chunks of a ranking. -/
def ids (ranking : List RankedChunk) : List UUID := ranking.map fun item => item.chunk.id

namespace MetricRetrievalService
variable (S : MetricRetrievalService)

/-- The fused score of a chunk. -/
def fusedScore (lexical vector : List RankedChunk) (id : UUID) : ℚ :=
  share S.rrfK 3 (ids lexical) id + share S.rrfK 1 (ids vector) id

/-- The chunks in the order of their hits. -/
def fusedIds (lexical vector : List RankedChunk) (mode : RetrievalMode) : List UUID :=
  (S.order lexical vector mode).map Prod.fst

/-- `a` is ranked at least as well as `b`. A chunk that is not in the ranking is ranked past its end. -/
def AtLeastAsWell (ranking : List RankedChunk) (a b : UUID) : Prop := (ids ranking).idxOf a ≤ (ids ranking).idxOf b

def Better (ranking : List RankedChunk) (a b : UUID) : Prop := (ids ranking).idxOf a < (ids ranking).idxOf b

/-- The hit is that of a chunk: what the lexical search found of it, or else the vector search. -/
structure Shows (lexical vector : List RankedChunk) (id : UUID) (hit : RetrievalHit) : Prop where
  lexicalItem : ∀ item ∈ lexical, item.chunk.id = id →
    hit.lexicalScore = some item.score ∧ hit.content = item.chunk.content ∧ hit.citation = item.chunk.citation
  vectorItem : ∀ item ∈ vector, item.chunk.id = id → hit.vectorScore = some item.score ∧
    (id ∉ ids lexical → hit.content = item.chunk.content ∧ hit.citation = item.chunk.citation)
  notLexical : id ∉ ids lexical → hit.lexicalScore = none
  notVector : id ∉ ids vector → hit.vectorScore = none
  fused : hit.fusedScore = S.fusedScore lexical vector id
  notReranked : hit.rerankScore = none

/-- The hits are those of the chunks of the two rankings, one of each, by score and then by id. -/
structure Fused (lexical vector : List RankedChunk) (chunks : List UUID) (hits : List RetrievalHit) : Prop where
  once : chunks.Nodup
  complete : ∀ id, id ∈ chunks ↔ id ∈ ids lexical ∨ id ∈ ids vector
  shown : List.Forall₂ (S.Shows lexical vector) chunks hits
  ordered : chunks.Pairwise (Before (S.fusedScore lexical vector) UUID.text)
  pareto : ∀ a b, AtLeastAsWell lexical a b → AtLeastAsWell vector a b → (Better lexical a b ∨ Better vector a b) →
    chunks.idxOf a < chunks.idxOf b

variable {S : MetricRetrievalService} {lexical vector : List RankedChunk} {mode : RetrievalMode} {id : UUID}

theorem mem_ids {ranking : List RankedChunk} : id ∈ ids ranking ↔ ∃ item ∈ ranking, item.chunk.id = id := List.mem_map

theorem mem_fuse {weight : ℚ} {ranking : List RankedChunk} : ∀ {rank : Nat} {fused : List (UUID × ℚ)},
    id ∈ (S.fuse weight ranking rank fused).map Prod.fst ↔ id ∈ fused.map Prod.fst ∨ id ∈ ids ranking := by
  induction ranking with
  | nil => simp [fuse, ids]
  | cons item rest ih =>
    intro rank fused
    rw [fuse, ih, addScore, Dict.mem_keys_setItem, or_assoc, ids, ids, List.map_cons, List.mem_cons]

theorem fuse_nodup {weight : ℚ} {ranking : List RankedChunk} : ∀ {rank : Nat} {fused : List (UUID × ℚ)},
    (fused.map Prod.fst).Nodup → ((S.fuse weight ranking rank fused).map Prod.fst).Nodup := by
  induction ranking with
  | nil => exact fun h => h
  | cons item rest ih =>
    intro rank fused h
    rw [fuse]
    exact ih (Dict.nodup_keys_setItem h)

/-- A ranking adds to the score of a chunk the share of its rank. -/
theorem fuse_lookup {weight : ℚ} {ranking : List RankedChunk} (hn : (ids ranking).Nodup) :
    ∀ {rank : Nat} {fused : List (UUID × ℚ)}, ((S.fuse weight ranking (rank + 1) fused).lookup id).getD 0 =
      (fused.lookup id).getD 0 + share (S.rrfK + rank) weight (ids ranking) id := by
  induction ranking with
  | nil =>
    intro rank fused
    rw [fuse, ids, List.map_nil, share, if_neg List.not_mem_nil, add_zero]
  | cons item rest ih =>
    intro rank fused
    rw [ids, List.map_cons, List.nodup_cons] at hn
    rw [fuse, ih hn.2, addScore, Dict.lookup_setItem]
    by_cases h : id = item.chunk.id
    · have hrest : id ∉ ids rest := h ▸ hn.1
      have hself : share (S.rrfK + rank) weight (ids (item :: rest)) id = weight / ((S.rrfK : ℚ) + ((rank + 1 : Nat) : ℚ)) := by
        rw [share, ids, List.map_cons, if_pos (h ▸ List.mem_cons_self), h, List.idxOf_cons_self]
        rw [Nat.cast_add, Nat.zero_add, Nat.cast_add, add_assoc]
      rw [if_pos h, share, if_neg hrest, hself, Option.getD_some, add_zero, h]
    · have hmem : id ∈ ids (item :: rest) ↔ id ∈ ids rest := by
        rw [ids, List.map_cons, List.mem_cons]
        simp [h, ids]
      have hidx : (ids (item :: rest)).idxOf id = (ids rest).idxOf id + 1 := by
        rw [ids, List.map_cons, List.idxOf_cons_ne _ (Ne.symm h)]
        rfl
      rw [if_neg h, share, share]
      simp only [hmem, hidx]
      have hsum : ∀ n : Nat, ((S.rrfK + (rank + 1) : Nat) : ℚ) + ((n + 1 : Nat) : ℚ) =
          ((S.rrfK + rank : Nat) : ℚ) + ((n + 1 + 1 : Nat) : ℚ) := by
        intro n
        rw [← Nat.cast_add, ← Nat.cast_add]
        congr 1
        omega
      rw [hsum]

/-- The scores of both rankings. -/
def scores (S : MetricRetrievalService) (lexical vector : List RankedChunk) : List (UUID × ℚ) :=
  S.fuse 1 vector 1 (S.fuse 3 lexical 1 [])

theorem scores_nodup : ((S.scores lexical vector).map Prod.fst).Nodup :=
  fuse_nodup (fuse_nodup List.nodup_nil)

theorem mem_scores : id ∈ (S.scores lexical vector).map Prod.fst ↔ id ∈ ids lexical ∨ id ∈ ids vector := by
  rw [scores, mem_fuse, mem_fuse]
  simp

theorem scores_eq (hl : (ids lexical).Nodup) (hv : (ids vector).Nodup) {e : UUID × ℚ}
    (h : e ∈ S.scores lexical vector) : e.2 = S.fusedScore lexical vector e.1 := by
  have hlookup := Dict.lookup_of_mem scores_nodup h
  have hvector := @fuse_lookup S e.1 1 vector hv 0 (S.fuse 3 lexical 1 [])
  have hlexical := @fuse_lookup S e.1 3 lexical hl 0 []
  rw [Nat.zero_add] at hvector hlexical
  rw [hlexical, ← scores, hlookup] at hvector
  simpa [fusedScore] using hvector

theorem fusedLe_iff {a b : UUID × ℚ} : fusedLe a b = true ↔ b.2 < a.2 ∨ a.2 = b.2 ∧ a.1.text ≤ b.1.text := by
  simp [fusedLe]

theorem fusedLe_trans (a b c : UUID × ℚ) (hab : fusedLe a b = true) (hbc : fusedLe b c = true) :
    fusedLe a c = true := by
  rw [fusedLe_iff] at hab hbc ⊢
  cases hab with
  | inl h =>
    left
    cases hbc with
    | inl h' => exact h'.trans h
    | inr h' => exact h'.1 ▸ h
  | inr h =>
    cases hbc with
    | inl h' => exact .inl (h.1 ▸ h')
    | inr h' => exact .inr ⟨h.1.trans h'.1, h.2.trans h'.2⟩

theorem fusedLe_total (a b : UUID × ℚ) : (fusedLe a b || fusedLe b a) = true := by
  rw [Bool.or_eq_true, fusedLe_iff, fusedLe_iff]
  by_cases h : a.2 = b.2
  · cases le_total a.1.text b.1.text with
    | inl hid => exact .inl (.inr ⟨h, hid⟩)
    | inr hid => exact .inr (.inr ⟨h.symm, hid⟩)
  · cases lt_or_gt_of_ne h with
    | inl hlt => exact .inr (.inl hlt)
    | inr hgt => exact .inl (.inl hgt)

theorem order_perm (hmode : mode = .hybrid ∨ mode = .hybridRerank) :
    (S.order lexical vector mode).Perm (S.scores lexical vector) := by
  cases hmode with
  | inl h =>
    rw [h]
    exact List.mergeSort_perm _ _
  | inr h =>
    rw [h]
    exact List.mergeSort_perm _ _

theorem order_sorted (hmode : mode = .hybrid ∨ mode = .hybridRerank) :
    (S.order lexical vector mode).Pairwise fun a b => fusedLe a b = true := by
  cases hmode with
  | inl h =>
    rw [h]
    exact List.pairwise_mergeSort fusedLe_trans fusedLe_total _
  | inr h =>
    rw [h]
    exact List.pairwise_mergeSort fusedLe_trans fusedLe_total _

theorem fusedIds_nodup (hmode : mode = .hybrid ∨ mode = .hybridRerank) :
    (S.fusedIds lexical vector mode).Nodup := by
  rw [fusedIds, ((order_perm hmode).map Prod.fst).nodup_iff]
  exact scores_nodup

theorem mem_fusedIds (hmode : mode = .hybrid ∨ mode = .hybridRerank) :
    id ∈ S.fusedIds lexical vector mode ↔ id ∈ ids lexical ∨ id ∈ ids vector := by
  rw [fusedIds, ((order_perm hmode).map Prod.fst).mem_iff, mem_scores]

theorem order_score (hl : (ids lexical).Nodup) (hv : (ids vector).Nodup) (hmode : mode = .hybrid ∨ mode = .hybridRerank)
    {e : UUID × ℚ} (h : e ∈ S.order lexical vector mode) : e.2 = S.fusedScore lexical vector e.1 :=
  scores_eq hl hv ((order_perm hmode).mem_iff.mp h)

theorem fusedIds_ordered (hl : (ids lexical).Nodup) (hv : (ids vector).Nodup)
    (hmode : mode = .hybrid ∨ mode = .hybridRerank) :
    (S.fusedIds lexical vector mode).Pairwise (Before (S.fusedScore lexical vector) UUID.text) := by
  have hne : (S.order lexical vector mode).Pairwise fun a b => a.1 ≠ b.1 := by
    rw [← List.pairwise_map]
    exact fusedIds_nodup hmode
  rw [fusedIds, List.pairwise_map]
  refine ((order_sorted hmode).and hne).imp_of_mem ?_
  intro a b ha hb hab
  have hle := fusedLe_iff.mp hab.1
  rw [order_score hl hv hmode ha, order_score hl hv hmode hb] at hle
  cases hle with
  | inl h => exact .inl h
  | inr h => exact .inr ⟨h.1, lt_of_le_of_ne h.2 fun he => hab.2 (UUID.ext he)⟩

/-- A chunk that is ranked at least as well twice, and better once, has the higher score. -/
theorem fusedScore_lt {a b : UUID} (hl : AtLeastAsWell lexical a b) (hv : AtLeastAsWell vector a b)
    (h : Better lexical a b ∨ Better vector a b) : S.fusedScore lexical vector b < S.fusedScore lexical vector a := by
  have h3 : (0 : ℚ) < 3 := by norm_num
  cases h with
  | inl h => exact add_lt_add_of_lt_of_le (share_lt h3 h) (share_le one_pos hv)
  | inr h => exact add_lt_add_of_le_of_lt (share_le h3 hl) (share_lt one_pos h)

theorem mem_of_better {ranking : List RankedChunk} {a b : UUID} (h : Better ranking a b) : a ∈ ids ranking := by
  rw [← List.idxOf_lt_length_iff]
  exact Nat.lt_of_lt_of_le h List.idxOf_le_length

theorem fusedIds_pareto (hl : (ids lexical).Nodup) (hv : (ids vector).Nodup)
    (hmode : mode = .hybrid ∨ mode = .hybridRerank) {a b : UUID} (hal : AtLeastAsWell lexical a b)
    (hav : AtLeastAsWell vector a b) (h : Better lexical a b ∨ Better vector a b) :
    (S.fusedIds lexical vector mode).idxOf a < (S.fusedIds lexical vector mode).idxOf b := by
  have hlt := fusedScore_lt (S := S) hal hav h
  have ha : a ∈ S.fusedIds lexical vector mode := by
    rw [mem_fusedIds hmode]
    exact h.imp mem_of_better mem_of_better
  by_cases hb : b ∈ S.fusedIds lexical vector mode
  · have hba : ¬ Before (S.fusedScore lexical vector) UUID.text b a := Before.asymm (.inl hlt)
    exact idxOf_lt (fusedIds_ordered hl hv hmode) ha hb (fun he => hlt.ne (he ▸ rfl)) hba
  · rw [List.idxOf_eq_length hb]
    exact List.idxOf_lt_length_of_mem ha

/-- `{item.chunk.id: item for item in ranking}`. -/
def byId (ranking : List RankedChunk) : UUID → Option RankedChunk :=
  Dict.ofPairs (ranking.map fun item => (item.chunk.id, item))

theorem byId_eq_none {ranking : List RankedChunk} : byId ranking id = none ↔ id ∉ ids ranking := by
  rw [byId, Dict.ofPairs_eq_none, mem_ids]
  simp

theorem mem_of_byId {ranking : List RankedChunk} {item : RankedChunk} (h : byId ranking id = some item) :
    item ∈ ranking ∧ item.chunk.id = id := by
  obtain ⟨before, after, he, -⟩ := Dict.ofPairs_eq_some.mp h
  have hmem : (id, item) ∈ ranking.map fun item => (item.chunk.id, item) := by
    rw [he]
    exact List.mem_append_right _ List.mem_cons_self
  obtain ⟨x, hx, hpair⟩ := List.mem_map.mp hmem
  cases hpair
  exact ⟨hx, rfl⟩

theorem byId_of_mem {ranking : List RankedChunk} (hn : (ids ranking).Nodup) {item : RankedChunk} (h : item ∈ ranking) :
    byId ranking item.chunk.id = some item := by
  cases hd : byId ranking item.chunk.id with
  | none => exact absurd (mem_ids.mpr ⟨item, h, rfl⟩) (byId_eq_none.mp hd)
  | some item' =>
    obtain ⟨hmem, hid⟩ := mem_of_byId hd
    rw [List.inj_on_of_nodup_map hn hmem h hid]

theorem forall₂_filterMap {α β γ : Type} {f : α → Option γ} {key : α → β} {R : β → γ → Prop} {l : List α}
    (h : ∀ a ∈ l, ∃ c, f a = some c ∧ R (key a) c) : List.Forall₂ R (l.map key) (l.filterMap f) := by
  induction l with
  | nil => exact .nil
  | cons a rest ih =>
    obtain ⟨c, hc, hr⟩ := h a List.mem_cons_self
    rw [List.map_cons, List.filterMap_cons_some hc]
    exact .cons hr (ih fun b hb => h b (List.mem_cons_of_mem _ hb))

theorem rank_shown (hl : (ids lexical).Nodup) (hv : (ids vector).Nodup) (hmode : mode = .hybrid ∨ mode = .hybridRerank) :
    List.Forall₂ (S.Shows lexical vector) (S.fusedIds lexical vector mode) (S.rank lexical vector mode) := by
  rw [fusedIds, rank]
  apply forall₂_filterMap
  intro e he
  have hscore := order_score hl hv hmode he
  have hmem : e.1 ∈ ids lexical ∨ e.1 ∈ ids vector := (mem_fusedIds hmode).mp (List.mem_map_of_mem he)
  have hsome : ∃ item, (byId lexical e.1 <|> byId vector e.1) = some item := by
    cases hlex : byId lexical e.1 with
    | some item => exact ⟨item, rfl⟩
    | none =>
      cases hvec : byId vector e.1 with
      | some item => exact ⟨item, rfl⟩
      | none => exact absurd hmem (not_or.mpr ⟨byId_eq_none.mp hlex, byId_eq_none.mp hvec⟩)
  obtain ⟨item, hitem⟩ := hsome
  refine ⟨_, congrArg (Option.map _) hitem, ?_, ?_, ?_, ?_, hscore, rfl⟩
  · intro x hx hid
    have hfound := hid ▸ byId_of_mem hl hx
    rw [hfound] at hitem
    cases hitem
    exact ⟨congrArg (Option.map _) hfound, rfl, rfl⟩
  · intro x hx hid
    have hfound := hid ▸ byId_of_mem hv hx
    refine ⟨congrArg (Option.map _) hfound, fun hnot => ?_⟩
    rw [byId_eq_none.mpr hnot, hfound] at hitem
    cases hitem
    exact ⟨rfl, rfl⟩
  · intro hnot
    exact congrArg (Option.map _) (byId_eq_none.mpr hnot)
  · intro hnot
    exact congrArg (Option.map _) (byId_eq_none.mpr hnot)

theorem ids_append {ranking : List RankedChunk} {item : RankedChunk} :
    ids (ranking ++ [item]) = ids ranking ++ [item.chunk.id] := by
  rw [ids, List.map_append, List.map_singleton]
  rfl

/-- Two pairs of rankings that score the chunks other than one alike order them alike. -/
theorem fusedIds_stable {lexical' vector' : List RankedChunk} (hmode : mode = .hybrid ∨ mode = .hybridRerank)
    (hl : (ids lexical).Nodup) (hv : (ids vector).Nodup) (hl' : (ids lexical').Nodup) (hv' : (ids vector').Nodup)
    (hmem : ∀ a, a ≠ id → ((a ∈ ids lexical' ∨ a ∈ ids vector') ↔ (a ∈ ids lexical ∨ a ∈ ids vector)))
    (hscore : ∀ a, a ≠ id → S.fusedScore lexical' vector' a = S.fusedScore lexical vector a) :
    (S.fusedIds lexical' vector' mode).filter (· ≠ id) = (S.fusedIds lexical vector mode).filter (· ≠ id) := by
  have hold := (fusedIds_ordered (S := S) hl hv hmode).filter (· ≠ id)
  have hnew : ((S.fusedIds lexical' vector' mode).filter (· ≠ id)).Pairwise
      (Before (S.fusedScore lexical vector) UUID.text) := by
    refine ((fusedIds_ordered hl' hv' hmode).filter _).imp_of_mem ?_
    intro a b ha hb hab
    have hda : a ≠ id := of_decide_eq_true (List.mem_filter.mp ha).2
    have hdb : b ≠ id := of_decide_eq_true (List.mem_filter.mp hb).2
    rw [Before, hscore a hda, hscore b hdb] at hab
    exact hab
  refine eq_of_before hnew hold ((fusedIds_nodup hmode).filter _) ((fusedIds_nodup hmode).filter _) ?_
  intro a
  rw [List.mem_filter, List.mem_filter, mem_fusedIds hmode, mem_fusedIds hmode]
  by_cases ha : a = id
  · simp [ha]
  · simp [ha, hmem a ha]

variable {item : RankedChunk}

theorem ids_append_nodup {ranking : List RankedChunk} (hn : (ids ranking).Nodup) (h : item.chunk.id ∉ ids ranking) :
    (ids (ranking ++ [item])).Nodup := by
  rw [ids_append, List.nodup_append]
  refine ⟨hn, List.nodup_singleton _, ?_⟩
  intro a ha b hb he
  rw [List.mem_singleton.mp hb] at he
  exact h (he ▸ ha)

theorem mem_ids_append {ranking : List RankedChunk} (h : id ≠ item.chunk.id) :
    id ∈ ids (ranking ++ [item]) ↔ id ∈ ids ranking := by
  rw [ids_append, List.mem_append, List.mem_singleton]
  simp [h]

/-- The hits of `_rank` in the hybrid modes, and what a further chunk at the end of a ranking changes. -/
theorem rank_fused (hl : (ids lexical).Nodup) (hv : (ids vector).Nodup)
    (hmode : mode = .hybrid ∨ mode = .hybridRerank) :
    S.Fused lexical vector (S.fusedIds lexical vector mode) (S.rank lexical vector mode) ∧
      (∀ item : RankedChunk, item.chunk.id ∉ ids lexical →
        (S.fusedIds (lexical ++ [item]) vector mode).filter (· ≠ item.chunk.id) =
          (S.fusedIds lexical vector mode).filter (· ≠ item.chunk.id)) ∧
      ∀ item : RankedChunk, item.chunk.id ∉ ids vector →
        (S.fusedIds lexical (vector ++ [item]) mode).filter (· ≠ item.chunk.id) =
          (S.fusedIds lexical vector mode).filter (· ≠ item.chunk.id) := by
  refine ⟨⟨fusedIds_nodup hmode, fun id => mem_fusedIds hmode, rank_shown hl hv hmode,
    fusedIds_ordered hl hv hmode, fun a b => fusedIds_pareto hl hv hmode⟩, ?_, ?_⟩
  · intro item hitem
    apply fusedIds_stable hmode hl hv (ids_append_nodup hl hitem) hv
    · intro a ha
      rw [mem_ids_append ha]
    · intro a ha
      rw [fusedScore, fusedScore, ids_append, share_append ha]
  · intro item hitem
    apply fusedIds_stable hmode hl hv hl (ids_append_nodup hv hitem)
    · intro a ha
      rw [mem_ids_append ha]
    · intro a ha
      rw [fusedScore, fusedScore, ids_append, share_append ha]

def revenueChunk : MetricChunk where
  id := ⟨"00000000-0000-0000-0000-000000000001", by decide⟩
  tenantId := ⟨"00000000-0000-0000-0000-00000000000a", by decide⟩
  documentId := ⟨"00000000-0000-0000-0000-00000000000d", by decide⟩
  documentTitle := "Metrics"
  documentVersion := 1
  sectionKey := "revenue"
  sectionTitle := "Revenue"
  sourceLocator := "metrics.md:lines:1-3"
  ordinal := 0
  content := "Revenue is net of refunds."
  embedding := [1]

def refundChunk : MetricChunk :=
  { revenueChunk with id := ⟨"00000000-0000-0000-0000-000000000002", by decide⟩, ordinal := 1, content := "Refunds." }

def hashingService : MetricRetrievalService where
  embed _ := [1]

/-- Of two chunks one is in both rankings, and first in the lexical one. -/
theorem rank_fused_refunds : hashingService.Fused [⟨refundChunk, 1 / 2⟩] [⟨revenueChunk, 9 / 10⟩, ⟨refundChunk, 3 / 10⟩]
      (hashingService.fusedIds [⟨refundChunk, 1 / 2⟩] [⟨revenueChunk, 9 / 10⟩, ⟨refundChunk, 3 / 10⟩] .hybrid)
      (hashingService.rank [⟨refundChunk, 1 / 2⟩] [⟨revenueChunk, 9 / 10⟩, ⟨refundChunk, 3 / 10⟩] .hybrid) :=
  (rank_fused (by decide) (by decide) (.inl rfl)).1

end MetricRetrievalService
end DataCopilot.Retrieval
