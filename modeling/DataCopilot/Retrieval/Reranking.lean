import DataCopilot.Retrieval.Providers

/-! The reranker returns the hits in the order of their scores, or its own error; but for a body that nests too
deeply, and an integer that is too large for a float: their exceptions are not among those it catches. -/
namespace DataCopilot.Retrieval.HTTPReranker
open Py
variable {R : HTTPReranker} {hits : List RetrievalHit} {response : List (String × Value)} {items : List Value}
variable {replies : Nat → HttpReply} {n : Nat} {item : Value}

/-- The items of the response, one for each of `n` hits. -/
structure Indexed (n : Nat) (response : List (String × Value)) (items : List Value) : Prop where
  results : response.lookup "results" = some (.list items)
  indices : ∃ order : List Nat, order.Perm (List.range n) ∧
    List.Forall₂ (fun item (i : Nat) => item.getItem "index" = .ok (.int i)) items order

/-- The score of the item is a finite number. -/
def Scored (R : HTTPReranker) (item : Value) : Prop := ∃ q, R.score item = .ok (.finite q)

/-- The score of the item is an integer that is too large. -/
def Oversized (item : Value) : Prop := ∃ i : Int, item.getItem "relevance_score" = .ok (.int i) ∧ TooLarge i

/-- The response gives the hit at `i` the score `q`. -/
def Gives (R : HTTPReranker) (response : List (String × Value)) (i : Nat) (q : ℚ) : Prop :=
  ∃ items item, response.lookup "results" = some (.list items) ∧ item ∈ items ∧
    item.getItem "index" = .ok (.int i) ∧ R.score item = .ok (.finite q)

/-- The hits in another order, each with the one score that the response gives it, the highest first. -/
structure Reranked (R : HTTPReranker) (hits : List RetrievalHit) (response : List (String × Value))
    (ranked : List RetrievalHit) : Prop where
  permuted : ∃ order : List Nat, order.Perm (List.range hits.length) ∧
    List.Forall₂ (fun i hit => ∃ q original, R.Gives response i q ∧ (∀ q', R.Gives response i q' → q' = q) ∧
      hits[i]? = some original ∧ hit = { original with rerankScore := some q }) order ranked
  descending : ranked.Pairwise fun a b => b.rerankScore.getD 0 ≤ a.rerankScore.getD 0

/-- What the adapter promises. -/
structure Keeps (R : HTTPReranker) (replies : Nat → HttpReply) (hits : List RetrievalHit) : Prop where
  declared : ∀ e, R.rerank replies hits = .error e → e = .retrievalProviderError
  empty : hits = [] → R.rerank replies hits = .ok []
  ranked : ∀ ranked, R.rerank replies hits = .ok ranked → hits ≠ [] →
    ∃ response, postJson replies R.attempts 0 = .ok response ∧ R.Reranked hits response ranked

/-- The body that is read does not nest too deeply, and an integer that is too large stands behind a score that is
not a finite number. -/
structure Tolerable (R : HTTPReranker) (replies : Nat → HttpReply) (hits : List RetrievalHit) : Prop where
  shallow : hits ≠ [] → ¬ TooDeep replies R.attempts
  scores : hits ≠ [] → ∀ response items, postJson replies R.attempts 0 = .ok response →
    Indexed hits.length response items → ∀ before item after, items = before ++ item :: after → Oversized item →
    ∃ x ∈ before, ¬ R.Scored x

theorem score_overflow : R.score item = .error .overflowError ↔ Oversized item := by
  rw [score, Oversized]
  cases h : item.getItem "relevance_score" with
  | error e =>
    have hraises : Raises [.keyError, .typeError] (item.getItem "relevance_score") :=
      raises_getItem (by decide) (by decide)
    have hr := hraises e h
    have hne : e ≠ .overflowError := by
      rintro rfl
      exact absurd hr (by decide)
    simp [bind, Except.bind, hne]
  | ok v =>
    have hv := @toFloat_overflow R.numerals v
    simpa [bind, Except.bind] using hv

theorem checkScore_ok : R.checkScore item = .ok () ↔ R.Scored item := by
  rw [checkScore, Scored]
  cases R.score item with
  | error e => simp [bind, Except.bind]
  | ok x =>
    cases x with
    | finite q => simp [bind, Except.bind, pure, Except.pure]
    | _ => simp [bind, Except.bind, throw, throwThe, MonadExceptOf.throw]

theorem checkScore_overflow : R.checkScore item = .error .overflowError ↔ Oversized item := by
  rw [← score_overflow (R := R), checkScore]
  cases R.score item with
  | error e => simp [bind, Except.bind]
  | ok x =>
    cases x with
    | finite q => simp [bind, Except.bind, pure, Except.pure]
    | _ => simp [bind, Except.bind, throw, throwThe, MonadExceptOf.throw]

theorem checkScore_raises :
    Raises [.keyError, .typeError, .valueError, .overflowError] (R.checkScore item) := by
  have hscore : Raises [.keyError, .typeError, .valueError, .overflowError] (R.score item) := by
    apply (raises_getItem (by decide) (by decide)).bind
    intro v _
    exact raises_toFloat (by decide) (by decide) (by decide)
  apply hscore.bind
  intro x _
  cases x with
  | finite q => exact raises_ok
  | _ => exact raises_error (by decide)

theorem indexedItems_raises : Raises [.keyError, .typeError, .valueError] (indexedItems n response) := by
  apply (raises_getItem (by decide) (by decide)).bind
  intro results _
  apply (raises_len (by decide)).bind
  intro length _
  by_cases hl : length ≠ n
  · rw [if_pos hl]
    exact raises_error (by decide)
  · rw [if_neg hl]
    apply (raises_iter (by decide)).bind
    intro items _
    apply (Raises.mapM fun item _ => raises_getItem (by decide) (by decide)).bind
    intro indices _
    exact raises_unless (by decide) raises_ok

theorem indexedItems_iff (hn : 0 < n) : indexedItems n response = .ok items ↔ Indexed n response items := by
  constructor
  · intro h
    obtain ⟨results, hresults, h⟩ := Result.bind_eq_ok.mp h
    obtain ⟨length, hlength, h⟩ := Result.bind_eq_ok.mp h
    by_cases hl : length ≠ n
    · rw [if_pos hl] at h
      cases h
    · rw [if_neg hl] at h
      obtain ⟨found, hiter, h⟩ := Result.bind_eq_ok.mp h
      obtain ⟨values, hvalues, h⟩ := Result.bind_eq_ok.mp h
      by_cases hcheck : (values.any (fun i => !i.isInt) || !sameAsRange values n) = true
      · rw [if_pos hcheck] at h
        cases h
      · rw [if_neg hcheck] at h
        cases h
        rw [Bool.not_eq_true, Bool.or_eq_false_iff, Bool.not_eq_false', List.any_eq_false] at hcheck
        have hlen : items.length = n := (Value.length_of_iter hlength hiter).trans (not_not.mp hl)
        have hall := Result.mapM_eq_ok_iff.mp hvalues
        have hint : ∀ v ∈ values, v.isInt = true := by
          intro v hv
          simpa using hcheck.1 v hv
        obtain ⟨order, hperm, horder⟩ := order_of_sameAsRange (hall.length_eq.symm.trans hlen) hcheck.2
        have hlist : results = .list items := by
          apply list_of_iter (k := "index") (hlen ▸ hn) hiter
          intro item hitem
          obtain ⟨v, -, hv⟩ := Result.ok_of_mapM hvalues item hitem
          exact ⟨v, hv⟩
        refine ⟨?_, order, hperm, ?_⟩
        · rw [Value.getItem] at hresults
          split at hresults
          · cases hresults
            rename_i hlookup
            rw [hlookup, hlist]
          · cases hresults
        · exact Result.forall₂_trans hall horder fun item v i hv hi hitem =>
            hitem.trans (congrArg Except.ok ((number_int_iff (hint v hv)).mp hi))
  · intro h
    obtain ⟨order, hperm, hall⟩ := h.indices
    have hlen : items.length = n := by
      rw [hall.length_eq, hperm.length_eq, List.length_range]
    have hvalues : items.mapM (Value.getItem "index") = .ok (order.map fun (i : Nat) => .int i) := by
      rw [Result.mapM_eq_ok_iff, List.forall₂_map_right_iff]
      exact hall
    have hint : ((order.map fun (i : Nat) => Value.int i).any fun i => !i.isInt) = false := by
      rw [List.any_eq_false]
      intro v hv
      obtain ⟨i, -, rfl⟩ := List.mem_map.mp hv
      simp [Value.isInt]
    have hnumbers : List.Forall₂ (fun v (i : Nat) => Value.number v = some (i : ℚ))
        (order.map fun (i : Nat) => Value.int i) order := by
      rw [List.forall₂_map_left_iff, List.forall₂_same]
      intro i _
      rw [Value.number, Int.cast_natCast]
    simp only [indexedItems, Value.getItem, h.results, Value.len, Value.iter, hlen, hvalues, hint,
      sameAsRange_of_order hperm hnumbers, bind, Except.bind]
    simp [pure, Except.pure]

theorem readRanking_eq (h : Indexed hits.length response items) (hhits : hits ≠ []) :
    R.readRanking hits response = (do
      items.forM R.checkScore
      (items.mergeSort fun a b => R.scoreKey b ≤ R.scoreKey a).mapM (R.rescored hits)) := by
  rw [readRanking, (indexedItems_iff (List.length_pos_iff.mpr hhits)).mpr h]
  rfl

theorem rescored_all {sorted : List Value} {order : List Nat}
    (hall : List.Forall₂ (fun item (i : Nat) => item.getItem "index" = .ok (.int i)) sorted order)
    (hlt : ∀ i ∈ order, i < hits.length) :
    ∃ ranked, sorted.mapM (R.rescored hits) = .ok ranked ∧
      ranked.map RetrievalHit.rerankScore = sorted.map (fun item => some (R.scoreKey item)) ∧
      List.Forall₂ (fun i hit => ∃ item ∈ sorted, ∃ original, item.getItem "index" = .ok (.int (i : Nat)) ∧
        hits[i]? = some original ∧ hit = { original with rerankScore := some (R.scoreKey item) }) order ranked := by
  induction hall with
  | nil => exact ⟨[], rfl, rfl, .nil⟩
  | @cons item i sorted order hindex _ ih =>
    obtain ⟨ranked, hranked, hscores, hrest⟩ := ih fun j hj => hlt j (List.mem_cons_of_mem i hj)
    have hi : i < hits.length := hlt i List.mem_cons_self
    have hget : hits[i]? = some hits[i] := List.getElem?_eq_getElem hi
    have hhit : R.rescored hits item = .ok { hits[i] with rerankScore := some (R.scoreKey item) } := by
      have hneg : -(hits.length : Int) ≤ i := by omega
      simp [rescored, hitAt, hindex, hget, hneg, bind, Except.bind, pure, Except.pure]
    refine ⟨{ hits[i] with rerankScore := some (R.scoreKey item) } :: ranked, ?_, ?_, ?_⟩
    · rw [List.mapM_cons, hhit, hranked]
      rfl
    · rw [List.map_cons, List.map_cons, hscores]
    · refine .cons ⟨item, List.mem_cons_self, hits[i], hindex, hget, rfl⟩ (hrest.imp ?_)
      intro j hit h
      obtain ⟨x, hx, h⟩ := h
      exact ⟨x, List.mem_cons_of_mem item hx, h⟩

theorem score_of_scored (h : R.Scored item) : R.score item = .ok (.finite (R.scoreKey item)) := by
  obtain ⟨q, hq⟩ := h
  rw [scoreKey, hq]

theorem gives_iff (h : Indexed n response items) (hitem : item ∈ items) {i : Nat}
    (hindex : item.getItem "index" = .ok (.int i)) {q : ℚ} :
    R.Gives response i q ↔ R.score item = .ok (.finite q) := by
  constructor
  · intro hg
    obtain ⟨items', item', hresults, hmem, hindex', hscore⟩ := hg
    rw [h.results] at hresults
    cases hresults
    obtain ⟨order, hperm, hall⟩ := h.indices
    have hnodup : order.Nodup := hperm.nodup_iff.mpr List.nodup_range
    have hfunctional : ∀ (a : Value) (b b' : Nat), a.getItem "index" = .ok (.int b) →
        a.getItem "index" = .ok (.int b') → b = b' := by
      intro a b b' hb hb'
      rw [hb] at hb'
      injection hb' with hb'
      injection hb' with hb'
      exact Int.ofNat.inj hb'
    rw [Result.eq_of_forall₂ hfunctional hall hnodup hitem hmem hindex hindex']
    exact hscore
  · intro hscore
    exact ⟨items, item, h.results, hitem, hindex, hscore⟩

theorem scoreLe_trans (a b c : Value) (hab : decide (R.scoreKey b ≤ R.scoreKey a) = true)
    (hbc : decide (R.scoreKey c ≤ R.scoreKey b) = true) : decide (R.scoreKey c ≤ R.scoreKey a) = true :=
  decide_eq_true ((of_decide_eq_true hbc).trans (of_decide_eq_true hab))

theorem scoreLe_total (a b : Value) :
    (decide (R.scoreKey b ≤ R.scoreKey a) || decide (R.scoreKey a ≤ R.scoreKey b)) = true := by
  rw [Bool.or_eq_true, decide_eq_true_eq, decide_eq_true_eq]
  exact le_total _ _

/-- Where all scores are finite the sorted items give the hits in another order. -/
theorem readRanking_ok (h : Indexed hits.length response items) (hhits : hits ≠ [])
    (hscored : ∀ item ∈ items, R.Scored item) :
    ∃ ranked, R.readRanking hits response = .ok ranked ∧ R.Reranked hits response ranked := by
  obtain ⟨order, hperm, hall⟩ := h.indices
  have hsort := List.mergeSort_perm items fun a b => R.scoreKey b ≤ R.scoreKey a
  have hsorted := List.pairwise_mergeSort (R.scoreLe_trans) (R.scoreLe_total) items
  rw [readRanking_eq h hhits, Result.forM_eq_ok.mpr fun item hitem => checkScore_ok.mpr (hscored item hitem)]
  generalize items.mergeSort (fun a b => R.scoreKey b ≤ R.scoreKey a) = sorted at *
  obtain ⟨order', hall', hperm'⟩ := List.perm_comp_forall₂ hsort hall
  have hlt : ∀ i ∈ order', i < hits.length := by
    intro i hi
    exact List.mem_range.mp (hperm.mem_iff.mp (hperm'.mem_iff.mp hi))
  obtain ⟨ranked, hranked, hscores, hshown⟩ := rescored_all (R := R) hall' hlt
  refine ⟨ranked, hranked, ⟨order', hperm'.trans hperm, hshown.imp ?_⟩, ?_⟩
  · intro i hit hi
    obtain ⟨item, hitem, original, hindex, hget, hhit⟩ := hi
    have hmem : item ∈ items := hsort.mem_iff.mp hitem
    have hscore := score_of_scored (hscored item hmem)
    refine ⟨R.scoreKey item, original, (gives_iff h hmem hindex).mpr hscore, ?_, hget, hhit⟩
    intro q' hq'
    rw [gives_iff h hmem hindex, hscore] at hq'
    injection hq' with hq'
    injection hq' with hq'
    exact hq'.symm
  · have hpair : (ranked.map RetrievalHit.rerankScore).Pairwise fun a b => b.getD 0 ≤ a.getD 0 := by
      rw [hscores, List.pairwise_map]
      exact hsorted.imp fun hab => of_decide_eq_true hab
    exact List.pairwise_map.mp hpair

/-- The first of the scores that are not finite numbers is an integer that is too large. -/
def Overflowing (R : HTTPReranker) (items : List Value) : Prop :=
  ∃ before item after, items = before ++ item :: after ∧ (∀ x ∈ before, R.Scored x) ∧ Oversized item

theorem readRanking_overflow (h : Indexed hits.length response items) (hhits : hits ≠ []) :
    R.readRanking hits response = .error .overflowError ↔ R.Overflowing items := by
  have hloop : items.forM R.checkScore = .error .overflowError ↔ R.Overflowing items := by
    rw [Result.forM_eq_error, Overflowing]
    simp only [checkScore_ok, checkScore_overflow]
  rw [← hloop]
  cases hl : items.forM R.checkScore with
  | error e =>
    rw [readRanking_eq h hhits, hl]
    simp [bind, Except.bind]
  | ok u =>
    have hscored : ∀ item ∈ items, R.Scored item := by
      intro item hitem
      exact checkScore_ok.mp (Result.forM_eq_ok.mp hl item hitem)
    obtain ⟨ranked, hranked, -⟩ := readRanking_ok h hhits hscored
    rw [hranked]
    simp

theorem readRanking_raises (hhits : hits ≠ []) :
    Raises [.keyError, .typeError, .valueError, .overflowError] (R.readRanking hits response) := by
  intro e he
  cases hi : indexedItems hits.length response with
  | error e' =>
    rw [readRanking, hi] at he
    cases he
    have hmem := indexedItems_raises e hi
    exact List.mem_append_left [.overflowError] hmem
  | ok items =>
    have h := (indexedItems_iff (List.length_pos_iff.mpr hhits)).mp hi
    cases hl : items.forM R.checkScore with
    | error e' =>
      rw [readRanking_eq h hhits, hl] at he
      cases he
      obtain ⟨before, item, after, -, -, hitem⟩ := Result.forM_eq_error.mp hl
      exact checkScore_raises e hitem
    | ok u =>
      have hscored : ∀ item ∈ items, R.Scored item := by
        intro item hitem
        exact checkScore_ok.mp (Result.forM_eq_ok.mp hl item hitem)
      obtain ⟨ranked, hranked, -⟩ := readRanking_ok h hhits hscored
      rw [hranked] at he
      cases he

theorem rerank_eq (hhits : hits ≠ []) (h : postJson replies R.attempts 0 = .ok response) :
    R.rerank replies hits = tryExcept [.keyError, .typeError, .valueError, .indexError] .retrievalProviderError
      .python (R.readRanking hits response) := by
  rw [rerank, if_neg hhits, h]
  rfl

theorem rerank_unanswered {e : ProviderFailure} (hhits : hits ≠ []) (h : postJson replies R.attempts 0 = .error e) :
    R.rerank replies hits = .error e := by
  rw [rerank, if_neg hhits, h]
  rfl

theorem rerank_ok {ranked : List RetrievalHit} (hhits : hits ≠ []) (h : R.rerank replies hits = .ok ranked) :
    ∃ response, postJson replies R.attempts 0 = .ok response ∧ R.Reranked hits response ranked := by
  cases hpost : postJson replies R.attempts 0 with
  | error e =>
    rw [rerank_unanswered hhits hpost] at h
    cases h
  | ok response =>
    rw [rerank_eq hhits hpost, tryExcept_eq_ok] at h
    obtain ⟨items, hi, hrest⟩ := Result.bind_eq_ok.mp h
    obtain ⟨u, hl, -⟩ := Result.bind_eq_ok.mp hrest
    have hindexed := (indexedItems_iff (List.length_pos_iff.mpr hhits)).mp hi
    have hscored : ∀ item ∈ items, R.Scored item := by
      intro item hitem
      exact checkScore_ok.mp (Result.forM_eq_ok.mp hl item hitem)
    obtain ⟨ranked', hranked, hr⟩ := readRanking_ok hindexed hhits hscored
    rw [h] at hranked
    cases hranked
    exact ⟨response, rfl, hr⟩

/-- What leaves the adapter is its own error, or the exception of a body that nests too deeply or of a score that is
too large. -/
theorem rerank_error {e : ProviderFailure} (hhits : hits ≠ []) (h : R.rerank replies hits = .error e) :
    e = .retrievalProviderError ∨ TooDeep replies R.attempts ∨ ∃ response items,
      postJson replies R.attempts 0 = .ok response ∧ Indexed hits.length response items ∧ R.Overflowing items := by
  cases hpost : postJson replies R.attempts 0 with
  | error e' =>
    rw [rerank_unanswered hhits hpost] at h
    cases h
    cases postJson_error hpost with
    | inl he => exact .inl he
    | inr he =>
      rw [he] at hpost
      exact .inr (.inl (postJson_tooDeep.mp hpost))
  | ok response =>
    rw [rerank_eq hhits hpost] at h
    cases hr : R.readRanking hits response with
    | ok ranked =>
      rw [hr] at h
      cases h
    | error e' =>
      rw [hr, tryExcept] at h
      by_cases hover : e' = .overflowError
      · right
        right
        rw [hover] at hr
        cases hi : indexedItems hits.length response with
        | error e'' =>
          rw [readRanking, hi] at hr
          cases hr
          exact absurd (indexedItems_raises _ hi) (by decide)
        | ok items =>
          have hindexed := (indexedItems_iff (List.length_pos_iff.mpr hhits)).mp hi
          exact ⟨response, items, rfl, hindexed, (readRanking_overflow hindexed hhits).mp hr⟩
      · left
        have hmem := readRanking_raises hhits e' hr
        have hcaught : e' ∈ [PyError.keyError, .typeError, .valueError, .indexError] := by
          cases e' with
          | overflowError => exact absurd rfl hover
          | attributeError => exact absurd hmem (by decide)
          | recursionError => exact absurd hmem (by decide)
          | _ => decide
        rw [if_pos hcaught] at h
        cases h
        rfl

/-- The adapter keeps what it promises exactly if the body does not nest too deeply and no integer is too large, but
behind another bad score. -/
theorem keeps_iff_tolerable (R : HTTPReranker) (replies : Nat → HttpReply) (hits : List RetrievalHit) :
    R.Keeps replies hits ↔ R.Tolerable replies hits := by
  constructor
  · intro hk
    constructor
    · intro hhits hdeep
      cases hk.declared _ (rerank_unanswered hhits (postJson_tooDeep.mpr hdeep))
    · intro hhits response items hpost h before item after he hitem
      by_contra hnone
      have hscored : ∀ x ∈ before, R.Scored x := by
        intro x hx
        by_contra hns
        exact hnone ⟨x, hx, hns⟩
      have hover := (readRanking_overflow h hhits).mpr ⟨before, item, after, he, hscored, hitem⟩
      have hrerank : R.rerank replies hits = .error (.python .overflowError) := by
        rw [rerank_eq hhits hpost, hover]
        rfl
      cases hk.declared _ hrerank
  · intro ht
    refine ⟨?_, ?_, fun ranked h hhits => rerank_ok hhits h⟩
    · intro e he
      by_cases hhits : hits = []
      · rw [rerank, if_pos hhits] at he
        cases he
      · rcases rerank_error hhits he with h | h | h
        · exact h
        · exact absurd h (ht.shallow hhits)
        · obtain ⟨response, items, hpost, hindexed, before, item, after, hs, hscored, hitem⟩ := h
          obtain ⟨x, hx, hns⟩ := ht.scores hhits response items hpost hindexed before item after hs hitem
          exact absurd (hscored x hx) hns
    · intro hnil
      rw [rerank, if_pos hnil]

/-- One hit, and a response with the score `10 ** 400` for it. -/
def oneHit : RetrievalHit where
  content := "Revenue is net of refunds."
  citation := MetricChunk.citation {
    id := ⟨"00000000-0000-0000-0000-000000000001", Eq.refl true⟩
    tenantId := ⟨"00000000-0000-0000-0000-00000000000a", Eq.refl true⟩
    documentId := ⟨"00000000-0000-0000-0000-00000000000d", Eq.refl true⟩
    documentTitle := "Metrics"
    documentVersion := 1
    sectionKey := "revenue"
    sectionTitle := "Revenue"
    sourceLocator := "metrics.md:lines:1-3"
    ordinal := 0
    content := "Revenue is net of refunds."
    embedding := [1] }
  lexicalScore := some (1 / 2)
  vectorScore := none
  fusedScore := 3 / 61

def hugeItem : Value := .dict [("index", .int 0), ("relevance_score", .int (10 ^ 400))]

def hugeScore : HttpReply := .json (.dict [("results", .list [hugeItem])])

def defaultReranker : HTTPReranker := ⟨3, ⟨fun _ => none, fun _ => none⟩⟩

theorem hugeScore_too_large : TooLarge (10 ^ 400) := by
  rw [← floatOfInt_eq_none]
  decide +kernel

theorem not_keeps_hugeScore : ¬ defaultReranker.Keeps (fun _ => hugeScore) [oneHit] := by
  intro h
  have hindexed : Indexed [oneHit].length [("results", .list [hugeItem])] [hugeItem] :=
    ⟨rfl, [0], .refl _, .cons rfl .nil⟩
  have hitem : Oversized hugeItem := ⟨10 ^ 400, rfl, hugeScore_too_large⟩
  have hover : defaultReranker.readRanking [oneHit] [("results", .list [hugeItem])] = .error .overflowError :=
    (readRanking_overflow hindexed (List.cons_ne_nil _ _)).mpr
      ⟨[], hugeItem, [], rfl, fun x hx => (nomatch hx), hitem⟩
  have hrun : defaultReranker.rerank (fun _ => hugeScore) [oneHit] = .error (.python .overflowError) := by
    rw [rerank_eq (List.cons_ne_nil _ _) rfl, hover]
    rfl
  cases h.declared _ hrun

end DataCopilot.Retrieval.HTTPReranker
