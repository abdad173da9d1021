import DataCopilot.Retrieval.Providers

/-! The embedding of texts: the vectors stand in the order of the texts, whatever the order of a response, and
what leaves the adapter is its own error, but where the usage of a response is a list or a text, where a body nests
too deeply, or where floats cannot tell the norm of an embedding. -/
namespace DataCopilot.Retrieval.HTTPEmbeddingProvider
open Py
variable {P : HTTPEmbeddingProvider} {response : List (String × Value)} {items : List Value}
variable {provider : Nat → Nat → HttpReply} {b i n : Nat} {item : Value} {vectors : List (List PyFloat)}

/-- The index of the item is `i` to `==`. -/
def HasIndex (item : Value) (i : Nat) : Prop := ∃ v, item.getItem "index" = .ok v ∧ v.number = some (i : ℚ)

/-- The items of the response, one for each of `n` texts. -/
structure Indexed (n : Nat) (response : List (String × Value)) (items : List Value) : Prop where
  data : response.lookup "data" = some (.list items)
  indexes : ∃ order : List Nat, order.Perm (List.range n) ∧ List.Forall₂ HasIndex items order

/-- The vector is the embedding of the item, and no other, divided by its norm. -/
def Normalised (P : HTTPEmbeddingProvider) (item : Value) (vector : List PyFloat) : Prop :=
  ∃ c n, P.components item = .ok c ∧ c.length = P.dimensions ∧ PyFloat.norm c = .ok (.finite n) ∧ 0 < n ∧
    PyFloat.Measures n c ∧ vector = c.map fun v => PyFloat.divide v (.finite n)

/-- The item has an embedding of the dimension, whose norm is not zero to the adapter. -/
def Usable (P : HTTPEmbeddingProvider) (item : Value) : Prop :=
  ∃ c norm, P.components item = .ok c ∧ PyFloat.norm c = .ok norm ∧ norm ≠ .finite 0

/-- The squares of the embedding neither overflow nor underflow so far that floats miss its norm. -/
def Measurable (P : HTTPEmbeddingProvider) (item : Value) : Prop :=
  ∃ c n, P.components item = .ok c ∧ PyFloat.norm c = .ok (.finite n) ∧ 0 < n ∧ PyFloat.Measures n c

/-- The data of the response are good for `n` texts. -/
def Readable (P : HTTPEmbeddingProvider) (n : Nat) (response : List (String × Value)) : Prop :=
  ∃ items, Indexed n response items ∧ ∀ item ∈ items, P.Usable item

/-- The usage is a list or a text, of which membership may be asked but no `get`. -/
def UsageRefused (response : List (String × Value)) : Prop :=
  (∃ s, response.lookup "usage" = some (.str s)) ∨ ∃ l, response.lookup "usage" = some (.list l)

/-- How many texts the batch `b` has. -/
def size (texts : List String) (b : Nat) : Nat := min 32 (texts.length - 32 * b)

/-- The item is the one which the response for the batch of the text `i` has for it. -/
def Placed (P : HTTPEmbeddingProvider) (provider : Nat → Nat → HttpReply) (i : Nat) (item : Value) : Prop :=
  ∃ response items, P.respond provider (i / 32) = .ok response ∧ response.lookup "data" = some (.list items) ∧
    item ∈ items ∧ HasIndex item (i % 32) ∧ ∀ other ∈ items, HasIndex other (i % 32) → other = item

/-- What the adapter promises: a vector for each text, in their order, or its own error. -/
structure Keeps (P : HTTPEmbeddingProvider) (provider : Nat → Nat → HttpReply) (texts : List String) : Prop where
  declared : ∀ e, P.embed provider texts = .error e → e = .retrievalProviderError
  aligned : ∀ vectors, P.embed provider texts = .ok vectors → List.Forall₂ (fun i vector =>
    ∃ item, P.Placed provider i item ∧ P.Normalised item vector) (List.range texts.length) vectors

/-- The response for the batch `b` has good data and a usage that can be counted. -/
def Accepted (P : HTTPEmbeddingProvider) (provider : Nat → Nat → HttpReply) (texts : List String) (b : Nat) : Prop :=
  ∃ response, P.respond provider b = .ok response ∧ P.Readable (size texts b) response ∧
    ∃ count, P.promptTokens response = .ok count

/-- No body that is read nests too deeply, no response with good data has a list or a text for its usage, and where
all are accepted floats can tell the norms. -/
structure Tolerable (P : HTTPEmbeddingProvider) (provider : Nat → Nat → HttpReply) (texts : List String) : Prop where
  shallow : ∀ b, 32 * b < texts.length → (∀ c < b, P.Accepted provider texts c) → ¬ TooDeep (provider b) P.attempts
  usage : ∀ b response, 32 * b < texts.length → (∀ c < b, P.Accepted provider texts c) →
    P.respond provider b = .ok response → P.Readable (size texts b) response → ¬ UsageRefused response
  measured : (∀ b, 32 * b < texts.length → P.Accepted provider texts b) → ∀ b response items, 32 * b < texts.length →
    P.respond provider b = .ok response → response.lookup "data" = some (.list items) →
    ∀ item ∈ items, P.Measurable item

theorem hashed_of_number {v : Value} (h : v.number = some (i : ℚ)) : v.hashed = .ok v := by
  cases v with
  | list l => cases h
  | dict fields => cases h
  | _ => rfl

theorem hashed_eq_ok {v w : Value} (h : v.hashed = .ok w) : w = v := by
  cases v with
  | list l => cases h
  | dict fields => cases h
  | _ => exact (Except.ok.inj h).symm

theorem getItem_of_indexOf {v : Value} (h : indexOf item = .ok v) : item.getItem "index" = .ok v := by
  obtain ⟨index, hindex, hv⟩ := Result.bind_eq_ok.mp h
  rw [hindex, hashed_eq_ok hv]

theorem indexOf_of_number {v : Value} (h : item.getItem "index" = .ok v) (hn : v.number = some (i : ℚ)) :
    indexOf item = .ok v := by
  rw [indexOf, h]
  exact hashed_of_number hn

theorem indexedItems_iff (hn : 0 < n) : indexedItems n response = .ok items ↔ Indexed n response items := by
  constructor
  · intro h
    obtain ⟨data, hdata, h⟩ := Result.bind_eq_ok.mp h
    obtain ⟨length, hlength, h⟩ := Result.bind_eq_ok.mp h
    by_cases hl : length ≠ n
    · rw [if_pos hl] at h
      cases h
    · rw [if_neg hl] at h
      obtain ⟨found, hiter, h⟩ := Result.bind_eq_ok.mp h
      obtain ⟨values, hvalues, h⟩ := Result.bind_eq_ok.mp h
      by_cases hcheck : (!sameAsRange values n) = true
      · rw [if_pos hcheck] at h
        cases h
      · rw [if_neg hcheck] at h
        cases h
        rw [Bool.not_eq_true, Bool.not_eq_false'] at hcheck
        have hlen : items.length = n := (Value.length_of_iter hlength hiter).trans (not_not.mp hl)
        have hall := Result.mapM_eq_ok_iff.mp hvalues
        obtain ⟨order, hperm, horder⟩ := order_of_sameAsRange (hall.length_eq.symm.trans hlen) hcheck
        have hlist : data = .list items := by
          apply list_of_iter (k := "index") (hlen ▸ hn) hiter
          intro item hitem
          obtain ⟨v, -, hv⟩ := Result.ok_of_mapM hvalues item hitem
          exact ⟨v, getItem_of_indexOf hv⟩
        refine ⟨?_, order, hperm, ?_⟩
        · rw [Value.getItem] at hdata
          split at hdata
          · cases hdata
            rename_i hlookup
            rw [hlookup, hlist]
          · cases hdata
        · exact Result.forall₂_trans hall horder fun item v i _ hi hitem => ⟨v, getItem_of_indexOf hitem, hi⟩
  · intro h
    obtain ⟨order, hperm, hall⟩ := h.indexes
    have hlen : items.length = n := by
      rw [hall.length_eq, hperm.length_eq, List.length_range]
    have hvalues : ∃ values, items.mapM indexOf = .ok values ∧
        List.Forall₂ (fun v (i : Nat) => Value.number v = some (i : ℚ)) values order := by
      clear hlen hperm h
      induction hall with
      | nil => exact ⟨[], rfl, .nil⟩
      | @cons item i items order hitem _ ih =>
        obtain ⟨v, hv, hnumber⟩ := hitem
        obtain ⟨values, hvalues, hrest⟩ := ih
        refine ⟨v :: values, ?_, .cons hnumber hrest⟩
        rw [List.mapM_cons, hvalues, indexOf_of_number hv hnumber]
        rfl
    obtain ⟨values, hvalues, hnumbers⟩ := hvalues
    simp only [indexedItems, Value.getItem, h.data, Value.len, Value.iter, hlen, hvalues,
      sameAsRange_of_order hperm hnumbers, bind, Except.bind]
    simp [pure, Except.pure]

theorem finite_length {vector : List PyFloat} {c : List ℚ} (h : vector.mapM PyFloat.finite? = some c) :
    c.length = vector.length := by
  induction vector generalizing c with
  | nil =>
    cases h
    rfl
  | cons x rest ih =>
    rw [List.mapM_cons, Option.bind_eq_bind, Option.bind_eq_some_iff] at h
    obtain ⟨q, -, h⟩ := h
    rw [Option.bind_eq_bind, Option.bind_eq_some_iff] at h
    obtain ⟨qs, hqs, h⟩ := h
    cases h
    rw [List.length_cons, List.length_cons, ih hqs]

theorem components_length {c : List ℚ} (h : P.components item = .ok c) : c.length = P.dimensions := by
  obtain ⟨embedding, -, h⟩ := Result.bind_eq_ok.mp h
  obtain ⟨values, -, h⟩ := Result.bind_eq_ok.mp h
  obtain ⟨vector, -, h⟩ := Result.bind_eq_ok.mp h
  by_cases hl : vector.length ≠ P.dimensions
  · rw [if_pos hl] at h
    cases h
  · rw [if_neg hl] at h
    cases hm : vector.mapM PyFloat.finite? with
    | none =>
      simp only [hm] at h
      cases h
    | some c' =>
      simp only [hm] at h
      cases h
      rw [finite_length hm, not_not.mp hl]

theorem vectorOf_iff {vector : List PyFloat} : P.vectorOf item = .ok vector ↔ ∃ c norm,
    P.components item = .ok c ∧ PyFloat.norm c = .ok norm ∧ norm ≠ .finite 0 ∧
      vector = c.map fun v => PyFloat.divide v norm := by
  rw [vectorOf]
  constructor
  · intro h
    obtain ⟨c, hc, h⟩ := Result.bind_eq_ok.mp h
    obtain ⟨norm, hnorm, h⟩ := Result.bind_eq_ok.mp h
    by_cases hz : norm = .finite 0
    · rw [if_pos hz] at h
      cases h
    · rw [if_neg hz] at h
      cases h
      exact ⟨c, norm, hc, hnorm, hz, rfl⟩
  · intro h
    obtain ⟨c, norm, hc, hnorm, hz, hv⟩ := h
    rw [hc, hv]
    simp [bind, Except.bind, hnorm, hz, pure, Except.pure]

theorem usable_iff : (∃ vector, P.vectorOf item = .ok vector) ↔ P.Usable item := by
  constructor
  · intro h
    obtain ⟨vector, hv⟩ := h
    obtain ⟨c, norm, hc, hnorm, hz, -⟩ := vectorOf_iff.mp hv
    exact ⟨c, norm, hc, hnorm, hz⟩
  · intro h
    obtain ⟨c, norm, hc, hnorm, hz⟩ := h
    exact ⟨_, vectorOf_iff.mpr ⟨c, norm, hc, hnorm, hz, rfl⟩⟩

/-- Where floats can tell the norm, the vector of an item is its embedding normalised. -/
theorem normalised_of_measurable {vector : List PyFloat} (h : P.Measurable item) (hv : P.vectorOf item = .ok vector) :
    P.Normalised item vector := by
  obtain ⟨c, n, hc, hn, hpos, hmeasures⟩ := h
  obtain ⟨c', norm, hc', hnorm, -, rfl⟩ := vectorOf_iff.mp hv
  rw [hc] at hc'
  cases hc'
  rw [hn] at hnorm
  cases hnorm
  exact ⟨c, n, hc, components_length hc, hn, hpos, hmeasures, rfl⟩

theorem measurable_of_normalised {vector : List PyFloat} (h : P.Normalised item vector) : P.Measurable item := by
  obtain ⟨c, n, hc, -, hn, hpos, hmeasures, -⟩ := h
  exact ⟨c, n, hc, hn, hpos, hmeasures⟩

theorem indexKey_eq (h : HasIndex item i) : indexKey item = i := by
  obtain ⟨v, hv, hnumber⟩ := h
  rw [indexKey, hv]
  simp [hnumber]

theorem indexLe_trans (a b c : Value) (hab : decide (indexKey a ≤ indexKey b) = true)
    (hbc : decide (indexKey b ≤ indexKey c) = true) : decide (indexKey a ≤ indexKey c) = true :=
  decide_eq_true ((of_decide_eq_true hab).trans (of_decide_eq_true hbc))

theorem indexLe_total (a b : Value) :
    (decide (indexKey a ≤ indexKey b) || decide (indexKey b ≤ indexKey a)) = true := by
  rw [Bool.or_eq_true, decide_eq_true_eq, decide_eq_true_eq]
  exact le_total _ _

/-- Sorted by their indexes the items stand in the order of the texts. -/
theorem sorted_indexes (h : Indexed n response items) :
    List.Forall₂ HasIndex (items.mergeSort fun a b => indexKey a ≤ indexKey b) (List.range n) := by
  obtain ⟨order, hperm, hall⟩ := h.indexes
  have hsort := List.mergeSort_perm items fun a b => indexKey a ≤ indexKey b
  have hsorted := List.pairwise_mergeSort indexLe_trans indexLe_total items
  generalize items.mergeSort (fun a b => indexKey a ≤ indexKey b) = sorted at *
  obtain ⟨order', hall', hperm'⟩ := List.perm_comp_forall₂ hsort hall
  have hle : order'.Pairwise (· ≤ ·) := by
    clear hperm hperm' hsort hall h
    induction hall' with
    | nil => exact .nil
    | @cons item i rest order hitem hrest ih =>
      rw [List.pairwise_cons] at hsorted
      refine .cons ?_ (ih hsorted.2)
      intro j hj
      obtain ⟨other, hother, hindex⟩ := Result.mem_of_forall₂ hrest.flip j hj
      have hkey := of_decide_eq_true (hsorted.1 other hother)
      rw [indexKey_eq hitem, indexKey_eq hindex] at hkey
      exact_mod_cast hkey
  have heq : order' = List.range n := by
    refine List.Perm.eq_of_pairwise ?_ hle List.pairwise_le_range (hperm'.trans hperm)
    intro a b _ _ hab hba
    exact Nat.le_antisymm hab hba
  exact heq ▸ hall'

theorem index_unique {v w : Nat} (h : HasIndex item v) (h' : HasIndex item w) : v = w := by
  have he := (indexKey_eq h).symm.trans (indexKey_eq h')
  exact_mod_cast he

theorem vectorsOf_iff (hn : 0 < n) : (∃ vectors, P.vectorsOf n response = .ok vectors) ↔ P.Readable n response := by
  constructor
  · intro h
    obtain ⟨vectors, h⟩ := h
    obtain ⟨items, hi, h⟩ := Result.bind_eq_ok.mp h
    refine ⟨items, (indexedItems_iff hn).mp hi, ?_⟩
    intro item hitem
    have hmem := (List.mergeSort_perm items fun a b => indexKey a ≤ indexKey b).mem_iff.mpr hitem
    obtain ⟨vector, -, hvector⟩ := Result.ok_of_mapM h item hmem
    exact usable_iff.mp ⟨vector, hvector⟩
  · intro h
    obtain ⟨items, hi, hall⟩ := h
    have hsort := List.mergeSort_perm items fun a b => indexKey a ≤ indexKey b
    rw [vectorsOf, (indexedItems_iff hn).mpr hi]
    apply Result.exists_mapM
    intro item hitem
    exact usable_iff.mpr (hall item (hsort.mem_iff.mp hitem))

theorem vectorsOf_carried (hn : 0 < n) (h : P.vectorsOf n response = .ok vectors) :
    List.Forall₂ (fun i vector => ∃ items item, response.lookup "data" = some (.list items) ∧ item ∈ items ∧
      HasIndex item i ∧ (∀ other ∈ items, HasIndex other i → other = item) ∧ P.vectorOf item = .ok vector)
      (List.range n) vectors := by
  obtain ⟨items, hi, h⟩ := Result.bind_eq_ok.mp h
  have hindexed := (indexedItems_iff hn).mp hi
  have hsort := List.mergeSort_perm items fun a b => indexKey a ≤ indexKey b
  have hall := Result.mapM_eq_ok_iff.mp h
  refine Result.forall₂_trans (sorted_indexes hindexed).flip hall ?_
  intro i item vector hitem hvector hindex
  have hmem : item ∈ items := hsort.mem_iff.mp hitem
  refine ⟨items, item, hindexed.data, hmem, hindex, ?_, hvector⟩
  intro other hother hindex'
  obtain ⟨order, hperm, horder⟩ := hindexed.indexes
  have hnodup : order.Nodup := hperm.nodup_iff.mpr List.nodup_range
  have hfunctional : ∀ (a : Value) (v w : Nat), HasIndex a v → HasIndex a w → v = w :=
    fun _ _ _ => index_unique
  exact Result.eq_of_forall₂ hfunctional horder hnodup hother hmem hindex' hindex

theorem toInt_raises {N : Numerals} {v : Value} : Raises [.typeError, .valueError, .overflowError] (v.toInt N) := by
  cases v with
  | float x =>
    cases x with
    | finite q => exact raises_ok
    | inf negative => exact raises_error (by decide)
    | nan => exact raises_error (by decide)
  | str s =>
    rw [Value.toInt]
    cases N.int s with
    | none => exact raises_error (by decide)
    | some n => exact raises_ok
  | bool b => exact raises_ok
  | int n => exact raises_ok
  | _ => exact raises_error (by decide)

/-- What counting the usage raises. An `AttributeError` is that of a list or a text. -/
theorem promptTokens_error {e : PyError} (h : P.promptTokens response = .error e) :
    e ∈ [PyError.typeError, .valueError, .overflowError] ∨ e = .attributeError ∧ UsageRefused response := by
  rw [promptTokens] at h
  cases hu : response.lookup "usage" with
  | none =>
    rw [hu] at h
    cases h
  | some usage =>
    rw [hu] at h
    cases usage with
    | str s =>
      cases h
      exact .inr ⟨rfl, .inl ⟨s, hu⟩⟩
    | list l =>
      cases h
      exact .inr ⟨rfl, .inr ⟨l, hu⟩⟩
    | dict fields =>
      left
      have hcount : Raises [.typeError, .valueError, .overflowError]
          (((fields.lookup "prompt_tokens").getD (.int 0)).toInt P.numerals) := toInt_raises
      cases hc : ((fields.lookup "prompt_tokens").getD (.int 0)).toInt P.numerals with
      | ok count =>
        simp [Value.contains, Value.get, hc, bind, Except.bind, pure, Except.pure] at h
      | error e' =>
        simp [Value.contains, Value.get, hc, bind, Except.bind] at h
        exact hcount e (h ▸ hc)
    | _ =>
      cases h
      exact .inl (by decide)

theorem promptTokens_refused (h : UsageRefused response) : P.promptTokens response = .error .attributeError := by
  cases h with
  | inl h =>
    obtain ⟨s, hs⟩ := h
    rw [promptTokens, hs]
    rfl
  | inr h =>
    obtain ⟨l, hl⟩ := h
    rw [promptTokens, hl]
    rfl

theorem raises_norm {allowed : List PyError} {c : List ℚ} (hv : .valueError ∈ allowed) :
    Raises allowed (PyFloat.norm c) := by
  rw [PyFloat.norm]
  cases PyFloat.sum (c.map fun v => rounded (v * v)) with
  | finite s =>
    rw [PyFloat.sqrt]
    split
    · exact raises_error hv
    · split
      · exact raises_ok
      · exact raises_ok
  | inf negative =>
    rw [PyFloat.sqrt]
    split
    · exact raises_error hv
    · exact raises_ok
  | nan => exact raises_ok

theorem vectorsOf_raises : Raises [.keyError, .typeError, .valueError, .overflowError] (P.vectorsOf n response) := by
  have hitems : Raises [.keyError, .typeError, .valueError, .overflowError] (indexedItems n response) := by
    apply (raises_getItem (by decide) (by decide)).bind
    intro data _
    apply (raises_len (by decide)).bind
    intro length _
    by_cases hl : length ≠ n
    · rw [if_pos hl]
      exact raises_error (by decide)
    · rw [if_neg hl]
      apply (raises_iter (by decide)).bind
      intro items _
      have hindex : ∀ item ∈ items, Raises [.keyError, .typeError, .valueError, .overflowError] (indexOf item) := by
        intro item _
        apply (raises_getItem (by decide) (by decide)).bind
        intro index _
        exact raises_hashed (by decide)
      apply (Raises.mapM hindex).bind
      intro indexes _
      exact raises_unless (by decide) raises_ok
  have hcomponents : ∀ item, Raises [.keyError, .typeError, .valueError, .overflowError] (P.components item) := by
    intro item
    apply (raises_getItem (by decide) (by decide)).bind
    intro embedding _
    apply (raises_iter (by decide)).bind
    intro values _
    apply (Raises.mapM fun v _ => raises_toFloat (by decide) (by decide) (by decide)).bind
    intro vector _
    by_cases hl : vector.length ≠ P.dimensions
    · rw [if_pos hl]
      exact raises_error (by decide)
    · rw [if_neg hl]
      cases vector.mapM PyFloat.finite? with
      | none => exact raises_error (by decide)
      | some c => exact raises_ok
  apply hitems.bind
  intro items _
  apply Raises.mapM
  intro item _
  apply (hcomponents item).bind
  intro c _
  apply (raises_norm (by decide)).bind
  intro norm _
  exact raises_unless (by decide) raises_ok

theorem embedBatch_eq (h : P.respond provider b = .ok response) :
    P.embedBatch provider b n = tryExcept [.keyError, .typeError, .valueError, .overflowError]
      .retrievalProviderError .python (P.readBatch n response) := by
  rw [embedBatch, h]
  rfl

theorem embedBatch_ok (h : P.embedBatch provider b n = .ok vectors) : ∃ response, P.respond provider b = .ok response ∧
    P.vectorsOf n response = .ok vectors ∧ ∃ count, P.promptTokens response = .ok count := by
  obtain ⟨response, hresponse, h⟩ := Result.bind_eq_ok.mp h
  rw [tryExcept_eq_ok] at h
  obtain ⟨vectors', hvectors, h⟩ := Result.bind_eq_ok.mp h
  obtain ⟨count, hcount, h⟩ := Result.bind_eq_ok.mp h
  cases h
  exact ⟨response, hresponse, hvectors, count, hcount⟩

theorem embedBatch_of_accepted {texts : List String} (hn : 0 < size texts b) :
    (∃ vectors, P.embedBatch provider b (size texts b) = .ok vectors) ↔ P.Accepted provider texts b := by
  constructor
  · intro h
    obtain ⟨vectors, h⟩ := h
    obtain ⟨response, hresponse, hvectors, hcount⟩ := embedBatch_ok h
    exact ⟨response, hresponse, (vectorsOf_iff hn).mp ⟨vectors, hvectors⟩, hcount⟩
  · intro h
    obtain ⟨response, hresponse, hreadable, count, hcount⟩ := h
    obtain ⟨vectors, hvectors⟩ := (vectorsOf_iff hn).mpr hreadable
    refine ⟨vectors, ?_⟩
    rw [embedBatch_eq hresponse, readBatch, hvectors, hcount]
    rfl

/-- What leaves a batch is the error of the adapter, or the exception of its body or of its usage. -/
theorem embedBatch_error {e : ProviderFailure} (hn : 0 < n) (h : P.embedBatch provider b n = .error e) :
    e = .retrievalProviderError ∨ TooDeep (provider b) P.attempts ∨
      ∃ response, P.respond provider b = .ok response ∧ P.Readable n response ∧ UsageRefused response := by
  cases hr : P.respond provider b with
  | error e' =>
    rw [embedBatch, hr] at h
    cases h
    cases postJson_error hr with
    | inl he => exact .inl he
    | inr he =>
      rw [he] at hr
      exact .inr (.inl (postJson_tooDeep.mp hr))
  | ok response =>
    rw [embedBatch_eq hr, readBatch] at h
    cases hv : P.vectorsOf n response with
    | error e' =>
      rw [hv] at h
      have hcaught := vectorsOf_raises e' hv
      simp only [bind, Except.bind, tryExcept, if_pos hcaught] at h
      cases h
      exact .inl rfl
    | ok vectors =>
      rw [hv] at h
      cases hc : P.promptTokens response with
      | ok count =>
        rw [hc] at h
        cases h
      | error e' =>
        rw [hc] at h
        cases promptTokens_error hc with
        | inr hrefused => exact .inr (.inr ⟨response, rfl, (vectorsOf_iff hn).mp ⟨vectors, hv⟩, hrefused.2⟩)
        | inl hmem =>
          have hcaught : e' ∈ [PyError.keyError, .typeError, .valueError, .overflowError] :=
            List.mem_cons_of_mem _ hmem
          simp only [bind, Except.bind, tryExcept, if_pos hcaught] at h
          cases h
          exact .inl rfl

theorem embedBatch_refused (hn : 0 < n) (hresponse : P.respond provider b = .ok response)
    (hreadable : P.Readable n response) (h : UsageRefused response) :
    P.embedBatch provider b n = .error (.python .attributeError) := by
  obtain ⟨vectors, hvectors⟩ := (vectorsOf_iff hn).mpr hreadable
  rw [embedBatch_eq hresponse, readBatch, hvectors, promptTokens_refused h]
  rfl

theorem embedBatch_tooDeep (h : TooDeep (provider b) P.attempts) :
    P.embedBatch provider b n = .error (.python .recursionError) := by
  rw [embedBatch, respond, postJson_tooDeep.mpr h]
  rfl

section Batches
variable {texts : List String} {m : Nat}

/-- The batches from `b` on, `m` of them. -/
def slices (texts : List String) (b m : Nat) : List (List String) :=
  (List.range' b m).map fun c => (texts.drop (32 * c)).take 32

theorem slices_succ : slices texts b (m + 1) = (texts.drop (32 * b)).take 32 :: slices texts (b + 1) m := by
  rw [slices, List.range'_succ, List.map_cons]
  rfl

theorem slice_length : ((texts.drop (32 * b)).take 32).length = size texts b := by
  rw [List.length_take, List.length_drop, size]

theorem embed_eq : P.embed provider texts = P.embedFrom provider 0 (slices texts 0 ((texts.length + 31) / 32)) := by
  rw [embed, batches, List.range_eq_range']
  rfl

theorem embedFrom_succ : P.embedFrom provider b (slices texts b (m + 1)) = (do
    let vectors ← P.embedBatch provider b (size texts b)
    let later ← P.embedFrom provider (b + 1) (slices texts (b + 1) m)
    pure (vectors ++ later)) := by
  rw [slices_succ, embedFrom, slice_length]

/-- The vectors of one batch are those of its texts. -/
theorem embedBatch_carries (hb : 32 * b < texts.length) (h : P.embedBatch provider b (size texts b) = .ok vectors) :
    List.Forall₂ (fun i vector => ∃ item, P.Placed provider i item ∧ P.vectorOf item = .ok vector)
      (List.range' (32 * b) (size texts b)) vectors := by
  obtain ⟨response, hresponse, hvectors, -⟩ := embedBatch_ok h
  have hsize : size texts b ≤ 32 := Nat.min_le_left _ _
  have hpos : 0 < size texts b := by
    rw [size]
    omega
  have hcarried := vectorsOf_carried hpos hvectors
  rw [← Nat.add_zero (32 * b), ← List.map_add_range', ← List.range_eq_range', List.forall₂_map_left_iff]
  refine Result.forall₂_of_mem hcarried ?_
  intro i vector hi hfound
  have hlt : i < 32 := (List.mem_range.mp hi).trans_le hsize
  have hdiv : (32 * b + i) / 32 = b := by omega
  have hmod : (32 * b + i) % 32 = i := by omega
  obtain ⟨items, item, hdata, hmem, hindex, hunique, hvector⟩ := hfound
  refine ⟨item, ⟨response, items, ?_, hdata, hmem, ?_, ?_⟩, hvector⟩
  · rw [hdiv]
    exact hresponse
  · rw [hmod]
    exact hindex
  · rw [hmod]
    exact hunique

/-- The vectors of the batches from `b` on are those of the texts from `32 * b` on. -/
theorem embedFrom_carries (hm : 32 * (b + m) < texts.length + 32)
    (h : P.embedFrom provider b (slices texts b m) = .ok vectors) :
    List.Forall₂ (fun i vector => ∃ item, P.Placed provider i item ∧ P.vectorOf item = .ok vector)
      (List.range' (32 * b) (min (32 * m) (texts.length - 32 * b))) vectors := by
  induction m generalizing b vectors with
  | zero =>
    cases h
    rw [Nat.mul_zero, Nat.zero_min]
    exact .nil
  | succ m ih =>
    rw [embedFrom_succ] at h
    obtain ⟨first, hfirst, h⟩ := Result.bind_eq_ok.mp h
    obtain ⟨later, hlater, h⟩ := Result.bind_eq_ok.mp h
    cases h
    have hhead := embedBatch_carries (by omega) hfirst
    have htail := ih (by omega) hlater
    by_cases hfull : size texts b = 32
    · have hsplit : min (32 * (m + 1)) (texts.length - 32 * b) =
          size texts b + min (32 * m) (texts.length - 32 * (b + 1)) := by
        rw [hfull]
        rw [size] at hfull
        omega
      have hnext : 32 * (b + 1) = 32 * b + size texts b := by
        rw [hfull]
        omega
      rw [hsplit, hnext, ← List.range'_append_1]
      rw [hnext] at htail
      exact List.rel_append hhead htail
    · have hlast : min (32 * m) (texts.length - 32 * (b + 1)) = 0 := by
        rw [size] at hfull
        omega
      have hsplit : min (32 * (m + 1)) (texts.length - 32 * b) = size texts b := by
        rw [size] at hfull ⊢
        omega
      rw [hlast] at htail
      cases htail
      rw [hsplit, List.append_nil]
      exact hhead

/-- The loop fails with the first batch that fails. -/
theorem embedFrom_error {e : ProviderFailure} : P.embedFrom provider b (slices texts b m) = .error e ↔
    ∃ c, b ≤ c ∧ c < b + m ∧ P.embedBatch provider c (size texts c) = .error e ∧
      ∀ d, b ≤ d → d < c → ∃ vectors, P.embedBatch provider d (size texts d) = .ok vectors := by
  induction m generalizing b with
  | zero =>
    constructor
    · intro h
      cases h
    · rintro ⟨c, hbc, hcb, -⟩
      omega
  | succ m ih =>
    rw [embedFrom_succ]
    cases hfirst : P.embedBatch provider b (size texts b) with
    | error e' =>
      constructor
      · intro h
        cases h
        exact ⟨b, Nat.le_of_eq rfl, by omega, hfirst, fun d hbd hdb => by omega⟩
      · rintro ⟨c, hbc, -, hc, hprior⟩
        by_cases hcb : c = b
        · rw [← hcb, hc] at hfirst
          rw [hfirst]
          rfl
        · obtain ⟨vectors, hv⟩ := hprior b (Nat.le_of_eq rfl) (by omega)
          rw [hfirst] at hv
          cases hv
    | ok first =>
      have hrest : (do
          let later ← P.embedFrom provider (b + 1) (slices texts (b + 1) m)
          pure (first ++ later)) = .error e ↔ P.embedFrom provider (b + 1) (slices texts (b + 1) m) = .error e := by
        cases P.embedFrom provider (b + 1) (slices texts (b + 1) m) with
        | error e' => simp [bind, Except.bind]
        | ok later => simp [bind, Except.bind, pure, Except.pure]
      refine Iff.trans hrest (ih.trans ?_)
      constructor
      · rintro ⟨c, hbc, hcm, hc, hprior⟩
        refine ⟨c, by omega, by omega, hc, ?_⟩
        intro d hbd hdc
        by_cases hdb : d = b
        · exact ⟨first, hdb ▸ hfirst⟩
        · exact hprior d (by omega) hdc
      · rintro ⟨c, hbc, hcm, hc, hprior⟩
        have hcb : c ≠ b := by
          rintro rfl
          rw [hfirst] at hc
          cases hc
        exact ⟨c, by omega, by omega, hc, fun d hbd hdc => hprior d (by omega) hdc⟩

theorem size_pos (hb : 32 * b < texts.length) : 0 < size texts b := by
  rw [size]
  omega

theorem embed_error {e : ProviderFailure} : P.embed provider texts = .error e ↔
    ∃ b, 32 * b < texts.length ∧ P.embedBatch provider b (size texts b) = .error e ∧
      ∀ c < b, P.Accepted provider texts c := by
  rw [embed_eq, embedFrom_error]
  constructor
  · rintro ⟨b, -, hb, he, hprior⟩
    exact ⟨b, by omega, he, fun c hc => (embedBatch_of_accepted (size_pos (by omega))).mp (hprior c (Nat.zero_le c) hc)⟩
  · rintro ⟨b, hb, he, hprior⟩
    exact ⟨b, Nat.zero_le b, by omega, he,
      fun c _ hc => (embedBatch_of_accepted (size_pos (by omega))).mpr (hprior c hc)⟩

/-- Vectors are returned exactly if all batches are accepted. -/
theorem embed_ok_iff : (∃ vectors, P.embed provider texts = .ok vectors) ↔
    ∀ b, 32 * b < texts.length → P.Accepted provider texts b := by
  constructor
  · intro h b hb
    by_contra hnot
    obtain ⟨vectors, hv⟩ := h
    obtain ⟨c, hc, hleast⟩ : ∃ c, (32 * c < texts.length ∧ ¬ P.Accepted provider texts c) ∧
        ∀ d < c, ¬ (32 * d < texts.length ∧ ¬ P.Accepted provider texts d) := by
      classical
      have hex : ∃ c, 32 * c < texts.length ∧ ¬ P.Accepted provider texts c := ⟨b, hb, hnot⟩
      exact ⟨Nat.find hex, Nat.find_spec hex, fun d hd => Nat.find_min hex hd⟩
    cases hbatch : P.embedBatch provider c (size texts c) with
    | ok first => exact hc.2 ((embedBatch_of_accepted (size_pos hc.1)).mp ⟨first, hbatch⟩)
    | error e =>
      have herror : P.embed provider texts = .error e := by
        refine embed_error.mpr ⟨c, hc.1, hbatch, fun d hd => ?_⟩
        by_contra hd'
        exact hleast d hd ⟨by omega, hd'⟩
      rw [hv] at herror
      cases herror
  · intro h
    cases he : P.embed provider texts with
    | ok vectors => exact ⟨vectors, rfl⟩
    | error e =>
      obtain ⟨b, hb, hbatch, -⟩ := embed_error.mp he
      obtain ⟨vectors, hv⟩ := (embedBatch_of_accepted (size_pos hb)).mpr (h b hb)
      rw [hv] at hbatch
      cases hbatch

/-- The vectors that are returned are those of the items for the texts. -/
theorem embed_placed (h : P.embed provider texts = .ok vectors) : List.Forall₂ (fun i vector =>
    ∃ item, P.Placed provider i item ∧ P.vectorOf item = .ok vector) (List.range texts.length) vectors := by
  rw [embed_eq] at h
  have hcarries := embedFrom_carries (by omega) h
  have hall : min (32 * ((texts.length + 31) / 32)) (texts.length - 32 * 0) = texts.length := by omega
  rw [hall] at hcarries
  rw [List.range_eq_range']
  exact hcarries

/-- Each item of a response that is accepted is the one for some text. -/
theorem placed_of_mem (hb : 32 * b < texts.length) (hresponse : P.respond provider b = .ok response)
    (hindexed : Indexed (size texts b) response items) (hitem : item ∈ items) :
    ∃ i < texts.length, ∀ other, P.Placed provider i other → other = item := by
  obtain ⟨order, hperm, hall⟩ := hindexed.indexes
  obtain ⟨j, hj, hindex⟩ := Result.mem_of_forall₂ hall item hitem
  have hlt : j < size texts b := List.mem_range.mp (hperm.mem_iff.mp hj)
  rw [size] at hlt
  have hdiv : (32 * b + j) / 32 = b := by omega
  have hmod : (32 * b + j) % 32 = j := by omega
  refine ⟨32 * b + j, by omega, fun other hother => ?_⟩
  obtain ⟨response', items', hresponse', hdata', -, -, hunique⟩ := hother
  rw [hdiv, hresponse] at hresponse'
  cases hresponse'
  rw [hindexed.data] at hdata'
  cases hdata'
  rw [hmod] at hunique
  exact (hunique item hitem hindex).symm

/-- The adapter keeps what it promises exactly if nothing that is read nests too deeply, has a list or a text for
its usage, or has an embedding whose norm floats miss. -/
theorem embed_keeps_iff (P : HTTPEmbeddingProvider) (provider : Nat → Nat → HttpReply) (texts : List String) :
    P.Keeps provider texts ↔ P.Tolerable provider texts := by
  constructor
  · intro hk
    constructor
    · intro b hb hprior hdeep
      cases hk.declared _ (embed_error.mpr ⟨b, hb, embedBatch_tooDeep hdeep, hprior⟩)
    · intro b response hb hprior hresponse hreadable hrefused
      have hbatch := embedBatch_refused (size_pos hb) hresponse hreadable hrefused
      cases hk.declared _ (embed_error.mpr ⟨b, hb, hbatch, hprior⟩)
    · intro hall b response items hb hresponse hdata item hitem
      obtain ⟨vectors, hv⟩ := embed_ok_iff.mpr hall
      obtain ⟨response', hresponse', ⟨items', hindexed, -⟩, -⟩ := hall b hb
      rw [hresponse] at hresponse'
      cases hresponse'
      have hsame := hindexed.data
      rw [hdata] at hsame
      cases hsame
      obtain ⟨i, hi, hunique⟩ := placed_of_mem hb hresponse hindexed hitem
      obtain ⟨vector, -, other, hplaced, hnormalised⟩ :=
        Result.mem_of_forall₂ (hk.aligned vectors hv) i (List.mem_range.mpr hi)
      rw [← hunique other hplaced]
      exact measurable_of_normalised hnormalised
  · intro ht
    constructor
    · intro e he
      obtain ⟨b, hb, hbatch, hprior⟩ := embed_error.mp he
      rcases embedBatch_error (size_pos hb) hbatch with h | h | h
      · exact h
      · exact absurd h (ht.shallow b hb hprior)
      · obtain ⟨response, hresponse, hreadable, hrefused⟩ := h
        exact absurd hrefused (ht.usage b response hb hprior hresponse hreadable)
    · intro vectors hv
      have hall := embed_ok_iff.mp ⟨vectors, hv⟩
      refine Result.forall₂_of_mem (embed_placed hv) ?_
      intro i vector hi hfound
      obtain ⟨item, hplaced, hvector⟩ := hfound
      obtain ⟨response, items, hresponse, hdata, hmem, -⟩ := id hplaced
      have hlt := List.mem_range.mp hi
      exact ⟨item, hplaced, normalised_of_measurable
        (ht.measured hall (i / 32) response items (by omega) hresponse hdata item hmem) hvector⟩

/-- Nothing goes wrong where no body nests too deeply, no usage is a list or a text, and the embeddings are moderate. -/
theorem Tolerable.of_plain (hshallow : ∀ b k, provider b k ≠ .tooDeep)
    (husage : ∀ b k fields, provider b k = .json (.dict fields) → ¬ UsageRefused fields)
    (hmoderate : ∀ b k fields items item c, provider b k = .json (.dict fields) →
      fields.lookup "data" = some (.list items) → item ∈ items → P.components item = .ok c → PyFloat.Moderate c) :
    P.Tolerable provider texts := by
  constructor
  · rintro b - - ⟨k, -, hdeep, -⟩
    exact hshallow b k hdeep
  · intro b response _ _ hresponse _
    obtain ⟨k, hk⟩ := postJson_ok hresponse
    exact husage b k response hk
  · intro hall b response items hb hresponse hdata item hitem
    obtain ⟨k, hk⟩ := postJson_ok hresponse
    obtain ⟨response', hresponse', ⟨items', hindexed, husable⟩, -⟩ := hall b hb
    rw [hresponse] at hresponse'
    cases hresponse'
    have hsame := hindexed.data
    rw [hdata] at hsame
    cases hsame
    obtain ⟨c, -, hc, -, -⟩ := husable item hitem
    obtain ⟨n, hn, hpos, hmeasures⟩ := PyFloat.norm_measures (hmoderate b k response items item c hk hdata hitem hc)
    exact ⟨c, n, hc, hn, hpos, hmeasures⟩

end Batches

def itemOf (component : ℚ) : Value := .dict [("index", .int 0), ("embedding", .list [.float (.finite component)])]

/-- A response with good data for one text and a list for its usage. -/
def listedUsage : List (String × Value) := [("data", .list [itemOf 1]), ("usage", .list [])]

/-- Vectors of one component. -/
def lineProvider : HTTPEmbeddingProvider where
  dimensions := 1
  attempts := 3
  numerals := ⟨fun _ => none, fun _ => none⟩

theorem listedUsage_readable : lineProvider.Readable 1 listedUsage := by
  refine ⟨[itemOf 1], ⟨rfl, [0], .refl _, .cons ⟨.int 0, rfl, rfl⟩ .nil⟩, ?_⟩
  intro item hitem
  rw [List.mem_singleton.mp hitem]
  exact ⟨[1], .finite 1, rfl, by decide +kernel, by decide⟩

theorem not_keeps_listedUsage : ¬ lineProvider.Keeps (fun _ _ => .json (.dict listedUsage)) ["revenue"] := by
  intro h
  have hbatch : lineProvider.embedBatch (fun _ _ => .json (.dict listedUsage)) 0 (size ["revenue"] 0) =
      .error (.python .attributeError) :=
    embedBatch_refused Nat.one_pos rfl listedUsage_readable (.inr ⟨[], rfl⟩)
  have hrun : lineProvider.embed (fun _ _ => .json (.dict listedUsage)) ["revenue"] =
      .error (.python .attributeError) :=
    embed_error.mpr ⟨0, by decide, hbatch, fun d hd => absurd hd (Nat.not_lt_zero d)⟩
  cases h.declared _ hrun

/-- The square overflows, and the vector of the text is zero. -/
example : lineProvider.vectorsOf 1 [("data", .list [itemOf (10 ^ 200)])] = .ok [[.finite 0]] := by decide +kernel

end DataCopilot.Retrieval.HTTPEmbeddingProvider
