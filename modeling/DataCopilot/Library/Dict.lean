import Mathlib.Logic.Function.Basic
import Mathlib.Data.List.Induction

/-! A dictionary built from pairs in order: a later pair replaces an earlier one with the
same key. -/
namespace DataCopilot.Dict
variable {κ ν : Type} [DecidableEq κ]

def ofPairs (pairs : List (κ × ν)) : κ → Option ν :=
  pairs.foldl (fun d e => Function.update d e.1 (some e.2)) fun _ => none

@[simp] theorem ofPairs_nil (k : κ) : ofPairs ([] : List (κ × ν)) k = none := rfl

theorem ofPairs_concat (pairs : List (κ × ν)) (e : κ × ν) (k : κ) :
    ofPairs (pairs ++ [e]) k = if k = e.1 then some e.2 else ofPairs pairs k := by
  simp only [ofPairs, List.foldl_append, List.foldl_cons, List.foldl_nil, Function.update_apply]

/-- The last pairs of a list, each with the value that is chosen for its key, decide. -/
theorem ofPairs_chosen (choice : κ → ν) {early late : List (κ × ν)} {k : κ}
    (hall : ∀ e ∈ late, e.2 = choice e.1) (hk : ∃ e ∈ late, e.1 = k) :
    ofPairs (early ++ late) k = some (choice k) := by
  induction late using List.reverseRecOn with
  | nil =>
    obtain ⟨_, he, _⟩ := hk
    cases he
  | append_singleton late e ih =>
    rw [← List.append_assoc, ofPairs_concat]
    by_cases he : k = e.1
    · rw [if_pos he, hall e (List.mem_append_right _ (List.mem_singleton_self _)), he]
    · rw [if_neg he]
      obtain ⟨x, hx, hxk⟩ := hk
      cases List.mem_append.mp hx with
      | inl hx => exact ih (fun y hy => hall y (List.mem_append_left _ hy)) ⟨x, hx, hxk⟩
      | inr hx => exact absurd (List.mem_singleton.mp hx ▸ hxk.symm) he

/-- `d[e.1] = e.2` on the items of a dictionary. -/
def setItem (d : List (κ × ν)) (e : κ × ν) : List (κ × ν) :=
  if d.any fun x => x.1 = e.1 then d.map fun x => if x.1 = e.1 then e else x
  else d ++ [e]

/-- What does not hold of the key is not touched. -/
theorem filter_setItem {d : List (κ × ν)} {e : κ × ν} {p : κ → Bool} (h : p e.1 = false) :
    (setItem d e).filter (fun x => p x.1) = d.filter fun x => p x.1 := by
  have hmap : (d.map fun x => if x.1 = e.1 then e else x).filter (fun x => p x.1) =
      d.filter fun x => p x.1 := by
    induction d with
    | nil => rfl
    | cons x rest ih =>
      rw [List.map_cons]
      by_cases hx : x.1 = e.1
      · rw [if_pos hx, List.filter_cons_of_neg (by simp [h]), ih, List.filter_cons_of_neg (by simp [hx, h])]
      · rw [if_neg hx, List.filter_cons, List.filter_cons, ih]
  rw [setItem]
  split
  · exact hmap
  · rw [List.filter_append, List.filter_cons_of_neg (by simp [h]), List.filter_nil, List.append_nil]

/-- What holds of the key is set among its own. -/
theorem filter_setItem_self {d : List (κ × ν)} {e : κ × ν} {p : κ → Bool} (h : p e.1 = true) :
    (setItem d e).filter (fun x => p x.1) = setItem (d.filter fun x => p x.1) e := by
  have hmap : (d.map fun x => if x.1 = e.1 then e else x).filter (fun x => p x.1) =
      (d.filter fun x => p x.1).map fun x => if x.1 = e.1 then e else x := by
    rw [List.filter_map]
    congr 1
    apply List.filter_congr
    intro x _
    by_cases hx : x.1 = e.1
    · simp [hx]
    · simp [hx]
  have hany : (d.filter fun x => p x.1).any (fun x => x.1 = e.1) = d.any fun x => x.1 = e.1 := by
    rw [List.any_filter]
    congr 1
    funext x
    by_cases hx : x.1 = e.1
    · simp [hx, h]
    · simp [hx]
  rw [setItem, setItem, hany]
  split
  · exact hmap
  · rw [List.filter_append, List.filter_cons_of_pos (by simp [h]), List.filter_nil]

theorem lookup_filter {α β : Type} [BEq α] [LawfulBEq α] {d : List (α × β)} {k : α} {p : α → Bool}
    (h : p k = true) : (d.filter fun x => p x.1).lookup k = d.lookup k := by
  induction d with
  | nil => rfl
  | cons x rest ih =>
    cases hp : p x.1 with
    | true => rw [List.filter_cons_of_pos (by simp [hp]), List.lookup_cons, List.lookup_cons, ih]
    | false =>
      have hx : k ≠ x.1 := by
        intro he
        rw [he, hp] at h
        cases h
      rw [List.filter_cons_of_neg (by simp [hp]), ih, List.lookup_cons, beq_eq_false_iff_ne.mpr hx]

theorem keys_setItem {d : List (κ × ν)} {e : κ × ν} : (setItem d e).map Prod.fst =
    if e.1 ∈ d.map Prod.fst then d.map Prod.fst else d.map Prod.fst ++ [e.1] := by
  have hmem : (d.any fun x => x.1 = e.1) = true ↔ e.1 ∈ d.map Prod.fst := by
    simp [List.any_eq_true]
  have hmap : (d.map fun x => if x.1 = e.1 then e else x).map Prod.fst = d.map Prod.fst := by
    rw [List.map_map]
    apply List.map_congr_left
    intro x _
    by_cases hx : x.1 = e.1
    · simp [hx]
    · simp [hx]
  by_cases h : e.1 ∈ d.map Prod.fst
  · rw [setItem, if_pos (hmem.mpr h), if_pos h, hmap]
  · rw [setItem, if_neg (h ∘ hmem.mp), if_neg h, List.map_append, List.map_singleton]

theorem mem_keys_setItem {d : List (κ × ν)} {e : κ × ν} {k : κ} :
    k ∈ (setItem d e).map Prod.fst ↔ k ∈ d.map Prod.fst ∨ k = e.1 := by
  rw [keys_setItem]
  by_cases h : e.1 ∈ d.map Prod.fst
  · rw [if_pos h]
    constructor
    · exact Or.inl
    · intro hk
      cases hk with
      | inl hk => exact hk
      | inr hk => exact hk ▸ h
  · rw [if_neg h, List.mem_append, List.mem_singleton]

theorem nodup_keys_setItem {d : List (κ × ν)} {e : κ × ν} (h : (d.map Prod.fst).Nodup) :
    ((setItem d e).map Prod.fst).Nodup := by
  rw [keys_setItem]
  by_cases hm : e.1 ∈ d.map Prod.fst
  · rw [if_pos hm]
    exact h
  · rw [if_neg hm, List.nodup_append]
    refine ⟨h, List.pairwise_singleton _ _, ?_⟩
    intro a ha b hb he
    rw [List.mem_singleton.mp hb] at he
    exact hm (he ▸ ha)

theorem lookup_setItem {d : List (κ × ν)} {e : κ × ν} {k : κ} :
    (setItem d e).lookup k = if k = e.1 then some e.2 else d.lookup k := by
  have hother : ∀ l : List (κ × ν), k ≠ e.1 →
      (l.map fun x => if x.1 = e.1 then e else x).lookup k = l.lookup k := by
    intro l hk
    induction l with
    | nil => rfl
    | cons x rest ih =>
      rw [List.map_cons, List.lookup_cons, List.lookup_cons, ih]
      by_cases hx : x.1 = e.1
      · simp [hx, beq_eq_false_iff_ne.mpr hk]
      · simp [hx]
  have hself : ∀ l : List (κ × ν), (l.any fun x => x.1 = e.1) = true →
      (l.map fun x => if x.1 = e.1 then e else x).lookup e.1 = some e.2 := by
    intro l h
    induction l with
    | nil => cases h
    | cons x rest ih =>
      rw [List.map_cons]
      by_cases hx : x.1 = e.1
      · rw [if_pos hx, List.lookup_cons_self]
      · have hrest : (rest.any fun x => x.1 = e.1) = true := by simpa [hx] using h
        rw [if_neg hx, List.lookup_cons, beq_eq_false_iff_ne.mpr (Ne.symm hx), ih hrest]
  rw [setItem]
  by_cases h : (d.any fun x => x.1 = e.1) = true
  · rw [if_pos h]
    by_cases hk : k = e.1
    · rw [if_pos hk, hk, hself d h]
    · rw [if_neg hk, hother d hk]
  · rw [if_neg h, List.lookup_append]
    by_cases hk : k = e.1
    · have hnone : d.lookup e.1 = none := by
        rw [List.lookup_eq_none_iff]
        intro x hx
        have hne : ¬ (x.1 = e.1) := fun he => h (List.any_eq_true.mpr ⟨x, hx, decide_eq_true he⟩)
        simpa [bne_iff_ne] using Ne.symm hne
      rw [if_pos hk, hk, hnone, List.lookup_cons_self, Option.none_or]
    · rw [if_neg hk, List.lookup_cons, beq_eq_false_iff_ne.mpr hk, List.lookup_nil, Option.or_none]

/-- Up to the order, an item that is set comes after those of the other keys. -/
theorem setItem_perm {d : List (κ × ν)} {e : κ × ν} (h : (d.map Prod.fst).Nodup) :
    (setItem d e).Perm (d.filter (fun x => x.1 ≠ e.1) ++ [e]) := by
  have hmap : ∀ l : List (κ × ν), (l.map Prod.fst).Nodup → e.1 ∈ l.map Prod.fst →
      (l.map fun x => if x.1 = e.1 then e else x).Perm (l.filter (fun x => x.1 ≠ e.1) ++ [e]) := by
    intro l hn hm
    induction l with
    | nil => cases hm
    | cons x rest ih =>
      rw [List.map_cons, List.nodup_cons] at hn
      by_cases hx : x.1 = e.1
      · have hrest : ∀ y ∈ rest, y.1 ≠ e.1 := fun y hy he => hn.1 (hx ▸ he ▸ List.mem_map_of_mem hy)
        have hsame : rest.map (fun x => if x.1 = e.1 then e else x) = rest := by
          rw [List.map_congr_left (g := fun y => y), List.map_id']
          intro y hy
          rw [if_neg (hrest y hy)]
        rw [List.map_cons, if_pos hx, hsame, List.filter_cons_of_neg (by simp [hx]),
          List.filter_eq_self.mpr fun y hy => decide_eq_true (hrest y hy)]
        exact (List.perm_append_singleton e rest).symm
      · have hm' : e.1 ∈ rest.map Prod.fst := by
          cases List.mem_cons.mp hm with
          | inl he => exact absurd he.symm hx
          | inr hr => exact hr
        rw [List.map_cons, if_neg hx, List.filter_cons_of_pos (by simp [hx]), List.cons_append]
        exact (ih hn.2 hm').cons x
  rw [setItem]
  by_cases hm : (d.any fun x => x.1 = e.1) = true
  · rw [if_pos hm]
    obtain ⟨x, hx, he⟩ := List.any_eq_true.mp hm
    exact hmap d h (of_decide_eq_true he ▸ List.mem_map_of_mem hx)
  · have hall : ∀ x ∈ d, x.1 ≠ e.1 := fun x hx he => hm (List.any_eq_true.mpr ⟨x, hx, decide_eq_true he⟩)
    rw [if_neg hm, List.filter_eq_self.mpr fun x hx => decide_eq_true (hall x hx)]

/-- `d.get(k)`. -/
def get? (d : List (κ × ν)) (k : κ) : Option ν := d.lookup k

theorem get?_setItem {d : List (κ × ν)} {e : κ × ν} {k : κ} :
    get? (setItem d e) k = if k = e.1 then some e.2 else get? d k := lookup_setItem

/-- In a dictionary the item of a key is the one that the key is looked up to. -/
theorem lookup_of_mem {d : List (κ × ν)} {e : κ × ν} (h : (d.map Prod.fst).Nodup) (he : e ∈ d) :
    d.lookup e.1 = some e.2 := by
  induction d with
  | nil => cases he
  | cons x rest ih =>
    rw [List.map_cons, List.nodup_cons] at h
    cases List.mem_cons.mp he with
    | inl hx => rw [hx, List.lookup_cons_self]
    | inr hrest =>
      have hne : e.1 ≠ x.1 := fun hk => h.1 (hk ▸ List.mem_map_of_mem hrest)
      rw [List.lookup_cons, beq_eq_false_iff_ne.mpr hne, ih h.2 hrest]

/-- The items of the dictionary: a key stands where it was first set. -/
def entries (pairs : List (κ × ν)) : List (κ × ν) :=
  pairs.foldl (fun d e =>
    if d.any fun x => x.1 = e.1 then d.map fun x => if x.1 = e.1 then e else x
    else d ++ [e]) []

theorem entries_concat (pairs : List (κ × ν)) (e : κ × ν) :
    entries (pairs ++ [e]) =
      if (entries pairs).any fun x => x.1 = e.1 then (entries pairs).map fun x => if x.1 = e.1 then e else x
      else entries pairs ++ [e] := by
  rw [entries, List.foldl_append, List.foldl_cons, List.foldl_nil]
  rfl

theorem entries_setItem (pairs : List (κ × ν)) (e : κ × ν) :
    entries (pairs ++ [e]) = setItem (entries pairs) e := entries_concat pairs e

theorem mem_keys_entries {pairs : List (κ × ν)} {k : κ} :
    k ∈ (entries pairs).map Prod.fst ↔ k ∈ pairs.map Prod.fst := by
  induction pairs using List.reverseRecOn with
  | nil => rfl
  | append_singleton pairs e ih =>
    rw [entries_setItem, mem_keys_setItem, ih, List.map_append, List.mem_append, List.map_singleton,
      List.mem_singleton]

theorem nodup_keys_entries (pairs : List (κ × ν)) : ((entries pairs).map Prod.fst).Nodup := by
  induction pairs using List.reverseRecOn with
  | nil => exact List.nodup_nil
  | append_singleton pairs e ih =>
    rw [entries_setItem]
    exact nodup_keys_setItem ih

/-- The keys stand in the order in which they come first. -/
theorem pairwise_keys_entries (pairs : List (κ × ν)) : ((entries pairs).map Prod.fst).Pairwise
    fun a b => (pairs.map Prod.fst).idxOf a < (pairs.map Prod.fst).idxOf b := by
  induction pairs using List.reverseRecOn with
  | nil => exact .nil
  | append_singleton pairs e ih =>
    have hold {k : κ} (hk : k ∈ (entries pairs).map Prod.fst) :
        ((pairs ++ [e]).map Prod.fst).idxOf k = (pairs.map Prod.fst).idxOf k := by
      rw [List.map_append, List.idxOf_append, if_pos (mem_keys_entries.mp hk)]
    have hkept : ((entries pairs).map Prod.fst).Pairwise fun a b =>
        ((pairs ++ [e]).map Prod.fst).idxOf a < ((pairs ++ [e]).map Prod.fst).idxOf b := by
      refine ih.imp_of_mem fun ha hb hlt => ?_
      rw [hold ha, hold hb]
      exact hlt
    rw [entries_setItem, keys_setItem]
    by_cases hm : e.1 ∈ (entries pairs).map Prod.fst
    · rw [if_pos hm]
      exact hkept
    · rw [if_neg hm, List.pairwise_append]
      refine ⟨hkept, List.pairwise_singleton _ _, fun a ha b hb => ?_⟩
      rw [List.mem_singleton.mp hb, hold ha, List.map_append,
        List.idxOf_append, if_neg fun h => hm (mem_keys_entries.mpr h)]
      exact Nat.lt_of_lt_of_le (List.idxOf_lt_length_of_mem (mem_keys_entries.mp ha)) (Nat.le_add_left _ _)

theorem mem_of_mem_entries {pairs : List (κ × ν)} {x : κ × ν} (h : x ∈ entries pairs) : x ∈ pairs := by
  induction pairs using List.reverseRecOn with
  | nil => exact h
  | append_singleton pairs e ih =>
    rw [entries_concat] at h
    split at h
    · obtain ⟨y, hy, he⟩ := List.mem_map.mp h
      split at he
      · exact he ▸ List.mem_append_right pairs (List.mem_singleton.mpr rfl)
      · exact List.mem_append_left [e] (ih (he ▸ hy))
    · cases List.mem_append.mp h with
      | inl h => exact List.mem_append_left [e] (ih h)
      | inr h => exact List.mem_append_right pairs h

theorem entries_of_nodup {pairs : List (κ × ν)} (h : (pairs.map Prod.fst).Nodup) :
    entries pairs = pairs := by
  induction pairs using List.reverseRecOn with
  | nil => rfl
  | append_singleton pairs e ih =>
    rw [List.map_append, List.nodup_append] at h
    have hn : ¬ (pairs.any fun x => x.1 = e.1) = true := by
      simp only [List.any_eq_true, decide_eq_true_eq]
      intro ⟨x, hx, he⟩
      exact h.2.2 x.1 (List.mem_map_of_mem hx) e.1 (List.mem_singleton.mpr rfl) he
    rw [entries_concat, ih h.1, if_neg hn]

/-- `{key(v): v for v in values}.values()`. -/
def valuesBy (key : ν → κ) (values : List ν) : List ν :=
  (entries (values.map fun v => (key v, v))).map Prod.snd

theorem mem_of_mem_valuesBy {key : ν → κ} {values : List ν} {v : ν} (h : v ∈ valuesBy key values) :
    v ∈ values := by
  obtain ⟨e, he, hv⟩ := List.mem_map.mp h
  obtain ⟨w, hw, hew⟩ := List.mem_map.mp (mem_of_mem_entries he)
  rw [← hv, ← hew]
  exact hw

theorem map_key_valuesBy (key : ν → κ) (values : List ν) : (valuesBy key values).map key =
    (entries (values.map fun v => (key v, v))).map Prod.fst := by
  rw [valuesBy, List.map_map]
  apply List.map_congr_left
  intro e he
  obtain ⟨w, _, hew⟩ := List.mem_map.mp (mem_of_mem_entries he)
  rw [Function.comp_apply, ← hew]

theorem nodup_key_valuesBy (key : ν → κ) (values : List ν) : ((valuesBy key values).map key).Nodup := by
  rw [map_key_valuesBy]
  exact nodup_keys_entries _

theorem exists_mem_valuesBy {key : ν → κ} {values : List ν} {v : ν} (h : v ∈ values) :
    ∃ w ∈ valuesBy key values, key w = key v := by
  have hkey : key v ∈ (valuesBy key values).map key := by
    rw [map_key_valuesBy, mem_keys_entries, List.map_map]
    exact List.mem_map_of_mem h
  exact List.mem_map.mp hkey

/-- `LastUnder pairs k v`: of the pairs with key `k` the last one has value `v`. -/
def LastUnder (pairs : List (κ × ν)) (k : κ) (v : ν) : Prop :=
  ∃ before after, pairs = before ++ (k, v) :: after ∧ ∀ e ∈ after, e.1 ≠ k

omit [DecidableEq κ] in
theorem lastUnder_concat {pairs : List (κ × ν)} {e : κ × ν} {k : κ} {v : ν} :
    LastUnder (pairs ++ [e]) k v ↔ (k, v) = e ∨ e.1 ≠ k ∧ LastUnder pairs k v := by
  constructor
  · intro h
    obtain ⟨before, after, he, hk⟩ := h
    rcases List.eq_nil_or_concat after with hn | ⟨init, last, hc⟩
    · subst hn
      have hl := List.append_inj' he rfl
      exact .inl (by simpa [eq_comm] using hl.2)
    · subst hc
      rw [List.concat_eq_append, ← List.cons_append, ← List.append_assoc] at he
      obtain ⟨hp, hlast⟩ := List.append_inj' he rfl
      obtain rfl : e = last := by simpa using hlast
      refine .inr ⟨hk e (by simp), before, init, hp, fun d hd => hk d ?_⟩
      simp [hd]
  · intro h
    rcases h with he | ⟨hne, before, after, hp, hk⟩
    · exact ⟨pairs, [], by rw [he], by simp⟩
    · refine ⟨before, after ++ [e], by simp [hp], fun d hd => ?_⟩
      rcases List.mem_append.mp hd with hd | hd
      · exact hk d hd
      · rw [List.mem_singleton.mp hd]
        exact hne

theorem ofPairs_eq_some {pairs : List (κ × ν)} {k : κ} {v : ν} :
    ofPairs pairs k = some v ↔ LastUnder pairs k v := by
  induction pairs using List.reverseRecOn with
  | nil => simp [LastUnder]
  | append_singleton pairs e ih =>
    rw [ofPairs_concat, lastUnder_concat, ← ih]
    by_cases h : k = e.1
    · subst h
      simp [Prod.ext_iff, eq_comm]
    · have hp : (k, v) ≠ e := fun he => h (by rw [← he])
      simp [h, hp, Ne.symm h]

theorem ofPairs_eq_none {pairs : List (κ × ν)} {k : κ} :
    ofPairs pairs k = none ↔ ∀ e ∈ pairs, e.1 ≠ k := by
  induction pairs using List.reverseRecOn with
  | nil => simp
  | append_singleton pairs e ih =>
    rw [ofPairs_concat]
    by_cases h : k = e.1
    · rw [if_pos h]
      exact ⟨fun hn => (nomatch hn), fun hp => absurd h.symm (hp e (by simp))⟩
    · simp only [h, if_false, ih, List.mem_append, List.mem_singleton]
      exact ⟨fun hp d hd => hd.elim (hp d) fun he => he ▸ Ne.symm h, fun hp d hd => hp d (.inl hd)⟩

end DataCopilot.Dict
