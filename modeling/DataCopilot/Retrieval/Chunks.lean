import DataCopilot.Library.Loop
import DataCopilot.Library.Trim
import DataCopilot.Library.Windows
import DataCopilot.Retrieval.Models

/-! The chunks of a document: every section is cut into windows that prefer to end behind a
sentence, and each window that is not blank gives a chunk with the next ordinal. -/
namespace DataCopilot.Retrieval
open Text Windows

namespace DocumentSection

/-- `section.content[start:end].strip()`. -/
def passage (s : DocumentSection) (w : Window) : String :=
  strip (String.ofList (w.of s.content.toList))

theorem passage_bounded {s : DocumentSection} {w : Window} (h : s.passage w ≠ "") :
    Bounded 100000 (s.passage w) := by
  have hs := strip_length_le (String.ofList (w.of s.content.toList))
  have hw : (w.of s.content.toList).length ≤ s.content.length := by
    rw [Window.of, List.length_drop, List.length_take, String.length_toList]
    omega
  have hb := s.content_bounded.2
  have hp : (s.passage w).length ≠ 0 := fun h0 => h (String.length_eq_zero_iff.mp h0)
  rw [String.length_ofList] at hs
  constructor
  · omega
  · rw [passage]
    omega

/-- `section.model_copy(update={"content": content})`, where the content is not blank. -/
def chunk? (s : DocumentSection) (w : Window) : Option DocumentSection :=
  if h : s.passage w = "" then none
  else some { s with content := s.passage w, content_bounded := passage_bounded h }

end DocumentSection

structure ChunkState where
  start : Nat
  chunks : List (DocumentSection × Nat)
  ordinal : Nat

/-- A window that is not blank gives a chunk. -/
def ChunkState.cut (t : ChunkState) (s : DocumentSection) (w : Window) : ChunkState :=
  match s.chunk? w with
  | none => t
  | some chunk => { t with chunks := t.chunks ++ [(chunk, t.ordinal)], ordinal := t.ordinal + 1 }

/-- Where the window from `start` ends. -/
def chunkEnd (content : List Char) (maxCharacters start : Nat) : Nat :=
  let stop := min content.length (start + maxCharacters)
  if stop < content.length then
    let boundary := max (max (rfind ['\n'] content start stop) (rfind ['。'] content start stop))
      (rfind ['.', ' '] content start stop)
    if boundary > start + maxCharacters / 2 then (boundary + 1).toNat else stop
  else stop

/-- The body of the loop over one section. -/
def chunkPass (s : DocumentSection) (maxCharacters overlapCharacters : Nat) (t : ChunkState) :
    Loop.Pass ChunkState ChunkState :=
  if t.start < s.content.length then
    let stop := chunkEnd s.content.toList maxCharacters t.start
    let u := t.cut s ⟨t.start, stop⟩
    if s.content.length ≤ stop then .leave u
    else .again { u with start := max (t.start + 1) (stop - overlapCharacters) }
  else .leave t

/-- The loop over the sections, where each inner loop has `fuel` passes. -/
def chunkLoop (fuel maxCharacters overlapCharacters : Nat) :
    List DocumentSection → ChunkState → Option ChunkState
  | [], t => some t
  | s :: sections, t =>
    (Loop.run (chunkPass s maxCharacters overlapCharacters) fuel { t with start := 0 }).bind
      (chunkLoop fuel maxCharacters overlapCharacters sections)

/-- The error is the `ValueError`; `none` is a loop that is still running. -/
def chunkSections (fuel : Nat) (sections : List DocumentSection)
    (maxCharacters overlapCharacters : Int) : Except String (Option (List (DocumentSection × Nat))) :=
  if maxCharacters < 1 ∨ overlapCharacters < 0 ∨ overlapCharacters ≥ maxCharacters then
    .error "chunk bounds are invalid"
  else .ok ((chunkLoop fuel maxCharacters.toNat overlapCharacters.toNat sections ⟨0, [], 0⟩).map
    ChunkState.chunks)

theorem chunk_end_bounds {content : List Char} {m start : Nat} (hs : start < content.length)
    (hm : 0 < m) :
    start < chunkEnd content m start ∧ chunkEnd content m start ≤ content.length ∧
      chunkEnd content m start ≤ start + m := by
  have h1 := @rfind_lt Char _ ['\n'] (by simp) content start (min content.length (start + m))
  have h2 := @rfind_lt Char _ ['。'] (by simp) content start (min content.length (start + m))
  have h3 := @rfind_lt Char _ ['.', ' '] (by simp) content start (min content.length (start + m))
  simp only [chunkEnd]
  split_ifs <;> omega

namespace ChunkState

/-- The ordinals are 0, 1, 2 and so on. -/
def Numbered (t : ChunkState) : Prop :=
  t.chunks.map Prod.snd = List.range t.chunks.length ∧ t.ordinal = t.chunks.length

variable {t : ChunkState} {s : DocumentSection} {w : Window}

theorem cut_chunks : (t.cut s w).chunks.map Prod.fst = t.chunks.map Prod.fst ++ (s.chunk? w).toList := by
  rw [cut]
  cases s.chunk? w with
  | none => simp
  | some chunk => simp

theorem Numbered.cut (h : t.Numbered) : (t.cut s w).Numbered := by
  rw [ChunkState.cut]
  cases s.chunk? w with
  | none => exact h
  | some chunk =>
    constructor
    · rw [List.map_append, h.1, List.length_append, List.length_singleton, List.range_succ, ← h.2]
      rfl
    · rw [List.length_append, List.length_singleton, ← h.2]

end ChunkState

/-- After some windows of a section: what was there before, and the chunks of these windows. -/
structure Cut (s : DocumentSection) (before : List DocumentSection) (ws : List Window)
    (t : ChunkState) : Prop where
  chunks : t.chunks.map Prod.fst = before ++ ws.filterMap s.chunk?
  numbered : t.Numbered

theorem Cut.snoc {s : DocumentSection} {before : List DocumentSection} {ws : List Window}
    {t : ChunkState} (h : Cut s before ws t) (w : Window) : Cut s before (ws ++ [w]) (t.cut s w) where
  chunks := by
    rw [ChunkState.cut_chunks, h.chunks, List.filterMap_append, List.append_assoc]
    cases hc : s.chunk? w with
    | none => simp [hc]
    | some chunk => simp [hc]
  numbered := h.numbered.cut

theorem Cut.moved {s : DocumentSection} {before : List DocumentSection} {ws : List Window}
    {t : ChunkState} (h : Cut s before ws t) (next : Nat) : Cut s before ws { t with start := next } :=
  ⟨h.chunks, h.numbered⟩

section Loop
variable {s : DocumentSection} {m o : Nat} {t : ChunkState}

/-- While the start is inside the section, a pass cuts one window off; it leaves with the window
that reaches the end. -/
theorem chunk_pass_cases (hs : t.start < s.content.length) (hm : 0 < m) :
    ∃ w : Window, w.start = t.start ∧ w.Sized m ∧
      ((w.stop = s.content.length ∧ chunkPass s m o t = .leave (t.cut s w)) ∨
        ∃ next, Follows o w next ∧ next < s.content.length ∧
          chunkPass s m o t = .again { t.cut s w with start := next }) := by
  have hl : s.content.toList.length = s.content.length := String.length_toList
  obtain ⟨h1, h2, h3⟩ := chunk_end_bounds (hl ▸ hs) hm
  refine ⟨⟨t.start, chunkEnd s.content.toList m t.start⟩, rfl, ⟨by simp only; omega, by simp only; omega⟩, ?_⟩
  by_cases he : s.content.length ≤ chunkEnd s.content.toList m t.start
  · left
    refine ⟨Nat.le_antisymm (hl ▸ h2) he, ?_⟩
    simp only [chunkPass]
    rw [if_pos hs, if_pos he]
  · right
    refine ⟨max (t.start + 1) (chunkEnd s.content.toList m t.start - o), ⟨?_, ?_, ?_⟩, ?_, ?_⟩
    · simp only
      omega
    · simp only
      omega
    · simp only
      omega
    · omega
    · simp only [chunkPass]
      rw [if_pos hs, if_neg he]

theorem chunk_pass_rule (before : List DocumentSection) (hm : 0 < m) :
    Loop.Rule (chunkPass s m o)
      (fun t => t.start < s.content.length ∧ ∃ ws, Begun m o t.start ws ∧ Cut s before ws t)
      (fun t => s.content.length - t.start)
      (fun t => ∃ ws, Tiling m o s.content.length ws ∧ Cut s before ws t) where
  again t u ht hp := by
    obtain ⟨hs, ws, hb, hc⟩ := ht
    obtain ⟨w, hw, hz, ⟨-, hl⟩ | ⟨next, hf, hn, ha⟩⟩ := chunk_pass_cases hs hm
    · rw [hl] at hp
      cases hp
    · rw [ha] at hp
      cases hp
      refine ⟨⟨hn, ws ++ [w], hb.snoc hw hz hf, ?_⟩, ?_⟩
      · exact (hc.snoc w).moved next
      · have hf1 := hf.1
        simp only
        omega
  leave t u ht hp := by
    obtain ⟨hs, ws, hb, hc⟩ := ht
    obtain ⟨w, hw, hz, ⟨he, hl⟩ | ⟨next, -, -, ha⟩⟩ := chunk_pass_cases hs hm
    · rw [hl] at hp
      cases hp
      exact ⟨ws ++ [w], he ▸ hb.tiling hw hz, hc.snoc w⟩
    · rw [ha] at hp
      cases hp

theorem chunk_section_total (hm : 0 < m) (ht : t.Numbered) :
    ∃ u ws, Tiling m o s.content.length ws ∧ Cut s (t.chunks.map Prod.fst) ws u ∧
      ∀ n, s.content.length < n → Loop.run (chunkPass s m o) n { t with start := 0 } = some u := by
  have hinv : Cut s (t.chunks.map Prod.fst) [] { t with start := 0 } := ⟨by simp, ht⟩
  obtain ⟨u, ⟨ws, hw, hc⟩, hr⟩ := (chunk_pass_rule (t.chunks.map Prod.fst) hm).total
    (s := ({ t with start := 0 } : ChunkState)) ⟨s.content_bounded.1, [], Begun.nil m o, hinv⟩
  exact ⟨u, ws, hw, hc, hr⟩

theorem chunk_loop_total (sections : List DocumentSection) (hm : 0 < m) (ht : t.Numbered) :
    ∃ u windows fuel, List.Forall₂ (fun s ws => Tiling m o s.content.length ws) sections windows ∧
      u.chunks.map Prod.fst = t.chunks.map Prod.fst ++
        ((sections.zip windows).flatMap fun p => p.2.filterMap p.1.chunk?) ∧
      u.Numbered ∧ ∀ n, fuel ≤ n → chunkLoop n m o sections t = some u := by
  induction sections generalizing t with
  | nil => exact ⟨t, [], 0, .nil, by simp, ht, fun _ _ => rfl⟩
  | cons s sections ih =>
    obtain ⟨v, ws, hw, hc, hv⟩ := chunk_section_total (s := s) (o := o) hm ht
    obtain ⟨u, windows, fuel, hws, hu, hn, hr⟩ := ih hc.numbered
    refine ⟨u, ws :: windows, max fuel (s.content.length + 1), .cons hw hws, ?_, hn, ?_⟩
    · rw [hu, hc.chunks, List.zip_cons_cons, List.flatMap_cons, List.append_assoc]
    · intro n hle
      rw [chunkLoop, hv n (by omega), Option.bind_some]
      exact hr n (by omega)

end Loop

/-- The texts that a section gives in some windows: the stripped ones that are not all white
space, each with the section's key, title and locator. -/
def DocumentSection.passages (s : DocumentSection) (ws : List Window) :
    List (String × String × String × String) :=
  (ws.filter fun w => ¬ (w.of s.content.toList).all isSpace).map fun w =>
    (s.sectionKey, s.title, s.sourceLocator, strip (String.ofList (w.of s.content.toList)))

def DocumentSection.fields (s : DocumentSection) : String × String × String × String :=
  (s.sectionKey, s.title, s.sourceLocator, s.content)

theorem passages_eq (s : DocumentSection) (ws : List Window) :
    (ws.filterMap s.chunk?).map DocumentSection.fields = s.passages ws := by
  induction ws with
  | nil => rfl
  | cons w ws ih =>
    rw [DocumentSection.passages] at ih ⊢
    have hp := strip_eq_empty (String.ofList (w.of s.content.toList))
    rw [String.toList_ofList, ← List.all_eq_true] at hp
    by_cases h : s.passage w = ""
    · have hc : s.chunk? w = none := dif_pos h
      rw [List.filterMap_cons_none hc, List.filter_cons_of_neg (by simpa using hp.mp h)]
      exact ih
    · have hc : s.chunk? w = some { s with content := s.passage w, content_bounded := _ } := dif_neg h
      rw [List.filterMap_cons_some hc, List.filter_cons_of_pos (by simpa using fun ha => h (hp.mpr ha)),
        List.map_cons, List.map_cons, ih]
      rfl

/-- For any bounds the code accepts, the chunks come from tilings of the sections. -/
theorem chunks_cover_sections (sections : List DocumentSection) (maxCharacters overlapCharacters : Int)
    (hm : 1 ≤ maxCharacters) (ho : 0 ≤ overlapCharacters) (hom : overlapCharacters < maxCharacters) :
    ∃ chunks fuel,
      (∀ n, fuel ≤ n → chunkSections n sections maxCharacters overlapCharacters = .ok (some chunks)) ∧
      (∃ windows,
        List.Forall₂ (fun s ws => Tiling maxCharacters.toNat overlapCharacters.toNat s.content.length ws)
          sections windows ∧
        chunks.map (fun c => c.1.fields) = (sections.zip windows).flatMap fun p => p.1.passages p.2) ∧
      chunks.map Prod.snd = List.range chunks.length := by
  have ht : (ChunkState.mk 0 [] 0).Numbered := ⟨rfl, rfl⟩
  obtain ⟨u, windows, fuel, hw, hu, hn, hr⟩ := chunk_loop_total sections
    (m := maxCharacters.toNat) (o := overlapCharacters.toNat) (by omega) ht
  refine ⟨u.chunks, fuel, ?_, ⟨windows, hw, ?_⟩, hn.1⟩
  · intro n hle
    rw [chunkSections, if_neg (by omega), hr n hle]
    rfl
  · have hf : u.chunks.map (fun c => c.1.fields) = (u.chunks.map Prod.fst).map DocumentSection.fields := by
      rw [List.map_map]
      rfl
    rw [hf, hu, List.map_nil, List.nil_append, List.map_flatMap]
    simp only [passages_eq]

def grossSection : DocumentSection where
  sectionKey := "m.md#gross"
  title := "Gross"
  sourceLocator := "lines=1-3"
  content := "All sales. Before\nreturns."
  sectionKey_bounded := by decide
  title_bounded := by decide
  sourceLocator_bounded := by decide
  content_bounded := by decide

theorem gross_chunks_cover :
    ∃ chunks fuel, (∀ n, fuel ≤ n → chunkSections n [grossSection] 12 5 = .ok (some chunks)) ∧
      (∃ windows, List.Forall₂ (fun s ws => Tiling 12 5 s.content.length ws) [grossSection] windows ∧
        chunks.map (fun c => c.1.fields) =
          ([grossSection].zip windows).flatMap fun p => p.1.passages p.2) ∧
      chunks.map Prod.snd = List.range chunks.length :=
  chunks_cover_sections [grossSection] 12 5 (by decide) (by decide) (by decide)

end DataCopilot.Retrieval
