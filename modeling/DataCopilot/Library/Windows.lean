import Mathlib.Data.List.Chain

/-! Windows of a sequence, laid one after another over its whole length with a bounded overlap, and
the last occurrence of a part inside a window. -/
namespace DataCopilot.Windows
variable {α : Type*}

structure Window where
  start : Nat
  stop : Nat
deriving DecidableEq, Repr

def Window.of (w : Window) (text : List α) : List α := (text.take w.stop).drop w.start

def Window.Sized (size : Nat) (w : Window) : Prop := 0 < w.stop - w.start ∧ w.stop - w.start ≤ size

/-- A window from `next` on starts behind the start of `w`, leaves nothing out and repeats at most
`overlap` positions. -/
def Follows (overlap : Nat) (w : Window) (next : Nat) : Prop :=
  w.start < next ∧ next ≤ w.stop ∧ w.stop - next ≤ overlap

structure Tiling (size overlap length : Nat) (ws : List Window) : Prop where
  first : ws.head?.map Window.start = some 0
  last : ws.getLast?.map Window.stop = some length
  chain : ws.IsChain fun v w => Follows overlap v w.start
  sized : ∀ w ∈ ws, w.Sized size

/-- The windows laid so far, the next one starting at `next`. -/
structure Begun (size overlap next : Nat) (ws : List Window) : Prop where
  first : ∀ w ∈ ws.head?, w.start = 0
  none : ws = [] → next = 0
  chain : ws.IsChain fun v w => Follows overlap v w.start
  sized : ∀ w ∈ ws, w.Sized size
  last : ∀ w ∈ ws.getLast?, Follows overlap w next

theorem Begun.nil (size overlap : Nat) : Begun size overlap 0 [] where
  first := by simp
  none _ := rfl
  chain := List.isChain_nil
  sized := by simp
  last := by simp

section Snoc
variable {size overlap next : Nat} {ws : List Window} {w : Window}

theorem Begun.first_snoc (h : Begun size overlap next ws) (hw : w.start = next) :
    ∀ v ∈ (ws ++ [w]).head?, v.start = 0 := by
  intro v hv
  cases ws with
  | nil =>
    cases hv
    rw [hw, h.none rfl]
  | cons u ws => exact h.first v hv

theorem Begun.chain_snoc (h : Begun size overlap next ws) (hw : w.start = next) :
    (ws ++ [w]).IsChain fun v w => Follows overlap v w.start := by
  apply List.isChain_append.mpr
  refine ⟨h.chain, List.isChain_singleton w, ?_⟩
  intro u hu v hv
  cases hv
  rw [hw]
  exact h.last u hu

theorem Begun.sized_snoc (h : Begun size overlap next ws) (hs : w.Sized size) :
    ∀ v ∈ ws ++ [w], v.Sized size := by
  intro v hv
  cases List.mem_append.mp hv with
  | inl hv => exact h.sized v hv
  | inr hv => exact List.mem_singleton.mp hv ▸ hs

theorem Begun.snoc {after : Nat} (h : Begun size overlap next ws) (hw : w.start = next)
    (hs : w.Sized size) (hf : Follows overlap w after) : Begun size overlap after (ws ++ [w]) where
  first := h.first_snoc hw
  none hn := by simp at hn
  chain := h.chain_snoc hw
  sized := h.sized_snoc hs
  last v hv := by
    rw [List.getLast?_concat] at hv
    cases hv
    exact hf

theorem Begun.tiling (h : Begun size overlap next ws) (hw : w.start = next) (hs : w.Sized size) :
    Tiling size overlap w.stop (ws ++ [w]) where
  first := by
    have hf := h.first_snoc hw
    cases hh : (ws ++ [w]).head? with
    | none => simp at hh
    | some v => rw [Option.map_some, hf v hh]
  last := by rw [List.getLast?_concat, Option.map_some]
  chain := h.chain_snoc hw
  sized := h.sized_snoc hs

end Snoc

variable [DecidableEq α]

/-- The last place below `i`, from `start` on, where `part` stands and ends by `stop`; -1 if there
is none. -/
def rfindBelow (part text : List α) (start stop : Nat) : Nat → Int
  | 0 => -1
  | i + 1 =>
    if start ≤ i ∧ i + part.length ≤ stop ∧ part.isPrefixOf (text.drop i) then i
    else rfindBelow part text start stop i

def rfind (part text : List α) (start stop : Nat) : Int := rfindBelow part text start stop (stop + 1)

theorem rfind_below_le (part text : List α) (start stop n : Nat) :
    rfindBelow part text start stop n = -1 ∨
      rfindBelow part text start stop n + part.length ≤ stop := by
  induction n with
  | zero => exact .inl rfl
  | succ i ih =>
    rw [rfindBelow]
    by_cases h : start ≤ i ∧ i + part.length ≤ stop ∧ part.isPrefixOf (text.drop i)
    · rw [if_pos h]
      right
      omega
    · rw [if_neg h]
      exact ih

theorem rfind_lt {part : List α} (hp : part ≠ []) (text : List α) (start stop : Nat) :
    rfind part text start stop < stop := by
  have hl := List.length_pos_of_ne_nil hp
  have h := rfind_below_le part text start stop (stop + 1)
  rw [rfind]
  omega

end DataCopilot.Windows
