import Mathlib.Data.List.Nodup
import Mathlib.Data.List.Pairwise
import Mathlib.Data.Nat.Find
import Mathlib.Tactic.Common

/-! A script that readers take replies from, one after the other. A reader takes as many as it needs, and the next
one goes on from there. -/
namespace DataCopilot.Script
variable {ρ β : Type*}

/-- The value of a reader, the replies it leaves, and whether it asked for one that was not there. -/
structure Turn (ρ β : Type*) where
  value : β
  rest : List ρ
  dry : Bool

abbrev Reader (ρ β : Type*) := List ρ → Turn ρ β

/-- A reader sees no more of the script than the prefix that it takes, and asks on for what is missing. -/
structure Reads (g : Reader ρ β) : Prop where
  settled : ∀ q, (g q).dry = false →
    ∃ p, q = p ++ (g q).rest ∧ ∀ more, g (p ++ more) = ⟨(g q).value, more, false⟩
  parched : ∀ q, (g q).dry = true →
    (g q).rest = [] ∧ ∀ r more, (g (q ++ r :: more)).rest.length ≤ more.length

theorem Reads.rest_le {g : Reader ρ β} (h : Reads g) (q : List ρ) : (g q).rest.length ≤ q.length := by
  cases hd : (g q).dry with
  | true =>
    rw [(h.parched q hd).1]
    exact Nat.zero_le _
  | false =>
    obtain ⟨p, hp, _⟩ := h.settled q hd
    have hlength := congrArg List.length hp
    rw [List.length_append] at hlength
    omega

/-- What one reader of a script comes to, and the replies that it took. -/
@[ext]
structure Share (ρ β : Type*) where
  value : β
  received : List ρ
deriving DecidableEq, Repr

def share (g : Reader ρ β) (q : List ρ) : Share ρ β := ⟨(g q).value, q.take (q.length - (g q).rest.length)⟩

def play : List (Reader ρ β) → List ρ → List (Share ρ β)
  | [], _ => []
  | g :: later, q => share g q :: play later (g q).rest

theorem share_of_settled {g : Reader ρ β} {v : β} {p more : List ρ} (h : g (p ++ more) = ⟨v, more, false⟩) :
    share g (p ++ more) = ⟨v, p⟩ := by
  rw [share, h, List.length_append, Nat.add_sub_cancel_right, List.take_left]

/-- A reader, and the replies that are meant for it. -/
structure Part (ρ β : Type*) where
  reader : Reader ρ β
  own : List ρ
  reads : Reads reader
  own_ne : own ≠ []

namespace Part

def alone (a : Part ρ β) : Share ρ β := share a.reader a.own

/-- How many replies the reader asks for when it has only its own, the missing one included. -/
def demand (a : Part ρ β) : Nat := a.alone.received.length + if (a.reader a.own).dry then 1 else 0

def script (parts : List (Part ρ β)) : List ρ := parts.flatMap own

variable {a : Part ρ β} {parts : List (Part ρ β)}

theorem demand_of_dry (h : (a.reader a.own).dry = true) : a.demand = a.own.length + 1 ∧ a.alone.received = a.own := by
  have hreceived : a.alone.received = a.own := by
    rw [alone, share, (a.reads.parched a.own h).1, List.length_nil, Nat.sub_zero, List.take_length]
  rw [demand, hreceived, h]
  exact ⟨rfl, rfl⟩

theorem demand_of_settled (h : (a.reader a.own).dry = false) :
    a.demand = a.own.length - (a.reader a.own).rest.length := by
  rw [demand, h, alone, share, List.length_take]
  exact Nat.min_eq_left (Nat.sub_le _ _)

/-- Alone, a reader takes a prefix of what it has, or all of it and would have taken more. -/
theorem demand_cases (a : Part ρ β) :
    (∃ v p rest, a.own = p ++ rest ∧ a.alone = ⟨v, p⟩ ∧ a.demand = p.length ∧
      ∀ more, a.reader (p ++ more) = ⟨v, more, false⟩) ∨
    (a.alone.received = a.own ∧ a.demand = a.own.length + 1 ∧
      ∀ r more, (a.reader (a.own ++ r :: more)).rest.length ≤ more.length) := by
  cases hd : (a.reader a.own).dry with
  | false =>
    obtain ⟨p, hp, hmore⟩ := a.reads.settled a.own hd
    have halone : a.alone = ⟨(a.reader a.own).value, p⟩ := by
      have h := share_of_settled (hmore (a.reader a.own).rest)
      rw [← hp] at h
      exact h
    refine .inl ⟨_, p, _, hp, halone, ?_, hmore⟩
    have hlength := congrArg List.length hp
    rw [List.length_append] at hlength
    rw [demand_of_settled hd]
    omega
  | true =>
    obtain ⟨hdemand, hreceived⟩ := demand_of_dry hd
    exact .inr ⟨hreceived, hdemand, (a.reads.parched a.own hd).2⟩

theorem received_mem {x : ρ} (h : x ∈ a.alone.received) : x ∈ a.own := List.mem_of_mem_take h

theorem received_eq_nil (h : a.alone.received = []) : a.demand = 0 := by
  obtain ⟨v, p, rest, _, halone, hdemand, _⟩ | ⟨hreceived, _, _⟩ := a.demand_cases
  · rw [halone] at h
    have hp : p = [] := h
    rw [hdemand, hp, List.length_nil]
  · exact absurd (hreceived.symm.trans h) a.own_ne

theorem demand_zero (h : a.demand = 0) (q : List ρ) : share a.reader q = a.alone ∧ (a.reader q).rest = q := by
  obtain ⟨v, p, rest, _, halone, hdemand, hmore⟩ | ⟨_, hdemand, _⟩ := a.demand_cases
  · have hp : p = [] := List.eq_nil_of_length_eq_zero (hdemand.symm.trans h)
    subst hp
    exact ⟨(share_of_settled (hmore q)).trans halone.symm, by rw [← List.nil_append q, hmore, List.nil_append]⟩
  · omega

/-- Once a reply is left over that is meant for none of the readers to come, those that need a reply get this one. -/
theorem play_leftover {x : ρ} {q : List ρ} (hx : x ∉ script parts) :
    play (parts.map reader) (x :: q) = parts.map alone ↔ ∀ a ∈ parts, a.demand = 0 := by
  induction parts with
  | nil => simp [play]
  | cons a rest ih =>
    rw [script, List.flatMap_cons, List.mem_append, not_or] at hx
    rw [List.map_cons, List.map_cons, play, List.cons.injEq, List.forall_mem_cons]
    by_cases hdemand : a.demand = 0
    · obtain ⟨hshare, hrest⟩ := demand_zero hdemand (x :: q)
      rw [hrest, ih hx.2]
      exact and_congr (iff_of_true hshare hdemand) Iff.rfl
    · refine iff_of_false ?_ fun h => hdemand h.1
      rintro ⟨hshare, _⟩
      have hreceived := congrArg Share.received hshare
      cases htaken : a.alone.received with
      | nil => exact hdemand (received_eq_nil htaken)
      | cons y taken =>
        rw [htaken, share] at hreceived
        have hy : y = x := by
          cases hn : (x :: q).length - (a.reader (x :: q)).rest.length with
          | zero =>
            rw [hn] at hreceived
            cases hreceived
          | succ n =>
            rw [hn, List.take_succ_cons, List.cons.injEq] at hreceived
            exact hreceived.1.symm
        refine hx.1 (received_mem (a := a) ?_)
        rw [htaken, hy]
        exact List.mem_cons_self

/-- One reader asks for as many replies as it owns, or it leaves some and the other needs none. -/
def Apart (a b : Part ρ β) : Prop := a.demand = a.own.length ∨ (a.demand < a.own.length ∧ b.demand = 0)

/-- All readers come to what they come to alone exactly if the script is never out of step where one is read. -/
theorem play_alone_iff (hnodup : (script parts).Nodup) :
    play (parts.map reader) (script parts) = parts.map alone ↔ parts.Pairwise Apart := by
  induction parts with
  | nil => simp [play]
  | cons a rest ih =>
    rw [script, List.flatMap_cons, List.nodup_append'] at hnodup
    obtain ⟨_, hrest, hdisjoint⟩ := hnodup
    rw [script, List.flatMap_cons, List.map_cons, List.map_cons, play, List.cons.injEq, List.pairwise_cons]
    change _ ∧ _ = _ ↔ _
    obtain ⟨v, p, left, hown, halone, hdemand, hmore⟩ | ⟨hreceived, hdemand, hmore⟩ := a.demand_cases
    · have hread : a.reader (a.own ++ script rest) = ⟨v, left ++ script rest, false⟩ := by
        rw [hown, List.append_assoc]
        exact hmore _
      have hshare : share a.reader (a.own ++ script rest) = a.alone := by
        rw [halone, hown, List.append_assoc]
        exact share_of_settled (hmore _)
      change share a.reader (a.own ++ script rest) = _ ∧
        play _ (a.reader (a.own ++ script rest)).rest = _ ↔ _
      rw [hread, and_iff_right hshare]
      cases left with
      | nil =>
        have hall : a.demand = a.own.length := by rw [hdemand, hown, List.append_nil]
        rw [List.nil_append, ih hrest, and_iff_right fun b _ => .inl hall]
      | cons x left =>
        have hfewer : a.demand < a.own.length := by
          rw [hdemand, hown, List.length_append, List.length_cons]
          omega
        have hx : x ∉ script rest := by
          refine fun h => hdisjoint ?_ h
          rw [hown]
          exact List.mem_append_right p List.mem_cons_self
        rw [List.cons_append, play_leftover hx]
        constructor
        · intro h
          refine ⟨fun b hb => .inr ⟨hfewer, h b hb⟩, ?_⟩
          refine List.Pairwise.imp_of_mem ?_ (List.pairwise_of_forall fun _ _ => trivial)
          intro b c hb hc _
          refine .inr ⟨?_, h c hc⟩
          rw [h b hb]
          exact List.length_pos_iff.mpr b.own_ne
        · rintro ⟨h, _⟩ b hb
          obtain hall | ⟨_, hnone⟩ := h b hb
          · omega
          · exact hnone
    · cases rest with
      | nil =>
        change share a.reader (a.own ++ []) = _ ∧ _ ↔ _
        rw [List.append_nil]
        exact iff_of_true ⟨rfl, rfl⟩ ⟨by simp, List.Pairwise.nil⟩
      | cons b rest =>
        refine iff_of_false ?_ ?_
        · rintro ⟨hshare, _⟩
          have htaken := congrArg (fun s : Share ρ β => s.received.length) hshare
          cases hown : b.own with
          | nil => exact b.own_ne hown
          | cons y own =>
            have hfew := hmore y (own ++ script rest)
            simp only [share, hreceived, List.length_take, List.length_append, List.flatMap_cons, hown,
              List.cons_append, List.length_cons] at htaken
            rw [script, List.length_append] at hfew
            omega
        · rintro ⟨h, _⟩
          obtain hall | ⟨hfewer, _⟩ := h b List.mem_cons_self
          · omega
          · omega

end Part

/-! A reader that puts questions, each of which reads a reply or several, and may stop after any of them. -/

/-- An interview by the answers to its questions. It depends on no answer but to those it asked. -/
structure Interview (β : Nat → Type*) (γ : Type*) where
  outcome : (∀ j, β j) → γ
  asked : (∀ j, β j) → Nat
  congr : ∀ a a', (∀ j < asked a, a j = a' j) → outcome a = outcome a' ∧ asked a = asked a'

section Rounds
variable {β : Nat → Type*} {γ : Type*} (rounds : ∀ j, Reader ρ (β j)) (q : List ρ)

/-- What is left of the script in front of a question. -/
def before : Nat → List ρ
  | 0 => q
  | j + 1 => (rounds j (before j)).rest

def answer (j : Nat) : β j := (rounds j (before rounds q j)).value

def Interview.reader (I : Interview β γ) : Reader ρ γ := fun q =>
  ⟨I.outcome (answer rounds q), before rounds q (I.asked (answer rounds q)),
    (List.range (I.asked (answer rounds q))).any fun j => (rounds j (before rounds q j)).dry⟩

variable {rounds q} (hreads : ∀ j, Reads (rounds j))
include hreads

/-- The questions so far have read a prefix, and had the same answers with anything behind it. -/
theorem before_settled {n : Nat} (hn : ∀ j < n, (rounds j (before rounds q j)).dry = false) :
    ∃ p, q = p ++ before rounds q n ∧ ∀ more, before rounds (p ++ more) n = more ∧
      ∀ j < n, answer rounds (p ++ more) j = answer rounds q j ∧
        (rounds j (before rounds (p ++ more) j)).dry = false := by
  induction n with
  | zero => exact ⟨[], rfl, fun more => ⟨rfl, fun j hj => absurd hj (Nat.not_lt_zero j)⟩⟩
  | succ n ih =>
    obtain ⟨p, hp, hsame⟩ := ih fun j hj => hn j (Nat.lt_succ_of_lt hj)
    obtain ⟨s, hs, hmore⟩ := (hreads n).settled _ (hn n (Nat.lt_succ_self n))
    refine ⟨p ++ s, ?_, ?_⟩
    · rw [List.append_assoc, before, ← hs]
      exact hp
    · intro more
      obtain ⟨hbefore, hanswers⟩ := hsame (s ++ more)
      rw [← List.append_assoc] at hbefore hanswers
      have hround : rounds n (before rounds (p ++ s ++ more) n) = ⟨answer rounds q n, more, false⟩ := by
        rw [hbefore]
        exact hmore more
      refine ⟨congrArg Turn.rest hround, fun j hj => ?_⟩
      obtain hlt | rfl := Nat.lt_succ_iff_lt_or_eq.mp hj
      · exact hanswers j hlt
      · rw [answer, hround]
        exact ⟨rfl, rfl⟩

theorem before_le {m n : Nat} (h : m ≤ n) : (before rounds q n).length ≤ (before rounds q m).length := by
  induction n, h using Nat.le_induction with
  | base => exact Nat.le_refl _
  | succ n _ ih => exact Nat.le_trans ((hreads n).rest_le _) ih

theorem Interview.reads (I : Interview β γ) : Reads (I.reader rounds) := by
  constructor
  · intro q hdry
    have hn : ∀ j < I.asked (answer rounds q), (rounds j (before rounds q j)).dry = false := by
      simpa [Interview.reader] using hdry
    obtain ⟨p, hp, hsame⟩ := before_settled hreads hn
    refine ⟨p, hp, fun more => ?_⟩
    obtain ⟨hbefore, hanswers⟩ := hsame more
    obtain ⟨houtcome, hasked⟩ := I.congr _ _ fun j hj => (hanswers j hj).1.symm
    have hnone : ((List.range (I.asked (answer rounds q))).any fun j =>
        (rounds j (before rounds (p ++ more) j)).dry) = false := by
      simpa using fun j hj => (hanswers j hj).2
    rw [reader, ← houtcome, ← hasked, hbefore, hnone]
    rfl
  · intro q hdry
    have hsome : ∃ j, j < I.asked (answer rounds q) ∧ (rounds j (before rounds q j)).dry = true := by
      simpa [Interview.reader] using hdry
    -- The first question without a reply.
    obtain ⟨hlt, hj⟩ := Nat.find_spec hsome
    have hbeforehand : ∀ i < Nat.find hsome, (rounds i (before rounds q i)).dry = false := by
      intro i hi
      have hnot := Nat.find_min hsome hi
      rw [not_and, Bool.not_eq_true] at hnot
      exact hnot (Nat.lt_trans hi hlt)
    generalize Nat.find hsome = j at hlt hj hbeforehand
    obtain ⟨hempty, hon⟩ := (hreads j).parched _ hj
    constructor
    · have hle := before_le (q := q) hreads (Nat.succ_le_of_lt hlt)
      rw [Nat.succ_eq_add_one, before, hempty] at hle
      exact List.eq_nil_of_length_eq_zero (Nat.le_zero.mp hle)
    · intro r more
      obtain ⟨p, hp, hsame⟩ := before_settled hreads hbeforehand
      have hsplit : q ++ r :: more = p ++ (before rounds q j ++ r :: more) := by
        rw [← List.append_assoc, ← hp]
      obtain ⟨hbefore, hanswers⟩ := hsame (before rounds q j ++ r :: more)
      rw [← hsplit] at hbefore hanswers
      have hmore : j < I.asked (answer rounds (q ++ r :: more)) := by
        by_contra hle
        have hfewer : ∀ i < I.asked (answer rounds (q ++ r :: more)),
            answer rounds (q ++ r :: more) i = answer rounds q i :=
          fun i hi => (hanswers i (Nat.lt_of_lt_of_le hi (Nat.le_of_not_lt hle))).1
        have hasked := (I.congr _ _ hfewer).2
        omega
      refine Nat.le_trans (before_le hreads (Nat.succ_le_of_lt hmore)) ?_
      rw [Nat.succ_eq_add_one, before, hbefore]
      exact hon r more

/-! The demand of a reader that interviews, by its questions. -/
section Demand
variable {I : Interview β γ} {a : Part ρ γ} (ha : a.reader = I.reader rounds)
include ha
omit hreads

theorem Interview.demand_of_dry {j : Nat} (hlt : j < I.asked (answer rounds a.own))
    (hdry : (rounds j (before rounds a.own j)).dry = true) : a.demand = a.own.length + 1 := by
  refine (Part.demand_of_dry ?_).1
  rw [ha, reader, List.any_eq_true]
  exact ⟨j, List.mem_range.mpr hlt, hdry⟩

theorem Interview.demand_of_settled {n : Nat} (hn : I.asked (answer rounds a.own) = n)
    (hdry : ∀ j < n, (rounds j (before rounds a.own j)).dry = false) :
    a.demand = a.own.length - (before rounds a.own n).length := by
  subst hn
  have hsettled : (a.reader a.own).dry = false := by
    rw [ha, reader, List.any_eq_false]
    intro j hj
    rw [hdry j (List.mem_range.mp hj)]
    exact Bool.false_ne_true
  rw [Part.demand_of_settled hsettled, ha, reader]

end Demand
end Rounds
end DataCopilot.Script
