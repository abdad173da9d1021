import Mathlib.Algebra.Order.Ring.Rat
import Mathlib.Data.Nat.Cast.Order.Ring
import Mathlib.Tactic.Linarith
import DataCopilot.Retrieval.Ranking

/-! `RetrievalCache`: results by tenant, query, revision, mode and limit, each up to a time. -/
namespace DataCopilot.Retrieval

structure CacheKey where
  tenantId : UUID
  query : String
  revision : String
  mode : RetrievalMode
  limit : Nat
deriving DecidableEq

structure CacheEntry where
  result : RetrievalResult
  expiresAt : ℚ

structure RetrievalCache where
  ttlSeconds : Nat := 300
  ttlSeconds_ok : 0 < ttlSeconds := by decide
  entries : CacheKey → Option CacheEntry := fun _ => none

def RetrieveArguments.key (a : RetrieveArguments) (revision : String) : CacheKey :=
  ⟨a.tenantId, a.query, revision, a.mode, a.limit⟩

def RetrievalResult.key (result : RetrievalResult) (tenantId : UUID) (limit : Nat) : CacheKey :=
  ⟨tenantId, result.query, result.corpusRevision, result.mode, limit⟩

def CacheKey.arguments (k : CacheKey) : RetrieveArguments := ⟨k.tenantId, k.query, k.mode, k.limit⟩

namespace RetrievalCache
variable (c : RetrievalCache) (now : ℚ) (key : CacheKey)

def get : RetrievalCache × Option RetrievalResult :=
  match c.entries key with
  | none => (c, none)
  | some entry =>
    if entry.expiresAt ≤ now then ({ c with entries := Function.update c.entries key none }, none)
    else (c, some entry.result)

def put (tenantId : UUID) (result : RetrievalResult) (limit : Nat) : RetrievalCache :=
  { c with entries :=
      Function.update c.entries (result.key tenantId limit) (some ⟨result, now + c.ttlSeconds⟩) }

def invalidateTenant (tenantId : UUID) : RetrievalCache :=
  { c with entries := fun key => if key.tenantId ≠ tenantId then c.entries key else none }

variable {c now key} {k : CacheKey} {e : CacheEntry} {tenantId : UUID} {result : RetrievalResult} {limit : Nat}

/-- What a lookup finds is an entry that has not expired. -/
theorem get_some (h : (c.get now key).2 = some result) :
    ∃ e, c.entries key = some e ∧ now < e.expiresAt ∧ e.result = result := by
  rw [get] at h
  cases hk : c.entries key with
  | none =>
    rw [hk] at h
    cases h
  | some e =>
    rw [hk] at h
    by_cases hle : e.expiresAt ≤ now
    · simp only [hle, if_true] at h
      cases h
    · simp only [hle, if_false] at h
      injection h with h
      exact ⟨e, rfl, lt_of_not_ge hle, h⟩

theorem get_entries (h : (c.get now key).1.entries k = some e) : c.entries k = some e := by
  rw [get] at h
  cases hk : c.entries key with
  | none =>
    rw [hk] at h
    exact h
  | some e' =>
    rw [hk] at h
    by_cases hle : e'.expiresAt ≤ now
    · simp only [hle, if_true] at h
      by_cases he : k = key
      · rw [he, Function.update_self] at h
        cases h
      · rw [Function.update_of_ne he] at h
        exact h
    · simp only [hle, if_false] at h
      exact h

theorem put_entries (h : (c.put now tenantId result limit).entries k = some e) :
    k = result.key tenantId limit ∧ e.result = result ∨ c.entries k = some e := by
  simp only [put] at h
  by_cases hk : k = result.key tenantId limit
  · rw [hk, Function.update_self] at h
    injection h with h
    exact .inl ⟨hk, by rw [← h]⟩
  · rw [Function.update_of_ne hk] at h
    exact .inr h

theorem invalidateTenant_entries (h : (c.invalidateTenant tenantId).entries k = some e) :
    c.entries k = some e := by
  simp only [invalidateTenant] at h
  by_cases hk : k.tenantId ≠ tenantId
  · rw [if_pos hk] at h
    exact h
  · rw [if_neg hk] at h
    cases h

theorem get_put :
    ((c.put now tenantId result limit).get now (result.key tenantId limit)).2 = some result := by
  have hlt : now < now + (c.ttlSeconds : ℚ) := by
    have hpos : (0 : ℚ) < c.ttlSeconds := Nat.cast_pos.mpr c.ttlSeconds_ok
    linarith
  simp only [get, put, Function.update_self, not_le.mpr hlt, if_false]

end RetrievalCache
end DataCopilot.Retrieval
