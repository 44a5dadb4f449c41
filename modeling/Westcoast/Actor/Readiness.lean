import Mathlib.Data.List.Induction

/-!
# The history of readiness checks

The part of `outcome.go` that keeps the last `readinessHistoryLimit` records: a slice that grows to
the limit and is then written round and round.
-/
namespace Westcoast

open List Nat

def readinessHistoryLimit : ℕ := 256

/-- `readiness` and `readinessCursor` of `outcomeStore`. -/
structure ReadinessHistory (ρ : Type) where
  readiness : List ρ
  cursor : ℕ
  bounded : readiness.length ≤ readinessHistoryLimit
  inside : cursor < readinessHistoryLimit
  growing : readiness.length < readinessHistoryLimit → cursor = 0

namespace ReadinessHistory

variable {ρ : Type}

def new : ReadinessHistory ρ := ⟨[], 0, zero_le _, by decide, fun _ => rfl⟩

def putReadiness (h : ReadinessHistory ρ) (out : ρ) : ReadinessHistory ρ :=
  if hlt : h.readiness.length < readinessHistoryLimit then
    ⟨h.readiness ++ [out], h.cursor, by simpa using succ_le_of_lt hlt, h.inside,
      fun _ => h.growing hlt⟩
  else
    ⟨h.readiness.set h.cursor out, (h.cursor + 1) % readinessHistoryLimit,
      by simpa using h.bounded, mod_lt _ (by decide), by simp [hlt]⟩

def readinessAll (h : ReadinessHistory ρ) : List ρ :=
  if h.readiness.length < readinessHistoryLimit then h.readiness
  else h.readiness.drop h.cursor ++ h.readiness.take h.cursor

/-- The record under the cursor is the oldest; it is replaced, and is the last one then. -/
theorem rotate_set {l : List ρ} {c : ℕ} (hc : c < l.length) (out : ρ) :
    (l.set c out).drop ((c + 1) % l.length) ++ (l.set c out).take ((c + 1) % l.length) =
      (l.drop c ++ l.take c).tail ++ [out] := by
  have hset : l.set c out = l.take c ++ out :: l.drop (c + 1) := by
    rw [set_eq_take_append_cons_drop, if_pos hc]
  have htail : (l.drop c ++ l.take c).tail = l.drop (c + 1) ++ l.take c := by
    rw [drop_eq_getElem_cons hc, cons_append, tail_cons]
  have hlen : (l.take c ++ [out]).length = c + 1 := by
    rw [length_append, length_take, Nat.min_eq_left (Nat.le_of_lt hc), length_singleton]
  rw [htail, hset]
  rcases Nat.lt_or_eq_of_le (Nat.succ_le_of_lt hc) with hlt | hlast
  · rw [mod_eq_of_lt hlt, ← singleton_append, ← append_assoc, drop_left' hlen,
      take_left' hlen, append_assoc]
  · -- the cursor was at the end and goes back to the first slot
    rw [show c + 1 = l.length from hlast, mod_self, drop_length]
    simp

theorem readinessAll_putReadiness (h : ReadinessHistory ρ) (out : ρ) :
    (h.putReadiness out).readinessAll = if h.readiness.length < readinessHistoryLimit
      then h.readinessAll ++ [out] else h.readinessAll.tail ++ [out] := by
  by_cases hlt : h.readiness.length < readinessHistoryLimit
  · simp [putReadiness, readinessAll, hlt, h.growing hlt]
  · have hfull : h.readiness.length = readinessHistoryLimit :=
      Nat.le_antisymm h.bounded (Nat.le_of_not_lt hlt)
    have hrot := rotate_set (hfull ▸ h.inside) out
    rw [hfull] at hrot
    simpa [putReadiness, readinessAll, hlt] using hrot

theorem length_readinessAll (h : ReadinessHistory ρ) :
    h.readinessAll.length = h.readiness.length := by
  unfold readinessAll
  split_ifs
  · rfl
  · rw [length_append, length_drop, length_take]
    omega

/-- **The history is the last records in order**, however many there were. -/
theorem readinessAll_eq_drop (records : List ρ) : (records.foldl putReadiness new).readinessAll =
    records.drop (records.length - readinessHistoryLimit) := by
  -- one more record is appended, and the oldest dropped once the limit is reached
  induction records using reverseRecOn with
  | nil => simp [readinessAll, new]
  | append_singleton records out ih =>
    have hlen := length_readinessAll (records.foldl putReadiness new)
    rw [ih, length_drop] at hlen
    have hle : records.length + 1 - readinessHistoryLimit ≤ records.length :=
      Nat.sub_le_sub_left (by decide : 1 ≤ readinessHistoryLimit) (records.length + 1)
    rw [foldl_append, foldl_cons, foldl_nil, readinessAll_putReadiness, ih, length_append,
      length_singleton, drop_append_of_le_length hle, ← hlen]
    split_ifs with hlt
    · rw [show records.length + 1 - readinessHistoryLimit =
        records.length - readinessHistoryLimit by omega]
    · rw [tail_drop, show records.length - readinessHistoryLimit + 1 =
        records.length + 1 - readinessHistoryLimit by omega]

end ReadinessHistory
end Westcoast
