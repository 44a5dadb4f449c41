import Mathlib.Data.List.Basic
import Mathlib.Order.Nat

/-!
# Slices over a reusable backing array

A slice sees the first `len` cells of a backing array it owns. Appending below the capacity
overwrites a hidden cell, and at the capacity it moves the visible cells to a larger array. `toList`
is the visible content; no lemma mentions a hidden cell.
-/
namespace Westcoast.Lib

open List Nat

universe u
variable {α : Type u}

/-- A backing array with a visible prefix of `len` cells. -/
structure Slice (α : Type u) where
  cells : List α
  len : ℕ
  len_le : len ≤ cells.length

namespace Slice

def toList (s : Slice α) : List α := s.cells.take s.len

variable (s : Slice α)

@[simp] theorem length_toList : s.toList.length = s.len := by
  simp [toList, s.len_le]

/-- `make([]T, 0, cap)`: no visible cell, `cap` reserved ones. -/
def make (zero : α) (cap : ℕ) : Slice α := ⟨List.replicate cap zero, 0, zero_le _⟩

variable (zero : α)

@[simp] theorem toList_make (cap : ℕ) : (make zero cap).toList = [] := rfl

@[simp] theorem len_make (cap : ℕ) : (make zero cap).len = 0 := rfl

/-- The capacity of a full slice that grows: doubling below 256 cells, then a quarter more plus 192.
-/
def growCap (cap : ℕ) : ℕ :=
  if cap = 0 then 1 else if cap < 256 then 2 * cap else cap + (cap + 768) / 4

/-- `append(s, a)`: in place when a hidden cell is left, else in a larger array. -/
def append (zero : α) (s : Slice α) (a : α) : Slice α :=
  if h : s.len < s.cells.length then
    ⟨s.cells.set s.len a, s.len + 1, by simpa using succ_le_of_lt h⟩
  else
    ⟨s.cells ++ a :: List.replicate (growCap s.cells.length - s.cells.length - 1) zero,
      s.len + 1, by have := s.len_le; simp only [length_append, length_cons]; omega⟩

@[simp] theorem len_append (s : Slice α) (a : α) : (s.append zero a).len = s.len + 1 := by
  unfold append
  split <;> rfl

@[simp] theorem toList_append (s : Slice α) (a : α) :
    (s.append zero a).toList = s.toList ++ [a] := by
  unfold append
  split
  case isTrue h =>
    simp only [toList]
    rw [take_add_one, take_set_of_le (le_refl s.len)]
    simp [h]
  case isFalse h =>
    have hfull : s.len = s.cells.length := le_antisymm s.len_le (not_lt.mp h)
    simp [toList, hfull, take_append, take_of_length_le]

/-- `s[i] = a` for a visible index; other indices are left to the caller's bound. -/
def set (s : Slice α) (i : ℕ) (a : α) : Slice α :=
  ⟨s.cells.set i a, s.len, by simpa using s.len_le⟩

@[simp] theorem len_set (i : ℕ) (a : α) : (s.set i a).len = s.len := rfl

@[simp] theorem toList_set (i : ℕ) (a : α) : (s.set i a).toList = s.toList.set i a := by
  simp [set, toList, take_set]

/-- The loop `for i := 0; i < n; i++ { s[from+i] = zero }`. -/
def clear (zero : α) (s : Slice α) (start : ℕ) : ℕ → Slice α
  | 0 => s
  | n + 1 => (clear zero s start n).set (start + n) zero

@[simp] theorem len_clear (s : Slice α) (start n : ℕ) : (s.clear zero start n).len = s.len := by
  induction n with
  | zero => rfl
  | succ n ih => simpa [clear] using ih

theorem drop_toList_clear (s : Slice α) (start n : ℕ) :
    (s.clear zero start n).toList.drop (start + n) = s.toList.drop (start + n) := by
  have key : ∀ k m, m ≤ k → (s.clear zero start m).toList.drop (start + k) =
      s.toList.drop (start + k) := by
    intro k m
    induction m with
    | zero => intro _; rfl
    | succ m ih =>
      intro hm
      rw [clear, toList_set, drop_set_of_lt (by omega)]
      exact ih (by omega)
  exact key n n le_rfl

/-- `s[:n]` for a length within the visible part. -/
def reslice (s : Slice α) (n : ℕ) (h : n ≤ s.len) : Slice α :=
  ⟨s.cells, n, h.trans s.len_le⟩

@[simp] theorem len_reslice (n : ℕ) (h : n ≤ s.len) : (s.reslice n h).len = n := rfl

@[simp] theorem toList_reslice (n : ℕ) (h : n ≤ s.len) :
    (s.reslice n h).toList = s.toList.take n := by
  simp [reslice, toList, take_take, min_eq_left h]

/-- `copy(s[:len(s)-from], s[from:])`: slide the visible tail to the front; the cells behind it
stay. -/
def slide (s : Slice α) (start : ℕ) : Slice α :=
  ⟨s.toList.drop start ++ s.cells.drop (s.len - start), s.len, by
    have := s.len_le
    simp; omega⟩

@[simp] theorem len_slide (start : ℕ) : (s.slide start).len = s.len := rfl

/-- After the slide, the block that was at `start` is at the front. -/
theorem take_toList_slide (start : ℕ) :
    (s.slide start).toList.take (s.len - start) = s.toList.drop start := by
  have hlen : (s.toList.drop start).length = s.len - start := by simp
  have hle : s.len - start ≤ s.len := sub_le _ _
  change ((s.toList.drop start ++ s.cells.drop (s.len - start)).take s.len).take _ = _
  rw [take_take, min_eq_left hle, ← hlen, take_left]

end Slice

end Westcoast.Lib
