import Mathlib.Tactic.Common

/-!
# Counting the changes of a sequence

`changes f n` counts the steps up to `n` at which a sequence takes another value. Two places with
the same count lie in a stretch where nothing changed.
-/
namespace Westcoast.Lib

variable {α : Type} [DecidableEq α]

/-- How often the sequence has changed up to `n`. -/
def changes (f : ℕ → α) : ℕ → ℕ
  | 0 => 0
  | n + 1 => changes f n + if f (n + 1) = f n then 0 else 1

theorem changes_le_add (f : ℕ → α) (m k : ℕ) : changes f m ≤ changes f (m + k) := by
  induction k with
  | zero => exact Nat.le_refl _
  | succ k ih => exact Nat.le_trans ih (Nat.le_add_right _ _)

/-- Nothing changed between two places with the same count. -/
theorem eq_of_changes_eq {f : ℕ → α} {m n : ℕ} (h : changes f m = changes f n) : f m = f n := by
  have hstretch : ∀ m k, changes f m = changes f (m + k) → f m = f (m + k) := by
    intro m k
    induction k with
    | zero => exact fun _ => rfl
    | succ k ih =>
      intro hk
      have hle := changes_le_add f m k
      have hstep : changes f (m + k + 1) =
          changes f (m + k) + if f (m + k + 1) = f (m + k) then 0 else 1 := rfl
      rw [← Nat.add_assoc] at hk ⊢
      split_ifs at hstep with heq
      · rw [heq]
        exact ih (by omega)
      · omega
  rcases Nat.le_total m n with hmn | hnm
  · obtain ⟨k, rfl⟩ := Nat.exists_eq_add_of_le hmn
    exact hstretch m k h
  · obtain ⟨k, rfl⟩ := Nat.exists_eq_add_of_le hnm
    exact (hstretch n k h.symm).symm

/-- The count depends on the sequence up to there only. -/
theorem changes_congr {f g : ℕ → α} {n : ℕ} (h : ∀ k ≤ n, f k = g k) :
    changes f n = changes g n := by
  induction n with
  | zero => rfl
  | succ n ih =>
    rw [changes, changes, ih fun k hk => h k (by omega), h n (by omega), h (n + 1) (Nat.le_refl _)]

end Westcoast.Lib
