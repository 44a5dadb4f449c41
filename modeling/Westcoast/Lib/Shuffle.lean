import Mathlib.Data.List.Nodup

/-!
# Shuffling

The Fisher-Yates shuffle with its random draws as an argument, and what is left out when only
the first entries of a shuffled list are taken.
-/
namespace Westcoast.Lib

variable {α : Type}

/-- The shuffle from an index down: each entry `i` changes places with a drawn one; draws are taken
below `i + 1`. -/
def shuffleFrom (draw : ℕ → ℕ) : ℕ → Array α → Array α
  | 0, xs => xs
  | i + 1, xs => shuffleFrom draw i (xs.swapIfInBounds (i + 1) (draw (i + 1) % (i + 2)))

def shuffle (draw : ℕ → ℕ) (xs : List α) : List α :=
  (shuffleFrom draw (xs.length - 1) xs.toArray).toList

theorem swapIfInBounds_perm (xs : Array α) (i j : ℕ) : (xs.swapIfInBounds i j).Perm xs := by
  unfold Array.swapIfInBounds
  split_ifs with hi hj
  · exact Array.swap_perm hi hj
  · exact .rfl
  · exact .rfl

theorem shuffleFrom_perm (draw : ℕ → ℕ) (i : ℕ) (xs : Array α) :
    (shuffleFrom draw i xs).Perm xs := by
  induction i generalizing xs with
  | zero => exact .rfl
  | succ i ih => exact (ih _).trans (swapIfInBounds_perm xs _ _)

theorem shuffle_perm (draw : ℕ → ℕ) (xs : List α) : (shuffle draw xs).Perm xs :=
  Array.perm_iff_toList_perm.mp (shuffleFrom_perm draw _ xs.toArray)

/-- Of distinct entries, the first `n` in any order leave one out if there are more. -/
theorem exists_mem_not_mem_take {xs ys : List α} (hperm : ys.Perm xs) (hnodup : xs.Nodup) {n : ℕ}
    (hlt : n < xs.length) : ∃ x ∈ xs, x ∉ ys.take n := by
  have hn : n < ys.length := by rwa [hperm.length_eq]
  refine ⟨ys[n], hperm.subset (List.getElem_mem hn), fun hmem => ?_⟩
  have hdrop : ys[n] ∈ ys.drop n := by
    rw [List.drop_eq_getElem_cons hn]
    exact List.mem_cons_self
  exact List.disjoint_take_drop (hperm.nodup_iff.mpr hnodup) (Nat.le_refl n) hmem hdrop

end Westcoast.Lib
