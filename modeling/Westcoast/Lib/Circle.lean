import Mathlib.Data.Nat.Basic
import Mathlib.Order.Basic
import Mathlib.Tactic.Common

/-!
# Places on a circle, and the nearest of a list

`clockwise n a b` is the way from `a` to `b` on a circle of `n` places, going up. A circle whose
places lie in order on a larger circle has its steps there too. `nearer` is the body of a loop that
looks for the least cost.
-/
namespace Westcoast.Lib

open List

/-- The clockwise distance from `a` to `b` on a circle of `n` places. -/
def clockwise (n a b : ℕ) : ℕ := if b < a then b + n - a else b - a

section Clockwise
variable {n a b d : ℕ}

section
variable (ha : a < n)
include ha

theorem clockwise_lt (hb : b < n) : clockwise n a b < n := by
  simp only [clockwise]
  split_ifs <;> omega

theorem clockwise_eq_zero_iff : clockwise n a b = 0 ↔ a = b := by
  simp only [clockwise]
  split_ifs <;> omega

theorem add_mod_of_lt (hd : d < n) : (a + d) % n = if a + d < n then a + d else a + d - n := by
  split_ifs with h
  · exact Nat.mod_eq_of_lt h
  · rw [Nat.mod_eq_sub_mod (by omega), Nat.mod_eq_of_lt (by omega)]

/-- The distance is the length of the step that gets there. -/
theorem add_clockwise_mod (hb : b < n) : (a + clockwise n a b) % n = b := by
  rw [add_mod_of_lt ha (clockwise_lt ha hb)]
  simp only [clockwise]
  split_ifs <;> omega

theorem clockwise_add_mod (hd : d < n) : clockwise n a ((a + d) % n) = d := by
  rw [add_mod_of_lt ha hd]
  simp only [clockwise]
  split_ifs <;> omega

theorem clockwise_of_step (hb : b < n) (hd : d ≤ clockwise n a b) :
    clockwise n ((a + d) % n) b = clockwise n a b - d := by
  rw [add_mod_of_lt ha (hd.trans_lt (clockwise_lt ha hb))]
  simp only [clockwise] at hd ⊢
  split_ifs at hd ⊢ <;> omega

theorem clockwise_lt_of_overshoot (hd : d < n) (hover : clockwise n a b < d) :
    clockwise n a b < clockwise n ((a + d) % n) b := by
  rw [add_mod_of_lt ha hd]
  simp only [clockwise] at hover ⊢
  split_ifs at hover ⊢ <;> omega

end

/-- **Steps seen on a larger circle**, where the places lie in their order: a step that does not
overshoot gets nearer. -/
theorem clockwise_map_lt {m : ℕ} {f : ℕ → ℕ} (hf : ∀ i j, i < j → j < n → f i < f j)
    (hm : ∀ i < n, f i < m) (ha : a < n) (hb : b < n) (hpos : 0 < d) (hd : d ≤ clockwise n a b) :
    clockwise m (f ((a + d) % n)) (f b) < clockwise m (f a) (f b) := by
  have hmono : ∀ i j, i ≤ j → j < n → f i ≤ f j := by
    intro i j hij hj
    rcases hij.eq_or_lt with rfl | hlt
    · exact le_refl _
    · exact (hf i j hlt hj).le
  have hfa := hm a ha
  have hfb := hm b hb
  rw [add_mod_of_lt ha (hd.trans_lt (clockwise_lt ha hb))]
  by_cases hwrap : b < a
  · have hba := hf b a hwrap ha
    simp only [clockwise, if_pos hwrap] at hd
    -- the way to `b` wraps; the step stays before the wrap or goes beyond it
    by_cases hstep : a + d < n
    · have hup := hf a (a + d) (by omega) hstep
      have htop := hm (a + d) hstep
      rw [if_pos hstep]
      simp only [clockwise]
      split_ifs <;> omega
    · have hup := hmono (a + d - n) b (by omega) hb
      rw [if_neg hstep]
      simp only [clockwise]
      split_ifs <;> omega
  · simp only [clockwise, if_neg hwrap] at hd
    have hup := hf a (a + d) (by omega) (by omega)
    have hupto := hmono (a + d) b (by omega) hb
    rw [if_pos (by omega)]
    simp only [clockwise]
    split_ifs <;> omega

end Clockwise

section Nearer
variable {α : Type} (cost : α → ℕ)

/-- Keep the cheaper of the best so far and the next candidate. -/
def nearer (best : α × ℕ) (a : α) : α × ℕ :=
  if cost a < best.2 then (a, cost a) else best

/-- What the loop ends with: nothing was cheaper than the start, or it is a candidate of
least cost. -/
theorem foldl_nearer (l : List α) (init : α × ℕ) :
    (l.foldl (nearer cost) init = init ∧ ∀ a ∈ l, init.2 ≤ cost a) ∨
      ∃ a ∈ l, l.foldl (nearer cost) init = (a, cost a) ∧ cost a < init.2 ∧
        ∀ b ∈ l, cost a ≤ cost b := by
  induction l generalizing init with
  | nil => exact .inl ⟨rfl, by simp⟩
  | cons x xs ih =>
    rw [foldl_cons]
    by_cases hx : cost x < init.2
    · have hstep : nearer cost init x = (x, cost x) := if_pos hx
      rw [hstep]
      right
      rcases ih (x, cost x) with ⟨hsame, hmin⟩ | ⟨a, ha, hres, hlt, hmin⟩
      · exact ⟨x, mem_cons_self, hsame, hx, forall_mem_cons.mpr ⟨le_refl _, hmin⟩⟩
      · exact ⟨a, mem_cons_of_mem x ha, hres, hlt.trans hx,
          forall_mem_cons.mpr ⟨hlt.le, hmin⟩⟩
    · have hstep : nearer cost init x = init := if_neg hx
      rw [hstep]
      rcases ih init with ⟨hsame, hmin⟩ | ⟨a, ha, hres, hlt, hmin⟩
      · exact .inl ⟨hsame, forall_mem_cons.mpr ⟨not_lt.mp hx, hmin⟩⟩
      · exact .inr ⟨a, mem_cons_of_mem x ha, hres, hlt,
          forall_mem_cons.mpr ⟨(hlt.trans_le (not_lt.mp hx)).le, hmin⟩⟩

end Nearer

section Paths
variable {α : Type} {next : α → Option α} {P : α → Prop} {μ : α → ℕ}
  (hstep : ∀ a b, P a → next a = some b → P b ∧ μ b < μ a)
include hstep

variable {a : α} {path : List α}

theorem lt_of_isChain (ha : P a) (h : (a :: path).IsChain fun x y => next x = some y) :
    (∀ b ∈ path, μ b < μ a) ∧ (a :: path).Nodup := by
  induction path generalizing a with
  | nil => simp
  | cons b rest ih =>
    obtain ⟨hab, hrest⟩ := isChain_cons_cons.mp h
    obtain ⟨hb, hlt⟩ := hstep a b ha hab
    obtain ⟨hbelow, hnodup⟩ := ih hb hrest
    have hall : ∀ c ∈ b :: rest, μ c < μ a :=
      forall_mem_cons.mpr ⟨hlt, fun c hc => (hbelow c hc).trans hlt⟩
    refine ⟨hall, nodup_cons.mpr ⟨?_, hnodup⟩⟩
    intro hmem
    exact lt_irrefl _ (hall a hmem)

/-- A path that always gets nearer visits no place twice. -/
theorem nodup_of_isChain (h : path.IsChain fun x y => next x = some y) (ha : P a)
    (hhead : path.head? = some a) : path.Nodup := by
  cases path with
  | nil => exact nodup_nil
  | cons b rest =>
    cases hhead
    exact (lt_of_isChain hstep ha h).2

/-- It comes to an end. -/
theorem exists_isChain_end (ha : P a) :
    ∃ path : List α, (path.IsChain fun x y => next x = some y) ∧ path.head? = some a ∧
      ∃ last, path.getLast? = some last ∧ next last = none := by
  induction hn : μ a using Nat.strong_induction_on generalizing a with
  | _ n ih =>
    cases hnext : next a with
    | none => exact ⟨[a], .singleton a, rfl, a, rfl, hnext⟩
    | some b =>
      obtain ⟨hb, hlt⟩ := hstep a b ha hnext
      obtain ⟨path, hchain, hhead, last, hlast, hend⟩ := ih (μ b) (hn ▸ hlt) hb rfl
      cases path with
      | nil => cases hhead
      | cons c rest =>
        cases hhead
        refine ⟨a :: b :: rest, isChain_cons_cons.mpr ⟨hnext, hchain⟩, rfl, last, ?_, hend⟩
        rw [getLast?_cons_cons]
        exact hlast

end Paths
end Westcoast.Lib
