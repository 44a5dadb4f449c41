import Mathlib.Algebra.Order.Floor.Div
import Mathlib.Data.Int.CardIntervalMod

/-!
# Taking turns

A counter goes round a list. As many consecutive values as the list is long meet every element as
often as it is in the list (`perm_turns`), and the first `m` values are spread evenly
(`count_turns`).
-/
namespace Westcoast.Lib

open List Option Nat

variable {α : Type}

/-- The element whose turn it is at the counter value `t`; `d` in an empty list. -/
def turn (l : List α) (d : α) (t : ℕ) : α := l.getD (t % l.length) d

variable {l : List α}

theorem getElem?_turn (hl : l ≠ []) (d : α) (t : ℕ) : l[t % l.length]? = some (turn l d t) := by
  have hlt : t % l.length < l.length := mod_lt t (length_pos_iff.mpr hl)
  rw [turn, getD_eq_getElem?_getD, getElem?_eq_getElem hlt, getD_some]

/-- The element for an empty list plays no role in another one. -/
theorem turn_congr (hl : l ≠ []) (d d' : α) (t : ℕ) : turn l d t = turn l d' t := by
  apply some.inj
  rw [← getElem?_turn hl, ← getElem?_turn hl]

theorem turn_mem (hl : l ≠ []) (d : α) (t : ℕ) : turn l d t ∈ l :=
  mem_of_getElem? (getElem?_turn hl d t)

/-- One round from `k` on is the list, rotated. -/
theorem map_turn_range' (hl : l ≠ []) (d : α) (k : ℕ) :
    (List.range' k l.length).map (turn l d) = l.rotate k := by
  apply ext_getElem
  · simp
  · intro i hi hi'
    have hlt : i < l.length := by simpa using hi
    rw [getElem_map, getElem_range', one_mul]
    apply some.inj
    rw [← getElem?_turn hl, ← getElem?_eq_getElem, getElem?_rotate hlt, add_comm]

theorem perm_turns (hl : l ≠ []) (d : α) {k : ℕ} {ts : List ℕ}
    (hts : ts.Perm (List.range' k l.length)) : (ts.map (turn l d)).Perm l := by
  have hround := hts.map (turn l d)
  rw [map_turn_range' hl] at hround
  exact hround.trans (rotate_perm l k)

variable [DecidableEq α]

variable {w : α}

/-- It is the turn of an element where the counter is its index modulo the length. -/
theorem turn_eq_iff (hnodup : l.Nodup) (hw : w ∈ l) (d : α) (t : ℕ) :
    turn l d t = w ↔ t ≡ l.idxOf w [MOD l.length] := by
  have hlt : l.idxOf w < l.length := idxOf_lt_length_iff.mpr hw
  have hget : l[l.idxOf w]? = some w := by
    rw [getElem?_eq_getElem hlt, getElem_idxOf]
  have hturn := getElem?_turn (ne_nil_of_mem hw) d t
  rw [Nat.ModEq, mod_eq_of_lt hlt]
  constructor
  · rintro rfl
    exact ((getElem?_inj hlt hnodup).mp (hget.trans hturn.symm)).symm
  · intro h
    rw [h, hget] at hturn
    exact (some.inj hturn).symm

/-- How often it was the turn of an element in the first `m` ones. -/
theorem count_turns (hnodup : l.Nodup) (hw : w ∈ l) (d : α) (m : ℕ) :
    ((List.range m).map (turn l d)).count w =
      m / l.length + if l.idxOf w < m % l.length then 1 else 0 := by
  have hlt : l.idxOf w < l.length := idxOf_lt_length_iff.mpr hw
  have hcount : ((List.range m).map (turn l d)).count w =
      m.count (· ≡ l.idxOf w [MOD l.length]) := by
    rw [List.count, countP_map, Nat.count]
    refine countP_congr fun t _ => ?_
    simp [turn_eq_iff hnodup hw]
  rw [hcount, count_modEq_card m (zero_lt_of_lt hlt), mod_eq_of_lt hlt]

theorem count_turns_floor_or_ceil (hnodup : l.Nodup) (hw : w ∈ l) (d : α) (m : ℕ) :
    ((List.range m).map (turn l d)).count w = m / l.length ∨
      ((List.range m).map (turn l d)).count w = m ⌈/⌉ l.length := by
  have hpos : 0 < l.length := length_pos_of_mem hw
  rw [count_turns hnodup hw]
  split_ifs with hidx
  · right
    have hdiv := div_add_mod m l.length
    rw [ceilDiv_eq_add_pred_div]
    symm
    apply Nat.div_eq_of_lt_le
    · rw [Nat.add_mul, Nat.mul_comm]
      omega
    · have hmod := mod_lt m hpos
      rw [add_mul, add_mul, mul_comm]
      omega
  · exact .inl (add_zero _)

end Westcoast.Lib
