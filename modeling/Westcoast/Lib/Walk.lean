import Mathlib.Data.List.Rotate
import Mathlib.Data.List.Sort

/-!
# Walks around a sorted list

A binary search finds where to begin in a list sorted by a key, and a walk around the list from
there collects the first owners it meets. It passes the elements from the start on and then those
before (`rotate_search`), and goes over elements that are taken out (`walk_filter`).
-/
namespace Westcoast.Lib

open List

/-! ## Sorting by a key -/

section Sorting

/-- Sorted lists of the same elements are the same, if the keys of the elements differ. -/
theorem eq_of_sorted_perm {α κ : Type} [PartialOrder κ] {key : α → κ} {l l' : List α}
    (hinj : ∀ a ∈ l, ∀ b ∈ l, key a = key b → a = b)
    (hl : l.Pairwise fun a b => key a ≤ key b) (hl' : l'.Pairwise fun a b => key a ≤ key b)
    (hperm : l.Perm l') : l = l' := by
  refine List.Perm.eq_of_pairwise ?_ hl hl' hperm
  intro a b ha hb hab hba
  exact hinj a ha b (hperm.mem_iff.mpr hb) (le_antisymm hab hba)

variable {α : Type} (key : α → ℕ) {l l' : List α}

def sortBy (l : List α) : List α := l.insertionSort fun a b => key a ≤ key b

instance key_total : Std.Total fun a b : α => key a ≤ key b :=
  ⟨fun a b => Nat.le_total (key a) (key b)⟩

instance key_isTrans : IsTrans α fun a b => key a ≤ key b := ⟨fun _ _ _ => Nat.le_trans⟩

theorem sortBy_perm (l : List α) : (sortBy key l).Perm l := perm_insertionSort _ l

theorem pairwise_sortBy (l : List α) : (sortBy key l).Pairwise fun a b => key a ≤ key b :=
  pairwise_insertionSort _ l

variable {key}

theorem sortBy_eq_of_perm (hinj : ∀ a ∈ l, ∀ b ∈ l, key a = key b → a = b) (hperm : l.Perm l') :
    sortBy key l = sortBy key l' := by
  refine eq_of_sorted_perm ?_ (pairwise_sortBy key l) (pairwise_sortBy key l') ?_
  · intro a ha b hb
    exact hinj a ((sortBy_perm key l).mem_iff.mp ha) b ((sortBy_perm key l).mem_iff.mp hb)
  · exact (sortBy_perm key l).trans (hperm.trans (sortBy_perm key l').symm)

theorem sortBy_filter (hinj : ∀ a ∈ l, ∀ b ∈ l, key a = key b → a = b) (p : α → Bool) :
    sortBy key (l.filter p) = (sortBy key l).filter p := by
  refine eq_of_sorted_perm ?_ (pairwise_sortBy key _) ((pairwise_sortBy key l).filter p) ?_
  · intro a ha b hb
    have hmem : ∀ x, x ∈ sortBy key (l.filter p) → x ∈ l := fun x hx =>
      mem_of_mem_filter ((sortBy_perm key _).mem_iff.mp hx)
    exact hinj a (hmem a ha) b (hmem b hb)
  · exact (sortBy_perm key _).trans ((sortBy_perm key l).symm.filter p)

/-- The elements with a property come first: those at the places below their number. -/
theorem lt_countP_iff {p : α → Bool} (h : l.Pairwise fun a b => p b = true → p a = true)
    {i : ℕ} {a : α} (hi : l[i]? = some a) : i < l.countP p ↔ p a = true := by
  induction l generalizing i with
  | nil => cases hi
  | cons b l ih =>
    rw [pairwise_cons] at h
    cases i with
    | zero =>
      obtain rfl : b = a := Option.some.inj hi
      by_cases hb : p b = true
      · simp [hb]
      · have hnone : l.countP p = 0 :=
          countP_eq_zero.mpr fun c hc hpc => hb (h.1 c hc hpc)
        simp [hb, hnone]
    | succ i =>
      rw [getElem?_cons_succ] at hi
      by_cases hb : p b = true
      · rw [countP_cons_of_pos hb, Nat.succ_lt_succ_iff]
        exact ih h.2 hi
      · have hnone : l.countP p = 0 :=
          countP_eq_zero.mpr fun c hc hpc => hb (h.1 c hc hpc)
        have ha : ¬ p a = true := fun hpa => hb (h.1 a (mem_of_getElem? hi) hpa)
        simp [hb, hnone, ha]

end Sorting

/-! ## Binary search -/

/-- The loop of a binary search for the first place below `j` where `f` holds. -/
def searchLoop (f : ℕ → Bool) : ℕ → ℕ → ℕ → ℕ
  | 0, i, _ => i
  | fuel + 1, i, j =>
    if i < j then
      if f ((i + j) / 2) then searchLoop f fuel i ((i + j) / 2)
      else searchLoop f fuel ((i + j) / 2 + 1) j
    else i

/-- The first place below `n` where `f` holds, and `n` if there is none. -/
def search (n : ℕ) (f : ℕ → Bool) : ℕ := searchLoop f n 0 n

variable {f : ℕ → Bool} {n : ℕ}

/-- The loop keeps everything before `i` refused and everything from `j` on accepted. -/
theorem searchLoop_spec (hmono : ∀ a b, a ≤ b → b < n → f a = true → f b = true) (fuel i j : ℕ)
    (hfuel : j - i ≤ fuel) (hij : i ≤ j) (hjn : j ≤ n) (hbelow : ∀ k < i, f k = false)
    (habove : ∀ k, j ≤ k → k < n → f k = true) :
    searchLoop f fuel i j ≤ n ∧ (∀ k < searchLoop f fuel i j, f k = false) ∧
      ∀ k, searchLoop f fuel i j ≤ k → k < n → f k = true := by
  induction fuel generalizing i j with
  | zero =>
    obtain rfl : i = j := by omega
    exact ⟨hjn, hbelow, habove⟩
  | succ fuel ih =>
    unfold searchLoop
    split_ifs with hlt hf
    · refine ih i ((i + j) / 2) (by omega) (by omega) (by omega) hbelow ?_
      intro k hk hkn
      exact hmono _ k hk hkn hf
    · refine ih ((i + j) / 2 + 1) j (by omega) (by omega) hjn ?_ habove
      intro k hk
      by_contra hfk
      rw [Bool.not_eq_false] at hfk
      exact hf (hmono k _ (by omega) (by omega) hfk)
    · obtain rfl : i = j := by omega
      exact ⟨hjn, hbelow, habove⟩

theorem search_spec (hmono : ∀ a b, a ≤ b → b < n → f a = true → f b = true) :
    search n f ≤ n ∧ (∀ k < search n f, f k = false) ∧ ∀ k, search n f ≤ k → k < n → f k = true :=
  searchLoop_spec hmono n 0 n (by omega) (Nat.zero_le n) (Nat.le_refl n) (by simp)
    (fun k hk hkn => absurd hkn (by omega))

/-! ## The walk -/

section Walk

variable {α : Type} {key : α → ℕ} {l : List α}

/-- The elements from `k` on, and then those before. -/
def walk (key : α → ℕ) (k : ℕ) (l : List α) : List α :=
  l.filter (fun a => k ≤ key a) ++ l.filter fun a => key a < k

theorem walk_filter (k : ℕ) (l : List α) (p : α → Bool) :
    walk key k (l.filter p) = (walk key k l).filter p := by
  simp [walk, Bool.and_comm]

theorem mem_walk {k : ℕ} {a : α} : a ∈ walk key k l ↔ a ∈ l := by
  simp only [walk, mem_append, mem_filter, decide_eq_true_eq, ← and_or_left]
  exact and_iff_left (Nat.lt_or_ge (key a) k).symm

/-- A sorted list, turned to the place that the search finds, is a walk; if it finds nothing, from
the beginning. -/
theorem rotate_search (hsorted : l.Pairwise fun a b => key a ≤ key b) (k : ℕ) :
    l.rotate (if l.length ≤ search l.length (fun i => l[i]?.any fun a => k ≤ key a) then 0
      else search l.length fun i => l[i]?.any fun a => k ≤ key a) = walk key k l := by
  set f : ℕ → Bool := fun i => l[i]?.any fun a => k ≤ key a with hf
  have hfi : ∀ i, f i = true ↔ ∃ a, l[i]? = some a ∧ k ≤ key a := by
    intro i
    simp [hf, Option.any_eq_true]
  have hmono : ∀ a b, a ≤ b → b < l.length → f a = true → f b = true := by
    intro a b hab hb ha
    obtain ⟨x, hx, hkx⟩ := (hfi a).mp ha
    refine (hfi b).mpr ⟨l[b], getElem?_eq_getElem hb, ?_⟩
    obtain ⟨ha', rfl⟩ := List.getElem?_eq_some_iff.mp hx
    rcases hab.eq_or_lt with rfl | hlt
    · exact hkx
    · exact hkx.trans (pairwise_iff_getElem.mp hsorted a b ha' hb hlt)
  obtain ⟨hle, hbelow, habove⟩ := search_spec hmono
  set n := search l.length f
  -- the list is cut where the keys reach `k`
  have hdrop : ∀ a ∈ l.drop n, k ≤ key a := by
    intro a ha
    obtain ⟨i, hi, rfl⟩ := mem_iff_getElem.mp ha
    rw [length_drop] at hi
    obtain ⟨x, hx, hkx⟩ := (hfi (n + i)).mp (habove (n + i) (by omega) (by omega))
    obtain ⟨hi', rfl⟩ := List.getElem?_eq_some_iff.mp hx
    rwa [getElem_drop]
  have htake : ∀ a ∈ l.take n, key a < k := by
    intro a ha
    obtain ⟨i, hi, rfl⟩ := mem_iff_getElem.mp ha
    rw [length_take] at hi
    by_contra hge
    rw [getElem_take] at hge
    have hfalse := hbelow i (by omega)
    have htrue : f i = true := (hfi i).mpr ⟨_, getElem?_eq_getElem (by omega), by omega⟩
    rw [htrue] at hfalse
    cases hfalse
  have hcut : walk key k l = l.drop n ++ l.take n := by
    conv_lhs => rw [← take_append_drop n l]
    simp only [walk, filter_append]
    rw [filter_eq_nil_iff.mpr fun a ha => by simpa using htake a ha,
      filter_eq_self.mpr fun a ha => by simpa using hdrop a ha,
      filter_eq_self.mpr fun a ha => by simpa using htake a ha,
      filter_eq_nil_iff.mpr fun a ha => by simpa using hdrop a ha, nil_append,
      append_nil]
  rw [hcut]
  split_ifs with hnone
  · have hn : n = l.length := Nat.le_antisymm hle hnone
    rw [rotate_zero, hn, drop_length, take_length, nil_append]
  · exact rotate_eq_drop_append_take (by omega)

end Walk

/-- Reading a list around from a place, index by index, is turning it. -/
theorem filterMap_range_rotate {α : Type} (l : List α) (idx : ℕ) :
    (range l.length).filterMap (fun i => l[(idx + i) % l.length]?) = l.rotate idx := by
  have hread : ∀ l : List α, (range l.length).filterMap (fun i => l[i]?) = l := by
    intro l
    induction l with
    | nil => rfl
    | cons a l ih =>
      have hhead : (a :: l)[0]? = some a := rfl
      rw [length_cons, range_succ_eq_map, filterMap_cons, hhead, filterMap_map]
      exact congrArg (a :: ·) ih
  have hget : ∀ i ∈ range l.length, l[(idx + i) % l.length]? = (l.rotate idx)[i]? := by
    intro i hi
    rw [getElem?_rotate (mem_range.mp hi), Nat.add_comm]
  rw [filterMap_congr hget]
  conv_lhs => rw [← length_rotate l idx]
  exact hread _

/-! ## The first owners -/

section Owners

variable {κ : Type} [DecidableEq κ]

/-- A loop that appends the owners it has not met, until it has `r` of them. -/
def collect (r : ℕ) (out : List κ) : List κ → List κ
  | [] => out
  | owner :: rest =>
    if r ≤ out.length then out
    else if owner ∈ out then collect r out rest
    else collect r (out ++ [owner]) rest

variable {out l : List κ}

theorem eraseDups_append_of_mem {rest : List κ} {owner : κ} (h : owner ∈ out) :
    (out ++ owner :: rest).eraseDups = (out ++ rest).eraseDups := by
  have hdrop : (owner :: rest).removeAll out = rest.removeAll out := by
    simp [removeAll, h]
  rw [eraseDups_append, eraseDups_append, hdrop]

theorem eraseDups_of_nodup (h : l.Nodup) : l.eraseDups = l := by
  induction l with
  | nil => rfl
  | cons a l ih =>
    rw [nodup_cons] at h
    rw [eraseDups_cons, filter_eq_self.mpr, ih h.2]
    intro b hb
    have hne : b ≠ a := fun heq => h.1 (heq ▸ hb)
    simpa using hne

theorem nodup_eraseDups (l : List κ) : l.eraseDups.Nodup := by
  induction hn : l.length using Nat.strong_induction_on generalizing l with
  | _ n ih =>
    cases l with
    | nil => exact nodup_nil
    | cons a l =>
      rw [eraseDups_cons, nodup_cons]
      refine ⟨by simp, ih _ ?_ _ rfl⟩
      have hle := length_filter_le (fun b => !b == a) l
      rw [length_cons] at hn
      omega

variable {r : ℕ}

/-- **What is collected**: the first `r` owners in the order in which the walk meets them. -/
theorem collect_eq (rest : List κ) (hnodup : out.Nodup) (hlen : out.length ≤ r) :
    collect r out rest = ((out ++ rest).eraseDups).take r := by
  induction rest generalizing out with
  | nil => rw [collect, append_nil, eraseDups_of_nodup hnodup, take_of_length_le hlen]
  | cons owner rest ih =>
    unfold collect
    split_ifs with hfull hmem
    · have hlen' : out.length = r := Nat.le_antisymm hlen hfull
      rw [eraseDups_append, eraseDups_of_nodup hnodup, ← hlen', take_left]
    · rw [ih hnodup hlen, eraseDups_append_of_mem hmem]
    · have hnew : (out ++ [owner]).Nodup := by
        rw [nodup_append]
        refine ⟨hnodup, nodup_singleton _, ?_⟩
        intro a ha b hb heq
        rw [mem_singleton] at hb
        exact hmem (hb ▸ heq ▸ ha)
      rw [ih hnew (by rw [length_append, length_singleton]; omega),
        append_assoc, singleton_append]

theorem eraseDups_filter_ne (l : List κ) (x : κ) :
    (l.filter (· ≠ x)).eraseDups = l.eraseDups.erase x := by
  induction hn : l.length using Nat.strong_induction_on generalizing l with
  | _ n ih =>
    cases l with
    | nil => rfl
    | cons a l =>
      have hlt : (l.filter fun b => !b == a).length < n := by
        have hle := length_filter_le (fun b => !b == a) l
        rw [length_cons] at hn
        omega
      rw [eraseDups_cons, erase_cons]
      by_cases hax : a = x
      · subst hax
        rw [filter_cons_of_neg (by simp), if_pos (by simp)]
        congr 1
        exact filter_congr fun b _ => by by_cases hb : b = a <;> simp [hb]
      · rw [filter_cons_of_pos (by simpa using hax), if_neg (by simpa using hax),
          eraseDups_cons, ← ih _ hlt _ rfl, filter_filter, filter_filter]
        congr 2
        exact filter_congr fun b _ => Bool.and_comm _ _

omit [DecidableEq κ] in
theorem take_isPrefix (l : List κ) (r : ℕ) : l.take r <+: l.take (r + 1) :=
  take_prefix_take_left (Nat.le_succ r)

variable {x : κ}

/-- What stands behind the beginning is not missed by it. -/
theorem take_erase_of_not_mem (hx : x ∉ l.take r) : (l.erase x).take r = l.take r := by
  induction l generalizing r with
  | nil => rfl
  | cons a l ih =>
    cases r with
    | zero => rfl
    | succ r =>
      rw [take_succ_cons, mem_cons, not_or] at hx
      rw [erase_cons_tail (by simpa using Ne.symm hx.1), take_succ_cons,
        take_succ_cons, ih hx.2]

/-- What goes out of the beginning is followed by one more element at the end, if there is
one. -/
theorem take_erase_of_mem (hx : x ∈ l.take r) :
    (l.erase x).take r = (l.take r).erase x ++ l[r]?.toList := by
  induction l generalizing r with
  | nil => simp at hx
  | cons a l ih =>
    cases r with
    | zero => simp at hx
    | succ r =>
      rw [take_succ_cons] at hx ⊢
      by_cases hax : a = x
      · subst hax
        rw [erase_cons_head, erase_cons_head, getElem?_cons_succ, take_add_one]
      · have hx' : x ∈ l.take r := (mem_cons.mp hx).resolve_left (Ne.symm hax)
        rw [erase_cons_tail (by simpa using hax),
          erase_cons_tail (by simpa using hax), take_succ_cons, ih hx',
          getElem?_cons_succ, cons_append]

end Owners

end Westcoast.Lib
