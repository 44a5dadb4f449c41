import Mathlib.Data.Nat.Nth
import Mathlib.Order.Filter.Cofinite

/-!
# What happens again and again

Of finitely many values one comes again and again (`exists_frequently_eq`), a counter that wraps
takes every value again and again (`frequently_counter`), and numbers drawn one after the other can
be laid out in advance (`exists_source`).
-/
namespace Westcoast.Lib

open Filter Nat

section Sequences

variable {α : Type}

variable {p : ℕ → Prop}

/-- If the values at the steps of a kind are finitely many, one comes at such steps again and again.
-/
theorem exists_frequently_eq {f : ℕ → α} {l : List α} (hp : ∃ᶠ k in atTop, p k)
    (hf : ∀ k, p k → f k ∈ l) : ∃ x ∈ l, ∃ᶠ k in atTop, p k ∧ f k = x := by
  by_contra hnone
  have hall : ∀ᶠ k in atTop, ∀ x ∈ l, ¬ (p k ∧ f k = x) :=
    (eventually_all_finite l.finite_toSet).mpr fun x hx =>
      not_frequently.mp fun hx' => hnone ⟨x, hx, hx'⟩
  refine hp (hall.mono fun k hk hpk => ?_)
  exact hk (f k) (hf k hpk) ⟨hpk, rfl⟩

theorem frequently_of_succ (h : ∃ᶠ k in atTop, p (k + 1)) : ∃ᶠ k in atTop, p k := by
  rw [frequently_atTop] at h ⊢
  intro n
  obtain ⟨k, hk, hp⟩ := h n
  exact ⟨k + 1, by omega, hp⟩

variable {c : ℕ → UInt64}

/-- A counter that wraps and counts the steps of a kind, as a number of such steps. -/
theorem counter_eq [DecidablePred p] (hc : ∀ k, c (k + 1) = if p k then c k + 1 else c k) (k : ℕ) :
    c k = c 0 + UInt64.ofNat (count p k) := by
  induction k with
  | zero => simp
  | succ k ih =>
    rw [hc, count_succ, ih]
    split_ifs
    · rw [UInt64.ofNat_add, UInt64.add_assoc]
      rfl
    · rfl

/-- It takes every value at a step of the kind again and again. -/
theorem frequently_counter [DecidablePred p] (hp : ∃ᶠ k in atTop, p k)
    (hc : ∀ k, c (k + 1) = if p k then c k + 1 else c k) (v : UInt64) :
    ∃ᶠ k in atTop, p k ∧ c k = v := by
  have hinf : (Set.ofPred p).Infinite := frequently_atTop_iff_infinite.mp hp
  rw [frequently_atTop]
  intro n
  -- the step of the kind at which the count is late enough and leads to `v`
  let m := (v - c 0).toNat + 2 ^ 64 * n
  refine ⟨nth p m, ?_, nth_mem_of_infinite hinf m, ?_⟩
  · have hle : m ≤ nth p m := (nth_strictMono hinf).le_apply
    have hn : n ≤ m := by
      simp only [m]
      omega
    exact hn.trans hle
  · rw [counter_eq hc, count_nth_of_infinite hinf]
    have hm : UInt64.ofNat m = v - c 0 := by
      apply UInt64.toNat_inj.mp
      simp only [m, UInt64.toNat_ofNat', add_mul_mod_self_left]
      exact mod_eq_of_lt (UInt64.toNat_lt _)
    rw [hm, UInt64.add_comm, UInt64.sub_add_cancel]

/-- Numbers that are drawn at the steps of a kind, one after the other, are those of a source. -/
theorem exists_source [DecidablePred p] {next : ℕ → ℕ}
    (hnext : ∀ k, next (k + 1) = if p k then next k + 1 else next k) (value : ℕ → ℕ) :
    ∃ source : ℕ → ℕ, ∀ k, p k → source (next k) = value k := by
  classical
  have hmono : Monotone next := monotone_nat_of_le_succ fun k => by
    rw [hnext]
    split_ifs <;> omega
  have hlt : ∀ j k, p j → j < k → next j < next k := by
    intro j k hj hjk
    have hsucc : next (j + 1) = next j + 1 := by rw [hnext, if_pos hj]
    have hle : next (j + 1) ≤ next k := hmono hjk
    omega
  have huniq : ∀ j k, p j → p k → next j = next k → j = k := by
    intro j k hj hk heq
    rcases lt_trichotomy j k with hjk | rfl | hkj
    · exact absurd heq (hlt j k hj hjk).ne
    · rfl
    · exact absurd heq.symm (hlt k j hk hkj).ne
  refine ⟨fun n => if h : ∃ k, p k ∧ next k = n then value h.choose else 0, fun k hk => ?_⟩
  have hex : ∃ j, p j ∧ next j = next k := ⟨k, hk, rfl⟩
  beta_reduce
  rw [dif_pos hex, huniq _ k hex.choose_spec.1 hk hex.choose_spec.2]

end Sequences

/-! ## Calls that never return -/

section Calls

variable {S R : Type}

/-- A function with `fuel` that either returns or calls itself, on the state that `next` gives. -/
structure FuelLoop (eval : S → ℕ → Option R) (next : S → Option S) : Prop where
  zero : ∀ s, eval s 0 = none
  returns : ∀ s fuel, next s = none → (eval s (fuel + 1)).isSome = true
  calls : ∀ s s' fuel, next s = some s' → eval s (fuel + 1) = eval s' fuel

variable {eval : S → ℕ → Option R} {next : S → Option S}

/-- An infinite sequence of calls uses up any fuel. -/
theorem FuelLoop.eq_none (h : FuelLoop eval next) {f : ℕ → S}
    (hf : ∀ k, next (f k) = some (f (k + 1))) (fuel : ℕ) (k : ℕ) : eval (f k) fuel = none := by
  induction fuel generalizing k with
  | zero => exact h.zero _
  | succ fuel ih => rw [h.calls _ _ _ (hf k), ih]

/-- A call that uses up any fuel calls itself again, and that call uses up any fuel. -/
theorem FuelLoop.exists_next (h : FuelLoop eval next) {s : S} (hs : ∀ fuel, eval s fuel = none) :
    ∃ s', next s = some s' ∧ ∀ fuel, eval s' fuel = none := by
  cases hnext : next s with
  | none =>
    have hreturns := h.returns s 0 hnext
    rw [hs] at hreturns
    cases hreturns
  | some s' => exact ⟨s', rfl, fun fuel => (h.calls s s' fuel hnext).symm.trans (hs (fuel + 1))⟩

/-- A call that never returns makes an infinite sequence of calls. -/
theorem FuelLoop.exists_calls (h : FuelLoop eval next) {s : S} (hs : ∀ fuel, eval s fuel = none) :
    ∃ f : ℕ → S, f 0 = s ∧ ∀ k, next (f k) = some (f (k + 1)) := by
  let Never := { s : S // ∀ fuel, eval s fuel = none }
  let step (x : Never) : Never := ⟨(h.exists_next x.2).choose, (h.exists_next x.2).choose_spec.2⟩
  refine ⟨fun k => (step^[k] ⟨s, hs⟩).1, rfl, fun k => ?_⟩
  beta_reduce
  rw [Function.iterate_succ_apply']
  exact (h.exists_next (step^[k] ⟨s, hs⟩).2).choose_spec.1

/-- A call leads to another one, by any number of calls. -/
def Leads (next : S → Option S) : S → S → Prop := Relation.ReflTransGen fun s s' => next s = some s'

theorem Leads.unique {s t t' : S} (h : Leads next s t) (hend : next t = none)
    (h' : Leads next s t') (hend' : next t' = none) : t = t' := by
  have hright : Relator.RightUnique fun s s' : S => next s = some s' :=
    fun a b c hb hc => Option.some.inj (hb.symm.trans hc)
  have hlast : ∀ {t t' : S}, Leads next t t' → next t = none → t = t' := by
    intro t t' hl hnone
    rcases Relation.ReflTransGen.cases_head hl with rfl | ⟨u, hu, -⟩
    · rfl
    · rw [hnone] at hu
      cases hu
  rcases Relation.ReflTransGen.total_of_right_unique hright h h' with hl | hl
  · exact hlast hl hend
  · exact (hlast hl hend').symm

/-- A call that leads to a last one returns. -/
theorem FuelLoop.exists_fuel (h : FuelLoop eval next) {s t : S} (hl : Leads next s t)
    (hend : next t = none) : ∃ fuel, (eval s fuel).isSome = true := by
  induction hl using Relation.ReflTransGen.head_induction_on with
  | refl => exact ⟨1, h.returns t 0 hend⟩
  | head hnext _ ih =>
    obtain ⟨fuel, hfuel⟩ := ih
    exact ⟨fuel + 1, by rw [h.calls _ _ fuel hnext]; exact hfuel⟩

end Calls

end Westcoast.Lib
