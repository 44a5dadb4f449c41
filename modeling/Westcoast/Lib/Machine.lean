import Mathlib.Tactic.Common

/-!
# Machines that emit events, and their runs

From a state, an action either is not enabled or leads to one next state and emits a list of events.
`Run step guard s₀ tr s` says that some actions lead from `s₀` to `s` while emitting `tr`, every
action meeting `guard` where it is taken. `exec` is the executable counterpart. Safety arguments go
through `Run.invariant`.
-/
namespace Westcoast.Lib

open List Option

variable {S A E : Type}

/-- Runs whose steps all meet `guard`, with the events emitted so far. -/
inductive Run (step : S → A → Option (S × List E)) (guard : S → A → Prop) (s₀ : S) :
    List E → S → Prop
  | refl : Run step guard s₀ [] s₀
  | step {tr es : List E} {s s' : S} {a : A} :
      Run step guard s₀ tr s → guard s a → step s a = some (s', es) →
        Run step guard s₀ (tr ++ es) s'

/-- The guard that allows every step. -/
def anyStep : S → A → Prop := fun _ _ => True

instance anyStepDecidable (s : S) (a : A) : Decidable (anyStep s a) := .isTrue trivial

namespace Run
variable {step : S → A → Option (S × List E)} {guard : S → A → Prop} {s₀ s s' : S}
  {tr tr' : List E}

/-- Runs compose, and so do their events. -/
theorem trans (h : Run step guard s₀ tr s) (h' : Run step guard s tr' s') :
    Run step guard s₀ (tr ++ tr') s' := by
  induction h' with
  | refl => simpa using h
  | step _ hg hs ih =>
    rw [← append_assoc]
    exact .step ih hg hs

theorem mono {guard' : S → A → Prop} (hguard : ∀ s a, guard s a → guard' s a)
    (h : Run step guard s₀ tr s) : Run step guard' s₀ tr s := by
  induction h with
  | refl => exact .refl
  | step _ hg hs ih => exact .step ih (hguard _ _ hg) hs

/-- **Invariants.** What holds at the start and is kept by every guarded step
holds after every run. -/
theorem invariant (P : List E → S → Prop) (init : P [] s₀)
    (keep : ∀ tr s a s' es, P tr s → guard s a → step s a = some (s', es) → P (tr ++ es) s')
    (h : Run step guard s₀ tr s) : P tr s := by
  induction h with
  | refl => exact init
  | step _ hg hs ih => exact keep _ _ _ _ _ ih hg hs

theorem invariant_state (P : S → Prop) (init : P s₀)
    (keep : ∀ s a s' es, P s → guard s a → step s a = some (s', es) → P s')
    (h : Run step guard s₀ tr s) : P s :=
  h.invariant (fun _ s => P s) init (fun _ s a s' es hp hg hs => keep s a s' es hp hg hs)

/-- A run to `s` went through a state with the property `Q`. -/
def Passes (step : S → A → Option (S × List E)) (guard : S → A → Prop) (s₀ : S) (tr : List E)
    (s : S) (Q : S → Prop) : Prop :=
  ∃ tr₁ tr₂ s₁, Run step guard s₀ tr₁ s₁ ∧ Run step guard s₁ tr₂ s ∧ tr = tr₁ ++ tr₂ ∧ Q s₁

theorem Passes.here {Q : S → Prop} (h : Run step guard s₀ tr s) (hq : Q s) :
    Passes step guard s₀ tr s Q :=
  ⟨tr, [], s, h, .refl, (append_nil tr).symm, hq⟩

theorem Passes.snoc {Q : S → Prop} {a : A} {es : List E} (h : Passes step guard s₀ tr s Q)
    (hg : guard s a) (hs : step s a = some (s', es)) : Passes step guard s₀ (tr ++ es) s' Q := by
  obtain ⟨tr1, tr2, s1, hfirst, hrest, rfl, hq⟩ := h
  exact ⟨tr1, tr2 ++ es, s1, hfirst, .step hrest hg hs, append_assoc tr1 tr2 es, hq⟩

end Run

/-- A machine that remembers what it has emitted, so that a guard may look at it. -/
def withHistory (step : S → A → Option (S × List E)) (x : S × List E) (a : A) :
    Option ((S × List E) × List E) :=
  (step x.1 a).map fun r => ((r.1, x.2 ++ r.2), r.2)

variable {step : S → A → Option (S × List E)}

theorem withHistory_eq_some {x x' : S × List E} {a : A} {es : List E}
    (h : withHistory step x a = some (x', es)) :
    step x.1 a = some (x'.1, es) ∧ x'.2 = x.2 ++ es := by
  simp only [withHistory, map_eq_some_iff, Prod.mk.injEq] at h
  obtain ⟨r, hstep, rfl, rfl⟩ := h
  exact ⟨hstep, rfl⟩

variable {tr : List E}

/-- Where an event stands in a trace that one event was added to. -/
theorem append_singleton_eq_append_cons {pre post : List E} {x e : E}
    (h : tr ++ [x] = pre ++ e :: post) :
    (pre = tr ∧ e = x ∧ post = []) ∨ ∃ post', post = post' ++ [x] ∧ tr = pre ++ e :: post' := by
  rcases eq_nil_or_concat post with rfl | ⟨post', y, rfl⟩
  · obtain ⟨htr, hx⟩ := append_inj' h rfl
    exact .inl ⟨htr.symm, (List.cons.inj hx).1.symm, rfl⟩
  · rw [concat_eq_append, ← cons_append, ← append_assoc] at h
    obtain ⟨htr, hx⟩ := append_inj' h rfl
    obtain ⟨rfl, -⟩ := List.cons.inj hx
    exact .inr ⟨post', concat_eq_append, htr⟩

/-- What holds of every event after those before it, once one event is added. -/
theorem forall_split_snoc {P : List E → E → Prop} {x : E}
    (h : ∀ pre e post, tr = pre ++ e :: post → P pre e) (hx : P tr x) :
    ∀ pre e post, tr ++ [x] = pre ++ e :: post → P pre e := by
  intro pre e post hsplit
  rcases append_singleton_eq_append_cons hsplit with ⟨rfl, rfl, -⟩ | ⟨post', -, htr⟩
  · exact hx
  · exact h pre e post' htr

/-- Run an action list, refusing an action that fails the check `ok`. -/
def exec (step : S → A → Option (S × List E)) (ok : S → A → Bool) : S → List A → Option (S × List E)
  | s, [] => some (s, [])
  | s, a :: as =>
    if ok s a then
      match step s a with
      | none => none
      | some (s', es) => (exec step ok s' as).map fun r => (r.1, es ++ r.2)
    else none

variable {guard : S → A → Prop} {ok : S → A → Bool}

theorem Run.of_exec (hok : ∀ s a, ok s a = true → guard s a) :
    ∀ {as : List A} {s s' : S} {tr : List E},
      exec step ok s as = some (s', tr) → Run step guard s tr s' := by
  intro as
  induction as with
  | nil =>
    intro s s' tr h
    simp only [exec, some.injEq, Prod.mk.injEq] at h
    obtain ⟨rfl, rfl⟩ := h
    exact .refl
  | cons a as ih =>
    intro s s' tr h
    simp only [exec] at h
    split at h
    case isFalse => cases h
    case isTrue hg =>
      split at h
      · cases h
      · next s1 es hstep =>
        simp only [map_eq_some_iff] at h
        obtain ⟨⟨s2, tr2⟩, hexec, hr⟩ := h
        simp only [Prod.mk.injEq] at hr
        obtain ⟨rfl, rfl⟩ := hr
        have hfirst : Run step guard s ([] ++ es) s1 := .step .refl (hok _ _ hg) hstep
        simpa using hfirst.trans (ih hexec)

theorem Run.of_exec_any (step : S → A → Option (S × List E)) (s : S) (as : List A) {s' : S}
    (h : exec step (fun _ _ => true) s as = some (s', tr)) : Run step anyStep s tr s' :=
  Run.of_exec (fun _ _ _ => trivial) h

/-- What is seen of an executed action list is seen of a run. -/
theorem Run.of_view {V : Type} (hok : ∀ s a, ok s a = true → guard s a) {view : S × List E → V}
    {s : S} {as : List A} {v : V} (h : (exec step ok s as).map view = some v) :
    ∃ s' tr, Run step guard s tr s' ∧ view (s', tr) = v := by
  obtain ⟨⟨s', tr⟩, hexec, hview⟩ := map_eq_some_iff.mp h
  exact ⟨s', tr, Run.of_exec hok hexec, hview⟩

theorem exists_of_any {α : Type} {P : α → Prop} [DecidablePred P] {o : Option α}
    (h : o.any (fun x => P x) = true) : ∃ x, o = some x ∧ P x := by
  cases o with
  | none => cases h
  | some x => exact ⟨x, rfl, of_decide_eq_true h⟩

/-- What is checked at the end of an executed action list, whose actions all meet the guard, holds
at the end of a run. -/
theorem Run.of_check [∀ s a, Decidable (guard s a)] {Q : List E → S → Prop}
    [∀ tr s, Decidable (Q tr s)] {s : S} (as : List A)
    (h : (exec step (fun s a => guard s a) s as).any (fun r => Q r.2 r.1) = true) :
    ∃ tr s', Run step guard s tr s' ∧ Q tr s' := by
  obtain ⟨r, hexec, hq⟩ := exists_of_any (P := fun r : S × List E => Q r.2 r.1) h
  exact ⟨r.2, r.1, Run.of_exec (fun _ _ => of_decide_eq_true) hexec, hq⟩

/-- The same for what follows from such a run. -/
theorem Run.of_check_then {R : Prop} [∀ s a, Decidable (guard s a)] {Q : List E → S → Prop}
    [∀ tr s, Decidable (Q tr s)] {s : S} (as : List A)
    (h : (exec step (fun s a => guard s a) s as).any (fun r => Q r.2 r.1) = true)
    (hR : ∀ tr s', Run step guard s tr s' → Q tr s' → R) : R := by
  obtain ⟨tr, s', hrun, hq⟩ := Run.of_check as h
  exact hR tr s' hrun hq

/-- What follows from what is checked at the end of an executed action list. -/
theorem exec_then {o : Option (S × List E)} {P Q : S → List E → Prop}
    [∀ s tr, Decidable (P s tr)] (h : o.any (fun r => P r.1 r.2) = true)
    (hq : ∀ s tr, o = some (s, tr) → P s tr → Q s tr) : ∃ s tr, o = some (s, tr) ∧ Q s tr := by
  obtain ⟨r, ho, hp⟩ := exists_of_any (P := fun r : S × List E => P r.1 r.2) h
  exact ⟨r.1, r.2, ho, hq _ _ ho hp⟩

/-- An action list whose events are known gives a run with these events. -/
theorem Run.of_events (hok : ∀ s a, ok s a = true → guard s a) {s : S} (as : List A)
    (h : (exec step ok s as).map (fun r => r.2) = some tr) : ∃ s', Run step guard s tr s' := by
  obtain ⟨s', tr', hrun, rfl⟩ := Run.of_view hok h
  exact ⟨s', hrun⟩

/-- An event of a longer record is one of the shorter or one that was added. -/
theorem append_eq_split {es tr₁ tr₂ : List E} {e : E} (h : tr ++ es = tr₁ ++ e :: tr₂) :
    (∃ tr₃, tr = tr₁ ++ e :: tr₃ ∧ tr₂ = tr₃ ++ es) ∨
      ∃ es₁, tr₁ = tr ++ es₁ ∧ es = es₁ ++ e :: tr₂ := by
  rcases append_eq_append_iff.mp h with ⟨es₁, hes, htr⟩ | ⟨tr₃, htr, hes⟩
  · exact .inr ⟨es₁, hes, htr⟩
  · cases tr₃ with
    | nil => exact .inr ⟨[], by simpa using htr.symm, by simpa using hes.symm⟩
    | cons x tr₃ =>
      rw [cons_append, List.cons.injEq] at hes
      obtain ⟨rfl, rfl⟩ := hes
      exact .inl ⟨tr₃, htr, rfl⟩

end Westcoast.Lib
