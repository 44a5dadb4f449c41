import Mathlib.Tactic.Common

/-!
# Sequential objects and their refinement

A sequential object answers each operation with a result and a next state. Two objects are compared
by the results of every sequence of operations; related states answer alike and stay related
(`outputs_eq_of_simulation`).
-/
namespace Westcoast.Lib

universe u
variable {S T O R : Type u}

def outputs (step : S → O → R × S) : S → List O → List R
  | _, [] => []
  | s, o :: ops => (step s o).1 :: outputs step (step s o).2 ops

def after (step : S → O → R × S) : S → List O → S
  | s, [] => s
  | s, o :: ops => after step (step s o).2 ops

variable {concrete : S → O → R × S} {spec : T → O → R × T} {Rel : S → T → Prop}

/-- Related states give the same results to every operation sequence. -/
theorem outputs_eq_of_simulation
    (sim : ∀ s t o, Rel s t → (concrete s o).1 = (spec t o).1 ∧ Rel (concrete s o).2 (spec t o).2) :
    ∀ (ops : List O) (s : S) (t : T), Rel s t → outputs concrete s ops = outputs spec t ops := by
  intro ops
  induction ops with
  | nil => intro s t _; rfl
  | cons o ops ih =>
    intro s t h
    obtain ⟨hout, hnext⟩ := sim s t o h
    simp only [outputs, hout, ih _ _ hnext]

/-- Related states stay related along every operation sequence. -/
theorem after_rel_of_simulation (sim : ∀ s t o, Rel s t → Rel (concrete s o).2 (spec t o).2) :
    ∀ (ops : List O) (s : S) (t : T), Rel s t → Rel (after concrete s ops) (after spec t ops) := by
  intro ops
  induction ops with
  | nil => intro s t h; exact h
  | cons o ops ih => intro s t h; exact ih _ _ (sim s t o h)

end Westcoast.Lib
