import Westcoast.Actor.Steps

/-!
# The state every call sees

A successful call leaves its result, a restart decision the initial state. `expectedState` folds the
events so, and every call of user code is made on it (`called_expectedState`), although the code
applies results and resets the state some steps later.
-/
namespace Westcoast

open Lib

variable {σ π : Type}

def track (init cur : σ) : Event σ π → σ
  | .returned _ (.ok next) => next
  | .decided _ .restart => init
  | _ => cur

def expectedState (init : σ) (tr : List (Event σ π)) : σ := tr.foldl (track init) init

theorem expectedState_append_singleton (init : σ) (tr : List (Event σ π)) (e : Event σ π) :
    expectedState init (tr ++ [e]) = track init (expectedState init tr) e := by
  simp [expectedState]

/-- The state once the writes the goroutine is committed to have been performed. -/
def Pc.pending (init cur : σ) : Pc σ π → σ
  | .succeeded _ next _ => next
  | .effects es _ => if .resetState ∈ es then init else cur
  | _ => cur

@[simp] theorem Pc.pending_effects (init cur : σ) (es : List Effect) (k : Cont π) :
    (Pc.effects es k : Pc σ π).pending init cur = if .resetState ∈ es then init else cur := rfl

@[simp] theorem Pc.pending_resume (init cur : σ) (rest : List (Message π)) :
    (Pc.resume rest).pending init cur = cur := by
  cases rest <;> rfl

@[simp] theorem Pc.pending_after (init cur : σ) (es : List Effect) (k : Cont π) :
    (Pc.after es k).pending init cur = if .resetState ∈ es then init else cur := by
  cases es with
  | cons e es => rfl
  | nil =>
    cases k with
    | resume rest => exact Pc.pending_resume init cur rest
    | _ => rfl

namespace Instance

/-- The events so far account for the state, and did so at every call. -/
structure Tracked (init : σ) (tr : List (Event σ π)) (s : Instance σ π) : Prop where
  initial : s.initialState = init
  state : s.pc.pending init s.state.value = expectedState init tr
  seen : ∀ pre call cur post, tr = pre ++ .called call cur :: post → cur = expectedState init pre

variable {init : σ} {tr : List (Event σ π)} {s s' : Instance σ π}

theorem Tracked.quiet (h : Tracked init tr s) (hinit : s'.initialState = s.initialState)
    (hstate : s'.pc.pending init s'.state.value = s.pc.pending init s.state.value) :
    Tracked init (tr ++ []) s' := by
  rw [List.append_nil]
  exact ⟨hinit.trans h.initial, hstate.trans h.state, h.seen⟩

theorem Tracked.emit {e : Event σ π} (h : Tracked init tr s)
    (hinit : s'.initialState = s.initialState)
    (hstate : s'.pc.pending init s'.state.value = track init (s.pc.pending init s.state.value) e)
    (hcall : ∀ call cur, e = .called call cur → cur = s.pc.pending init s.state.value) :
    Tracked init (tr ++ [e]) s' where
  initial := hinit.trans h.initial
  state := by rw [hstate, h.state, expectedState_append_singleton]
  seen := by
    intro pre call cur post heq
    rcases append_singleton_eq_append_cons heq with ⟨rfl, he, -⟩ | ⟨post', -, htr⟩
    · rw [← h.state]
      exact hcall call cur he.symm
    · exact h.seen pre call cur post' htr

theorem pending_runEffect (hinit : s.initialState = init) (e : Effect) (es : List Effect)
    (k : Cont π) : (Pc.after es k).pending init (s.runEffect e).state.value =
      (Pc.effects (e :: es) k).pending init s.state.value := by
  cases e with
  | resetState => simp [runEffect, hinit]
  | _ => simp [runEffect]

variable [Inhabited π]

theorem tracked_step {a : Action σ π} {es : List (Event σ π)} (h : Tracked init tr s)
    (hs : Steps s a s' es) : Tracked init (tr ++ es) s' := by
  cases hs with
  | dequeueBatch cfg hpc hcfg =>
    by_cases hempty : (s.mailbox.dequeueBatch cfg.maxSize).1.isEmpty
    · exact h.quiet rfl (by rw [hpc]; simp only [hempty]; rfl)
    · exact h.quiet rfl (by rw [hpc]; simp only [hempty]; rfl)
  | fallback msgs limit hpc => exact h.quiet rfl (by rw [hpc]; exact Pc.pending_resume _ _ _)
  | callBatch msgs limit hpc | callOne msg rest hpc =>
    refine h.emit rfl (by rw [hpc]; rfl) ?_
    intro call cur heq
    cases heq
    rw [hpc]; rfl
  | callOk call rest next hpc | decideRestart call rest hpc | stopCapture i c hi hpc
  | enqueueAccepted i msg hi hr => exact h.emit rfl rfl (by simp)
  | callFailed call rest result hpc hr =>
    refine h.emit rfl ?_ (by simp)
    rw [hpc]
    cases result with
    | ok next => exact absurd rfl (hr next)
    | error => rfl
    | panic => rfl
  | apply call next rest hpc =>
    exact h.emit rfl (by rw [hpc]; exact Pc.pending_resume _ _ _) (by simp)
  | decideStop call rest d hpc hd =>
    refine h.emit rfl ?_ (by simp)
    rw [hpc]
    cases d with
    | restart => exact absurd rfl hd
    | _ => rfl
  | effect e es k hpc =>
    refine h.quiet ?_ (by rw [hpc]; exact pending_runEffect h.initial e es k)
    cases e <;> rfl
  | started hpc | startHookFailed hpc | selectDone hpc | selectNotify hpc | readBatch hpc
  | dequeueEmpty _ hpc | dequeueOne _ _ hpc | rehookOk _ hpc | rehookFailed _ hpc =>
    exact h.quiet rfl (by rw [hpc]; rfl)
  | stop | stopCheck | stopStore | stopHook | stopStored | stopCancel | stopClose | sendStopped
  | send | refused | drawID | configure =>
    exact h.quiet rfl rfl

theorem tracked_run {guard : Instance σ π → Action σ π → Prop} {capacity : ℤ}
    {batch : BatchConfig} (h : Run step guard (new init capacity batch) tr s) : Tracked init tr s :=
  h.invariant (Tracked init) ⟨rfl, rfl, by simp⟩
    (fun _ _ _ _ _ hi _ hs => tracked_step hi (steps_of_step hs))

end Instance

end Westcoast
