import Westcoast.Actor.StateMachine
import Westcoast.Actor.Outcomes

/-!
# The default supervisor

`DefaultSupervisor` of `supervisor.go`. The policy is arbitrary code for the instance; in a run
under the default supervisor all decisions meet `DefaultSupervisor.governs`.
-/
namespace Westcoast

open Lib Event List Prod

variable {σ π : Type}

/-- Restart up to `maxRestarts` times, then `onLimit`. -/
structure DefaultSupervisor where
  maxRestarts : ℤ
  onLimit : SupervisionDecision

namespace DefaultSupervisor

/-- The number of restarts granted; a negative setting means one. -/
def limit (d : DefaultSupervisor) : ℤ := if d.maxRestarts < 0 then 1 else d.maxRestarts

def decide (d : DefaultSupervisor) (restartCount : ℕ) : SupervisionDecision :=
  if (restartCount : ℤ) < d.limit then .restart
  else if d.onLimit = .escalate then .escalate
  else .stop

theorem limit_nonneg (d : DefaultSupervisor) : 0 ≤ d.limit := by
  simp only [limit]
  split_ifs with h <;> omega

theorem lt_limit_of_decide {d : DefaultSupervisor} {restartCount : ℕ}
    (h : d.decide restartCount = .restart) : (restartCount : ℤ) < d.limit := by
  by_contra hlt
  simp only [decide, if_neg hlt] at h
  split_ifs at h

def governs (d : DefaultSupervisor) (s : Instance σ π) : Action σ π → Bool
  | .decide decision => decision = d.decide s.restarts
  | _ => true

end DefaultSupervisor

def Event.failure? : Event σ π → Option (Call π)
  | .returned call result => if result.isOk then none else some call
  | _ => none

def Event.decision? : Event σ π → Option (Call π × SupervisionDecision)
  | .decided call decision => some (call, decision)
  | _ => none

def failures (tr : List (Event σ π)) : List (Call π) := tr.filterMap failure?

/-- The decisions made, with the call each was made on, in order. -/
def decisions (tr : List (Event σ π)) : List (Call π × SupervisionDecision) :=
  tr.filterMap decision?

def restartDecisions (tr : List (Event σ π)) : ℕ :=
  (decisions tr).countP fun x => x.2 = .restart

def Pc.undecided (pc : Pc σ π) : List (Call π) := (pc.unsettled.filter fun x => !x.2).map fst

theorem failures_eq (tr : List (Event σ π)) :
    failures tr = ((returns tr).filter fun x => !x.2).map fst := by
  induction tr with
  | nil => rfl
  | cons e tr ih =>
    simp only [failures, returns, filterMap_cons] at ih ⊢
    cases e with
    | returned call result =>
      cases result <;> simp [failure?, return?, CallResult.isOk, ih]
    | _ => exact ih

theorem decisions_fst (tr : List (Event σ π)) :
    (decisions tr).map fst = ((settled tr).filter fun x => !x.2).map fst := by
  induction tr with
  | nil => rfl
  | cons e tr ih =>
    simp only [decisions, settled, filterMap_cons] at ih ⊢
    cases e with
    | applied call next | decided call d => simp [decision?, settled?, ih]
    | _ => exact ih

theorem restartDecisions_append (tr es : List (Event σ π)) :
    restartDecisions (tr ++ es) = restartDecisions tr + restartDecisions es := by
  simp [restartDecisions, decisions]

namespace Instance

/-- The restart counter counts the restart decisions and stays within the limit. -/
structure Bounded (d : DefaultSupervisor) (tr : List (Event σ π)) (s : Instance σ π) : Prop where
  count : s.restarts = restartDecisions tr
  le_limit : (s.restarts : ℤ) ≤ d.limit

variable {d : DefaultSupervisor} {es tr : List (Event σ π)} {s s' : Instance σ π}

theorem Bounded.quiet (h : Bounded d tr s) (hr : s'.restarts = s.restarts)
    (hes : restartDecisions es = 0) : Bounded d (tr ++ es) s' where
  count := by rw [restartDecisions_append, hes, hr, h.count, Nat.add_zero]
  le_limit := by rw [hr]; exact h.le_limit

variable [Inhabited π]

theorem bounded_step {a : Action σ π} (h : Bounded d tr s) (hg : d.governs s a)
    (hs : Steps s a s' es) : Bounded d (tr ++ es) s' := by
  cases hs with
  | decideRestart call rest hpc =>
    have hdec : d.decide s.restarts = .restart := (of_decide_eq_true hg).symm
    have hlt := DefaultSupervisor.lt_limit_of_decide hdec
    constructor
    · rw [restartDecisions_append, ← h.count]
      rfl
    · push_cast
      omega
  | decideStop call rest decision hpc hd =>
    refine h.quiet rfl ?_
    simp [restartDecisions, decisions, decision?, hd]
  | effect e es k hpc => exact h.quiet (by cases e <;> rfl) rfl
  | _ => exact h.quiet rfl rfl

/-- **An actor is a sequential state machine with bounded restarts**, under the default supervisor:
a call sees the initial state folded over the successes since the last restart, failed calls are
decided in order, and every message of a settled call has one outcome. -/
theorem supervised_run (d : DefaultSupervisor) {init : σ} {capacity : ℤ} {batch : BatchConfig}
    {tr : List (Event σ π)} {s : Instance σ π}
    (h : Run step (fun s a => d.governs s a) (new init capacity batch) tr s) :
    (∀ pre call cur post, tr = pre ++ .called call cur :: post → cur = expectedState init pre) ∧
      failures tr = (decisions tr).map fst ++ s.pc.undecided ∧
      (restartDecisions tr : ℤ) ≤ d.limit ∧
      ∀ call result, .returned call result ∈ tr → (call, result.isOk) ∉ s.pc.unsettled →
        ∀ msg ∈ call.msgs, (s.outcomes.map ProcessingOutcome.messageID).count msg.id = 1 ∧
            ∃ o ∈ s.outcomes, o.messageID = msg.id ∧
              (o.result = .delivered ↔ result.isOk = true) := by
  have hjournal := journal_run h
  have hbounded : Bounded d tr s :=
    h.invariant (Bounded d) ⟨rfl, d.limit_nonneg⟩
      (fun _ _ _ _ _ hi hg hs => bounded_step hi hg (steps_of_step hs))
  refine ⟨(tracked_run h).seen, ?_, ?_, ?_⟩
  · rw [failures_eq, decisions_fst, hjournal.settles, filter_append, map_append]
    rfl
  · rw [← hbounded.count]
    exact hbounded.le_limit
  · intro call result hmem hun msg hmsg
    have hret : (call, result.isOk) ∈ returns tr := mem_filterMap.mpr ⟨_, hmem, rfl⟩
    exact hjournal.outcome hret hun hmsg

/-- A success, a failing batch that restarts the actor, and a failure beyond the
limit. -/
def supervisedActions : List (Action ℕ ℕ) :=
  [.hookReturns true, .effect, .send 7, .enqueue 0, .selectNotify, .readBatch, .dequeue, .enter,
    .callReturns (.ok 5), .apply, .send 8, .send 9, .enqueue 0, .enqueue 0,
    .configureBatching 4 true, .readBatch, .dequeue, .enter, .callReturns .error,
    .decide .restart, .effect, .effect, .hookReturns true, .effect, .disableBatching,
    .send 10, .enqueue 0, .readBatch, .dequeue, .enter, .callReturns .panic, .decide .escalate]

theorem supervised_run_limit :
    ∃ tr s, Run step (fun s a => (⟨-3, .escalate⟩ : DefaultSupervisor).governs s a)
        (new 0 4 {} : Instance ℕ ℕ) tr s ∧
      failures tr = [⟨[⟨2, 8⟩, ⟨3, 9⟩], some 4⟩, ⟨[⟨4, 10⟩], none⟩] ∧
      failures tr = (decisions tr).map fst ∧
      (restartDecisions tr : ℤ) ≤ 1 := by
  have hrun := Run.of_exec (fun _ _ h => h) (rfl : exec step
    (⟨-3, .escalate⟩ : DefaultSupervisor).governs (new 0 4 {} : Instance ℕ ℕ) supervisedActions =
      some _)
  obtain ⟨-, hdec, hlimit, -⟩ := supervised_run _ hrun
  exact ⟨_, _, hrun, rfl, hdec.trans (append_nil _), hlimit⟩

end Instance

end Westcoast
