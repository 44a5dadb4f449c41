import Westcoast.Actor.Operations

/-!
# The ways an actor ends

The terminal paths of `runtime.go`: `Stop` and `StopAndCapture`, the supervisor's decisions, and a
start hook that fails, first or after a restart. `CreateActor` returns before the start hook has run
(`spawn`), so an actor may be named before it fails to start. All other paths forget its names
(`names_endsBy`).
-/
namespace Westcoast

variable {π : Type}

/-- A terminal path, with what the supervisor and the start hook answer. -/
inductive TerminalPath
  | stop
  | stopAndCapture
  | message (decision : SupervisionDecision) (hookOk : Bool)
  | batch (maxSize : ℤ) (decision : SupervisionDecision) (hookOk : Bool)
  | startHook
  deriving DecidableEq

namespace Runtime

/-- The failure path of `processMessage` and of `processBatch`, if it ends the actor. -/
def endsFailing (rt : Runtime π) (id : String) (a : ActorEntry π) (decision : SupervisionDecision)
    (hookOk : Bool) : Option (Runtime π) :=
  if decision = .restart ∧ hookOk = true then none
  else some (rt.processMessage id a (.failed decision hookOk))

variable {rt rt' : Runtime π} {id : String}

theorem names_endsFailing {a : ActorEntry π} {decision : SupervisionDecision} {hookOk : Bool}
    (h : rt.endsFailing id a decision hookOk = some rt') :
    rt'.names = cleanupRegistry rt.names id := by
  simp only [endsFailing] at h
  split_ifs at h with hrestart
  cases h
  cases decision with
  | restart =>
    cases hookOk with
    | true => exact absurd ⟨rfl, rfl⟩ hrestart
    | false => exact congrArg (fun names => cleanupRegistry names id) (rt.bumpPID_keeps id).1
  | stop | escalate | other name => rfl

variable [Inhabited π]

/-- `CreateActor`, which leaves the start hook to the goroutine of the actor. -/
def spawn (rt : Runtime π) (id : String) (nilHandler : Bool) (capacity : ℤ) :
    Except RuntimeError (Runtime π) :=
  if id = "" then .error .emptyActorID
  else if nilHandler then .error .nilHandler
  else if (rt.registry.lookup id).isSome then .error .duplicateActorID
  else .ok { rt with registry := rt.registry.insert id ⟨.starting, .new capacity, 0⟩ }

/-- The start of `runActor`: what the start hook makes of an actor that is starting. -/
def runStartHook (rt : Runtime π) (id : String) (hookOk : Bool) : Option (Runtime π) :=
  match rt.registry.lookup id with
  | none => none
  | some a =>
    if a.status = .starting then
      let a' :=
        if hookOk then { a with status := .running }
        else { a with status := .stopped, mailbox := a.mailbox.close }
      some { rt with registry := rt.registry.insert id a' }
    else none

/-- The runtime at the end of a terminal path, if the actor can take it. -/
def endsBy (rt : Runtime π) (id : String) : TerminalPath → Option (Runtime π)
  | .stop | .stopAndCapture =>
    match rt.stop id with
    | (.stopped, rt) => some rt
    | _ => none
  | .message decision hookOk =>
    match rt.registry.lookup id with
    | none => none
    | some a =>
      match a.mailbox.dequeue with
      | (none, _) => none
      | (some _, mailbox) => rt.endsFailing id { a with mailbox := mailbox } decision hookOk
  | .batch maxSize decision hookOk =>
    match rt.registry.lookup id with
    | none => none
    | some a =>
      match a.mailbox.dequeueBatch maxSize with
      | ([], _) => none
      | (_ :: _, mailbox) => rt.endsFailing id { a with mailbox := mailbox } decision hookOk
  | .startHook => rt.runStartHook id false

theorem names_endsBy {path : TerminalPath} (h : rt.endsBy id path = some rt') :
    rt'.names = if path = .startHook then rt.names else cleanupRegistry rt.names id := by
  cases path with
  | stop | stopAndCapture =>
    rw [if_neg (by simp)]
    simp only [endsBy] at h
    rcases stop_cases rt id with ⟨hno, -⟩ | ⟨a, hstop⟩
    · split at h
      · next hstop => exact absurd (congrArg Prod.fst hstop) hno
      · cases h
    · rw [hstop] at h
      cases h
      rfl
  | message decision hookOk | batch maxSize decision hookOk =>
    rw [if_neg (by simp)]
    simp only [endsBy] at h
    split at h
    · cases h
    · split at h
      · cases h
      · exact names_endsFailing h
  | startHook =>
    rw [if_pos rfl]
    simp only [endsBy, runStartHook, Bool.false_eq_true, if_false] at h
    split at h
    · cases h
    · split_ifs at h
      cases h
      rfl

end Runtime
end Westcoast
