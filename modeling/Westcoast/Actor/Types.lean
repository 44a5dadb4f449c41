import Mathlib.Tactic.Common

/-!
# Result codes and messages of the actor runtime

The enumerations of `types.go`. A policy may return a `SupervisionDecision` outside the three named
values, which are strings in the source; `other` keeps those, since the runtime treats them as a
stop.
-/
namespace Westcoast

inductive SubmitResult
  | accepted
  | rejectedFull
  | rejectedStop
  | rejectedFound
  | rejectedUnsupportedType
  | rejectedNilPayload
  | rejectedVersionMismatch
  deriving DecidableEq

/-- The lifecycle status codes, `ActorStartingCode` to `ActorStoppedCode`. -/
inductive ActorStatus
  | starting
  | running
  | restarting
  | stopping
  | stopped
  deriving DecidableEq

inductive StopResult
  | stopped
  | already
  | notFound
  deriving DecidableEq

inductive SupervisionDecision
  | restart
  | stop
  | escalate
  | other (name : String)
  deriving DecidableEq

inductive ProcessingResult
  | success
  | delivered
  | failed
  | rejectedFull
  | rejectedStop
  | rejectedFound
  | rejectedUnsupportedType
  | rejectedNilPayload
  | rejectedVersionMismatch

/-- The record kept for a message. The supervision fields are zero unless a failed call was decided
on. -/
structure ProcessingOutcome where
  messageID : ℕ
  result : ProcessingResult
  supervisionDecision : Option SupervisionDecision := none
  supervisionIteration : ℕ := 0
  errorCode : String := ""

/-- Of a message envelope: the identifier drawn from the runtime's counter, and the payload. -/
structure Message (π : Type) where
  id : ℕ
  payload : π
  deriving DecidableEq

instance {π : Type} [Inhabited π] : Inhabited (Message π) := ⟨⟨0, default⟩⟩

end Westcoast
