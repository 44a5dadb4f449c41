import Westcoast.Lib.Machine
import Westcoast.Actor.Mailbox

/-!
# One actor instance and everything that runs beside it

The instance is shared by its own goroutine (`runActor` with `processBatch` and `processMessage`),
by calls of `Stop` and `StopAndCapture`, by senders, and by callers that reconfigure batching. Each
access to a shared variable is a step. What handlers, hooks and policies return is part of the
action. The outcome journal, which nothing here reads, is written in the step next to it.
-/
namespace Westcoast

open Lib

/-- The batching configuration; `receiver` says that a receiver is installed. -/
structure BatchConfig where
  enabled : Bool := false
  maxSize : ℤ := 0
  receiver : Bool := false

structure ActorState (σ : Type) where
  revision : ℕ
  payload : σ

namespace ActorState
variable {σ : Type}

def new (initial : σ) : ActorState σ := ⟨0, initial⟩

def apply (s : ActorState σ) (next : σ) : ActorState σ := ⟨s.revision + 1, next⟩

def value (s : ActorState σ) : σ := s.payload

@[simp] theorem value_new (initial : σ) : (new initial).value = initial := rfl
@[simp] theorem value_apply (s : ActorState σ) (next : σ) : (s.apply next).value = next := rfl

end ActorState

/-- What a call of the handler or of `BatchReceive` did. A panic is recovered and
becomes an error. -/
inductive CallResult (σ : Type)
  | ok (next : σ)
  | error
  | panic

/-- One call of user code: the messages, and for `BatchReceive` the `MaxSize` the drain loop had
read. -/
structure Call (π : Type) where
  msgs : List (Message π)
  limit : Option ℤ

/-- A write to a shared variable that a path of the goroutine performs in order. -/
inductive Effect
  | setStatus (status : ActorStatus)
  | resetState
  | cancel
  | closeMailbox
  deriving DecidableEq

/-- Where the goroutine goes on after some effects. `rest` is what the fallback loop of
`processBatch` has still to process. -/
inductive Cont (π : Type)
  | select
  | exit
  | rehook (rest : List (Message π))
  | resume (rest : List (Message π))

inductive Pc (σ π : Type)
  /-- `runActor` is running the start hook. -/
  | starting
  /-- Blocked in the `select` of `runActor`. -/
  | selecting
  /-- At the top of the drain loop, about to read the batch configuration. -/
  | draining
  /-- About to dequeue under the configuration read. -/
  | dequeuing (cfg : BatchConfig)
  /-- In `processBatch`, about to read the configuration again. -/
  | batch (msgs : List (Message π)) (limit : ℤ)
  /-- In `processMessage`, about to read the state. -/
  | message (msg : Message π) (rest : List (Message π))
  /-- User code is running. -/
  | calling (call : Call π) (rest : List (Message π))
  /-- User code returned a next state that is not applied yet. -/
  | succeeded (call : Call π) (next : σ) (rest : List (Message π))
  /-- User code failed and the supervisor is being asked. -/
  | failed (call : Call π) (rest : List (Message π))
  /-- Performing shared writes in order. -/
  | effects (es : List Effect) (k : Cont π)
  /-- Running the start hook of a restart. -/
  | rehook (rest : List (Message π))
  /-- The goroutine has returned. -/
  | exited

inductive StopPc
  /-- About to read the status. -/
  | check
  /-- Found not stopped, about to store `Stopping`. -/
  | store
  /-- `StopAndCapture` only: about to read the state. -/
  | capture
  /-- Running the stop hook. -/
  | hook
  /-- About to store `Stopped`. -/
  | storeStopped
  | cancel
  | closeMailbox
  | returned (result : StopResult)
  deriving DecidableEq

/-- A `Stop` call, or a `StopAndCapture` call when `capture` is set. -/
structure StopCall (σ : Type) where
  capture : Bool
  pc : StopPc
  captured : Option σ

/-- The shared variables, the program point of the goroutine, the stop calls, and the sends between
the status check and `Enqueue`. -/
structure Instance (σ π : Type) where
  status : ActorStatus
  mailbox : Mailbox (Message π)
  state : ActorState σ
  initialState : σ
  restarts : ℕ
  lastDecision : Option SupervisionDecision
  canceled : Bool
  batch : BatchConfig
  pc : Pc σ π
  stops : List (StopCall σ)
  sends : List (Message π)
  msgSeq : ℕ
  outcomes : List ProcessingOutcome

/-- Who moves, and what the code outside the runtime answers. -/
inductive Action (σ π : Type)
  | hookReturns (ok : Bool)
  | selectDone
  | selectNotify
  | readBatch
  | dequeue
  | enter
  | callReturns (result : CallResult σ)
  | apply
  | decide (decision : SupervisionDecision)
  | effect
  | stop (capture : Bool)
  | stopStep (i : ℕ)
  | send (payload : π)
  | enqueue (i : ℕ)
  | routeReject (i : ℕ) (mismatch : Bool)
  | drawID
  | configureBatching (maxSize : ℤ) (receiver : Bool)
  | disableBatching

inductive Event (σ π : Type)
  /-- The mailbox accepted a message. -/
  | accepted (msg : Message π)
  /-- User code was called on a state. -/
  | called (call : Call π) (state : σ)
  /-- The call came back. -/
  | returned (call : Call π) (result : CallResult σ)
  /-- The result of a successful call was stored. -/
  | applied (call : Call π) (next : σ)
  /-- The supervisor decided on a failed call. -/
  | decided (call : Call π) (decision : SupervisionDecision)
  /-- A `StopAndCapture` call read the state. -/
  | captured (i : ℕ) (state : σ)

variable {σ π : Type}

/-- The next iteration of the fallback loop, or the drain loop when it is done. -/
def Pc.resume : List (Message π) → Pc σ π
  | [] => .draining
  | msg :: rest => .message msg rest

def Cont.pc : Cont π → Pc σ π
  | .select => .selecting
  | .exit => .exited
  | .rehook rest => .rehook rest
  | .resume rest => .resume rest

/-- The point after some effects have been performed and `es` remain. -/
def Pc.after : List Effect → Cont π → Pc σ π
  | [], k => k.pc
  | e :: es, k => .effects (e :: es) k

/-- The writes of a start hook that fails in `runActor`. -/
def startFailed : List Effect := [.setStatus .stopped, .closeMailbox, .cancel]

/-- The writes that end an actor on the terminal branches of both processing
functions. -/
def terminate : List Effect := [.setStatus .stopped, .cancel, .closeMailbox]

/-- The writes of a restart decision before the start hook runs again. -/
def beginRestart : List Effect := [.setStatus .restarting, .resetState]

namespace Instance

def runEffect (s : Instance σ π) : Effect → Instance σ π
  | .setStatus status => { s with status := status }
  | .resetState => { s with state := .new s.initialState }
  | .cancel => { s with canceled := true }
  | .closeMailbox => { s with mailbox := s.mailbox.close }

def record (s : Instance σ π) (call : Call π) (out : ℕ → ProcessingOutcome) : Instance σ π :=
  { s with outcomes := s.outcomes ++ call.msgs.map fun msg => out msg.id }

def errorCode (call : Call π) : String :=
  if call.limit.isSome then "batch_handler_error" else "handler_error"

/-- The restart branch or a terminal branch of the failure path of `processBatch` and
`processMessage`. -/
def supervise (s : Instance σ π) (call : Call π) (rest : List (Message π))
    (decision : SupervisionDecision) : Instance σ π :=
  let s := s.record call fun id =>
    { messageID := id, result := .failed, supervisionDecision := some decision,
      supervisionIteration := s.restarts, errorCode := errorCode call }
  let s := { s with lastDecision := some decision }
  match decision with
  | .restart =>
    { s with restarts := s.restarts + 1, pc := .effects beginRestart (.rehook rest) }
  | _ => { s with pc := .effects terminate (.resume rest) }

variable [Inhabited π]

/-- Dequeue under the configuration the drain loop has read. -/
def drainStep (s : Instance σ π) (cfg : BatchConfig) : Instance σ π :=
  if cfg.enabled && decide (cfg.maxSize > 1) then
    let (msgs, mailbox) := s.mailbox.dequeueBatch cfg.maxSize
    { s with
      mailbox := mailbox, pc := if msgs.isEmpty then .selecting else .batch msgs cfg.maxSize }
  else
    match s.mailbox.dequeue with
    | (none, mailbox) => { s with mailbox := mailbox, pc := .selecting }
    | (some msg, mailbox) => { s with mailbox := mailbox, pc := .message msg [] }

def startCall (s : Instance σ π) (call : Call π) (rest : List (Message π)) :
    Instance σ π × List (Event σ π) :=
  ({ s with pc := .calling call rest }, [.called call s.state.value])

/-- One step of `runActor`, between two of its shared accesses. -/
def goroutineStep (s : Instance σ π) :
    Pc σ π → Action σ π → Option (Instance σ π × List (Event σ π))
  | .starting, .hookReturns true =>
    some ({ s with pc := .effects [.setStatus .running] .select }, [])
  | .starting, .hookReturns false => some ({ s with pc := .effects startFailed .exit }, [])
  | .selecting, .selectDone =>
    if s.canceled then some ({ s with pc := .effects [.setStatus .stopped] .exit }, []) else none
  | .selecting, .selectNotify =>
    if s.mailbox.notify then
      some ({ s with mailbox := { s.mailbox with notify := false }, pc := .draining }, [])
    else none
  | .draining, .readBatch => some ({ s with pc := .dequeuing s.batch }, [])
  | .dequeuing cfg, .dequeue => some (s.drainStep cfg, [])
  | .batch msgs limit, .enter =>
    if !s.batch.enabled || !s.batch.receiver then some ({ s with pc := .resume msgs }, [])
    else some (s.startCall ⟨msgs, some limit⟩ [])
  | .message msg rest, .enter => some (s.startCall ⟨[msg], none⟩ rest)
  | .calling call rest, .callReturns result =>
    let pc := match result with
      | .ok next => .succeeded call next rest
      | .error | .panic => .failed call rest
    some ({ s with pc := pc }, [.returned call result])
  | .succeeded call next rest, .apply =>
    let s := { s with state := s.state.apply next }
    let s := s.record call fun id => { messageID := id, result := .delivered }
    some ({ s with pc := .resume rest }, [.applied call next])
  | .failed call rest, .decide decision =>
    some (s.supervise call rest decision, [.decided call decision])
  | .effects (e :: es) k, .effect => some ({ s.runEffect e with pc := .after es k }, [])
  | .rehook rest, .hookReturns true =>
    some ({ s with pc := .effects [.setStatus .running] (.resume rest) }, [])
  | .rehook rest, .hookReturns false =>
    some ({ s with pc := .effects terminate (.resume rest) }, [])
  | _, _ => none

/-- One step of `Stop` or `StopAndCapture`. -/
def stopStep (s : Instance σ π) (i : ℕ) (c : StopCall σ) :
    Option (Instance σ π × List (Event σ π)) :=
  let put (s : Instance σ π) (c : StopCall σ) := { s with stops := s.stops.set i c }
  match c.pc with
  | .check =>
    some (put s { c with pc := if s.status = .stopped then .returned .already else .store }, [])
  | .store =>
    some (put { s with status := .stopping }
      { c with pc := if c.capture then .capture else .hook }, [])
  | .capture =>
    some (put s { c with pc := .hook, captured := some s.state.value }, [.captured i s.state.value])
  | .hook => some (put s { c with pc := .storeStopped }, [])
  | .storeStopped => some (put { s with status := .stopped } { c with pc := .cancel }, [])
  | .cancel => some (put { s with canceled := true } { c with pc := .closeMailbox }, [])
  | .closeMailbox =>
    some (put { s with mailbox := s.mailbox.close } { c with pc := .returned .stopped }, [])
  | .returned _ => none

/-- The refusals of `sendWithAskContext` after a message identifier is drawn. -/
def reject (s : Instance σ π) (id : ℕ) (result : ProcessingResult) (code : String) : Instance σ π :=
  { s with outcomes := s.outcomes ++ [{ messageID := id, result := result, errorCode := code }] }

/-- `Enqueue` for a send that has passed the checks, and the handling of its result. -/
def enqueueStep (s : Instance σ π) (msg : Message π) : Instance σ π × List (Event σ π) :=
  match s.mailbox.enqueue msg with
  | (.accepted, mailbox) => ({ s with mailbox := mailbox }, [.accepted msg])
  | (.rejectedFull, mailbox) =>
    ({ s with mailbox := mailbox }.reject msg.id .rejectedFull "rejected_full", [])
  | (_, mailbox) =>
    ({ s with mailbox := mailbox }.reject msg.id .rejectedStop "rejected_stopped", [])

def step (s : Instance σ π) : Action σ π → Option (Instance σ π × List (Event σ π))
  | .stop capture => some ({ s with stops := s.stops ++ [⟨capture, .check, none⟩] }, [])
  | .stopStep i => s.stops[i]?.bind (s.stopStep i)
  | .send payload =>
    let msg : Message π := ⟨s.msgSeq + 1, payload⟩
    let s := { s with msgSeq := s.msgSeq + 1 }
    if s.status = .stopped then some (s.reject msg.id .rejectedStop "rejected_stopped", [])
    else some ({ s with sends := s.sends ++ [msg] }, [])
  | .enqueue i =>
    s.sends[i]?.map fun msg => { s with sends := s.sends.eraseIdx i }.enqueueStep msg
  | .routeReject i mismatch =>
    s.sends[i]?.map fun msg =>
      let s := { s with sends := s.sends.eraseIdx i }
      (if mismatch then s.reject msg.id .rejectedVersionMismatch "rejected_version_mismatch"
        else s.reject msg.id .rejectedUnsupportedType "rejected_unsupported_type", [])
  | .drawID => some ({ s with msgSeq := s.msgSeq + 1 }, [])
  | .configureBatching maxSize receiver =>
    if maxSize ≤ 0 then some (s, [])
    else some ({ s with batch := ⟨true, maxSize, receiver⟩ }, [])
  | .disableBatching => some ({ s with batch := {} }, [])
  | a => s.goroutineStep s.pc a

/-- The instance `CreateActor` registers and starts a goroutine for. -/
def new (initialState : σ) (capacity : ℤ) (batch : BatchConfig) : Instance σ π where
  status := .starting
  mailbox := .new capacity
  state := .new initialState
  initialState := initialState
  restarts := 0
  lastDecision := none
  canceled := false
  batch := batch
  pc := .starting
  stops := []
  sends := []
  msgSeq := 0
  outcomes := []

end Instance

end Westcoast
