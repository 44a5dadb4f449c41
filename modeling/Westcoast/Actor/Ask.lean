import Westcoast.Lib.Assoc
import Westcoast.Actor.PID

/-!
# The requests a runtime waits for

`Ask` and `AskPID` of `runtime.go`. Under one mutex, `askWait` holds the pending requests,
`askReply` their reply addresses and `askClosed` which requests are over; a pending request has a
channel for one reply, here an entry of `waitCh`. The source counts in 64 bits.
-/
namespace Westcoast

open Lib Nat

variable {π : Type}

/-- `AskRequestContext`: what the asked actor gets to know of the request. -/
structure AskRequestContext where
  requestID : String
  replyTo : PID
  deriving DecidableEq

/-- `pendingAsk`, without its channel. -/
structure PendingAsk where
  requestID : String
  targetActor : String
  replyTo : PID
  deriving DecidableEq

/-- `AskReplyEnvelope`, without its time stamp; a missing payload is Go's `nil`. -/
structure AskReplyEnvelope (π : Type) where
  requestID : String
  payload : Option π

/-- What is sent as a reply: any payload, or one wrapped by the sender. -/
inductive Reply (π : Type)
  | bare (payload : Option π)
  | envelope (env : AskReplyEnvelope π)

/-- Payloads of which some are envelopes. -/
class ReplyPayload (π : Type) where
  envelope : π → Option (AskReplyEnvelope π)

/-- A payload as a reply: the type assertion of `routeAskReply`. -/
def Reply.of [ReplyPayload π] (payload : Option π) : Reply π :=
  match payload.bind ReplyPayload.envelope with
  | some env => .envelope env
  | none => .bare payload

/-- What the asker gets to see of a reply. -/
def Reply.payload : Reply π → Option π
  | .bare payload => payload
  | .envelope env => env.payload

/-- The envelope `routeAskReply` passes on for a request. -/
def Reply.wrap (requestID : String) : Reply π → AskReplyEnvelope π
  | .bare payload => ⟨requestID, payload⟩
  | .envelope env => if env.requestID = "" then { env with requestID := requestID } else env

def askReplyNamespaceOf (nodeID : String) : String :=
  if nodeID = "" then "__ask_reply" else "__ask_reply@" ++ nodeID

/-- Whether the identifier is a reply address of this node. -/
def askReplyHere (nodeID : String) (pid : PID) : Bool :=
  isAskReplyNamespace pid.ns &&
    (nodeID = "" || pid.ns = "__ask_reply" || pid.ns = "__ask_reply@" ++ nodeID)

/-- The maps of the runtime for its open and closed requests. -/
structure AskTable (π : Type) where
  askSeq : ℕ
  askWait : AList (fun _ : String => PendingAsk)
  askReply : AList (fun _ : String => String)
  askClosed : AList (fun _ : String => String)
  waitCh : AList (fun _ : String => Option (AskReplyEnvelope π))

namespace AskTable

def new : AskTable π := ⟨0, ∅, ∅, ∅, ∅⟩

theorem repr_inj {n m : ℕ} (h : n.repr = m.repr) : n = m := by
  have hdigits : toDigits 10 n = toDigits 10 m := by
    rw [← toList_repr, ← toList_repr, h]
  have hback := congrArg (fun digits => ofDigitChars 10 digits 0) hdigits
  simpa using hback

def requestID (n : ℕ) : String := "ask-" ++ n.repr

def nextRequest (t : AskTable π) (nodeID targetActor : String) : PendingAsk :=
  let id := requestID (t.askSeq + 1)
  ⟨id, targetActor, ⟨askReplyNamespaceOf nodeID, id, 1⟩⟩

def draw (t : AskTable π) : AskTable π := { t with askSeq := t.askSeq + 1 }

/-- The part of `newAskRequest` under the mutex. -/
def enter (t : AskTable π) (wait : PendingAsk) : AskTable π :=
  { t with
    askWait := t.askWait.insert wait.requestID wait
    askReply := t.askReply.insert wait.replyTo.key wait.requestID
    waitCh := t.waitCh.insert wait.requestID none }

def newAskRequest (t : AskTable π) (nodeID targetActor : String) : PendingAsk × AskTable π :=
  (t.nextRequest nodeID targetActor, t.draw.enter (t.nextRequest nodeID targetActor))

/-- The closed requests, one forgotten if there are too many; `evict` is the first of the map's
iteration. -/
def trim (closed : AList (fun _ : String => String)) (evict : ℕ) :
    AList (fun _ : String => String) :=
  if closed.keys.length > 4096 then
    closed.erase (closed.keys.getD (evict % closed.keys.length) "")
  else closed

/-- `completeAskRequest`, also for a request that was answered. -/
def completeAskRequest (t : AskTable π) (wait : PendingAsk) (evict : ℕ) : AskTable π :=
  { t with
    askWait := t.askWait.erase wait.requestID
    askReply := t.askReply.erase wait.replyTo.key
    askClosed := trim (t.askClosed.insert wait.requestID wait.targetActor) evict }

/-- The request of a reply address is taken out of the pending ones. -/
def close (t : AskTable π) (replyKey requestID targetActor : String) : AskTable π :=
  { t with
    askWait := t.askWait.erase requestID
    askReply := t.askReply.erase replyKey
    askClosed := t.askClosed.insert requestID targetActor }

/-- A reply is put into the channel of a request, if there is room. -/
def offer (t : AskTable π) (wait : PendingAsk) (env : AskReplyEnvelope π) :
    PIDDeliveryOutcome × AskTable π :=
  match t.waitCh.lookup wait.requestID with
  | some none => (.delivered, { t with waitCh := t.waitCh.insert wait.requestID (some env) })
  | _ => (.rejectedStopped, t)

/-- `routeAskReply` under the mutex, for an address of its own: the request is no longer pending,
and the reply is ready for its channel. A request in `askReply` alone has no channel. -/
def matchReply (t : AskTable π) (pid : PID) (reply : Reply π) :
    Except PIDDeliveryOutcome (PendingAsk × AskReplyEnvelope π) × AskTable π :=
  match t.askReply.lookup pid.key with
  | none =>
    (.error (if (t.askClosed.lookup pid.actorID).isSome then .rejectedStopped
      else .rejectedNotFound), t)
  | some requestID =>
    let wait := t.askWait.lookup requestID
    let t := t.close pid.key requestID ((wait.map (·.targetActor)).getD "")
    let env := reply.wrap requestID
    if env.requestID ≠ requestID then (.error .rejectedNotFound, t)
    else
      match wait with
      | some wait => (.ok (wait, env), t)
      | none => (.error .rejectedStopped, t)

/-- `routeAskReply` in one go. -/
def routeAskReply (t : AskTable π) (pid : PID) (reply : Reply π) :
    PIDDeliveryOutcome × AskTable π :=
  match t.matchReply pid reply with
  | (.error outcome, t) => (outcome, t)
  | (.ok (wait, env), t) => t.offer wait env

/-- The caller takes the reply out of its channel. -/
def receive (t : AskTable π) (wait : PendingAsk) : Option (AskReplyEnvelope π × AskTable π) :=
  match t.waitCh.lookup wait.requestID with
  | some (some env) => some (env, { t with waitCh := t.waitCh.insert wait.requestID none })
  | _ => none

end AskTable
end Westcoast
