import Westcoast.Actor.Pending
import Westcoast.Cluster.Dispatch

/-!
# Requests and replies between nodes

The nodes as far as `Ask` and `AskPID` are concerned: each has a host, the calls that have not
returned, and the replies matched by `routeAskReply` and not yet put into a channel. Each draws
request identifiers from a counter of its own, so they collide. Anyone sends replies at any time, to
any identifier. The transport delivers an envelope at most once, in any order, or loses it; what it
answers to the sender is part of the action.
-/
namespace Westcoast.Cluster

open Lib

variable {ι π β : Type}

/-- Whom a call asks: `Ask` takes the name of a local actor, `AskPID` an identifier. -/
inductive AskTarget
  | actor (id : String)
  | pid (pid : PID)

def AskTarget.actorID : AskTarget → String
  | .actor id => id
  | .pid p => p.actorID

/-- A call of `Ask` or `AskPID` that has not returned; `submitted` once the request is sent. -/
structure Call where
  wait : PendingAsk
  target : AskTarget
  submitted : Bool

/-- A node: its host, the calls in progress, and the replies on the way to a channel. -/
structure AskingNode (π : Type) where
  host : Westcoast.Host π
  drawn : List Call
  calls : List Call
  offers : List (PendingAsk × AskReplyEnvelope π)

structure Net (ι π β : Type) where
  nodes : ι → AskingNode π
  flight : List (RemoteEnvelope β)

inductive NetEvent (ι π : Type)
  /-- `SendPID` was called. -/
  | sent (pid : PID) (payload : Option π)
  /-- `routeAskReply` on a node answered that the reply was delivered. -/
  | accepted (i : ι) (requestID : String)
  /-- `Ask` or `AskPID` returned a reply. -/
  | returned (i : ι) (wait : PendingAsk) (payload : Option π)
  deriving DecidableEq

/-- The steps. `k` is a position in one of the lists of a node, or in flight. -/
inductive NetAction (ι π : Type)
  | host (i : ι) (a : HostAction π)
  | sendPID (i : ι) (pid : PID) (payload : Option π) (taken : Bool) (fuel : ℕ)
  | draw (i : ι) (target : AskTarget)
  | enter (i : ι) (k : ℕ)
  | submit (i : ι) (k : ℕ) (payload : Option π) (answer : PIDDeliveryOutcome) (taken : Bool)
      (evict fuel : ℕ)
  | deliver (i : ι) (k : ℕ) (fuel : ℕ)
  | lose (k : ℕ)
  | offer (i : ι) (k : ℕ)
  | receive (i : ι) (k : ℕ) (evict : ℕ)
  | giveUp (i : ι) (k : ℕ) (evict : ℕ)

namespace AskingNode

def setAsks (n : AskingNode π) (asks : AskTable π) : AskingNode π :=
  { n with host := { n.host with asks := asks } }

def draw (n : AskingNode π) (target : AskTarget) : AskingNode π :=
  { n.setAsks n.host.asks.draw with
    drawn := n.drawn ++ [⟨n.host.asks.nextRequest n.host.nodeID target.actorID, target, false⟩] }

def enter (n : AskingNode π) (k : ℕ) (call : Call) : AskingNode π :=
  { n.setAsks (n.host.asks.enter call.wait) with
    drawn := n.drawn.eraseIdx k
    calls := n.calls ++ [call] }

/-- The host, whose transport, if it has one, answers this to a request. -/
def answering (n : AskingNode π) (answer : PIDDeliveryOutcome) : Westcoast.Host π :=
  { n.host with remoteAsk := n.host.remoteAsk.map fun _ _ => answer }

/-- The node after a request was sent, or refused and given up. -/
def submitted (n : AskingNode π) (k : ℕ) (call : Call) (r : Bool × Westcoast.Host π) :
    AskingNode π :=
  { n with
    host := r.2
    calls := if r.1 then n.calls.set k { call with submitted := true } else n.calls.eraseIdx k }

def complete (n : AskingNode π) (k : ℕ) (wait : PendingAsk) (evict : ℕ) : AskingNode π :=
  { n with host := n.host.abandon wait evict, calls := n.calls.eraseIdx k }

/-- `routeAskReply` up to the channel. -/
def takeReply [ReplyPayload π] (n : AskingNode π) (pid : PID) (payload : Option π) : AskingNode π :=
  match n.host.asks.matchReply pid (.of payload) with
  | (.error _, asks) => n.setAsks asks
  | (.ok offer, asks) => { n.setAsks asks with offers := n.offers ++ [offer] }

variable [Inhabited π] [Payload π]

/-- `SendPID`, with the envelope it hands to the transport. -/
def sendPID [ReplyPayload π] (codec : Codec π β) (n : AskingNode π) (pid : PID)
    (payload : Option π) (taken : Bool) (fuel : ℕ) :
    Option (AskingNode π × List (RemoteEnvelope β)) :=
  let n := { n with host := n.host.drawID }
  if askReplyHere n.host.nodeID pid then some (n.takeReply pid payload, [])
  else if (n.host.transport n.host.remoteSend pid).isSome then
    some (n, if taken then (codec.envelope pid payload none).toList else [])
  else (n.host.sendResolved pid payload fuel).map fun r => ({ n with host := r.2 }, [])

/-- The call sends its request, with the envelope it hands to the transport. -/
def submit (codec : Codec π β) (n : AskingNode π) (k : ℕ) (call : Call) (payload : Option π)
    (answer : PIDDeliveryOutcome) (taken : Bool) (evict fuel : ℕ) :
    Option (AskingNode π × List (RemoteEnvelope β)) :=
  match call.target with
  | .actor id =>
    (n.host.submitAsk call.wait id payload evict fuel).map fun r => (n.submitted k call r, [])
  | .pid pid =>
    ((n.answering answer).submitAskPID call.wait pid payload evict fuel).map fun r =>
      (n.submitted k call r,
        if taken && (n.host.transport n.host.remoteAsk pid).isSome then
          (codec.envelope pid payload (some ⟨call.wait.requestID, call.wait.replyTo⟩)).toList
        else [])

end AskingNode

namespace Net

def new (hosts : ι → Westcoast.Host π) : Net ι π β where
  nodes := fun i => ⟨{ hosts i with asks := .new }, [], [], []⟩
  flight := []

variable [DecidableEq ι]

def put (s : Net ι π β) (i : ι) (n : AskingNode π) (envs : List (RemoteEnvelope β)) :
    Net ι π β where
  nodes := Function.update s.nodes i n
  flight := s.flight ++ envs

variable [Inhabited π] [Payload π] [ReplyPayload π]

def dispatch (codec : Codec π β) (handlers : List String) (n : AskingNode π)
    (env : RemoteEnvelope β) (fuel : ℕ) : Option (AskingNode π × List (RemoteEnvelope β)) :=
  match (⟨codec, handlers, true⟩ : InboundDispatcher π β).inbound n.host.nodeID env with
  | .elsewhere => some (n, [])
  | .actor id payload ask =>
    (n.host.deliverLocal id payload ask fuel).map fun r => ({ n with host := r.2 }, [])
  | .reply pid payload => n.sendPID codec pid payload true fuel

/-- One step, in a cluster with this codec and these types of system messages. -/
def step (codec : Codec π β) (handlers : ι → List String) (s : Net ι π β) :
    NetAction ι π → Option (Net ι π β × List (NetEvent ι π))
  | .host i a =>
    if a.asksNothing then
      ((s.nodes i).host.step a).map fun r => (s.put i { s.nodes i with host := r.1 } [], [])
    else none
  | .sendPID i pid payload taken fuel =>
    ((s.nodes i).sendPID codec pid payload taken fuel).map fun r =>
      (s.put i r.1 r.2, [.sent pid payload])
  | .draw i target => some (s.put i ((s.nodes i).draw target) [], [])
  | .enter i k =>
    match (s.nodes i).drawn[k]? with
    | none => none
    | some call => some (s.put i ((s.nodes i).enter k call) [], [])
  | .submit i k payload answer taken evict fuel =>
    match (s.nodes i).calls[k]? with
    | none => none
    | some call =>
      if call.submitted then none
      else
        ((s.nodes i).submit codec k call payload answer taken evict fuel).map fun r =>
          (s.put i r.1 r.2, [])
  | .deliver i k fuel =>
    match s.flight[k]? with
    | none => none
    | some env =>
      if env.targetNode = (s.nodes i).host.nodeID then
        (dispatch codec (handlers i) (s.nodes i) env fuel).map fun r =>
          ({ s with flight := s.flight.eraseIdx k }.put i r.1 r.2, [])
      else none
  | .lose k => some ({ s with flight := s.flight.eraseIdx k }, [])
  | .offer i k =>
    match (s.nodes i).offers[k]? with
    | none => none
    | some (wait, env) =>
      let (outcome, asks) := (s.nodes i).host.asks.offer wait env
      some (s.put i { (s.nodes i).setAsks asks with offers := (s.nodes i).offers.eraseIdx k } [],
        if outcome = .delivered then [.accepted i wait.requestID] else [])
  | .receive i k evict =>
    match (s.nodes i).calls[k]? with
    | none => none
    | some call =>
      if call.submitted then
        ((s.nodes i).host.asks.receive call.wait).map fun r =>
          (s.put i (((s.nodes i).setAsks r.2).complete k call.wait evict) [],
            [.returned i call.wait r.1.payload])
      else none
  | .giveUp i k evict =>
    match (s.nodes i).calls[k]? with
    | none => none
    | some call =>
      if call.submitted then some (s.put i ((s.nodes i).complete k call.wait evict) [], [])
      else none

end Net
end Westcoast.Cluster
