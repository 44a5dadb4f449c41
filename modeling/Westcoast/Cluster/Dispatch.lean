import Westcoast.Actor.Host
import Westcoast.Cluster.Election

/-!
# Messages from other nodes

`remote_send.go` and `inbound_handler.go`. An envelope carries the generation of its identifier, but
the dispatcher uses the actor's name alone, and so does `AskPID`; only `SendPID` asks the resolver
(`refused_by_every_entry_iff`). System messages (`handlers`) and forwarded envelopes do not touch
the runtime.
-/
namespace Westcoast.Cluster

open Lib Option

/-- A codec: it may fail, but what it decodes is what was encoded. -/
structure Codec (π β : Type) where
  encode : Option π → Option β
  decode : β → Option (Option π)
  decode_encode : ∀ payload bytes payload',
    encode payload = some bytes → decode bytes = some payload' → payload' = payload

structure RemoteEnvelope (β : Type) where
  targetNode : NodeID
  targetActorID : String
  ns : String
  generation : ℕ
  typeName : String
  payload : β
  isAsk : Bool
  askRequestID : String
  askReplyTo : Option PID
  deriving DecidableEq

def nodeIDFromNamespace (ns : String) : NodeID :=
  if "__ask_reply@".toList.isPrefixOf ns.toList then String.ofList (ns.toList.drop 12) else ns

def typeNameOf {π : Type} [Payload π] : Option π → String
  | none => ""
  | some payload => Payload.typeName payload

/-- The envelope that `RemoteSender.Send` and, with a request, `SendAsk` make of a message. -/
def Codec.envelope {π β : Type} [Payload π] (codec : Codec π β) (pid : PID) (payload : Option π)
    (ask : Option AskRequestContext) : Option (RemoteEnvelope β) :=
  (codec.encode payload).map fun bytes =>
    { targetNode := nodeIDFromNamespace pid.ns
      targetActorID := pid.actorID
      ns := pid.ns
      generation := pid.generation
      typeName := typeNameOf payload
      payload := bytes
      isAsk := ask.isSome
      askRequestID := (ask.map (·.requestID)).getD ""
      askReplyTo := ask.map (·.replyTo) }

def isAskReplyLocal (ns nodeID : String) : Bool :=
  ns = "__ask_reply" || (nodeID ≠ "" && ns = "__ask_reply@" ++ nodeID)

/-- `InboundDispatcher`: the types of the system messages, and whether it can forward. -/
structure InboundDispatcher (π β : Type) where
  codec : Codec π β
  handlers : List String
  forwards : Bool

inductive Inbound (π : Type)
  /-- It is forwarded, given to a system handler, or cannot be decoded. -/
  | elsewhere
  | actor (id : String) (payload : Option π) (ask : Option AskRequestContext)
  | reply (pid : PID) (payload : Option π)

variable {π β : Type}

/-- `Dispatch` on a node, up to the delivery. -/
def InboundDispatcher.inbound (d : InboundDispatcher π β) (nodeID : NodeID)
    (env : RemoteEnvelope β) : Inbound π :=
  if d.forwards && env.targetNode ≠ "" && env.targetNode ≠ nodeID then .elsewhere
  else if env.typeName ∈ d.handlers then .elsewhere
  else
    match d.codec.decode env.payload with
    | none => .elsewhere
    | some payload =>
      match env.isAsk, env.askReplyTo with
      | true, some replyTo => .actor env.targetActorID payload (some ⟨env.askRequestID, replyTo⟩)
      | _, _ =>
        if isAskReplyLocal env.ns nodeID then
          .reply ⟨env.ns, env.targetActorID, env.generation⟩ payload
        else .actor env.targetActorID payload none

/-- An envelope for this node is decoded and goes to its actor or, if no request, to a request that
waits. -/
theorem inbound_cases (d : InboundDispatcher π β) (nodeID : NodeID) (env : RemoteEnvelope β) :
    d.inbound nodeID env = .elsewhere ∨ ∃ payload, d.codec.decode env.payload = some payload ∧
      ((∃ ask, d.inbound nodeID env = .actor env.targetActorID payload ask) ∨
        (env.isAsk = false ∨ env.askReplyTo = none) ∧ isAskReplyLocal env.ns nodeID = true ∧
          d.inbound nodeID env = .reply ⟨env.ns, env.targetActorID, env.generation⟩ payload) := by
  simp only [InboundDispatcher.inbound]
  by_cases hforward : (d.forwards && env.targetNode ≠ "" && env.targetNode ≠ nodeID) = true
  · exact .inl (if_pos hforward)
  rw [if_neg hforward]
  by_cases hsystem : env.typeName ∈ d.handlers
  · exact .inl (if_pos hsystem)
  rw [if_neg hsystem]
  cases hdec : d.codec.decode env.payload with
  | none => exact .inl rfl
  | some payload =>
    refine .inr ⟨payload, rfl, ?_⟩
    simp only
    cases hask : env.isAsk with
    | true =>
      cases hto : env.askReplyTo with
      | some replyTo => exact .inl ⟨_, rfl⟩
      | none =>
        simp only
        split_ifs with hreply
        · exact .inr ⟨.inr trivial, hreply, rfl⟩
        · exact .inl ⟨none, rfl⟩
    | false =>
      simp only
      split_ifs with hreply
      · exact .inr ⟨.inl trivial, hreply, rfl⟩
      · exact .inl ⟨none, rfl⟩

variable [Inhabited π] [Payload π] [ReplyPayload π]

/-- `Dispatch`, as far as the runtime is concerned. -/
def InboundDispatcher.dispatch (d : InboundDispatcher π β) (h : Westcoast.Host π)
    (env : RemoteEnvelope β) (fuel : ℕ) : Option (Westcoast.Host π) :=
  match d.inbound h.nodeID env with
  | .elsewhere => some h
  | .actor id payload ask => (h.deliverLocal id payload ask fuel).map (·.2)
  | .reply pid payload => (h.sendPID pid payload fuel).map (·.2)

/-- No message gets to the actor of an identifier by `AskPID`, nor by an envelope of
another node. -/
structure ClosedToOthers (h : Westcoast.Host π) (d : InboundDispatcher π β) (pid : PID)
    (payload : π) : Prop where
  ask : ∀ evict fuel ok h', h.askPID pid (some payload) evict fuel = some (ok, h') →
    h'.messages pid.actorID = h.messages pid.actorID
  remote : ∀ ask env fuel h', d.codec.envelope pid (some payload) ask = some env →
    d.dispatch h env fuel = some h' → h'.messages pid.actorID = h.messages pid.actorID

theorem messages_dispatch_of_not_takes {h h' : Westcoast.Host π} {d : InboundDispatcher π β}
    {pid : PID} {payload : π} {ask : Option AskRequestContext} {env : RemoteEnvelope β} {fuel : ℕ}
    (hns : pid.ns = h.nodeID) (hrefused : (h.refusal pid).isSome = true)
    (htakes : h.takes pid.actorID payload = false)
    (henv : d.codec.envelope pid (some payload) ask = some env)
    (hdispatch : d.dispatch h env fuel = some h') :
    h'.messages pid.actorID = h.messages pid.actorID := by
  simp only [Codec.envelope, map_eq_some_iff] at henv
  obtain ⟨bytes, hbytes, rfl⟩ := henv
  simp only [InboundDispatcher.dispatch] at hdispatch
  rcases inbound_cases d h.nodeID _ with hin | ⟨decoded, hdec, ⟨askCtx, hin⟩ | ⟨-, -, hin⟩⟩
  · rw [hin] at hdispatch
    cases hdispatch
    rfl
  · rw [hin] at hdispatch
    obtain rfl := d.codec.decode_encode _ _ _ hbytes hdec
    obtain ⟨⟨result, h1⟩, hsend, rfl⟩ := map_eq_some_iff.mp hdispatch
    exact Host.messages_of_not_takes htakes hsend
  · rw [hin] at hdispatch
    obtain ⟨⟨outcome, h1⟩, hsend, rfl⟩ := map_eq_some_iff.mp hdispatch
    exact Host.messages_sendPID_refused hns hrefused hsend pid.actorID

/-- **All entries refuse alike** what `SendPID` refuses, exactly if the actor would not take the
message anyway: it is a router, not there or stopped, has type routes that exclude the message, or a
mailbox that is closed or full. -/
theorem refused_by_every_entry_iff (h : Westcoast.Host π) (d : InboundDispatcher π β) (pid : PID)
    (payload : π) (hns : pid.ns = h.nodeID) (hrefused : (h.refusal pid).isSome = true) :
    ClosedToOthers h d pid payload ↔ h.takes pid.actorID payload = false := by
  constructor
  · intro hclosed
    by_contra htakes
    -- one step of fuel is enough for an actor that is no router
    have htakes' : (h.asking pid.actorID).takes pid.actorID payload = true := by
      simpa using htakes
    let wait := (h.asks.newAskRequest h.nodeID pid.actorID).1
    obtain ⟨h', hsend, hmsgs⟩ :=
      Host.messages_of_takes htakes' (some ⟨wait.requestID, wait.replyTo⟩) 0
    have hask : h.askPID pid (some payload) 0 1 = some (true, h') := by
      rw [Host.askPID_self hns]
      exact congrArg (Option.map _) hsend
    have hsame := hclosed.ask 0 1 true h' hask
    simp [hmsgs] at hsame
  · intro htakes
    refine ⟨?_, ?_⟩
    · intro evict fuel ok h' hask
      exact Host.messages_askPID_of_not_takes hns htakes hask
    · intro ask env fuel h' henv hdispatch
      exact messages_dispatch_of_not_takes hns hrefused htakes henv hdispatch

def Codec.plain : Codec π (Option π) := ⟨some, some, by simp⟩

def hostOf (rt : Runtime (Request String)) : Westcoast.Host String :=
  { Westcoast.Host.new rt.nodeID none none none (fun _ => 0) with toRuntime := rt }

/-- A stopped actor is out of reach in every way. -/
theorem refused_by_every_entry_stopped : ∃ (rt : Runtime (Request String)) (tr : List RuntimeEvent),
      Run Runtime.step anyStep (Runtime.new "n1" none) tr rt ∧
        (hostOf rt).refusal ⟨"n1", "a", 1⟩ = some .rejectedStopped ∧
          ClosedToOthers (hostOf rt) ⟨Codec.plain, [], true⟩ ⟨"n1", "a", 1⟩ "x" := by
  obtain ⟨tr, rt, hrun, hnode, hrefused, htakes⟩ : ∃ tr, ∃ rt : Runtime (Request String),
      Run Runtime.step anyStep (Runtime.new "n1" none) tr rt ∧ rt.nodeID = "n1" ∧
      (hostOf rt).refusal ⟨"n1", "a", 1⟩ = some .rejectedStopped ∧
      (hostOf rt).takes "a" "x" = false :=
    Run.of_check [.createActor "a" false 4 true, .issuePID "" "a", .stop "a"] (by decide +kernel)
  refine ⟨rt, tr, hrun, hrefused, ?_⟩
  exact (refused_by_every_entry_iff (hostOf rt) ⟨Codec.plain, [], true⟩ ⟨"n1", "a", 1⟩ "x"
    hnode.symm (by rw [hrefused]; rfl)).mpr htakes

/-- A restart makes the first identifier stale. Of the three ways only `SendPID` refuses it. -/
theorem stale_identifier_gets_in : ∃ (rt : Runtime (Request String)) (tr : List RuntimeEvent)
      (env : RemoteEnvelope (Option String)),
      Run Runtime.step anyStep (Runtime.new "n1" none) tr rt ∧ (hostOf rt).messages "a" = [] ∧
        ((hostOf rt).sendPID ⟨"n1", "a", 1⟩ (some "x") 1).map (·.1) =
          some .rejectedStaleGeneration ∧
        ((hostOf rt).askPID ⟨"n1", "a", 1⟩ (some "x") 0 1).map
          (fun r => (r.2.messages "a").length) = some 1 ∧
        Codec.plain.envelope ⟨"n1", "a", 1⟩ (some "x") none = some env ∧
        ((⟨Codec.plain, [], true⟩ : InboundDispatcher String _).dispatch (hostOf rt) env 1).map
          (fun h => (h.messages "a").length) = some 1 := by
  let env : RemoteEnvelope (Option String) :=
    ⟨"n1", "a", "n1", 1, "string", some "x", false, "", none⟩
  obtain ⟨tr, rt, hrun, hempty, hsend, hask, hdispatch⟩ : ∃ tr, ∃ rt : Runtime (Request String),
      Run Runtime.step anyStep (Runtime.new "n1" none) tr rt ∧
      (hostOf rt).messages "a" = [] ∧
      ((hostOf rt).sendPID ⟨"n1", "a", 1⟩ (some "x") 1).map (·.1) = some .rejectedStaleGeneration ∧
      ((hostOf rt).askPID ⟨"n1", "a", 1⟩ (some "x") 0 1).map (fun r => (r.2.messages "a").length) =
        some 1 ∧
      ((⟨Codec.plain, [], true⟩ : InboundDispatcher String _).dispatch (hostOf rt) env 1).map
        (fun h => (h.messages "a").length) = some 1 :=
    Run.of_check [.createActor "a" false 4 true, .issuePID "" "a", .send "a" (some ⟨"y", none⟩),
      .process "a" (.failed .restart true)] (by decide +kernel)
  exact ⟨rt, tr, env, hrun, hempty, hsend, hask, by decide +kernel, hdispatch⟩

end Westcoast.Cluster
