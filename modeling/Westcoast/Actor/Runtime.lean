import Westcoast.Lib.Assoc
import Westcoast.Lib.Machine
import Westcoast.Actor.Mailbox
import Westcoast.Actor.PID

/-!
# The runtime and its identifiers

The operations of `runtime.go` that create, address, restart, stop and remove actors, one at a time.
`process` takes one message through `processMessage`, with the handler's result and the supervisor's
decision. No request is outstanding, and routers and type routes are not configured. The source's
second map of names is the index of the first by actor.
-/
namespace Westcoast

open Lib InMemoryPIDResolver

structure ActorEntry (π : Type) where
  status : ActorStatus
  mailbox : Mailbox (Message π)
  restarts : ℕ

/-- The name registry: the actor and the identifier registered under a name. -/
abbrev NamedRegistry := AList (fun _ : String => String × PID)

/-- A runtime. `remoteSend` is the transport of a clustered runtime. -/
structure Runtime (π : Type) where
  nodeID : String
  remoteSend : Option (PID → PIDDeliveryOutcome)
  registry : AList (fun _ : String => ActorEntry π)
  names : NamedRegistry
  actorPID : AList (fun _ : String => PID)
  resolver : InMemoryPIDResolver
  msgSeq : ℕ

/-- The pattern `^[A-Za-z0-9][A-Za-z0-9._-]{0,127}$` of registry names. -/
def validRegistryName (name : String) : Bool :=
  match name.toList with
  | [] => false
  | c :: cs =>
    let alphanumeric (c : Char) : Bool :=
      ('A' ≤ c ∧ c ≤ 'Z') ∨ ('a' ≤ c ∧ c ≤ 'z') ∨ ('0' ≤ c ∧ c ≤ '9')
    alphanumeric c && cs.length ≤ 127 &&
      cs.all fun c => alphanumeric c || c = '.' || c = '_' || c = '-'

/-- The errors of the runtime's operations, with what their texts are built from. -/
inductive RuntimeError
  | emptyActorID
  | nilHandler
  | duplicateActorID
  | actorNotFound
  | actorStillRunning (id : String)
  | invalidPID (reason : String)
  | registryNameInvalid (name : String)
  | registryDuplicateName
  deriving DecidableEq

/-- The handler succeeded, or it failed and the supervisor decided. `hookOk` matters on a restart
only. -/
inductive Processed
  | ok
  | failed (decision : SupervisionDecision) (hookOk : Bool)
  deriving DecidableEq

namespace Runtime

variable {π : Type}

def new (nodeID : String) (remoteSend : Option (PID → PIDDeliveryOutcome)) : Runtime π where
  nodeID := nodeID
  remoteSend := remoteSend
  registry := ∅
  names := ∅
  actorPID := ∅
  resolver := .new
  msgSeq := 0

/-- `CreateActor` and the start hook of the new actor. -/
def createActor [Inhabited π] (rt : Runtime π) (id : String) (nilHandler : Bool) (capacity : ℤ)
    (hookOk : Bool) : Except RuntimeError (Runtime π) :=
  if id = "" then .error .emptyActorID
  else if nilHandler then .error .nilHandler
  else if (rt.registry.lookup id).isSome then .error .duplicateActorID
  else
    let a : ActorEntry π :=
      if hookOk then ⟨.running, .new capacity, 0⟩ else ⟨.stopped, (Mailbox.new capacity).close, 0⟩
    .ok { rt with registry := rt.registry.insert id a }

/-- The identifier `IssuePID` registers: the first generation, in the node's own
namespace by default. -/
def pidToIssue (rt : Runtime π) (ns id : String) : PID :=
  ⟨if ns = "" ∧ rt.nodeID ≠ "" then rt.nodeID else ns, id, 1⟩

def issuePID (rt : Runtime π) (ns id : String) : Except RuntimeError (PID × Runtime π) :=
  if (rt.registry.lookup id).isNone then .error .actorNotFound
  else
    let pid := rt.pidToIssue ns id
    match pid.validate with
    | .error reason => .error (.invalidPID reason)
    | .ok () =>
      .ok (pid, { rt with
        resolver := rt.resolver.register pid
        actorPID := rt.actorPID.insert id pid })

/-- The identifier `RegisterName` finds in the namespace, if it need not issue one. -/
def pidInNamespace (rt : Runtime π) (id ns : String) : Option PID :=
  (rt.actorPID.lookup id).filter fun pid => pid.ns = ns

def registerEntry (rt : Runtime π) (name id : String) (pid : PID) :
    Except RuntimeError PID × Runtime π :=
  if !validRegistryName name then (.error (.registryNameInvalid name), rt)
  else if (rt.names.lookup name).isSome then (.error .registryDuplicateName, rt)
  else (.ok pid, { rt with names := rt.names.insert name (id, pid) })

/-- `RegisterName`. A name that is refused leaves an identifier issued for it. -/
def registerName (rt : Runtime π) (id name ns : String) : Except RuntimeError PID × Runtime π :=
  if (rt.registry.lookup id).isNone then (.error .actorNotFound, rt)
  else
    let ns := if ns = "" then "default" else ns
    match rt.pidInNamespace id ns with
    | some pid => rt.registerEntry name id pid
    | none =>
      match rt.issuePID ns id with
      | .error e => (.error e, rt)
      | .ok (pid, rt) => rt.registerEntry name id pid

/-- `LookupName`: the names of this runtime, then those of the cluster, if there is one. -/
def lookupName (rt : Runtime π) (clusterLookup : Option (String → Option PID)) (name : String) :
    Option PID :=
  match rt.names.lookup name with
  | some (_, pid) => some pid
  | none => clusterLookup.bind fun lookup => lookup name

/-- `UnregisterName`, with the identifier that was registered. -/
def unregisterName (rt : Runtime π) (name : String) : Option PID × Runtime π :=
  match rt.names.lookup name with
  | none => (none, rt)
  | some (_, pid) => (some pid, { rt with names := rt.names.erase name })

/-- `cleanupRegistryForActor`: forget the names of an actor. -/
def cleanupRegistry (names : NamedRegistry) (id : String) : NamedRegistry :=
  (names.entries.filter fun e => e.2.1 = id).foldl (fun names e => names.erase e.1) names

def terminate (rt : Runtime π) (id : String) (a : ActorEntry π) : Runtime π :=
  { rt with
    registry := rt.registry.insert id { a with status := .stopped, mailbox := a.mailbox.close }
    names := cleanupRegistry rt.names id }

/-- The part of a restart that concerns the identifier last issued for the actor. -/
def bumpPID (rt : Runtime π) (id : String) : Runtime π :=
  match rt.actorPID.lookup id with
  | none => rt
  | some oldPID =>
    let resolver := rt.resolver.setState oldPID .restarting
    match resolver.bumpGeneration oldPID with
    | none => { rt with resolver := resolver }
    | some (newPID, resolver) =>
      { rt with resolver := resolver, actorPID := rt.actorPID.insert id newPID }

/-- `processMessage` on a message already taken from the mailbox of `a`. -/
def processMessage (rt : Runtime π) (id : String) (a : ActorEntry π) : Processed → Runtime π
  | .ok => { rt with registry := rt.registry.insert id a }
  | .failed .restart hookOk =>
    let a := { a with restarts := a.restarts + 1 }
    let rt := rt.bumpPID id
    if hookOk then { rt with registry := rt.registry.insert id { a with status := .running } }
    else rt.terminate id a
  | .failed _ _ => rt.terminate id a

/-- The resolver once the identifier last issued for a stopped actor is marked. -/
def markStopped (rt : Runtime π) (id : String) : InMemoryPIDResolver :=
  match rt.actorPID.lookup id with
  | some pid => rt.resolver.setState pid .stopped
  | none => rt.resolver

def stop (rt : Runtime π) (id : String) : StopResult × Runtime π :=
  match rt.registry.lookup id with
  | none => (.notFound, rt)
  | some a =>
    if a.status = .stopped then (.already, rt)
    else (.stopped, { rt with resolver := rt.markStopped id }.terminate id a)

/-- The resolver without the identifier last issued for a removed actor. -/
def releasePID (rt : Runtime π) (id : String) : InMemoryPIDResolver :=
  match rt.actorPID.lookup id with
  | some pid => rt.resolver.remove pid
  | none => rt.resolver

def removeActor (rt : Runtime π) (id : String) : Except RuntimeError (Runtime π) :=
  match rt.registry.lookup id with
  | none => .error .actorNotFound
  | some a =>
    if a.status ≠ .stopped then .error (.actorStillRunning id)
    else
      .ok { rt with
        registry := rt.registry.erase id
        actorPID := rt.actorPID.erase id
        resolver := rt.releasePID id }

/-- Whether `routeAskReply` takes the identifier as a reply address of this node. -/
def handlesAskReply (rt : Runtime π) (pid : PID) : Bool :=
  isAskReplyNamespace pid.ns &&
    (rt.nodeID = "" || pid.ns = "__ask_reply" || pid.ns = "__ask_reply@" ++ rt.nodeID)

section
variable [Inhabited π]

/-- `Send`; a missing payload is Go's `nil`. -/
def send (rt : Runtime π) (id : String) (payload : Option π) : SubmitResult × Runtime π :=
  let rt := { rt with msgSeq := rt.msgSeq + 1 }
  match payload with
  | none => (.rejectedNilPayload, rt)
  | some payload =>
    match rt.registry.lookup id with
    | none => (.rejectedFound, rt)
    | some a =>
      if a.status = .stopped then (.rejectedStop, rt)
      else
        match a.mailbox.enqueue ⟨rt.msgSeq, payload⟩ with
        | (.accepted, mailbox) =>
          (.accepted, { rt with registry := rt.registry.insert id { a with mailbox := mailbox } })
        | (result, _) => (result, rt)

/-- The local part of `SendPID`: what the resolver says, then `Send`. -/
def sendResolved (rt : Runtime π) (pid : PID) (payload : Option π) :
    PIDDeliveryOutcome × Runtime π :=
  match rt.resolver.resolve pid with
  | none =>
    (if (rt.registry.lookup pid.actorID).isNone then .rejectedNotFound else .unresolved, rt)
  | some entry =>
    if entry.routeState = .stopped then (.rejectedStopped, rt)
    else if pid.generation ≠ entry.currentGeneration then (.rejectedStaleGeneration, rt)
    else if rt.resolver.mode = .gatewayMediated ∧ !rt.resolver.gwUp then (.unresolved, rt)
    else
      let (result, rt) := rt.send pid.actorID payload
      (if result = .accepted then .delivered else .rejectedStopped, rt)

def sendPID (rt : Runtime π) (pid : PID) (payload : Option π) : PIDDeliveryOutcome × Runtime π :=
  let rt := { rt with msgSeq := rt.msgSeq + 1 }
  if rt.handlesAskReply pid then (.rejectedNotFound, rt)
  else if pid.isRemote rt.nodeID then
    match rt.remoteSend with
    | some remoteSend => (remoteSend pid, rt)
    | none => rt.sendResolved pid payload
  else rt.sendResolved pid payload

end

/-! ### What the operations do -/

variable {rt rt' : Runtime π} {id : String}

theorem issuePID_ok {ns : String} {pid : PID} (h : rt.issuePID ns id = .ok (pid, rt')) :
    pid = rt.pidToIssue ns id ∧ rt' = { rt with
        resolver := rt.resolver.register pid
        actorPID := rt.actorPID.insert id pid } := by
  simp only [issuePID] at h
  split_ifs at h with hreg
  split at h
  · cases h
  · cases h
    exact ⟨rfl, rfl⟩

theorem bumpPID_none (hr : rt.actorPID.lookup id = none) : rt.bumpPID id = rt := by
  simp only [bumpPID, hr]

theorem bumpPID_some_eq {p : PID} (hp : rt.actorPID.lookup id = some p) : rt.bumpPID id =
      let e := (rt.resolver.resolve p).getD ⟨p, .restarting, p.generation⟩
      let p' := { e.pid with generation := e.currentGeneration + 1 }
      { rt with
        resolver := { rt.resolver with
          byKey :=
            (rt.resolver.byKey.insert p.key { e with routeState := .restarting }).insert p.key
            ⟨p', .reachable, e.currentGeneration + 1⟩ }
        actorPID := rt.actorPID.insert id p' } := by
  simp [bumpPID, hp, bumpGeneration, setState,
    resolve]

@[simp] theorem registry_bumpPID (rt : Runtime π) (id : String) :
    (rt.bumpPID id).registry = rt.registry := by
  cases hp : rt.actorPID.lookup id with
  | none => rw [bumpPID_none hp]
  | some p => rw [bumpPID_some_eq hp]

theorem stop_cases (rt : Runtime π) (id : String) :
    (rt.stop id).1 ≠ .stopped ∧ (rt.stop id).2 = rt ∨
      ∃ a, rt.stop id = (.stopped, { rt with resolver := rt.markStopped id }.terminate id a) := by
  simp only [stop]
  cases ha : rt.registry.lookup id with
  | none => exact .inl ⟨by simp, rfl⟩
  | some a =>
    by_cases hst : a.status = .stopped
    · simp only [if_pos hst]
      exact .inl ⟨by simp, trivial⟩
    · simp only [if_neg hst]
      exact .inr ⟨a, rfl⟩

variable [Inhabited π]

theorem send_stopped {a : ActorEntry π} (ha : rt.registry.lookup id = some a)
    (hst : a.status = .stopped) (payload : Option π) :
    (rt.send id payload).1 ≠ .accepted ∧ (rt.send id payload).2.registry = rt.registry := by
  cases payload with
  | none => exact ⟨by simp [send], rfl⟩
  | some payload => simp [send, ha, hst]

theorem sendResolved_cases (rt : Runtime π) (pid : PID) (payload : Option π) :
    (rt.sendResolved pid payload).2 = rt ∧ (rt.sendResolved pid payload).1 ≠ .delivered ∨
      rt.resolver.accepts pid = true ∧
        (rt.sendResolved pid payload).2 = (rt.send pid.actorID payload).2 ∧
        ((rt.sendResolved pid payload).1 = .delivered →
          (rt.send pid.actorID payload).1 = .accepted) := by
  simp only [sendResolved]
  cases he : rt.resolver.resolve pid with
  | none =>
    refine .inl ⟨rfl, ?_⟩
    simp only
    split_ifs with hreg <;> simp
  | some e =>
    simp only
    split_ifs with hst hgen hgw hacc
    · exact .inl ⟨rfl, by simp⟩
    · exact .inl ⟨rfl, by simp⟩
    · exact .inl ⟨rfl, by simp⟩
    · refine .inr ⟨?_, rfl, fun _ => hacc⟩
      simp [accepts, he, hst, not_not.mp hgen]
    · refine .inr ⟨?_, rfl, fun hd => by cases hd⟩
      simp [accepts, he, hst, not_not.mp hgen]

end Runtime

/-- The operations on a runtime, and `process` for what an actor does in between. -/
inductive RuntimeAction (π : Type)
  | createActor (id : String) (nilHandler : Bool) (capacity : ℤ) (hookOk : Bool)
  | issuePID (ns id : String)
  | registerName (id name ns : String)
  | process (id : String) (result : Processed)
  | stop (id : String)
  | removeActor (id : String)
  | send (id : String) (payload : Option π)
  | sendPID (pid : PID) (payload : Option π)
  | setGatewayMode (mode : GatewayRouteMode)
  | setGatewayAvailability (available : Bool)

inductive RuntimeEvent
  /-- `IssuePID` or `RegisterName` returned an identifier. -/
  | returned (pid : PID)
  /-- The actor was restarted, stopped or removed. -/
  | superseded (id : String)
  deriving DecidableEq

namespace Runtime

variable {π : Type} [Inhabited π]

/-- One operation. An operation that is refused leaves the runtime as it is. -/
def step (rt : Runtime π) : RuntimeAction π → Option (Runtime π × List RuntimeEvent)
  | .createActor id nilHandler capacity hookOk =>
    match rt.createActor id nilHandler capacity hookOk with
    | .ok rt => some (rt, [])
    | .error _ => some (rt, [])
  | .issuePID ns id =>
    match rt.issuePID ns id with
    | .ok (pid, rt) => some (rt, [.returned pid])
    | .error _ => some (rt, [])
  | .registerName id name ns =>
    match rt.registerName id name ns with
    | (.ok pid, rt) => some (rt, [.returned pid])
    | (.error _, rt) => some (rt, [])
  | .process id result =>
    match rt.registry.lookup id with
    | none => none
    | some a =>
      match a.mailbox.dequeue with
      | (none, _) => none
      | (some _, mailbox) =>
        some (rt.processMessage id { a with mailbox := mailbox } result,
          if result = .ok then [] else [.superseded id])
  | .stop id =>
    match rt.stop id with
    | (.stopped, rt) => some (rt, [.superseded id])
    | (_, rt) => some (rt, [])
  | .removeActor id =>
    match rt.removeActor id with
    | .ok rt => some (rt, [.superseded id])
    | .error _ => some (rt, [])
  | .send id payload => some ((rt.send id payload).2, [])
  | .sendPID pid payload => some ((rt.sendPID pid payload).2, [])
  | .setGatewayMode mode => some ({ rt with resolver := { rt.resolver with mode := mode } }, [])
  | .setGatewayAvailability available =>
    some ({ rt with resolver := { rt.resolver with gwUp := available } }, [])

end Runtime

end Westcoast
