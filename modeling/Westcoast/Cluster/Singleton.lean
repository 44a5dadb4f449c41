import Westcoast.Cluster.Registry

/-!
# The singleton manager of a node

`singleton.go`, with the parts of `cluster.go`, `start.go` and of the runtime it works on. A `Node`
is everything one node holds about one singleton name. The passes of `reconcile` that the events of
other names cause are an action. A method that runs under `sm.mu` is a function on nodes, a
goroutine a record of how far it has got. A deadline may pass at any time.
-/
namespace Westcoast.Cluster

variable {σ : Type}

inductive SingletonPhase
  | idle
  | activating
  | active
  | deactivating
  deriving DecidableEq

/-- The phases in which the node has the singleton. -/
def SingletonPhase.runs : SingletonPhase → Bool
  | .active | .deactivating => true
  | .idle | .activating => false

/-- `SingletonSpec`, without its name and its time limits; `σ` is the type of the
states of the actor. -/
structure SingletonSpec (σ : Type) where
  initialState : σ
  hasHandler : Bool
  placement : Option (NodeMeta → Bool)
  onHandoff : Option (σ → σ)

/-- The state a new instance starts from, given what was handed over. -/
def SingletonSpec.stateFrom (spec : SingletonSpec σ) (handoffState : Option σ) : σ :=
  match handoffState, spec.onHandoff with
  | some state, some f => f state
  | some state, none => state
  | none, _ => spec.initialState

/-- The operation a cancel function belongs to, by the number of its goroutine. -/
inductive CancelFunc
  | handoff (id : ℕ)
  | deactivation (id : ℕ)
  deriving DecidableEq

structure SingletonState (σ : Type) where
  spec : SingletonSpec σ
  phase : SingletonPhase
  term : ℕ
  cancel : Option CancelFunc
  rebalancing : Bool

def SingletonState.new (spec : SingletonSpec σ) : SingletonState σ := ⟨spec, .idle, 0, none, false⟩

/-- How far a `runHandoff` goroutine has got; `answered` is what it passes on to
`completeActivation`. -/
inductive HandoffStage (σ : Type)
  | spawned
  | waiting
  | answered (state : Option σ)
  | sendFailed

structure Handoff (σ : Type) where
  id : ℕ
  prevLeader : NodeID
  term : ℕ
  stage : HandoffStage σ
  canceled : Bool

/-- How a `runHandoff` goroutine ends: it returns, or it calls `completeActivation`. -/
inductive HandoffResult (σ : Type)
  | returns
  | completes (state : Option σ)

namespace Handoff

def isSpawned (h : Handoff σ) : Bool :=
  match h.stage with
  | .spawned => true
  | _ => false

/-- `ctxDone`: the context is done before a response or the pause after a failed send. -/
def result (h : Handoff σ) (ctxDone : Bool) : Option (HandoffResult σ) :=
  match h.stage, ctxDone with
  | .spawned, _ => none
  | .waiting, true => some (.completes none)
  | .waiting, false => none
  | .answered state, false => some (.completes state)
  | .answered _, true => some (.completes none)
  | .sendFailed, false => some (.completes none)
  | .sendFailed, true => some .returns

end Handoff

structure Deactivation where
  id : ℕ
  canceled : Bool

/-- A goroutine when a cancel function is called, which may be its own. -/
def Handoff.cancelBy (h : Handoff σ) (c : Option CancelFunc) : Handoff σ :=
  { h with canceled := h.canceled || c = some (.handoff h.id) }

@[inherit_doc Handoff.cancelBy]
def Deactivation.cancelBy (d : Deactivation) (c : Option CancelFunc) : Deactivation :=
  { d with canceled := d.canceled || c = some (.deactivation d.id) }

/-- The actor of the runtime whose identifier is the name, with the state it was
created with. -/
inductive ActorSlot (σ : Type)
  | absent
  | running (initialState : σ)
  | stopped

namespace ActorSlot

def remove : ActorSlot σ → ActorSlot σ
  | .stopped => .absent
  | a => a

def stop : ActorSlot σ → ActorSlot σ
  | .running _ => .stopped
  | a => a

def isAbsent : ActorSlot σ → Bool
  | .absent => true
  | _ => false

end ActorSlot

inductive Message (σ : Type)
  | discoverRequest
  | discoverResponse (running : Bool)
  | handoffRequest (term : ℕ)
  | handoffResponse (term : ℕ) (ok : Bool) (state : Option σ) (error : String)

structure Envelope (σ : Type) where
  sender : NodeID
  target : NodeID
  payload : Message σ

/-- One node, as far as one singleton name is concerned. -/
structure Node (σ : Type) where
  name : String
  self : NodeMeta
  -- whether the manager has a cluster, a codec and a dispatcher
  clustered : Bool
  peers : List NodeMeta
  actor : ActorSlot σ
  -- the election: its members and the scope of the name
  members : List NodeID
  scope : Option ElectionScope
  registry : DistributedRegistry
  -- the manager
  started : Bool
  discovering : Bool
  singleton : Option (SingletonState σ)
  failedNodes : List (NodeID × ℕ)
  prevLeader : NodeID
  handoffWaits : AList (fun _ : ℕ => ℕ)
  -- its goroutines, and the number of the next one
  handoffs : List (Handoff σ)
  deactivations : List Deactivation
  nextID : ℕ

namespace Node

/-- A node as `cluster.Start` builds it, before it starts the managers. -/
def new (name : String) (self : NodeMeta) : Node σ where
  name := name
  self := self
  clustered := true
  peers := []
  actor := .absent
  members := [self.id]
  scope := none
  registry := ∅
  started := false
  discovering := false
  singleton := none
  failedNodes := []
  prevLeader := ""
  handoffWaits := ∅
  handoffs := []
  deactivations := []
  nextID := 0

/-- The phase of the singleton; a name that is not registered is idle. -/
def phase (n : Node σ) : SingletonPhase :=
  match n.singleton with
  | none => .idle
  | some s => s.phase

/-! ### The election -/

def scopeName (n : Node σ) : String := "singleton/" ++ n.name

def ensureScope (n : Node σ) : Node σ :=
  { n with scope := some (n.scope.getD (.create (computeLeader n.scopeName n.members))) }

def term (n : Node σ) : ℕ :=
  match n.scope with
  | none => 0
  | some e => e.term

def isLeader (n : Node σ) : Bool :=
  match n.scope with
  | none => false
  | some e => e.leader ≠ "" && e.leader = n.self.id

/-- `LeaderAmong`, for the nodes that a placement accepts. -/
def leadsAmong (n : Node σ) (matcher : NodeMeta → Bool) : Bool :=
  let candidates := (n.peers ++ [n.self]).filter matcher
  !candidates.isEmpty && computeLeader n.scopeName (candidates.map (·.id)) = n.self.id

/-- Once `reconcile` or `Rebalance` has asked who leads, which creates the scope, unless a placement
decides. -/
def consult (n : Node σ) (spec : SingletonSpec σ) : Node σ :=
  { n with scope := if spec.placement.isSome && n.clustered then n.scope else n.ensureScope.scope }

/-- Whether this node leads, as `reconcile` decides it. -/
def leads (n : Node σ) (spec : SingletonSpec σ) : Bool :=
  match spec.placement with
  | none => n.isLeader
  | some matcher => if n.clustered then n.leadsAmong matcher else n.isLeader

def watch (n : Node σ) : Node σ :=
  { n.ensureScope with scope := n.ensureScope.scope.map ElectionScope.watch }

/-- `RingElection.OnMembershipChange`, for the scope of the name. -/
def electionOnMembershipChange (n : Node σ) (ev : MemberEvent) : Node σ :=
  let members := updateMembers n.members ev
  { n with
    members := members
    scope := n.scope.map fun e => e.setLeader (computeLeader n.scopeName members) }

/-! ### The manager -/

def isRecentlyFailed (n : Node σ) (id : NodeID) : Bool := n.failedNodes.any (·.1 = id)

/-- `findPrevLeader`: the last leader this node saw replaced, or else the owner the
registry names. -/
def findPrevLeader (n : Node σ) : NodeID :=
  if n.prevLeader ≠ "" then n.prevLeader
  else
    match n.registry.lookup n.name with
    | some pid => if pid.ns ≠ n.self.id then pid.ns else ""
    | none => ""

def pid (n : Node σ) : PID := ⟨n.self.id, n.name, 1⟩

/-- `IssuePID` and `Register` in `startActor`. Their errors are dropped. -/
def registerPID (n : Node σ) : DistributedRegistry :=
  match n.pid.validate with
  | .error _ => n.registry
  | .ok () =>
    match n.registry.register n.name n.pid with
    | .error _ => n.registry
    | .ok r => r

/-- Whether `CreateActor` succeeds after `RemoveActor`. -/
def canCreate (n : Node σ) (spec : SingletonSpec σ) : Bool :=
  n.name ≠ "" && spec.hasHandler && n.actor.remove.isAbsent

/-- `startActor`. An error of `CreateActor` is not reported. -/
def startActor (n : Node σ) (spec : SingletonSpec σ) (initialState : σ) : Node σ :=
  { n with
    actor := if n.canCreate spec then .running initialState else n.actor.remove
    registry := if n.canCreate spec then n.registerPID else n.registry }

def cancel (n : Node σ) (c : Option CancelFunc) : Node σ :=
  { n with
    handoffs := n.handoffs.map (·.cancelBy c)
    deactivations := n.deactivations.map (·.cancelBy c) }

/-- Whether `gainLeadership` takes it that this previous leader has no instance. -/
def presumedGone (n : Node σ) (prev : NodeID) : Bool :=
  prev = "" || prev = n.self.id || n.isRecentlyFailed prev

def activate (n : Node σ) (s : SingletonState σ) (term : ℕ) : Node σ :=
  { n.startActor s.spec s.spec.initialState with
    singleton := some { s with phase := .active, term := term } }

/-- The end of `gainLeadership`: a hand-off from the previous leader begins. -/
def beginHandoff (n : Node σ) (s : SingletonState σ) (term : ℕ) : Node σ :=
  { n with
    singleton := some { s with
      phase := .activating, term := term, cancel := some (.handoff n.nextID), rebalancing := false }
    handoffs := n.handoffs ++ [⟨n.nextID, n.findPrevLeader, term, .spawned, false⟩]
    nextID := n.nextID + 1 }

/-- `gainLeadership`. Its lookup of the leader without this node is dead code: the first branch has
taken the empty previous leader. -/
def gainLeadership (n : Node σ) (s : SingletonState σ) (term : ℕ) : Node σ :=
  if n.presumedGone n.findPrevLeader then n.activate s term
  else if !s.rebalancing then { n with singleton := some s }
  else if !n.clustered then n.activate { s with rebalancing := false } term
  else n.beginHandoff s term

/-- `stopAndCleanup`, which also cancels the goroutine of the phase. -/
def stopAndCleanup (n : Node σ) (s : SingletonState σ) : Node σ :=
  { n.cancel s.cancel with
    actor := n.actor.stop
    registry := (n.registry.unregister n.name).2
    singleton := some { s with phase := .idle, cancel := none } }

/-- `loseLeadership`: in a cluster the actor runs on, until it is asked for. -/
def loseLeadership (n : Node σ) (s : SingletonState σ) (term : ℕ) : Node σ :=
  if !n.clustered then n.stopAndCleanup s
  else
    { n with
      singleton := some { s with
        phase := .deactivating, term := term, cancel := some (.deactivation n.nextID) }
      deactivations := n.deactivations ++ [⟨n.nextID, false⟩]
      nextID := n.nextID + 1 }

/-- The activation is given up: the first branch of `reconcile` for the phase. -/
def abortActivation (n : Node σ) (s : SingletonState σ) : Node σ :=
  { n.cancel s.cancel with singleton := some { s with phase := .idle, cancel := none } }

/-- `reconcile`: an idle node may start, an active one goes on. -/
def reconcile (n : Node σ) : Node σ :=
  match n.singleton with
  | none => n
  | some s =>
    let n := n.consult s.spec
    match s.phase with
    | .active | .deactivating => n
    | .activating =>
      if !n.leads s.spec then n.abortActivation s
      else if s.term ≠ n.term then
        (n.cancel s.cancel).gainLeadership { s with cancel := none } n.term
      else n
    | .idle => if n.leads s.spec then n.gainLeadership s n.term else n

/-- `Rebalance`: unlike `reconcile`, it ends an active phase. -/
def rebalance (n : Node σ) : Node σ :=
  match n.singleton with
  | none => n
  | some s =>
    let n := n.consult s.spec
    match s.phase with
    | .active => if !n.leads s.spec then n.loseLeadership s n.term else n
    | .idle => if n.leads s.spec then n.gainLeadership { s with rebalancing := true } n.term else n
    | .activating | .deactivating => n

/-- `Register`. Before `Start` the singleton is only noted. -/
def register (n : Node σ) (spec : SingletonSpec σ) : Node σ :=
  if n.started then ({ n with singleton := some (.new spec) } : Node σ).watch.reconcile
  else { n with singleton := some (.new spec) }

/-- `Start` up to the requests of `DiscoverFromPeers`. -/
def start (n : Node σ) : Node σ × List (Envelope σ) :=
  ({ n with started := true, discovering := true },
    if n.clustered then n.peers.map fun peer => ⟨n.self.id, peer.id, .discoverRequest⟩ else [])

/-- The node when `DiscoverFromPeers` has returned and the scope is watched. -/
def endDiscovery (n : Node σ) : Node σ :=
  { n with
    discovering := false
    scope := if n.singleton.isSome then n.watch.scope else n.scope }

/-- The rest of `Start`, when the peers have answered or the deadline is over. -/
def finishStart (n : Node σ) : Node σ := n.endDiscovery.reconcile

/-- The failed nodes after `OnMemberEvent` noted the event and forgot what is older than five
minutes, in nanoseconds. -/
def noteFailed (n : Node σ) (ev : MemberEvent) (now : ℕ) : Node σ :=
  let failed :=
    if ev.type = .failed then (ev.member.id, now) :: n.failedNodes.filter (·.1 ≠ ev.member.id)
    else n.failedNodes
  { n with failedNodes := failed.filter fun f => now - f.2 ≤ 300000000000 }

def onMemberEvent (n : Node σ) (ev : MemberEvent) (now : ℕ) : Node σ :=
  (n.noteFailed ev now).reconcile

/-- The part of `handleMemberEvent` that keeps the peers. -/
def updatePeers (n : Node σ) (ev : MemberEvent) : Node σ :=
  let others := n.peers.filter (·.id ≠ ev.member.id)
  { n with peers := if ev.type.departs then others else others ++ [ev.member] }

/-- The node when the callback of `cluster.Start` reaches the manager. -/
def updateElection (n : Node σ) (ev : MemberEvent) : Node σ :=
  (n.updatePeers ev).electionOnMembershipChange ev

/-- The membership callback that `cluster.Start` wires: the election, the manager, the registry. -/
def callback (n : Node σ) (ev : MemberEvent) (now : ℕ) : Node σ :=
  let n := (n.updateElection ev).onMemberEvent ev now
  { n with registry := n.registry.onMembershipChange ev }

/-- The previous leader a watch loop keeps of an event. -/
def seeLeader (n : Node σ) (ev : LeaderEvent) : Node σ :=
  { n with prevLeader := if ev.prevLeader ≠ "" then ev.prevLeader else n.prevLeader }

/-- One turn of `watchLoop` -/
def onLeaderEvent (n : Node σ) (ev : LeaderEvent) : Node σ := (n.seeLeader ev).reconcile

def watcherEvents (n : Node σ) (w : ℕ) : List LeaderEvent :=
  match n.scope with
  | none => []
  | some e => e.watchers[w]?.getD []

def setWatcherEvents (n : Node σ) (w : ℕ) (evs : List LeaderEvent) : Node σ :=
  { n with scope := n.scope.map fun e => { e with watchers := e.watchers.set w evs } }

/-- `completeActivation`: a hand-off of an outdated term starts nothing. -/
def completeActivation (n : Node σ) (expectedTerm : ℕ) (handoffState : Option σ) : Node σ :=
  match n.singleton with
  | none => n
  | some s =>
    if s.phase ≠ .activating ∨ s.term ≠ expectedTerm then n
    else if n.term ≠ expectedTerm then { n with singleton := some { s with phase := .idle } }
    else
      { n.startActor s.spec (s.spec.stateFrom handoffState) with
        singleton := some { s with phase := .active } }

/-- `onHandoffRequest`; `captured` is what `StopAndCapture` returns. Else the singleton is stopped
as in `stopAndCleanup`. -/
def onHandoffRequest (n : Node σ) (term : ℕ) (captured : Option σ) : Node σ × Message σ :=
  match n.singleton with
  | none => (n, .handoffResponse term false none "singleton_not_registered")
  | some s =>
    if !s.phase.runs then (n, .handoffResponse term false none "singleton_not_running")
    else (n.stopAndCleanup s, .handoffResponse term true captured "")

/-- `onHandoffResponse`: a channel holds one response. -/
def onHandoffResponse (n : Node σ) (term : ℕ) (ok : Bool) (state : Option σ) : Node σ :=
  match n.handoffWaits.lookup term with
  | none => n
  | some id =>
    { n with
      handoffs := n.handoffs.map fun h =>
        match h.stage with
        | .waiting =>
          if h.id = id then { h with stage := .answered (if ok then state else none) } else h
        | _ => h }

/-- `onDiscoverResponse` and the turn of `DiscoverFromPeers` that takes it. -/
def onDiscoverResponse (n : Node σ) (sender : NodeID) (running : Bool) : Node σ :=
  if n.discovering && running && n.prevLeader = "" then { n with prevLeader := sender } else n

/-- A message arrives. Before `Start` there are no handlers, and it is dropped. -/
def receive (n : Node σ) (env : Envelope σ) (captured : Option σ) : Node σ × List (Envelope σ) :=
  if !n.started then (n, [])
  else
    match env.payload with
    | .discoverRequest => (n, [⟨n.self.id, env.sender, .discoverResponse n.phase.runs⟩])
    | .discoverResponse running => (n.onDiscoverResponse env.sender running, [])
    | .handoffRequest term =>
      let (n, answer) := n.onHandoffRequest term captured
      (n, [⟨n.self.id, env.sender, answer⟩])
    | .handoffResponse term ok state _ => (n.onHandoffResponse term ok state, [])

/-- `runHandoff` up to its request. -/
def handoffSend (n : Node σ) (h : Handoff σ) (ok : Bool) : Node σ × List (Envelope σ) :=
  let stage := if ok then .waiting else .sendFailed
  ({ n with
      handoffWaits := n.handoffWaits.insert h.term h.id
      handoffs := n.handoffs.map fun g => if g.id = h.id then { g with stage := stage } else g },
    if ok then [⟨n.self.id, h.prevLeader, .handoffRequest h.term⟩] else [])

def finish (n : Node σ) (term : ℕ) : HandoffResult σ → Node σ
  | .returns => n
  | .completes state => n.completeActivation term state

/-- The end of `runHandoff`, with its deferred delete. -/
def handoffEnd (n : Node σ) (h : Handoff σ) (result : HandoffResult σ) : Node σ :=
  { n.finish h.term result with
    handoffWaits := n.handoffWaits.erase h.term
    handoffs := n.handoffs.filter fun g => g.id ≠ h.id }

/-- A `runDeactivationTimeout` goroutine whose context is done runs. -/
def deactivationEnd (n : Node σ) (id : ℕ) : Node σ :=
  let n := { n with deactivations := n.deactivations.filter fun d => d.id ≠ id }
  match n.singleton with
  | none => n
  | some s => if s.phase = .deactivating then n.stopAndCleanup s else n

end Node

/-- `reconcile` is a pass caused by another name, `actorStops` an actor that ends by itself,
`replicate` a replicated change of the registry. -/
inductive NodeAction (σ : Type)
  | start
  | finishStart
  | register (spec : SingletonSpec σ)
  | rebalance
  | memberEvent (ev : MemberEvent) (now : ℕ)
  | watchEvent (w : ℕ)
  | reconcile
  | receive (env : Envelope σ) (captured : Option σ)
  | handoffSend (id : ℕ) (ok : Bool)
  | handoffEnd (id : ℕ) (ctxDone : Bool)
  | deactivationEnd (id : ℕ)
  | actorStops
  | replicate (r : DistributedRegistry)

namespace Node

/-- The machine of a node; its events are the messages it sends. -/
def step (n : Node σ) : NodeAction σ → Option (Node σ × List (Envelope σ))
  | .start => some n.start
  | .finishStart => if n.discovering then some (n.finishStart, []) else none
  | .register spec => some (n.register spec, [])
  | .rebalance => some (n.rebalance, [])
  | .memberEvent ev now => some (n.callback ev now, [])
  | .watchEvent w =>
    match n.watcherEvents w with
    | [] => none
    | ev :: evs => some ((n.setWatcherEvents w evs).onLeaderEvent ev, [])
  | .reconcile => some (n.reconcile, [])
  | .receive env captured => some (n.receive env captured)
  | .handoffSend id ok =>
    match n.handoffs.find? (·.id = id) with
    | none => none
    | some h => if h.isSpawned then some (n.handoffSend h ok) else none
  | .handoffEnd id ctxDone =>
    match n.handoffs.find? (·.id = id) with
    | none => none
    | some h => (h.result ctxDone).map fun result => (n.handoffEnd h result, [])
  | .deactivationEnd id =>
    if n.deactivations.any (·.id = id) then some (n.deactivationEnd id, []) else none
  | .actorStops => some ({ n with actor := n.actor.stop }, [])
  | .replicate r => some ({ n with registry := r }, [])

end Node
end Westcoast.Cluster
