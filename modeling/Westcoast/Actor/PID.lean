import Mathlib.Data.List.AList

/-!
# Process identifiers and the resolver

`pid.go` and `pid_resolver.go`: the identifier under which an actor is addressed, and the map that
says whether it is current. The source counts generations in 64 bits. The time stamps of the entries
are read by nothing and left out.
-/
namespace Westcoast

/-- A process identifier; `ns` is the namespace. -/
structure PID where
  ns : String
  actorID : String
  generation : ℕ
  deriving DecidableEq, Inhabited

namespace PID

/-- `Validate`, with the text of its error. -/
def validate (p : PID) : Except String Unit :=
  if p.ns = "" then .error "namespace required"
  else if p.actorID = "" then .error "actor_id required"
  else if p.generation = 0 then .error "generation must be >=1"
  else .ok ()

/-- `Key`: the map key of an identifier, which leaves the generation out. -/
def key (p : PID) : String := p.ns ++ ":" ++ p.actorID

def isRemote (p : PID) (localNamespace : String) : Bool :=
  if p.ns = "" ∨ p.ns = localNamespace then false
  else if p.ns = "__ask_reply" then false
  else if localNamespace ≠ "" ∧ p.ns = "__ask_reply@" ++ localNamespace then false
  else true

end PID

def isAskReplyNamespace (ns : String) : Bool :=
  ns = "__ask_reply" || "__ask_reply@".toList.isPrefixOf ns.toList

inductive PIDDeliveryOutcome
  | delivered
  | unresolved
  | rejectedStopped
  | rejectedStaleGeneration
  | rejectedNotFound
  deriving DecidableEq

inductive PIDRouteState
  | reachable
  | unresolved
  | stopped
  | restarting
  deriving DecidableEq

inductive GatewayRouteMode
  | localDirect
  | gatewayMediated
  deriving DecidableEq

structure PIDResolverEntry where
  pid : PID
  routeState : PIDRouteState
  currentGeneration : ℕ
  deriving DecidableEq

structure InMemoryPIDResolver where
  byKey : AList (fun _ : String => PIDResolverEntry)
  mode : GatewayRouteMode
  gwUp : Bool

namespace InMemoryPIDResolver

def new : InMemoryPIDResolver := ⟨∅, .localDirect, true⟩

def register (r : InMemoryPIDResolver) (pid : PID) : InMemoryPIDResolver :=
  { r with byKey := r.byKey.insert pid.key ⟨pid, .reachable, pid.generation⟩ }

def resolve (r : InMemoryPIDResolver) (pid : PID) : Option PIDResolverEntry :=
  r.byKey.lookup pid.key

def remove (r : InMemoryPIDResolver) (pid : PID) : InMemoryPIDResolver :=
  { r with byKey := r.byKey.erase pid.key }

/-- `SetState`, which registers an identifier it does not find. -/
def setState (r : InMemoryPIDResolver) (pid : PID) (state : PIDRouteState) : InMemoryPIDResolver :=
  let entry := (r.resolve pid).getD ⟨pid, state, pid.generation⟩
  { r with byKey := r.byKey.insert pid.key { entry with routeState := state } }

/-- `BumpGeneration`: all holders of the old identifier are stale. -/
def bumpGeneration (r : InMemoryPIDResolver) (pid : PID) : Option (PID × InMemoryPIDResolver) :=
  (r.resolve pid).map fun entry =>
    let generation := entry.currentGeneration + 1
    let pid' := { entry.pid with generation := generation }
    (pid', { r with byKey := r.byKey.insert pid.key ⟨pid', .reachable, generation⟩ })

/-- The checks `SendPID` makes on the entry of an identifier. -/
def accepts (r : InMemoryPIDResolver) (pid : PID) : Bool :=
  (r.resolve pid).any fun entry =>
    entry.routeState ≠ .stopped && pid.generation = entry.currentGeneration

end InMemoryPIDResolver

end Westcoast
