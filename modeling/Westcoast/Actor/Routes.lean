import Mathlib.Data.List.AList

/-!
# Type routes and routers

`routing.go` and the routers of `runtime.go`. A message that no rule of an actor covers is refused.
A router passes its messages on to one of its workers, by one of three strategies. The second map of
`actorRoutes` lists the versions of a type that `exact` has a rule for.
-/
namespace Westcoast

/-- What the runtime finds out about a payload: its type, its `SchemaVersion` and its `HashKey`. -/
class Payload (π : Type) where
  typeName : π → String
  schemaVersion : π → Option String
  hashKey : π → Option String

def defaultSchemaVersion : String := "v1"

def defaultHandlerKey : String := "default"

def messageSchemaVersion {π : Type} [Payload π] (payload : π) : String :=
  match Payload.schemaVersion payload with
  | none => defaultSchemaVersion
  | some version => if version = "" then defaultSchemaVersion else version

/-! ### Type routes -/

inductive RouteMatch
  | noRules
  | exact
  | fallback
  | unsupportedType
  | versionMismatch

/-- Whether a message with this result goes to the mailbox. -/
def RouteMatch.admits : RouteMatch → Bool
  | .noRules | .exact | .fallback => true
  | .unsupportedType | .versionMismatch => false

structure RouteResolution where
  routeMatch : RouteMatch
  handlerKey : String := ""

/-- `actorRoutes`: the handler keys of the rules, by type and version. -/
structure ActorRoutes where
  exact : AList (fun _ : String × String => String)
  versions : AList (fun _ : String => List String)
  fallback : Option String

abbrev TypeRoutingRegistry := AList (fun _ : String => ActorRoutes)

namespace TypeRoutingRegistry

def ensure (r : TypeRoutingRegistry) (actorID : String) : ActorRoutes :=
  (r.lookup actorID).getD ⟨∅, ∅, none⟩

def orDefault (s d : String) : String := if s = "" then d else s

/-- `registerExact`. A rule without a type is ignored. -/
def registerExact (r : TypeRoutingRegistry) (actorID typeName schemaVersion handlerKey : String) :
    TypeRoutingRegistry :=
  if typeName = "" then r
  else
    let schemaVersion := orDefault schemaVersion defaultSchemaVersion
    let ar := r.ensure actorID
    let versions := (ar.versions.lookup typeName).getD []
    r.insert actorID { ar with
      exact := ar.exact.insert (typeName, schemaVersion) (orDefault handlerKey defaultHandlerKey)
      versions := ar.versions.insert typeName (versions.insert schemaVersion) }

def registerFallback (r : TypeRoutingRegistry) (actorID handlerKey : String) :
    TypeRoutingRegistry :=
  r.insert actorID { r.ensure actorID with
    fallback := some (orDefault handlerKey defaultHandlerKey) }

/-- `resolve`. A known type in another version does not fall back. -/
def resolve (r : TypeRoutingRegistry) (actorID typeName schemaVersion : String) : RouteResolution :=
  match r.lookup actorID with
  | none => { routeMatch := .noRules }
  | some ar =>
    if ar.exact.keys.isEmpty && ar.fallback.isNone then { routeMatch := .noRules }
    else
      match ar.exact.lookup (typeName, orDefault schemaVersion defaultSchemaVersion) with
      | some handlerKey => { routeMatch := .exact, handlerKey := handlerKey }
      | none =>
        if !((ar.versions.lookup typeName).getD []).isEmpty then { routeMatch := .versionMismatch }
        else
          match ar.fallback with
          | some handlerKey => { routeMatch := .fallback, handlerKey := handlerKey }
          | none => { routeMatch := .unsupportedType }

end TypeRoutingRegistry

/-! ### Routers -/

inductive RouterStrategy
  | roundRobin
  | random
  | consistentKey
  deriving DecidableEq

structure RouterState where
  strategy : RouterStrategy
  workers : List String
  rrNext : UInt64

/-- `ConfigureRouter`: empty and repeated workers are left out, and the counter starts
anew. -/
def RouterState.configure (strategy : RouterStrategy) (workers : List String) : RouterState where
  strategy := strategy
  workers := (workers.filter (· ≠ "")).eraseDups
  rrNext := 0

def fnv32a (bytes : List UInt8) : UInt32 :=
  bytes.foldl (fun h b => (h ^^^ b.toUInt32) * 16777619) 2166136261

/-- `selectRoutedWorker`: the index of the worker or why there is none; `random` is the next random
number. -/
def RouterState.selectWorker {π : Type} [Payload π] (s : RouterState) (random : ℕ) (payload : π) :
    Except String String :=
  match s.workers with
  | [] => .error "router_no_workers"
  | first :: rest =>
    let worker (i : ℕ) : String := (first :: rest).getD (i % (first :: rest).length) first
    match s.strategy with
    | .roundRobin => .ok (worker s.rrNext.toNat)
    | .random => .ok (worker random)
    | .consistentKey =>
      match Payload.hashKey payload with
      | none => .error "router_missing_hash_key"
      | some key =>
        if key = "" then .error "router_empty_hash_key"
        else .ok (worker (fnv32a key.toByteArray.data.toList).toNat)

/-- The state of the router after a selection: the counter counts where it is used. -/
def RouterState.advance (s : RouterState) : RouterState :=
  if s.strategy = .roundRobin ∧ s.workers ≠ [] then { s with rrNext := s.rrNext + 1 } else s

end Westcoast
