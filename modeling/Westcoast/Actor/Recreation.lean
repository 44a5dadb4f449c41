import Westcoast.Actor.Operations
import Westcoast.Actor.Instance
import Westcoast.Cluster.Registry

/-!
# Creating an actor ID again

`RemoveActor` takes the actor out of the registry and forgets the identifier last issued; the type
routes, the router state, the resolver entries of other namespaces, the names registered after the
stop and the names bound in the cluster registry stay. `ReusableHost` keeps, beside the host, the
batch configurations and the cluster registry; `forget` is the host on which the ID was never used.
-/
namespace Westcoast

open Lib Option Host AList

variable {π : Type}

/-- A host with the batch configuration of each registered instance and the cluster registry it is
attached to, if any; `bound` has the names that this host bound there, and for which actor. -/
structure ReusableHost (π : Type) extends Host π where
  batching : AList (fun _ : String => BatchConfig)
  cluster : Option Cluster.DistributedRegistry
  bound : AList (fun _ : String => String)

namespace ReusableHost

/-- `SetClusterRegistry`: lookups fall back on the registry as it is. -/
def wire (h : ReusableHost π) : ReusableHost π :=
  { h with clusterLookup := h.cluster.map fun r name => r.lookup name }

def new (nodeID : String) (remoteSend remoteAsk : Option (PID → PIDDeliveryOutcome))
    (cluster : Option Cluster.DistributedRegistry) (randSrc : ℕ → ℕ) : ReusableHost π :=
  wire ⟨.new nodeID remoteSend remoteAsk none randSrc, ∅, cluster, ∅⟩

/-- The host after an operation that leaves the configurations and the cluster registry alone. -/
def afterHost (h : ReusableHost π) (h' : Host π) : ReusableHost π := wire { h with toHost := h' }

/-- `ConfigureBatching`; a call that is refused changes nothing. -/
def configureBatching (h : ReusableHost π) (actorID : String) (maxBatchSize : ℤ)
    (receiver : Bool) : ReusableHost π :=
  if (h.registry.lookup actorID).isSome ∧ 0 < maxBatchSize then
    { h with batching := h.batching.insert actorID ⟨true, maxBatchSize, receiver⟩ }
  else h

/-- `DisableBatching`; a call that is refused changes nothing. -/
def disableBatching (h : ReusableHost π) (actorID : String) : ReusableHost π :=
  if (h.registry.lookup actorID).isSome then
    { h with batching := h.batching.insert actorID {} }
  else h

/-- `RegisterName`, which passes the name on to the cluster registry and ignores its error. -/
def registerName (h : ReusableHost π) (id name ns : String) : ReusableHost π :=
  match h.toRuntime.registerName id name ns with
  | (.error _, rt) => h.afterHost (h.toHost.after rt)
  | (.ok pid, rt) =>
    wire { h with
      toHost := h.toHost.after rt
      cluster := h.cluster.map fun r => (r.register name pid).toOption.getD r
      bound := if h.cluster.any fun r => (r.lookup name).isNone then h.bound.insert name id
        else h.bound }

/-- `UnregisterName`, which passes on only a name of this host. -/
def unregisterName (h : ReusableHost π) (name : String) : ReusableHost π :=
  match h.toRuntime.unregisterName name with
  | (none, _) => h
  | (some _, rt) =>
    wire { h with
      toHost := h.toHost.after rt
      cluster := h.cluster.map fun r => (r.unregister name).2
      bound := h.bound.erase name }

/-- A binding that another member made or took back arrives. -/
def replicate (h : ReusableHost π) (name : String) (binding : Option PID) : ReusableHost π :=
  wire { h with
    cluster := h.cluster.map fun r =>
      match binding with
      | some pid => r.insert name pid
      | none => r.erase name
    bound := h.bound.erase name }

/-- `RemoveActor`: the instance goes with its configuration. -/
def removeActor (h : ReusableHost π) (id : String) : Except RuntimeError (ReusableHost π) :=
  (h.toRuntime.removeActor id).map fun rt =>
    { h.afterHost (h.toHost.after rt) with batching := h.batching.erase id }

/-- `CreateActor` with the batching option, and the start hook of the new actor. -/
def createActor [Inhabited π] (h : ReusableHost π) (id : String) (nilHandler : Bool)
    (capacity : ℤ) (batch : BatchConfig) (hookOk : Bool) : Except RuntimeError (ReusableHost π) :=
  (h.toRuntime.createActor id nilHandler capacity hookOk).map fun rt =>
    { h.afterHost (h.toHost.after rt) with batching := h.batching.insert id batch }

end ReusableHost

/-- The operations on a host with batch configurations and a cluster registry. -/
inductive ReusableAction (π : Type)
  | host (a : HostAction π)
  | createActor (id : String) (nilHandler : Bool) (capacity : ℤ) (batch : BatchConfig)
      (hookOk : Bool)
  | removeActor (id : String)
  | registerName (id name ns : String)
  | unregisterName (name : String)
  | replicate (name : String) (binding : Option PID)
  | configureBatching (actorID : String) (maxBatchSize : ℤ) (receiver : Bool)
  | disableBatching (actorID : String)

namespace ReusableHost

/-- The host after an operation, which changes nothing if it is refused. -/
def orSame (h : ReusableHost π) : Except RuntimeError (ReusableHost π) → ReusableHost π
  | .ok h' => h'
  | .error _ => h

/-- One operation. Creation, removal and names are not those of the runtime alone. -/
def step [Inhabited π] [Payload π] [ReplyPayload π] (h : ReusableHost π) :
    ReusableAction π → Option (ReusableHost π × List RuntimeEvent)
  | .host (.runtime (.createActor ..)) | .host (.runtime (.removeActor _))
  | .host (.runtime (.registerName ..)) | .host (.unregisterName _) => none
  | .host a => (h.toHost.step a).map fun r => (h.afterHost r.1, r.2)
  | .createActor id nilHandler capacity batch hookOk =>
    some (h.orSame (h.createActor id nilHandler capacity batch hookOk), [])
  | .removeActor id => some (h.orSame (h.removeActor id), [])
  | .registerName id name ns => some (h.registerName id name ns, [])
  | .unregisterName name => some (h.unregisterName name, [])
  | .replicate name binding => some (h.replicate name binding, [])
  | .configureBatching actorID maxBatchSize receiver =>
    some (h.configureBatching actorID maxBatchSize receiver, [])
  | .disableBatching actorID => some (h.disableBatching actorID, [])

/-! ### An ID that had never been used -/

/-- The host without anything that is kept under the ID, the names it has in the cluster registry
included. -/
def forget (h : ReusableHost π) (id : String) : ReusableHost π :=
  wire { h with
    registry := h.registry.erase id
    names := eraseWhere (fun e => e.1 = id) h.names
    actorPID := h.actorPID.erase id
    resolver := { h.resolver with
      byKey := eraseWhere (fun e => e.pid.actorID = id) h.resolver.byKey }
    routers := h.routers.erase id
    routing := h.routing.erase id
    batching := h.batching.erase id
    cluster := h.cluster.map fun r =>
      (h.bound.entries.filter fun e => e.2 = id).foldl (fun r e => r.erase e.1) r
    bound := eraseWhere (fun owner => owner = id) h.bound }

/-- Nothing but what `RemoveActor` clears is kept under the ID: it has no type routes, no router
state and no names, here or in the cluster registry, and no resolver entry but that of the
identifier last issued. -/
structure LeavesNothing (h : ReusableHost π) (id : String) : Prop where
  routing : h.routing.lookup id = none
  router : h.routers.lookup id = none
  names : ∀ name e, h.names.lookup name = some e → e.1 ≠ id
  bound : ∀ name owner, h.bound.lookup name = some owner → owner ≠ id
  resolver : ∀ k e, h.resolver.byKey.lookup k = some e → e.pid.actorID = id →
    ∃ pid, h.actorPID.lookup id = some pid ∧ pid.key = k

/-! ### What removal and creation leave -/

variable {h₀ h h₁ : ReusableHost π} {id : String}

theorem removeActor_ok (hrm : h₀.removeActor id = .ok h) : h = wire { h₀ with
      registry := h₀.registry.erase id
      actorPID := h₀.actorPID.erase id
      resolver := h₀.releasePID id
      batching := h₀.batching.erase id } := by
  simp only [removeActor, Runtime.removeActor] at hrm
  split at hrm
  · cases hrm
  · split_ifs at hrm
    · cases hrm
    · cases hrm
      rfl

theorem resolver_kept_iff (rt : Runtime π) (id : String) :
    eraseWhere (fun e => e.pid.actorID = id) (rt.releasePID id).byKey = (rt.releasePID id).byKey ↔
      ∀ k e, rt.resolver.byKey.lookup k = some e → e.pid.actorID = id →
        ∃ pid, rt.actorPID.lookup id = some pid ∧ pid.key = k := by
  rw [eraseWhere_eq_self]
  constructor
  · intro h k e he hid
    by_contra hother
    have hkept := rt.lookup_releasePID id k
    rw [if_neg hother, he] at hkept
    simpa [hid] using h k e hkept
  · intro h k e he
    rw [Runtime.lookup_releasePID] at he
    split_ifs at he with hlast
    simpa using fun hid => hlast (h k e he hid)

section
variable [Inhabited π]

/-- The host with the actor created. -/
def created (h : ReusableHost π) (id : String) (capacity : ℤ) (batch : BatchConfig) :
    ReusableHost π :=
  wire { h with
    registry := h.registry.insert id ⟨.running, .new capacity, 0⟩
    batching := h.batching.insert id batch }

variable {capacity : ℤ} {batch : BatchConfig}

theorem createActor_ok (hc : h.createActor id false capacity batch true = .ok h₁) :
    h₁ = h.created id capacity batch := by
  simp only [createActor, Runtime.createActor] at hc
  split_ifs at hc with hid hnil hdup
  all_goals cases hc
  rfl

end

/-! ### Two histories -/

def alone (cluster : Option Cluster.DistributedRegistry) : ReusableHost String :=
  .new "" none none cluster fun _ => 0

/-- A history after which `RemoveActor` succeeds, the host with the actor created again, and the
one on which its ID was never used. -/
def Recreates (cluster : Option Cluster.DistributedRegistry) (acts : List (ReusableAction String))
    (h₀ h h₁ h₂ : ReusableHost String) : Prop :=
  (exec step (fun _ _ => true) (alone cluster) acts).map (fun r => r.1) = some h₀ ∧
    h₀.removeActor "a" = .ok h ∧ h.createActor "a" false 4 {} true = .ok h₁ ∧
    (h.forget "a").createActor "a" false 4 {} true = .ok h₂

end ReusableHost

end Westcoast
