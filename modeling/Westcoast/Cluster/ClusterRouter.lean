import Westcoast.Actor.Routes
import Westcoast.Cluster.Registry
import Mathlib.Data.List.Sort
import Mathlib.Data.String.Basic

/-!
# Service groups

`cluster_router.go`: workers on any node join a service group, which is a part of the name they are
registered under. `sort.Slice` puts elements with equal keys in any order (`SortSlice`). A division
by zero is the route `panics`.
-/
namespace Westcoast.Cluster

open Lib List

abbrev NodeMatcher := NodeMeta → Bool

/-- `NodeRanker`; the scores are 64-bit integers. -/
abbrev NodeRanker := NodeMeta → Int64

/-- The strategy that `Configure` is given, which checks nothing. -/
inductive ClusterStrategy
  | known (strategy : RouterStrategy)
  | unknown (name : String)

structure ClusterRouterState where
  strategy : ClusterStrategy
  rrNext : UInt64
  filter : Option NodeMatcher
  preference : Option NodeRanker

/-- `Nearest`: the number of tags that match; a missing one is the empty string. -/
def nearest (tags : List (String × String)) : NodeRanker := fun nodeMeta =>
  Int64.ofNat (tags.countP fun t => (nodeMeta.tags.lookup t.1).getD "" = t.2)

structure KnownNodes where
  self : NodeMeta
  members : List NodeMeta

structure ClusterRouter where
  registry : DistributedRegistry
  cluster : Option KnownNodes
  routers : AList (fun _ : String => ClusterRouterState)

/-- A way to sort identifiers by their keys, as `sort.Slice` may do it. -/
structure SortSlice where
  sort : List PID → List PID
  perm : ∀ l, (sort l).Perm l
  sorted : ∀ l, (sort l).Pairwise fun a b => a.key ≤ b.key

inductive Route
  | noWorkers
  | worker (pid : PID)
  | panics
  deriving DecidableEq

/-- The beginning of the names under which the workers of a service are registered. -/
def groupStart (serviceName : String) : String := "svcgroup:" ++ serviceName ++ ":"

def serviceGroupKey (serviceName : String) (pid : PID) : String :=
  groupStart serviceName ++ pid.key

/-- The check of `Members` whether a name is one of the group. -/
def inGroup (serviceName name : String) : Bool :=
  (groupStart serviceName).length < name.length &&
    (groupStart serviceName).toList.isPrefixOf name.toList

namespace ClusterRouter

def new (cluster : Option KnownNodes) : ClusterRouter := ⟨∅, cluster, ∅⟩

/-- `Configure` with the options `WithWorkerFilter` and `WithWorkerPreference`. -/
def configure (r : ClusterRouter) (serviceName : String) (strategy : ClusterStrategy)
    (filter : Option NodeMatcher) (preference : Option NodeRanker) : ClusterRouter :=
  { r with routers := r.routers.insert serviceName ⟨strategy, 0, filter, preference⟩ }

def join (r : ClusterRouter) (serviceName : String) (pid : PID) : Except String ClusterRouter :=
  (r.registry.register (serviceGroupKey serviceName pid) pid).map fun registry =>
    { r with registry }

def leave (r : ClusterRouter) (serviceName : String) (pid : PID) : ClusterRouter :=
  { r with registry := (r.registry.unregister (serviceGroupKey serviceName pid)).2 }

def nodeMetaMap (r : ClusterRouter) : AList (fun _ : NodeID => NodeMeta) :=
  match r.cluster with
  | none => ∅
  | some view =>
    view.members.foldl (fun m member => m.insert member.id member)
      ((∅ : AList _).insert view.self.id view.self)

def filterByNodeMeta (r : ClusterRouter) (pids : List PID) (matcher : NodeMatcher) : List PID :=
  pids.filter fun pid =>
    match r.nodeMetaMap.lookup pid.ns with
    | none => false
    | some nodeMeta => matcher nodeMeta

/-- The identifiers that the loop of `Members` collects from the registry. -/
def collected (r : ClusterRouter) (serviceName : String) : List PID :=
  (r.registry.entries.filter fun e => inGroup serviceName e.1).map (·.2)

/-- The filter that `Members` applies: the one of the service, if there is a cluster. -/
def staticFilter (r : ClusterRouter) (serviceName : String) : Option NodeMatcher :=
  match r.routers.lookup serviceName, r.cluster with
  | some state, some _ => state.filter
  | _, _ => none

def members (r : ClusterRouter) (sort : SortSlice) (serviceName : String) : List PID :=
  sort.sort <|
    match r.staticFilter serviceName with
    | none => r.collected serviceName
    | some matcher => r.filterByNodeMeta (r.collected serviceName) matcher

def staticPreference (r : ClusterRouter) (serviceName : String) : Option NodeRanker :=
  (r.routers.lookup serviceName).bind (·.preference)

/-- The combined score of a worker; a node that is not known has no tags. -/
def score (r : ClusterRouter) (serviceName : String) (callPrefs : List NodeRanker) (pid : PID) :
    Int64 :=
  let nodeMeta := (r.nodeMetaMap.lookup pid.ns).getD ⟨"", "", []⟩
  let score := match r.staticPreference serviceName with
    | none => 0
    | some preference => 0 + preference nodeMeta
  callPrefs.foldl (fun score pref => score + pref nodeMeta) score

/-- `applyPreferences`; sorting by insertion is stable, as `sort.SliceStable` is. -/
def applyPreferences (r : ClusterRouter) (serviceName : String) (pids : List PID)
    (callPrefs : List NodeRanker) : List PID :=
  if (r.staticPreference serviceName).isNone && callPrefs.isEmpty || r.cluster.isNone then pids
  else
    pids.insertionSort fun a b =>
      (r.score serviceName callPrefs b).toInt ≤ (r.score serviceName callPrefs a).toInt

variable {π : Type} [Payload π]

/-- `selectWorker`; `random` is the next random number. The number of workers is cut to 32 bits
before it divides the hash. -/
def selectWorker (r : ClusterRouter) (serviceName : String) (members : List PID) (random : ℕ)
    (payload : Option π) : Option PID × ClusterRouter :=
  match r.routers.lookup serviceName with
  | none =>
    (members[0 % members.length]?, { r with
        routers := r.routers.insert serviceName ⟨.known .roundRobin, 0 + 1, none, none⟩ })
  | some state =>
    match state.strategy with
    | .known .roundRobin =>
      (members[state.rrNext.toNat % members.length]?, { r with
          routers := r.routers.insert serviceName { state with rrNext := state.rrNext + 1 } })
    | .known .random => (members[random % members.length]?, r)
    | .known .consistentKey =>
      match payload.bind Payload.hashKey with
      | some key =>
        let hash := (fnv32a key.toByteArray.data.toList).toNat
        if members.length % 2 ^ 32 = 0 then (none, r)
        else (members[hash % (members.length % 2 ^ 32)]?, r)
      | none => (members[0]?, r)
    | .unknown _ => (members[0]?, r)

/-- `sendInternal` and `askInternal`, up to the call of the runtime. -/
def route (r : ClusterRouter) (sort : SortSlice) (serviceName : String)
    (callPrefs : List NodeRanker) (random : ℕ) (payload : Option π) : Route × ClusterRouter :=
  if (r.members sort serviceName).isEmpty then (.noWorkers, r)
  else
    match r.selectWorker serviceName
      (r.applyPreferences serviceName (r.members sort serviceName) callPrefs) random payload with
    | (none, r) => (.panics, r)
    | (some pid, r) => (.worker pid, r)

/-! ## The members of a group -/

def passes (r : ClusterRouter) (serviceName : String) (pid : PID) : Bool :=
  match r.staticFilter serviceName with
  | none => true
  | some matcher => (r.nodeMetaMap.lookup pid.ns).any matcher

def Eligible (r : ClusterRouter) (serviceName : String) (pid : PID) : Prop :=
  (∃ name, r.registry.lookup name = some pid ∧ inGroup serviceName name = true) ∧
    r.passes serviceName pid = true

theorem members_perm (r : ClusterRouter) (sort : SortSlice) (serviceName : String) :
    (r.members sort serviceName).Perm
      ((r.collected serviceName).filter (r.passes serviceName)) := by
  refine (sort.perm _).trans (List.Perm.of_eq ?_)
  cases h : r.staticFilter serviceName with
  | none => exact (filter_eq_self.mpr fun pid _ => by simp [passes, h]).symm
  | some matcher =>
    refine filter_congr fun pid _ => ?_
    simp only [passes, h]
    cases r.nodeMetaMap.lookup pid.ns <;> rfl

variable {r : ClusterRouter} {serviceName : String} {pid : PID}

theorem mem_collected : pid ∈ r.collected serviceName ↔
      ∃ name, r.registry.lookup name = some pid ∧ inGroup serviceName name = true := by
  simp only [collected, mem_map, mem_filter]
  constructor
  · rintro ⟨⟨name, pid'⟩, ⟨he, hin⟩, rfl⟩
    exact ⟨name, AList.mem_lookup_iff.mpr he, hin⟩
  · rintro ⟨name, hname, hin⟩
    exact ⟨⟨name, pid⟩, ⟨AList.mem_lookup_iff.mp hname, hin⟩, rfl⟩

theorem mem_members {sort : SortSlice} :
    pid ∈ r.members sort serviceName ↔ r.Eligible serviceName pid := by
  rw [(r.members_perm sort serviceName).mem_iff, mem_filter, mem_collected, Eligible]

theorem passes_filter {matcher : NodeMatcher} (h : r.staticFilter serviceName = some matcher)
    (hpasses : r.passes serviceName pid = true) :
    ∃ nodeMeta, r.nodeMetaMap.lookup pid.ns = some nodeMeta ∧ matcher nodeMeta = true := by
  simp only [passes, h] at hpasses
  cases hmeta : r.nodeMetaMap.lookup pid.ns with
  | none => simp [hmeta] at hpasses
  | some nodeMeta => exact ⟨nodeMeta, rfl, by simpa [hmeta] using hpasses⟩

end ClusterRouter

def SortSlice.insertion : SortSlice where
  sort l := l.insertionSort fun a b => a.key ≤ b.key
  perm l := perm_insertionSort _ l
  sorted l := pairwise_insertionSort _ l

end Westcoast.Cluster
