import Westcoast.Actor.Terminal
import Westcoast.Cluster.Registry

/-!
# The names of a cluster

The runtimes of a cluster with their name tables, their daemon managers, and the distributed
registry, taken as converged: one map. The order in which `Reconcile` goes through the daemons and
the placement of each are part of the action.
-/
namespace Westcoast.Cluster

open Lib

/-- A daemon of a `DaemonSetManager`: what `CreateActor` is given, and whether it runs. -/
structure DaemonState where
  nilHandler : Bool
  capacity : ℤ
  running : Bool

structure Member (π : Type) where
  runtime : Runtime π
  daemons : AList (fun _ : String => DaemonState)
  started : Bool

structure Directory (ι π : Type) where
  members : ι → Member π
  registry : DistributedRegistry

inductive DirectoryAction (π : Type)
  | runtime (op : RuntimeAction π)
  | spawn (id : String) (nilHandler : Bool) (capacity : ℤ)
  | started (id : String)
  | ends (id : String) (path : TerminalPath)
  | unregisterName (name : String)
  | registerDaemon (name : String) (nilHandler : Bool) (capacity : ℤ) (place : String → Bool)
  | startDaemons (place : String → Bool) (order : List String)
  | reconcile (place : String → Bool) (order : List String)
  | stopDaemons (order : List String)

namespace Directory

variable {ι π : Type}

def lookupName (s : Directory ι π) (i : ι) (name : String) : Option PID :=
  (s.members i).runtime.lookupName (some fun name => s.registry.lookup name) name

def new (nodeID : ι → NodeID) (remoteSend : Option (PID → PIDDeliveryOutcome)) : Directory ι π where
  members := fun i => ⟨.new (nodeID i) remoteSend, ∅, false⟩
  registry := ∅

def pair : Directory Bool String := .new (fun b => if b then "n2" else "n1") none

variable [DecidableEq ι]

def setMember (s : Directory ι π) (i : ι) (m : Member π) : Directory ι π :=
  { s with members := Function.update s.members i m }

def setRuntime (s : Directory ι π) (i : ι) (rt : Runtime π) : Directory ι π :=
  s.setMember i { s.members i with runtime := rt }

def setDaemon (s : Directory ι π) (i : ι) (name : String) (d : DaemonState) : Directory ι π :=
  s.setMember i { s.members i with daemons := (s.members i).daemons.insert name d }

def setStarted (s : Directory ι π) (i : ι) (started : Bool) : Directory ι π :=
  s.setMember i { s.members i with started := started }

/-- `RegisterName`, which ignores the registry's error. -/
def registerName (s : Directory ι π) (i : ι) (id name ns : String) :
    Except RuntimeError PID × Directory ι π :=
  match (s.members i).runtime.registerName id name ns with
  | (.error e, rt) => (.error e, s.setRuntime i rt)
  | (.ok pid, rt) =>
    (.ok pid, { s.setRuntime i rt with
      registry := (s.registry.register name pid).toOption.getD s.registry })

def unregisterName (s : Directory ι π) (i : ι) (name : String) : Option PID × Directory ι π :=
  match (s.members i).runtime.unregisterName name with
  | (none, rt) => (none, s.setRuntime i rt)
  | (some pid, rt) =>
    (some pid, { s.setRuntime i rt with registry := (s.registry.unregister name).2 })

def stop (s : Directory ι π) (i : ι) (id : String) : Directory ι π :=
  s.setRuntime i ((s.members i).runtime.stop id).2

/-- `reconcileDaemon`, for a daemon that should no longer run here. -/
def stopDaemon (s : Directory ι π) (i : ι) (name : String) (d : DaemonState) : Directory ι π :=
  ((s.unregisterName i name).2.stop i name).setDaemon i name { d with running := false }

def stopRunning (i : ι) (s : Directory ι π) (name : String) : Directory ι π :=
  match (s.members i).daemons.lookup name with
  | none => s
  | some d => if d.running then (s.stop i name).setDaemon i name { d with running := false } else s

variable [Inhabited π]

/-- `reconcileDaemon`, for a daemon that should run here. -/
def startDaemon (s : Directory ι π) (i : ι) (name : String) (d : DaemonState) : Directory ι π :=
  match (s.members i).runtime.spawn name d.nilHandler d.capacity with
  | .error _ => s
  | .ok rt =>
    (((s.setRuntime i rt).setDaemon i name { d with running := true }).registerName i name name
      rt.nodeID).2

def reconcileDaemon (i : ι) (place : String → Bool) (s : Directory ι π) (name : String) :
    Directory ι π :=
  match (s.members i).daemons.lookup name with
  | none => s
  | some d =>
    if place name && !d.running then s.startDaemon i name d
    else if !place name && d.running then s.stopDaemon i name d
    else s

/-- The daemons of a member are reconciled one after the other. -/
def reconcileAll (s : Directory ι π) (i : ι) (place : String → Bool) (order : List String) :
    Directory ι π :=
  order.foldl (reconcileDaemon i place) s

def step (s : Directory ι π) : ι × DirectoryAction π → Option (Directory ι π × List Unit)
  | (i, .runtime (.registerName id name ns)) => some ((s.registerName i id name ns).2, [])
  | (i, .runtime op) => ((s.members i).runtime.step op).map fun r => (s.setRuntime i r.1, [])
  | (i, .spawn id nilHandler capacity) =>
    match (s.members i).runtime.spawn id nilHandler capacity with
    | .error _ => some (s, [])
    | .ok rt => some (s.setRuntime i rt, [])
  | (i, .started id) =>
    ((s.members i).runtime.runStartHook id true).map fun rt => (s.setRuntime i rt, [])
  | (i, .ends id path) =>
    ((s.members i).runtime.endsBy id path).map fun rt => (s.setRuntime i rt, [])
  | (i, .unregisterName name) => some ((s.unregisterName i name).2, [])
  | (i, .registerDaemon name nilHandler capacity place) =>
    let s := s.setDaemon i name ⟨nilHandler, capacity, false⟩
    some (if (s.members i).started then s.reconcileDaemon i place name else s, [])
  | (i, .startDaemons place order) =>
    if order.isPerm (s.members i).daemons.keys then
      some ((s.setStarted i true).reconcileAll i place order, [])
    else none
  | (i, .reconcile place order) =>
    if order.isPerm (s.members i).daemons.keys then
      some (if (s.members i).started then s.reconcileAll i place order else s, [])
    else none
  | (i, .stopDaemons order) =>
    if order.isPerm (s.members i).daemons.keys then
      some (order.foldl (stopRunning i) (s.setStarted i false), [])
    else none

end Directory
end Westcoast.Cluster
