import Westcoast.Actor.PID
import Westcoast.Cluster.Election
import Westcoast.Lib.Assoc

/-!
# The distributed name registry

`registry_crdt.go`, with the replicated map seen as the sequential map it is for one node: a bound
name is not bound again, and the bindings of a node go when it leaves or fails.
-/
namespace Westcoast.Cluster

open Lib Option

abbrev DistributedRegistry := AList (fun _ : String => PID)

namespace DistributedRegistry

/-- `Register`. The same actor may register again. -/
def register (r : DistributedRegistry) (name : String) (pid : PID) :
    Except String DistributedRegistry :=
  match r.lookup name with
  | some existing =>
    if existing.key = pid.key then .ok r else .error "name already registered"
  | none => .ok (r.insert name pid)

def unregister (r : DistributedRegistry) (name : String) : Option PID × DistributedRegistry :=
  match r.lookup name with
  | none => (none, r)
  | some pid => (some pid, r.erase name)

def namesByNode (r : DistributedRegistry) (node : NodeID) : List String :=
  r.keys.filter fun name =>
    match r.lookup name with
    | some pid => pid.ns = node
    | none => false

/-- `UnregisterByNode`, with the names it removed. -/
def unregisterByNode (r : DistributedRegistry) (node : NodeID) :
    List String × DistributedRegistry :=
  (r.namesByNode node, (r.namesByNode node).foldl (fun r name => r.erase name) r)

/-- `OnMembershipChange`: names of a node that departs go. -/
def onMembershipChange (r : DistributedRegistry) (ev : MemberEvent) : DistributedRegistry :=
  if ev.type.departs then (r.unregisterByNode ev.member.id).2 else r

theorem mem_namesByNode {r : DistributedRegistry} {node : NodeID} {name : String} :
    name ∈ r.namesByNode node ↔ ∃ pid, r.lookup name = some pid ∧ pid.ns = node := by
  simp only [namesByNode, List.mem_filter]
  cases h : r.lookup name with
  | none => simp
  | some pid =>
    have hmem : name ∈ r.keys := by
      rw [← AList.mem_keys, ← AList.lookup_isSome, h]
      rfl
    simp [hmem]

theorem lookup_onMembershipChange (r : DistributedRegistry) (ev : MemberEvent) (name : String) :
    (r.onMembershipChange ev).lookup name =
      (r.lookup name).filter fun pid => !(ev.type.departs && pid.ns = ev.member.id) := by
  simp only [onMembershipChange]
  by_cases hd : ev.type.departs = true
  · rw [if_pos hd, unregisterByNode, lookup_foldl_erase (fun name => name), List.map_id']
    cases h : r.lookup name with
    | none => simp
    | some pid =>
      by_cases hns : pid.ns = ev.member.id
      · have hmem : name ∈ r.namesByNode ev.member.id := mem_namesByNode.mpr ⟨pid, h, hns⟩
        simp [hmem, hd, hns, filter_some]
      · have hmem : name ∉ r.namesByNode ev.member.id := by
          rw [mem_namesByNode]
          rintro ⟨pid', h', hns'⟩
          rw [h, some.injEq] at h'
          subst h'
          exact hns hns'
        simp [hmem, hns, filter_some]
  · rw [if_neg hd]
    cases r.lookup name <;> simp [hd, filter_some]

end DistributedRegistry
end Westcoast.Cluster
