import Mathlib.Algebra.Group.Nat.Defs
import Mathlib.Data.List.Dedup
import Mathlib.Data.List.Sort
import Westcoast.Cluster.Election
import Westcoast.Lib.Circle

/-!
# The ring topology

`topology_ring.go`: the nodes stand on a ring in the order of their hashes. A node connects to
`Fanout` neighbours in each direction and to the nodes at distances 1, 2, 4, ... clockwise, its
fingers. Nodes with equal hashes, which the source leaves to the order of a map, are in the order of
the member list.
-/
namespace Westcoast.Cluster

open Lib List Nat

/-- `hashVNode`: two rounds of FNV-1a, with the number of the virtual node in between. -/
def hashVNode (id : NodeID) (vnode : ℕ) : UInt64 :=
  let first := fnv64a id.toByteArray.data.toList
  let mixed := first ^^^ UInt64.ofNat vnode * 0x9e3779b97f4a7c15
  fnv64a (([56, 48, 40, 32, 24, 16, 8, 0] : List UInt64).map fun k => (mixed >>> k).toUInt8)

/-- Where a node stands: the hash of its first virtual node. -/
def position (id : NodeID) : ℕ := (hashVNode id 0).toNat

theorem position_lt (id : NodeID) : position id < 2 ^ 64 := (hashVNode id 0).toNat_lt

def ringOrder (a b : NodeID) : Prop := position a ≤ position b

instance : DecidableRel ringOrder := fun a b => decLe (position a) (position b)

instance : Std.Total ringOrder := ⟨fun a b => le_total (position a) (position b)⟩

instance : IsTrans NodeID ringOrder := ⟨fun _ _ _ => le_trans⟩

/-- `ring`: at least two nodes in their order. -/
structure Ring where
  nodes : List NodeID
  two_le : 2 ≤ nodes.length
  nodup : nodes.Nodup
  sorted : nodes.Pairwise ringOrder

namespace Ring

def size (rg : Ring) : ℕ := rg.nodes.length

theorem size_pos (rg : Ring) : 0 < rg.size := lt_of_lt_of_le (by decide) rg.two_le

def node (rg : Ring) (i : ℕ) : NodeID :=
  rg.nodes.get ⟨i % rg.size, mod_lt i rg.size_pos⟩

/-- `indexOf`; the source answers -1 for none. -/
def indexOf (rg : Ring) (id : NodeID) : Option ℕ := rg.nodes.idxOf? id

/-- `buildRing`: a ring of the node itself and all members, if these are two at least. -/
def build (self : NodeID) (members : List NodeMeta) : Option Ring :=
  let allNodes := (self :: members.map (·.id)).dedup
  if h : allNodes.length < 2 then none
  else
    some {
      nodes := allNodes.insertionSort ringOrder
      two_le := by
        rw [length_insertionSort]
        omega
      nodup := (perm_insertionSort ringOrder allNodes).nodup_iff.mpr (nodup_dedup _)
      sorted := pairwise_insertionSort ringOrder allNodes }

end Ring

def ringDistance (a b n : ℕ) : ℕ := clockwise n a b

structure RingTopology where
  fanout : ℕ

namespace RingTopology

/-- `buildFingers`: jumps by powers of two. -/
def buildFingers (rg : Ring) (selfIdx : ℕ) : List NodeID :=
  if rg.size ≤ 2 then []
  else
    let numFingers := max 1 (log2 rg.size)
    let jumps := (List.range numFingers).map fun i => rg.node (selfIdx + 2 ^ i)
    (jumps.filter (· ≠ rg.node selfIdx)).eraseDups

def neighbors (r : RingTopology) (rg : Ring) (selfIdx : ℕ) : List NodeID :=
  (List.range' 1 r.fanout).flatMap fun i =>
    [rg.node (selfIdx + i), rg.node (selfIdx + rg.size - i)]

/-- `ShouldConnect`; a small ring is a full mesh. -/
def shouldConnect (r : RingTopology) (self : NodeID) (members : List NodeMeta) : List NodeID :=
  match Ring.build self members with
  | none => []
  | some rg =>
    if rg.size ≤ 2 * r.fanout + 1 then (rg.nodes.filter (· ≠ self)).eraseDups
    else
      match rg.indexOf self with
      | none => []
      | some selfIdx =>
        (r.neighbors rg selfIdx ++ buildFingers rg selfIdx).eraseDups.filter (· ≠ self)

/-- One candidate in the loops of `Route`. -/
def consider (rg : Ring) (targetIdx : ℕ) (best : NodeID × ℕ) (hop : NodeID) : NodeID × ℕ :=
  match rg.indexOf hop with
  | none => best
  | some idx =>
    if ringDistance idx targetIdx rg.size < best.2 then
      (hop, ringDistance idx targetIdx rg.size)
    else best

/-- `Route`. The empty identifier stands for "no hop found". -/
def route (r : RingTopology) (self target : NodeID) (members : List NodeMeta) : Option NodeID :=
  match Ring.build self members with
  | none => none
  | some rg =>
    match rg.indexOf target, rg.indexOf self with
    | some targetIdx, some selfIdx =>
      if ringDistance selfIdx targetIdx rg.size ≤ r.fanout then some target
      else
        let candidates := buildFingers rg selfIdx ++ r.neighbors rg selfIdx
        let bestHop := (candidates.foldl (consider rg targetIdx) ("", rg.size)).1
        if bestHop = "" then none else some bestHop
    | _, _ => none

end RingTopology

/-- What a node knows of the cluster when it forwards: itself, its peers, and the nodes
it has connections to. -/
structure ClusterView where
  self : NodeMeta
  peers : List NodeMeta
  conns : List NodeID

/-- The node to which `SendRemote` hands an envelope for `target`. -/
def ClusterView.sendRemote (v : ClusterView) (r : RingTopology) (target : NodeID) : Option NodeID :=
  if target ∈ v.conns then some target else r.route v.self.id target (v.self :: v.peers)

/-- What `Dispatch` does with an envelope for `target`: it is forwarded unless it has
arrived or names no node. -/
def ClusterView.forward (v : ClusterView) (r : RingTopology) (target : NodeID) : Option NodeID :=
  if target = "" ∨ target = v.self.id then none else v.sendRemote r target

end Westcoast.Cluster
