import Westcoast.Cluster.Ring
import Westcoast.Lib.Walk

/-!
# Replica placement

`Responsible` of both topologies. On the ring of `topology_ring.go` every node has `VNodes`
positions, and a walk clockwise from the hash of the key collects nodes. The full mesh of
`topology_full.go` ranks the nodes by a hash of the key and the node.
-/
namespace Westcoast.Cluster

open Lib List

/-! ## The ring -/

structure VNodePos where
  hash : UInt64
  node : NodeID
deriving DecidableEq

def hashString (s : String) : UInt64 := fnv64a s.toByteArray.data.toList

/-- The replicas that are asked for: one at least. -/
def replicas (replication : ℤ) : ℕ := if replication ≤ 0 then 1 else replication.toNat

def vnodePositions (vnodes : ℕ) (id : NodeID) : List VNodePos :=
  (range vnodes).map fun v => { hash := hashVNode id v, node := id }

/-- `buildRingFromMembers`, the `positions` of the ring, for the nodes in the order of the member
list. -/
def buildRingFromMembers (vnodes : ℕ) (members : List NodeMeta) : List VNodePos :=
  sortBy (fun p => p.hash.toNat)
    ((members.map (·.id)).dedup.flatMap (vnodePositions vnodes))

/-- The nodes that the loop of `Responsible` passes, from position `idx` on and once around. -/
def clockwiseNodes (positions : List VNodePos) (idx : ℕ) : List NodeID :=
  (range positions.length).filterMap fun i =>
    (positions[(idx + i) % positions.length]?).map (·.node)

/-- `Responsible` of a ring topology with `vnodes` virtual nodes. -/
def RingTopology.responsible (vnodes : ℕ) (key : String) (members : List NodeMeta)
    (replication : ℤ) : List NodeID :=
  if members = [] then []
  else
    let positions := buildRingFromMembers vnodes members
    let keyHash := (hashString key).toNat
    let found := search positions.length fun i => positions[i]?.any fun p => keyHash ≤ p.hash.toNat
    let idx := if positions.length ≤ found then 0 else found
    collect (replicas replication) [] (clockwiseNodes positions idx)

/-! ## The full mesh -/

/-- `Responsible` of the full mesh. A candidate's hash is taken as for an election. -/
def FullMeshTopology.responsible (key : String) (members : List NodeMeta) (replication : ℤ) :
    List NodeID :=
  if members = [] then []
  else
    let candidates := sortBy (fun id => (ringHash key id).toNat) (members.map (·.id))
    candidates.take (min (replicas replication) candidates.length)

inductive Placement where
  | ring (vnodes : ℕ)
  | fullMesh
deriving DecidableEq

namespace Placement

def responsible : Placement → String → List NodeMeta → ℤ → List NodeID
  | ring vnodes => RingTopology.responsible vnodes
  | fullMesh => FullMeshTopology.responsible

/-- A ring has a virtual node at least, as `NewRingTopology` sees to. -/
def Valid : Placement → Prop
  | ring vnodes => 1 ≤ vnodes
  | fullMesh => True

def DistinctHashes (key : String) (ids : List NodeID) : Placement → Prop
  | ring vnodes => ∀ a ∈ ids, ∀ b ∈ ids, ∀ v < vnodes, ∀ w < vnodes,
      hashVNode a v = hashVNode b w → a = b ∧ v = w
  | fullMesh => ∀ a ∈ ids, ∀ b ∈ ids, ringHash key a = ringHash key b → a = b

instance (key : String) (ids : List NodeID) : ∀ t, Decidable (DistinctHashes key ids t)
  | ring vnodes => inferInstanceAs (Decidable (∀ a ∈ ids, ∀ b ∈ ids, ∀ v < vnodes, ∀ w < vnodes,
      hashVNode a v = hashVNode b w → a = b ∧ v = w))
  | fullMesh => inferInstanceAs (Decidable (∀ a ∈ ids, ∀ b ∈ ids,
      ringHash key a = ringHash key b → a = b))

end Placement

/-! ## Rankings -/

namespace Placement

/-- All nodes in the order in which a placement prefers them for a key. -/
def ranking (key : String) : Placement → List NodeID → List NodeID
  | ring vnodes, ids =>
    ((walk (fun p => p.hash.toNat) (hashString key).toNat
      (sortBy (fun p => p.hash.toNat) (ids.flatMap (vnodePositions vnodes)))).map
        (·.node)).eraseDups
  | fullMesh, ids => sortBy (fun id => (ringHash key id).toNat) ids

end Placement

theorem replicas_natCast {r : ℕ} (hr : 1 ≤ r) : replicas r = r := by
  rw [replicas, if_neg (by omega), Int.toNat_natCast]

theorem clockwiseNodes_eq (positions : List VNodePos) (idx : ℕ) :
    clockwiseNodes positions idx = (positions.rotate idx).map (·.node) := by
  rw [← filterMap_range_rotate, map_filterMap]
  rfl

theorem mem_vnodePositions {vnodes : ℕ} {id : NodeID} {p : VNodePos} :
    p ∈ vnodePositions vnodes id ↔ ∃ v < vnodes, p = { hash := hashVNode id v, node := id } := by
  simp [vnodePositions, eq_comm]

theorem flatMap_vnodePositions_filter (vnodes : ℕ) (ids : List NodeID) (x : NodeID) :
    (ids.filter (· ≠ x)).flatMap (vnodePositions vnodes) =
      (ids.flatMap (vnodePositions vnodes)).filter (fun p => p.node ≠ x) := by
  induction ids with
  | nil => rfl
  | cons id ids ih =>
    rw [flatMap_cons, filter_append, ← ih]
    have hnode : ∀ p ∈ vnodePositions vnodes id, p.node = id := by
      intro p hp
      obtain ⟨v, _, rfl⟩ := mem_vnodePositions.mp hp
      rfl
    by_cases hx : id = x
    · have hdrop : (vnodePositions vnodes id).filter (fun p => p.node ≠ x) = [] :=
        filter_eq_nil_iff.mpr fun p hp => by simp [hnode p hp, hx]
      rw [filter_cons_of_neg (by simpa using hx), hdrop, nil_append]
    · have hkeep : (vnodePositions vnodes id).filter (fun p => p.node ≠ x) =
          vnodePositions vnodes id :=
        filter_eq_self.mpr fun p hp => by simpa [hnode p hp] using hx
      rw [filter_cons_of_pos (by simpa using hx), flatMap_cons, hkeep]

namespace Placement

variable {key : String} {ids : List NodeID}

theorem DistinctHashes.positions {vnodes : ℕ} (h : DistinctHashes key ids (ring vnodes)) :
    ∀ p ∈ ids.flatMap (vnodePositions vnodes), ∀ q ∈ ids.flatMap (vnodePositions vnodes),
      p.hash.toNat = q.hash.toNat → p = q := by
  intro p hp q hq hhash
  obtain ⟨a, ha, hpa⟩ := mem_flatMap.mp hp
  obtain ⟨b, hb, hqb⟩ := mem_flatMap.mp hq
  obtain ⟨v, hv, rfl⟩ := mem_vnodePositions.mp hpa
  obtain ⟨w, hw, rfl⟩ := mem_vnodePositions.mp hqb
  obtain ⟨rfl, rfl⟩ := h a ha b hb v hv w hw (UInt64.toNat_inj.mp hhash)
  rfl

theorem DistinctHashes.candidates (h : DistinctHashes key ids fullMesh) :
    ∀ a ∈ ids, ∀ b ∈ ids, (ringHash key a).toNat = (ringHash key b).toNat → a = b :=
  fun a ha b hb hhash => h a ha b hb (UInt64.toNat_inj.mp hhash)

/-- **What `Responsible` answers**: the first of its ranking. -/
theorem responsible_eq (t : Placement) (key : String) {members : List NodeMeta}
    (hids : (members.map (·.id)).Nodup) (replication : ℤ) : t.responsible key members replication =
      (t.ranking key (members.map (·.id))).take (replicas replication) := by
  by_cases hnil : members = []
  · subst hnil
    cases t <;> simp [responsible, RingTopology.responsible, FullMeshTopology.responsible,
      ranking, walk, sortBy]
  · cases t with
    | ring vnodes =>
      simp only [responsible, RingTopology.responsible, if_neg hnil]
      rw [clockwiseNodes_eq, buildRingFromMembers, rotate_search (pairwise_sortBy _ _),
        collect_eq _ nodup_nil (Nat.zero_le _), nil_append, hids.dedup]
      rfl
    | fullMesh =>
      simp only [responsible, FullMeshTopology.responsible, if_neg hnil, ranking]
      rw [← take_take, take_length]

variable {t : Placement}

theorem ranking_perm (ht : t.Valid) (key : String) (hids : ids.Nodup) :
    (t.ranking key ids).Perm ids := by
  cases t with
  | ring vnodes =>
    refine (perm_ext_iff_of_nodup (nodup_eraseDups _) hids).mpr ?_
    intro id
    simp only [mem_eraseDups, mem_map, mem_walk, (sortBy_perm _ _).mem_iff,
      mem_flatMap, mem_vnodePositions]
    constructor
    · rintro ⟨p, ⟨a, ha, v, _, rfl⟩, rfl⟩
      exact ha
    · intro hid
      exact ⟨_, ⟨id, hid, 0, ht, rfl⟩, rfl⟩
  | fullMesh => exact sortBy_perm _ _

theorem ranking_eq_of_perm {ids' : List NodeID} (h : t.DistinctHashes key ids)
    (hperm : ids.Perm ids') : t.ranking key ids = t.ranking key ids' := by
  cases t with
  | ring vnodes =>
    simp only [ranking]
    rw [sortBy_eq_of_perm h.positions (hperm.flatMap_right _)]
  | fullMesh => exact sortBy_eq_of_perm h.candidates hperm

theorem ranking_remove (h : t.DistinctHashes key ids) (hids : ids.Nodup) (x : NodeID) :
    t.ranking key (ids.filter (· ≠ x)) = (t.ranking key ids).erase x := by
  cases t with
  | ring vnodes =>
    simp only [ranking]
    rw [flatMap_vnodePositions_filter, sortBy_filter h.positions, walk_filter,
      ← eraseDups_filter_ne, filter_map]
    rfl
  | fullMesh =>
    simp only [ranking]
    have hnodup : (sortBy (fun id => (ringHash key id).toNat) ids).Nodup :=
      (sortBy_perm _ ids).nodup_iff.mpr hids
    rw [sortBy_filter h.candidates, hnodup.erase_eq_filter]
    exact filter_congr fun id _ => by by_cases hid : id = x <;> simp [hid]

end Placement

/-! ## Consistent hashing -/

def without (members : List NodeMeta) (x : NodeID) : List NodeMeta :=
  members.filter (·.id ≠ x)

theorem map_id_without (members : List NodeMeta) (x : NodeID) :
    (without members x).map (·.id) = (members.map (·.id)).filter (· ≠ x) := by
  rw [without, filter_map]
  rfl

/-- What consistent hashing promises of a placement `resp` of `r` replicas on `members`. -/
structure ConsistentHashing (resp : List NodeMeta → ℕ → List NodeID) (members : List NodeMeta)
    (r : ℕ) : Prop where
  length_eq : (resp members r).length = min r members.length
  nodup : (resp members r).Nodup
  subset : ∀ id ∈ resp members r, id ∈ members.map (·.id)
  order : ∀ members', members.Perm members' → resp members' r = resp members r
  grows : resp members r <+: resp members (r + 1)
  outside : ∀ x, x ∉ resp members r → resp (without members x) r = resp members r
  inside : ∀ x, x ∈ resp members r → ∃ new : List NodeID, new.length ≤ 1 ∧
    (∀ y ∈ new, y ∉ resp members r) ∧ resp (without members x) r = (resp members r).erase x ++ new

/-- **Replicas are placed by consistent hashing**, on the ring and in the full mesh. -/
theorem responsible_consistentHashing (t : Placement) (ht : t.Valid) (key : String)
    (members : List NodeMeta) (hids : (members.map (·.id)).Nodup)
    (hhash : t.DistinctHashes key (members.map (·.id))) (r : ℕ) (hr : 1 ≤ r) :
    ConsistentHashing (fun ms n => t.responsible key ms n) members r := by
  have hperm := Placement.ranking_perm ht key hids
  have hnodup : (t.ranking key (members.map (·.id))).Nodup := hperm.nodup_iff.mpr hids
  have hresp : t.responsible key members r = (t.ranking key (members.map (·.id))).take r := by
    rw [t.responsible_eq key hids, replicas_natCast hr]
  have hwithout : ∀ x, t.responsible key (without members x) r =
      ((t.ranking key (members.map (·.id))).erase x).take r := by
    intro x
    have hids' : ((without members x).map (·.id)).Nodup := by
      rw [map_id_without]
      exact hids.filter _
    rw [t.responsible_eq key hids', replicas_natCast hr, map_id_without,
      Placement.ranking_remove hhash hids]
  refine ⟨?_, ?_, ?_, ?_, ?_, ?_, ?_⟩
  · rw [hresp, length_take, hperm.length_eq, length_map]
  · rw [hresp]
    exact hnodup.sublist (take_sublist _ _)
  · intro id hid
    rw [hresp] at hid
    exact hperm.mem_iff.mp (mem_of_mem_take hid)
  · intro members' hmembers
    have hids' : (members'.map (·.id)).Nodup := (hmembers.map _).nodup_iff.mp hids
    rw [hresp, t.responsible_eq key hids', replicas_natCast hr,
      Placement.ranking_eq_of_perm hhash (hmembers.map _)]
  · have hgrow := t.responsible_eq key hids ((r + 1 : ℕ) : ℤ)
    rw [replicas_natCast (Nat.le_add_left 1 r)] at hgrow
    rw [hresp, hgrow]
    exact take_isPrefix _ r
  · intro x hx
    rw [hresp] at hx
    rw [hwithout, hresp, take_erase_of_not_mem hx]
  · intro x hx
    rw [hresp] at hx
    refine ⟨((t.ranking key (members.map (·.id)))[r]?).toList, ?_, ?_, ?_⟩
    · cases (t.ranking key (members.map (·.id)))[r]? <;> simp
    · intro y hy hmem
      rw [hresp] at hmem
      rw [Option.mem_toList] at hy
      -- the next of the ranking cannot stand among the first `r` as well
      obtain ⟨i, hi, hget⟩ := mem_take_iff_getElem.mp hmem
      obtain ⟨hlt, hnext⟩ := List.getElem?_eq_some_iff.mp hy
      have := (hnodup.getElem_inj_iff).mp (hget.trans hnext.symm)
      omega
    · rw [hwithout, hresp, take_erase_of_mem hx]

/-- Three nodes of two virtual nodes each, and two replicas. -/
theorem responsible_consistentHashing_three :
    ConsistentHashing (fun ms n => (Placement.ring 2).responsible "orders/17" ms n)
      [⟨"a", "a:1", []⟩, ⟨"b", "b:1", []⟩, ⟨"c", "c:1", []⟩] 2 :=
  responsible_consistentHashing (.ring 2) (by decide : 1 ≤ 2) "orders/17" _ (by decide)
    (by decide +kernel) 2 (by decide)

end Westcoast.Cluster
