import Mathlib.Data.Finset.Card
import Westcoast.Cluster.Ring

/-!
# Routing on the ring

The hops a node can choose from are the nodes at certain distances (`Reach`). `Route` takes the
longest that does not overshoot the target (`route_eq`), so every hop goes strictly clockwise, by
hash as well as by index. With the same members at all nodes the fingers halve the distance with
every hop.
-/
namespace Westcoast.Cluster

open Lib List Westcoast.Cluster.Ring ClusterView Nat

namespace Ring
variable (rg : Ring)

variable {i j : ℕ}

theorem node_eq_getElem (hi : i < rg.size) : rg.node i = rg.nodes.get ⟨i, hi⟩ := by
  simp only [node, mod_eq_of_lt hi]

@[simp] theorem node_mod (i : ℕ) : rg.node (i % rg.size) = rg.node i := by
  simp only [node, mod_mod]

theorem node_mem (i : ℕ) : rg.node i ∈ rg.nodes := get_mem _ _

theorem node_inj (h : rg.node i = rg.node j) : i % rg.size = j % rg.size := by
  have hget := rg.nodup.get_inj_iff.mp h
  exact Fin.val_eq_of_eq hget

theorem node_add_inj {s d e : ℕ} (hs : s < rg.size) (hd : d < rg.size) (he : e < rg.size)
    (h : rg.node (s + d) = rg.node (s + e)) : d = e := by
  rw [← clockwise_add_mod hs hd, rg.node_inj h, clockwise_add_mod hs he]

variable {id self : NodeID}

theorem indexOf_eq_some : rg.indexOf id = some i ↔ i < rg.size ∧ rg.node i = id := by
  rw [indexOf, idxOf?_eq_some_iff]
  constructor
  · rintro ⟨hi, hid, -⟩
    exact ⟨hi, (rg.node_eq_getElem hi).trans hid⟩
  · rintro ⟨hi, hid⟩
    rw [rg.node_eq_getElem hi] at hid
    refine ⟨hi, hid, ?_⟩
    intro j hj hjd
    have := rg.nodup.getElem_inj_iff.mp (hjd.trans hid.symm)
    omega

theorem indexOf_node (i : ℕ) : rg.indexOf (rg.node i) = some (i % rg.size) :=
  rg.indexOf_eq_some.mpr ⟨mod_lt i rg.size_pos, rg.node_mod i⟩

theorem exists_indexOf (h : id ∈ rg.nodes) : ∃ i, rg.indexOf id = some i := by
  obtain ⟨i, hi, hid⟩ := mem_iff_getElem.mp h
  exact ⟨i, rg.indexOf_eq_some.mpr ⟨hi, (rg.node_eq_getElem hi).trans hid⟩⟩

variable {rg}

variable {members : List NodeMeta}

theorem mem_build (h : build self members = some rg) (id : NodeID) :
    id ∈ rg.nodes ↔ id = self ∨ ∃ m ∈ members, m.id = id := by
  simp only [build] at h
  split_ifs at h
  cases h
  simp [mem_insertionSort]

theorem build_isSome (hid : ∃ m ∈ members, m.id = id) (hne : self ≠ id) :
    ∃ rg, build self members = some rg := by
  simp only [build]
  split_ifs with hlen
  · -- two members cannot be one
    have hmem : ∀ x, x = self ∨ x = id → x ∈ (self :: members.map (·.id)).dedup := by
      rintro x (rfl | rfl)
      · simp
      · simpa using .inr hid
    have hle : ({self, id} : Finset NodeID).card ≤ (self :: members.map (·.id)).dedup.length := by
      refine le_trans (Finset.card_le_card ?_) (toFinset_card_le _)
      intro x hx
      simp only [Finset.mem_insert, Finset.mem_singleton] at hx
      exact mem_toFinset.mpr (hmem x hx)
    rw [Finset.card_pair hne] at hle
    omega
  · exact ⟨_, rfl⟩

theorem eq_of_nodes {rg' : Ring} (hmem : ∀ id, id ∈ rg.nodes ↔ id ∈ rg'.nodes)
    (hinj : ∀ a ∈ rg.nodes, ∀ b ∈ rg.nodes, position a = position b → a = b) : rg = rg' := by
  have hnodes : rg.nodes = rg'.nodes := by
    refine List.Perm.eq_of_pairwise ?_ rg.sorted rg'.sorted
      ((perm_ext_iff_of_nodup rg.nodup rg'.nodup).mpr hmem)
    intro a b ha hb hab hba
    exact hinj a ha b ((hmem b).mpr hb) (le_antisymm hab hba)
  cases rg
  cases rg'
  simp only at hnodes
  subst hnodes
  rfl

theorem position_lt_position (hhash : Set.InjOn (hashVNode · 0) {id | id ∈ rg.nodes})
    (hij : i < j) (hj : j < rg.size) : position (rg.node i) < position (rg.node j) := by
  have hle : position (rg.node i) ≤ position (rg.node j) := by
    rw [rg.node_eq_getElem (hij.trans hj), rg.node_eq_getElem hj]
    exact pairwise_iff_get.mp rg.sorted ⟨i, hij.trans hj⟩ ⟨j, hj⟩ hij
  refine lt_of_le_of_ne hle ?_
  intro heq
  have hnode := rg.node_inj (hhash (rg.node_mem i) (rg.node_mem j) (UInt64.toNat_inj.mp heq))
  rw [mod_eq_of_lt (hij.trans hj), mod_eq_of_lt hj] at hnode
  omega

end Ring

namespace RingTopology

/-- The distances at which a node of a ring of `n` has a hop to choose. -/
inductive Reach (r : RingTopology) (n : ℕ) : ℕ → Prop
  | ahead {i : ℕ} : 1 ≤ i → i ≤ r.fanout → Reach r n i
  | behind {i : ℕ} : 1 ≤ i → i ≤ r.fanout → Reach r n (n - i)
  | finger {i : ℕ} : 2 < n → i < log2 n → Reach r n (2 ^ i)

variable {r : RingTopology} {rg : Ring} {s t n : ℕ}

variable {i d : ℕ}

theorem two_pow_lt (hn : n ≠ 0) (hi : i < log2 n) : 2 ^ i < n :=
  calc 2 ^ i < 2 ^ Nat.log2 n := Nat.pow_lt_pow_right (by decide) hi
    _ ≤ n := log2_self_le hn

theorem Reach.pos (h : r.Reach n d) (hn : r.fanout < n) : 0 < d := by
  cases h with
  | ahead h1 _ => omega
  | behind _ h2 => omega
  | finger => exact Nat.two_pow_pos _

theorem Reach.lt (h : r.Reach n d) (hn : r.fanout < n) : d < n := by
  cases h with
  | ahead _ h2 => omega
  | behind h1 _ => omega
  | finger h1 h2 => exact two_pow_lt (by omega) h2

theorem reach_two_pow (hr : 1 ≤ r.fanout) (hn : 2 ≤ n) (hi : i < log2 n) : r.Reach n (2 ^ i) := by
  rcases hn.eq_or_lt with rfl | hlt
  · obtain rfl : i = 0 := by
      have : log2 2 = 1 := by decide
      omega
    exact .ahead (le_refl 1) hr
  · exact .finger hlt hi

variable {id self : NodeID}

theorem mem_buildFingers (hs : s < rg.size) : id ∈ buildFingers rg s ↔
      2 < rg.size ∧ ∃ i < log2 rg.size, id = rg.node (s + 2 ^ i) := by
  simp only [buildFingers]
  split_ifs with hn
  · simp only [not_mem_nil, false_iff]
    rintro ⟨hlt, -⟩
    omega
  · have hlog : max 1 (log2 rg.size) = log2 rg.size := by
      refine max_eq_right ?_
      rw [le_log2 (by omega)]
      omega
    simp only [mem_eraseDups, mem_filter, mem_map, mem_range,
      decide_eq_true_eq, hlog]
    constructor
    · rintro ⟨⟨i, hi, rfl⟩, -⟩
      exact ⟨by omega, i, hi, rfl⟩
    · rintro ⟨-, i, hi, rfl⟩
      refine ⟨⟨i, hi, rfl⟩, ?_⟩
      intro hself
      have hzero := rg.node_add_inj hs (two_pow_lt (by omega) hi) (e := 0) rg.size_pos hself
      exact absurd hzero (Nat.two_pow_pos i).ne'

theorem mem_neighbors : id ∈ r.neighbors rg s ↔
      ∃ i, 1 ≤ i ∧ i ≤ r.fanout ∧ (id = rg.node (s + i) ∨ id = rg.node (s + rg.size - i)) := by
  simp [neighbors, lt_one_add_iff, and_assoc]

theorem mem_candidates (hs : s < rg.size) (hr : r.fanout < rg.size) :
    id ∈ buildFingers rg s ++ r.neighbors rg s ↔ ∃ d, r.Reach rg.size d ∧ id = rg.node (s + d) := by
  rw [mem_append, mem_buildFingers hs, mem_neighbors]
  constructor
  · rintro (⟨hn, i, hi, rfl⟩ | ⟨i, h1, h2, rfl | rfl⟩)
    · exact ⟨2 ^ i, .finger hn hi, rfl⟩
    · exact ⟨i, .ahead h1 h2, rfl⟩
    · exact ⟨rg.size - i, .behind h1 h2, by rw [Nat.add_sub_assoc (by omega)]⟩
  · rintro ⟨d, hd, rfl⟩
    cases hd with
    | ahead h1 h2 => exact .inr ⟨_, h1, h2, .inl rfl⟩
    | behind h1 h2 =>
      refine .inr ⟨_, h1, h2, .inr ?_⟩
      rw [Nat.add_sub_assoc (by omega)]
    | finger hn hi => exact .inl ⟨hn, _, hi, rfl⟩

/-- A hop as `Route` should choose it, for a target at distance `D`: as far as possible,
but not beyond the target. -/
structure BestHop (r : RingTopology) (n D d : ℕ) : Prop where
  reach : r.Reach n d
  pos : 0 < d
  le : d ≤ D
  max : ∀ e, r.Reach n e → e ≤ D → e ≤ d

def away (rg : Ring) (targetIdx : ℕ) (id : NodeID) : ℕ :=
  match rg.indexOf id with
  | none => 0
  | some idx => clockwise rg.size idx targetIdx

theorem away_node (i : ℕ) : away rg t (rg.node i) = clockwise rg.size (i % rg.size) t := by
  simp only [away, rg.indexOf_node]

theorem consider_eq {best : NodeID × ℕ} (h : id ∈ rg.nodes) :
    consider rg t best id = nearer (away rg t) best id := by
  obtain ⟨i, hi⟩ := rg.exists_indexOf h
  simp only [consider, nearer, away, hi]
  rfl

/-- The loops of `Route` end at the best hop. -/
theorem foldl_consider (hr : 1 ≤ r.fanout) (hs : s < rg.size) (ht : t < rg.size)
    (hfar : r.fanout < clockwise rg.size s t) : ∃ d, r.BestHop rg.size (clockwise rg.size s t) d ∧
      ((buildFingers rg s ++ r.neighbors rg s).foldl (consider rg t) ("", rg.size)).1 =
        rg.node (s + d) := by
  have hD := clockwise_lt hs ht
  have hF : r.fanout < rg.size := hfar.trans hD
  have hfold : (buildFingers rg s ++ r.neighbors rg s).foldl (consider rg t) ("", rg.size) =
      (buildFingers rg s ++ r.neighbors rg s).foldl (nearer (away rg t)) ("", rg.size) := by
    refine foldl_ext _ _ _ ?_
    intro best id hid
    obtain ⟨d, -, rfl⟩ := (mem_candidates hs hF).mp hid
    exact consider_eq (rg.node_mem _)
  -- the next neighbour does not overshoot, so the best candidate does not either
  have hnext : rg.node (s + 1) ∈ buildFingers rg s ++ r.neighbors rg s :=
    (mem_candidates hs hF).mpr ⟨1, .ahead (le_refl 1) hr, rfl⟩
  have hnextAway : away rg t (rg.node (s + 1)) = clockwise rg.size s t - 1 := by
    rw [away_node, clockwise_of_step hs ht (by omega)]
  rw [hfold]
  rcases foldl_nearer (away rg t) (buildFingers rg s ++ r.neighbors rg s) ("", rg.size) with
    ⟨-, hall⟩ | ⟨id, hid, hres, -, hmin⟩
  · have := hall _ hnext
    omega
  · obtain ⟨d, hd, rfl⟩ := (mem_candidates hs hF).mp hid
    have hle : d ≤ clockwise rg.size s t := by
      by_contra hover
      have h1 := clockwise_lt_of_overshoot hs (hd.lt hF) (not_le.mp hover)
      have h2 := hmin _ hnext
      rw [away_node] at h2
      omega
    refine ⟨d, ⟨hd, hd.pos hF, hle, ?_⟩, by rw [hres]⟩
    intro e he hele
    have h := hmin _ ((mem_candidates hs hF).mpr ⟨e, he, rfl⟩)
    rw [away_node, away_node, clockwise_of_step hs ht hle, clockwise_of_step hs ht hele] at h
    omega

variable {members : List NodeMeta}

/-- **`Route`.** It takes the best hop; a hop with the empty identifier is given up, unless
it is the target and a neighbour ahead. -/
theorem route_eq (hr : 1 ≤ r.fanout) {target : NodeID}
    (hbuild : build self members = some rg) (hself : rg.indexOf self = some s)
    (htarget : rg.indexOf target = some t) (hne : self ≠ target) :
    ∃ d, r.BestHop rg.size (clockwise rg.size s t) d ∧ r.route self target members =
        if clockwise rg.size s t ≤ r.fanout ∨ rg.node (s + d) ≠ "" then some (rg.node (s + d))
        else none := by
  obtain ⟨hs, hsid⟩ := rg.indexOf_eq_some.mp hself
  obtain ⟨ht, htid⟩ := rg.indexOf_eq_some.mp htarget
  have hpos : 0 < clockwise rg.size s t := by
    rw [Nat.pos_iff_ne_zero, Ne, clockwise_eq_zero_iff hs]
    rintro rfl
    exact hne (hsid.symm.trans htid)
  simp only [route, hbuild, hself, htarget]
  by_cases hnear : ringDistance s t rg.size ≤ r.fanout
  · have hD : clockwise rg.size s t ≤ r.fanout := hnear
    refine ⟨clockwise rg.size s t, ⟨.ahead hpos hD, hpos, le_refl _, fun e _ he => he⟩, ?_⟩
    rw [if_pos hnear, if_pos (.inl hD), ← rg.node_mod, add_clockwise_mod hs ht, htid]
  · have hD : ¬clockwise rg.size s t ≤ r.fanout := hnear
    obtain ⟨d, hbest, hfold⟩ := foldl_consider hr hs ht (not_le.mp hD)
    refine ⟨d, hbest, ?_⟩
    rw [if_neg hnear, hfold]
    simp [hD]

theorem mem_shouldConnect (hbuild : build self members = some rg)
    (hself : rg.indexOf self = some s) : id ∈ r.shouldConnect self members ↔
      ∃ d, r.Reach rg.size d ∧ 0 < d ∧ d < rg.size ∧ id = rg.node (s + d) := by
  obtain ⟨hs, hsid⟩ := rg.indexOf_eq_some.mp hself
  have hother : ∀ d, 0 < d → d < rg.size → rg.node (s + d) ≠ self := by
    intro d hpos hlt heq
    have := rg.node_add_inj hs hlt (e := 0) rg.size_pos (heq.trans hsid.symm)
    omega
  simp only [shouldConnect, hbuild, hself]
  split_ifs with hsmall
  · simp only [mem_eraseDups, mem_filter, decide_eq_true_eq]
    constructor
    · rintro ⟨hmem, hne⟩
      obtain ⟨j, hj⟩ := rg.exists_indexOf hmem
      obtain ⟨hlt, rfl⟩ := rg.indexOf_eq_some.mp hj
      have hpos : 0 < clockwise rg.size s j := by
        rw [Nat.pos_iff_ne_zero, Ne, clockwise_eq_zero_iff hs]
        rintro rfl
        exact hne hsid
      have hD := clockwise_lt hs hlt
      refine ⟨clockwise rg.size s j, ?_, hpos, hD, ?_⟩
      · -- in so small a ring, what is far ahead is a neighbour from behind
        by_cases hnear : clockwise rg.size s j ≤ r.fanout
        · exact .ahead hpos hnear
        · have hback : rg.size - (rg.size - clockwise rg.size s j) = clockwise rg.size s j := by
            omega
          rw [← hback]
          exact .behind (by omega) (by omega)
      · rw [← rg.node_mod (s + _), add_clockwise_mod hs hlt]
    · rintro ⟨d, -, hpos, hlt, rfl⟩
      exact ⟨rg.node_mem _, hother d hpos hlt⟩
  · have hF : r.fanout < rg.size := by omega
    simp only [mem_filter, mem_eraseDups, decide_eq_true_eq]
    rw [mem_append, or_comm, ← mem_append, mem_candidates hs hF]
    constructor
    · rintro ⟨⟨d, hd, rfl⟩, -⟩
      exact ⟨d, hd, hd.pos hF, hd.lt hF, rfl⟩
    · rintro ⟨d, hd, hpos, hlt, rfl⟩
      exact ⟨⟨d, hd, rfl⟩, hother d hpos hlt⟩

/-! ### The same members everywhere -/

/-- Follow `Route` for `k` hops, or until the target is reached. -/
def follow (r : RingTopology) (view : NodeID → List NodeMeta) (target : NodeID) :
    ℕ → NodeID → Option NodeID
  | 0, id => some id
  | k + 1, id =>
    if id = target then some id else (r.route id target (view id)).bind (r.follow view target k)

variable {view : NodeID → List NodeMeta}

section Converges
variable (hr : 1 ≤ r.fanout) (hids : "" ∉ rg.nodes)
  (hview : ∀ id ∈ rg.nodes, build id (view id) = some rg) (ht : t < rg.size)
include hr hids hview ht

/-- From everywhere within the distance `b`, `k` hops suffice. -/
def Within (r : RingTopology) (rg : Ring) (view : NodeID → List NodeMeta) (t k b : ℕ) : Prop :=
  ∀ s < rg.size, clockwise rg.size s t < b →
    r.follow view (rg.node t) k (rg.node s) = some (rg.node t)

theorem route_of_ne {s : ℕ} (hs : s < rg.size) (hne : rg.node s ≠ rg.node t) :
    ∃ d, r.BestHop rg.size (clockwise rg.size s t) d ∧
      r.route (rg.node s) (rg.node t) (view (rg.node s)) = some (rg.node (s + d)) := by
  obtain ⟨d, hbest, hroute⟩ := route_eq hr (hview _ (rg.node_mem s))
    (rg.indexOf_eq_some.mpr ⟨hs, rfl⟩) (rg.indexOf_eq_some.mpr ⟨ht, rfl⟩) hne
  refine ⟨d, hbest, ?_⟩
  have hid : rg.node (s + d) ≠ "" := fun h => hids (h ▸ rg.node_mem (s + d))
  rw [hroute, if_pos (.inr hid)]

theorem within_add {k b j : ℕ} (hj : j < log2 rg.size) (hb : 2 ^ j ≤ b)
    (h : r.Within rg view t k b) : r.Within rg view t (k + 1) (b + 2 ^ j) := by
  intro s hs hD
  simp only [follow]
  split_ifs with heq
  · rw [heq]
  · obtain ⟨d, hbest, hroute⟩ := route_of_ne hr hids hview ht hs heq
    have hd : clockwise rg.size s t - d < b := by
      have hpos := hbest.pos
      by_cases hfar : 2 ^ j ≤ clockwise rg.size s t
      · have := hbest.max _ (reach_two_pow hr rg.two_le hj) hfar
        omega
      · omega
    rw [hroute, Option.bind_some, ← rg.node_mod (s + d)]
    refine h _ (mod_lt _ rg.size_pos) ?_
    rw [clockwise_of_step hs ht hbest.le]
    exact hd

theorem within_two_pow {k : ℕ} (hk : k ≤ log2 rg.size) : r.Within rg view t k (2 ^ k) := by
  induction k with
  | zero =>
    intro s hs hD
    have hst : s = t := (clockwise_eq_zero_iff hs).mp (by omega)
    rw [hst, follow]
  | succ k ih =>
    have hstep := within_add hr hids hview ht hk (le_refl (2 ^ k)) (ih (by omega))
    rwa [← Nat.two_mul, ← Nat.pow_succ'] at hstep

theorem follow_eq (s : ℕ) (hs : s < rg.size) :
    r.follow view (rg.node t) (log2 rg.size + 2) (rg.node s) = some (rg.node t) := by
  obtain ⟨l, hl⟩ : ∃ l, log2 rg.size = l + 1 := by
    have : 1 ≤ log2 rg.size := (le_log2 (by have := rg.two_le; omega)).mpr rg.two_le
    exact ⟨log2 rg.size - 1, by omega⟩
  have hlt : rg.size < 2 ^ (l + 2) := by
    have := lt_log2_self (n := rg.size)
    rwa [hl] at this
  have h0 := within_two_pow hr hids hview ht (le_refl (log2 rg.size))
  have h1 := within_add hr hids hview ht (j := l) (by omega) (by rw [hl, pow_succ]; omega) h0
  have h2 := within_add hr hids hview ht (j := l) (by omega) (le_add_left _ _) h1
  refine h2 s hs ((clockwise_lt hs ht).trans ?_)
  rw [hl]
  rw [pow_succ, pow_succ] at hlt
  rw [pow_succ]
  omega

end Converges

theorem ring_of_views {nodes : Finset NodeID} (hhash : Set.InjOn (hashVNode · 0) nodes)
    (hview : ∀ id ∈ nodes, ∀ id', (id' = id ∨ ∃ m ∈ view id, m.id = id') ↔ id' ∈ nodes)
    {a b : NodeID} (ha : a ∈ nodes) (hb : b ∈ nodes) (hne : a ≠ b) :
    ∃ rg : Ring, (∀ id ∈ nodes, build id (view id) = some rg) ∧
      (∀ id, id ∈ rg.nodes ↔ id ∈ nodes) ∧ rg.size = nodes.card := by
  have hmem : ∀ id ∈ nodes, ∀ rg, build id (view id) = some rg →
      ∀ id', id' ∈ rg.nodes ↔ id' ∈ nodes := by
    intro id hid rg hbuild id'
    rw [mem_build hbuild, hview id hid]
  have hlisted : ∀ id ∈ nodes, ∀ id' ∈ nodes, id ≠ id' → ∃ m ∈ view id, m.id = id' :=
    fun id hid id' hid' hother => ((hview id hid id').mpr hid').resolve_left (Ne.symm hother)
  obtain ⟨rg, hbuild⟩ := build_isSome (hlisted a ha b hb hne) hne
  have hnodes := hmem a ha rg hbuild
  refine ⟨rg, ?_, hnodes, ?_⟩
  · intro id hid
    obtain ⟨id', hid', hother⟩ : ∃ id' ∈ nodes, id ≠ id' := by
      by_cases hia : id = a
      · exact ⟨b, hb, hia ▸ hne⟩
      · exact ⟨a, ha, hia⟩
    obtain ⟨rg', hbuild'⟩ := build_isSome (hlisted id hid id' hid' hother) hother
    rw [hbuild', Option.some.injEq]
    refine eq_of_nodes (fun x => ?_) (fun x hx y hy hxy => ?_)
    · rw [hmem id hid rg' hbuild', hnodes]
    · rw [hmem id hid rg' hbuild'] at hx hy
      exact hhash hx hy (UInt64.toNat_inj.mp hxy)
  · rw [Ring.size, ← toFinset_card_of_nodup rg.nodup]
    congr 1
    ext id
    rw [mem_toFinset, hnodes]

/-- **Routing converges.** If all nodes have the same members, with different hashes and none empty,
a next hop is a connection, the target if that is one, and the target is reached in at most
`Nat.log2 n + 2` hops. -/
theorem route_converges (r : RingTopology) (hr : 1 ≤ r.fanout) (nodes : Finset NodeID)
    (hhash : Set.InjOn (hashVNode · 0) nodes) (hids : "" ∉ nodes) (view : NodeID → List NodeMeta)
    (hview : ∀ id ∈ nodes, ∀ id', (id' = id ∨ ∃ m ∈ view id, m.id = id') ↔ id' ∈ nodes)
    {self target : NodeID} (hself : self ∈ nodes) (htarget : target ∈ nodes)
    (hne : self ≠ target) :
    (∃ hop, r.route self target (view self) = some hop ∧ hop ∈ r.shouldConnect self (view self) ∧
      (hop = target ↔ target ∈ r.shouldConnect self (view self))) ∧
    r.follow view target (log2 nodes.card + 2) self = some target := by
  obtain ⟨rg, hbuild, hmem, hcard⟩ := ring_of_views hhash hview hself htarget hne
  have hring : ∀ id ∈ rg.nodes, build id (view id) = some rg :=
    fun id hid => hbuild id ((hmem id).mp hid)
  have hids' : "" ∉ rg.nodes := fun h => hids ((hmem "").mp h)
  obtain ⟨s, hs⟩ := rg.exists_indexOf ((hmem self).mpr hself)
  obtain ⟨t, ht⟩ := rg.exists_indexOf ((hmem target).mpr htarget)
  obtain ⟨hslt, rfl⟩ := rg.indexOf_eq_some.mp hs
  obtain ⟨htlt, rfl⟩ := rg.indexOf_eq_some.mp ht
  refine ⟨?_, hcard ▸ follow_eq hr hids' hring htlt s hslt⟩
  obtain ⟨d, hbest, hroute⟩ := route_of_ne hr hids' hring htlt hslt hne
  have hD := clockwise_lt hslt htlt
  have hd : d < rg.size := hbest.le.trans_lt hD
  refine ⟨rg.node (s + d), hroute, ?_, ?_⟩
  · exact (mem_shouldConnect (hbuild _ hself) hs).mpr ⟨d, hbest.reach, hbest.pos, hd, rfl⟩
  · rw [mem_shouldConnect (hbuild _ hself) hs]
    have hat : rg.node (s + clockwise rg.size s t) = rg.node t := by
      rw [← rg.node_mod (s + _), add_clockwise_mod hslt htlt]
    constructor
    · intro heq
      exact ⟨d, hbest.reach, hbest.pos, hd, heq.symm⟩
    · rintro ⟨e, he, -, hlt, heq⟩
      obtain rfl := rg.node_add_inj hslt hlt hD (heq.symm.trans hat.symm)
      rw [← hat, le_antisymm hbest.le (hbest.max _ he (le_refl _))]

def bare (ids : List NodeID) : List NodeMeta := ids.map fun id => ⟨id, "", []⟩

theorem injOn_five :
    Set.InjOn (hashVNode · 0) (({"a", "b", "c", "d", "e"} : Finset NodeID) : Set NodeID) := by
  have hhash : ∀ a ∈ ({"a", "b", "c", "d", "e"} : Finset NodeID),
      ∀ b ∈ ({"a", "b", "c", "d", "e"} : Finset NodeID), hashVNode a 0 = hashVNode b 0 → a = b := by
    decide +kernel
  exact fun a ha b hb => hhash a ha b hb

/-- On the ring `d`, `a`, `c`, `b`, `e` with one neighbour on each side, `d` reaches `b` by way of
`c`. -/
theorem route_converges_five :
    (∃ hop, (⟨1⟩ : RingTopology).route "d" "b" (bare ["a", "b", "c", "d", "e"]) = some hop ∧
      hop ∈ (⟨1⟩ : RingTopology).shouldConnect "d" (bare ["a", "b", "c", "d", "e"]) ∧
        (hop = "b" ↔
          "b" ∈ (⟨1⟩ : RingTopology).shouldConnect "d" (bare ["a", "b", "c", "d", "e"]))) ∧
    (⟨1⟩ : RingTopology).follow (fun _ => bare ["a", "b", "c", "d", "e"]) "b" 4 "d" = some "b" := by
  refine route_converges ⟨1⟩ (le_refl 1) {"a", "b", "c", "d", "e"} injOn_five (by decide)
    (fun _ => bare ["a", "b", "c", "d", "e"]) ?_ (by decide) (by decide) (by decide)
  intro id hid id'
  rw [or_iff_right_of_imp]
  · simp [bare, eq_comm]
  · rintro rfl
    simpa [bare, eq_comm] using hid

/-- `Route` takes the empty identifier for "no hop": in the ring `a`, `""`, `b` the last finds no
way to its neighbour. -/
theorem route_misses_empty :
    (∀ x ∈ ["a", "", "b"], ∀ y ∈ ["a", "", "b"], hashVNode x 0 = hashVNode y 0 → x = y) ∧
      "" ∈ (⟨1⟩ : RingTopology).shouldConnect "b" (bare ["a", "", "b"]) ∧
        (⟨1⟩ : RingTopology).route "b" "" (bare ["a", "", "b"]) = none := by
  decide +kernel

/-! ### Different members -/

section Forwarding
variable {nodes : Finset NodeID} {view : NodeID → ClusterView} {target : NodeID}

/-- The way an envelope still has, on the circle of the hashes. -/
def toGo (target id : NodeID) : ℕ :=
  if id = target then 0 else clockwise (2 ^ 64) (position id) (position target) + 1

variable {hop self : NodeID} {members : List NodeMeta}

theorem route_eq_some {target : NodeID} (h : r.route self target members = some hop) :
    ∃ rg s t, build self members = some rg ∧ rg.indexOf self = some s ∧
      rg.indexOf target = some t := by
  simp only [route] at h
  split at h
  · cases h
  · next rg hbuild =>
    split at h
    · next t s ht hs => exact ⟨rg, s, t, hbuild, hs, ht⟩
    · cases h

theorem position_of_route (hr : 1 ≤ r.fanout) (hhash : Set.InjOn (hashVNode · 0) nodes)
    (hself : self ∈ nodes) (hmembers : ∀ m ∈ members, m.id ∈ nodes) (hne : self ≠ target)
    (h : r.route self target members = some hop) :
    hop ∈ nodes ∧ clockwise (2 ^ 64) (position hop) (position target) <
      clockwise (2 ^ 64) (position self) (position target) := by
  obtain ⟨rg, s, t, hbuild, hs, ht⟩ := route_eq_some h
  obtain ⟨d, hbest, hroute⟩ := route_eq hr hbuild hs ht hne
  obtain ⟨hslt, rfl⟩ := rg.indexOf_eq_some.mp hs
  obtain ⟨htlt, rfl⟩ := rg.indexOf_eq_some.mp ht
  have hsub : ∀ id ∈ rg.nodes, id ∈ nodes := by
    intro id hid
    rcases (mem_build hbuild id).mp hid with rfl | ⟨m, hm, rfl⟩
    · exact hself
    · exact hmembers m hm
  obtain rfl : rg.node (s + d) = hop := by
    rw [hroute] at h
    split_ifs at h
    exact Option.some.inj h
  refine ⟨hsub _ (rg.node_mem _), ?_⟩
  have hlt := clockwise_map_lt (f := fun i => position (rg.node i)) (m := 2 ^ 64)
    (fun i j hij hj => position_lt_position (hhash.mono hsub) hij hj)
    (fun i _ => position_lt _) hslt htlt hbest.pos hbest.le
  simpa only [rg.node_mod] using hlt

theorem forward_toGo (hr : 1 ≤ r.fanout) (hhash : Set.InjOn (hashVNode · 0) nodes)
    (hview : ∀ id, (view id).self.id = id ∧ ∀ m ∈ (view id).peers, m.id ∈ nodes) {id : NodeID}
    (hid : id ∈ nodes ∨ id = target) (h : (view id).forward r target = some hop) :
    (hop ∈ nodes ∨ hop = target) ∧ toGo target hop < toGo target id := by
  obtain ⟨hself, hpeers⟩ := hview id
  simp only [forward, sendRemote, hself] at h
  split_ifs at h with hstay hconn
  all_goals have hat : target ≠ id := fun heq => hstay (.inr heq)
  · cases h
    exact ⟨.inr rfl, by simp [toGo, Ne.symm hat]⟩
  · have hid' : id ∈ nodes := hid.resolve_right (Ne.symm hat)
    have hmembers : ∀ m ∈ (view id).self :: (view id).peers, m.id ∈ nodes :=
      forall_mem_cons.mpr ⟨hself.symm ▸ hid', hpeers⟩
    obtain ⟨hhop, hlt⟩ := position_of_route hr hhash hid' hmembers (Ne.symm hat) h
    refine ⟨.inl hhop, ?_⟩
    simp only [toGo, if_neg (Ne.symm hat)]
    split_ifs <;> omega

/-- **Forwarding ends**, whatever the nodes know: no node occurs twice, and the last is the target
or finds no hop. An envelope without a target stays where it is. -/
theorem forwarding_loop_free (r : RingTopology) (hr : 1 ≤ r.fanout) (nodes : Finset NodeID)
    (hhash : Set.InjOn (hashVNode · 0) nodes) (view : NodeID → ClusterView)
    (hview : ∀ id, (view id).self.id = id ∧ ∀ m ∈ (view id).peers, m.id ∈ nodes)
    (target : NodeID) {start : NodeID} (hstart : start ∈ nodes) :
    (∀ path : List NodeID, path.IsChain (fun a b => (view a).forward r target = some b) →
      path.head? = some start → path.Nodup) ∧
    ∃ path : List NodeID, path.IsChain (fun a b => (view a).forward r target = some b) ∧
      path.head? = some start ∧ ∃ last, path.getLast? = some last ∧
        (last = target ∨ target = "" ∧ last = start ∨ target ∉ (view last).conns ∧
          r.route last target ((view last).self :: (view last).peers) = none) := by
  have hstep : ∀ id hop, (id ∈ nodes ∨ id = target) → (view id).forward r target = some hop →
      (hop ∈ nodes ∨ hop = target) ∧ toGo target hop < toGo target id :=
    fun id hop hid h => forward_toGo hr hhash hview hid h
  constructor
  · intro path hchain hhead
    exact nodup_of_isChain hstep hchain (.inl hstart) hhead
  · by_cases hempty : target = ""
    · exact ⟨[start], by simp, rfl, start, rfl, .inr (.inl ⟨hempty, rfl⟩)⟩
    obtain ⟨path, hchain, hhead, last, hlast, hend⟩ := exists_isChain_end hstep (.inl hstart)
    refine ⟨path, hchain, hhead, last, hlast, ?_⟩
    simp only [forward, sendRemote, (hview last).1, hempty, false_or] at hend
    split_ifs at hend with hat hconn
    · exact .inl hat.symm
    · exact .inr (.inr ⟨hconn, hend⟩)

/-- The five nodes again, but `c` does not know `b`: the envelope gets from `d` to `c`. -/
theorem forwarding_loop_free_five : let view (id : NodeID) : ClusterView :=
      ⟨⟨id, "", []⟩, if id = "c" then bare ["a", "d"] else bare ["a", "b", "c", "d", "e"], []⟩
    (view "d").forward ⟨1⟩ "b" = some "c" ∧
    (∀ path : List NodeID, path.IsChain (fun a b => (view a).forward ⟨1⟩ "b" = some b) →
      path.head? = some "d" → path.Nodup) ∧
    ∃ path : List NodeID, path.IsChain (fun a b => (view a).forward ⟨1⟩ "b" = some b) ∧
      path.head? = some "d" ∧ ∃ last, path.getLast? = some last ∧
        (last = "b" ∨ "b" ∉ (view last).conns ∧
          (⟨1⟩ : RingTopology).route last "b" ((view last).self :: (view last).peers) = none) := by
  intro view
  have hstart : "d" ∈ ({"a", "b", "c", "d", "e"} : Finset NodeID) := by decide
  have hview : ∀ id, (view id).self.id = id ∧
      ∀ m ∈ (view id).peers, m.id ∈ ({"a", "b", "c", "d", "e"} : Finset NodeID) := by
    intro id
    refine ⟨rfl, ?_⟩
    simp only [view]
    split_ifs <;> decide
  obtain ⟨hnodup, path, hchain, hhead, last, hlast, hend⟩ :=
    forwarding_loop_free ⟨1⟩ (le_refl 1) _ injOn_five view hview "b" hstart
  exact ⟨by decide +kernel, hnodup, path, hchain, hhead, last, hlast,
    hend.imp_right (·.resolve_left (by simp))⟩

end Forwarding

end RingTopology
end Westcoast.Cluster
