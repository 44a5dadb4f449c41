import Westcoast.Cluster.Connections

/-!
# Metadata gossip between two nodes

From time to time `produce` takes a snapshot of a node's tags, without a version, and a peer that
receives one hands it to `UpdatePeerMeta`. The history of the tags and the point of it at which a
snapshot was taken are kept beside the state.
-/
namespace Westcoast.Cluster

open Lib List FullMeshTopology Option

def setTag (tags : List (String × String)) (tag : String × String) : List (String × String) :=
  tag :: tags.filter (·.1 ≠ tag.1)

def mergeTags (tags new : List (String × String)) : List (String × String) :=
  new.foldl setTag tags

def removeTag (tags : List (String × String)) (key : String) : List (String × String) :=
  tags.filter (·.1 ≠ key)

/-- `metadataGossipMsg`, with the point of the sender's history it shows. -/
structure MetadataMsg where
  nodeMeta : NodeMeta
  point : ℕ

structure MetadataGossip (ε : Type) where
  self : NodeMeta
  history : List (List (String × String))
  produced : List MetadataMsg
  peer : Connections ε
  storedPoint : Option ℕ

inductive GossipAction (ε : Type)
  | updateTags (tags : List (String × String))
  | removeTag (key : String)
  | produce
  | receive (i : ℕ)
  | peer (a : ConnAction ε)

namespace MetadataGossip

variable {ε : Type}

def start (self : NodeMeta) (peer : Connections ε) : MetadataGossip ε :=
  ⟨self, [self.tags], [], peer, none⟩

def retag (s : MetadataGossip ε) (tags : List (String × String)) : MetadataGossip ε :=
  { s with self := { s.self with tags }, history := s.history ++ [tags] }

def produce (s : MetadataGossip ε) : MetadataGossip ε :=
  { s with produced := s.produced ++ [⟨s.self, s.history.length - 1⟩] }

/-- `receive` at the peer. If `UpdatePeerMeta` tells of the metadata, the step emits the tags that
the peer then has of the node. -/
def receive (s : MetadataGossip ε) (msg : MetadataMsg) :
    MetadataGossip ε × List (List (String × String)) :=
  let (peer, told) := s.peer.updatePeerMeta msg.nodeMeta
  if told.isEmpty then ({ s with peer }, [])
  else ({ s with peer, storedPoint := some msg.point },
    (peer.peers.lookup msg.nodeMeta.id).toList.map (·.tags))

/-- The action hands metadata of the node `id` to `UpdatePeerMeta`. -/
def updates (id : NodeID) : ConnAction ε → Bool
  | .updatePeerMeta m => m.id = id
  | _ => false

/-- Messages are received any number of times; only the sender's own call `UpdatePeerMeta`. -/
def step (t : Topology) (s : MetadataGossip ε) :
    GossipAction ε → Option (MetadataGossip ε × List (List (String × String)))
  | .updateTags tags => some (s.retag (mergeTags s.self.tags tags), [])
  | .removeTag key => some (s.retag (Cluster.removeTag s.self.tags key), [])
  | .produce => some (s.produce, [])
  | .receive i => s.produced[i]?.map s.receive
  | .peer a =>
    if updates s.self.id a then none
    else (s.peer.step t a).map fun r => ({ s with peer := r.1 }, [])

/-- No message is received that is older than the one stored last. -/
def InOrder (s : MetadataGossip ε) : GossipAction ε → Prop
  | .receive i => ∀ msg ∈ s.produced[i]?, ∀ n ∈ s.storedPoint, n ≤ msg.point
  | _ => True

instance inOrderDecidable (s : MetadataGossip ε) (a : GossipAction ε) :
    Decidable (InOrder s a) := by
  cases a <;> unfold InOrder <;> infer_instance

/-- The tag maps `stored` are those of non-decreasing points of the history. -/
def FollowsHistory (history stored : List (List (String × String))) : Prop :=
  ∃ points : List ℕ, points.Pairwise (· ≤ ·) ∧
    points.Forall₂ (fun n tags => history[n]? = some tags) stored

/-! ## What a step can do -/

/-- What a step changes of the history, the messages and the tags stored last. -/
inductive Moves (s s' : MetadataGossip ε) : GossipAction ε → List (List (String × String)) → Prop
  | retag {a : GossipAction ε} (tags : List (String × String))
      (hhistory : s'.history = s.history ++ [tags]) (htags : s'.self.tags = tags)
      (hproduced : s'.produced = s.produced) (hpoint : s'.storedPoint = s.storedPoint) :
      Moves s s' a []
  | produce (hhistory : s'.history = s.history) (htags : s'.self.tags = s.self.tags)
      (hproduced : s'.produced = s.produced ++ [⟨s.self, s.history.length - 1⟩])
      (hpoint : s'.storedPoint = s.storedPoint) : Moves s s' .produce []
  | idle {a : GossipAction ε} (hhistory : s'.history = s.history)
      (htags : s'.self.tags = s.self.tags) (hproduced : s'.produced = s.produced)
      (hpoint : s'.storedPoint = s.storedPoint) : Moves s s' a []
  | store {i : ℕ} {msg : MetadataMsg} (hmsg : s.produced[i]? = some msg)
      (hhistory : s'.history = s.history) (htags : s'.self.tags = s.self.tags)
      (hproduced : s'.produced = s.produced) (hpoint : s'.storedPoint = some msg.point) :
      Moves s s' (.receive i) [msg.nodeMeta.tags]

variable {t : Topology} {s s' : MetadataGossip ε} {a : GossipAction ε}
  {es : List (List (String × String))}

theorem lookup_updatePeerMeta {c : Connections ε} {m : NodeMeta}
    (h : ¬ (c.updatePeerMeta m).2.isEmpty) : (c.updatePeerMeta m).1.peers.lookup m.id = some m := by
  unfold Connections.updatePeerMeta at h ⊢
  cases hm : c.peers.lookup m.id with
  | none => simp [hm] at h
  | some existing =>
    simp only [hm] at h ⊢
    split_ifs at h ⊢
    · simp at h
    · exact AList.lookup_insert _

theorem moves_of_step (h : s.step t a = some (s', es)) : Moves s s' a es := by
  cases a with
  | updateTags tags | removeTag key =>
    obtain ⟨rfl, rfl⟩ := Prod.mk.inj (some.inj h)
    exact .retag _ rfl rfl rfl rfl
  | produce =>
    obtain ⟨rfl, rfl⟩ := Prod.mk.inj (some.inj h)
    exact .produce rfl rfl rfl rfl
  | receive i =>
    simp only [step, map_eq_some_iff, receive] at h
    obtain ⟨msg, hmsg, h⟩ := h
    split at h
    · obtain ⟨rfl, rfl⟩ := Prod.mk.inj h
      exact .idle rfl rfl rfl rfl
    · next htold =>
      obtain ⟨rfl, rfl⟩ := Prod.mk.inj h
      rw [lookup_updatePeerMeta htold]
      exact .store hmsg rfl rfl rfl rfl
  | peer a =>
    simp only [step, ite_none_left_eq_some, map_eq_some_iff] at h
    obtain ⟨-, r, -, h⟩ := h
    obtain ⟨rfl, rfl⟩ := Prod.mk.inj h
    exact .idle rfl rfl rfl rfl

/-! ## The messages are snapshots -/

/-- The sender's tags are the last ones of its history, and every message shows those of its
point. -/
structure Snapshots (s : MetadataGossip ε) : Prop where
  current : s.history.getLast? = some s.self.tags
  shown : ∀ msg ∈ s.produced, s.history[msg.point]? = some msg.nodeMeta.tags

theorem snapshots_start (self : NodeMeta) (peer : Connections ε) :
    Snapshots (start self peer) := ⟨rfl, fun _ h => absurd h not_mem_nil⟩

variable {tags : List (String × String)}

theorem Moves.getElem?_history (h : Moves s s' a es) {n : ℕ} (hn : s.history[n]? = some tags) :
    s'.history[n]? = some tags := by
  have hlt : n < s.history.length := (List.getElem?_eq_some_iff.mp hn).1
  cases h with
  | retag new hhistory => rw [hhistory, getElem?_append_left hlt, hn]
  | produce hhistory | idle hhistory | store _ hhistory => rw [hhistory, hn]

theorem Snapshots.step (hs : Snapshots s) (h : Moves s s' a es) : Snapshots s' := by
  have hold : ∀ msg ∈ s.produced, s'.history[msg.point]? = some msg.nodeMeta.tags :=
    fun msg hmsg => h.getElem?_history (hs.shown msg hmsg)
  cases h with
  | retag tags hhistory htags hproduced =>
    refine ⟨?_, by rwa [hproduced]⟩
    rw [hhistory, htags, getLast?_concat]
  | produce hhistory htags hproduced =>
    refine ⟨by rw [hhistory, htags, hs.current], ?_⟩
    intro msg hmsg
    rw [hproduced, mem_append, mem_singleton] at hmsg
    rcases hmsg with hmsg | rfl
    · exact hold msg hmsg
    · rw [hhistory, ← getLast?_eq_getElem?, hs.current]
  | idle hhistory htags hproduced | store _ hhistory htags hproduced =>
    exact ⟨by rw [hhistory, htags, hs.current], by rwa [hproduced]⟩

/-! ## What the peer stores -/

/-- The tags stored so far, each with its point; the last point is the one remembered. -/
structure Stored (s : MetadataGossip ε) (points : List ℕ)
    (stored : List (List (String × String))) : Prop where
  shown : points.Forall₂ (fun n tags => s.history[n]? = some tags) stored
  last : points.getLast? = s.storedPoint

theorem stored_start (self : NodeMeta) (peer : Connections ε) :
    Stored (start self peer) [] [] := ⟨.nil, rfl⟩

variable {points : List ℕ}

variable {stored tr : List (List (String × String))}

theorem Stored.step (hs : Snapshots s) (hstored : Stored s points stored) (h : Moves s s' a es) :
    ∃ new, Stored s' (points ++ new) (stored ++ es) ∧
      (InOrder s a → ∀ n ∈ points.getLast?, ∀ n' ∈ new, n ≤ n') ∧ new.length ≤ 1 := by
  have hold : points.Forall₂ (fun n tags => s'.history[n]? = some tags) stored :=
    hstored.shown.imp fun n tags hn => h.getElem?_history hn
  have hnone : s'.storedPoint = s.storedPoint → es = [] →
      ∃ new, Stored s' (points ++ new) (stored ++ es) ∧
        (InOrder s a → ∀ n ∈ points.getLast?, ∀ n' ∈ new, n ≤ n') ∧ new.length ≤ 1 := by
    rintro hpoint rfl
    refine ⟨[], ⟨?_, ?_⟩, fun _ _ _ n' hn' => absurd hn' not_mem_nil, Nat.zero_le 1⟩
    · rwa [append_nil, append_nil]
    · rw [append_nil, hstored.last, hpoint]
  cases h with
  | retag tags _ _ _ hpoint | produce _ _ _ hpoint | idle _ _ _ hpoint => exact hnone hpoint rfl
  | @store i msg hmsg hhistory _ _ hpoint =>
    have hshown := hs.shown msg (mem_of_getElem? hmsg)
    refine ⟨[msg.point], ⟨?_, ?_⟩, ?_, le_refl 1⟩
    · refine rel_append hold (.cons ?_ .nil)
      rw [hhistory, hshown]
    · rw [getLast?_concat, hpoint]
    · intro horder n hn n' hn'
      rw [mem_singleton.mp hn']
      exact horder msg hmsg n (hstored.last ▸ hn)

theorem mem_history {history : List (List (String × String))}
    (h : points.Forall₂ (fun n tags => history[n]? = some tags) stored) (htags : tags ∈ stored) :
    tags ∈ history := by
  induction h with
  | nil => exact absurd htags not_mem_nil
  | cons hn _ ih =>
    rcases mem_cons.mp htags with rfl | htags
    · exact mem_of_getElem? hn
    · exact ih htags

theorem pairwise_le_append {new : List ℕ} (h : points.Pairwise (· ≤ ·))
    (hlast : ∀ n ∈ points.getLast?, ∀ n' ∈ new, n ≤ n') (hnew : new.length ≤ 1) :
    (points ++ new).Pairwise (· ≤ ·) := by
  refine pairwise_append.mpr ⟨h, ?_, ?_⟩
  · match new, hnew with
    | [], _ => exact .nil
    | [n], _ => exact pairwise_singleton _ n
  · intro n hn n' hn'
    obtain ⟨front, last, rfl⟩ : ∃ front last, points = front ++ [last] :=
      (eq_nil_or_concat' points).resolve_left (ne_nil_of_mem hn)
    have hle : n ≤ last := by
      rcases mem_append.mp hn with hfront | hlast
      · exact (pairwise_append.mp h).2.2 n hfront last (mem_singleton_self last)
      · rw [mem_singleton.mp hlast]
    exact hle.trans (hlast last getLast?_concat n' hn')

variable {self : NodeMeta} {peer : Connections ε}

theorem exists_points (hrun : Run (step t) anyStep (start self peer) tr s) :
    Snapshots s ∧ ∃ points, Stored s points tr := by
  refine hrun.invariant (fun tr s => Snapshots s ∧ ∃ points, Stored s points tr)
    ⟨snapshots_start self peer, [], stored_start self peer⟩ ?_
  rintro tr s a s' es ⟨hs, points, hstored⟩ - hstep
  have hmoves := moves_of_step hstep
  obtain ⟨new, hnew, -⟩ := hstored.step hs hmoves
  exact ⟨hs.step hmoves, points ++ new, hnew⟩

theorem exists_points_sorted (hrun : Run (step t) InOrder (start self peer) tr s) :
    Snapshots s ∧ ∃ points, Stored s points tr ∧ points.Pairwise (· ≤ ·) := by
  refine hrun.invariant
    (fun tr s => Snapshots s ∧ ∃ points, Stored s points tr ∧ points.Pairwise (· ≤ ·))
    ⟨snapshots_start self peer, [], stored_start self peer, .nil⟩ ?_
  rintro tr s a s' es ⟨hs, points, hstored, hsorted⟩ horder hstep
  have hmoves := moves_of_step hstep
  obtain ⟨new, hnew, hlast, hlen⟩ := hstored.step hs hmoves
  exact ⟨hs.step hmoves, points ++ new, hnew, pairwise_le_append hsorted (hlast horder) hlen⟩

/-- Every tag map that a peer stores was the sender's; if no message is older than the last stored,
they follow its history. -/
theorem follows_history (t : Topology) (self : NodeMeta) (peer : Connections ε) :
    (∀ tr s, Run (step t) anyStep (start self peer) tr s → ∀ tags ∈ tr, tags ∈ s.history) ∧
    ∀ tr s, Run (step t) InOrder (start self peer) tr s → FollowsHistory s.history tr := by
  constructor
  · intro tr s hrun tags htags
    obtain ⟨-, points, hstored⟩ := exists_points hrun
    exact mem_history hstored.shown htags
  · intro tr s hrun
    obtain ⟨-, points, hstored, hsorted⟩ := exists_points_sorted hrun
    exact ⟨points, hsorted, hstored.shown⟩

def pairOfNodes : MetadataGossip Unit :=
  start ⟨"n1", "a1", []⟩
    { Connections.new ⟨"n2", "a2", []⟩ with peers := (∅ : AList _).insert "n1" ⟨"n1", "a1", []⟩ }

/-- Two messages, received in order and the first one twice. -/
theorem follows_history_twice : ∃ tr s, Run (step topology) InOrder pairOfNodes tr s ∧
    tr = [[("v", "1")], [("v", "2")]] ∧ FollowsHistory s.history tr :=
  Run.of_check_then [.updateTags [("v", "1")], .produce, .receive 0, .receive 0,
    .updateTags [("v", "2")], .produce, .receive 1] (by decide +kernel) fun tr s hrun htr =>
    ⟨tr, s, hrun, htr, (follows_history topology _ _).2 tr s hrun⟩

/-- Of two messages the second is received first: the peer goes back to the older tags. -/
theorem goes_backwards : ∃ tr s, Run (step topology) anyStep pairOfNodes tr s ∧
    ¬ FollowsHistory s.history tr ∧
    (s.peer.peers.lookup s.self.id).toList.map NodeMeta.tags = [[("v", "1")]] ∧
    s.self.tags = [("v", "2")] := by
  obtain ⟨tr, s, hrun, rfl, hhistory, hend⟩ : ∃ tr s,
      Run (step topology) anyStep pairOfNodes tr s ∧
      tr = [[("v", "2")], [("v", "1")]] ∧ s.history = [[], [("v", "1")], [("v", "2")]] ∧
      (s.peer.peers.lookup s.self.id).toList.map NodeMeta.tags = [[("v", "1")]] ∧
      s.self.tags = [("v", "2")] :=
    Run.of_check [.updateTags [("v", "1")], .produce, .updateTags [("v", "2")], .produce,
      .receive 1, .receive 0] (by decide +kernel)
  refine ⟨_, s, hrun, ?_, hend⟩
  rintro ⟨points, hsorted, hshown⟩
  rw [hhistory] at hshown
  obtain ⟨newer, rest, hnewer, hrest, rfl⟩ := List.forall₂_cons_right_iff.mp hshown
  obtain ⟨older, rest, holder, -, rfl⟩ := List.forall₂_cons_right_iff.mp hrest
  have hle : newer ≤ older := (pairwise_cons.mp hsorted).1 older mem_cons_self
  -- the newer tags stand at the point 2 alone, the older ones at the point 1 alone
  have hnewer : newer = 2 :=
    have hat : ∀ n < 3, [[], [("v", "1")], [("v", "2")]][n]? = some [("v", "2")] → n = 2 := by
      decide
    hat newer (List.getElem?_eq_some_iff.mp hnewer).1 hnewer
  have holder : older = 1 :=
    have hat : ∀ n < 3, [[], [("v", "1")], [("v", "2")]][n]? = some [("v", "1")] → n = 1 := by
      decide
    hat older (List.getElem?_eq_some_iff.mp holder).1 holder
  omega

end MetadataGossip

end Westcoast.Cluster
