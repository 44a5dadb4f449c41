import Westcoast.Lib.Shuffle
import Westcoast.PubSub.Interest

/-!
# Publications by gossip

`gossip.go` and `pubsub_adapter_gossip.go`: at each round a node sends the publications it has
collected to a few peers, in one batch, which nobody sends on. The membership is fixed, and an
envelope stays in transit until it is delivered.
-/
namespace Westcoast

open Lib List RoutedEnvelope Function

structure GossipEnvelope (β : Type) where
  protocol : String
  payload : β

structure PubsubGossipPayload (β : Type) where
  topic : String
  payload : β
  publisherNode : String

/-- What a `RemotePublishHandler` is called with. -/
structure RemotePublication (π : Type) where
  topic : String
  payload : π
  publisherNode : String
  deriving DecidableEq

inductive GossipValue (π β : Type)
  | payload (v : π)
  | batch (msgs : List (PubsubGossipPayload β))
  | envelope (env : GossipEnvelope β)

/-- Whether the type of the value is registered. That of an envelope is, by `init`. -/
def GossipValue.known {π β : Type} (payload : π → Bool) (batch : Bool) : GossipValue π β → Bool
  | .payload v => payload v
  | .batch _ => batch
  | .envelope _ => true

/-- A codec that encodes the values of registered types and gives them back. -/
structure GossipCodec (π β : Type) where
  encode : GossipValue π β → Except String β
  decode : β → Option (GossipValue π β)
  /-- The payloads whose type the application has registered. -/
  knowsPayload : π → Bool
  /-- Whether `[]pubsubGossipPayload` is registered. -/
  knowsBatch : Bool
  encodes : ∀ v, (∃ data, encode v = .ok data) ↔ v.known knowsPayload knowsBatch = true
  decode_encode : ∀ {v data}, encode v = .ok data → decode data = some v

/-! ### Rounds of gossip -/

structure GossipConfig where
  protocol : String
  fanout : ℕ

structure GossipProtocol where
  protocol : String
  fanout : ℕ

def GossipProtocol.new (cfg : GossipConfig) : GossipProtocol :=
  ⟨cfg.protocol, if cfg.fanout = 0 then 3 else cfg.fanout⟩

def selectRandomPeers (members : List String) (n : ℕ) (draw : ℕ → ℕ) : List String :=
  if members.length ≤ n then members else (shuffle draw members).take n

theorem nodup_selectRandomPeers {members : List String} (h : members.Nodup) (n : ℕ)
    (draw : ℕ → ℕ) : (selectRandomPeers members n draw).Nodup := by
  rw [selectRandomPeers]
  split_ifs
  · exact h
  · exact ((shuffle_perm draw members).nodup_iff.mpr h).sublist (take_sublist n _)

theorem exists_not_selected {members : List String} (h : members.Nodup) {n : ℕ} (draw : ℕ → ℕ)
    (hlt : n < members.length) : ∃ k ∈ members, k ∉ selectRandomPeers members n draw := by
  rw [selectRandomPeers, if_neg (Nat.not_le.mpr hlt)]
  exact exists_mem_not_mem_take (shuffle_perm draw members) h hlt

variable {π β : Type}

/-- `doRound`, from what the producer returned on. -/
def GossipProtocol.doRound (g : GossipProtocol) (codec : GossipCodec π β) (localID : String)
    (delta : Option β) (members : List String) (draw : ℕ → ℕ) : List (RoutedEnvelope β) :=
  match delta with
  | none => []
  | some delta =>
    let peers := selectRandomPeers members g.fanout draw
    if peers.isEmpty then []
    else
      match codec.encode (.envelope ⟨g.protocol, delta⟩) with
      | .error _ => []
      | .ok encoded => peers.map fun peer => ⟨localID, peer, "__gossip", encoded⟩

/-! ### The adapter -/

/-- The envelope is from the one node to the other. -/
def RoutedEnvelope.between (p k : String) (env : RoutedEnvelope β) : Bool :=
  env.senderNode = p && env.targetNode = k

def pubsubGossipProtocol : String := "pubsub_broadcast"

def maxPendingPubSub : ℕ := 4096

structure GossipPubSubAdapter (β : Type) where
  gossip : GossipProtocol
  /-- Whether the handler is set. -/
  handler : Bool
  pending : List (PubsubGossipPayload β)

namespace GossipPubSubAdapter

def new (cfg : GossipConfig) : GossipPubSubAdapter β :=
  ⟨.new { cfg with protocol := pubsubGossipProtocol }, false, []⟩

def setHandler (a : GossipPubSubAdapter β) : GossipPubSubAdapter β := { a with handler := true }

/-- `Broadcast` only queues, up to a bound. -/
def broadcast (codec : GossipCodec π β) (a : GossipPubSubAdapter β) (topic : String) (payload : π)
    (publisherNode : String) : Except String (GossipPubSubAdapter β) :=
  match codec.encode (.payload payload) with
  | .error err => .error err
  | .ok encoded =>
    if maxPendingPubSub ≤ a.pending.length then
      .error ("pubsub gossip buffer full (" ++ toString maxPendingPubSub ++ ")")
    else .ok { a with pending := a.pending ++ [⟨topic, encoded, publisherNode⟩] }

/-- The batch of a round, if any and if it can be encoded; it is no longer pending. -/
def produce (codec : GossipCodec π β) (a : GossipPubSubAdapter β) :
    Option β × GossipPubSubAdapter β :=
  if a.pending.isEmpty then (none, a)
  else ((codec.encode (.batch a.pending)).toOption, { a with pending := [] })

/-- The handler's argument for an entry of a batch. Bytes encoded by `broadcast` decode. -/
def publication (codec : GossipCodec π β) (msg : PubsubGossipPayload β) :
    Option (RemotePublication π) :=
  match codec.decode msg.payload with
  | some (.payload v) => some ⟨msg.topic, v, msg.publisherNode⟩
  | _ => none

/-- `receive`. What does not decode is dropped. -/
def receive (codec : GossipCodec π β) (a : GossipPubSubAdapter β) (data : β) :
    List (RemotePublication π) :=
  if a.handler then
    match codec.decode data with
    | some (.batch batch) => batch.filterMap (publication codec)
    | _ => []
  else []

/-- `HandleInbound`, for envelopes of its own protocol. -/
def handleInbound (codec : GossipCodec π β) (a : GossipPubSubAdapter β) (env : GossipEnvelope β) :
    List (RemotePublication π) :=
  if env.protocol ≠ a.gossip.protocol then [] else a.receive codec env.payload

/-- The handler of `RegisterGossipHandler` at an envelope of its type. -/
def inbound (codec : GossipCodec π β) (a : GossipPubSubAdapter β) (env : RoutedEnvelope β) :
    List (RemotePublication π) :=
  if env.typeName = "__gossip" then
    match codec.decode env.payload with
    | some (.envelope ge) => a.handleInbound codec ge
    | _ => []
  else []

def waiting (codec : GossipCodec π β) (a : GossipPubSubAdapter β) : List (RemotePublication π) :=
  a.pending.filterMap (publication codec)

def round (codec : GossipCodec π β) (a : GossipPubSubAdapter β) (localID : String)
    (members : List String) (draw : ℕ → ℕ) : GossipPubSubAdapter β × List (RoutedEnvelope β) :=
  ((a.produce codec).2, a.gossip.doRound codec localID (a.produce codec).1 members draw)

variable {codec : GossipCodec π β} {a b : GossipPubSubAdapter β}

theorem waiting_broadcast {a' : GossipPubSubAdapter β} {topic publisherNode : String}
    {payload : π} (h : a.broadcast codec topic payload publisherNode = .ok a') :
    a'.waiting codec = a.waiting codec ++ [⟨topic, payload, publisherNode⟩] ∧
      a'.gossip = a.gossip ∧ a'.handler = a.handler := by
  rw [broadcast] at h
  cases hencode : codec.encode (.payload payload) with
  | error err =>
    rw [hencode] at h
    cases h
  | ok encoded =>
    simp only [hencode] at h
    split_ifs at h
    cases h
    have hback : publication codec ⟨topic, encoded, publisherNode⟩ =
        some ⟨topic, payload, publisherNode⟩ := by
      simp [publication, codec.decode_encode hencode]
    refine ⟨?_, rfl, rfl⟩
    simp [waiting, hback]

theorem waiting_round (codec : GossipCodec π β) (a : GossipPubSubAdapter β) (localID : String)
    (members : List String) (draw : ℕ → ℕ) :
    (a.round codec localID members draw).1.waiting codec = [] := by
  simp only [round, produce, waiting]
  split_ifs with hempty
  · simp [isEmpty_iff.mp hempty]
  · rfl

theorem gossip_round (codec : GossipCodec π β) (a : GossipPubSubAdapter β) (localID : String)
    (members : List String) (draw : ℕ → ℕ) :
    (a.round codec localID members draw).1.gossip = a.gossip ∧
      (a.round codec localID members draw).1.handler = a.handler := by
  simp only [round, produce]
  split_ifs <;> exact ⟨rfl, rfl⟩

theorem inbound_congr (hgossip : a.gossip = b.gossip) (hhandler : a.handler = b.handler)
    (codec : GossipCodec π β) (env : RoutedEnvelope β) :
    a.inbound codec env = b.inbound codec env := by
  simp only [inbound, handleInbound, receive, hgossip, hhandler]

theorem round_eq_nil (h : a.pending = [] ∨ codec.knowsBatch = false) (localID : String)
    (members : List String) (draw : ℕ → ℕ) : (a.round codec localID members draw).2 = [] := by
  have hdelta : (a.produce codec).1 = none := by
    rw [produce]
    split_ifs with hempty
    · rfl
    · cases hencode : codec.encode (.batch a.pending) with
      | error err => rfl
      | ok data =>
        -- what was encoded is registered
        have hknown := (codec.encodes _).mp ⟨data, hencode⟩
        rcases h with hpending | hbatch
        · simp [hpending] at hempty
        · cases hbatch.symm.trans hknown
  simp only [round, hdelta, GossipProtocol.doRound]

theorem round_eq_map (hpending : a.pending ≠ []) (hbatch : codec.knowsBatch = true)
    (hgossip : b.gossip = a.gossip) (hhandler : b.handler = true) (localID : String)
    (members : List String) (draw : ℕ → ℕ) : ∃ encoded, (a.round codec localID members draw).2 =
        (selectRandomPeers members a.gossip.fanout draw).map
          (fun peer => ⟨localID, peer, "__gossip", encoded⟩) ∧
      ∀ peer, b.inbound codec ⟨localID, peer, "__gossip", encoded⟩ = a.waiting codec := by
  obtain ⟨delta, hdelta⟩ := (codec.encodes (.batch a.pending)).mpr hbatch
  obtain ⟨encoded, hencoded⟩ := (codec.encodes (.envelope ⟨a.gossip.protocol, delta⟩)).mpr rfl
  refine ⟨encoded, ?_, fun peer => ?_⟩
  · have hproduce : (a.produce codec).1 = some delta := by
      simp [produce, hpending, hdelta, Except.toOption]
    simp only [round, hproduce, GossipProtocol.doRound, hencoded]
    split_ifs with hpeers
    · simp [isEmpty_iff.mp hpeers]
    · rfl
  · simp [inbound, codec.decode_encode hencoded, handleInbound, hgossip, receive, hhandler,
      codec.decode_encode hdelta, waiting]

/-- What an adapter like this one is called with for a round's envelopes from one given node to
another. -/
theorem inbound_round (hgossip : b.gossip = a.gossip) (hhandler : b.handler = true)
    {members : List String} (hnodup : members.Nodup) (localID : String) (draw : ℕ → ℕ)
    (p k : String) : ((a.round codec localID members draw).2.filter (between p k)).flatMap
        (b.inbound codec) =
      if localID = p ∧ codec.knowsBatch = true ∧
          k ∈ selectRandomPeers members a.gossip.fanout draw then a.waiting codec else [] := by
  by_cases hpending : a.pending = []
  · simp [round_eq_nil (.inl hpending), waiting, hpending]
  cases hbatch : codec.knowsBatch with
  | false => simp [round_eq_nil (.inr hbatch)]
  | true =>
    obtain ⟨encoded, henvs, hinbound⟩ :=
      round_eq_map hpending hbatch hgossip hhandler localID members draw
    rw [henvs, filter_map, flatMap_map]
    by_cases hp : localID = p
    · subst hp
      -- the envelopes to one peer are as many as the selection has entries for it
      have hto : (between localID k ∘ fun peer =>
          (⟨localID, peer, "__gossip", encoded⟩ : RoutedEnvelope β)) =
            fun peer => decide (peer = k) := by
        funext peer
        simp [between]
      have hcount := (nodup_selectRandomPeers hnodup a.gossip.fanout draw).count (a := k)
      rw [hto, filter_eq, hcount]
      by_cases hk : k ∈ selectRandomPeers members a.gossip.fanout draw
      · simp [hk, hinbound]
      · simp [hk]
    · have hnone : (between p k ∘ fun peer =>
          (⟨localID, peer, "__gossip", encoded⟩ : RoutedEnvelope β)) = fun _ => false := by
        funext peer
        simp [between, hp]
      rw [hnone]
      simp [hp]

end GossipPubSubAdapter

/-! ### The cluster -/

/-- A cluster of fixed members that publish by gossip. -/
structure GossipCluster (π β : Type) where
  nodes : List String
  nodup : nodes.Nodup
  codec : GossipCodec π β
  cfg : GossipConfig

/-- The adapters of the nodes, and the envelopes that were sent and not yet delivered. -/
structure GossipState (β : Type) where
  adapters : String → GossipPubSubAdapter β
  transit : List (RoutedEnvelope β)

inductive GossipAction (π : Type)
  | broadcast (node topic : String) (payload : π) (publisherNode : String)
  /-- A gossip round, in which the members are listed in some order and drawn from. -/
  | round (node : String) (members : List String) (draw : ℕ → ℕ)
  | deliver (index : ℕ)

inductive GossipEvent (π : Type)
  /-- A broadcast returned nil, or an error. -/
  | accepted (node : String) (pub : RemotePublication π)
  | refused (node error : String)
  /-- A node called its handler, for an envelope of the sender. -/
  | invoked (node sender : String) (pub : RemotePublication π)

def acceptedBy (p : String) (tr : List (GossipEvent π)) : List (RemotePublication π) :=
  tr.filterMap fun
    | .accepted node pub => if node = p then some pub else none
    | _ => none

def invokedAt (k p : String) (tr : List (GossipEvent π)) : List (RemotePublication π) :=
  tr.filterMap fun
    | .invoked node sender pub => if node = k ∧ sender = p then some pub else none
    | _ => none

namespace GossipCluster

def adapter (c : GossipCluster π β) : GossipPubSubAdapter β :=
  (GossipPubSubAdapter.new c.cfg).setHandler

def start (c : GossipCluster π β) : GossipState β := ⟨fun _ => c.adapter, []⟩

/-- The envelopes of a round are in transit from when its batch is taken. -/
def step (c : GossipCluster π β) (s : GossipState β) :
    GossipAction π → Option (GossipState β × List (GossipEvent π))
  | .broadcast node topic payload publisherNode =>
    if node ∈ c.nodes then
      match (s.adapters node).broadcast c.codec topic payload publisherNode with
      | .error err => some (s, [.refused node err])
      | .ok a =>
        some ({ s with adapters := update s.adapters node a },
          [.accepted node ⟨topic, payload, publisherNode⟩])
    else none
  | .round node members draw =>
    if node ∈ c.nodes ∧ members.Perm (c.nodes.erase node) then
      let r := (s.adapters node).round c.codec node members draw
      some (⟨update s.adapters node r.1, s.transit ++ r.2⟩, [])
    else none
  | .deliver index =>
    match s.transit[index]? with
    | none => none
    | some env =>
      some ({ s with transit := s.transit.eraseIdx index },
        ((s.adapters env.targetNode).inbound c.codec env).map
          (.invoked env.targetNode env.senderNode))

def Quiet (c : GossipCluster π β) (s : GossipState β) : Prop :=
  (∀ node ∈ c.nodes, (s.adapters node).pending = []) ∧ s.transit = []

/-- Every other node has called its handler for each publication a node has accepted. -/
def Delivered (c : GossipCluster π β) (tr : List (GossipEvent π)) : Prop :=
  ∀ p ∈ c.nodes, ∀ k ∈ c.nodes, k ≠ p → (acceptedBy p tr).Subperm (invokedAt k p tr)

/-- A round reaches all other nodes. -/
def Covers (c : GossipCluster π β) : Prop :=
  c.codec.knowsBatch = true ∧ c.nodes.length ≤ c.adapter.gossip.fanout + 1

/-! ### What one step does to the publications of a node -/

theorem acceptedBy_append (p : String) (tr es : List (GossipEvent π)) :
    acceptedBy p (tr ++ es) = acceptedBy p tr ++ acceptedBy p es :=
  filterMap_append

theorem invokedAt_append (k p : String) (tr es : List (GossipEvent π)) :
    invokedAt k p (tr ++ es) = invokedAt k p tr ++ invokedAt k p es :=
  filterMap_append

theorem acceptedBy_invoked (p node sender : String) (pubs : List (RemotePublication π)) :
    acceptedBy p (pubs.map (.invoked node sender)) = [] := by
  simp [acceptedBy, filterMap_map]

theorem invokedAt_invoked (k p node sender : String) (pubs : List (RemotePublication π)) :
    invokedAt k p (pubs.map (.invoked node sender)) =
      if node = k ∧ sender = p then pubs else [] := by
  simp only [invokedAt, filterMap_map, comp_def]
  split_ifs <;> simp

def Ready (c : GossipCluster π β) (s : GossipState β) : Prop :=
  ∀ node, (s.adapters node).gossip = c.adapter.gossip ∧ (s.adapters node).handler = true

def waiting (c : GossipCluster π β) (s : GossipState β) (p : String) : List (RemotePublication π) :=
  (s.adapters p).waiting c.codec

def carried (c : GossipCluster π β) (s : GossipState β) (p k : String) :
    List (RemotePublication π) :=
  (s.transit.filter (between p k)).flatMap (c.adapter.inbound c.codec)

/-- What a step does to a node's publications: some wait, some in transit are delivered, or it is a
round. -/
inductive Effect (c : GossipCluster π β) (p : String) (s s' : GossipState β)
    (es : List (GossipEvent π)) : Prop
  | collected (hwaiting : c.waiting s' p = c.waiting s p ++ acceptedBy p es)
      (hcarried : ∀ k, (c.carried s p k).Perm (invokedAt k p es ++ c.carried s' p k))
  | sent (members : List String) (draw : ℕ → ℕ) (hmembers : members.Perm (c.nodes.erase p))
      (hes : es = []) (hwaiting : c.waiting s' p = [])
      (hcarried : ∀ k, c.carried s' p k = c.carried s p k ++
        if c.codec.knowsBatch = true ∧ k ∈ selectRandomPeers members c.adapter.gossip.fanout draw
          then c.waiting s p else [])

theorem ready_start (c : GossipCluster π β) : c.Ready c.start :=
  fun _ => ⟨rfl, rfl⟩

variable {c : GossipCluster π β} {s s' : GossipState β}

variable {node : String}

theorem Ready.update (hready : c.Ready s) {a : GossipPubSubAdapter β}
    (hgossip : a.gossip = (s.adapters node).gossip)
    (hhandler : a.handler = (s.adapters node).handler) (transit : List (RoutedEnvelope β)) :
    c.Ready ⟨update s.adapters node a, transit⟩ := by
  intro k
  by_cases hk : k = node
  · subst hk
    simpa [hgossip, hhandler] using hready k
  · simpa only [update_of_ne hk] using hready k

inductive Turn (c : GossipCluster π β) (s : GossipState β) :
    GossipState β → List (GossipEvent π) → Prop
  | refused (node err : String) : Turn c s s [.refused node err]
  | accepted (node topic : String) (payload : π) (publisherNode : String)
      (a : GossipPubSubAdapter β)
      (hok : (s.adapters node).broadcast c.codec topic payload publisherNode = .ok a) :
      Turn c s { s with adapters := update s.adapters node a }
        [.accepted node ⟨topic, payload, publisherNode⟩]
  | round (node : String) (members : List String) (draw : ℕ → ℕ)
      (hmembers : members.Perm (c.nodes.erase node)) :
      Turn c s
        ⟨update s.adapters node
          ((s.adapters node).round c.codec node members draw).1,
          s.transit ++ ((s.adapters node).round c.codec node members draw).2⟩ []
  | delivered (index : ℕ) (env : RoutedEnvelope β) (henv : s.transit[index]? = some env) :
      Turn c s { s with transit := s.transit.eraseIdx index }
        (((s.adapters env.targetNode).inbound c.codec env).map
          (.invoked env.targetNode env.senderNode))

variable {a : GossipAction π} {es tr : List (GossipEvent π)}

theorem turn_of_step (h : c.step s a = some (s', es)) : c.Turn s s' es := by
  cases a with
  | broadcast node topic payload publisherNode =>
    simp only [step] at h
    split_ifs at h
    cases hok : (s.adapters node).broadcast c.codec topic payload publisherNode with
    | error err =>
      simp only [hok] at h
      cases h
      exact .refused node err
    | ok a =>
      simp only [hok] at h
      cases h
      exact .accepted node topic payload publisherNode a hok
  | round node members draw =>
    simp only [step] at h
    split_ifs at h with hround
    cases h
    exact .round node members draw hround.2
  | deliver index =>
    simp only [step] at h
    cases henv : s.transit[index]? with
    | none =>
      simp only [henv] at h
      cases h
    | some env =>
      simp only [henv] at h
      cases h
      exact .delivered index env henv

theorem Ready.step (hready : c.Ready s) (h : c.step s a = some (s', es)) : c.Ready s' := by
  cases turn_of_step h with
  | refused | delivered => exact hready
  | accepted node topic payload publisherNode a hok =>
    obtain ⟨-, hgossip, hhandler⟩ := GossipPubSubAdapter.waiting_broadcast hok
    exact hready.update hgossip hhandler _
  | round node members draw hmembers =>
    obtain ⟨hgossip, hhandler⟩ := (s.adapters node).gossip_round c.codec node members draw
    exact hready.update hgossip hhandler _

theorem carried_deliver (hready : c.Ready s) {i : ℕ} {env : RoutedEnvelope β}
    (henv : s.transit[i]? = some env) (p k : String) : (c.carried s p k).Perm
      (invokedAt k p (((s.adapters env.targetNode).inbound c.codec env).map
          (.invoked env.targetNode env.senderNode)) ++
        c.carried { s with transit := s.transit.eraseIdx i } p k) := by
  obtain ⟨hgossip, hhandler⟩ := hready env.targetNode
  rw [GossipPubSubAdapter.inbound_congr (b := c.adapter) hgossip hhandler, invokedAt_invoked]
  obtain ⟨hi, rfl⟩ := List.getElem?_eq_some_iff.mp henv
  have hperm := (getElem_cons_eraseIdx_perm hi).symm.filter (between p k)
  refine (hperm.flatMap_right _).trans (.of_eq ?_)
  by_cases hbetween : between p k s.transit[i] = true
  · have hends : s.transit[i].targetNode = k ∧ s.transit[i].senderNode = p := by
      simpa [between, and_comm] using hbetween
    rw [filter_cons_of_pos hbetween, flatMap_cons, if_pos hends]
    rfl
  · have hends : ¬ (s.transit[i].targetNode = k ∧ s.transit[i].senderNode = p) := by
      simpa [between, and_comm] using hbetween
    rw [filter_cons_of_neg hbetween, if_neg hends]
    rfl

variable {members : List String}

theorem carried_round (hready : c.Ready s) (hmembers : members.Perm (c.nodes.erase node))
    (draw : ℕ → ℕ) (adapters : String → GossipPubSubAdapter β) (p k : String) :
    c.carried ⟨adapters, s.transit ++
        ((s.adapters node).round c.codec node members draw).2⟩ p k =
      c.carried s p k ++
        if node = p ∧ c.codec.knowsBatch = true ∧
            k ∈ selectRandomPeers members c.adapter.gossip.fanout draw
          then c.waiting s node else [] := by
  have hnodup : members.Nodup := hmembers.nodup_iff.mpr (c.nodup.erase node)
  simp only [carried, filter_append, flatMap_append]
  rw [GossipPubSubAdapter.inbound_round (hready node).1.symm rfl hnodup, (hready node).1]
  rfl

theorem effect_step (hready : c.Ready s) (h : c.step s a = some (s', es)) (p : String) :
    c.Effect p s s' es := by
  cases turn_of_step h with
  | refused => exact .collected (append_nil _).symm fun k => .rfl
  | accepted node topic payload publisherNode a hok =>
    refine .collected ?_ fun k => .rfl
    by_cases hnode : node = p
    · subst hnode
      simp [waiting, acceptedBy, (GossipPubSubAdapter.waiting_broadcast hok).1]
    · simp [waiting, acceptedBy, hnode, update_of_ne (Ne.symm hnode)]
  | round node members draw hmembers =>
    have hcarried := carried_round hready hmembers draw
      (update s.adapters node
        ((s.adapters node).round c.codec node members draw).1) p
    by_cases hnode : node = p
    · subst hnode
      refine .sent members draw hmembers rfl ?_ fun k => ?_
      · simp [waiting, GossipPubSubAdapter.waiting_round]
      · rw [hcarried k]
        simp
    · refine .collected ?_ fun k => ?_
      · simp [waiting, acceptedBy, update_of_ne (Ne.symm hnode)]
      · rw [hcarried k]
        simp [hnode, invokedAt]
  | delivered index env henv =>
    refine .collected ?_ (carried_deliver hready henv p)
    rw [acceptedBy_invoked, append_nil]
    rfl

/-! ### Runs -/

/-- At every node no more publications arrive, are under way or wait than were accepted. -/
structure Accounted (c : GossipCluster π β) (tr : List (GossipEvent π)) (s : GossipState β) :
    Prop where
  ready : c.Ready s
  bound : ∀ p k, (invokedAt k p tr).length + (c.carried s p k).length + (c.waiting s p).length ≤
    (acceptedBy p tr).length

theorem accounted_start (c : GossipCluster π β) : c.Accounted [] c.start :=
  ⟨ready_start c, fun _ _ => Nat.le_refl 0⟩

variable {k p : String}

theorem length_carried_le {P : Prop} [Decidable P]
    (h : c.carried s' p k = c.carried s p k ++ if P then c.waiting s p else []) :
    (c.carried s' p k).length ≤ (c.carried s p k).length + (c.waiting s p).length := by
  rw [h, length_append]
  split_ifs
  · exact Nat.le_refl _
  · simp

theorem Accounted.step (hinv : c.Accounted tr s) (h : c.step s a = some (s', es)) :
    c.Accounted (tr ++ es) s' := by
  refine ⟨hinv.ready.step h, fun p k => ?_⟩
  have hbound := hinv.bound p k
  cases effect_step hinv.ready h p with
  | collected hwaiting hcarried =>
    have hlength := (hcarried k).length_eq
    rw [length_append] at hlength
    rw [acceptedBy_append, invokedAt_append, hwaiting]
    simp only [length_append]
    omega
  | sent members draw hmembers hes hwaiting hcarried =>
    have hadded := length_carried_le (hcarried k)
    rw [hes, append_nil, hwaiting]
    simp only [length_nil]
    omega

theorem mem_members (hmembers : members.Perm (c.nodes.erase p)) :
    k ∈ members ↔ k ∈ c.nodes ∧ k ≠ p := by
  rw [hmembers.mem_iff, c.nodup.mem_erase_iff, and_comm]

theorem length_members (hp : p ∈ c.nodes) (hmembers : members.Perm (c.nodes.erase p)) :
    members.length = c.nodes.length - 1 := by
  rw [hmembers.length_eq, length_erase_of_mem hp]

/-- If rounds reach all other nodes, what a node has accepted is at each other node, under way
to it, or waits. -/
theorem balanced_of_run (hcovers : c.Covers) (hrun : Run c.step anyStep c.start tr s)
    (hp : p ∈ c.nodes) (hk : k ∈ c.nodes) (hne : k ≠ p) :
    (acceptedBy p tr).Perm (invokedAt k p tr ++ (c.carried s p k ++ c.waiting s p)) := by
  refine (hrun.invariant (fun tr s => c.Ready s ∧
    (acceptedBy p tr).Perm (invokedAt k p tr ++ (c.carried s p k ++ c.waiting s p)))
    ⟨ready_start c, .rfl⟩ ?_).2
  rintro tr s a s' es ⟨hready, hperm⟩ - h
  refine ⟨hready.step h, ?_⟩
  cases effect_step hready h p with
  | collected hwaiting hcarried =>
    rw [acceptedBy_append, invokedAt_append, hwaiting]
    calc (acceptedBy p tr ++ acceptedBy p es).Perm
          (invokedAt k p tr ++ (c.carried s p k ++ c.waiting s p) ++ acceptedBy p es) :=
        hperm.append_right _
      List.Perm _ (invokedAt k p tr ++ (invokedAt k p es ++ c.carried s' p k ++ c.waiting s p) ++
          acceptedBy p es) :=
        (((hcarried k).append_right _).append_left _).append_right _
      _ = invokedAt k p tr ++ invokedAt k p es ++
          (c.carried s' p k ++ (c.waiting s p ++ acceptedBy p es)) := by
        simp
  | sent members draw hmembers hes hwaiting hcarried =>
    -- all members are selected, so what waited is now under way to each
    have hselected : selectRandomPeers members c.adapter.gossip.fanout draw = members := by
      have hlength := length_members hp hmembers
      have hfanout := hcovers.2
      exact if_pos (by omega)
    have hpeer : c.codec.knowsBatch = true ∧
        k ∈ selectRandomPeers members c.adapter.gossip.fanout draw := by
      rw [hselected, mem_members hmembers]
      exact ⟨hcovers.1, hk, hne⟩
    rw [hes, append_nil, hcarried k, if_pos hpeer, hwaiting, append_nil]
    exact hperm

theorem exists_left_out (hmany : 1 < c.nodes.length) (hcovers : ¬ c.Covers) (hp : p ∈ c.nodes)
    (hmembers : members.Perm (c.nodes.erase p)) (draw : ℕ → ℕ) :
    ∃ k ∈ c.nodes, k ≠ p ∧ ¬ (c.codec.knowsBatch = true ∧
      k ∈ selectRandomPeers members c.adapter.gossip.fanout draw) := by
  have hlength := length_members hp hmembers
  by_cases hbatch : c.codec.knowsBatch = true
  · have hfanout : c.adapter.gossip.fanout < members.length := by
      have hless : ¬ c.nodes.length ≤ c.adapter.gossip.fanout + 1 :=
        fun hle => hcovers ⟨hbatch, hle⟩
      omega
    have hnodup : members.Nodup := hmembers.nodup_iff.mpr (c.nodup.erase p)
    obtain ⟨k, hk, hout⟩ := exists_not_selected hnodup draw hfanout
    obtain ⟨hnode, hne⟩ := (mem_members hmembers).mp hk
    exact ⟨k, hnode, hne, fun hsent => hout hsent.2⟩
  · have hsome : 0 < members.length := by omega
    obtain ⟨k, hk⟩ := exists_mem_of_length_pos hsome
    obtain ⟨hnode, hne⟩ := (mem_members hmembers).mp hk
    exact ⟨k, hnode, hne, fun hsent => hbatch hsent.1⟩

/-- If rounds do not reach all others, all that a node accepted still waits, or another node misses
a part. -/
theorem missed_of_run (hmany : 1 < c.nodes.length) (hcovers : ¬ c.Covers)
    (hrun : Run c.step anyStep c.start tr s) (hp : p ∈ c.nodes) :
    (acceptedBy p tr).length = (c.waiting s p).length ∨
      ∃ k ∈ c.nodes, k ≠ p ∧ (invokedAt k p tr).length + (c.carried s p k).length +
        (c.waiting s p).length < (acceptedBy p tr).length := by
  refine (hrun.invariant (fun tr s => c.Accounted tr s ∧
    ((acceptedBy p tr).length = (c.waiting s p).length ∨
      ∃ k ∈ c.nodes, k ≠ p ∧ (invokedAt k p tr).length + (c.carried s p k).length +
        (c.waiting s p).length < (acceptedBy p tr).length))
    ⟨accounted_start c, .inl rfl⟩ ?_).2
  rintro tr s a s' es ⟨hinv, hmissed⟩ - h
  refine ⟨hinv.step h, ?_⟩
  cases effect_step hinv.ready h p with
  | collected hwaiting hcarried =>
    rw [acceptedBy_append, hwaiting]
    refine hmissed.imp (fun hall => ?_) fun ⟨k, hk, hne, hless⟩ => ⟨k, hk, hne, ?_⟩
    · simp only [length_append]
      omega
    · have hlength := (hcarried k).length_eq
      rw [length_append] at hlength
      rw [invokedAt_append]
      simp only [length_append]
      omega
  | sent members draw hmembers hes hwaiting hcarried =>
    rw [hes, append_nil, hwaiting]
    rcases hmissed with hall | ⟨k, hk, hne, hless⟩
    · -- nothing was sent before, so the node that is left out now has nothing of it
      obtain ⟨k, hk, hne, hout⟩ := exists_left_out hmany hcovers hp hmembers draw
      have hbound := hinv.bound p k
      by_cases hempty : (acceptedBy p tr).length = 0
      · exact .inl hempty
      · refine .inr ⟨k, hk, hne, ?_⟩
        rw [hcarried k, if_neg hout, append_nil, length_nil]
        omega
    · have hadded := length_carried_le (hcarried k)
      refine .inr ⟨k, hk, hne, ?_⟩
      rw [length_nil]
      omega

/-- **Who gets a publication.** When nothing is pending or in transit, every other node has called
its handler for each accepted publication, exactly if there was none, or a round reaches all. -/
theorem delivered_iff {c : GossipCluster π β} {tr : List (GossipEvent π)} {s : GossipState β}
    (hrun : Run c.step anyStep c.start tr s) (hquiet : c.Quiet s) :
    c.Delivered tr ↔ ((∃ p ∈ c.nodes, acceptedBy p tr ≠ []) → 1 < c.nodes.length → c.Covers) := by
  have hwaiting : ∀ p ∈ c.nodes, c.waiting s p = [] := by
    intro p hp
    simp [waiting, GossipPubSubAdapter.waiting, hquiet.1 p hp]
  have hcarried : ∀ p k, c.carried s p k = [] := by
    intro p k
    simp [carried, hquiet.2]
  constructor
  · rintro hdelivered ⟨p, hp, haccepted⟩ hmany
    by_contra hcovers
    rcases missed_of_run hmany hcovers hrun hp with hall | ⟨k, hk, hne, hless⟩
    · rw [hwaiting p hp] at hall
      exact haccepted (eq_nil_of_length_eq_zero hall)
    · have hle := (hdelivered p hp k hk hne).length_le
      omega
  · intro hcovers p hp k hk hne
    by_cases haccepted : acceptedBy p tr = []
    · rw [haccepted]
      exact nil_subperm
    · have hmany : 1 < c.nodes.length := by
        have hothers : k ∈ c.nodes.erase p := (c.nodup.mem_erase_iff).mpr ⟨hne, hk⟩
        have hpos := length_pos_of_mem hothers
        rw [length_erase_of_mem hp] at hpos
        omega
      have hbalanced := balanced_of_run (hcovers ⟨p, hp, haccepted⟩ hmany) hrun hp hk hne
      rw [hcarried p k, hwaiting p hp] at hbalanced
      rw [append_nil, append_nil] at hbalanced
      exact hbalanced.subperm

/-- Bytes that keep the value they encode. -/
inductive Bytes
  | of (v : GossipValue ℕ Bytes)

def gobCodec (knowsBatch : Bool) : GossipCodec ℕ Bytes where
  encode v :=
    if v.known (fun _ => true) knowsBatch then .ok (.of v)
    else .error "gob encode: gob: type not registered for interface"
  decode := fun | .of v => some v
  knowsPayload _ := true
  knowsBatch := knowsBatch
  encodes v := by
    split_ifs with h <;> simp [h]
  decode_encode := by
    intro v data h
    split_ifs at h
    cases h
    rfl

def threeNodes (knowsBatch : Bool) (fanout : ℕ) : GossipCluster ℕ Bytes :=
  ⟨["n1", "n2", "n3"], by decide, gobCodec knowsBatch, ⟨"", fanout⟩⟩

def publishAndRound : List (GossipAction ℕ) :=
  [.broadcast "n1" "t" 7 "n1", .round "n1" ["n2", "n3"] fun _ => 0]

def seven : RemotePublication ℕ := ⟨"t", 7, "n1"⟩

/-- Whether all is quiet, what the first node has accepted, and what the others called their
handlers with. -/
def outcome (c : GossipCluster ℕ Bytes) (as : List (GossipAction ℕ)) :
    Option (Bool × List (List (RemotePublication ℕ))) :=
  (exec c.step (fun _ _ => true) c.start as).map fun r =>
    (c.nodes.all (fun node => (r.1.adapters node).pending.isEmpty) && r.1.transit.isEmpty,
      [acceptedBy "n1" r.2, invokedAt "n2" "n1" r.2, invokedAt "n3" "n1" r.2])

variable {c : GossipCluster ℕ Bytes}

theorem run_of_outcome {as : List (GossipAction ℕ)}
    {accepted second third : List (RemotePublication ℕ)}
    (h : c.outcome as = some (true, [accepted, second, third])) :
    ∃ tr s, Run c.step anyStep c.start tr s ∧ c.Quiet s ∧ acceptedBy "n1" tr = accepted ∧
      invokedAt "n2" "n1" tr = second ∧ invokedAt "n3" "n1" tr = third := by
  obtain ⟨⟨s, tr⟩, hexec, hend⟩ := Option.map_eq_some_iff.mp h
  simp only [Prod.mk.injEq, List.cons.injEq, and_true, Bool.and_eq_true, all_eq_true,
    List.isEmpty_iff] at hend
  exact ⟨tr, s, Run.of_exec_any _ _ as hexec, hend.1, hend.2⟩

/-- With two peers a round, both other nodes get the publication. -/
theorem delivered_to_both : ∃ (tr : List (GossipEvent ℕ)) (s : GossipState Bytes),
      Run (threeNodes true 2).step anyStep (threeNodes true 2).start tr s ∧
        (threeNodes true 2).Quiet s ∧ acceptedBy "n1" tr = [seven] ∧
        (threeNodes true 2).Delivered tr := by
  have hend : (threeNodes true 2).outcome (publishAndRound ++ [.deliver 0, .deliver 0]) =
      some (true, [[seven], [seven], [seven]]) := by
    decide +kernel
  obtain ⟨tr, s, hrun, hquiet, haccepted, -⟩ := run_of_outcome hend
  have hcovers : (threeNodes true 2).Covers := ⟨rfl, by decide⟩
  exact ⟨tr, s, hrun, hquiet, haccepted, (delivered_iff hrun hquiet).mpr fun _ _ => hcovers⟩

theorem not_delivered (hfirst : "n1" ∈ c.nodes) (hsecond : "n2" ∈ c.nodes)
    {tr : List (GossipEvent ℕ)} (haccepted : acceptedBy "n1" tr = [seven])
    (hnone : invokedAt "n2" "n1" tr = []) : ¬ c.Delivered tr := by
  intro hdelivered
  have hle := (hdelivered "n1" hfirst "n2" hsecond (by decide)).length_le
  rw [haccepted, hnone] at hle
  exact Nat.not_succ_le_zero 0 hle

/-- With one peer a round the publication reaches one other node; unregistered batches reach none.
-/
theorem publication_lost : (∃ (tr : List (GossipEvent ℕ)) (s : GossipState Bytes),
      Run (threeNodes true 1).step anyStep (threeNodes true 1).start tr s ∧
        (threeNodes true 1).Quiet s ∧ acceptedBy "n1" tr = [seven] ∧
        invokedAt "n3" "n1" tr = [seven] ∧ invokedAt "n2" "n1" tr = [] ∧
        ¬ (threeNodes true 1).Delivered tr) ∧
    ∃ (tr : List (GossipEvent ℕ)) (s : GossipState Bytes),
      Run (threeNodes false 2).step anyStep (threeNodes false 2).start tr s ∧
        (threeNodes false 2).Quiet s ∧ acceptedBy "n1" tr = [seven] ∧
        invokedAt "n3" "n1" tr = [] ∧ invokedAt "n2" "n1" tr = [] ∧
        ¬ (threeNodes false 2).Delivered tr := by
  constructor
  · have hend : (threeNodes true 1).outcome (publishAndRound ++ [.deliver 0]) =
        some (true, [[seven], [], [seven]]) := by
      decide +kernel
    obtain ⟨tr, s, hrun, hquiet, haccepted, hsecond, hthird⟩ := run_of_outcome hend
    exact ⟨tr, s, hrun, hquiet, haccepted, hthird, hsecond,
      not_delivered (by decide) (by decide) haccepted hsecond⟩
  · have hend : (threeNodes false 2).outcome publishAndRound = some (true, [[seven], [], []]) := by
      decide +kernel
    obtain ⟨tr, s, hrun, hquiet, haccepted, hsecond, hthird⟩ := run_of_outcome hend
    exact ⟨tr, s, hrun, hquiet, haccepted, hthird, hsecond,
      not_delivered (by decide) (by decide) haccepted hsecond⟩

end GossipCluster
end Westcoast
