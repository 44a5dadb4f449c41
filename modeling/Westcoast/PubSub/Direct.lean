import Westcoast.Cluster.Ring
import Westcoast.PubSub.Gossip

/-!
# Publications by direct sends

`pubsub_adapter_direct.go` with the brokers of all nodes: `Broadcast` sends a publication to every
member, and a node that gets it calls `BrokerPublishRemote`, whose broker dispatches to its own
subscribers only. The transport hands an envelope over at most once, to any node; a node on the way
calls `SendRemote` for it again. `History` is what is handled and sent of one command, at all nodes
together. Each command has a number, which the source does not have and nothing here reads.
-/
namespace Westcoast

open Lib List BrokerEvent BrokerCommand PID AList Function

structure PubsubBroadcastMsg (β : Type) where
  topic : String
  payload : β
  publisherNode : String

inductive DirectValue (π β : Type)
  | payload (v : π)
  | msg (m : PubsubBroadcastMsg β)

structure DirectCodec (π β : Type) where
  encode : DirectValue π β → Option β
  decode : β → Option (DirectValue π β)
  roundTrip : ∀ v, (encode v).bind decode = some v

def pubsubEnvelopeType : String := "__pubsub_broadcast"

namespace DirectPubSubAdapter

variable {π β : Type}

/-- `Broadcast`: the envelopes it calls `SendRemote` with, or none at all if it returns an
error. -/
def broadcast (codec : DirectCodec π β) (localID : String) (members : List String) (topic : String)
    (payload : π) (publisherNode : String) : Option (List (RoutedEnvelope β)) := do
  let payloadBytes ← codec.encode (.payload payload)
  let encoded ← codec.encode (.msg ⟨topic, payloadBytes, publisherNode⟩)
  return members.map fun m => ⟨localID, m, pubsubEnvelopeType, encoded⟩

/-- `HandleInbound`: what the handler is called with. Bytes encoded by `broadcast` decode. -/
def handleInbound (codec : DirectCodec π β) (env : RoutedEnvelope β) :
    Option (RemotePublication π) :=
  match codec.decode env.payload with
  | some (.msg msg) =>
    match codec.decode msg.payload with
    | some (.payload v) => some ⟨msg.topic, v, msg.publisherNode⟩
    | _ => none
  | _ => none

theorem exists_encode (codec : DirectCodec π β) (v : DirectValue π β) :
    ∃ data, codec.encode v = some data ∧ codec.decode data = some v :=
  Option.bind_eq_some_iff.mp (codec.roundTrip v)

theorem broadcast_eq_some (codec : DirectCodec π β) (localID : String) (members : List String)
    (topic : String) (payload : π) (publisherNode : String) :
    ∃ envs, broadcast codec localID members topic payload publisherNode = some envs ∧
      envs.map (·.targetNode) = members ∧
      ∀ env ∈ envs, handleInbound codec env = some ⟨topic, payload, publisherNode⟩ := by
  obtain ⟨payloadBytes, hpayload, hpayload'⟩ := exists_encode codec (.payload payload)
  obtain ⟨encoded, hmsg, hmsg'⟩ := exists_encode codec (.msg ⟨topic, payloadBytes, publisherNode⟩)
  refine ⟨members.map fun m => ⟨localID, m, pubsubEnvelopeType, encoded⟩, ?_, ?_, ?_⟩
  · simp [broadcast, hpayload, hmsg]
  · rw [map_map]
    exact map_id members
  · intro env henv
    obtain ⟨m, -, rfl⟩ := mem_map.mp henv
    simp only [handleInbound, hmsg', hpayload']

end DirectPubSubAdapter

open DirectPubSubAdapter (handleInbound)

def defaultBrokerID (brokerID : String) : String :=
  if brokerID ≠ "" then brokerID else "__native_pubsub_broker"

/-- `Members`: known nodes other than the node itself, which have a name. -/
structure Peers (n : String) where
  ids : List String
  nodup : ids.Nodup
  others : n ∉ ids
  named : "" ∉ ids

structure BrokerMail (π : Type) where
  node : String
  brokerID : String
  tag : ℕ
  cmd : BrokerCommand π
  ask : Option AskRequestContext

structure Packet (β : Type) where
  tag : ℕ
  env : RoutedEnvelope β

/-- The codec, and the brokers to which the handlers of the adapters publish. -/
structure DirectConfig (π β : Type) where
  codec : DirectCodec π β
  brokerID : String → String

/-- The nodes and what is on its way. The mailboxes are one list, whose order counts for each broker
alone. -/
structure DirectCluster (π β : Type) where
  members : (n : String) → Peers n
  brokers : String → String → Broker
  mail : List (BrokerMail π)
  transit : List (Packet β)
  next : ℕ

inductive DirectEvent (π : Type)
  /-- A command is sent to a broker; the mailbox may refuse it. -/
  | submitted (tag : ℕ) (node : String) (cmd : BrokerCommand π)
  /-- A broker has handled a message, and sends to these subscribers. -/
  | processed (tag : ℕ) (node brokerID : String) (targets : List PID)
  /-- `Broadcast` is called, and `Members` returns these. -/
  | broadcast (tag : ℕ) (node : String) (members : List String)
  /-- `Broadcast` calls `SendRemote`. -/
  | sent (tag : ℕ) (node target : String)
  /-- `Dispatch` calls `SendRemote`. -/
  | forwarded (tag : ℕ) (node target : String)
  deriving DecidableEq

inductive DirectAction (π : Type)
  | members (n : String) (peers : Peers n)
  /-- `BrokerPublish` and the other commands. -/
  | submit (n brokerID : String) (cmd : BrokerCommand π) (ask : Option AskRequestContext)
      (accepted : Bool)
  | handle (i : ℕ)
  /-- The transport hands an envelope to the dispatcher of a node. -/
  | arrive (i : ℕ) (n : String) (accepted : Bool)
  | lose (i : ℕ)

section Readers

variable {π : Type}

def DirectEvent.tag : DirectEvent π → ℕ
  | submitted t _ _ | processed t _ _ _ | broadcast t _ _ | sent t _ _ | forwarded t _ _ => t

def DirectEvent.processedAt (k : String) : DirectEvent π → Bool
  | processed _ n _ _ => n = k
  | _ => false

def DirectEvent.sentTo? : DirectEvent π → Option (String × String)
  | sent _ n target => some (n, target)
  | _ => none

def DirectEvent.targetsAt (k : String) : DirectEvent π → List PID
  | processed _ n _ targets => if n = k then targets else []
  | _ => []

def BrokerEvent.targets : BrokerEvent π → List PID
  | dispatched _ _ _ targets => targets
  | _ => []

def BrokerEvent.broadcast? : BrokerEvent π → Option (String × π)
  | broadcast topic payload => some (topic, payload)
  | _ => none

/-- What `BrokerPublishRemote` sends to the broker, which no other caller does. -/
def BrokerCommand.isRemote : BrokerCommand π → Bool
  | remotePublish _ _ _ => true
  | _ => false

/-- The topic and the payload that a command makes its broker broadcast. -/
def BrokerCommand.outgoing : BrokerCommand π → Option (String × π)
  | publish topic payload _ => (parsePublishTopic topic).toOption.map fun _ => (topic, payload)
  | _ => none

end Readers

namespace DirectCluster

variable {π β : Type}

def new (members : (n : String) → Peers n) : DirectCluster π β :=
  ⟨members, fun _ _ => .new, [], [], 0⟩

/-- The envelopes for which the events of a broker make `Broadcast` call `SendRemote`. -/
def envelopes (cfg : DirectConfig π β) (n : String) (members : List String)
    (evs : List (BrokerEvent π)) : List (RoutedEnvelope β) :=
  (evs.filterMap broadcast?).flatMap fun x =>
    (DirectPubSubAdapter.broadcast cfg.codec n members x.1 x.2 n).getD []

def handle (cfg : DirectConfig π β) (s : DirectCluster π β) (i : ℕ) (m : BrokerMail π) :
    DirectCluster π β × List (DirectEvent π) :=
  let r := (s.brokers m.node m.brokerID).handler m.cmd m.ask
  let members := (s.members m.node).ids
  let envs := envelopes cfg m.node members r.2
  ({ s with
      brokers := update s.brokers m.node
        (update (s.brokers m.node) m.brokerID r.1)
      mail := s.mail.eraseIdx i
      transit := s.transit ++ envs.map (Packet.mk m.tag) },
    .processed m.tag m.node m.brokerID (r.2.flatMap targets) ::
      ((r.2.filterMap broadcast?).map fun _ => .broadcast m.tag m.node members) ++
      envs.map fun env => .sent m.tag m.node env.targetNode)

/-- `Dispatch` of an envelope: it is for another node, or for the handler of
`RegisterPubSubHandler`, which calls `HandleInbound`. -/
def dispatch (cfg : DirectConfig π β) (s : DirectCluster π β) (n : String) (p : Packet β)
    (accepted : Bool) : DirectCluster π β × List (DirectEvent π) :=
  if p.env.targetNode ≠ "" ∧ p.env.targetNode ≠ n then
    ({ s with transit := s.transit ++ [p] }, [.forwarded p.tag n p.env.targetNode])
  else if p.env.typeName = pubsubEnvelopeType then
    match handleInbound cfg.codec p.env with
    | none => (s, [])
    | some pub =>
      -- `BrokerPublishRemote`
      (if accepted then
        { s with mail := s.mail ++ [⟨n, defaultBrokerID (cfg.brokerID n), p.tag,
          .remotePublish pub.topic pub.payload pub.publisherNode, none⟩] }
      else s, [])
  else (s, [])

def step (cfg : DirectConfig π β) (s : DirectCluster π β) :
    DirectAction π → Option (DirectCluster π β × List (DirectEvent π))
  | .members n peers => some ({ s with members := update s.members n peers }, [])
  | .submit n brokerID cmd ask accepted =>
    if cmd.isRemote then none
    else
      some ({ s with
        mail := s.mail ++
          if accepted then [⟨n, defaultBrokerID brokerID, s.next, cmd, ask⟩] else []
        next := s.next + 1 }, [.submitted s.next n cmd])
  | .handle i =>
    match s.mail[i]? with
    | none => none
    | some m =>
      -- a mailbox is a queue
      if (s.mail.take i).any fun m' => m'.node = m.node && m'.brokerID = m.brokerID then none
      else some (s.handle cfg i m)
  | .arrive i n accepted =>
    match s.transit[i]? with
    | none => none
    | some p => some ({ s with transit := s.transit.eraseIdx i }.dispatch cfg n p accepted)
  | .lose i =>
    match s.transit[i]? with
    | none => none
    | some _ => some ({ s with transit := s.transit.eraseIdx i }, [])

end DirectCluster

/-! ### What a broker sends -/

namespace TrieNode

theorem keyed_new : Keyed new := by
  intro key segs pid _ h
  simp at h

theorem Keyed.insert {node : TrieNode} (h : node.Keyed) (q : PID) {segs : List String}
    (hne : segs ≠ []) (htail : TailOnly segs) : (node.insert q segs).Keyed := by
  intro key segs' pid htail' hrec
  rw [recorded_insert key q segs segs' node hne htail htail'] at hrec
  split_ifs at hrec with hhere
  · rw [hhere.2.2, Option.some.inj hrec]
  · exact h key segs' pid htail' hrec

end TrieNode

namespace Broker

variable {π : Type}

theorem keyed_rebuildTrie (byPattern : AList fun _ : String => Subscribers) :
    (rebuildTrie byPattern).Keyed := by
  obtain ⟨subs, htrie, -⟩ := exists_rebuildTrie byPattern
  rw [htrie]
  exact keyed_insertAll subs

variable {b : Broker}

theorem keyed_handler (h : b.trie.Keyed) (cmd : BrokerCommand π) (ask : Option AskRequestContext) :
    (b.handler cmd ask).1.trie.Keyed := by
  have heffect : Effect b (cmd, ask) (b.handler cmd ask).1 (b.handler cmd ask).2 := effect_step rfl
  cases heffect with
  | none hb =>
    rw [hb]
    exact h
  | subscribed pid raw p ask hmsg hp hb =>
    rw [hb, subscribe]
    split_ifs
    · exact h
    · obtain ⟨rfl, hne, htail⟩ := parse_ok hp
      exact h.insert pid hne htail
  | unsubscribed pid raw p ask hmsg hp hstored hb =>
    rw [hb]
    exact keyed_rebuildTrie _

def offTopic (e : BrokerEvent π) : Bool := e.targets.isEmpty && e.broadcast?.isNone

/-- A message is handled as a publication, which a remote one does not pass on, or it says nothing
about a topic. -/
theorem handler_cases (b : Broker) (cmd : BrokerCommand π) (ask : Option AskRequestContext) :
    (∃ topic payload publisher isRemote,
      (b.handler cmd ask).2 = b.handlePublish topic payload publisher isRemote ∧
      cmd.outgoing = if isRemote then none else (publish topic payload publisher).outgoing) ∨
    (b.handler cmd ask).2.all offTopic = true ∧ cmd.outgoing = none := by
  cases cmd with
  | publish topic payload publisher => exact .inl ⟨topic, payload, publisher, false, rfl, rfl⟩
  | remotePublish topic payload publisher =>
    exact .inl ⟨topic, payload, publisher, true, rfl, rfl⟩
  | other => cases ask <;> exact .inr ⟨rfl, rfl⟩
  | subscribe pid pattern | unsubscribe pid pattern =>
    refine .inr ⟨?_, rfl⟩
    cases ask with
    | none => rfl
    | some ask =>
      simp only [handler, handleSubscribe, handleUnsubscribe]
      split
      · rfl
      · split_ifs <;> rfl

variable {evs : List (BrokerEvent π)}

theorem targets_of_offTopic (h : evs.all offTopic = true) : evs.flatMap targets = [] := by
  refine flatMap_eq_nil_iff.mpr fun e he => isEmpty_iff.mp ?_
  exact (Bool.and_eq_true_iff.mp (all_eq_true.mp h e he)).1

theorem broadcast_of_offTopic (h : evs.all offTopic = true) : evs.filterMap broadcast? = [] := by
  refine filterMap_eq_nil_iff.mpr fun e he => Option.isNone_iff_eq_none.mp ?_
  exact (Bool.and_eq_true_iff.mp (all_eq_true.mp h e he)).2

theorem nodup_targets (h : b.trie.Keyed) (cmd : BrokerCommand π) (ask : Option AskRequestContext) :
    (((b.handler cmd ask).2.flatMap targets).map key).Nodup := by
  rcases handler_cases b cmd ask with ⟨topic, payload, publisher, isRemote, heq, -⟩ | ⟨hoff, -⟩
  · simp only [heq, handlePublish]
    split
    · exact nodup_nil
    · next segs hsegs =>
      have hnodup := h.nodup_matchTopic ⟨topic, segs, hsegs⟩
      cases isRemote <;> split_ifs <;> simp [targets, hnodup]
  · rw [targets_of_offTopic hoff]
    exact nodup_nil

theorem broadcast_handler (b : Broker) (cmd : BrokerCommand π) (ask : Option AskRequestContext) :
    (b.handler cmd ask).2.filterMap broadcast? = cmd.outgoing.toList := by
  rcases handler_cases b cmd ask with
    ⟨topic, payload, publisher, isRemote, heq, hout⟩ | ⟨hoff, hout⟩
  · rw [heq, hout]
    simp only [handlePublish, outgoing]
    cases hparse : parsePublishTopic topic with
    | error e => cases isRemote <;> rfl
    | ok segs => cases isRemote <;> simp only [] <;> split_ifs <;> rfl
  · rw [broadcast_of_offTopic hoff, hout]
    rfl

end Broker

namespace DirectCluster

variable {π β : Type}

/-! ### What a step does -/

inductive Moves (cfg : DirectConfig π β) (s : DirectCluster π β) :
    DirectCluster π β → List (DirectEvent π) → Prop
  | members (n : String) (peers : Peers n) :
      Moves cfg s { s with members := update s.members n peers } []
  | submit (n b : String) (cmd : BrokerCommand π) (ask : Option AskRequestContext)
      (added : List (BrokerMail π)) (hadded : added = [] ∨ added = [⟨n, b, s.next, cmd, ask⟩]) :
      Moves cfg s { s with mail := s.mail ++ added, next := s.next + 1 }
        [.submitted s.next n cmd]
  | handle (i : ℕ) (m : BrokerMail π) (hm : s.mail[i]? = some m) :
      Moves cfg s (s.handle cfg i m).1 (s.handle cfg i m).2
  | lose (i : ℕ) (p : Packet β) (hp : s.transit[i]? = some p) :
      Moves cfg s { s with transit := s.transit.eraseIdx i } []
  | forward (i : ℕ) (p : Packet β) (n : String) (hp : s.transit[i]? = some p)
      (hother : p.env.targetNode ≠ n) :
      Moves cfg s { s with transit := s.transit.eraseIdx i ++ [p] }
        [.forwarded p.tag n p.env.targetNode]
  | deliver (i : ℕ) (p : Packet β) (n b : String) (pub : RemotePublication π)
      (hp : s.transit[i]? = some p) (hhere : p.env.targetNode ≠ "" → p.env.targetNode = n)
      (hpub : handleInbound cfg.codec p.env = some pub) :
      Moves cfg s { s with
        mail := s.mail ++ [⟨n, b, p.tag,
          .remotePublish pub.topic pub.payload pub.publisherNode, none⟩]
        transit := s.transit.eraseIdx i } []

variable {cfg : DirectConfig π β} {s s' : DirectCluster π β} {es tr : List (DirectEvent π)}

theorem moves_dispatch {i : ℕ} {p : Packet β} (hp : s.transit[i]? = some p) {n : String}
    {accepted : Bool}
    (hd : { s with transit := s.transit.eraseIdx i }.dispatch cfg n p accepted = (s', es)) :
    Moves cfg s s' es := by
  unfold DirectCluster.dispatch at hd
  split at hd
  · next hforward =>
    cases hd
    exact .forward i p n hp hforward.2
  · next hforward =>
    have hhere : p.env.targetNode ≠ "" → p.env.targetNode = n := by
      intro hne
      by_contra hother
      exact hforward ⟨hne, hother⟩
    split at hd
    · cases hpub : handleInbound cfg.codec p.env with
      | none =>
        rw [hpub] at hd
        cases hd
        exact .lose i p hp
      | some pub =>
        rw [hpub] at hd
        cases accepted with
        | false =>
          cases hd
          exact .lose i p hp
        | true =>
          cases hd
          exact .deliver i p n _ pub hp hhere hpub
    · cases hd
      exact .lose i p hp

theorem step_moves {a : DirectAction π} (hs : s.step cfg a = some (s', es)) :
    Moves cfg s s' es := by
  cases a with
  | members n peers =>
    cases hs
    exact .members n peers
  | submit n brokerID cmd ask accepted =>
    simp only [DirectCluster.step] at hs
    split_ifs at hs <;> cases hs
    · exact .submit n (defaultBrokerID brokerID) cmd ask _ (.inr rfl)
    · exact .submit n (defaultBrokerID brokerID) cmd ask _ (.inl rfl)
  | handle i =>
    simp only [DirectCluster.step] at hs
    split at hs
    · cases hs
    · next m hm =>
      split_ifs at hs
      cases hs
      exact .handle i m hm
  | arrive i n accepted =>
    simp only [DirectCluster.step] at hs
    split at hs
    · cases hs
    · next p hp => exact moves_dispatch hp (Option.some.inj hs)
  | lose i =>
    simp only [DirectCluster.step] at hs
    split at hs
    · cases hs
    · next p hp =>
      cases hs
      exact .lose i p hp

/-! ### What becomes of one command -/

/-- The nodes that are sent a command of a node with these members. -/
def receivers (cmd : BrokerCommand π) (ids : List String) : List String :=
  if cmd.outgoing.isSome then ids else []

def sends (t : ℕ) (n : String) (cmd : BrokerCommand π) (ids : List String) : List (DirectEvent π) :=
  cmd.outgoing.toList.flatMap fun _ => .broadcast t n ids :: ids.map (.sent t n)

/-- An envelope, or a message, is the publication that the command makes. -/
def Carries (cmd : BrokerCommand π) (n : String) (pub : RemotePublication π) : Prop :=
  cmd.outgoing.map (fun x => ⟨x.1, x.2, n⟩) = some pub

theorem handle_transit (cfg : DirectConfig π β) (s : DirectCluster π β) (i : ℕ) (m : BrokerMail π) :
    ∃ envs : List (RoutedEnvelope β),
      envs = envelopes cfg m.node (s.members m.node).ids
        ((s.brokers m.node m.brokerID).handler m.cmd m.ask).2 ∧
      (s.handle cfg i m).1.transit = s.transit ++ envs.map (Packet.mk m.tag) ∧
      envs.map (·.targetNode) = receivers m.cmd (s.members m.node).ids ∧
      ∀ env ∈ envs, ∃ pub, handleInbound cfg.codec env = some pub ∧ Carries m.cmd m.node pub := by
  refine ⟨_, rfl, rfl, ?_⟩
  simp only [envelopes, Broker.broadcast_handler, receivers, Carries]
  cases m.cmd.outgoing with
  | none => exact ⟨rfl, fun env henv => absurd henv not_mem_nil⟩
  | some x =>
    obtain ⟨envs, henvs, htargets, hinbound⟩ := DirectPubSubAdapter.broadcast_eq_some cfg.codec
      m.node (s.members m.node).ids x.1 x.2 m.node
    have hflat : (some x).toList.flatMap (fun x => (DirectPubSubAdapter.broadcast cfg.codec m.node
        (s.members m.node).ids x.1 x.2 m.node).getD []) = envs := by
      simp [henvs]
    rw [hflat]
    exact ⟨htargets, fun env henv => ⟨_, hinbound env henv, rfl⟩⟩

theorem handle_events (cfg : DirectConfig π β) (s : DirectCluster π β) (i : ℕ) (m : BrokerMail π) :
    (s.handle cfg i m).2 = .processed m.tag m.node m.brokerID
      (((s.brokers m.node m.brokerID).handler m.cmd m.ask).2.flatMap targets) ::
        sends m.tag m.node m.cmd (s.members m.node).ids := by
  obtain ⟨envs, henvs, -, htargets, -⟩ := handle_transit cfg s i m
  have hsent : envs.map (fun env => (.sent m.tag m.node env.targetNode : DirectEvent π)) =
      (receivers m.cmd (s.members m.node).ids).map (.sent m.tag m.node) := by
    rw [← htargets, map_map]
    rfl
  simp only [handle, ← henvs, hsent, sends, receivers, Broker.broadcast_handler]
  cases m.cmd.outgoing <;> simp

/-- What happens to a command after its own broker has handled it. -/
inductive Later (t : ℕ) (receivers : List String) : DirectEvent π → Prop
  | processed (k b : String) (targets : List PID) (hkeys : (targets.map key).Nodup) :
      Later t receivers (.processed t k b targets)
  | forwarded (k target : String) (hother : target ≠ k) (htarget : target ∈ receivers) :
      Later t receivers (.forwarded t k target)

open DirectEvent (processedAt tag sentTo? sent targetsAt)

/-- The messages, envelopes and events of one command: the broker it was sent to handles it; from
then on every receiver has it once, in an envelope, in a mailbox or handled, or has lost it. -/
inductive History (cfg : DirectConfig π β) (t : ℕ) :
    List (BrokerMail π) → List (Packet β) → List (DirectEvent π) → Prop
  | unborn : History cfg t [] [] []
  | waiting (n b : String) (cmd : BrokerCommand π) (ask : Option AskRequestContext)
      {mail : List (BrokerMail π)} (hmail : mail = [] ∨ mail = [⟨n, b, t, cmd, ask⟩]) :
      History cfg t mail [] [.submitted t n cmd]
  | handled (n b : String) (cmd : BrokerCommand π) (peers : Peers n) (targets : List PID)
      {mail : List (BrokerMail π)} {transit : List (Packet β)} {later : List (DirectEvent π)}
      (hkeys : (targets.map key).Nodup)
      (hmail : ∀ m ∈ mail, ∃ pub, Carries cmd n pub ∧
        m.cmd = .remotePublish pub.topic pub.payload pub.publisherNode)
      (htransit : ∀ p ∈ transit, ∃ pub,
        handleInbound cfg.codec p.env = some pub ∧ Carries cmd n pub)
      (hlater : ∀ e ∈ later, Later t (receivers cmd peers.ids) e)
      (hcount : ∀ k, mail.countP (·.node = k) + transit.countP (·.env.targetNode = k) +
        later.countP (processedAt k) ≤ (receivers cmd peers.ids).count k) :
      History cfg t mail transit
        (.submitted t n cmd :: .processed t n b targets :: sends t n cmd peers.ids ++ later)

namespace History

variable {cfg : DirectConfig π β} {t : ℕ} {mail mail' : List (BrokerMail π)}
  {transit transit' : List (Packet β)} {evs : List (DirectEvent π)}

theorem perm (h : History cfg t mail transit evs) (hmail : mail.Perm mail')
    (htransit : transit.Perm transit') : History cfg t mail' transit' evs := by
  cases h with
  | unborn =>
    rw [nil_perm.mp hmail, nil_perm.mp htransit]
    exact .unborn
  | waiting n b cmd ask hold =>
    rw [nil_perm.mp htransit]
    refine .waiting n b cmd ask ?_
    rcases hold with rfl | rfl
    · exact .inl (nil_perm.mp hmail)
    · exact .inr (singleton_perm.mp hmail).symm
  | handled n b cmd peers targets hkeys hold hold' hlater hcount =>
    refine .handled n b cmd peers targets hkeys (fun m hm => hold m (hmail.mem_iff.mpr hm))
      (fun p hp => hold' p (htransit.mem_iff.mpr hp)) hlater fun k => ?_
    rw [← hmail.countP_eq, ← htransit.countP_eq]
    exact hcount k

theorem handle {m : BrokerMail π} (h : History cfg t (m :: mail) transit evs) {peers : Peers m.node}
    {targets : List PID} (hkeys : (targets.map key).Nodup) {envs : List (RoutedEnvelope β)}
    (htargets : envs.map (·.targetNode) = receivers m.cmd peers.ids)
    (hcarries : ∀ env ∈ envs, ∃ pub, handleInbound cfg.codec env = some pub ∧
      Carries m.cmd m.node pub) :
    History cfg t mail (transit ++ envs.map (Packet.mk t))
      (evs ++ .processed t m.node m.brokerID targets :: sends t m.node m.cmd peers.ids) := by
  cases h with
  | waiting n b cmd ask hold =>
    obtain ⟨rfl, rfl⟩ : m = ⟨n, b, t, cmd, ask⟩ ∧ mail = [] := by simpa using hold
    have hsent : ∀ p ∈ ([] ++ envs.map (Packet.mk t)), ∃ pub,
        handleInbound cfg.codec p.env = some pub ∧ Carries cmd n pub := by
      intro p hp
      obtain ⟨env, henv, rfl⟩ := mem_map.mp (nil_append _ ▸ hp)
      exact hcarries env henv
    have hcount : ∀ k, (envs.map (Packet.mk t)).countP (fun p => p.env.targetNode = k) =
        (receivers cmd peers.ids).count k := by
      intro k
      rw [← htargets, countP_map, List.count, countP_map]
      rfl
    have hnew : History cfg t [] ([] ++ envs.map (Packet.mk t))
        (.submitted t n cmd :: .processed t n b targets :: sends t n cmd peers.ids ++ []) :=
      .handled n b cmd peers targets hkeys (fun m hm => absurd hm not_mem_nil) hsent
        (fun e he => absurd he not_mem_nil) fun k => by simp [hcount k]
    rw [append_nil] at hnew
    exact hnew
  | handled n b cmd peers' targets' hkeys' hmail htransit hlater hcount =>
    -- the message came with an envelope, so nothing is broadcast
    obtain ⟨pub, -, hcmd⟩ := hmail m mem_cons_self
    have henvs : envs = [] := by
      rw [hcmd] at htargets
      exact map_eq_nil_iff.mp htargets
    have hsends : sends t m.node m.cmd peers.ids = [] := by
      rw [hcmd]
      rfl
    rw [henvs, hsends, map_nil, append_nil, cons_append, cons_append,
      append_assoc]
    refine .handled n b cmd peers' targets' hkeys'
      (fun m' hm' => hmail m' (mem_cons_of_mem m hm')) htransit ?_ fun k => ?_
    · intro e he
      rcases mem_append.mp he with he | he
      · exact hlater e he
      · rw [mem_singleton.mp he]
        exact .processed m.node m.brokerID targets hkeys
    · have hk := hcount k
      rw [countP_cons] at hk
      rw [countP_append, countP_singleton]
      simp only [processedAt, decide_eq_true_eq] at hk ⊢
      omega

variable {p : Packet β}

theorem mem_of_count {ids : List String} {before after : String → ℕ}
    (h : ∀ k, before k + (p :: transit).countP (·.env.targetNode = k) + after k ≤ ids.count k) :
    p.env.targetNode ∈ ids := by
  have hk := h p.env.targetNode
  rw [countP_cons, if_pos (by simp)] at hk
  exact count_pos_iff.mp (by omega)

variable (h : History cfg t mail (p :: transit) evs)
include h

theorem receiver : p.env.targetNode ≠ "" := by
  cases h with
  | handled n b cmd peers targets hkeys hmail htransit hlater hcount =>
    have hmem : p.env.targetNode ∈ receivers cmd peers.ids := mem_of_count hcount
    intro hempty
    rw [hempty] at hmem
    unfold receivers at hmem
    split_ifs at hmem
    · exact peers.named hmem
    · exact not_mem_nil hmem

theorem lose : History cfg t mail transit evs := by
  cases h with
  | handled n b cmd peers targets hkeys hmail htransit hlater hcount =>
    refine .handled n b cmd peers targets hkeys hmail
      (fun q hq => htransit q (mem_cons_of_mem p hq)) hlater fun k => ?_
    have hk := hcount k
    rw [countP_cons] at hk
    omega

theorem forward {k : String} (hother : p.env.targetNode ≠ k) :
    History cfg t mail (p :: transit) (evs ++ [.forwarded t k p.env.targetNode]) := by
  cases h with
  | handled n b cmd peers targets hkeys hmail htransit hlater hcount =>
    have hmem : p.env.targetNode ∈ receivers cmd peers.ids := mem_of_count hcount
    rw [cons_append, cons_append, append_assoc]
    refine .handled n b cmd peers targets hkeys hmail htransit ?_ fun j => ?_
    · intro e he
      rcases mem_append.mp he with he | he
      · exact hlater e he
      · rw [mem_singleton.mp he]
        exact .forwarded k p.env.targetNode hother hmem
    · rw [countP_append]
      simpa [processedAt] using hcount j

theorem deliver (brokerID : String) {pub : RemotePublication π}
    (hpub : handleInbound cfg.codec p.env = some pub) :
    History cfg t (⟨p.env.targetNode, brokerID, t,
      .remotePublish pub.topic pub.payload pub.publisherNode, none⟩ :: mail) transit evs := by
  cases h with
  | handled n b cmd peers targets hkeys hmail htransit hlater hcount =>
    refine .handled n b cmd peers targets hkeys ?_
      (fun q hq => htransit q (mem_cons_of_mem p hq)) hlater fun k => ?_
    · intro m hm
      rcases mem_cons.mp hm with rfl | hm
      · obtain ⟨pub', hpub', hcarries⟩ := htransit p mem_cons_self
        rw [hpub] at hpub'
        cases hpub'
        exact ⟨pub, hcarries, rfl⟩
      · exact hmail m hm
    · have hk := hcount k
      rw [countP_cons] at hk ⊢
      simp only [decide_eq_true_eq] at hk ⊢
      omega

end History

/-! ### Runs -/

def mailOf (t : ℕ) (s : DirectCluster π β) : List (BrokerMail π) := s.mail.filter (·.tag = t)

def transitOf (t : ℕ) (s : DirectCluster π β) : List (Packet β) := s.transit.filter (·.tag = t)

def eventsOf (t : ℕ) (tr : List (DirectEvent π)) : List (DirectEvent π) := tr.filter (·.tag = t)

variable {t : ℕ}

theorem filter_of_tag {α : Type} {tag : α → ℕ} {l : List α} {u : ℕ} (h : ∀ a ∈ l, tag a = u)
    (t : ℕ) : l.filter (fun a => tag a = t) = if u = t then l else [] := by
  split_ifs with ht
  · exact filter_eq_self.mpr fun a ha => decide_eq_true ((h a ha).trans ht)
  · exact filter_eq_nil_iff.mpr fun a ha => by simpa [h a ha] using ht

theorem eventsOf_append {u : ℕ} (h : ∀ e ∈ es, e.tag = u) :
    eventsOf t (tr ++ es) = eventsOf t tr ++ if u = t then es else [] := by
  rw [eventsOf, filter_append, filter_of_tag h]
  rfl

section Taken

variable {α : Type} {l : List α} {i : ℕ} {a : α} {p : α → Bool}

theorem filter_perm_of_mem (h : l[i]? = some a) (hp : p a = true) :
    (l.filter p).Perm (a :: (l.eraseIdx i).filter p) := by
  obtain ⟨hlt, rfl⟩ := List.getElem?_eq_some_iff.mp h
  rw [← filter_cons_of_pos hp]
  exact (getElem_cons_eraseIdx_perm hlt).symm.filter p

theorem filter_perm_of_not_mem (h : l[i]? = some a) (hp : p a = false) :
    (l.filter p).Perm ((l.eraseIdx i).filter p) := by
  obtain ⟨hlt, rfl⟩ := List.getElem?_eq_some_iff.mp h
  have hdrop : (l[i] :: l.eraseIdx i).filter p = (l.eraseIdx i).filter p :=
    filter_cons_of_neg (Bool.not_eq_true _ ▸ hp)
  rw [← hdrop]
  exact (getElem_cons_eraseIdx_perm hlt).symm.filter p

end Taken

/-- Every command has its history, and every broker its subscribers under their keys. -/
structure Tracked (cfg : DirectConfig π β) (tr : List (DirectEvent π)) (s : DirectCluster π β) :
    Prop where
  history : ∀ t, History cfg t (s.mailOf t) (s.transitOf t) (eventsOf t tr)
  fresh : ∀ e ∈ tr, e.tag < s.next
  keyed : ∀ n b, (s.brokers n b).trie.Keyed

theorem tracked_new (cfg : DirectConfig π β) (members : (n : String) → Peers n) :
    Tracked cfg [] (new members) :=
  ⟨fun _ => .unborn, fun _ he => absurd he not_mem_nil, fun _ _ => TrieNode.keyed_new⟩

section Steps

variable {cfg : DirectConfig π β} {tr : List (DirectEvent π)} {s : DirectCluster π β} {t i : ℕ}

theorem History.evs_ne_nil {mail : List (BrokerMail π)} {transit : List (Packet β)}
    {evs : List (DirectEvent π)} (h : History cfg t mail transit evs)
    (hsome : mail ≠ [] ∨ transit ≠ []) : evs ≠ [] := by
  cases h with
  | unborn => simp at hsome
  | waiting | handled => exact cons_ne_nil _ _

theorem Tracked.lt_next (h : Tracked cfg tr s) (hsome : s.mailOf t ≠ [] ∨ s.transitOf t ≠ []) :
    t < s.next := by
  obtain ⟨e, he⟩ := exists_mem_of_ne_nil _ ((h.history t).evs_ne_nil hsome)
  obtain ⟨hmem, htag⟩ := mem_filter.mp he
  rw [← of_decide_eq_true htag]
  exact h.fresh e hmem

variable {es : List (DirectEvent π)}

theorem Tracked.fresh_append {u : ℕ} (h : Tracked cfg tr s) (hes : ∀ e ∈ es, e.tag = u)
    (hu : u < s.next) : ∀ e ∈ tr ++ es, e.tag < s.next := by
  intro e he
  rcases mem_append.mp he with he | he
  · exact h.fresh e he
  · rw [hes e he]
    exact hu

variable {m : BrokerMail π}

theorem tag_handle : ∀ e ∈ (s.handle cfg i m).2, e.tag = m.tag := by
  intro e he
  rw [handle_events] at he
  rcases mem_cons.mp he with rfl | he
  · rfl
  · obtain ⟨x, -, he⟩ := mem_flatMap.mp he
    rcases mem_cons.mp he with rfl | he
    · rfl
    · obtain ⟨peer, -, rfl⟩ := mem_map.mp he
      rfl

variable (h : Tracked cfg tr s)
include h

theorem Tracked.handle (hm : s.mail[i]? = some m) :
    Tracked cfg (tr ++ (s.handle cfg i m).2) (s.handle cfg i m).1 := by
  obtain ⟨envs, -, htransit, htargets, hcarries⟩ := handle_transit cfg s i m
  refine ⟨fun t => ?_, ?_, fun n b => ?_⟩
  · have hpart : (s.handle cfg i m).1.transitOf t =
        s.transitOf t ++ if m.tag = t then envs.map (Packet.mk m.tag) else [] := by
      rw [transitOf, htransit, filter_append,
        filter_of_tag (l := envs.map _) (u := m.tag) (by simp)]
      rfl
    rw [eventsOf_append tag_handle, hpart]
    by_cases ht : m.tag = t
    · subst ht
      have hold : History cfg m.tag (m :: (s.mail.eraseIdx i).filter (·.tag = m.tag))
          (s.transitOf m.tag) (eventsOf m.tag tr) :=
        (h.history m.tag).perm (filter_perm_of_mem hm (by simp)) (.refl _)
      rw [if_pos rfl, if_pos rfl, handle_events]
      exact hold.handle (Broker.nodup_targets (h.keyed m.node m.brokerID) m.cmd m.ask) htargets
        hcarries
    · rw [if_neg ht, if_neg ht, append_nil, append_nil]
      exact (h.history t).perm (filter_perm_of_not_mem hm (by simpa using ht)) (.refl _)
  · have hmem : m ∈ s.mailOf m.tag :=
      mem_filter.mpr ⟨mem_of_getElem? hm, decide_eq_true rfl⟩
    exact h.fresh_append tag_handle (h.lt_next (.inl (ne_nil_of_mem hmem)))
  · have hkeyed := Broker.keyed_handler (h.keyed m.node m.brokerID) m.cmd m.ask
    by_cases hn : n = m.node
    · subst hn
      by_cases hb : b = m.brokerID
      · subst hb
        simpa [DirectCluster.handle] using hkeyed
      · simpa [DirectCluster.handle, update_of_ne hb] using h.keyed m.node b
    · simpa [DirectCluster.handle, update_of_ne hn] using h.keyed n b

theorem Tracked.submit (n brokerID : String) (cmd : BrokerCommand π)
    (ask : Option AskRequestContext) {added : List (BrokerMail π)}
    (hadded : added = [] ∨ added = [⟨n, brokerID, s.next, cmd, ask⟩]) :
    Tracked cfg (tr ++ [.submitted s.next n cmd])
      { s with mail := s.mail ++ added, next := s.next + 1 } := by
  refine ⟨fun t => ?_, ?_, h.keyed⟩
  · have hpart : added.filter (·.tag = t) = if s.next = t then added else [] :=
      filter_of_tag (by rcases hadded with rfl | rfl <;> simp) t
    rw [eventsOf_append (u := s.next) (by simp [tag])]
    simp only [mailOf, transitOf, filter_append, hpart]
    by_cases ht : s.next = t
    · subst ht
      -- nothing is there of a number that was not given yet
      have hnone : ¬ (s.mailOf s.next ≠ [] ∨ s.transitOf s.next ≠ []) :=
        fun hsome => absurd (h.lt_next hsome) (lt_irrefl _)
      obtain ⟨hmail, htransit⟩ : s.mailOf s.next = [] ∧ s.transitOf s.next = [] := by
        simpa [not_not] using hnone
      have hevents : eventsOf s.next tr = [] :=
        filter_eq_nil_iff.mpr fun e he => by simpa using (h.fresh e he).ne
      simp only [mailOf, transitOf] at hmail htransit
      rw [hmail, htransit, hevents, if_pos rfl, if_pos rfl]
      exact .waiting n brokerID cmd ask hadded
    · rw [if_neg ht, if_neg ht, append_nil, append_nil]
      exact h.history t
  · intro e he
    rcases mem_append.mp he with he | he
    · exact Nat.lt_succ_of_lt (h.fresh e he)
    · rw [mem_singleton.mp he]
      exact Nat.lt_succ_self _

variable {p : Packet β}

section
variable (hp : s.transit[i]? = some p)
include hp

theorem Tracked.taken :
    History cfg p.tag (s.mailOf p.tag) (p :: (s.transit.eraseIdx i).filter (·.tag = p.tag))
      (eventsOf p.tag tr) :=
  (h.history p.tag).perm (.refl _) (filter_perm_of_mem hp (by simp))

theorem Tracked.taken_other (ht : p.tag ≠ t) :
    History cfg t (s.mailOf t) ((s.transit.eraseIdx i).filter (·.tag = t)) (eventsOf t tr) :=
  (h.history t).perm (.refl _) (filter_perm_of_not_mem hp (by simpa using ht))

theorem Tracked.lose : Tracked cfg tr { s with transit := s.transit.eraseIdx i } := by
  refine ⟨fun t => ?_, h.fresh, h.keyed⟩
  by_cases ht : p.tag = t
  · subst ht
    exact (h.taken hp).lose
  · exact h.taken_other hp ht

theorem Tracked.forward {n : String} (hother : p.env.targetNode ≠ n) :
    Tracked cfg (tr ++ [.forwarded p.tag n p.env.targetNode])
      { s with transit := s.transit.eraseIdx i ++ [p] } := by
  refine ⟨fun t => ?_, ?_, h.keyed⟩
  · rw [eventsOf_append (u := p.tag) (by simp [tag]), transitOf, filter_append,
      filter_of_tag (l := [p]) (u := p.tag) (by simp)]
    by_cases ht : p.tag = t
    · subst ht
      rw [if_pos rfl, if_pos rfl]
      exact ((h.taken hp).forward hother).perm (.refl _) (perm_append_singleton p _).symm
    · rw [if_neg ht, if_neg ht, append_nil, append_nil]
      exact h.taken_other hp ht
  · have hmem : p ∈ s.transitOf p.tag :=
      mem_filter.mpr ⟨mem_of_getElem? hp, decide_eq_true rfl⟩
    exact h.fresh_append (by simp [tag]) (h.lt_next (.inr (ne_nil_of_mem hmem)))

theorem Tracked.deliver {brokerID : String} {pub : RemotePublication π}
    (hpub : handleInbound cfg.codec p.env = some pub) : Tracked cfg tr { s with
      mail := s.mail ++ [⟨p.env.targetNode, brokerID, p.tag,
        .remotePublish pub.topic pub.payload pub.publisherNode, none⟩]
      transit := s.transit.eraseIdx i } := by
  refine ⟨fun t => ?_, h.fresh, h.keyed⟩
  rw [mailOf, filter_append, filter_of_tag (l := [_]) (u := p.tag) (by simp)]
  by_cases ht : p.tag = t
  · subst ht
    rw [if_pos rfl]
    exact ((h.taken hp).deliver brokerID hpub).perm (perm_append_singleton _ _).symm (.refl _)
  · rw [if_neg ht, append_nil]
    exact h.taken_other hp ht

end

theorem Tracked.step {a : DirectAction π} {s' : DirectCluster π β}
    (hs : s.step cfg a = some (s', es)) : Tracked cfg (tr ++ es) s' := by
  cases step_moves hs with
  | members n peers =>
    rw [append_nil]
    exact ⟨h.history, h.fresh, h.keyed⟩
  | submit n b cmd ask added hadded => exact h.submit n b cmd ask hadded
  | handle i m hm => exact h.handle hm
  | lose i p hp =>
    rw [append_nil]
    exact h.lose hp
  | forward i p n hp hother => exact h.forward hp hother
  | deliver i p n b pub hp hhere hpub =>
    rw [append_nil, ← hhere (h.taken hp).receiver]
    exact h.deliver hp hpub

end Steps

theorem tracked_of_run {members : (n : String) → Peers n}
    (h : Run (step cfg) anyStep (new members) tr s) : Tracked cfg tr s :=
  h.invariant (Tracked cfg) (tracked_new cfg members) fun _ _ _ _ _ ih _ hs => ih.step hs

/-! ### What the history of a command says -/

section Reading

variable {t : ℕ} {n : String} {cmd : BrokerCommand π} {ids : List String} {e : DirectEvent π}

theorem mem_sends (h : e ∈ sends t n cmd ids) : e = .broadcast t n ids ∨ ∃ k, e = .sent t n k := by
  obtain ⟨x, -, he⟩ := mem_flatMap.mp h
  rcases mem_cons.mp he with rfl | he
  · exact .inl rfl
  · obtain ⟨k, -, rfl⟩ := mem_map.mp he
    exact .inr ⟨k, rfl⟩

variable {later : List (DirectEvent π)}

theorem mem_handled {b : String} {targets : List PID} {sent : List (DirectEvent π)}
    (h : e ∈ .submitted t n cmd :: .processed t n b targets :: sent ++ later) :
    e = .submitted t n cmd ∨ e = .processed t n b targets ∨ e ∈ sent ∨ e ∈ later := by
  simpa using h

theorem sentTo_sends (t : ℕ) (n : String) (cmd : BrokerCommand π) (ids : List String) :
    (sends t n cmd ids).filterMap sentTo? = (receivers cmd ids).map fun k => (n, k) := by
  unfold sends receivers
  cases cmd.outgoing with
  | none => rfl
  | some x =>
    have hmap : (ids.map (sent (π := π) t n)).filterMap sentTo? = ids.map fun k => (n, k) := by
      rw [filterMap_map, ← filterMap_eq_map]
      rfl
    rw [Option.toList_some, flatMap_singleton, filterMap_cons, hmap]
    rfl

theorem sentTo_later (h : ∀ e ∈ later, Later t ids e) : later.filterMap sentTo? = [] := by
  refine filterMap_eq_nil_iff.mpr fun e he => ?_
  cases h e he <;> rfl

theorem processedAt_sends (t : ℕ) (n : String) (cmd : BrokerCommand π) (ids : List String)
    (k : String) : (sends t n cmd ids).countP (processedAt k) = 0 := by
  refine countP_eq_zero.mpr fun e he => ?_
  rcases mem_sends he with rfl | ⟨j, rfl⟩ <;> exact Bool.false_ne_true

theorem nodup_receivers (peers : Peers n) (cmd : BrokerCommand π) :
    (receivers cmd peers.ids).Nodup ∧ n ∉ receivers cmd peers.ids := by
  unfold receivers
  split
  · exact ⟨peers.nodup, peers.others⟩
  · exact ⟨nodup_nil, not_mem_nil⟩

theorem nodup_keys {k : String} {evs : List (DirectEvent π)}
    (hkeys : ∀ e ∈ evs, ((e.targetsAt k).map key).Nodup) (honce : evs.countP (processedAt k) ≤ 1) :
    ((evs.flatMap (targetsAt k)).map key).Nodup := by
  have hnone : ∀ e : DirectEvent π, e.processedAt k = false → e.targetsAt k = [] := by
    intro e he
    cases e with
    | processed t n b targets => exact if_neg (of_decide_eq_false he)
    | _ => rfl
  induction evs with
  | nil => exact nodup_nil
  | cons e evs ih =>
    rw [flatMap_cons]
    rw [countP_cons] at honce
    cases hhere : e.processedAt k with
    | false =>
      rw [hnone e hhere, nil_append]
      exact ih (fun e' he' => hkeys e' (mem_cons_of_mem e he'))
        (Nat.le_of_add_right_le honce)
    | true =>
      -- the node has had the command, so the rest of the events are elsewhere
      have hzero : evs.countP (processedAt k) = 0 := by
        rw [if_pos hhere] at honce
        omega
      have hrest : evs.flatMap (targetsAt k) = [] :=
        flatMap_eq_nil_iff.mpr fun e' he' =>
          hnone e' (Bool.eq_false_iff.mpr (countP_eq_zero.mp hzero e' he'))
      rw [hrest, append_nil]
      exact hkeys e mem_cons_self

variable {cfg : DirectConfig π β} {t : ℕ} {mail : List (BrokerMail π)} {transit : List (Packet β)}
  {evs : List (DirectEvent π)}

namespace History

variable {n : String} {cmd : BrokerCommand π} (h : History cfg t mail transit evs)
include h

theorem submitted (hmem : .submitted t n cmd ∈ evs) : evs.head? = some (.submitted t n cmd) := by
  cases h with
  | unborn => exact absurd hmem not_mem_nil
  | waiting n' b cmd' ask hold =>
    rw [mem_singleton.mp hmem]
    rfl
  | handled n' b cmd' peers targets hkeys hmail htransit hlater hcount =>
    rcases mem_handled hmem with heq | heq | hmem | hmem
    · rw [heq]
      rfl
    · cases heq
    · rcases mem_sends hmem with heq | ⟨k, heq⟩ <;> cases heq
    · cases hlater _ hmem

theorem sent (hhead : evs.head? = some (.submitted t n cmd)) :
    (evs.filterMap sentTo? = [] ∧ ∀ b targets, .processed t n b targets ∉ evs) ∨
      ∃ (peers : Peers n) (b : String) (targets : List PID), .processed t n b targets ∈ evs ∧
        evs.filterMap sentTo? = (receivers cmd peers.ids).map (fun k => (n, k)) ∧
        (cmd.outgoing.isSome = true → .broadcast t n peers.ids ∈ evs) := by
  cases h with
  | unborn => cases hhead
  | waiting n' b cmd' ask hold =>
    refine .inl ⟨rfl, fun b targets hmem => ?_⟩
    cases mem_singleton.mp hmem
  | handled n' b cmd' peers targets hkeys hmail htransit hlater hcount =>
    obtain ⟨-, rfl, rfl⟩ : t = t ∧ n' = n ∧ cmd' = cmd := by
      simpa using hhead
    refine .inr ⟨peers, b, targets, ?_, ?_, fun hout => ?_⟩
    · exact mem_cons_of_mem _ mem_cons_self
    · rw [filterMap_append, sentTo_later hlater, append_nil, ← sentTo_sends t]
      rfl
    · obtain ⟨x, hx⟩ := Option.isSome_iff_exists.mp hout
      have hmem : (.broadcast t n' peers.ids : DirectEvent π) ∈ sends t n' cmd' peers.ids := by
        rw [sends, hx]
        exact mem_cons_self
      exact mem_cons_of_mem _ (mem_cons_of_mem _ (mem_append_left _ hmem))

theorem forwarded {k target : String} (hmem : .forwarded t k target ∈ evs) :
    target ≠ k ∧ ∃ n, (n, target) ∈ evs.filterMap sentTo? := by
  cases h with
  | unborn => exact absurd hmem not_mem_nil
  | waiting n b cmd ask hold => cases mem_singleton.mp hmem
  | handled n b cmd peers targets hkeys hmail htransit hlater hcount =>
    rcases mem_handled hmem with heq | heq | hmem | hmem
    · cases heq
    · cases heq
    · rcases mem_sends hmem with heq | ⟨j, heq⟩ <;> cases heq
    · cases hlater _ hmem with
      | forwarded k target hother htarget =>
        refine ⟨hother, n, ?_⟩
        have hsent : (n, target) ∈ (sends t n cmd peers.ids).filterMap sentTo? := by
          rw [sentTo_sends]
          exact mem_map_of_mem htarget
        rw [filterMap_append]
        exact mem_append_left _ hsent

theorem once (k : String) : evs.countP (processedAt k) ≤ 1 := by
  cases h with
  | unborn | waiting n b cmd ask hold => exact Nat.zero_le 1
  | handled n b cmd peers targets hkeys hmail htransit hlater hcount =>
    obtain ⟨hnodup, hself⟩ := nodup_receivers peers cmd
    have hk := hcount k
    rw [countP_append, countP_cons, countP_cons, processedAt_sends]
    by_cases hn : n = k
    · subst hn
      rw [count_eq_zero.mpr hself] at hk
      simp only [processedAt, decide_true, if_true, Bool.false_eq_true, if_false]
      omega
    · have hone : (receivers cmd peers.ids).count k ≤ 1 := nodup_iff_count_le_one.mp hnodup k
      simp only [processedAt, decide_eq_true_eq, if_neg hn, Bool.false_eq_true,
        if_false]
      omega

theorem nodup_targetsAt (k : String) : ∀ e ∈ evs, ((e.targetsAt k).map key).Nodup := by
  have hif : ∀ (n : String) {targets : List PID}, (targets.map key).Nodup →
      ((if n = k then targets else []).map key).Nodup := by
    intro n targets hkeys
    split_ifs
    · exact hkeys
    · exact nodup_nil
  cases h with
  | unborn => exact fun e he => absurd he not_mem_nil
  | waiting n b cmd ask hold =>
    intro e he
    rw [mem_singleton.mp he]
    exact nodup_nil
  | handled n b cmd peers targets hkeys hmail htransit hlater hcount =>
    intro e he
    rcases mem_handled he with rfl | rfl | he | he
    · exact nodup_nil
    · exact hif n hkeys
    · rcases mem_sends he with rfl | ⟨j, rfl⟩ <;> exact nodup_nil
    · cases hlater e he with
      | processed j b targets hkeys => exact hif j hkeys
      | forwarded => exact nodup_nil

end History

end Reading

/-- The calls of `SendRemote` by which a command is broadcast, with the node that makes them. -/
def sendsOf (t : ℕ) (tr : List (DirectEvent π)) : List (String × String) :=
  (eventsOf t tr).filterMap sentTo?

structure NotAmplified (tr : List (DirectEvent π)) : Prop where
  /-- A number belongs to one call. -/
  publisher : ∀ t n n' cmd cmd', .submitted t n cmd ∈ tr → .submitted t n' cmd' ∈ tr →
    n = n' ∧ cmd = cmd'
  /-- Nothing is sent before the publisher's broker handles the command. -/
  before : ∀ t n cmd, .submitted t n cmd ∈ tr → (∀ b targets, .processed t n b targets ∉ tr) →
    sendsOf t tr = []
  /-- A valid publication is sent once to each member, by the publisher alone. -/
  sends : ∀ t n topic payload publisherActorID b targets,
    .submitted t n (.publish topic payload publisherActorID) ∈ tr →
    (parsePublishTopic topic).isOk = true → .processed t n b targets ∈ tr →
      ∃ ids : List String, .broadcast t n ids ∈ tr ∧ ids.Nodup ∧
        sendsOf t tr = ids.map fun k => (n, k)
  /-- The other calls of `SendRemote` are made by nodes on the way of an envelope. -/
  forwards : ∀ t k target, .forwarded t k target ∈ tr → target ≠ k ∧ ∃ n, (n, target) ∈ sendsOf t tr
  once : ∀ t k, (eventsOf t tr).countP (processedAt k) ≤ 1
  keys : ∀ t k, (((eventsOf t tr).flatMap (targetsAt k)).map key).Nodup

theorem outgoing_publish {topic : String} (h : (parsePublishTopic topic).isOk = true) (payload : π)
    (publisherActorID : String) :
    (publish topic payload publisherActorID).outgoing.isSome = true := by
  cases hparse : parsePublishTopic topic with
  | error e =>
    rw [hparse] at h
    cases h
  | ok segs =>
    rw [outgoing, hparse]
    rfl

theorem members_of_broadcast {a : DirectAction π} (hs : s.step cfg a = some (s', es)) {n : String}
    {ids : List String} (hmem : .broadcast t n ids ∈ es) : ids = (s.members n).ids := by
  cases step_moves hs with
  | members | lose | deliver => exact absurd hmem not_mem_nil
  | submit | forward => cases mem_singleton.mp hmem
  | handle i m hm =>
    rw [handle_events] at hmem
    rcases mem_cons.mp hmem with heq | hmem
    · cases heq
    · rcases mem_sends hmem with heq | ⟨k, heq⟩ <;> cases heq
      rfl

theorem mem_eventsOf {e : DirectEvent π} : e ∈ eventsOf e.tag tr ↔ e ∈ tr := by
  simp [eventsOf]

/-- **Publications are not amplified.** In every run a publication is sent once to each member that
the publisher has when its broker handles it, by the publisher and nodes that pass it on; a broker
handles it at most once, and so a node sends it at most once under each key. -/
theorem not_amplified (cfg : DirectConfig π β) (members : (n : String) → Peers n)
    (tr : List (DirectEvent π)) (s : DirectCluster π β)
    (h : Run (step cfg) anyStep (new members) tr s) :
    NotAmplified tr ∧ ∀ a s' es, s.step cfg a = some (s', es) → ∀ t n ids,
      .broadcast t n ids ∈ es → ids = (s.members n).ids := by
  have htracked := tracked_of_run h
  refine ⟨⟨?_, ?_, ?_, ?_, ?_, ?_⟩, ?_⟩
  · intro t n n' cmd cmd' hmem hmem'
    have hhead := (htracked.history t).submitted (mem_eventsOf.mpr hmem)
    rw [(htracked.history t).submitted (mem_eventsOf.mpr hmem')] at hhead
    cases hhead
    exact ⟨rfl, rfl⟩
  · intro t n cmd hmem hnot
    have hhead := (htracked.history t).submitted (mem_eventsOf.mpr hmem)
    rcases (htracked.history t).sent hhead with ⟨hnone, -⟩ | ⟨peers, b, targets, hdone, -⟩
    · exact hnone
    · exact absurd (mem_eventsOf.mp hdone) (hnot b targets)
  · intro t n topic payload publisherActorID b targets hmem hvalid hdone
    have hhead := (htracked.history t).submitted (mem_eventsOf.mpr hmem)
    have hout := outgoing_publish hvalid payload publisherActorID
    rcases (htracked.history t).sent hhead with ⟨-, hnot⟩ | ⟨peers, -, -, -, hsent, hbroadcast⟩
    · exact absurd (mem_eventsOf.mpr hdone) (hnot b targets)
    · refine ⟨peers.ids, mem_eventsOf.mp (hbroadcast hout), peers.nodup, ?_⟩
      rw [sendsOf, hsent, receivers, if_pos hout]
  · exact fun t k target hmem => (htracked.history t).forwarded (mem_eventsOf.mpr hmem)
  · exact fun t k => (htracked.history t).once k
  · exact fun t k =>
      nodup_keys ((htracked.history t).nodup_targetsAt k) ((htracked.history t).once k)
  · exact fun a s' es hs t n ids hmem => members_of_broadcast hs hmem

inductive Wire
  | payload (v : String)
  | msg (topic : String) (payload : Wire) (publisherNode : String)

def wireCodec : DirectCodec String Wire where
  encode
    | .payload v => some (.payload v)
    | .msg m => some (.msg m.topic m.payload m.publisherNode)
  decode
    | .payload v => some (.payload v)
    | .msg topic payload publisherNode => some (.msg ⟨topic, payload, publisherNode⟩)
  roundTrip v := by cases v <;> rfl

def fivePeers (n : String) : Peers n where
  ids := ["a", "b", "c", "d", "e"].filter (· ≠ n)
  nodup := List.Nodup.filter _ (by decide)
  others := by simp
  named := by simp

def wireConfig : DirectConfig String Wire := ⟨wireCodec, fun _ => ""⟩

/-- An actor at `b` subscribes, and `d` publishes; the envelope for `b` gets to `c` first. -/
def publishViaC : List (DirectAction String) :=
  [.submit "b" "" (.subscribe ⟨"b", "w", 1⟩ "t") (some ⟨"ask-1", ⟨"__ask_reply", "ask-1", 1⟩⟩) true,
    .handle 0, .submit "d" "" (.publish "t" "x" "p") none true, .handle 0, .arrive 1 "c" true,
    .arrive 3 "b" true, .handle 0]

/-- The publication reaches the subscriber at `b`, once. -/
theorem not_amplified_viaC :
    ∃ tr s, Run (step wireConfig) anyStep (new fivePeers) tr s ∧ NotAmplified tr ∧
      .processed 1 "b" "__native_pubsub_broker" [⟨"b", "w", 1⟩] ∈ tr :=
  Run.of_check_then publishViaC (by decide +kernel) fun tr s hrun hmem =>
    ⟨tr, s, hrun, (not_amplified wireConfig fivePeers tr s hrun).1, hmem⟩

/-- What `d` knows in a ring: the others, and the nodes it should be connected to. -/
def viewOfD (ring : Cluster.RingTopology) : Cluster.ClusterView where
  self := ⟨"d", "", []⟩
  peers := [⟨"a", "", []⟩, ⟨"b", "", []⟩, ⟨"c", "", []⟩, ⟨"e", "", []⟩]
  conns := ring.shouldConnect "d"
    [⟨"d", "", []⟩, ⟨"a", "", []⟩, ⟨"b", "", []⟩, ⟨"c", "", []⟩, ⟨"e", "", []⟩]

/-- **Nodes on the way send too.** In a ring of five, `d` reaches `b` by way of `c`, which calls
`SendRemote`. -/
theorem forwarding_node_sends : (viewOfD ⟨1⟩).sendRemote ⟨1⟩ "b" = some "c" ∧
      ∃ tr s, Run (step wireConfig) anyStep (new fivePeers) tr s ∧
        .submitted 1 "d" (.publish "t" "x" "p") ∈ tr ∧ .forwarded 1 "c" "b" ∈ tr := by
  exact ⟨by decide +kernel, Run.of_check publishViaC (by decide +kernel)⟩

end DirectCluster

end Westcoast
