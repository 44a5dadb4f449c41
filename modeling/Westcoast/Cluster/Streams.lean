import Westcoast.Cluster.ConnectionTable
import Westcoast.Cluster.Dispatch

/-!
# Streams between the nodes

The nodes of `Connections` with the gRPC streams of `grpctransport/transport.go` between them and
the dispatchers of `inbound_handler.go` on top. The end that accepted a stream takes the sender of
the first envelope for the sender of all that follow; the end that dialled, the node whose header it
got. `Dispatch` hands an envelope for another node to `SendRemote`, with the sender in it as it is.
A read loop that is in `Dispatch` is here free to read on, so there are more interleavings than in
the source.
-/
namespace Westcoast.Cluster

open Lib Option Function

/-- `Envelope`: what the dispatcher reads, and the node that created it. -/
structure WireEnvelope (β : Type) extends RemoteEnvelope β where
  senderNode : NodeID
  deriving DecidableEq

/-- What was written and not yet read. `remoteID` is that of `Stream`, once the first envelope was
read. -/
structure Stream (β : Type) where
  dialler : NodeID
  acceptor : NodeID
  up : List (WireEnvelope β)
  down : List (WireEnvelope β)
  remoteID : Option NodeID

/-- All nodes, and the streams in the order in which they were opened. -/
structure Network (β : Type) where
  nodes : NodeID → Connections (WireEnvelope β)
  streams : List (Stream β)

/-- The topology, and the types for which a node has system handlers. -/
structure NetConfig where
  topology : Topology
  handlers : NodeID → List String

/-- An envelope is given to a system handler with the node it is said to come from, or goes on to an
actor. -/
inductive StreamEvent (β : Type)
  | system (node src : NodeID) (env : WireEnvelope β)
  | actor (node src : NodeID) (env : WireEnvelope β)
  deriving DecidableEq

inductive StreamAction (β : Type)
  | member (node : NodeID) (ev : MemberEvent)
  | updatePeerMeta (node : NodeID) (m : NodeMeta)
  | create (env : WireEnvelope β)
  | dial (node : NodeID) (i : ℕ) (ok : Bool)
  | locked (node : NodeID) (i : ℕ)
  | write (node : NodeID) (i : ℕ) (ok : Bool)
  | readUp (stream : ℕ)
  | readDown (stream : ℕ)

/-- The node that a goroutine dials, as it stands in the metadata with its address. -/
def Proc.dialTarget {ε : Type} : Proc ε → Option NodeID
  | dialPeer m | ensureDial _ m _ => some m.id
  | _ => none

namespace Network

variable {β : Type}

def new (self : NodeID → NodeMeta) : Network β := ⟨fun n => .new (self n), []⟩

def act (t : Topology) (s : Network β) (n : NodeID) (a : ConnAction (WireEnvelope β)) :
    Option (Network β) :=
  ((s.nodes n).step t a).map fun r => { s with nodes := update s.nodes n r.1 }

def setStream (s : Network β) (k : ℕ) (st : Stream β) : Network β :=
  { s with streams := s.streams.set k st }

def dispatch (cfg : NetConfig) (s : Network β) (node src : NodeID) (env : WireEnvelope β) :
    Option (Network β × List (StreamEvent β)) :=
  if env.targetNode ≠ "" ∧ env.targetNode ≠ node then
    (s.act cfg.topology node (.sendRemote env.targetNode env)).map fun s' => (s', [])
  else if env.typeName ∈ cfg.handlers node then some (s, [.system node src env])
  else some (s, [.actor node src env])

def openStream (t : Topology) (s : Network β) (n : NodeID) (i : ℕ) (target : NodeID) :
    Option (Network β) :=
  (s.act t n (.dialReturns i (some s.streams.length))).map fun s' =>
    { s' with streams := s'.streams ++ [⟨n, target, [], [], none⟩] }

def writeTo (s : Network β) (conn : ConnEnd) (env : WireEnvelope β) : Network β :=
  match s.streams[conn.stream]? with
  | none => s
  | some st =>
    s.setStream conn.stream
      (if conn.inbound then { st with down := st.down ++ [env] }
      else { st with up := st.up ++ [env] })

/-- `Stream`, the end that accepted: the first envelope identifies the remote node. -/
def readUp (cfg : NetConfig) (s : Network β) (k : ℕ) (st : Stream β) (env : WireEnvelope β)
    (rest : List (WireEnvelope β)) : Option (Network β × List (StreamEvent β)) :=
  match st.remoteID with
  | some remoteID =>
    (s.setStream k { st with up := rest }).dispatch cfg st.acceptor remoteID env
  | none =>
    ((s.setStream k { st with up := rest, remoteID := some env.senderNode }).act cfg.topology
      st.acceptor (.inbound env.senderNode k)).bind fun s' =>
        s'.dispatch cfg st.acceptor env.senderNode env

def step (cfg : NetConfig) (s : Network β) :
    StreamAction β → Option (Network β × List (StreamEvent β))
  | .member n ev => (s.act cfg.topology n (.member ev)).map fun s' => (s', [])
  | .updatePeerMeta n m => (s.act cfg.topology n (.updatePeerMeta m)).map fun s' => (s', [])
  | .create env =>
    (s.act cfg.topology env.senderNode (.sendRemote env.targetNode env)).map fun s' => (s', [])
  | .dial n i true =>
    ((s.nodes n).procs[i]?.bind Proc.dialTarget).bind fun target =>
      (s.openStream cfg.topology n i target).map fun s' => (s', [])
  | .dial n i false => (s.act cfg.topology n (.dialReturns i none)).map fun s' => (s', [])
  | .locked n i => (s.act cfg.topology n (.locked i)).map fun s' => (s', [])
  | .write n i ok =>
    match (s.nodes n).procs[i]? with
    | some (.sending _ conn env) =>
      (s.act cfg.topology n (.sendReturns i ok)).map fun s' =>
        (if ok then s'.writeTo conn env else s', [])
    | _ => none
  | .readUp k =>
    match s.streams[k]? with
    | some st =>
      match st.up with
      | env :: rest => s.readUp cfg k st env rest
      | [] => none
    | none => none
  | .readDown k =>
    match s.streams[k]? with
    | some st =>
      match st.down with
      | env :: rest =>
        (s.setStream k { st with down := rest }).dispatch cfg st.dialler st.acceptor env
      | [] => none
    | none => none

def farEnd (s : Network β) (conn : ConnEnd) : Option NodeID :=
  s.streams[conn.stream]?.map fun st => if conn.inbound then st.dialler else st.acceptor

/-- Every entry of every table is a connection to the node it stands under. -/
def TableSound (s : Network β) : Prop :=
  ∀ n x conn, (s.nodes n).conns.lookup x = some conn → s.farEnd conn = some x

/-! ## What steps leave alone -/

section Frames

variable {cfg : NetConfig} {s s' : Network β} {es : List (StreamEvent β)}

variable {t : Topology} {n : NodeID} {b : ConnAction (WireEnvelope β)}

theorem act_eq_some (h : s.act t n b = some s') : ∃ c evs, (s.nodes n).step t b = some (c, evs) ∧
      s' = { s with nodes := update s.nodes n c } := by
  obtain ⟨r, hr, rfl⟩ := map_eq_some_iff.mp h
  exact ⟨r.1, r.2, hr, rfl⟩

theorem streams_act (h : s.act t n b = some s') : s'.streams = s.streams := by
  obtain ⟨c, evs, -, rfl⟩ := act_eq_some h
  rfl

theorem farEnd_congr (h : s'.streams = s.streams) : s'.farEnd = s.farEnd := by
  funext c
  rw [farEnd, farEnd, h]

theorem farEnd_setStream {k : ℕ} {st st' : Stream β} (hst : s.streams[k]? = some st)
    (hd : st'.dialler = st.dialler) (ha : st'.acceptor = st.acceptor) :
    (s.setStream k st').farEnd = s.farEnd := by
  funext c
  obtain ⟨hlt, -⟩ := List.getElem?_eq_some_iff.mp hst
  simp only [farEnd, setStream, List.getElem?_set]
  by_cases hk : k = c.stream
  · subst hk
    rw [if_pos rfl, if_pos hlt, hst, map_some, map_some, hd, ha]
  · rw [if_neg hk]

theorem dispatch_frame {node src : NodeID} {env : WireEnvelope β}
    (hs : s.dispatch cfg node src env = some (s', es)) :
    s'.streams = s.streams ∧ ∀ n, (s'.nodes n).conns = (s.nodes n).conns := by
  unfold dispatch at hs
  split_ifs at hs
  · obtain ⟨s1, hact, hs'⟩ := map_eq_some_iff.mp hs
    cases hs'
    refine ⟨streams_act hact, fun n => ?_⟩
    obtain ⟨c, evs, hc, rfl⟩ := act_eq_some hact
    cases hc
    by_cases hn : n = node
    · subst hn
      simp
    · simp only [update_of_ne hn]
  · cases hs
    exact ⟨rfl, fun _ => rfl⟩
  · cases hs
    exact ⟨rfl, fun _ => rfl⟩

end Frames

end Network

end Westcoast.Cluster
