import Westcoast.Cluster.Ring
import Westcoast.Lib.Assoc
import Westcoast.Provider.Core

/-!
# The connections of a cluster node

`cluster.go`: a node keeps one connection for each peer, and brings them in line with the topology
at membership events. `dialPeer` dials in a goroutine, `ensureConnection` in `SendRemote`; streams
that other nodes open are kept for the answers. Each section under the lock is a step. What a dial,
a send or the topology answers comes with the action, or is a parameter. The node is started and not
stopped.
-/
namespace Westcoast.Cluster

open Lib List Option

/-- `Topology`, as far as a node asks it for connections and routes. -/
structure Topology where
  shouldConnect : NodeID → List NodeMeta → List NodeID
  route : NodeID → NodeID → List NodeMeta → Option NodeID

def RingTopology.topology (r : RingTopology) : Topology := ⟨r.shouldConnect, r.route⟩

def FullMeshTopology.topology : Topology where
  shouldConnect self members := (members.map (·.id)).filter (· ≠ self)
  route _ target members := if members.any (·.id = target) then some target else none

/-- One end of a stream: that of the node that opened it, or the other one. -/
structure ConnEnd where
  stream : ℕ
  inbound : Bool
  deriving DecidableEq

/-- Where a goroutine is: in `Dial` of `dialPeer`, before its lock, or in `SendRemote` with its
envelope. -/
inductive Proc (ε : Type)
  | dialPeer (m : NodeMeta)
  | peerDialed (m : NodeMeta) (conn : Option ConnEnd)
  | direct (target : NodeID) (env : ε)
  | routing (target : NodeID) (env : ε)
  | viaHop (hop : NodeID) (env : ε)
  | ensure (node : NodeID) (env : ε)
  | ensureDial (node : NodeID) (m : NodeMeta) (env : ε)
  | ensureDialed (node : NodeID) (conn : ConnEnd) (env : ε)
  | sending (node : NodeID) (conn : ConnEnd) (env : ε)
  | sendFailed (node : NodeID)
  | done
  deriving DecidableEq

/-- The errors of `SendRemote`: `ErrNodeUnreachable` and `ErrSendFailed`. -/
inductive SendError
  | nodeUnreachable
  | sendFailed

inductive ConnEvent
  | member (ev : MemberEvent)
  | returned (err : Option SendError)

/-- `Cluster`. `dialed` are the connections that `Dial` returned, with the peer they are for. -/
structure Connections (ε : Type) where
  self : NodeMeta
  conns : AList fun _ : NodeID => ConnEnd
  peers : AList fun _ : NodeID => NodeMeta
  dialing : AList fun _ : NodeID => Bool
  procs : List (Proc ε)
  dialed : List (ConnEnd × NodeID)
  accepted : List ConnEnd
  closed : List ConnEnd

inductive ConnAction (ε : Type)
  | member (ev : MemberEvent)
  | updatePeerMeta (m : NodeMeta)
  | sendRemote (target : NodeID) (env : ε)
  | inbound (remote : NodeID) (stream : ℕ)
  | dialReturns (i : ℕ) (stream : Option ℕ)
  | locked (i : ℕ)
  | sendReturns (i : ℕ) (ok : Bool)

namespace Connections

variable {ε : Type}

def new (self : NodeMeta) : Connections ε := ⟨self, ∅, ∅, ∅, [], [], [], []⟩

def goto (s : Connections ε) (i : ℕ) (pc : Proc ε) : Connections ε :=
  { s with procs := s.procs.set i pc }

def memberList (s : Connections ε) : List NodeMeta := s.self :: s.peers.entries.map (·.2)

/-- `removeConnection`, also part of other functions: the connection is closed and deleted. -/
def removeConnection (s : Connections ε) (node : NodeID) : Connections ε :=
  match s.conns.lookup node with
  | none => s
  | some conn => { s with conns := s.conns.erase node, closed := s.closed ++ [conn] }

/-- A connection that was dialled is kept, or closed if there is one already. -/
def store (s : Connections ε) (node : NodeID) (conn : ConnEnd) : Connections ε :=
  match s.conns.lookup node with
  | some _ => { s with closed := s.closed ++ [conn] }
  | none => { s with conns := s.conns.insert node conn }

/-- `OnConnectionEstablished`. The first connection stays. -/
def onConnectionEstablished (s : Connections ε) (remote : NodeID) (conn : ConnEnd) :
    Connections ε :=
  match s.conns.lookup remote with
  | some _ => s
  | none => { s with conns := s.conns.insert remote conn }

/-- `reconcileConnectionsLocked` for one node that there should be a connection to. -/
def dialMissing (s : Connections ε) (id : NodeID) : Connections ε :=
  if (s.conns.lookup id).isNone && !(s.dialing.lookup id).getD false then
    match s.peers.lookup id with
    | none => s
    | some m => { s with dialing := s.dialing.insert id true, procs := s.procs ++ [.dialPeer m] }
  else s

/-- `reconcileConnectionsLocked`: missing ones are dialled, undesired ones closed. -/
def reconcileConnections (t : Topology) (s : Connections ε) : Connections ε :=
  let desired := t.shouldConnect s.self.id s.memberList
  let s' := desired.foldl dialMissing s
  (s'.conns.keys.filter (· ∉ desired)).foldl removeConnection s'

def applyEvent (s : Connections ε) (ev : MemberEvent) : Connections ε :=
  if ev.type.departs then
    { s with peers := s.peers.erase ev.member.id }.removeConnection ev.member.id
  else { s with peers := s.peers.insert ev.member.id ev.member }

/-- `handleMemberEvent` up to its callback. -/
def handleMemberEvent (t : Topology) (s : Connections ε) (ev : MemberEvent) : Connections ε :=
  (s.applyEvent ev).reconcileConnections t

/-- `UpdatePeerMeta`, with what it tells `OnMemberEvent`. -/
def updatePeerMeta (s : Connections ε) (m : NodeMeta) : Connections ε × List ConnEvent :=
  match s.peers.lookup m.id with
  | none => (s, [])
  | some existing =>
    if Provider.tagsEqual existing.tags m.tags then (s, [])
    else ({ s with peers := s.peers.insert m.id m }, [.member ⟨.updated, m⟩])

/-- What a goroutine does when it has the mutex. -/
def lockedSection (t : Topology) (s : Connections ε) (i : ℕ) :
    Proc ε → Option (Connections ε × List ConnEvent)
  | .peerDialed m conn =>
    let s' := { s with dialing := s.dialing.erase m.id }.goto i .done
    match conn with
    | none => some (s', [])
    | some conn => some (s'.store m.id conn, [])
  | .direct target env =>
    match s.conns.lookup target with
    | some conn => some (s.goto i (.sending target conn env), [])
    | none => some (s.goto i (.routing target env), [])
  | .routing target env =>
    match t.route s.self.id target s.memberList with
    | none => some (s.goto i .done, [.returned (some .nodeUnreachable)])
    | some nextHop =>
      if nextHop = target then some (s.goto i (.ensure target env), [])
      else some (s.goto i (.viaHop nextHop env), [])
  | .viaHop hop env =>
    match s.conns.lookup hop with
    | some conn => some (s.goto i (.sending hop conn env), [])
    | none => some (s.goto i (.ensure hop env), [])
  | .ensure node env =>
    match s.peers.lookup node with
    | none => some (s.goto i .done, [.returned (some .nodeUnreachable)])
    | some m => some (s.goto i (.ensureDial node m env), [])
  | .ensureDialed node conn env =>
    let used := (s.conns.lookup node).getD conn
    some ((s.goto i (.sending node used env)).store node conn, [])
  | .sendFailed node =>
    some ((s.goto i .done).removeConnection node, [.returned (some .sendFailed)])
  | _ => none

/-- One step of a node. Streams are new, and no send succeeds where the dialling node has closed. -/
def step (t : Topology) (s : Connections ε) : ConnAction ε → Option (Connections ε × List ConnEvent)
  | .member ev => some (s.handleMemberEvent t ev, [.member ev])
  | .updatePeerMeta m => some (s.updatePeerMeta m)
  | .sendRemote target env => some ({ s with procs := s.procs ++ [.direct target env] }, [])
  | .inbound remote stream =>
    if ConnEnd.mk stream true ∈ s.accepted then none
    else
      some ({ s with
        accepted := s.accepted ++ [ConnEnd.mk stream true] }.onConnectionEstablished remote
          (.mk stream true), [])
  | .dialReturns i none =>
    match s.procs[i]? with
    | some (.dialPeer m) => some (s.goto i (.peerDialed m none), [])
    | some (.ensureDial _ _ _) => some (s.goto i .done, [.returned (some .nodeUnreachable)])
    | _ => none
  | .dialReturns i (some stream) =>
    if ConnEnd.mk stream false ∈ s.dialed.map (·.1) then none
    else
      match s.procs[i]? with
      | some (.dialPeer m) =>
        some ({ s with dialed := s.dialed ++ [(ConnEnd.mk stream false, m.id)] }.goto i
          (.peerDialed m (some (.mk stream false))), [])
      | some (.ensureDial node _ env) =>
        some ({ s with dialed := s.dialed ++ [(ConnEnd.mk stream false, node)] }.goto i
          (.ensureDialed node (.mk stream false) env), [])
      | _ => none
  | .locked i => s.procs[i]?.bind (s.lockedSection t i)
  | .sendReturns i ok =>
    match s.procs[i]? with
    | some (.sending node conn _) =>
      if ok then
        if conn.inbound = false ∧ conn ∈ s.closed then none
        else some (s.goto i .done, [.returned none])
      else some (s.goto i (.sendFailed node), [])
    | _ => none

/-! ## What a step can do -/

section Frames

variable {s s' : Connections ε} {node k : NodeID} {conn : ConnEnd}

theorem lookup_removeConnection : (s.removeConnection node).conns.lookup k =
    if k = node then none else s.conns.lookup k := by
  unfold removeConnection
  cases hnode : s.conns.lookup node with
  | none =>
    by_cases hk : k = node
    · rw [if_pos hk, hk]
      exact hnode
    · rw [if_neg hk]
  | some conn => exact lookup_erase_ite s.conns node k

theorem closed_removeConnection : (s.removeConnection node).closed =
    s.closed ++ (s.conns.lookup node).toList := by
  unfold removeConnection
  cases s.conns.lookup node with
  | none => exact (append_nil _).symm
  | some conn => rfl

theorem lookup_store : (s.store node conn).conns.lookup k =
    if k = node then some ((s.conns.lookup node).getD conn) else s.conns.lookup k := by
  unfold store
  cases hnode : s.conns.lookup node with
  | none => exact lookup_insert_ite s.conns node k conn
  | some conn' =>
    by_cases hk : k = node
    · rw [if_pos hk, hk]
      exact hnode
    · rw [if_neg hk]

theorem lookup_onConnectionEstablished : (s.onConnectionEstablished node conn).conns.lookup k =
      if k = node then some ((s.conns.lookup node).getD conn) else s.conns.lookup k := by
  unfold onConnectionEstablished
  cases hnode : s.conns.lookup node with
  | none => exact lookup_insert_ite s.conns node k conn
  | some conn' =>
    by_cases hk : k = node
    · rw [if_pos hk, hk]
      exact hnode
    · rw [if_neg hk]

/-- Connections were closed and deleted, and nothing else was done. -/
structure Closes (s s' : Connections ε) : Prop where
  frame : s' = { s with conns := s'.conns, closed := s'.closed }
  closed_mono : ∀ c ∈ s.closed, c ∈ s'.closed
  entry : ∀ n c, s.conns.lookup n = some c → s'.conns.lookup n = some c ∨
    s'.conns.lookup n = none ∧ c ∈ s'.closed
  old : ∀ n c, s'.conns.lookup n = some c → s.conns.lookup n = some c

theorem Closes.peers_eq (h : Closes s s') : s'.peers = s.peers := by rw [h.frame]

theorem Closes.procs_eq (h : Closes s s') : s'.procs = s.procs := by rw [h.frame]

theorem Closes.refl (s : Connections ε) : Closes s s :=
  ⟨rfl, fun _ => id, fun _ _ => .inl, fun _ _ => id⟩

variable {s₁ s₂ s₃ : Connections ε}

theorem Closes.trans (h : Closes s₁ s₂) (h' : Closes s₂ s₃) : Closes s₁ s₃ := by
  refine ⟨?_, fun c hc => h'.closed_mono c (h.closed_mono c hc), ?_,
    fun n c hc => h.old n c (h'.old n c hc)⟩
  · rw [h'.frame, h.frame]
  · intro n c hc
    rcases h.entry n c hc with hstays | ⟨hgone, hclosed⟩
    · exact h'.entry n c hstays
    · refine .inr ⟨?_, h'.closed_mono c hclosed⟩
      cases hlook : s₃.conns.lookup n with
      | none => rfl
      | some c' =>
        rw [h'.old n c' hlook] at hgone
        cases hgone

theorem closes_removeConnection (s : Connections ε) (node : NodeID) :
    Closes s (s.removeConnection node) := by
  refine ⟨?_, ?_, ?_, ?_⟩
  · unfold removeConnection
    cases s.conns.lookup node <;> rfl
  · intro c hc
    rw [closed_removeConnection]
    exact mem_append_left _ hc
  · intro n c hc
    rw [lookup_removeConnection, closed_removeConnection]
    by_cases hn : n = node
    · subst hn
      exact .inr ⟨if_pos rfl, mem_append_right _ (by rw [hc]; exact mem_singleton_self c)⟩
    · exact .inl ((if_neg hn).trans hc)
  · intro n c hc
    rw [lookup_removeConnection] at hc
    split_ifs at hc
    exact hc

theorem closes_foldl (ids : List NodeID) (s : Connections ε) :
    Closes s (ids.foldl removeConnection s) :=
  foldlRecOn ids _ (.refl s) fun s' h id _ => h.trans (closes_removeConnection s' id)

/-- Goroutines were started that dial peers, and nothing else was done. -/
structure Spawns (s s' : Connections ε) : Prop where
  frame : s' = { s with dialing := s'.dialing, procs := s'.procs }
  procs : ∃ new, s'.procs = s.procs ++ new ∧
    ∀ p ∈ new, ∃ id m, s.peers.lookup id = some m ∧ p = .dialPeer m

theorem Spawns.conns_eq (h : Spawns s s') : s'.conns = s.conns := by rw [h.frame]

theorem Spawns.peers_eq (h : Spawns s s') : s'.peers = s.peers := by rw [h.frame]

theorem Spawns.refl (s : Connections ε) : Spawns s s :=
  ⟨rfl, [], (append_nil _).symm, fun _ h => by cases h⟩

theorem Spawns.trans (h : Spawns s₁ s₂) (h' : Spawns s₂ s₃) : Spawns s₁ s₃ := by
  have hpeers := h.peers_eq
  obtain ⟨hframe, new, hnew, hdials⟩ := h
  obtain ⟨hframe', new', hnew', hdials'⟩ := h'
  refine ⟨by rw [hframe', hframe], new ++ new', by rw [hnew', hnew, append_assoc], ?_⟩
  intro p hp
  rcases mem_append.mp hp with hp | hp
  · exact hdials p hp
  · rw [← hpeers]
    exact hdials' p hp

theorem spawns_dialMissing (s : Connections ε) (id : NodeID) : Spawns s (s.dialMissing id) := by
  unfold dialMissing
  split_ifs
  · cases hm : s.peers.lookup id with
    | none => exact .refl s
    | some m =>
      refine ⟨rfl, [.dialPeer m], rfl, ?_⟩
      intro p hp
      exact ⟨id, m, hm, mem_singleton.mp hp⟩
  · exact .refl s

theorem spawns_foldl (ids : List NodeID) (s : Connections ε) : Spawns s (ids.foldl dialMissing s) :=
  foldlRecOn ids _ (.refl s) fun s' h id _ => h.trans (spawns_dialMissing s' id)

theorem reconcileConnections_spec (t : Topology) (s : Connections ε) :
    ∃ s₁, Spawns s s₁ ∧ Closes s₁ (s.reconcileConnections t) :=
  ⟨_, spawns_foldl _ s, closes_foldl _ _⟩

end Frames

inductive Moves (t : Topology) (s : Connections ε) : Proc ε → Proc ε → Prop
  | dialFailed {m : NodeMeta} : Moves t s (.dialPeer m) (.peerDialed m none)
  | found {n : NodeID} {env : ε} {p : Proc ε} {c : ConnEnd}
      (hp : p = .direct n env ∨ p = .viaHop n env) (hc : s.conns.lookup n = some c) :
      Moves t s p (.sending n c env)
  | missing {n : NodeID} {env : ε} : Moves t s (.direct n env) (.routing n env)
  | routed {n hop : NodeID} {env : ε} : Moves t s (.routing n env) (.viaHop hop env)
  | ensure {n : NodeID} {env : ε} {p : Proc ε} (hp : p = .routing n env ∨ p = .viaHop n env) :
      Moves t s p (.ensure n env)
  | ensureDial {n : NodeID} {env : ε} {m : NodeMeta} (hm : s.peers.lookup n = some m) :
      Moves t s (.ensure n env) (.ensureDial n m env)
  | unreachable {n : NodeID} {env : ε} {p : Proc ε}
      (hp : p = .routing n env ∨ p = .ensure n env ∨ ∃ m, p = .ensureDial n m env) :
      Moves t s p .done
  | sent {n : NodeID} {c : ConnEnd} {env : ε} : Moves t s (.sending n c env) .done
  | sendFailed {n : NodeID} {c : ConnEnd} {env : ε} : Moves t s (.sending n c env) (.sendFailed n)

inductive Effect (t : Topology) (s : Connections ε) : ConnAction ε → Connections ε → Prop
  | member (ev : MemberEvent) : Effect t s (.member ev) (s.handleMemberEvent t ev)
  | unchanged (m : NodeMeta) : Effect t s (.updatePeerMeta m) s
  | updated (m : NodeMeta) (hknown : (s.peers.lookup m.id).isSome) :
      Effect t s (.updatePeerMeta m) { s with peers := s.peers.insert m.id m }
  | sendRemote (target : NodeID) (env : ε) :
      Effect t s (.sendRemote target env) { s with procs := s.procs ++ [.direct target env] }
  | inbound (remote : NodeID) (stream : ℕ) : Effect t s (.inbound remote stream)
        ({ s with
          accepted := s.accepted ++ [ConnEnd.mk stream true] }.onConnectionEstablished remote
            (.mk stream true))
  | moves {a : ConnAction ε} {i : ℕ} {p q : Proc ε} (hp : s.procs[i]? = some p)
      (hmoves : Moves t s p q)
      (ha : a = .dialReturns i none ∨ a = .locked i ∨ ∃ ok, a = .sendReturns i ok) :
      Effect t s a (s.goto i q)
  | peerDialed {i stream : ℕ} {m : NodeMeta} (hp : s.procs[i]? = some (.dialPeer m)) :
      Effect t s (.dialReturns i (some stream))
        ({ s with dialed := s.dialed ++ [(ConnEnd.mk stream false, m.id)] }.goto i
          (.peerDialed m (some (.mk stream false))))
  | ensureDialed {i stream : ℕ} {n : NodeID} {m : NodeMeta} {env : ε}
      (hp : s.procs[i]? = some (.ensureDial n m env)) :
      Effect t s (.dialReturns i (some stream))
        ({ s with dialed := s.dialed ++ [(ConnEnd.mk stream false, n)] }.goto i
          (.ensureDialed n (.mk stream false) env))
  | notDialed {i : ℕ} {m : NodeMeta} (hp : s.procs[i]? = some (.peerDialed m none)) :
      Effect t s (.locked i) ({ s with dialing := s.dialing.erase m.id }.goto i .done)
  | peerStored {i : ℕ} {m : NodeMeta} {c : ConnEnd}
      (hp : s.procs[i]? = some (.peerDialed m (some c))) :
      Effect t s (.locked i)
        (({ s with dialing := s.dialing.erase m.id }.goto i .done).store m.id c)
  | ensureStored {i : ℕ} {n : NodeID} {c : ConnEnd} {env : ε}
      (hp : s.procs[i]? = some (.ensureDialed n c env)) :
      Effect t s (.locked i)
        ((s.goto i (.sending n ((s.conns.lookup n).getD c) env)).store n c)
  | removed {i : ℕ} {n : NodeID} (hp : s.procs[i]? = some (.sendFailed n)) :
      Effect t s (.locked i) ((s.goto i .done).removeConnection n)

section Inversion

variable {t : Topology} {s s' : Connections ε} {a : ConnAction ε} {es : List ConnEvent}

theorem lockedSection_effect {i : ℕ} {p : Proc ε} (hp : s.procs[i]? = some p)
    (h : s.lockedSection t i p = some (s', es)) : Effect t s (.locked i) s' := by
  cases p with
  | peerDialed m conn =>
    cases conn with
    | none =>
      cases h
      exact .notDialed hp
    | some c =>
      cases h
      exact .peerStored hp
  | direct n env =>
    simp only [lockedSection] at h
    split at h <;> cases h
    · next hc => exact .moves hp (.found (.inl rfl) hc) (.inr (.inl rfl))
    · exact .moves hp .missing (.inr (.inl rfl))
  | routing n env =>
    simp only [lockedSection] at h
    split at h
    · cases h
      exact .moves hp (.unreachable (.inl rfl)) (.inr (.inl rfl))
    · split_ifs at h <;> cases h
      · exact .moves hp (.ensure (.inl rfl)) (.inr (.inl rfl))
      · exact .moves hp .routed (.inr (.inl rfl))
  | viaHop n env =>
    simp only [lockedSection] at h
    split at h <;> cases h
    · next hc => exact .moves hp (.found (.inr rfl) hc) (.inr (.inl rfl))
    · exact .moves hp (.ensure (.inr rfl)) (.inr (.inl rfl))
  | ensure n env =>
    simp only [lockedSection] at h
    split at h <;> cases h
    · exact .moves hp (.unreachable (.inr (.inl rfl))) (.inr (.inl rfl))
    · next hm => exact .moves hp (.ensureDial hm) (.inr (.inl rfl))
  | ensureDialed n c env =>
    cases h
    exact .ensureStored hp
  | sendFailed n =>
    cases h
    exact .removed hp
  | dialPeer m | ensureDial n m env | sending n c env | done => cases h

theorem step_effect (h : s.step t a = some (s', es)) : Effect t s a s' := by
  cases a with
  | member ev =>
    cases h
    exact .member ev
  | updatePeerMeta m =>
    have hs' : s' = (s.updatePeerMeta m).1 := (congrArg Prod.fst (some.inj h)).symm
    subst hs'
    unfold updatePeerMeta
    split
    · exact .unchanged m
    · next existing hm =>
      split_ifs
      · exact .unchanged m
      · exact .updated m (by rw [hm]; rfl)
  | sendRemote target env =>
    cases h
    exact .sendRemote target env
  | inbound remote stream =>
    obtain ⟨-, h⟩ := ite_none_left_eq_some.mp h
    cases h
    exact .inbound remote stream
  | dialReturns i stream =>
    cases stream with
    | none =>
      simp only [step] at h
      split at h <;> cases h
      · next hp => exact .moves hp .dialFailed (.inl rfl)
      · next hp => exact .moves hp (.unreachable (.inr (.inr ⟨_, rfl⟩))) (.inl rfl)
    | some stream =>
      obtain ⟨-, h⟩ := ite_none_left_eq_some.mp h
      split at h <;> cases h
      · next hp => exact .peerDialed hp
      · next hp => exact .ensureDialed hp
  | locked i =>
    obtain ⟨p, hp, h⟩ := bind_eq_some_iff.mp h
    exact lockedSection_effect hp h
  | sendReturns i ok =>
    simp only [step] at h
    split at h
    case h_2 => cases h
    next hp =>
      split_ifs at h <;> cases h
      · exact .moves hp .sent (.inr (.inr ⟨ok, rfl⟩))
      · exact .moves hp .sendFailed (.inr (.inr ⟨ok, rfl⟩))

end Inversion

end Connections

end Westcoast.Cluster
