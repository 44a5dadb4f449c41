import Westcoast.Cluster.Streams

/-!
# Where connections lead

`NodeSound` is what a step of one node keeps, given where its new streams lead, and `Placed` what a
step of the network keeps. Only a first envelope that its dialler forwarded makes the connection for
a node lead to another (`table_sound_iff`).
-/
namespace Westcoast.Cluster

open Lib List Option Connections Function

/-! ## One node -/

namespace Connections

variable {ε : Type} {t : Topology} {s s' : Connections ε} {a : ConnAction ε}
  {far : ConnEnd → Option NodeID}

def Uses (c : ConnEnd) (x : NodeID) (p : Proc ε) : Prop :=
  p.Holds c x ∨ ∃ env, p = .sending x c env

/-- Connections lead where the node takes them to lead. -/
structure NodeSound (far : ConnEnd → Option NodeID) (s : Connections ε) : Prop where
  keyed : Keyed s
  entry : ∀ x c, s.conns.lookup x = some c → far c = some x
  uses : ∀ p ∈ s.procs, ∀ c x, Uses c x p → far c = some x
  dials : ∀ x m env, .ensureDial x m env ∈ s.procs → m.id = x

/-- A stream that is new to the node leads where it takes it to lead. -/
def Fits (far : ConnEnd → Option NodeID) (s : Connections ε) : ConnAction ε → Prop
  | .inbound remote stream =>
    far (.mk stream true) = some remote ∨ (s.conns.lookup remote).isSome = true
  | .dialReturns i (some stream) =>
    ∀ p, s.procs[i]? = some p → ∀ x, p.dialTarget = some x → far (.mk stream false) = some x
  | _ => True

section
variable (h : NodeSound far s)
include h

theorem NodeSound.mono {far' : ConnEnd → Option NodeID}
    (hfar : ∀ c x, far c = some x → far' c = some x) : NodeSound far' s :=
  ⟨h.keyed, fun x c hc => hfar c x (h.entry x c hc),
    fun p hp c x hu => hfar c x (h.uses p hp c x hu), h.dials⟩

theorem NodeSound.goto {i : ℕ} {q : Proc ε} (huses : ∀ c x, Uses c x q → far c = some x)
    (hdials : ∀ x m env, q = .ensureDial x m env → m.id = x) : NodeSound far (s.goto i q) := by
  refine ⟨h.keyed, h.entry, ?_, ?_⟩
  · intro p hp c x hu
    rcases of_mem_goto hp with hold | rfl
    · exact h.uses p hold c x hu
    · exact huses c x hu
  · intro x m env hp
    rcases of_mem_goto hp with hold | hq
    · exact h.dials x m env hold
    · exact hdials x m env hq.symm

theorem NodeSound.closes (hs : Closes s s') : NodeSound far s' := by
  refine ⟨?_, fun x c hc => h.entry x c (hs.old x c hc), ?_, ?_⟩
  · unfold Keyed
    rw [hs.peers_eq]
    exact h.keyed
  · rw [hs.procs_eq]
    exact h.uses
  · rw [hs.procs_eq]
    exact h.dials

theorem NodeSound.spawns (hs : Spawns s s') : NodeSound far s' := by
  have hpeers := hs.peers_eq
  have hconns := hs.conns_eq
  obtain ⟨-, new, hnew, hfresh⟩ := hs
  refine ⟨?_, ?_, ?_, ?_⟩
  · unfold Keyed
    rw [hpeers]
    exact h.keyed
  · rw [hconns]
    exact h.entry
  · intro p hp c x hu
    rw [hnew] at hp
    rcases mem_append.mp hp with hold | hp
    · exact h.uses p hold c x hu
    · obtain ⟨id, m, -, rfl⟩ := hfresh p hp
      rcases hu with hu | ⟨env, hu⟩ <;> cases hu
  · intro x m env hp
    rw [hnew] at hp
    rcases mem_append.mp hp with hold | hp
    · exact h.dials x m env hold
    · obtain ⟨id, m', -, hm'⟩ := hfresh _ hp
      cases hm'

theorem NodeSound.store {x : NodeID} {c : ConnEnd} (hc : far c = some x) :
    NodeSound far (s.store x c) := by
  refine ⟨?_, ?_, ?_, ?_⟩
  · unfold Keyed Connections.store
    split <;> exact h.keyed
  · intro y c' hc'
    rw [lookup_store] at hc'
    split_ifs at hc' with hy
    · subst hy
      cases hold : s.conns.lookup y with
      | none =>
        rw [hold] at hc'
        exact some.inj hc' ▸ hc
      | some c0 =>
        rw [hold] at hc'
        exact some.inj hc' ▸ h.entry y c0 hold
    · exact h.entry y c' hc'
  · unfold Connections.store
    split <;> exact h.uses
  · unfold Connections.store
    split <;> exact h.dials

theorem NodeSound.applyEvent {ev : MemberEvent} : NodeSound far (s.applyEvent ev) := by
  refine ⟨keyed_applyEvent h.keyed, ?_, ?_, ?_⟩
  · intro x c hc
    rw [lookup_applyEvent] at hc
    split_ifs at hc
    exact h.entry x c hc
  · rw [procs_applyEvent]
    exact h.uses
  · rw [procs_applyEvent]
    exact h.dials

theorem NodeSound.step (hfits : Fits far s a) (he : Effect t s a s') : NodeSound far s' := by
  have hkeyed := h.keyed.step he
  cases he with
  | member ev =>
    obtain ⟨s1, hspawns, hcloses⟩ := reconcileConnections_spec t (s.applyEvent ev)
    exact (h.applyEvent.spawns hspawns).closes hcloses
  | unchanged m => exact h
  | updated m hknown => exact ⟨hkeyed, h.entry, h.uses, h.dials⟩
  | sendRemote target env =>
    refine ⟨hkeyed, h.entry, ?_, ?_⟩
    · intro p hp c x hu
      rcases mem_append.mp hp with hold | hnew
      · exact h.uses p hold c x hu
      · rw [mem_singleton.mp hnew] at hu
        rcases hu with hu | ⟨env', hu⟩ <;> cases hu
    · intro x m env' hp
      rcases mem_append.mp hp with hold | hnew
      · exact h.dials x m env' hold
      · cases mem_singleton.mp hnew
  | inbound remote stream =>
    refine ⟨hkeyed, ?_, ?_, ?_⟩
    · intro x c hc
      rw [lookup_onConnectionEstablished] at hc
      split_ifs at hc with hx
      · subst hx
        cases hold : s.conns.lookup x with
        | none =>
          rw [hold] at hc
          rcases hfits with hfar | hsome
          · exact some.inj hc ▸ hfar
          · rw [hold] at hsome
            cases hsome
        | some c0 =>
          rw [hold] at hc
          exact some.inj hc ▸ h.entry x c0 hold
      · exact h.entry x c hc
    · unfold onConnectionEstablished
      split <;> exact h.uses
    · unfold onConnectionEstablished
      split <;> exact h.dials
  | moves hp hmoves ha =>
    refine h.goto ?_ ?_
    · intro c x hu
      cases hmoves with
      | found hp' hc =>
        rcases hu with hu | ⟨env', hu⟩
        · exact hu.elim
        · cases hu
          exact h.entry _ _ hc
      | dialFailed | missing | routed | ensure hp' | ensureDial hm | unreachable hp' | sent
      | sendFailed => rcases hu with hu | ⟨env', hu⟩ <;> cases hu
    · intro x m env' hq
      cases hmoves with
      | ensureDial hm =>
        cases hq
        exact h.keyed _ _ hm
      | found hp' hc | dialFailed | missing | routed | ensure hp' | unreachable hp' | sent
      | sendFailed => cases hq
  | @peerDialed i stream m hp =>
    have hfar := hfits _ hp m.id rfl
    have h' : NodeSound far { s with dialed := s.dialed ++ [(.mk stream false, m.id)] } :=
      ⟨h.keyed, h.entry, h.uses, h.dials⟩
    refine h'.goto ?_ fun x m' env hq => by cases hq
    rintro c x (⟨rfl, rfl⟩ | ⟨env, hu⟩)
    · exact hfar
    · cases hu
  | @ensureDialed i stream n m env hp =>
    have hid := h.dials n m env (mem_of_getElem? hp)
    have hfar := hfits _ hp m.id rfl
    rw [hid] at hfar
    have h' : NodeSound far { s with dialed := s.dialed ++ [(.mk stream false, n)] } :=
      ⟨h.keyed, h.entry, h.uses, h.dials⟩
    refine h'.goto ?_ fun x m' env' hq => by cases hq
    rintro c x (⟨rfl, rfl⟩ | ⟨env', hu⟩)
    · exact hfar
    · cases hu
  | @notDialed i m hp =>
    have h' : NodeSound far { s with dialing := s.dialing.erase m.id } :=
      ⟨h.keyed, h.entry, h.uses, h.dials⟩
    refine h'.goto ?_ fun x m' env hq => by cases hq
    rintro c x (hu | ⟨env, hu⟩) <;> cases hu
  | @peerStored i m c hp =>
    have hfar := h.uses _ (mem_of_getElem? hp) c m.id (.inl ⟨rfl, rfl⟩)
    have h' : NodeSound far { s with dialing := s.dialing.erase m.id } :=
      ⟨h.keyed, h.entry, h.uses, h.dials⟩
    refine (h'.goto (q := .done) (i := i) ?_ fun x m' env hq => by cases hq).store hfar
    rintro c x (hu | ⟨env, hu⟩) <;> cases hu
  | @ensureStored i n c env hp =>
    have hfar := h.uses _ (mem_of_getElem? hp) c n (.inl ⟨rfl, rfl⟩)
    refine (h.goto (i := i) (q := .sending n ((s.conns.lookup n).getD c) env) ?_
      fun x m' env' hq => by cases hq).store hfar
    rintro c' x (hu | ⟨env', hu⟩)
    · exact hu.elim
    · cases hu
      cases hold : s.conns.lookup n with
      | none => exact hfar
      | some c0 => exact h.entry n c0 hold
  | @removed i n hp =>
    refine (h.goto (q := .done) (i := i) ?_ fun x m env hq => by cases hq).closes
      (closes_removeConnection _ _)
    rintro c x (hu | ⟨env, hu⟩) <;> cases hu

end

theorem nodeSound_new (self : NodeMeta) : NodeSound far (new self : Connections ε) := by
  refine ⟨keyed_new self, ?_, nofun, nofun⟩
  intro x c hc
  rw [new, AList.lookup_empty] at hc
  cases hc

end Connections

namespace Network

variable {β : Type} {cfg : NetConfig} {s s' : Network β} {a : StreamAction β}
  {es : List (StreamEvent β)}

/-! ## The table -/

def Placed (s : Network β) : Prop := ∀ n, (s.nodes n).NodeSound s.farEnd

variable {t : Topology} {n : NodeID} {b : ConnAction (WireEnvelope β)}

theorem nodeSound_act {far : ConnEnd → Option NodeID} (h : ∀ m, (s.nodes m).NodeSound far)
    (hfits : (s.nodes n).Fits far b) (ha : s.act t n b = some s') :
    ∀ m, (s'.nodes m).NodeSound far := by
  obtain ⟨c, evs, hc, rfl⟩ := act_eq_some ha
  intro m
  by_cases hm : m = n
  · subst hm
    simp only [update_self]
    exact (h m).step hfits (step_effect hc)
  · simp only [update_of_ne hm]
    exact h m

variable {k : ℕ} {st : Stream β} {env : WireEnvelope β}

section

variable (h : Placed s)

include h

theorem Placed.act (hfits : (s.nodes n).Fits s.farEnd b)
    (ha : s.act t n b = some s') : Placed s' := by
  unfold Placed
  rw [farEnd_congr (streams_act ha)]
  exact nodeSound_act h hfits ha

theorem Placed.setStream {st' : Stream β} (hst : s.streams[k]? = some st)
    (hd : st'.dialler = st.dialler) (ha : st'.acceptor = st.acceptor) :
    Placed (s.setStream k st') := by
  unfold Placed
  rw [farEnd_setStream hst hd ha]
  exact h

theorem Placed.writeTo {conn : ConnEnd} : Placed (s.writeTo conn env) := by
  unfold Network.writeTo
  split
  · exact h
  · next st hst =>
    refine h.setStream hst ?_ ?_ <;> split_ifs <;> rfl

theorem Placed.dispatch {node src : NodeID}
    (hs : s.dispatch cfg node src env = some (s', es)) : Placed s' := by
  unfold Network.dispatch at hs
  split_ifs at hs
  · obtain ⟨s1, hact, hs'⟩ := map_eq_some_iff.mp hs
    cases hs'
    exact h.act (b := .sendRemote env.targetNode env) trivial hact
  · cases hs
    exact h
  · cases hs
    exact h

theorem Placed.openStream {target : NodeID} {i : ℕ}
    (htarget : (s.nodes n).procs[i]?.bind Proc.dialTarget = some target)
    (hs : s.openStream t n i target = some s') : Placed s' := by
  obtain ⟨s1, hact, rfl⟩ := map_eq_some_iff.mp hs
  have hstreams := streams_act hact
  have hfar : ∀ c x, s.farEnd c = some x →
      Network.farEnd { s1 with streams := s1.streams ++ [⟨n, target, [], [], none⟩] } c =
        some x := by
    intro c x hc
    obtain ⟨st, hst, hx⟩ := map_eq_some_iff.mp hc
    obtain ⟨hlt, -⟩ := List.getElem?_eq_some_iff.mp hst
    simp only [farEnd, hstreams]
    rw [getElem?_append_left hlt, hst, map_some, hx]
  have hfits : (s.nodes n).Fits
      (Network.farEnd { s1 with streams := s1.streams ++ [⟨n, target, [], [], none⟩] })
      (.dialReturns i (some s.streams.length)) := by
    intro p hp x hx
    obtain rfl : target = x := by
      rw [hp] at htarget
      exact some.inj (htarget.symm.trans hx)
    simp [farEnd, hstreams]
  have hnodes := nodeSound_act (fun m => (h m).mono hfar) hfits hact
  exact hnodes

/-- The first envelope read from a stream was created by the node that opened it, or its sender has
a connection. -/
def FirstOwn (s : Network β) : StreamAction β → Prop
  | .readUp k => ∀ st ∈ s.streams[k]?, st.remoteID = none → ∀ env ∈ st.up.head?,
      env.senderNode = st.dialler ∨
        ((s.nodes st.acceptor).conns.lookup env.senderNode).isSome = true
  | _ => True

instance : DecidablePred s.FirstOwn
  | .readUp k => inferInstanceAs (Decidable (∀ st ∈ s.streams[k]?, st.remoteID = none →
      ∀ env ∈ st.up.head?, env.senderNode = st.dialler ∨
        ((s.nodes st.acceptor).conns.lookup env.senderNode).isSome = true))
  | .member _ _ | .updatePeerMeta _ _ | .create _ | .dial _ _ _ | .locked _ _ | .write _ _ _
  | .readDown _ => .isTrue trivial

theorem Placed.step (hown : s.FirstOwn a) (hs : s.step cfg a = some (s', es)) :
    Placed s' := by
  have hact : ∀ n b, (s.nodes n).Fits s.farEnd b →
      ((s.act cfg.topology n b).map fun s' => (s', ([] : List (StreamEvent β)))) = some (s', es) →
      Placed s' := by
    intro n b hfits hmap
    obtain ⟨s1, hs1, hs'⟩ := map_eq_some_iff.mp hmap
    cases hs'
    exact h.act hfits hs1
  cases a with
  | member n ev => exact hact n (.member ev) trivial hs
  | updatePeerMeta n m => exact hact n (.updatePeerMeta m) trivial hs
  | create env => exact hact env.senderNode (.sendRemote env.targetNode env) trivial hs
  | locked n i => exact hact n (.locked i) trivial hs
  | dial n i ok =>
    cases ok with
    | false => exact hact n (.dialReturns i none) trivial hs
    | true =>
      obtain ⟨target, htarget, hopen⟩ := bind_eq_some_iff.mp hs
      obtain ⟨s1, hs1, hs'⟩ := map_eq_some_iff.mp hopen
      cases hs'
      exact h.openStream htarget hs1
  | write n i ok =>
    simp only [Network.step] at hs
    split at hs
    case h_2 => cases hs
    obtain ⟨s1, hs1, hs'⟩ := map_eq_some_iff.mp hs
    cases hs'
    have h1 := h.act (b := .sendReturns i ok) trivial hs1
    split_ifs
    · exact h1.writeTo
    · exact h1
  | readUp k =>
    simp only [Network.step] at hs
    split at hs
    case h_2 => cases hs
    next st hst =>
      split at hs
      case h_2 => cases hs
      next env rest hup =>
        unfold Network.readUp at hs
        split at hs
        · have hset : Placed (s.setStream k { st with up := rest }) := h.setStream hst rfl rfl
          exact hset.dispatch hs
        · next hnone =>
          obtain ⟨s1, hs1, hdisp⟩ := bind_eq_some_iff.mp hs
          have hset : Placed (s.setStream k
              { st with up := rest, remoteID := some env.senderNode }) :=
            h.setStream hst rfl rfl
          refine (hset.act ?_ hs1).dispatch hdisp
          -- the stream leads to its dialler, or is not stored
          rcases hown st hst hnone env (by rw [hup]; rfl) with hsender | hentry
          · refine .inl ?_
            have hfar : (s.setStream k
                { st with up := rest, remoteID := some env.senderNode }).farEnd = s.farEnd :=
              farEnd_setStream hst rfl rfl
            rw [hfar, farEnd, hst, hsender]
            rfl
          · exact .inr hentry
  | readDown k =>
    simp only [Network.step] at hs
    split at hs
    case h_2 => cases hs
    next st hst =>
      split at hs
      case h_2 => cases hs
      next env rest hdown =>
        have hset : Placed (s.setStream k { st with down := rest }) := h.setStream hst rfl rfl
        exact hset.dispatch hs

end

theorem placed_run {self : NodeID → NodeMeta} {tr : List (StreamEvent β)}
    (hrun : Run (step cfg) FirstOwn (new self) tr s) : Placed s :=
  hrun.invariant_state Placed (fun _ => nodeSound_new _)
    fun _ _ _ _ h hown hs => h.step hown hs

theorem stored_under_sender {rest : List (WireEnvelope β)} (hst : s.streams[k]? = some st)
    (hnone : st.remoteID = none) (hup : st.up = env :: rest)
    (hentry : (s.nodes st.acceptor).conns.lookup env.senderNode = none)
    (hs : s.step cfg (.readUp k) = some (s', es)) :
    (s'.nodes st.acceptor).conns.lookup env.senderNode = some (.mk k true) ∧
      s'.farEnd (.mk k true) = some st.dialler := by
  simp only [step, hst, hup, readUp, hnone] at hs
  obtain ⟨s1, hact, hdisp⟩ := bind_eq_some_iff.mp hs
  obtain ⟨hstreams, hconns⟩ := dispatch_frame hdisp
  have hset : (s.setStream k
      { st with up := rest, remoteID := some env.senderNode }).farEnd = s.farEnd :=
    farEnd_setStream hst rfl rfl
  constructor
  · rw [hconns]
    obtain ⟨c, evs, hc, rfl⟩ := act_eq_some hact
    obtain ⟨-, hc⟩ := ite_none_left_eq_some.mp hc
    cases hc
    simp only [update_self]
    rw [lookup_onConnectionEstablished, if_pos rfl]
    exact congrArg some (congrArg (Option.getD · _) hentry)
  · rw [farEnd_congr hstreams, farEnd_congr (streams_act hact), hset, farEnd, hst]
    rfl

/-- **The tables are sound** as long as the first envelope of each stream is its dialler's own, and
so are the connections on which goroutines send; any other that finds its sender without a
connection makes one unsound. -/
theorem table_sound_iff (cfg : NetConfig) (self : NodeID → NodeMeta) (tr : List (StreamEvent β))
    (s : Network β) (hrun : Run (step cfg) FirstOwn (new self) tr s) : TableSound s ∧
      (∀ n x conn env, .sending x conn env ∈ (s.nodes n).procs → s.farEnd conn = some x) ∧
      ∀ a s' es, s.step cfg a = some (s', es) → (TableSound s' ↔ s.FirstOwn a) := by
  have hplaced := placed_run hrun
  refine ⟨fun n => (hplaced n).entry, ?_, ?_⟩
  · intro n x conn env hp
    exact (hplaced n).uses _ hp conn x (.inr ⟨env, rfl⟩)
  · intro a s' es hs
    refine ⟨fun hsound => ?_, fun hown n => (hplaced.step hown hs n).entry⟩
    by_contra hforeign
    cases a with
    | readUp k =>
      simp only [FirstOwn, not_forall, not_or] at hforeign
      obtain ⟨st, hst, hnone, env, henv, hne, hentry⟩ := hforeign
      obtain ⟨rest, hup⟩ := head?_eq_some_iff.mp henv
      rw [Bool.not_eq_true, isSome_eq_false_iff, isNone_iff_eq_none] at hentry
      obtain ⟨hstored, hfar⟩ := stored_under_sender hst hnone hup hentry hs
      exact hne (some.inj ((hsound _ _ _ hstored).symm.trans hfar))
    | member n ev | updatePeerMeta n m | create env | dial n i ok | locked n i | write n i ok
    | readDown k => exact hforeign trivial

/-! ### Five nodes on a ring -/

/-- A ring with one neighbour on each side and a handler for gossip on every node. -/
def ringConfig : NetConfig := ⟨(⟨1⟩ : RingTopology).topology, fun _ => ["__gossip"]⟩

def fiveNodes : Network Unit := new fun n => ⟨n, n, []⟩

def envelope (src dst : NodeID) (typeName : String) : WireEnvelope Unit :=
  { targetNode := dst, targetActorID := "", ns := "", generation := 0, typeName, payload := (),
    isAsk := false, askRequestID := "", askReplyTo := none, senderNode := src }

def joins (node : NodeID) (ids : List NodeID) : List (StreamAction Unit) :=
  ids.map fun id => .member node ⟨.join, ⟨id, id, []⟩⟩

/-- A goroutine of `SendRemote` that finds no connection dials and writes; `hops` are the locked
sections until then. -/
def dialAndWrite (node : NodeID) (i hops : ℕ) : List (StreamAction Unit) :=
  List.replicate hops (.locked node i) ++ [.dial node i true, .locked node i, .write node i true]

/-- `d` sends gossip to `b` by way of `c`, which opens a stream to `b` for it and then sends gossip
of its own. -/
def forwardedFirst : List (StreamAction Unit) :=
  joins "d" ["a", "b", "c", "e"] ++ joins "c" ["a", "b", "d", "e"] ++
    [.create (envelope "d" "b" "__gossip")] ++ dialAndWrite "d" 4 4 ++ [.readUp 0] ++
    dialAndWrite "c" 4 3 ++ [.readUp 1] ++
    [.create (envelope "c" "b" "__gossip"), .locked "c" 5, .write "c" 5 true, .readUp 1]

/-- The stream from `c` stands in the table of `b` as the connection to `d`. -/
theorem stream_under_wrong_name : ∃ tr s, Run (step ringConfig) anyStep fiveNodes tr s ∧
      (s.nodes "b").conns.lookup "d" = some ⟨1, true⟩ ∧ s.farEnd ⟨1, true⟩ = some "c" := by
  exact Run.of_check forwardedFirst (by decide +kernel)

/-- `c` sends to `b` first, and then forwards what `d` sends there, be it gossip or for an actor. -/
def ownFirst (typeName : String) : List (StreamAction Unit) :=
  joins "d" ["a", "b", "c", "e"] ++ joins "c" ["a", "b", "d", "e"] ++
    [.create (envelope "c" "b" "__gossip")] ++ dialAndWrite "c" 4 3 ++ [.readUp 0] ++
    [.create (envelope "d" "b" typeName)] ++ dialAndWrite "d" 4 4 ++ [.readUp 1] ++
    [.locked "c" 5, .write "c" 5 true, .readUp 0]

theorem table_sound_ownFirst :
    ∃ tr s, Run (step ringConfig) FirstOwn fiveNodes tr s ∧ TableSound s ∧
      (s.nodes "b").conns.lookup "c" = some ⟨0, true⟩ :=
  Run.of_check_then (ownFirst "__gossip") (by decide +kernel) fun tr s hrun hconn =>
    ⟨tr, s, hrun, (table_sound_iff _ _ tr s hrun).1, hconn⟩

end Network

end Westcoast.Cluster
