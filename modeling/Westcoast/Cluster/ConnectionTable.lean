import Mathlib.Data.Fintype.EquivFin
import Westcoast.Cluster.Connections

/-!
# The table of connections over every run

A connection that a node dialled is held by the goroutine that dialled it, and then in the table or
closed (`Owned`). For each peer one goroutine at most dials in the background (`OneDial`). A dial in
flight when a peer departs puts its connection into the table after it
(`departed_stays_disconnected_iff`).
-/
namespace Westcoast.Cluster

open Lib List Proc Option

namespace Proc

variable {ε : Type}

/-- The goroutine holds a connection that it dialled for a node. -/
def Holds (c : ConnEnd) (n : NodeID) : Proc ε → Prop
  | peerDialed m (some c') => c' = c ∧ m.id = n
  | ensureDialed n' c' _ => c' = c ∧ n' = n
  | _ => False

def background (n : NodeID) : Proc ε → Bool
  | dialPeer m | peerDialed m _ => m.id = n
  | _ => false

/-- The goroutine will connect a node, unless its dial fails or there is a connection. -/
def Dials (n : NodeID) : Proc ε → Prop
  | dialPeer m | peerDialed m (some _) => m.id = n
  | ensureDial n' _ _ | ensureDialed n' _ _ => n' = n
  | _ => False

end Proc

namespace Connections

variable {ε : Type} {t : Topology} {s s' : Connections ε} {a : ConnAction ε}

/-! ## Goroutines -/

variable {i : ℕ} {p q : Proc ε}

theorem mem_goto {r : Proc ε} (hi : s.procs[i]? = some p) (hr : r ∈ s.procs) :
    r ∈ (s.goto i q).procs ∨ r = p := by
  obtain ⟨j, hj⟩ := mem_iff_getElem?.mp hr
  by_cases hij : i = j
  · subst hij
    exact .inr (some.inj (hj.symm.trans hi))
  · refine .inl (mem_of_getElem? (i := j) ?_)
    rw [goto, getElem?_set_ne hij]
    exact hj

theorem self_mem_goto (hi : s.procs[i]? = some p) : q ∈ (s.goto i q).procs := by
  obtain ⟨hlt, -⟩ := List.getElem?_eq_some_iff.mp hi
  exact mem_set hlt q

theorem of_mem_goto {r : Proc ε} (hr : r ∈ (s.goto i q).procs) : r ∈ s.procs ∨ r = q :=
  mem_or_eq_of_mem_set hr

/-! ## Ownership -/

/-- What was dialled is held by its goroutine, in the table, or closed. -/
def Owned (s : Connections ε) : Prop :=
  ∀ c n, (c, n) ∈ s.dialed → (∃ p ∈ s.procs, p.Holds c n) ∨ s.conns.lookup n = some c ∨ c ∈ s.closed

section
variable (h : Owned s)
include h

theorem Owned.of_kept (hdialed : s'.dialed = s.dialed) (hclosed : ∀ c ∈ s.closed, c ∈ s'.closed)
    (hconns : ∀ n c, s.conns.lookup n = some c → s'.conns.lookup n = some c ∨ c ∈ s'.closed)
    (hprocs : ∀ p ∈ s.procs, ∀ c n, p.Holds c n →
      (∃ p' ∈ s'.procs, p'.Holds c n) ∨ s'.conns.lookup n = some c ∨ c ∈ s'.closed) :
    Owned s' := by
  intro c n hc
  rw [hdialed] at hc
  rcases h c n hc with ⟨p, hp, hholds⟩ | hconn | hcl
  · exact hprocs p hp c n hholds
  · exact .inr (hconns n c hconn)
  · exact .inr (.inr (hclosed c hcl))

theorem Owned.closes (hs : Closes s s') : Owned s' := by
  refine h.of_kept (by rw [hs.frame]) hs.closed_mono ?_ ?_
  · intro n c hc
    exact (hs.entry n c hc).imp_right And.right
  · intro p hp c n hholds
    exact .inl ⟨p, hs.procs_eq ▸ hp, hholds⟩

theorem Owned.spawns (hs : Spawns s s') : Owned s' := by
  have hconns := hs.conns_eq
  obtain ⟨hframe, new, hnew, -⟩ := hs
  have hclosed : s'.closed = s.closed := by rw [hframe]
  refine h.of_kept (by rw [hframe]) (fun c hc => hclosed ▸ hc) ?_ ?_
  · intro n c hc
    rw [hconns]
    exact .inl hc
  · intro p hp c n hholds
    exact .inl ⟨p, by rw [hnew]; exact mem_append_left _ hp, hholds⟩

theorem Owned.goto (hp : s.procs[i]? = some p) (hnone : ∀ c n, ¬ p.Holds c n) :
    Owned (s.goto i q) := by
  refine h.of_kept rfl (fun _ => id) (fun _ _ => .inl) ?_
  intro r hr c n hholds
  rcases mem_goto hp hr with hr' | rfl
  · exact .inl ⟨r, hr', hholds⟩
  · exact absurd hholds (hnone c n)

variable {n : NodeID} {c : ConnEnd}

theorem Owned.store (hp : s.procs[i]? = some p) (honly : ∀ c' n', p.Holds c' n' → c' = c ∧ n' = n) :
    Owned ((s.goto i q).store n c) := by
  have hlook : ∀ k, ((s.goto i q).store n c).conns.lookup k =
      if k = n then some ((s.conns.lookup n).getD c) else s.conns.lookup k :=
    fun k => lookup_store
  have hprocs : ((s.goto i q).store n c).procs = (s.goto i q).procs := by
    unfold Connections.store
    split <;> rfl
  have hclosed : ∀ c' ∈ s.closed, c' ∈ ((s.goto i q).store n c).closed := by
    intro c' hc'
    unfold Connections.store
    split
    · exact mem_append_left _ hc'
    · exact hc'
  refine h.of_kept ?_ hclosed ?_ ?_
  · unfold Connections.store
    split <;> rfl
  · intro k c' hc'
    rw [hlook]
    split_ifs with hk
    · rw [← hk, hc']
      exact .inl rfl
    · exact .inl hc'
  · intro r hr c' n' hholds
    rcases mem_goto (q := q) hp hr with hr' | rfl
    · exact .inl ⟨r, hprocs ▸ hr', hholds⟩
    · obtain ⟨rfl, rfl⟩ := honly c' n' hholds
      -- it is in the table now, or another one was and it is closed
      cases hold : s.conns.lookup n' with
      | none =>
        refine .inr (.inl ?_)
        rw [hlook, if_pos rfl, hold]
        rfl
      | some c0 =>
        refine .inr (.inr ?_)
        have hold' : (s.goto i q).conns.lookup n' = some c0 := hold
        simp only [Connections.store, hold']
        exact mem_append_right _ (mem_singleton_self c')

theorem Owned.dialed (hp : s.procs[i]? = some p) (hnone : ∀ c n, ¬ p.Holds c n) (hq : q.Holds c n) :
    Owned ({ s with dialed := s.dialed ++ [(c, n)] }.goto i q) := by
  intro c' n' hc'
  rcases mem_append.mp hc' with hold | hnew
  · exact h.goto (q := q) hp hnone c' n' hold
  · obtain ⟨rfl, rfl⟩ := Prod.mk.inj (mem_singleton.mp hnew)
    exact .inl ⟨q, self_mem_goto (s := { s with dialed := s.dialed ++ [(c', n')] }) hp, hq⟩

variable {ev : MemberEvent}

theorem Owned.applyEvent : Owned (s.applyEvent ev) := by
  unfold Connections.applyEvent
  split_ifs
  · have h' : Owned { s with peers := s.peers.erase ev.member.id } := h
    exact h'.closes (closes_removeConnection _ _)
  · exact h

theorem Owned.step (he : Effect t s a s') : Owned s' := by
  cases he with
  | member ev =>
    obtain ⟨s1, hspawns, hcloses⟩ := reconcileConnections_spec t (s.applyEvent ev)
    exact ((h.applyEvent).spawns hspawns).closes hcloses
  | unchanged m => exact h
  | updated m hknown => exact h
  | sendRemote target env =>
    refine h.of_kept rfl (fun _ => id) (fun _ _ => .inl) ?_
    intro p hp c n hholds
    exact .inl ⟨p, mem_append_left _ hp, hholds⟩
  | inbound remote stream =>
    refine h.of_kept ?_ ?_ ?_ ?_
    · unfold onConnectionEstablished
      split <;> rfl
    · intro c hc
      unfold onConnectionEstablished
      split <;> exact hc
    · intro n c hc
      rw [lookup_onConnectionEstablished]
      split_ifs with hn
      · subst hn
        rw [hc]
        exact .inl rfl
      · exact .inl hc
    · intro p hp c n hholds
      refine .inl ⟨p, ?_, hholds⟩
      unfold onConnectionEstablished
      split <;> exact hp
  | moves hp hmoves ha =>
    refine h.goto hp ?_
    intro c n hholds
    cases hmoves with
    | found hp' hc | ensure hp' => rcases hp' with rfl | rfl <;> exact hholds
    | unreachable hp' => rcases hp' with rfl | rfl | ⟨m, rfl⟩ <;> exact hholds
    | dialFailed | missing | routed | ensureDial hm | sent | sendFailed => exact hholds
  | peerDialed hp | ensureDialed hp => exact h.dialed hp (fun _ _ => id) ⟨rfl, rfl⟩
  | @notDialed i m hp =>
    have h' : Owned { s with dialing := s.dialing.erase m.id } := h
    exact h'.goto hp (fun _ _ => id)
  | @peerStored i m c hp =>
    have h' : Owned { s with dialing := s.dialing.erase m.id } := h
    exact h'.store hp fun c' n' hh => ⟨hh.1.symm, hh.2.symm⟩
  | ensureStored hp => exact h.store hp fun c' n' hh => ⟨hh.1.symm, hh.2.symm⟩
  | removed hp =>
    exact (h.goto hp fun _ _ => id).closes (closes_removeConnection _ _)

end

/-! ## Entries are not overwritten -/

theorem step_not_overwritten (he : Effect t s a s') {c' : ConnEnd}
    (hc : s.conns.lookup n = some c) (hc' : s'.conns.lookup n = some c') : c' = c := by
  have hsame : s'.conns = s.conns → c' = c := fun h => some.inj ((h ▸ hc').symm.trans hc)
  cases he with
  | member ev =>
    obtain ⟨s1, hspawns, hcloses⟩ := reconcileConnections_spec t (s.applyEvent ev)
    have hmid := hcloses.old n c' hc'
    rw [hspawns.conns_eq] at hmid
    have hold : s.conns.lookup n = some c' := by
      unfold applyEvent at hmid
      split_ifs at hmid
      · have hcloses' := closes_removeConnection
          { s with peers := s.peers.erase ev.member.id } ev.member.id
        exact hcloses'.old n c' hmid
      · exact hmid
    exact some.inj (hold.symm.trans hc)
  | inbound remote stream =>
    rw [lookup_onConnectionEstablished] at hc'
    split_ifs at hc' with hn
    · subst hn
      simp only [hc, getD_some, some.injEq] at hc'
      exact hc'.symm
    · exact some.inj (hc'.symm.trans hc)
  | @peerStored i m conn hp =>
    rw [lookup_store] at hc'
    have hlook : ({ s with dialing := s.dialing.erase m.id }.goto i .done).conns = s.conns := rfl
    rw [hlook] at hc'
    split_ifs at hc' with hn
    · rw [← hn, hc] at hc'
      exact (some.inj hc').symm
    · exact some.inj (hc'.symm.trans hc)
  | @ensureStored i n' conn env hp =>
    rw [lookup_store] at hc'
    have hlook : (s.goto i (.sending n' ((s.conns.lookup n').getD conn) env)).conns = s.conns := rfl
    rw [hlook] at hc'
    split_ifs at hc' with hn
    · rw [← hn, hc] at hc'
      exact (some.inj hc').symm
    · exact some.inj (hc'.symm.trans hc)
  | removed hp =>
    have hold := (closes_removeConnection _ _).old n c' hc'
    exact some.inj (hold.symm.trans hc)
  | unchanged m | updated m hknown | sendRemote target env | moves hp hmoves ha | peerDialed hp
  | ensureDialed hp | notDialed hp => exact hsame rfl

/-! ## One dial in the background -/

def Keyed (s : Connections ε) : Prop := ∀ id m, s.peers.lookup id = some m → m.id = id

theorem keyed_insert {m : NodeMeta} (h : Keyed s) :
    Keyed { s with peers := s.peers.insert m.id m } := by
  intro id m' hm'
  rw [lookup_insert_ite] at hm'
  split_ifs at hm' with hid
  · cases hm'
    exact hid.symm
  · exact h id m' hm'

theorem peers_handleMemberEvent : (s.handleMemberEvent t ev).peers = (s.applyEvent ev).peers := by
  obtain ⟨s1, hspawns, hcloses⟩ := reconcileConnections_spec t (s.applyEvent ev)
  exact hcloses.peers_eq.trans hspawns.peers_eq

theorem peers_applyEvent : (s.applyEvent ev).peers =
    if ev.type.departs then s.peers.erase ev.member.id
    else s.peers.insert ev.member.id ev.member := by
  unfold applyEvent
  split_ifs
  · exact (closes_removeConnection _ _).peers_eq
  · rfl

theorem keyed_applyEvent (h : Keyed s) : Keyed (s.applyEvent ev) := by
  intro id m hm
  rw [peers_applyEvent] at hm
  split_ifs at hm
  · rw [lookup_erase_ite] at hm
    split_ifs at hm
    exact h id m hm
  · exact keyed_insert h id m hm

theorem Keyed.step (h : Keyed s) (he : Effect t s a s') : Keyed s' := by
  cases he with
  | member ev =>
    intro id m hm
    rw [peers_handleMemberEvent] at hm
    exact keyed_applyEvent h id m hm
  | updated m hknown => exact keyed_insert h
  | inbound remote stream =>
    unfold Keyed onConnectionEstablished
    split <;> exact h
  | peerStored hp | ensureStored hp =>
    unfold Keyed store
    split <;> exact h
  | removed hp =>
    unfold Keyed
    rw [(closes_removeConnection _ _).peers_eq]
    exact h
  | unchanged m | sendRemote target env | moves hp hmoves ha | peerDialed hp
  | ensureDialed hp | notDialed hp => exact h

theorem keyed_new (self : NodeMeta) : Keyed (new self : Connections ε) := by
  intro id m h
  rw [new, AList.lookup_empty] at h
  cases h

/-- The goroutines that dial a peer in the background are as many as `dialing` says. -/
def OneDial (s : Connections ε) : Prop :=
  ∀ n, s.procs.countP (background n) = if (s.dialing.lookup n).getD false then 1 else 0

theorem countP_goto (hp : s.procs[i]? = some p) (hq : q.background n = p.background n) :
    (s.goto i q).procs.countP (background n) = s.procs.countP (background n) := by
  obtain ⟨hlt, rfl⟩ := List.getElem?_eq_some_iff.mp hp
  rw [goto, List.countP_set hlt, hq]
  split_ifs with hb
  · have hpos : 0 < s.procs.countP (background n) :=
      countP_pos_iff.mpr ⟨_, getElem_mem hlt, hb⟩
    omega
  · rfl

theorem OneDial.goto (h : OneDial s) (hp : s.procs[i]? = some p)
    (hq : ∀ n, q.background n = p.background n) : OneDial (s.goto i q) :=
  fun n => (countP_goto hp (hq n)).trans (h n)

theorem OneDial.ends {m : NodeMeta} {conn : Option ConnEnd} (h : OneDial s)
    (hp : s.procs[i]? = some (.peerDialed m conn)) :
    OneDial ({ s with dialing := s.dialing.erase m.id }.goto i .done) := by
  intro n
  obtain ⟨hlt, hget⟩ := List.getElem?_eq_some_iff.mp hp
  change (s.procs.set i .done).countP (background n) =
    if ((s.dialing.erase m.id).lookup n).getD false then 1 else 0
  rw [List.countP_set hlt, hget, lookup_erase_ite, h n]
  by_cases hn : n = m.id
  · subst hn
    have hcount : 0 < s.procs.countP (background m.id) :=
      countP_pos_iff.mpr ⟨_, mem_of_getElem? hp, by simp [background]⟩
    rw [h m.id] at hcount
    split_ifs at hcount with hd
    · simp [background, hd]
    · cases hcount
  · simp [background, hn, Ne.symm hn]

theorem OneDial.dialMissing {id : NodeID} (hkeyed : Keyed s) (h : OneDial s) :
    OneDial (s.dialMissing id) := by
  unfold Connections.dialMissing
  split_ifs with hmiss
  · cases hm : s.peers.lookup id with
    | none => exact h
    | some m =>
      intro n
      obtain ⟨-, hfree⟩ := Bool.and_eq_true_iff.mp hmiss
      rw [Bool.not_eq_true'] at hfree
      simp only [countP_append, h n, lookup_insert_ite]
      by_cases hn : n = id
      · subst hn
        simp [hfree, background, hkeyed n m hm]
      · have hne : m.id ≠ n := fun heq => hn (heq.symm.trans (hkeyed id m hm))
        simp [hn, background, hne]
  · exact h

theorem OneDial.foldl_dialMissing {ids : List NodeID} (hkeyed : Keyed s) (h : OneDial s) :
    OneDial (ids.foldl Connections.dialMissing s) := by
  induction ids generalizing s with
  | nil => exact h
  | cons id ids ih =>
    refine ih ?_ (h.dialMissing hkeyed)
    unfold Keyed
    rw [(spawns_dialMissing s id).peers_eq]
    exact hkeyed

theorem OneDial.closes (h : OneDial s) (hs : Closes s s') : OneDial s' := by
  unfold OneDial
  rw [hs.frame]
  exact h

theorem Moves.background (h : Moves t s p q) (n : NodeID) : q.background n = p.background n := by
  cases h with
  | found hp hc | ensure hp => rcases hp with rfl | rfl <;> rfl
  | unreachable hp => rcases hp with rfl | rfl | ⟨m, rfl⟩ <;> rfl
  | dialFailed | missing | routed | ensureDial hm | sent | sendFailed => rfl

theorem OneDial.store (h : OneDial s) : OneDial (s.store n c) := by
  unfold OneDial Connections.store
  split <;> exact h

theorem OneDial.step (hkeyed : Keyed s) (h : OneDial s) (he : Effect t s a s') : OneDial s' := by
  cases he with
  | member ev =>
    have happly : OneDial (s.applyEvent ev) := by
      unfold applyEvent
      split_ifs
      · have h' : OneDial { s with peers := s.peers.erase ev.member.id } := h
        exact h'.closes (closes_removeConnection _ _)
      · exact h
    exact (happly.foldl_dialMissing (keyed_applyEvent hkeyed)).closes (closes_foldl _ _)
  | sendRemote target env =>
    intro n
    rw [← h n, countP_append]
    rfl
  | inbound remote stream =>
    unfold OneDial onConnectionEstablished
    split <;> exact h
  | moves hp hmoves ha => exact h.goto hp hmoves.background
  | @peerDialed i stream m hp => exact h.goto (q := .peerDialed m _) hp fun _ => rfl
  | @ensureDialed i stream n m env hp => exact h.goto (q := .ensureDialed n _ env) hp fun _ => rfl
  | notDialed hp => exact h.ends hp
  | peerStored hp => exact (h.ends hp).store
  | @ensureStored i n c env hp =>
    exact (h.goto (q := .sending n ((s.conns.lookup n).getD c) env) hp fun _ => rfl).store
  | removed hp =>
    exact (h.goto (q := .done) hp fun _ => rfl).closes (closes_removeConnection _ _)
  | unchanged m | updated m hknown => exact h

/-! ## No leaks -/

/-- No connection is lost or overwritten, and no peer is dialled twice in the background. -/
structure NoLeaks (t : Topology) (s : Connections ε) : Prop where
  owned : ∀ c n, (c, n) ∈ s.dialed →
    (∃ p ∈ s.procs, p.Holds c n) ∨ s.conns.lookup n = some c ∨ c ∈ s.closed
  kept : ∀ a s' es n c c', s.step t a = some (s', es) → s.conns.lookup n = some c →
    s'.conns.lookup n = some c' → c' = c
  oneDial : ∀ n, s.procs.countP (background n) ≤ 1

/-- **No connection leaks**: in every state of every run. -/
theorem no_connection_leaks (t : Topology) (self : NodeMeta) (tr : List ConnEvent)
    (s : Connections ε) (hrun : Run (step t) anyStep (new self) tr s) : NoLeaks t s := by
  have hinv : Keyed s ∧ OneDial s ∧ Owned s := by
    refine hrun.invariant_state (fun s => Keyed s ∧ OneDial s ∧ Owned s) ?_ ?_
    · exact ⟨keyed_new self, fun n => rfl, nofun⟩
    · rintro s a s' es ⟨hkeyed, hone, howned⟩ - hs
      have he := step_effect hs
      exact ⟨hkeyed.step he, hone.step hkeyed he, howned.step he⟩
  obtain ⟨-, hone, howned⟩ := hinv
  refine ⟨howned, fun a s' es n c c' hs => step_not_overwritten (step_effect hs), ?_⟩
  intro n
  rw [hone n]
  split_ifs <;> omega

open FullMeshTopology (topology)

/-- A send and a goroutine dial the same peer; the one that is second closes its connection. -/
theorem no_connection_leaks_race : ∃ tr s, Run (step topology) anyStep
        (new (ε := Unit) ⟨"n1", "10.0.0.1:7946", []⟩) tr s ∧
      NoLeaks topology s ∧
      s.dialed = [(⟨0, false⟩, "n2"), (⟨1, false⟩, "n2")] ∧
      s.conns.lookup "n2" = some ⟨1, false⟩ ∧ s.closed = [⟨0, false⟩] :=
  Run.of_check_then [.member ⟨.join, ⟨"n2", "10.0.0.2:7946", []⟩⟩, .sendRemote "n2" (), .locked 1,
    .locked 1, .locked 1, .dialReturns 0 (some 0), .dialReturns 1 (some 1), .locked 1, .locked 0]
    (by decide +kernel) fun tr s hrun hend => ⟨tr, s, hrun, no_connection_leaks _ _ tr s hrun, hend⟩

/-! ## Departures -/

/-- A goroutine is about to connect the node to another one. -/
def InFlight (s : Connections ε) (x : NodeID) : Prop := ∃ p ∈ s.procs, p.Dials x

/-- No news of a node: it neither joins nor is updated, and no inbound connection is announced as
its own. -/
def Quiet (x : NodeID) (_ : Connections ε) : ConnAction ε → Prop
  | .member ev => ev.member.id = x → ev.type.departs = true
  | .inbound remote _ => remote ≠ x
  | _ => True

instance (x : NodeID) (s : Connections ε) : DecidablePred (Quiet x s)
  | .member ev => inferInstanceAs (Decidable (ev.member.id = x → ev.type.departs = true))
  | .inbound remote _ => inferInstanceAs (Decidable (remote ≠ x))
  | .updatePeerMeta _ | .sendRemote _ _ | .dialReturns _ _ | .locked _ | .sendReturns _ _ =>
    .isTrue trivial

/-- Nothing is left of a node, and nobody is about to connect to it. -/
structure Gone (x : NodeID) (s : Connections ε) : Prop where
  keyed : Keyed s
  peer : s.peers.lookup x = none
  conn : s.conns.lookup x = none
  idle : ¬ InFlight s x

variable {x : NodeID}

theorem inFlight_spawns (hs : Spawns s s') (hkeyed : Keyed s) (hpeer : s.peers.lookup x = none)
    (h : InFlight s' x) : InFlight s x := by
  obtain ⟨p, hp, hdials⟩ := h
  obtain ⟨-, new, hnew, hfresh⟩ := hs
  rw [hnew] at hp
  rcases mem_append.mp hp with hold | hp
  · exact ⟨p, hold, hdials⟩
  · obtain ⟨id, m, hm, rfl⟩ := hfresh p hp
    have hid : m.id = x := hdials
    rw [← hkeyed id m hm, hid, hpeer] at hm
    cases hm

theorem inFlight_goto (h : InFlight (s.goto i q) x) (hq : ¬ q.Dials x) : InFlight s x := by
  obtain ⟨p, hp, hdials⟩ := h
  rcases of_mem_goto hp with hold | rfl
  · exact ⟨p, hold, hdials⟩
  · exact absurd hdials hq

theorem procs_applyEvent : (s.applyEvent ev).procs = s.procs := by
  unfold applyEvent
  split_ifs
  · exact (closes_removeConnection _ _).procs_eq
  · rfl

theorem lookup_applyEvent : (s.applyEvent ev).conns.lookup x =
    if x = ev.member.id ∧ ev.type.departs = true then none else s.conns.lookup x := by
  unfold applyEvent
  by_cases hdep : ev.type.departs
  · rw [if_pos hdep, lookup_removeConnection]
    simp [hdep]
  · simp [hdep]

theorem gone_handleMemberEvent (hkeyed : Keyed s) (hpeer : (s.applyEvent ev).peers.lookup x = none)
    (hconn : (s.applyEvent ev).conns.lookup x = none) (hidle : ¬ InFlight s x) :
    Gone x (s.handleMemberEvent t ev) := by
  obtain ⟨s1, hspawns, hcloses⟩ := reconcileConnections_spec t (s.applyEvent ev)
  refine ⟨hkeyed.step (.member ev), ?_, ?_, ?_⟩
  · rw [peers_handleMemberEvent]
    exact hpeer
  · cases hlook : (s.handleMemberEvent t ev).conns.lookup x with
    | none => rfl
    | some c =>
      have hmid := hcloses.old x c hlook
      rw [hspawns.conns_eq] at hmid
      exact hmid.symm.trans hconn
  · intro hflight
    apply hidle
    have hmid : InFlight s1 x := by
      obtain ⟨p, hp, hdials⟩ := hflight
      exact ⟨p, hcloses.procs_eq ▸ hp, hdials⟩
    obtain ⟨p, hp, hdials⟩ := inFlight_spawns hspawns (keyed_applyEvent hkeyed) hpeer hmid
    rw [procs_applyEvent] at hp
    exact ⟨p, hp, hdials⟩

theorem Moves.not_dials (h : Moves t s p q) (hpeer : s.peers.lookup x = none) (hp : ¬ p.Dials x) :
    ¬ q.Dials x := by
  cases h with
  | ensureDial hm =>
    intro hx
    have hx' : _ = x := hx
    rw [hx', hpeer] at hm
    cases hm
  | found hp hc | ensure hp | unreachable hp | dialFailed | missing | routed | sent | sendFailed =>
    exact id

theorem Gone.step (h : Gone x s) (hquiet : Quiet x s a) (he : Effect t s a s') : Gone x s' := by
  have hkeyed := h.keyed.step he
  cases he with
  | member ev =>
    refine gone_handleMemberEvent h.keyed ?_ ?_ h.idle
    · rw [peers_applyEvent]
      split_ifs with hdep
      · rw [lookup_erase_ite, h.peer, ite_self]
      · rw [lookup_insert_ite, if_neg fun hid => hdep (hquiet hid.symm)]
        exact h.peer
    · rw [lookup_applyEvent, h.conn, ite_self]
  | unchanged m => exact h
  | updated m hknown =>
    refine ⟨hkeyed, ?_, h.conn, h.idle⟩
    rw [lookup_insert_ite]
    split_ifs with hid
    · rw [← hid, h.peer] at hknown
      cases hknown
    · exact h.peer
  | sendRemote target env =>
    refine ⟨hkeyed, h.peer, h.conn, ?_⟩
    rintro ⟨p, hp, hdials⟩
    rcases mem_append.mp hp with hold | hnew
    · exact h.idle ⟨p, hold, hdials⟩
    · rw [mem_singleton.mp hnew] at hdials
      exact hdials
  | inbound remote stream =>
    refine ⟨hkeyed, ?_, ?_, ?_⟩
    · unfold onConnectionEstablished
      split <;> exact h.peer
    · rw [lookup_onConnectionEstablished, if_neg (Ne.symm hquiet)]
      exact h.conn
    · unfold InFlight onConnectionEstablished
      split <;> exact h.idle
  | moves hp hmoves ha =>
    have hnot := hmoves.not_dials h.peer fun hd => h.idle ⟨_, mem_of_getElem? hp, hd⟩
    exact ⟨hkeyed, h.peer, h.conn, fun hf => h.idle (inFlight_goto hf hnot)⟩
  | @peerDialed i stream m hp =>
    have hnot : ¬ m.id = x := fun hd => h.idle ⟨_, mem_of_getElem? hp, hd⟩
    exact ⟨hkeyed, h.peer, h.conn, fun hf => h.idle (inFlight_goto hf hnot)⟩
  | @ensureDialed i stream n m env hp =>
    have hnot : ¬ n = x := fun hd => h.idle ⟨_, mem_of_getElem? hp, hd⟩
    exact ⟨hkeyed, h.peer, h.conn, fun hf => h.idle (inFlight_goto hf hnot)⟩
  | notDialed hp =>
    exact ⟨hkeyed, h.peer, h.conn, fun hf => h.idle (inFlight_goto hf id)⟩
  | @peerStored i m c hp =>
    have hne : m.id ≠ x := fun hd => h.idle ⟨_, mem_of_getElem? hp, hd⟩
    refine ⟨hkeyed, ?_, ?_, ?_⟩
    · unfold store
      split <;> exact h.peer
    · rw [lookup_store, if_neg (Ne.symm hne)]
      exact h.conn
    · intro hf
      refine h.idle (inFlight_goto (q := .done) (i := i) ?_ id)
      unfold InFlight store at hf
      split at hf <;> exact hf
  | @ensureStored i n c env hp =>
    have hne : n ≠ x := fun hd => h.idle ⟨_, mem_of_getElem? hp, hd⟩
    refine ⟨hkeyed, ?_, ?_, ?_⟩
    · unfold store
      split <;> exact h.peer
    · rw [lookup_store, if_neg (Ne.symm hne)]
      exact h.conn
    · intro hf
      refine h.idle (inFlight_goto (i := i)
        (q := .sending n ((s.conns.lookup n).getD c) env) ?_ id)
      unfold InFlight store at hf
      split at hf <;> exact hf
  | @removed i n hp =>
    refine ⟨hkeyed, ?_, ?_, ?_⟩
    · rw [(closes_removeConnection _ _).peers_eq]
      exact h.peer
    · rw [lookup_removeConnection]
      split_ifs
      · rfl
      · exact h.conn
    · intro hf
      refine h.idle (inFlight_goto (q := .done) (i := i) ?_ id)
      unfold InFlight at hf
      rw [(closes_removeConnection _ _).procs_eq] at hf
      exact hf

/-! ### A dial in flight comes back -/

theorem connects_of_holds (hp : s.procs[i]? = some p) (hholds : p.Holds c x) :
    ∃ s' tr, Run (step t) (Quiet x) s tr s' ∧ s'.conns.lookup x ≠ none := by
  have hone : ∀ s', s.step t (.locked i) = some (s', []) → Run (step t) (Quiet x) s ([] ++ []) s' :=
    fun s' hs => .step (a := .locked i) .refl trivial hs
  cases p with
  | peerDialed m conn =>
    cases conn with
    | none => exact hholds.elim
    | some c' =>
      obtain ⟨-, rfl⟩ := hholds
      refine ⟨_, _, hone _ (by rw [step, hp]; rfl), ?_⟩
      rw [lookup_store, if_pos rfl]
      exact some_ne_none _
  | ensureDialed n c' env =>
    obtain ⟨-, rfl⟩ := hholds
    refine ⟨_, _, hone _ (by rw [step, hp]; rfl), ?_⟩
    rw [lookup_store, if_pos rfl]
    exact some_ne_none _
  | dialPeer m | direct n env | routing n env | viaHop n env | ensure n env | ensureDial n m env
  | sending n c env | sendFailed n | done => exact hholds.elim

theorem exists_new_stream (s : Connections ε) :
    ∃ stream, ConnEnd.mk stream false ∉ s.dialed.map (·.1) := by
  obtain ⟨stream, hstream⟩ :=
    Infinite.exists_notMem_finset (s.dialed.map fun d => d.1.stream).toFinset
  refine ⟨stream, fun hmem => hstream ?_⟩
  obtain ⟨d, hd, hc⟩ := mem_map.mp hmem
  exact mem_toFinset.mpr (mem_map.mpr ⟨d, hd, by rw [hc]⟩)

theorem connects_of_inFlight (hp : s.procs[i]? = some p) (hdials : p.Dials x) :
    ∃ s' tr, Run (step t) (Quiet x) s tr s' ∧ s'.conns.lookup x ≠ none := by
  obtain ⟨stream, hnew⟩ := s.exists_new_stream
  obtain ⟨hlt, -⟩ := List.getElem?_eq_some_iff.mp hp
  -- the dial returns, and from there the goroutine has a connection in hand
  have hreturn : ∀ (n : NodeID) (q : Proc ε), q.Holds (.mk stream false) x →
      s.step t (.dialReturns i (some stream)) =
        some ({ s with dialed := s.dialed ++ [(ConnEnd.mk stream false, n)] }.goto i q, []) →
      ∃ s' tr, Run (step t) (Quiet x) s tr s' ∧ s'.conns.lookup x ≠ none := by
    intro n q hq hs
    have hqi : ({ s with dialed := s.dialed ++ [(ConnEnd.mk stream false, n)] }.goto i
        q).procs[i]? = some q := getElem?_set_self hlt
    obtain ⟨s', tr, hrun, hconn⟩ := connects_of_holds (t := t) hqi hq
    have hfirst : Run (step t) (Quiet x) s ([] ++ []) _ :=
      .step (a := .dialReturns i (some stream)) .refl trivial hs
    exact ⟨s', _, hfirst.trans hrun, hconn⟩
  cases p with
  | dialPeer m =>
    refine hreturn m.id (.peerDialed m (some (.mk stream false))) ⟨rfl, hdials⟩ ?_
    rw [step, if_neg hnew, hp]
  | peerDialed m conn =>
    cases conn with
    | none => exact hdials.elim
    | some c => exact connects_of_holds hp (c := c) ⟨rfl, hdials⟩
  | ensureDial n m env =>
    refine hreturn n (.ensureDialed n (.mk stream false) env) ⟨rfl, hdials⟩ ?_
    rw [step, if_neg hnew, hp]
  | ensureDialed n c env => exact connects_of_holds hp (c := c) ⟨rfl, hdials⟩
  | direct n env | routing n env | viaHop n env | ensure n env | sending n c env | sendFailed n
  | done => exact hdials.elim

theorem keyed_run {self : NodeMeta} {tr : List ConnEvent}
    (hrun : Run (step t) anyStep (new self) tr s) : Keyed s :=
  hrun.invariant_state Keyed (keyed_new self)
    fun _ _ _ _ h _ hs => h.step (step_effect hs)

/-- **Departed peers stay disconnected** until there is news of them, just in case no dial of
them was in flight when they departed. -/
theorem departed_stays_disconnected_iff (t : Topology) (self : NodeMeta) (tr : List ConnEvent)
    (s : Connections ε) (hrun : Run (step t) anyStep (new self) tr s) (ev : MemberEvent)
    (hdep : ev.type.departs = true) :
    (∀ tr' s', Run (step t) (Quiet ev.member.id) (s.handleMemberEvent t ev) tr' s' →
        s'.conns.lookup ev.member.id = none) ↔
      ¬ InFlight s ev.member.id := by
  have hkeyed := keyed_run hrun
  constructor
  · rintro hall ⟨p, hp, hdials⟩
    obtain ⟨i, hi⟩ := mem_iff_getElem?.mp hp
    -- the goroutine is still where it was
    have hi' : (s.handleMemberEvent t ev).procs[i]? = some p := by
      obtain ⟨s1, ⟨-, new, hnew, -⟩, hcloses⟩ := reconcileConnections_spec t (s.applyEvent ev)
      obtain ⟨hlt, -⟩ := List.getElem?_eq_some_iff.mp hi
      rw [handleMemberEvent, hcloses.procs_eq, hnew, procs_applyEvent,
        getElem?_append_left hlt]
      exact hi
    obtain ⟨s', tr', hrun', hconn⟩ := connects_of_inFlight (t := t) hi' hdials
    exact hconn (hall tr' s' hrun')
  · intro hidle tr' s' hrun'
    have hgone : Gone ev.member.id (s.handleMemberEvent t ev) := by
      refine gone_handleMemberEvent hkeyed ?_ ?_ hidle
      · rw [peers_applyEvent, if_pos hdep, lookup_erase_ite, if_pos rfl]
      · rw [lookup_applyEvent, if_pos ⟨rfl, hdep⟩]
    exact (hrun'.invariant_state (Gone ev.member.id) hgone
      fun _ _ _ _ h hq hs => h.step hq (step_effect hs)).conn

/-- A peer fails while it is being dialled: the dial succeeds and connects the node to it. -/
theorem departed_reconnected : ∃ tr s tr' s', Run (step topology) anyStep
        (new (ε := Unit) ⟨"n1", "10.0.0.1:7946", []⟩) tr s ∧
      Run (step topology) (Quiet "n2")
        (s.handleMemberEvent topology
          ⟨.failed, ⟨"n2", "10.0.0.2:7946", []⟩⟩) tr' s' ∧
      s'.peers.lookup "n2" = none ∧ s'.conns.lookup "n2" = some ⟨0, false⟩ := by
  have hjoin : Run (step topology) anyStep
      (new (ε := Unit) ⟨"n1", "10.0.0.1:7946", []⟩)
      ([] ++ [.member ⟨.join, ⟨"n2", "10.0.0.2:7946", []⟩⟩]) _ :=
    .step (a := .member ⟨.join, ⟨"n2", "10.0.0.2:7946", []⟩⟩) .refl trivial rfl
  obtain ⟨tr', s', hrun⟩ : ∃ tr s, Run (step topology) (Quiet "n2")
      (((new (ε := Unit) ⟨"n1", "10.0.0.1:7946", []⟩).handleMemberEvent topology
        ⟨.join, ⟨"n2", "10.0.0.2:7946", []⟩⟩).handleMemberEvent topology
          ⟨.failed, ⟨"n2", "10.0.0.2:7946", []⟩⟩) tr s ∧
      s.peers.lookup "n2" = none ∧ s.conns.lookup "n2" = some ⟨0, false⟩ :=
    Run.of_check [.dialReturns 0 (some 0), .locked 0] (by decide +kernel)
  exact ⟨_, _, tr', s', hjoin, hrun⟩

/-- A peer that fails after its dial has come back stays disconnected. -/
theorem departed_stays_disconnected_idle : ∃ tr s, Run (step topology) anyStep
        (new (ε := Unit) ⟨"n1", "10.0.0.1:7946", []⟩) tr s ∧
      s.conns.lookup "n2" = some ⟨0, false⟩ ∧ s.procs = [.done] ∧
      ((∀ tr' s', Run (step topology) (Quiet "n2")
          (s.handleMemberEvent topology
            ⟨.failed, ⟨"n2", "10.0.0.2:7946", []⟩⟩) tr' s' → s'.conns.lookup "n2" = none) ↔
        ¬ InFlight s "n2") := by
  obtain ⟨tr, s, hrun, hconn, hprocs⟩ : ∃ tr s, Run (step topology) anyStep
      (new (ε := Unit) ⟨"n1", "10.0.0.1:7946", []⟩) tr s ∧
      s.conns.lookup "n2" = some ⟨0, false⟩ ∧ s.procs = [.done] :=
    Run.of_check [.member ⟨.join, ⟨"n2", "10.0.0.2:7946", []⟩⟩, .dialReturns 0 (some 0), .locked 0]
      (by decide +kernel)
  exact ⟨tr, s, hrun, hconn, hprocs, departed_stays_disconnected_iff _ _ tr s hrun
    ⟨.failed, ⟨"n2", "10.0.0.2:7946", []⟩⟩ rfl⟩

end Connections

end Westcoast.Cluster
