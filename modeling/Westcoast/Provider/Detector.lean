import Westcoast.Provider.Fixed
import Westcoast.Provider.History

/-!
# The failure detector of the fixed provider

What `handleProbeSuccess`, `handleProbeFailure`, `AddMember` and `AddSeed` make of every sequence of
calls. `Outcome` says once what a call can do; `Tracked` relates the entry of a node to the events
so far and the misses since it was last heard of.
-/
namespace Westcoast.Provider

open Lib Cluster List FixedMembers

def FixedMembers.members (ms : FixedMembers) : List NodeMeta :=
  ms.entries.filterMap fun e => if e.2.alive then some e.2.nodeMeta else none

def FixedPeerState.shown (ps : FixedPeerState) : Option NodeMeta :=
  if ps.alive then some ps.nodeMeta else none

theorem FixedMembers.members_eq (ms : FixedMembers) :
    ms.members = membersOf FixedPeerState.shown ms :=
  rfl

/-- What changes the members: the answer of a probe, and the two calls. -/
inductive DetectorOp
  | probe (alive : Bool) (seed : NodeMeta)
  | addSeed (m : NodeMeta)
  | addMember (m : NodeMeta)

structure Detection where
  op : DetectorOp
  events : List MemberEvent

namespace FixedProvider

/-- An operation on the provider, with the events it passes to `emit`. -/
def detect (p : FixedProvider) : DetectorOp → FixedProvider × List MemberEvent
  | .probe alive seed =>
    ({ p with members := (p.handleProbe alive seed).1 }, (p.handleProbe alive seed).2)
  | .addSeed m => (p.addSeed m, [])
  | .addMember m => ({ p with members := (p.members.addMember m).1 }, (p.members.addMember m).2)

def detectStep (p : FixedProvider) (op : DetectorOp) : Option (FixedProvider × List Detection) :=
  some ((p.detect op).1, [⟨op, (p.detect op).2⟩])

end FixedProvider

/-! ## What the history says -/

def emittedEvents (tr : List Detection) : List MemberEvent := tr.flatMap (·.events)

/-- Joins and failures take turns, and a join is first. -/
def Alternates (evs : List MemberEvent) : Prop :=
  ∀ i e, evs[i]? = some e → e.type = if i % 2 = 0 then .join else .failed

/-- The last that was told about a node is that it joined. -/
def Live (id : NodeID) (tr : List Detection) : Prop :=
  ∃ m, (eventsOf id (emittedEvents tr)).getLast? = some ⟨.join, m⟩

/-- A probe of a node with this answer. -/
def DetectorOp.Probes (alive : Bool) (id : NodeID) : DetectorOp → Prop
  | .probe answer seed => answer = alive ∧ seed.id = id
  | _ => False

instance (alive : Bool) (id : NodeID) : DecidablePred (DetectorOp.Probes alive id)
  | .probe answer seed => inferInstanceAs (Decidable (answer = alive ∧ seed.id = id))
  | .addSeed _ | .addMember _ => .isFalse fun h => h

/-- The failed probes of a node since it last became alive or last answered. -/
def missed (id : NodeID) (tr : List Detection) : ℕ :=
  tr.foldl (fun n d =>
    if d.op.Probes true id ∨ ∃ e ∈ d.events, e.type = .join ∧ e.member.id = id then 0
    else if d.op.Probes false id then n + 1 else n) 0

section History

variable {id : NodeID} {tr : List Detection} {d : Detection} {evs : List MemberEvent}

theorem emittedEvents_snoc : emittedEvents (tr ++ [d]) = emittedEvents tr ++ d.events := by
  simp [emittedEvents]

theorem missed_snoc : missed id (tr ++ [d]) =
    if d.op.Probes true id ∨ ∃ e ∈ d.events, e.type = .join ∧ e.member.id = id then 0
    else if d.op.Probes false id then missed id tr + 1 else missed id tr := by
  rw [missed, foldl_append]
  rfl

theorem alternates_nil : Alternates [] := by
  intro i e h
  cases h

theorem Alternates.snoc {e : MemberEvent} (h : Alternates evs)
    (he : e.type = if evs.length % 2 = 0 then .join else .failed) : Alternates (evs ++ [e]) := by
  intro i e' hi
  rcases Nat.lt_or_ge i evs.length with hlt | hge
  · rw [getElem?_append_left hlt] at hi
    exact h i e' hi
  · rw [getElem?_append_right hge] at hi
    obtain ⟨hpos, rfl⟩ := List.getElem?_eq_some_iff.mp hi
    rw [length_singleton] at hpos
    obtain rfl : i = evs.length := by omega
    simpa using he

end History

/-! ## What an operation can do -/

/-- A node comes to life, answers, misses a probe and stays alive or fails, or nothing changes. -/
inductive Outcome (th : ℤ) (ms : FixedMembers) : DetectorOp → FixedMembers → List MemberEvent → Prop
  | joined {op : DetectorOp} {m : NodeMeta} (hop : op = .probe true m ∨ op = .addMember m)
      (hdead : ∀ ps, ms.lookup m.id = some ps → ps.alive = false) :
      Outcome th ms op (ms.insert m.id ⟨m, true, 0⟩) [⟨.join, m⟩]
  | answered {m : NodeMeta} {ps : FixedPeerState} (hps : ms.lookup m.id = some ps)
      (halive : ps.alive = true) :
      Outcome th ms (.probe true m) (ms.insert m.id { ps with consecutiveFails := 0 }) []
  | unanswered {m : NodeMeta} {ps : FixedPeerState} (hps : ms.lookup m.id = some ps)
      (halive : ps.alive = true) (hfails : (ps.consecutiveFails + 1 : ℕ) < th) :
      Outcome th ms (.probe false m)
        (ms.insert m.id { ps with consecutiveFails := ps.consecutiveFails + 1 }) []
  | failed {m : NodeMeta} {ps : FixedPeerState} (hps : ms.lookup m.id = some ps)
      (halive : ps.alive = true) (hfails : th ≤ (ps.consecutiveFails + 1 : ℕ)) :
      Outcome th ms (.probe false m)
        (ms.insert m.id
          { ps with consecutiveFails := ps.consecutiveFails + 1, alive := false })
        [⟨.failed, ps.nodeMeta⟩]
  | ignored {op : DetectorOp} (hanswer : ∀ id, ¬ op.Probes true id)
      (hmiss : ∀ id, op.Probes false id → ∀ ps, ms.lookup id = some ps → ps.alive = false) :
      Outcome th ms op ms []

namespace FixedProvider

theorem detect_outcome (p : FixedProvider) (op : DetectorOp) :
    Outcome p.failureThreshold p.members op (p.detect op).1.members (p.detect op).2 := by
  cases op with
  | addSeed m =>
    have hmembers : (p.addSeed m).members = p.members := by
      unfold addSeed
      split_ifs <;> rfl
    simp only [detect, hmembers]
    exact .ignored (fun _ h => h) (fun _ h => h.elim)
  | addMember m =>
    simp only [detect, addMember]
    split_ifs with hknown
    · exact .ignored (fun _ h => h) (fun _ h => h.elim)
    · refine .joined (.inr rfl) ?_
      intro ps hps
      rw [hps] at hknown
      exact absurd rfl hknown
  | probe alive seed =>
    cases alive with
    | true =>
      simp only [detect, handleProbe, handleProbeSuccess, if_true]
      split
      · next hnone =>
        exact .joined (.inl rfl) fun ps hps => by cases hnone.symm.trans hps
      · next ps hps =>
        split_ifs with halive
        · exact .answered hps halive
        · refine .joined (.inl rfl) fun ps' hps' => ?_
          cases hps.symm.trans hps'
          simpa using halive
    | false =>
      simp only [detect, handleProbe, handleProbeFailure, Bool.false_eq_true,
        if_false]
      split
      · next hnone =>
        refine .ignored (fun _ h => by cases h.1) ?_
        rintro _ ⟨-, rfl⟩ ps hps
        cases hnone.symm.trans hps
      · next ps hps =>
        split_ifs with hdead hth
        · refine .ignored (fun _ h => by cases h.1) ?_
          rintro _ ⟨-, rfl⟩ ps' hps'
          cases hps.symm.trans hps'
          simpa using hdead
        · exact .failed hps (by simpa using hdead) hth
        · exact .unanswered hps (by simpa using hdead) (by omega)

theorem detect_threshold (p : FixedProvider) (op : DetectorOp) :
    (p.detect op).1.failureThreshold = p.failureThreshold := by
  cases op with
  | addSeed m =>
    simp only [detect, addSeed]
    split_ifs <;> rfl
  | probe alive seed | addMember m => rfl

end FixedProvider

/-! ## The entry of a node and its history -/

/-- What the events about a node and its misses say of its entry. -/
structure Tracked (th : ℤ) (id : NodeID) (evs : List MemberEvent) (n : ℕ) (ps : FixedPeerState) :
    Prop where
  id_eq : ps.nodeMeta.id = id
  last : evs.getLast? = some ⟨if ps.alive then .join else .failed, ps.nodeMeta⟩
  parity : evs.length % 2 = if ps.alive then 1 else 0
  fails : ps.alive = true → n = ps.consecutiveFails ∧ (n : ℤ) < th

structure Agrees (th : ℤ) (tr : List Detection) (ms : FixedMembers) : Prop where
  alternates : ∀ id, Alternates (eventsOf id (emittedEvents tr))
  unknown : ∀ id, ms.lookup id = none → eventsOf id (emittedEvents tr) = []
  tracked : ∀ id ps, ms.lookup id = some ps →
    Tracked th id (eventsOf id (emittedEvents tr)) (missed id tr) ps

section Step

variable {th : ℤ} {tr : List Detection} {ms ms' : FixedMembers} {op : DetectorOp}
  {evs : List MemberEvent} {id : NodeID}

variable (h : Agrees th tr ms)

include h

theorem Agrees.live_iff : Live id tr ↔ ∃ ps, ms.lookup id = some ps ∧ ps.alive = true := by
  cases hlook : ms.lookup id with
  | none => simp [Live, h.unknown id hlook]
  | some ps =>
    have hlast := (h.tracked id ps hlook).last
    cases halive : ps.alive <;> simp [Live, hlast, halive]

theorem Agrees.even_of_dead (hdead : ∀ ps, ms.lookup id = some ps → ps.alive = false) :
    (eventsOf id (emittedEvents tr)).length % 2 = 0 := by
  cases hlook : ms.lookup id with
  | none => rw [h.unknown id hlook]; rfl
  | some ps => simpa [hdead ps hlook] using (h.tracked id ps hlook).parity

/-- Setting an entry with what is told about its node keeps the agreement, if nothing is told about
others. -/
theorem Agrees.set {m : NodeID} {ps : FixedPeerState}
    (hother : ∀ id ≠ m, eventsOf id evs = [] ∧ missed id (tr ++ [⟨op, evs⟩]) = missed id tr)
    (halt : Alternates (eventsOf m (emittedEvents tr) ++ eventsOf m evs))
    (hps : Tracked th m (eventsOf m (emittedEvents tr) ++ eventsOf m evs)
      (missed m (tr ++ [⟨op, evs⟩])) ps) :
    Agrees th (tr ++ [⟨op, evs⟩]) (ms.insert m ps) := by
  have hevs : ∀ id, eventsOf id (emittedEvents (tr ++ [⟨op, evs⟩])) =
      eventsOf id (emittedEvents tr) ++ eventsOf id evs := by
    intro id
    rw [emittedEvents_snoc, eventsOf_append]
  have hsame : ∀ id ≠ m, eventsOf id (emittedEvents (tr ++ [⟨op, evs⟩])) =
      eventsOf id (emittedEvents tr) := by
    intro id hid
    rw [hevs, (hother id hid).1, append_nil]
  refine ⟨?_, ?_, ?_⟩
  · intro id
    by_cases hid : id = m
    · subst hid
      rw [hevs]
      exact halt
    · rw [hsame id hid]
      exact h.alternates id
  · intro id hnone
    by_cases hid : id = m
    · subst hid
      simp at hnone
    · rw [hsame id hid]
      refine h.unknown id ?_
      simpa [lookup_insert_ite, hid, Ne.symm hid] using hnone
  · intro id ps' hps'
    by_cases hid : id = m
    · subst hid
      have heq : ps = ps' := by simpa [lookup_insert_ite] using hps'
      subst heq
      rw [hevs]
      exact hps
    · rw [hsame id hid, (hother id hid).2]
      refine h.tracked id ps' ?_
      simpa [lookup_insert_ite, hid, Ne.symm hid] using hps'

omit h in
theorem missed_of_quiet (hanswer : ¬ op.Probes true id) (hmiss : ¬ op.Probes false id) :
    missed id (tr ++ [⟨op, []⟩]) = missed id tr := by
  rw [missed_snoc, if_neg (by simpa using hanswer), if_neg hmiss]

theorem Agrees.step (hth : 1 ≤ th) (ho : Outcome th ms op ms' evs) :
    Agrees th (tr ++ [⟨op, evs⟩]) ms' := by
  cases ho with
  | @joined op m hop hdead =>
    have hm : eventsOf m.id [(⟨.join, m⟩ : MemberEvent)] = [⟨.join, m⟩] := by simp [eventsOf]
    have heven := h.even_of_dead hdead
    refine h.set ?_ ?_ ?_
    · intro id hid
      refine ⟨by simp [eventsOf, Ne.symm hid], ?_⟩
      rw [missed_snoc]
      rcases hop with rfl | rfl <;> simp [DetectorOp.Probes, Ne.symm hid]
    · rw [hm]
      exact (h.alternates m.id).snoc (by simp [heven])
    · rw [hm]
      refine ⟨rfl, by simp, ?_, ?_⟩
      · simp only [length_append, length_singleton, if_true]
        omega
      · intro _
        have hzero : missed m.id (tr ++ [⟨op, [⟨.join, m⟩]⟩]) = 0 := by
          rw [missed_snoc, if_pos (.inr ⟨_, mem_singleton_self _, rfl, rfl⟩)]
        rw [hzero]
        exact ⟨rfl, by omega⟩
  | @answered m ps hps halive =>
    have ht := h.tracked m.id ps hps
    refine h.set ?_ ?_ ?_
    · intro id hid
      exact ⟨rfl, missed_of_quiet (fun hp => hid hp.2.symm) (fun hp => hid hp.2.symm)⟩
    · simpa [eventsOf] using h.alternates m.id
    · have hzero : missed m.id (tr ++ [⟨.probe true m, []⟩]) = 0 := by
        rw [missed_snoc, if_pos (.inl ⟨rfl, rfl⟩)]
      rw [hzero]
      exact ⟨ht.id_eq, by simpa [eventsOf] using ht.last, by simpa [eventsOf] using ht.parity,
        fun _ => ⟨rfl, by omega⟩⟩
  | @unanswered m ps hps halive hfails =>
    have ht := h.tracked m.id ps hps
    refine h.set ?_ ?_ ?_
    · intro id hid
      exact ⟨rfl, missed_of_quiet (fun hp => hid hp.2.symm) (fun hp => hid hp.2.symm)⟩
    · simpa [eventsOf] using h.alternates m.id
    · have hnext : missed m.id (tr ++ [⟨.probe false m, []⟩]) = missed m.id tr + 1 := by
        rw [missed_snoc, if_neg (by simp [DetectorOp.Probes]), if_pos ⟨rfl, rfl⟩]
      rw [hnext, (ht.fails halive).1]
      exact ⟨ht.id_eq, by simpa [eventsOf] using ht.last, by simpa [eventsOf] using ht.parity,
        fun _ => ⟨rfl, hfails⟩⟩
  | @failed m ps hps halive hfails =>
    have ht := h.tracked m.id ps hps
    have hm : eventsOf m.id [(⟨.failed, ps.nodeMeta⟩ : MemberEvent)] =
        [⟨.failed, ps.nodeMeta⟩] := by
      simp [eventsOf, ht.id_eq]
    have hodd : (eventsOf m.id (emittedEvents tr)).length % 2 = 1 := by
      simpa [halive] using ht.parity
    refine h.set ?_ ?_ ?_
    · intro id hid
      have hne : ps.nodeMeta.id ≠ id := fun heq => hid (heq ▸ ht.id_eq)
      refine ⟨by simp [eventsOf, hne], ?_⟩
      rw [missed_snoc]
      simp [DetectorOp.Probes, Ne.symm hid]
    · rw [hm]
      exact (h.alternates m.id).snoc (by simp [hodd])
    · rw [hm]
      refine ⟨ht.id_eq, by simp, ?_, fun hfalse => by cases hfalse⟩
      simp only [length_append, length_singleton, Bool.false_eq_true, if_false]
      omega
  | ignored hanswer hmiss =>
    have hevs : emittedEvents (tr ++ [⟨op, []⟩]) = emittedEvents tr := by
      rw [emittedEvents_snoc, append_nil]
    refine ⟨?_, ?_, ?_⟩ <;> rw [hevs]
    · exact h.alternates
    · exact h.unknown
    · intro id ps hps
      have ht := h.tracked id ps hps
      refine ⟨ht.id_eq, ht.last, ht.parity, ?_⟩
      intro halive
      -- a live node is not probed here, so that its misses stay
      have hno : ¬ op.Probes false id := by
        intro hp
        rw [hmiss id hp ps hps] at halive
        cases halive
      rw [missed_of_quiet (hanswer id) hno]
      exact ht.fails halive

/-- A failure is told when a live node misses the probe that reaches the threshold. -/
theorem Agrees.failed_iff (ho : Outcome th ms op ms' evs) (id : NodeID) :
    (∃ e ∈ evs, e.type = .failed ∧ e.member.id = id) ↔
      Live id tr ∧ op.Probes false id ∧ (missed id (tr ++ [⟨op, evs⟩]) : ℤ) = th := by
  cases ho with
  | @joined op m hop hdead =>
    refine ⟨fun hex => by simp at hex, ?_⟩
    rintro ⟨-, hp, -⟩
    rcases hop with rfl | rfl
    · cases hp.1
    · exact hp.elim
  | answered hps halive =>
    refine ⟨fun hex => by simp at hex, ?_⟩
    rintro ⟨-, hp, -⟩
    cases hp.1
  | @unanswered m ps hps halive hfails =>
    refine ⟨fun hex => by simp at hex, ?_⟩
    rintro ⟨-, ⟨-, rfl⟩, heq⟩
    rw [missed_snoc, if_neg (by simp [DetectorOp.Probes]), if_pos ⟨rfl, rfl⟩,
      ((h.tracked m.id ps hps).fails halive).1] at heq
    omega
  | @failed m ps hps halive hfails =>
    have ht := h.tracked m.id ps hps
    obtain ⟨hn, hlt⟩ := ht.fails halive
    have hreach : (missed m.id (tr ++ [⟨.probe false m, [⟨.failed, ps.nodeMeta⟩]⟩]) : ℤ) = th := by
      rw [missed_snoc, if_neg (by simp [DetectorOp.Probes]), if_pos ⟨rfl, rfl⟩]
      omega
    constructor
    · intro hex
      have hid : m.id = id := by simpa [ht.id_eq] using hex
      subst hid
      exact ⟨h.live_iff.mpr ⟨ps, hps, halive⟩, ⟨rfl, rfl⟩, hreach⟩
    · rintro ⟨-, ⟨-, rfl⟩, -⟩
      exact ⟨_, mem_singleton_self _, rfl, ht.id_eq⟩
  | ignored hanswer hmiss =>
    refine ⟨fun hex => by simp at hex, ?_⟩
    rintro ⟨hlive, hp, -⟩
    obtain ⟨ps, hps, halive⟩ := h.live_iff.mp hlive
    rw [hmiss id hp ps hps] at halive
    cases halive

omit h in
theorem agrees_nil : Agrees th [] ∅ :=
  ⟨fun _ => alternates_nil, fun _ _ => rfl, fun _ _ h => by simp at h⟩

theorem Agrees.named : Named FixedPeerState.shown ms := by
  intro id m hm
  obtain ⟨ps, hps, hshown⟩ := Option.bind_eq_some_iff.mp hm
  obtain ⟨-, heq⟩ := Option.ite_none_right_eq_some.mp hshown
  cases heq
  exact (h.tracked id ps hps).id_eq

theorem Agrees.lookup_iff_members (m : NodeMeta) :
    (replay (emittedEvents tr)).lookup id = some m ↔ m ∈ ms.members ∧ m.id = id := by
  rw [lookup_replay, members_eq, ← h.named.shownBy_eq_some, shownBy]
  cases hps : ms.lookup id with
  | none => simp [h.unknown id hps]
  | some ps =>
    rw [(h.tracked id ps hps).last]
    cases halive : ps.alive <;> simp [FixedPeerState.shown, halive, MemberEventType.departs]

theorem Agrees.nodup_members : (ms.members.map (·.id)).Nodup := h.named.nodup

end Step

/-! ## Every sequence of operations -/

/-- A failure is told exactly when a live node missed the probe that made its misses the threshold.
-/
def FailsAtThreshold (th : ℤ) (tr : List Detection) : Prop :=
  ∀ before d after, tr = before ++ d :: after → ∀ id,
    (∃ e ∈ d.events, e.type = .failed ∧ e.member.id = id) ↔
      Live id before ∧ d.op.Probes false id ∧ (missed id (before ++ [d]) : ℤ) = th

/-- What is asked of a failure detector with threshold `th`, of its history and members. -/
structure Detects (th : ℤ) (tr : List Detection) (ms : FixedMembers) : Prop where
  alternates : ∀ id, Alternates (eventsOf id (emittedEvents tr))
  fails : FailsAtThreshold th tr
  replays : ∀ id m, (replay (emittedEvents tr)).lookup id = some m ↔ m ∈ ms.members ∧ m.id = id
  nodup : (ms.members.map (·.id)).Nodup

theorem agrees_run {seeds : List NodeMeta} {th : ℤ} {probe : Bool} (hth : 1 ≤ th)
    {tr : List Detection} {p : FixedProvider}
    (hrun : Run FixedProvider.detectStep anyStep (FixedProvider.new seeds th probe) tr p) :
    p.failureThreshold = th ∧ Agrees th tr p.members ∧ FailsAtThreshold th tr := by
  refine hrun.invariant (fun tr p =>
    p.failureThreshold = th ∧ Agrees th tr p.members ∧ FailsAtThreshold th tr) ?_ ?_
  · exact ⟨if_neg (by omega), agrees_nil, fun before d after h => by simp at h⟩
  · rintro tr p op p' es ⟨hp, hagrees, hpast⟩ - hstep
    cases hstep
    have ho := p.detect_outcome op
    rw [hp] at ho
    refine ⟨(p.detect_threshold op).trans hp, hagrees.step hth ho, ?_⟩
    intro before d after hsplit id
    rcases append_singleton_eq_append_cons hsplit with ⟨rfl, rfl, -⟩ | ⟨after', -, htr⟩
    · exact hagrees.failed_iff ho id
    · exact hpast before d after' htr id

/-- **The fixed provider is a failure detector**, whatever the probes answer and whoever is added.
-/
theorem fixedProvider_detects (seeds : List NodeMeta) (failureThreshold : ℤ) (probe : Bool)
    (hth : 1 ≤ failureThreshold) (tr : List Detection) (p : FixedProvider)
    (hrun : Run FixedProvider.detectStep anyStep
      (FixedProvider.new seeds failureThreshold probe) tr p) :
    Detects failureThreshold tr p.members := by
  obtain ⟨-, hagrees, hfailed⟩ := agrees_run hth hrun
  exact ⟨hagrees.alternates, hfailed, fun id m => hagrees.lookup_iff_members m,
    hagrees.nodup_members⟩

/-- With threshold two a node joins, misses, answers, misses twice and comes back with another
address. -/
theorem fixedProvider_detects_return :
    ∃ tr p, Run FixedProvider.detectStep anyStep (FixedProvider.new [] 2 true) tr p ∧
      Detects 2 tr p.members ∧
      (emittedEvents tr).map (·.type) = [.join, .failed, .join] ∧
      p.members.members = [⟨"n2", "10.0.0.3:7946", []⟩] :=
  Run.of_check_then [.addSeed ⟨"n2", "10.0.0.2:7946", []⟩, .probe true ⟨"n2", "10.0.0.2:7946", []⟩,
    .probe false ⟨"n2", "10.0.0.2:7946", []⟩, .probe true ⟨"n2", "10.0.0.2:7946", []⟩,
    .probe false ⟨"n2", "10.0.0.2:7946", []⟩, .probe false ⟨"n2", "10.0.0.2:7946", []⟩,
    .addMember ⟨"n2", "10.0.0.3:7946", []⟩, .probe true ⟨"n2", "10.0.0.3:7946", []⟩]
    (by decide +kernel) fun tr p hrun hend =>
      ⟨tr, p, hrun, fixedProvider_detects [] 2 true (by decide) tr p hrun, hend⟩

end Westcoast.Provider
