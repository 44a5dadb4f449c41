import Westcoast.Lib.Assoc
import Westcoast.Provider.Core

/-!
# The provider with a fixed list of seeds

`provider_fixed.go`. A loop probes the seeds at every tick, one after the other, without the lock.
Changes are told to the channel of events under the lock, which `Stop` holds too. `lastSeen` is
never read and is left out. The probe, its timeout and the ticks come as actions.
-/
namespace Westcoast.Provider

open Lib Cluster ProviderCore

structure FixedPeerState where
  nodeMeta : NodeMeta
  alive : Bool
  consecutiveFails : ℕ

abbrev FixedMembers := AList fun _ : NodeID => FixedPeerState

namespace FixedMembers

/-- `handleProbeSuccess`: a node that was dead joins again. -/
def handleProbeSuccess (members : FixedMembers) (m : NodeMeta) : FixedMembers × List MemberEvent :=
  match members.lookup m.id with
  | none => (members.insert m.id ⟨m, true, 0⟩, [⟨.join, m⟩])
  | some ps =>
    if ps.alive then (members.insert m.id { ps with consecutiveFails := 0 }, [])
    else (members.insert m.id ⟨m, true, 0⟩, [⟨.join, m⟩])

/-- `handleProbeFailure`, an event at the threshold only. -/
def handleProbeFailure (failureThreshold : ℤ) (members : FixedMembers) (id : NodeID) :
    FixedMembers × List MemberEvent :=
  match members.lookup id with
  | none => (members, [])
  | some ps =>
    if !ps.alive then (members, [])
    else if failureThreshold ≤ (ps.consecutiveFails + 1 : ℕ) then
      (members.insert id { ps with consecutiveFails := ps.consecutiveFails + 1, alive := false },
        [⟨.failed, ps.nodeMeta⟩])
    else (members.insert id { ps with consecutiveFails := ps.consecutiveFails + 1 }, [])

/-- `AddMember`. A dead member is not revived. -/
def addMember (members : FixedMembers) (m : NodeMeta) : FixedMembers × List MemberEvent :=
  if (members.lookup m.id).isSome then (members, [])
  else (members.insert m.id ⟨m, true, 0⟩, [⟨.join, m⟩])

end FixedMembers

/-- A `heartbeatLoop` is before `probeAll`, between two seeds, in a probe, with its answer, or at
the select. -/
inductive HeartbeatPc
  | begin
  | scanning (self : NodeID) (seeds : List NodeMeta)
  | probing (seed : NodeMeta) (self : NodeID) (rest : List NodeMeta)
  | probed (alive : Bool) (seed : NodeMeta) (self : NodeID) (rest : List NodeMeta)
  | waiting
  | done

/-- The loop is in a probe, or has its answer. -/
def HeartbeatPc.Probes : HeartbeatPc → Prop
  | .probing _ _ _ | .probed _ _ _ _ => True
  | _ => False

instance : DecidablePred HeartbeatPc.Probes
  | .begin => .isFalse id
  | .scanning _ _ => .isFalse id
  | .probing _ _ _ => .isTrue trivial
  | .probed _ _ _ _ => .isTrue trivial
  | .waiting => .isFalse id
  | .done => .isFalse id

/-- `probe` says whether there is a function to probe with. -/
structure FixedProvider where
  seeds : List NodeMeta
  failureThreshold : ℤ
  probe : Bool
  self : NodeMeta
  members : FixedMembers
  core : ProviderCore HeartbeatPc

/-- The calls, the steps of the loop with number `i`, and the receiver of the events. -/
inductive FixedAction
  | start (self : NodeMeta)
  | stop
  | addMember (m : NodeMeta)
  | addSeed (m : NodeMeta)
  | snapshot (i : ℕ)
  | next (i : ℕ)
  | answer (i : ℕ) (alive : Bool)
  | handle (i : ℕ)
  | tick (i : ℕ)
  | quit (i : ℕ)
  | receive

namespace FixedProvider

def new (seeds : List NodeMeta) (failureThreshold : ℤ) (probe : Bool) : FixedProvider where
  seeds
  failureThreshold := if failureThreshold = 0 then 3 else failureThreshold
  probe
  self := ⟨"", "", []⟩
  members := ∅
  core := .new 1024

def emit (p : FixedProvider) (r : FixedMembers × List MemberEvent) :
    FixedProvider × List ProviderEvent :=
  ({ p with members := r.1, core := (p.core.emit r.2).1 }, (p.core.emit r.2).2)

def addSeed (p : FixedProvider) (m : NodeMeta) : FixedProvider :=
  if p.seeds.any fun s => s.id = m.id then p else { p with seeds := p.seeds ++ [m] }

/-- The loop of `probeAll` at its next seed. -/
def nextSeed (p : FixedProvider) (cancelled : Bool) (self : NodeID) : List NodeMeta → HeartbeatPc
  | [] => .waiting
  | seed :: rest =>
    if cancelled then .waiting
    else if seed.id = self then .scanning self rest
    else if p.probe then .probing seed self rest
    else .probed true seed self rest

def handleProbe (p : FixedProvider) (alive : Bool) (seed : NodeMeta) :
    FixedMembers × List MemberEvent :=
  if alive then p.members.handleProbeSuccess seed
  else p.members.handleProbeFailure p.failureThreshold seed.id

def act (p : FixedProvider) : FixedAction → Option (FixedProvider × List ProviderEvent)
  | .start self =>
    some ({ p with
      self := if p.core.started then p.self else self
      core := (p.core.start .begin).1 }, (p.core.start .begin).2)
  | .stop => some ({ p with core := p.core.stop.1 }, p.core.stop.2)
  | .addMember m => some (p.emit (p.members.addMember m))
  | .addSeed m => some (p.addSeed m, [])
  | .snapshot i =>
    match p.core.loops[i]? with
    | some ⟨_, .begin⟩ => some ({ p with core := p.core.goto i (.scanning p.self.id p.seeds) }, [])
    | _ => none
  | .next i =>
    match p.core.loops[i]? with
    | some ⟨cancelled, .scanning self seeds⟩ =>
      some ({ p with core := p.core.goto i (p.nextSeed cancelled self seeds) }, [])
    | _ => none
  | .answer i alive =>
    match p.core.loops[i]? with
    | some ⟨_, .probing seed self rest⟩ =>
      some ({ p with core := p.core.goto i (.probed alive seed self rest) }, [])
    | _ => none
  | .handle i =>
    match p.core.loops[i]? with
    | some ⟨_, .probed alive seed self rest⟩ =>
      let r := p.emit (p.handleProbe alive seed)
      some ({ r.1 with core := r.1.core.goto i (.scanning self rest) }, r.2)
    | _ => none
  | .tick i =>
    match p.core.loops[i]? with
    | some ⟨_, .waiting⟩ => some ({ p with core := p.core.goto i .begin }, [])
    | _ => none
  | .quit i =>
    match p.core.loops[i]? with
    | some ⟨true, .waiting⟩ => some ({ p with core := p.core.goto i .done }, [])
    | _ => none
  | .receive => some ({ p with core := p.core.receive }, [])

def step (p : FixedProvider) (a : FixedAction) : Option (FixedProvider × List ProviderEvent) :=
  if p.core.crashed then none else p.act a

/-- `Start` is not called after `Stop`, `Stop` not during a probe, and `AddMember` adds nobody
after `Stop`. -/
def Orderly (p : FixedProvider) : FixedAction → Prop
  | .start _ => p.core.started = false → p.core.eventCh.closed = false
  | .stop => p.core.started = true → ∀ l ∈ p.core.loops, ¬ l.pc.Probes
  | .addMember m => p.core.eventCh.closed = false ∨ (p.members.lookup m.id).isSome
  | _ => True

instance (p : FixedProvider) : DecidablePred p.Orderly
  | .start _ => inferInstanceAs (Decidable (_ → _))
  | .stop => inferInstanceAs (Decidable (_ → _))
  | .addMember _ => inferInstanceAs (Decidable (_ ∨ _))
  | .addSeed _ | .snapshot _ | .next _ | .answer _ _ | .handle _ | .tick _ | .quit _ | .receive =>
    .isTrue trivial

section

variable {p p' : FixedProvider} {a : FixedAction} {es : List ProviderEvent}

theorem nextSeed_probes {cancelled : Bool} {self : NodeID} {seeds : List NodeMeta}
    (h : (p.nextSeed cancelled self seeds).Probes) : cancelled = false := by
  cases seeds with
  | nil => cases h
  | cons seed rest =>
    cases cancelled with
    | false => rfl
    | true => cases h

theorem quiet_step (h : p.core.Quiet HeartbeatPc.Probes) (hg : p.Orderly a)
    (hs : p.step a = some (p', es)) : p'.core.Quiet HeartbeatPc.Probes ∧ Safe es := by
  obtain ⟨-, hact⟩ := Option.ite_none_left_eq_some.mp hs
  cases a with
  | start self =>
    cases hact
    exact ⟨h.start hg, safe_start _ _⟩
  | stop =>
    cases hact
    exact ⟨h.stop fun hs _ l hl => hg hs l (List.mem_of_getElem? hl), safe_stop _⟩
  | addMember m =>
    cases hact
    refine ⟨h.emit _, safe_emit (hg.imp_right fun hknown => ?_)⟩
    rw [FixedMembers.addMember, if_pos hknown]
  | addSeed m =>
    cases hact
    refine ⟨?_, safe_nil⟩
    unfold addSeed
    split_ifs <;> exact h
  | receive =>
    cases hact
    exact ⟨h.receive, safe_nil⟩
  | snapshot i | tick i | quit i =>
    simp only [act] at hact
    split at hact <;> cases hact
    exact ⟨h.goto fun l _ hbusy => hbusy.elim, safe_nil⟩
  | next i =>
    simp only [act] at hact
    split at hact <;> cases hact
    next hi =>
      refine ⟨h.goto fun l hl hbusy => .inl ?_, safe_nil⟩
      cases hi.symm.trans hl
      exact nextSeed_probes hbusy
  | answer i alive =>
    simp only [act] at hact
    split at hact <;> cases hact
    next hi =>
      refine ⟨h.goto fun l hl _ => .inr ?_, safe_nil⟩
      cases hi.symm.trans hl
      trivial
  | handle i =>
    simp only [act] at hact
    split at hact <;> cases hact
    next hi =>
      exact ⟨(h.emit _).goto fun l _ hbusy => hbusy.elim,
        safe_emit (.inl (h.open_of_busy hi trivial))⟩

theorem safe_run {seeds : List NodeMeta} {failureThreshold : ℤ} {probe : Bool}
    {tr : List ProviderEvent} (hrun : Run step Orderly (new seeds failureThreshold probe) tr p) :
    Safe tr :=
  safe_of_step (I := fun p => p.core.Quiet HeartbeatPc.Probes) (quiet_new _ _)
    quiet_step hrun

end

end FixedProvider

end Westcoast.Provider
