import Westcoast.Lib.Assoc
import Westcoast.Provider.Core

/-!
# The provider that polls

`providerutil/poller.go`. A loop asks a function for the nodes there are, without the lock, and
compares what it returned with the members it knows, under it. A node that is missing often enough
in a row has failed. The events of one comparison come in the order of the entries.
-/
namespace Westcoast.Provider

open Lib Cluster ProviderCore

structure PollerPeerState where
  nodeMeta : NodeMeta
  alive : Bool
  consecutiveMisses : ℕ

abbrev PollerMembers := AList fun _ : NodeID => PollerPeerState

/-- A node that was discovered, against what is known of it. -/
def PollerPeerState.seen (existing : Option PollerPeerState) (m : NodeMeta) :
    PollerPeerState × List MemberEvent :=
  match existing with
  | none => (⟨m, true, 0⟩, [⟨.join, m⟩])
  | some ps =>
    if !ps.alive then (⟨m, true, 0⟩, [⟨.join, m⟩])
    else if !tagsEqual ps.nodeMeta.tags m.tags then (⟨m, true, 0⟩, [⟨.updated, m⟩])
    else ({ ps with consecutiveMisses := 0 }, [])

/-- A known node that was not discovered. -/
def PollerPeerState.missed (failureThreshold : ℤ) (ps : PollerPeerState) :
    PollerPeerState × List MemberEvent :=
  if !ps.alive then (ps, [])
  else if failureThreshold ≤ (ps.consecutiveMisses + 1 : ℕ) then
    ({ ps with consecutiveMisses := ps.consecutiveMisses + 1, alive := false },
      [⟨.failed, ps.nodeMeta⟩])
  else ({ ps with consecutiveMisses := ps.consecutiveMisses + 1 }, [])

namespace PollerMembers

/-- The nodes discovered, without the node itself; of entries for one identifier the last counts. -/
def discoveredBy (self : NodeID) (current : List NodeMeta) : AList fun _ : NodeID => NodeMeta :=
  current.foldl (fun seen m => if m.id = self then seen else seen.insert m.id m) ∅

/-- One entry changes, and its events come after those so far. -/
def put (r : PollerMembers × List MemberEvent) (id : NodeID)
    (ps : PollerPeerState × List MemberEvent) : PollerMembers × List MemberEvent :=
  (r.1.insert id ps.1, r.2 ++ ps.2)

/-- `diffMembers`: first the nodes discovered, then the rest. -/
def diffMembers (failureThreshold : ℤ) (self : NodeID) (members : PollerMembers)
    (current : List NodeMeta) : PollerMembers × List MemberEvent :=
  let seen := discoveredBy self current
  let r := seen.entries.foldl
    (fun r e => put r e.1 (PollerPeerState.seen (r.1.lookup e.1) e.2)) (members, [])
  r.1.entries.foldl
    (fun r e => if (seen.lookup e.1).isSome then r else put r e.1 (e.2.missed failureThreshold)) r

end PollerMembers

/-- Where a `pollLoop` is: before `poll`, in `discover`, with what it returned, or at the
select. -/
inductive PollPc
  | begin
  | discovering
  | discovered (current : List NodeMeta)
  | waiting
  | done

/-- The loop has discovered nodes and is about to compare them. -/
def PollPc.Compares : PollPc → Prop
  | .discovered _ => True
  | _ => False

instance : DecidablePred PollPc.Compares
  | .begin => .isFalse id
  | .discovering => .isFalse id
  | .discovered _ => .isTrue trivial
  | .waiting => .isFalse id
  | .done => .isFalse id

structure Poller where
  failureThreshold : ℤ
  self : NodeMeta
  members : PollerMembers
  core : ProviderCore PollPc

/-- The calls, the steps of loop `i`, and the receiver of the events. `none` of `discover` is an
error. -/
inductive PollerAction
  | start (self : NodeMeta)
  | stop
  | poll (i : ℕ)
  | answer (i : ℕ) (discovered : Option (List NodeMeta))
  | diff (i : ℕ)
  | tick (i : ℕ)
  | quit (i : ℕ)
  | receive

namespace Poller

def new (failureThreshold eventBufferSize : ℤ) : Poller where
  failureThreshold := if failureThreshold ≤ 0 then 3 else failureThreshold
  self := ⟨"", "", []⟩
  members := ∅
  core := .new (if eventBufferSize ≤ 0 then 1024 else eventBufferSize.toNat)

def emit (p : Poller) (r : PollerMembers × List MemberEvent) : Poller × List ProviderEvent :=
  ({ p with members := r.1, core := (p.core.emit r.2).1 }, (p.core.emit r.2).2)

def act (p : Poller) : PollerAction → Option (Poller × List ProviderEvent)
  | .start self =>
    some ({ p with
      self := if p.core.started then p.self else self
      core := (p.core.start .begin).1 }, (p.core.start .begin).2)
  | .stop => some ({ p with core := p.core.stop.1 }, p.core.stop.2)
  | .poll i =>
    match p.core.loops[i]? with
    | some ⟨_, .begin⟩ => some ({ p with core := p.core.goto i .discovering }, [])
    | _ => none
  | .answer i discovered =>
    match p.core.loops[i]? with
    | some ⟨_, .discovering⟩ =>
      -- an error skips this cycle
      some ({ p with core := p.core.goto i (discovered.elim .waiting .discovered) }, [])
    | _ => none
  | .diff i =>
    match p.core.loops[i]? with
    | some ⟨_, .discovered current⟩ =>
      let r := p.emit (p.members.diffMembers p.failureThreshold p.self.id current)
      some ({ r.1 with core := r.1.core.goto i .waiting }, r.2)
    | _ => none
  | .tick i =>
    match p.core.loops[i]? with
    | some ⟨_, .waiting⟩ => some ({ p with core := p.core.goto i .begin }, [])
    | _ => none
  | .quit i =>
    match p.core.loops[i]? with
    | some ⟨true, .waiting⟩ => some ({ p with core := p.core.goto i .done }, [])
    | _ => none
  | .receive => some ({ p with core := p.core.receive }, [])

def step (p : Poller) (a : PollerAction) : Option (Poller × List ProviderEvent) :=
  if p.core.crashed then none else p.act a

/-- No `Start` after `Stop`, no `Stop` before a comparison, and `discover` fails once its context is
cancelled. -/
def Orderly (p : Poller) : PollerAction → Prop
  | .start _ => p.core.started = false → p.core.eventCh.closed = false
  | .stop => p.core.started = true → ∀ l ∈ p.core.loops, ¬ l.pc.Compares
  | .answer i discovered =>
    discovered.isSome = true → ∀ l ∈ p.core.loops[i]?, l.cancelled = false
  | _ => True

instance (p : Poller) : DecidablePred p.Orderly
  | .start _ => inferInstanceAs (Decidable (_ → _))
  | .stop => inferInstanceAs (Decidable (_ → _))
  | .answer _ _ => inferInstanceAs (Decidable (_ → _))
  | .poll _ | .diff _ | .tick _ | .quit _ | .receive => .isTrue trivial

section

variable {p p' : Poller} {a : PollerAction} {es : List ProviderEvent}

theorem quiet_step (h : p.core.Quiet PollPc.Compares) (hg : p.Orderly a)
    (hs : p.step a = some (p', es)) : p'.core.Quiet PollPc.Compares ∧ Safe es := by
  obtain ⟨-, hact⟩ := Option.ite_none_left_eq_some.mp hs
  cases a with
  | start self =>
    cases hact
    exact ⟨h.start hg, safe_start _ _⟩
  | stop =>
    cases hact
    exact ⟨h.stop fun hs _ l hl => hg hs l (List.mem_of_getElem? hl), safe_stop _⟩
  | receive =>
    cases hact
    exact ⟨h.receive, safe_nil⟩
  | poll i | tick i | quit i =>
    simp only [act] at hact
    split at hact <;> cases hact
    exact ⟨h.goto fun l _ hbusy => hbusy.elim, safe_nil⟩
  | answer i discovered =>
    simp only [act] at hact
    split at hact <;> cases hact
    refine ⟨h.goto fun l hl hbusy => .inl ?_, safe_nil⟩
    cases discovered with
    | none => cases hbusy
    | some current => exact hg rfl l hl
  | diff i =>
    simp only [act] at hact
    split at hact <;> cases hact
    next hi =>
      exact ⟨(h.emit _).goto fun l _ hbusy => hbusy.elim,
        safe_emit (.inl (h.open_of_busy hi trivial))⟩

theorem safe_run {failureThreshold eventBufferSize : ℤ} {tr : List ProviderEvent}
    (hrun : Run step Orderly (new failureThreshold eventBufferSize) tr p) : Safe tr :=
  safe_of_step (I := fun p => p.core.Quiet PollPc.Compares) (quiet_new _ _)
    quiet_step hrun

end

end Poller

end Westcoast.Provider
