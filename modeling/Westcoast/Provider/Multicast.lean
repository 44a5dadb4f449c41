import Westcoast.Lib.Assoc
import Westcoast.Provider.Core

/-!
# The provider that listens for announcements

`multicastprovider/provider.go`. One goroutine reads packets and one sweeps silent members; both
tell the channel of events what changed, under the lock. `Stop` closes first `stopCh`, then the
connection, then the channel of events, without the lock. `Start` overwrites `stopCh` and the
connection; the numbers in the state of a goroutine say which it last looked at. The goroutine that
announces the node itself only writes packets and is left out, as is the time of joining, which
nobody reads.
-/
namespace Westcoast.Provider

open Lib Cluster Option Bool List

structure Announcement where
  nodeID : NodeID
  addr : String
  tags : List (String × String)
  leaving : Bool
  deriving DecidableEq

structure MulticastPeerState where
  nodeMeta : NodeMeta
  lastSeen : ℤ

abbrev MulticastMembers := AList fun _ : NodeID => MulticastPeerState

namespace MulticastMembers

/-- `handleAnnouncement` of another node, with the events it emits. -/
def handleAnnouncement (members : MulticastMembers) (ann : Announcement) (now : ℤ) :
    MulticastMembers × List MemberEvent :=
  let m : NodeMeta := ⟨ann.nodeID, ann.addr, ann.tags⟩
  if ann.leaving then
    if (members.lookup ann.nodeID).isSome then (members.erase ann.nodeID, [⟨.leave, m⟩])
    else (members, [])
  else
    match members.lookup ann.nodeID with
    | none => (members.insert ann.nodeID ⟨m, now⟩, [⟨.join, m⟩])
    | some existing =>
      if !tagsEqual existing.nodeMeta.tags ann.tags then
        let updated := { existing.nodeMeta with tags := ann.tags, addr := ann.addr }
        (members.insert ann.nodeID ⟨updated, now⟩, [⟨.updated, updated⟩])
      else (members.insert ann.nodeID { existing with lastSeen := now }, [])

/-- `sweep`; nodes that fail are forgotten. -/
def sweep (members : MulticastMembers) (deadTimeout now : ℤ) :
    MulticastMembers × List MemberEvent :=
  let dead (ps : MulticastPeerState) : Bool := deadTimeout < now - ps.lastSeen
  (eraseWhere dead members,
    (members.entries.filter fun e => dead e.2).map fun e => ⟨.failed, e.2.nodeMeta⟩)

end MulticastMembers

/-- `listenLoop` is before or in a read, with a packet before or after its check, in the locked
section, or gone. -/
inductive ListenPc
  | top
  | reading (conn : ℕ)
  | received (ann : Announcement)
  | foreign (ann : Announcement)
  | locked
  | done

/-- `sweepLoop` is before or at the select with a `stopCh`, after a tick, in the locked section, or
gone. -/
inductive SweepPc
  | top
  | waiting (stopCh : ℕ)
  | due
  | locked
  | done

/-- Where a `Stop` is that found the provider started. -/
inductive StopPc
  | leaving
  | closingStop
  | closingConn
  | closingEvents
  | done
  deriving DecidableEq

/-- `stopCh` has been closed, and the channel of events not yet. -/
def StopPc.Passed : StopPc → Prop
  | .closingConn | .closingEvents => True
  | _ => False

inductive MulticastOwner
  | listener (i : ℕ)
  | sweeper (i : ℕ)

/-- Who holds the lock to emit, what is left, and whether the first select of `emit` found `stopCh`
open. -/
structure Emission where
  owner : MulticastOwner
  ev : MemberEvent
  rest : List MemberEvent
  checked : Bool

/-- `stopChs` and `conns` say of each one that was made whether it is closed; the fields of the
source hold the last. -/
structure MulticastProvider where
  deadTimeout : ℤ
  self : NodeMeta
  members : MulticastMembers
  eventCh : Chan MemberEvent
  started : Bool
  stopChs : List Bool
  conns : List Bool
  listeners : List ListenPc
  sweepers : List SweepPc
  stoppers : List StopPc
  emission : Option Emission
  crashed : Bool

/-- `Start` after its new `stopCh`: no address, interface or connection, no loop back, or all is
well. -/
inductive Setup
  | noConn
  | noLoopback
  | ok

/-- What `ReadFromUDP` and the decoder make of a packet. -/
inductive ReadResult
  | packet (ann : Announcement)
  | garbled
  | error

inductive MulticastAction
  | start (self : NodeMeta) (setup : Setup)
  | stop
  | stopper (j : ℕ) (resolves : Bool)
  | updateTags (tags : List (String × String))
  | read (i : ℕ)
  | arrive (i : ℕ) (result : ReadResult)
  | compare (i : ℕ)
  | handle (i : ℕ) (now : ℤ)
  | select (i : ℕ)
  | tick (i : ℕ)
  | quit (i : ℕ)
  | sweep (i : ℕ) (now : ℤ)
  | check
  | send (stopFirst : Bool)
  | receive

namespace MulticastProvider

def new (deadTimeout : ℤ) : MulticastProvider where
  deadTimeout := if deadTimeout ≤ 0 then 5000000000 else deadTimeout
  self := ⟨"", "", []⟩
  members := ∅
  eventCh := .make 1024
  started := false
  stopChs := []
  conns := []
  listeners := []
  sweepers := []
  stoppers := []
  emission := none
  crashed := false

def stopClosed (p : MulticastProvider) : Bool := p.stopChs.getLast?.getD false

/-- `Start`. A failed one leaves a new `stopCh`. -/
def start (p : MulticastProvider) (self : NodeMeta) (setup : Setup) :
    MulticastProvider × List ProviderEvent :=
  if p.started then (p, [.returned (some .alreadyStarted)])
  else
    let p' := { p with self, stopChs := p.stopChs ++ [false] }
    match setup with
    | .noConn => (p', [.returned (some .setup)])
    | .noLoopback => ({ p' with conns := p.conns ++ [true] }, [.returned (some .setup)])
    | .ok =>
      ({ p' with
          conns := p.conns ++ [false]
          started := true
          listeners := p.listeners ++ [.top]
          sweepers := p.sweepers ++ [.top] }, [.returned none])

def stop (p : MulticastProvider) : MulticastProvider × List ProviderEvent :=
  if !p.started then (p, [.returned (some .notStarted)])
  else ({ p with started := false, stoppers := p.stoppers ++ [.leaving] }, [])

/-- `Stop` after its mutex, step by step. -/
def advanceStop (p : MulticastProvider) (j : ℕ) (resolves : Bool) :
    StopPc → Option (MulticastProvider × List ProviderEvent)
  | .leaving =>
    -- the last announcement reads the node under the lock
    if resolves ∧ p.emission.isSome then none
    else some ({ p with stoppers := p.stoppers.set j .closingStop }, [])
  | .closingStop =>
    if p.stopClosed then some ({ p with crashed := true }, [.closeOfClosed])
    else
      some ({ p with
        stopChs := p.stopChs.set (p.stopChs.length - 1) true
        stoppers := p.stoppers.set j .closingConn }, [])
  | .closingConn =>
    some ({ p with
      conns := p.conns.set (p.conns.length - 1) true
      stoppers := p.stoppers.set j .closingEvents }, [])
  | .closingEvents =>
    if p.eventCh.closed then some ({ p with crashed := true }, [.closeOfClosed])
    else
      some ({ p with
        eventCh := { p.eventCh with closed := true }
        stoppers := p.stoppers.set j .done }, [.returned none])
  | .done => none

/-- The owner of the lock gives it back and begins its loop again. -/
def release (p : MulticastProvider) : MulticastOwner → MulticastProvider
  | .listener i => { p with listeners := p.listeners.set i .top, emission := none }
  | .sweeper i => { p with sweepers := p.sweepers.set i .top, emission := none }

/-- The owner of the lock goes on with what is left to emit. -/
def proceed (p : MulticastProvider) (owner : MulticastOwner) : List MemberEvent → MulticastProvider
  | [] => p.release owner
  | ev :: rest => { p with emission := some ⟨owner, ev, rest, false⟩ }

def check (p : MulticastProvider) (e : Emission) : MulticastProvider :=
  if p.stopClosed then p.proceed e.owner e.rest
  else { p with emission := some { e with checked := true } }

/-- The second select of `emit`; of several ready cases `stopFirst` says whether that of `stopCh` is
taken. -/
def send (p : MulticastProvider) (e : Emission) (stopFirst : Bool) :
    MulticastProvider × List ProviderEvent :=
  if p.stopClosed ∧ stopFirst then (p.proceed e.owner e.rest, [])
  else
    let r := p.eventCh.offer e.ev
    ({ p.proceed e.owner e.rest with eventCh := r.1, crashed := r.2.isPanicked }, [.emitted r.2])

/-- One step of a process that has not panicked. What needs the lock waits while it is held. -/
def act (p : MulticastProvider) : MulticastAction → Option (MulticastProvider × List ProviderEvent)
  | .start self setup => if p.emission.isSome then none else some (p.start self setup)
  | .stop => if p.emission.isSome then none else some p.stop
  | .stopper j resolves => p.stoppers[j]?.bind (p.advanceStop j resolves)
  | .updateTags tags =>
    if p.emission.isSome then none else some ({ p with self := { p.self with tags } }, [])
  | .read i =>
    match p.listeners[i]? with
    | some .top =>
      some ({ p with listeners := p.listeners.set i (.reading (p.conns.length - 1)) }, [])
    | _ => none
  | .arrive i result =>
    match p.listeners[i]? with
    | some (.reading conn) =>
      match result with
      | .packet ann =>
        if p.conns[conn]? = some false then
          some ({ p with listeners := p.listeners.set i (.received ann) }, [])
        else none
      | .garbled => some ({ p with listeners := p.listeners.set i .top }, [])
      | .error =>
        some ({ p with listeners := p.listeners.set i (if p.stopClosed then .done else .top) }, [])
    | _ => none
  | .compare i =>
    match p.listeners[i]? with
    | some (.received ann) =>
      if p.emission.isSome then none
      else
        let pc := if ann.nodeID = p.self.id then .top else .foreign ann
        some ({ p with listeners := p.listeners.set i pc }, [])
    | _ => none
  | .handle i now =>
    match p.listeners[i]? with
    | some (.foreign ann) =>
      if p.emission.isSome then none
      else
        let r := p.members.handleAnnouncement ann now
        let p' := { p with members := r.1, listeners := p.listeners.set i .locked }
        some (p'.proceed (.listener i) r.2, [])
    | _ => none
  | .select i =>
    match p.sweepers[i]? with
    | some .top =>
      some ({ p with sweepers := p.sweepers.set i (.waiting (p.stopChs.length - 1)) }, [])
    | _ => none
  | .tick i =>
    match p.sweepers[i]? with
    | some (.waiting _) => some ({ p with sweepers := p.sweepers.set i .due }, [])
    | _ => none
  | .quit i =>
    match p.sweepers[i]? with
    | some (.waiting stopCh) =>
      if p.stopChs[stopCh]? = some true then
        some ({ p with sweepers := p.sweepers.set i .done }, [])
      else none
    | _ => none
  | .sweep i now =>
    match p.sweepers[i]? with
    | some .due =>
      if p.emission.isSome then none
      else
        let r := p.members.sweep p.deadTimeout now
        let p' := { p with members := r.1, sweepers := p.sweepers.set i .locked }
        some (p'.proceed (.sweeper i) r.2, [])
    | _ => none
  | .check =>
    match p.emission with
    | some e => if e.checked then none else some (p.check e, [])
    | none => none
  | .send stopFirst =>
    match p.emission with
    | some e => if e.checked then some (p.send e stopFirst) else none
    | none => none
  | .receive => some ({ p with eventCh := p.eventCh.receive }, [])

def step (p : MulticastProvider) (a : MulticastAction) :
    Option (MulticastProvider × List ProviderEvent) :=
  if p.crashed then none else p.act a

/-- No new `stopCh` is made once one was closed, and events are not closed between the two selects
of `emit`. -/
def Orderly (p : MulticastProvider) : MulticastAction → Prop
  | .start _ _ => p.started = false → p.stopClosed = false
  | .stopper j _ => p.stoppers[j]? = some .closingEvents → ∀ e ∈ p.emission, e.checked = false
  | _ => True

instance (p : MulticastProvider) : DecidablePred p.Orderly
  | .start _ _ => inferInstanceAs (Decidable (_ → _))
  | .stopper _ _ => inferInstanceAs (Decidable (_ → _))
  | .stop | .updateTags _ | .read _ | .arrive _ _ | .compare _ | .handle _ _ | .select _ | .tick _
  | .quit _ | .sweep _ _ | .check | .send _ | .receive => .isTrue trivial

/-- After `Stop` closed `stopCh` it is closed, and after the events were closed nobody is between
the two selects of `emit`. -/
structure Guarded (p : MulticastProvider) : Prop where
  made : p.started = true ∨ p.stoppers ≠ [] → p.stopChs ≠ []
  stopped : ∀ pc ∈ p.stoppers, pc.Passed → p.stopClosed = true
  closed : p.eventCh.closed = true → p.stopClosed = true ∧ ∀ e ∈ p.emission, e.checked = false

section

variable {p p' : MulticastProvider} {a : MulticastAction} {es : List ProviderEvent}

theorem guarded_new (deadTimeout : ℤ) : (new deadTimeout).Guarded where
  made := by simp [new]
  stopped := by simp [new]
  closed := by simp [new]

variable (h : p.Guarded)

include h

theorem Guarded.frame (hstarted : p'.started = p.started)
    (hstopChs : p'.stopChs = p.stopChs) (hstoppers : p'.stoppers = p.stoppers)
    (hclosed : p'.eventCh.closed = p.eventCh.closed)
    (hemission : ∀ e ∈ p'.emission, e.checked = true → p.stopClosed = false ∨ e ∈ p.emission) :
    p'.Guarded := by
  have hstop : p'.stopClosed = p.stopClosed := by simp only [stopClosed, hstopChs]
  refine ⟨?_, ?_, fun hc => ?_⟩
  · rw [hstarted, hstoppers, hstopChs]
    exact h.made
  · rw [hstop, hstoppers]
    exact h.stopped
  · obtain ⟨hs, hunchecked⟩ := h.closed (hclosed ▸ hc)
    refine ⟨hstop.trans hs, fun e he => ?_⟩
    by_contra hchecked
    rw [not_eq_false] at hchecked
    rcases hemission e he hchecked with hopen | hold
    · rw [hs] at hopen
      cases hopen
    · rw [hunchecked e hold] at hchecked
      cases hchecked

theorem Guarded.of_eq
    (heq : (p'.started, p'.stopChs, p'.stoppers, p'.eventCh.closed, p'.emission) =
      (p.started, p.stopChs, p.stoppers, p.eventCh.closed, p.emission)) : p'.Guarded := by
  simp only [Prod.mk.injEq] at heq
  obtain ⟨hstarted, hstopChs, hstoppers, hclosed, hemission⟩ := heq
  exact h.frame hstarted hstopChs hstoppers hclosed fun e he _ => .inr (hemission ▸ he)

omit h in
theorem eventCh_proceed (p : MulticastProvider) (owner : MulticastOwner)
    (evs : List MemberEvent) : (p.proceed owner evs).eventCh = p.eventCh := by
  cases evs with
  | nil => cases owner <;> rfl
  | cons => rfl

theorem Guarded.proceed (owner : MulticastOwner) (evs : List MemberEvent) :
    (p.proceed owner evs).Guarded := by
  cases evs with
  | nil =>
    cases owner with
    | listener i | sweeper i => exact h.frame rfl rfl rfl rfl nofun
  | cons ev rest =>
    refine h.frame rfl rfl rfl rfl fun e he hchecked => ?_
    cases he
    cases hchecked

theorem Guarded.start (self : NodeMeta) (setup : Setup)
    (hopen : p.started = false → p.stopClosed = false) :
    (p.start self setup).1.Guarded ∧ Safe (p.start self setup).2 := by
  unfold MulticastProvider.start
  split_ifs with hstarted
  · exact ⟨h, by simp [Safe]⟩
  · rw [not_eq_true] at hstarted
    have hstop := hopen hstarted
    -- nothing was closed before, so the new channel may be open
    have hnone : ∀ pc ∈ p.stoppers, ¬ pc.Passed := by
      intro pc hpc hpassed
      rw [h.stopped pc hpc hpassed] at hstop
      cases hstop
    have hevents : p.eventCh.closed = false := by
      by_contra hclosed
      rw [not_eq_false] at hclosed
      rw [(h.closed hclosed).1] at hstop
      cases hstop
    cases setup
    all_goals
      refine ⟨⟨fun _ => by simp, fun pc hpc hpassed => (hnone pc hpc hpassed).elim,
        fun hclosed => ?_⟩, by simp [Safe]⟩
      cases hevents.symm.trans hclosed

theorem Guarded.stop : p.stop.1.Guarded ∧ Safe p.stop.2 := by
  unfold MulticastProvider.stop
  by_cases hstarted : p.started = true
  · simp only [hstarted, Bool.not_true, Bool.false_eq_true, if_false]
    refine ⟨⟨fun _ => h.made (.inl hstarted), fun pc hpc hpassed => ?_, h.closed⟩, safe_nil⟩
    rcases mem_append.mp hpc with hold | hnew
    · exact h.stopped pc hold hpassed
    · rw [mem_singleton.mp hnew] at hpassed
      cases hpassed
  · rw [not_eq_true] at hstarted
    simp only [hstarted, Bool.not_false, if_true]
    exact ⟨h, by simp [Safe]⟩

omit h in
theorem stopClosed_close {stopChs : List Bool} (h : stopChs ≠ []) :
    (stopChs.set (stopChs.length - 1) true).getLast?.getD false = true := by
  obtain ⟨rest, last, rfl⟩ := eq_nil_or_concat stopChs |>.resolve_left h
  simp

theorem Guarded.advanceStop {j : ℕ} {resolves : Bool} {pc : StopPc}
    (hj : p.stoppers[j]? = some pc) (hg : pc = .closingEvents → ∀ e ∈ p.emission, e.checked = false)
    (hs : p.advanceStop j resolves pc = some (p', es)) : p'.Guarded ∧ Safe es := by
  have hmem : pc ∈ p.stoppers := mem_of_getElem? hj
  have hmade : p.stopChs ≠ [] := h.made (.inr (ne_nil_of_mem hmem))
  cases pc with
  | leaving =>
    obtain ⟨-, hs⟩ := ite_none_left_eq_some.mp hs
    cases hs
    refine ⟨⟨fun _ => hmade, fun pc hpc hpassed => ?_, h.closed⟩, safe_nil⟩
    rcases mem_or_eq_of_mem_set hpc with hold | rfl
    · exact h.stopped pc hold hpassed
    · cases hpassed
  | closingStop =>
    simp only [MulticastProvider.advanceStop] at hs
    split_ifs at hs with hclosed <;> cases hs
    · exact ⟨h.of_eq rfl, by simp [Safe]⟩
    · refine ⟨⟨fun _ => by simpa using hmade, fun _ _ _ => stopClosed_close hmade, fun hev => ?_⟩,
        safe_nil⟩
      exact ⟨stopClosed_close hmade, (h.closed hev).2⟩
  | closingConn =>
    cases hs
    have hstop := h.stopped _ hmem trivial
    exact ⟨⟨fun _ => hmade, fun _ _ _ => hstop, h.closed⟩, safe_nil⟩
  | closingEvents =>
    have hstop := h.stopped _ hmem trivial
    simp only [MulticastProvider.advanceStop] at hs
    split_ifs at hs with hclosed <;> cases hs
    · exact ⟨h.of_eq rfl, by simp [Safe]⟩
    · exact ⟨⟨fun _ => hmade, fun _ _ _ => hstop, fun _ => ⟨hstop, hg rfl⟩⟩, by simp [Safe]⟩
  | done => cases hs

theorem Guarded.send {e : Emission} (he : p.emission = some e)
    (hchecked : e.checked = true) (stopFirst : Bool) :
    (p.send e stopFirst).1.Guarded ∧ Safe (p.send e stopFirst).2 := by
  have hopen : p.eventCh.closed = false := by
    by_contra hclosed
    rw [not_eq_false] at hclosed
    rw [(h.closed hclosed).2 e he] at hchecked
    cases hchecked
  unfold MulticastProvider.send
  split_ifs
  · exact ⟨h.proceed _ _, safe_nil⟩
  · refine ⟨(h.proceed e.owner e.rest).frame rfl rfl rfl ?_ fun e' he' _ => .inr he',
      fun ev hmem => ?_⟩
    · rw [eventCh_proceed]
      exact Chan.closed_offer _ _
    · rw [mem_singleton, ProviderEvent.emitted.injEq] at hmem
      exact Chan.offer_of_open hopen e.ev ev hmem.symm

theorem guarded_step (hg : p.Orderly a) (hs : p.step a = some (p', es)) :
    p'.Guarded ∧ Safe es := by
  obtain ⟨-, hact⟩ := ite_none_left_eq_some.mp hs
  cases a with
  | start self setup =>
    obtain ⟨-, hact⟩ := ite_none_left_eq_some.mp hact
    have hstart := h.start self setup hg
    rw [some.inj hact] at hstart
    exact hstart
  | stop =>
    obtain ⟨-, hact⟩ := ite_none_left_eq_some.mp hact
    have hstop := h.stop
    rw [some.inj hact] at hstop
    exact hstop
  | stopper j resolves =>
    obtain ⟨pc, hj, hact⟩ := bind_eq_some_iff.mp hact
    exact h.advanceStop hj (fun hpc => hg (hpc ▸ hj)) hact
  | updateTags tags =>
    obtain ⟨-, hact⟩ := ite_none_left_eq_some.mp hact
    cases hact
    exact ⟨h.of_eq rfl, safe_nil⟩
  | receive =>
    cases hact
    exact ⟨h.of_eq rfl, safe_nil⟩
  | read i | select i | tick i =>
    simp only [act] at hact
    split at hact <;> cases hact
    exact ⟨h.of_eq rfl, safe_nil⟩
  | quit i =>
    simp only [act] at hact
    split at hact
    · obtain ⟨-, hact⟩ := ite_none_right_eq_some.mp hact
      cases hact
      exact ⟨h.of_eq rfl, safe_nil⟩
    · cases hact
  | compare i =>
    simp only [act] at hact
    split at hact
    · obtain ⟨-, hact⟩ := ite_none_left_eq_some.mp hact
      cases hact
      exact ⟨h.of_eq rfl, safe_nil⟩
    · cases hact
  | arrive i result =>
    simp only [act] at hact
    split at hact
    · cases result with
      | packet ann =>
        obtain ⟨-, hact⟩ := ite_none_right_eq_some.mp hact
        cases hact
        exact ⟨h.of_eq rfl, safe_nil⟩
      | garbled | error =>
        cases hact
        exact ⟨h.of_eq rfl, safe_nil⟩
    · cases hact
  | handle i now | sweep i now =>
    simp only [act] at hact
    split at hact
    · obtain ⟨-, hact⟩ := ite_none_left_eq_some.mp hact
      cases hact
      refine ⟨Guarded.proceed ?_ _ _, safe_nil⟩
      exact h.of_eq rfl
    · cases hact
  | check =>
    simp only [act] at hact
    split at hact
    · next e he =>
      obtain ⟨-, hact⟩ := ite_none_left_eq_some.mp hact
      cases hact
      refine ⟨?_, safe_nil⟩
      unfold MulticastProvider.check
      split_ifs with hstop
      · exact h.proceed _ _
      · rw [not_eq_true] at hstop
        exact h.frame rfl rfl rfl rfl fun e _ _ => .inl hstop
    · cases hact
  | send stopFirst =>
    simp only [act] at hact
    split at hact
    · next e he =>
      obtain ⟨hchecked, hact⟩ := ite_none_right_eq_some.mp hact
      have hsend := h.send he hchecked stopFirst
      rw [some.inj hact] at hsend
      exact hsend
    · cases hact

omit h in
theorem safe_run {deadTimeout : ℤ} {tr : List ProviderEvent}
    (hrun : Run step Orderly (new deadTimeout) tr p) : Safe tr :=
  safe_of_step (guarded_new _) guarded_step hrun

end

end MulticastProvider

end Westcoast.Provider
