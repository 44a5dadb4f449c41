import Mathlib.Data.Set.Basic
import Westcoast.Actor.Monitors

/-!
# The cron service

`cron_broker.go`. A service belongs to a runtime: `CronHandler` returns the same one each time the
actor is created on the node. Each subscription has a goroutine (`CronLoop`) with a context of its
own; `runSchedule` is cut where it looks at the clock or at its context.
-/
namespace Westcoast

open Lib List Option

/-- A parsed schedule (`cron.Schedule`): when it fires next after a time, if ever. -/
structure CronSchedule where
  next : ℕ → Option ℕ
  later : ∀ now t, next now = some t → now < t

structure CronRef where
  id : String
  schedule : String
  actorID : String
  deriving DecidableEq

/-- `cronSubscription`; its cancel function is the number of its goroutine. -/
structure CronSubscription (π : Type) where
  ref : CronRef
  subscriber : PID
  actorID : String
  schedule : CronSchedule
  payload : π
  tag : String
  monitorRef : MonitorRef
  cancel : ℕ

structure CronTickMessage (π : Type) where
  ref : CronRef
  payload : π
  firedAt : ℕ
  tag : String
  deriving DecidableEq

/-! ### The goroutines -/

/-- A goroutine is at the top of its loop, in its `select`, past the timer and the second look at
the context, or returned. -/
inductive CronPhase
  | top
  | waiting (next : ℕ)
  | due (next : ℕ)
  | ended
  deriving DecidableEq

/-- A `runSchedule` goroutine. -/
structure CronLoop (π : Type) where
  sub : CronSubscription π
  cancelled : Bool
  phase : CronPhase

namespace CronLoop

variable {π : Type}

/-- The top of the loop of `runSchedule`: the next time is fixed. -/
def arm (l : CronLoop π) (now : ℕ) : Option (CronLoop π) :=
  match l.phase with
  | .top =>
    some { l with
      phase :=
        if l.cancelled then .ended
        else
          match l.sub.schedule.next now with
          | none => .ended
          | some next => .waiting next }
  | _ => none

/-- The timer fires. A context that is done is noticed after it. -/
def wake (l : CronLoop π) (now : ℕ) : Option (CronLoop π) :=
  match l.phase with
  | .waiting next =>
    if next ≤ now then some { l with phase := if l.cancelled then .ended else .due next } else none
  | _ => none

/-- The case of the select for a context that is done. -/
def quit (l : CronLoop π) : Option (CronLoop π) :=
  match l.phase with
  | .waiting _ => if l.cancelled then some { l with phase := .ended } else none
  | _ => none

def tick (l : CronLoop π) (next : ℕ) : CronTickMessage π :=
  ⟨l.sub.ref, l.sub.payload, next, l.sub.tag⟩

/-- The `Send`, after which the loop begins again. -/
def fire (l : CronLoop π) : Option (CronTickMessage π × CronLoop π) :=
  match l.phase with
  | .due next => some (l.tick next, { l with phase := .top })
  | _ => none

variable {l l' : CronLoop π} {now : ℕ}

theorem arm_eq_some (h : l.arm now = some l') :
    l'.sub = l.sub ∧ l.phase = .top ∧ (l'.phase = .ended ∨
      ∃ next, l'.phase = .waiting next ∧ l.cancelled = false ∧
        l.sub.schedule.next now = some next) := by
  unfold arm at h
  split at h
  · next hphase =>
    cases h
    refine ⟨rfl, hphase, ?_⟩
    by_cases hcancelled : l.cancelled = true
    · exact .inl (if_pos hcancelled)
    · simp only [if_neg hcancelled]
      cases l.sub.schedule.next now with
      | none => exact .inl rfl
      | some next => exact .inr ⟨next, rfl, by simpa using hcancelled, rfl⟩
  · cases h

theorem wake_eq_some (h : l.wake now = some l') :
    l'.sub = l.sub ∧ ∃ next, l.phase = .waiting next ∧ next ≤ now ∧
      (l'.phase = .ended ∨ l'.phase = .due next ∧ l.cancelled = false) := by
  unfold wake at h
  split at h
  · next next hphase =>
    obtain ⟨hle, heq⟩ := ite_none_right_eq_some.mp h
    cases heq
    refine ⟨rfl, next, hphase, hle, ?_⟩
    by_cases hcancelled : l.cancelled = true
    · exact .inl (if_pos hcancelled)
    · exact .inr ⟨if_neg hcancelled, by simpa using hcancelled⟩
  · cases h

theorem quit_eq_some (h : l.quit = some l') : l'.sub = l.sub ∧ l'.phase = .ended := by
  unfold quit at h
  split at h
  · obtain ⟨-, heq⟩ := ite_none_right_eq_some.mp h
    cases heq
    exact ⟨rfl, rfl⟩
  · cases h

theorem fire_eq_some {tick : CronTickMessage π} (h : l.fire = some (tick, l')) :
    ∃ next, l.phase = .due next ∧ tick = l.tick next ∧ l' = { l with phase := .top } := by
  unfold fire at h
  split at h
  · next next hphase =>
    cases h
    exact ⟨next, hphase, rfl, rfl⟩
  · cases h

/-- The goroutine has returned, will find its context done before it sends, or its schedule fires no
more. -/
def AtRest (now : ℕ) (l : CronLoop π) : Prop :=
  match l.phase with
  | .ended => True
  | .due _ => False
  | .waiting _ => l.cancelled = true
  | .top => l.cancelled = true ∨ ∀ t, now ≤ t → l.sub.schedule.next t = none

theorem AtRest.later {now' : ℕ} (h : l.AtRest now) (hle : now ≤ now') : l.AtRest now' := by
  unfold AtRest at h ⊢
  split
  · exact trivial
  · next hphase => simp [hphase] at h
  · next hphase => simpa [hphase] using h
  · next hphase =>
    simp only [hphase] at h
    exact h.imp_right fun hnone t ht => hnone t (hle.trans ht)

theorem atRest_of_ended (h : l.phase = .ended) (now : ℕ) : l.AtRest now := by
  simp [AtRest, h]

theorem AtRest.arm (h : l.AtRest now) (harm : l.arm now = some l') : l'.AtRest now := by
  obtain ⟨-, htop, hended | ⟨next, -, hcancelled, hnext⟩⟩ := arm_eq_some harm
  · exact atRest_of_ended hended now
  · simp [AtRest, htop, hcancelled] at h
    rw [h now (Nat.le_refl _)] at hnext
    cases hnext

theorem AtRest.wake (h : l.AtRest now) (hwake : l.wake now = some l') : l'.AtRest now := by
  obtain ⟨-, next, hwaiting, -, hended | ⟨-, hcancelled⟩⟩ := wake_eq_some hwake
  · exact atRest_of_ended hended now
  · simp [AtRest, hwaiting, hcancelled] at h

theorem not_atRest_of_fire {tick : CronTickMessage π} (hfire : l.fire = some (tick, l')) (now : ℕ) :
    ¬ l.AtRest now := by
  obtain ⟨next, hphase, -⟩ := fire_eq_some hfire
  simp [AtRest, hphase]

theorem AtRest.cancelled (h : l.AtRest now) (hsub : l'.sub = l.sub) (hphase : l'.phase = l.phase)
    (hcancelled : l.cancelled = true → l'.cancelled = true) : l'.AtRest now := by
  unfold AtRest at h ⊢
  rw [hphase, hsub]
  split
  · exact trivial
  · next hdue => simp [hdue] at h
  · next hwait =>
    simp only [hwait] at h
    exact hcancelled h
  · next htop =>
    simp only [htop] at h
    exact h.imp_left hcancelled

end CronLoop

/-! ### The commands -/

inductive CronOperation
  | subscribe
  | unsubscribe
  | unsubscribeAll
  | list
  deriving DecidableEq

inductive CronOutcomeType
  | subscribeSuccess
  | unsubscribeSuccess
  | listSuccess
  | invalidSchedule
  | invalidCommand
  | notFound
  deriving DecidableEq

/-- `CronCommandAck`; what the source leaves out has the zero value. -/
structure CronCommandAck where
  operation : CronOperation
  result : CronOutcomeType
  ref : CronRef := ⟨"", "", ""⟩
  refs : List CronRef := []
  reasonCode : String := ""
  deriving DecidableEq

/-- The messages of the cron actor; `other` is a payload it does not know. -/
inductive CronCommand (π : Type)
  | subscribe (subscriber : PID) (schedule : String) (payload : π) (tag : String)
  | unsubscribe (subscriber : PID) (refID : String)
  | unsubscribeAll (subscriber : PID)
  | list (subscriber : PID)
  | down (message : DownMessage)
  | other

/-- The commands that have nothing to do with what is subscribed, or are not asked. -/
def CronCommand.neutral {π : Type} (ask : Option AskRequestContext) : CronCommand π → Bool
  | .list _ | .other => true
  | .subscribe .. | .unsubscribe .. | .unsubscribeAll .. => ask.isNone
  | .down _ => false

structure CronHandoffEntry (π : Type) where
  refID : String
  actorID : String
  schedule : String
  tag : String
  payload : π
  deriving DecidableEq

structure CronHandoffState (π : Type) where
  entries : List (CronHandoffEntry π)
  deriving DecidableEq

/-- The state of the cron actor, as the handler sees it: an `any` that is nil, a `*CronHandoffState`
or a `CronHandoffState`. -/
inductive CronState (π : Type)
  | nil
  | pointer (state : CronHandoffState π)
  | value (state : CronHandoffState π)

/-- What the handler does besides: replies, and goroutines for a subscriber or an entry. -/
inductive CronServiceEvent (π : Type)
  | replied (ask : AskRequestContext) (ack : CronCommandAck)
  | subscribed (loop : ℕ) (subscriber : PID)
  | restored (loop : ℕ) (entry : CronHandoffEntry π)
  deriving DecidableEq

/-- `cronBrokerService` with its node's ID and monitors. The goroutines are numbered as they were
started. -/
structure CronBrokerService (π : Type) where
  nodeID : String
  cronID : String
  subs : AList (fun _ : String => CronSubscription π)
  byActor : AList (fun _ : String => AList (fun _ : String => Unit))
  seq : ℕ
  restored : Bool
  monitors : MonitorManager
  loops : List (CronLoop π)

namespace CronBrokerService

variable {π : Type}

def new (nodeID cronID : String) : CronBrokerService π :=
  ⟨nodeID, cronID, ∅, ∅, 0, false, .new, []⟩

def refsOf (cs : CronBrokerService π) (actorID : String) : List String :=
  ((cs.byActor.lookup actorID).getD ∅).keys

/-- A subscription is entered, monitored and started, by `handleSubscribe` or `restoreFromHandoff`.
-/
def start (cs : CronBrokerService π) (ref : CronRef) (subscriber : PID) (schedule : CronSchedule)
    (payload : π) (tag : String) : CronBrokerService π :=
  let monitored := cs.monitors.add ⟨subscriber.ns, cs.cronID, 1⟩ subscriber
  let sub : CronSubscription π :=
    ⟨ref, subscriber, subscriber.actorID, schedule, payload, tag, monitored.1, cs.loops.length⟩
  { cs with
    subs := cs.subs.insert ref.id sub
    byActor := cs.byActor.insert sub.actorID
      (((cs.byActor.lookup sub.actorID).getD ∅).insert ref.id ())
    monitors := monitored.2
    loops := cs.loops ++ [⟨sub, false, .top⟩] }

def cancelLoop (cs : CronBrokerService π) (loop : ℕ) : CronBrokerService π :=
  { cs with loops := cs.loops.modify loop fun l => { l with cancelled := true } }

/-- `removeLocked`: the goroutine, the monitor and both tables. -/
def removeLocked (cs : CronBrokerService π) (refID : String) (sub : CronSubscription π) :
    CronBrokerService π :=
  let cs := cs.cancelLoop sub.cancel
  { cs with
    monitors := (cs.monitors.remove sub.monitorRef).2
    subs := cs.subs.erase refID
    byActor :=
      match cs.byActor.lookup sub.actorID with
      | none => cs.byActor
      | some refs =>
        if (refs.erase refID).keys = [] then cs.byActor.erase sub.actorID
        else cs.byActor.insert sub.actorID (refs.erase refID) }

/-- `removeLocked` for a reference that may have no subscription. -/
def removeRef (cs : CronBrokerService π) (refID : String) : CronBrokerService π :=
  match cs.subs.lookup refID with
  | none => cs
  | some sub => cs.removeLocked refID sub

/-- The loop body of `handleDown`, where the monitor is used up. -/
def dropRef (cs : CronBrokerService π) (refID : String) : CronBrokerService π :=
  match cs.subs.lookup refID with
  | none => cs
  | some sub => { cs.cancelLoop sub.cancel with subs := cs.subs.erase refID }

/-- `handleDown`, for all subscriptions of the actor. -/
def handleDown (cs : CronBrokerService π) (down : DownMessage) : CronBrokerService π :=
  let cs := (cs.refsOf down.target.actorID).foldl dropRef cs
  { cs with byActor := cs.byActor.erase down.target.actorID }

def handleUnsubscribe (cs : CronBrokerService π) (ask : AskRequestContext) (refID : String) :
    CronBrokerService π × List (CronServiceEvent π) :=
  match cs.subs.lookup refID with
  | some sub =>
    (cs.removeLocked refID sub,
      [.replied ask { operation := .unsubscribe, result := .unsubscribeSuccess, ref := sub.ref }])
  | none =>
    (cs, [.replied ask
      { operation := .unsubscribe, result := .notFound, reasonCode := "cron_ref_not_found" }])

def handleUnsubscribeAll (cs : CronBrokerService π) (ask : AskRequestContext)
    (subscriber : PID) : CronBrokerService π × List (CronServiceEvent π) :=
  ((cs.refsOf subscriber.actorID).foldl removeRef cs,
    [.replied ask { operation := .unsubscribeAll, result := .unsubscribeSuccess }])

def handleList (cs : CronBrokerService π) (ask : AskRequestContext) (subscriber : PID) :
    List (CronServiceEvent π) :=
  [.replied ask
    { operation := .list, result := .listSuccess,
      refs := (cs.refsOf subscriber.actorID).filterMap fun refID =>
        (cs.subs.lookup refID).map (·.ref) }]

def entryOf (sub : CronSubscription π) : CronHandoffEntry π :=
  ⟨sub.ref.id, sub.actorID, sub.ref.schedule, sub.tag, sub.payload⟩

/-- `captureState`; schedules go as texts. -/
def captureState (cs : CronBrokerService π) : CronHandoffState π :=
  ⟨cs.subs.entries.map fun e => entryOf e.2⟩

def held (cs : CronBrokerService π) : Set (CronHandoffEntry π) :=
  { e | ∃ refID sub, cs.subs.lookup refID = some sub ∧ entryOf sub = e }

theorem mem_captureState (cs : CronBrokerService π) (e : CronHandoffEntry π) :
    e ∈ cs.captureState.entries ↔ e ∈ cs.held := by
  simp only [captureState, held, List.mem_map, Set.mem_ofPred_eq]
  constructor
  · rintro ⟨⟨refID, sub⟩, hmem, rfl⟩
    exact ⟨refID, sub, AList.mem_lookup_iff.mpr hmem, rfl⟩
  · rintro ⟨refID, sub, hlook, rfl⟩
    exact ⟨⟨refID, sub⟩, AList.mem_lookup_iff.mp hlook, rfl⟩

variable (parse : String → Option CronSchedule)

/-- `handleSubscribe`. A refused schedule uses up no number. -/
def handleSubscribe (cs : CronBrokerService π) (ask : AskRequestContext) (subscriber : PID)
    (schedule : String) (payload : π) (tag : String) :
    CronBrokerService π × List (CronServiceEvent π) :=
  match parse schedule with
  | none =>
    (cs, [.replied ask
      { operation := .subscribe, result := .invalidSchedule,
        reasonCode := "cron_invalid_schedule" }])
  | some sched =>
    let refID := "cron-" ++ cs.cronID ++ "-" ++ (cs.seq + 1).repr
    let ref : CronRef := ⟨refID, schedule, subscriber.actorID⟩
    ({ cs with seq := cs.seq + 1 }.start ref subscriber sched payload tag,
      [.subscribed cs.loops.length subscriber,
        .replied ask { operation := .subscribe, result := .subscribeSuccess, ref := ref }])

/-- A turn of the loop of `restoreFromHandoff`, with the events so far. -/
def restoreEntry (r : CronBrokerService π × List (CronServiceEvent π))
    (entry : CronHandoffEntry π) : CronBrokerService π × List (CronServiceEvent π) :=
  match parse entry.schedule with
  | none => r
  | some sched =>
    let ref : CronRef := ⟨entry.refID, entry.schedule, entry.actorID⟩
    (r.1.start ref ⟨r.1.nodeID, entry.actorID, 1⟩ sched entry.payload entry.tag,
      r.2 ++ [.restored r.1.loops.length entry])

/-- `restoreFromHandoff`, under the old references. -/
def restoreFromHandoff (cs : CronBrokerService π) (hs : CronHandoffState π) :
    CronBrokerService π × List (CronServiceEvent π) :=
  hs.entries.foldl (restoreEntry parse) (cs, [])

/-- The start of the handler, which restores before the first command. -/
def restoreOnce (cs : CronBrokerService π) (state : CronState π) :
    CronBrokerService π × List (CronServiceEvent π) :=
  if cs.restored then (cs, [])
  else
    match state with
    | .pointer hs => { cs with restored := true }.restoreFromHandoff parse hs
    | _ => ({ cs with restored := true }, [])

/-- The `switch` of the handler. Commands that are not asked are ignored. -/
def dispatch (cs : CronBrokerService π) (ask : Option AskRequestContext) :
    CronCommand π → CronBrokerService π × List (CronServiceEvent π)
  | .subscribe subscriber schedule payload tag =>
    match ask with
    | none => (cs, [])
    | some ask => cs.handleSubscribe parse ask subscriber schedule payload tag
  | .unsubscribe _ refID =>
    match ask with
    | none => (cs, [])
    | some ask => cs.handleUnsubscribe ask refID
  | .unsubscribeAll subscriber =>
    match ask with
    | none => (cs, [])
    | some ask => cs.handleUnsubscribeAll ask subscriber
  | .list subscriber =>
    match ask with
    | none => (cs, [])
    | some ask => (cs, cs.handleList ask subscriber)
  | .down message => (cs.handleDown message, [])
  | .other =>
    match ask with
    | none => (cs, [])
    | some ask =>
      (cs, [.replied ask
        { operation := .subscribe, result := .invalidCommand,
          reasonCode := "cron_invalid_command" }])

/-- `handler`. The new state of the actor is `captureState`, by its pointer. -/
def handler (cs : CronBrokerService π) (state : CronState π) (ask : Option AskRequestContext)
    (command : CronCommand π) : CronBrokerService π × CronState π × List (CronServiceEvent π) :=
  let restored := cs.restoreOnce parse state
  let done := restored.1.dispatch parse ask command
  (done.1, .pointer done.1.captureState, restored.2 ++ done.2)

/-! ### What a message does to the goroutines -/

/-- The goroutines go on, some cancelled; a new one is at the top of its loop, for a subscriber or
an entry. -/
structure Progress (cs cs' : CronBrokerService π) (es : List (CronServiceEvent π)) : Prop where
  old : ∀ (g : ℕ) (l : CronLoop π), cs.loops[g]? = some l →
    ∃ l' : CronLoop π, cs'.loops[g]? = some l' ∧ l'.sub = l.sub ∧ l'.phase = l.phase ∧
      (l.cancelled = true → l'.cancelled = true)
  new : ∀ (g : ℕ) (l' : CronLoop π), cs'.loops[g]? = some l' → cs.loops[g]? = none →
    l'.phase = .top ∧ l'.sub.actorID = l'.sub.subscriber.actorID ∧
      (.subscribed g l'.sub.subscriber ∈ es ∨ ∃ entry, .restored g entry ∈ es)
  fresh : ∀ (g : ℕ) (p : PID), .subscribed g p ∈ es → cs.loops[g]? = none ∧
    ∃ l' : CronLoop π, cs'.loops[g]? = some l' ∧ l'.sub.subscriber = p
  flag : cs.restored = true → cs'.restored = true

variable {cs cs' : CronBrokerService π} {es : List (CronServiceEvent π)}

theorem Progress.of_same (h : cs'.loops = cs.loops)
    (hflag : cs.restored = true → cs'.restored = true) (hes : ∀ g p, .subscribed g p ∉ es) :
    Progress cs cs' es where
  old g l hl := ⟨l, by rw [h, hl], rfl, rfl, id⟩
  new g l' hl' hnone := by
    rw [h, hnone] at hl'
    cases hl'
  fresh g p hmem := absurd hmem (hes g p)
  flag := hflag

theorem progress_refl (cs : CronBrokerService π) : Progress cs cs [] :=
  .of_same rfl id fun _ _ hmem => nomatch hmem

theorem Progress.congr {cs₁ cs₁' : CronBrokerService π} (h : Progress cs₁ cs₁' es)
    (hloops : cs.loops = cs₁.loops) (hloops' : cs'.loops = cs₁'.loops)
    (hflag : cs.restored = true → cs₁.restored = true)
    (hflag' : cs₁'.restored = true → cs'.restored = true) : Progress cs cs' es where
  old g l hl := by
    rw [hloops] at hl
    rw [hloops']
    exact h.old g l hl
  new g l' hl' hnone := by
    rw [hloops'] at hl'
    rw [hloops] at hnone
    exact h.new g l' hl' hnone
  fresh g p hmem := by
    rw [hloops, hloops']
    exact h.fresh g p hmem
  flag := hflag' ∘ h.flag ∘ hflag

theorem Progress.trans {cs'' : CronBrokerService π} {es' : List (CronServiceEvent π)}
    (h : Progress cs cs' es) (h' : Progress cs' cs'' es') : Progress cs cs'' (es ++ es') where
  old g l hl := by
    obtain ⟨l1, hl1, hsub1, hphase1, hcan1⟩ := h.old g l hl
    obtain ⟨l2, hl2, hsub2, hphase2, hcan2⟩ := h'.old g l1 hl1
    exact ⟨l2, hl2, hsub2.trans hsub1, hphase2.trans hphase1, hcan2 ∘ hcan1⟩
  new g l'' hl'' hnone := by
    cases hl1 : cs'.loops[g]? with
    | none =>
      obtain ⟨hphase, hactor, hstarted⟩ := h'.new g l'' hl'' hl1
      refine ⟨hphase, hactor, ?_⟩
      rcases hstarted with hmem | ⟨entry, hmem⟩
      · exact .inl (mem_append_right _ hmem)
      · exact .inr ⟨entry, mem_append_right _ hmem⟩
    | some l1 =>
      obtain ⟨hphase, hactor, hstarted⟩ := h.new g l1 hl1 hnone
      obtain ⟨l2, hl2, hsub, hphase2, -⟩ := h'.old g l1 hl1
      rw [hl2, some.injEq] at hl''
      subst hl''
      rw [hphase2, hsub]
      refine ⟨hphase, hactor, ?_⟩
      rcases hstarted with hmem | ⟨entry, hmem⟩
      · exact .inl (mem_append_left _ hmem)
      · exact .inr ⟨entry, mem_append_left _ hmem⟩
  fresh g p hmem := by
    rcases mem_append.mp hmem with hmem | hmem
    · obtain ⟨hnone, l1, hl1, hsub1⟩ := h.fresh g p hmem
      obtain ⟨l2, hl2, hsub2, -, -⟩ := h'.old g l1 hl1
      exact ⟨hnone, l2, hl2, by rw [hsub2, hsub1]⟩
    · obtain ⟨hnone, hl2⟩ := h'.fresh g p hmem
      refine ⟨?_, hl2⟩
      cases hl : cs.loops[g]? with
      | none => rfl
      | some l =>
        obtain ⟨l1, hl1, -⟩ := h.old g l hl
        rw [hnone] at hl1
        cases hl1
  flag := h'.flag ∘ h.flag

variable (cs)

theorem progress_cancelLoop (loop : ℕ) : Progress cs (cs.cancelLoop loop) [] where
  old g l hl := by
    simp only [cancelLoop, getElem?_modify, hl]
    by_cases hg : loop = g
    · exact ⟨_, rfl, by simp [hg], by simp [hg], fun _ => by simp [hg]⟩
    · exact ⟨_, rfl, by simp [hg], by simp [hg], fun h => by simpa [hg] using h⟩
  new g l' hl' hnone := by
    simp [cancelLoop, getElem?_modify, hnone] at hl'
  fresh g p hmem := nomatch hmem
  flag := id

theorem getElem?_start (ref : CronRef) (subscriber : PID)
    (schedule : CronSchedule) (payload : π) (tag : String) (g : ℕ) :
    ∃ l : CronLoop π, l.phase = .top ∧ l.sub.subscriber = subscriber ∧
      l.sub.actorID = subscriber.actorID ∧
      (cs.start ref subscriber schedule payload tag).loops[g]? =
        if g = cs.loops.length then some l else cs.loops[g]? := by
  refine ⟨⟨⟨ref, subscriber, subscriber.actorID, schedule, payload, tag,
    (cs.monitors.add ⟨subscriber.ns, cs.cronID, 1⟩ subscriber).1, cs.loops.length⟩, false, .top⟩,
    rfl, rfl, rfl, ?_⟩
  simp only [start]
  rcases Nat.lt_trichotomy g cs.loops.length with hlt | heq | hgt
  · rw [getElem?_append_left hlt, if_neg hlt.ne]
  · rw [heq, getElem?_concat_length, if_pos rfl]
  · rw [if_neg hgt.ne', getElem?_eq_none hgt.le, getElem?_eq_none]
    rw [length_append, length_singleton]
    exact hgt

theorem progress_start (ref : CronRef) (subscriber : PID)
    (schedule : CronSchedule) (payload : π) (tag : String)
    (hes : ∀ g p, .subscribed g p ∈ es → g = cs.loops.length ∧ p = subscriber)
    (hstarted : .subscribed cs.loops.length subscriber ∈ es ∨
      ∃ entry, .restored cs.loops.length entry ∈ es) :
    Progress cs (cs.start ref subscriber schedule payload tag) es where
  old g l hl := by
    obtain ⟨l', -, -, -, hg⟩ := getElem?_start cs ref subscriber schedule payload tag g
    have hlt : g < cs.loops.length := (List.getElem?_eq_some_iff.mp hl).1
    rw [hg, if_neg hlt.ne]
    exact ⟨l, hl, rfl, rfl, id⟩
  new g l' hl' hnone := by
    obtain ⟨l, hphase, hsub, hactor, hg⟩ := getElem?_start cs ref subscriber schedule payload tag g
    rw [hg] at hl'
    split_ifs at hl' with hlast
    · cases hl'
      rw [hsub, hactor, hlast]
      exact ⟨hphase, rfl, hstarted⟩
    · rw [hnone] at hl'
      cases hl'
  fresh g p hmem := by
    obtain ⟨rfl, rfl⟩ := hes g p hmem
    obtain ⟨l, -, hsub, -, hg⟩ := getElem?_start cs ref p schedule payload tag cs.loops.length
    rw [hg, if_pos rfl]
    exact ⟨getElem?_eq_none (Nat.le_refl _), l, rfl, hsub⟩
  flag := id

theorem progress_removeLocked (refID : String)
    (sub : CronSubscription π) : Progress cs (cs.removeLocked refID sub) [] :=
  (progress_cancelLoop cs sub.cancel).congr rfl rfl id id

theorem progress_foldl {f : CronBrokerService π → String → CronBrokerService π}
    (hf : ∀ cs refID, Progress cs (f cs refID) []) (refIDs : List String)
    (cs : CronBrokerService π) : Progress cs (refIDs.foldl f cs) [] := by
  induction refIDs generalizing cs with
  | nil => exact progress_refl cs
  | cons refID rest ih => exact (hf cs refID).trans (ih _)

theorem progress_removeRef (refID : String) : Progress cs (cs.removeRef refID) [] := by
  unfold removeRef
  split
  · exact progress_refl cs
  · exact progress_removeLocked cs refID _

theorem progress_dropRef (refID : String) : Progress cs (cs.dropRef refID) [] := by
  unfold dropRef
  split
  · exact progress_refl cs
  · exact (progress_cancelLoop cs _).congr rfl rfl id id

theorem progress_handleDown (down : DownMessage) : Progress cs (cs.handleDown down) [] :=
  (progress_foldl progress_dropRef (cs.refsOf down.target.actorID) cs).congr rfl rfl id id

variable {cs} in
theorem Progress.replied (h : Progress cs cs' []) (ask : AskRequestContext) (ack : CronCommandAck) :
    Progress cs cs' [.replied ask ack] := by
  have hreply : Progress cs' cs' [.replied ask ack] :=
    .of_same rfl id fun g p hmem => by cases mem_singleton.mp hmem
  exact h.trans hreply

theorem progress_dispatch (ask : Option AskRequestContext) (command : CronCommand π) :
    Progress cs (cs.dispatch parse ask command).1 (cs.dispatch parse ask command).2 := by
  cases command with
  | subscribe subscriber schedule payload tag =>
    cases ask with
    | none => exact progress_refl cs
    | some ask =>
      simp only [dispatch, handleSubscribe]
      cases parse schedule with
      | none => exact (progress_refl cs).replied ask _
      | some sched =>
        refine (progress_start { cs with seq := cs.seq + 1 } _ subscriber sched payload tag
          ?_ (.inl mem_cons_self)).congr rfl rfl id id
        intro g p hmem
        simp only [mem_cons, CronServiceEvent.subscribed.injEq, reduceCtorEq,
          not_mem_nil, or_false] at hmem
        exact hmem
  | unsubscribe subscriber refID =>
    cases ask with
    | none => exact progress_refl cs
    | some ask =>
      simp only [dispatch, handleUnsubscribe]
      cases cs.subs.lookup refID with
      | none => exact (progress_refl cs).replied ask _
      | some sub => exact (progress_removeLocked cs refID sub).replied ask _
  | unsubscribeAll subscriber =>
    cases ask with
    | none => exact progress_refl cs
    | some ask =>
      exact (progress_foldl progress_removeRef (cs.refsOf subscriber.actorID) cs).replied ask _
  | list subscriber | other =>
    cases ask with
    | none => exact progress_refl cs
    | some ask => exact (progress_refl cs).replied ask _
  | down message => exact progress_handleDown cs message

theorem progress_restoreEntry (r : CronBrokerService π × List (CronServiceEvent π))
    (entry : CronHandoffEntry π) : ∃ es, (restoreEntry parse r entry).2 = r.2 ++ es ∧
      Progress r.1 (restoreEntry parse r entry).1 es := by
  simp only [restoreEntry]
  cases parse entry.schedule with
  | none => exact ⟨[], by simp, progress_refl _⟩
  | some sched =>
    refine ⟨[.restored r.1.loops.length entry], rfl, ?_⟩
    refine progress_start r.1 _ _ sched entry.payload entry.tag ?_
      (.inr ⟨entry, mem_singleton.mpr rfl⟩)
    intro g p hmem
    cases mem_singleton.mp hmem

theorem progress_restoreFromHandoff (hs : CronHandoffState π) :
    Progress cs (cs.restoreFromHandoff parse hs).1 (cs.restoreFromHandoff parse hs).2 := by
  -- the events are gathered in the accumulator, so they are compared with those so far
  suffices h : ∀ (entries : List (CronHandoffEntry π))
      (r : CronBrokerService π × List (CronServiceEvent π)),
      ∃ es, (entries.foldl (restoreEntry parse) r).2 = r.2 ++ es ∧
        Progress r.1 (entries.foldl (restoreEntry parse) r).1 es by
    obtain ⟨es, hes, hprogress⟩ := h hs.entries (cs, [])
    rw [restoreFromHandoff, hes]
    exact hprogress
  intro entries
  induction entries with
  | nil => exact fun r => ⟨[], by simp, progress_refl _⟩
  | cons entry rest ih =>
    intro r
    obtain ⟨es1, hes1, h1⟩ := progress_restoreEntry parse r entry
    obtain ⟨es2, hes2, h2⟩ := ih (restoreEntry parse r entry)
    refine ⟨es1 ++ es2, ?_, h1.trans h2⟩
    rw [foldl_cons, hes2, hes1, append_assoc]

theorem progress_handler (state : CronState π)
    (ask : Option AskRequestContext) (command : CronCommand π) :
    Progress cs (cs.handler parse state ask command).1
      (cs.handler parse state ask command).2.2 := by
  refine Progress.trans ?_ (progress_dispatch parse _ ask command)
  simp only [restoreOnce]
  split_ifs
  · exact progress_refl cs
  · cases state with
    | nil | value hs => exact .of_same rfl (fun _ => rfl) fun _ _ hmem => nomatch hmem
    | pointer hs =>
      exact (progress_restoreFromHandoff parse { cs with restored := true } hs).congr rfl rfl
        (fun _ => rfl) id

theorem restored_handler (state : CronState π)
    (ask : Option AskRequestContext) (command : CronCommand π) :
    (cs.handler parse state ask command).1.restored = true := by
  refine (progress_dispatch parse _ ask command).flag ?_
  simp only [restoreOnce]
  split_ifs with hrestored
  · exact hrestored
  · cases state with
    | nil | value hs => rfl
    | pointer hs =>
      exact (progress_restoreFromHandoff parse { cs with restored := true } hs).flag rfl

/-! ### What a message does to the subscriptions -/

theorem subs_dispatch_neutral {ask : Option AskRequestContext}
    {command : CronCommand π} (h : command.neutral ask = true) :
    (cs.dispatch parse ask command).1.subs = cs.subs := by
  cases command with
  | subscribe subscriber schedule payload tag | unsubscribe subscriber refID
  | unsubscribeAll subscriber =>
    cases ask with
    | none => rfl
    | some ask => cases h
  | list subscriber | other =>
    cases ask with
    | none => rfl
    | some ask => rfl
  | down message => cases h

theorem not_restored_dispatch (ask : Option AskRequestContext)
    (command : CronCommand π) (g : ℕ) (entry : CronHandoffEntry π) :
    .restored g entry ∉ (cs.dispatch parse ask command).2 := by
  cases ask with
  | none => cases command <;> simp [dispatch]
  | some ask =>
    cases command with
    | subscribe subscriber schedule payload tag =>
      simp only [dispatch, handleSubscribe]
      split <;> simp
    | unsubscribe subscriber refID =>
      simp only [dispatch, handleUnsubscribe]
      split <;> simp
    | unsubscribeAll subscriber => simp [dispatch, handleUnsubscribeAll]
    | list subscriber => simp [dispatch, handleList]
    | down message | other => simp [dispatch]

variable {cs} in
theorem restoreOnce_eq {state : CronState π} (h : cs.restored = true ∨ ∀ hs, state ≠ .pointer hs) :
    cs.restoreOnce parse state = ({ cs with restored := true }, []) := by
  unfold restoreOnce
  by_cases hrestored : cs.restored = true
  · rw [if_pos hrestored]
    cases cs
    simp only at hrestored
    rw [hrestored]
  · rw [if_neg hrestored]
    cases state with
    | nil | value hs => rfl
    | pointer hs => exact absurd rfl (h.resolve_left hrestored hs)

end CronBrokerService
end Westcoast
