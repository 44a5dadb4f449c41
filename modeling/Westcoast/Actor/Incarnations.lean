import Westcoast.Actor.Monitors

/-!
# Incarnations of an actor ID

`RemoveActor` takes an instance out of the registry while its goroutine may still be in a handler
call, and `CreateActor` may register another under the same ID. The failure path of both reaches the
tables of the runtime through the ID alone. `workStep` is a step of the goroutine of one instance,
with one access to a table.
-/
namespace Westcoast

open Lib List Option InMemoryPIDResolver

inductive WorkPc
  /-- `runActor` is running the start hook. -/
  | starting
  /-- In the `select`, or between two messages. -/
  | idle
  /-- User code is running. -/
  | calling
  /-- A restart, about to load the identifier last issued. -/
  | loading
  /-- About to set the state of the identifier loaded. -/
  | marking (oldPID : PID)
  /-- About to bump its generation. -/
  | bumping (oldPID : PID)
  /-- About to store the new identifier. -/
  | storing (newPID : PID)
  /-- Running the start hook of a restart. -/
  | hooking
  /-- `cleanupRegistryForActor`, about to forget the names. -/
  | unregistering
  /-- `cleanupRegistryForActor`, about to notify the monitors. -/
  | notifying
  /-- The goroutine has returned. -/
  | exited
  deriving DecidableEq

structure Worker where
  pc : WorkPc
  canceled : Bool

/-- What moves a goroutine; `maxSize` is that of a batch. -/
inductive WorkAction
  | hookReturns (ok : Bool)
  | take (maxSize : Option ℤ)
  | returns (failure : Option SupervisionDecision)
  | access
  | exit
  deriving DecidableEq

/-- After a step of a goroutine: the runtime, what becomes of its own instance, and the messages
sent. -/
structure WorkResult (π : Type) where
  runtime : MonitoredRuntime π
  own : ActorEntry π → ActorEntry π
  worker : Worker
  sent : List (PID × DownMessage)

namespace ActorEntry
variable {π : Type}

def ended (a : ActorEntry π) : ActorEntry π :=
  { a with status := .stopped, mailbox := a.mailbox.close }

def restarting (a : ActorEntry π) : ActorEntry π :=
  { a with status := .restarting, restarts := a.restarts + 1 }

end ActorEntry

namespace MonitoredRuntime

variable {π : Type}

def privately (r : MonitoredRuntime π) (own : ActorEntry π → ActorEntry π) (w : Worker) :
    Option (WorkResult π) :=
  some ⟨r, own, w, []⟩

def shared (r : MonitoredRuntime π) (rt : Runtime π) (w : Worker) : Option (WorkResult π) :=
  some ⟨r.after rt, id, w, []⟩

variable [Inhabited π] (down : DownMessage → π)

/-- An access of the failure path to a table, by the goroutine of an instance of
`actorID`. -/
def accessStep (r : MonitoredRuntime π) (actorID : String) (w : Worker) :
    WorkPc → Option (WorkResult π)
  | .loading =>
    r.privately id { w with
      pc := match r.actorPID.lookup actorID with
        | none => .hooking
        | some oldPID => .marking oldPID }
  | .marking oldPID =>
    r.shared { r.toRuntime with resolver := r.resolver.setState oldPID .restarting }
      { w with pc := .bumping oldPID }
  | .bumping oldPID =>
    match r.resolver.bumpGeneration oldPID with
    | none => r.privately id { w with pc := .hooking }
    | some (newPID, resolver) =>
      r.shared { r.toRuntime with resolver := resolver } { w with pc := .storing newPID }
  | .storing newPID =>
    r.shared { r.toRuntime with actorPID := r.actorPID.insert actorID newPID }
      { w with pc := .hooking }
  | .unregistering =>
    r.shared { r.toRuntime with names := Runtime.cleanupRegistry r.names actorID }
      { w with pc := .notifying }
  | .notifying =>
    let notified := r.notifyMonitors down actorID "stopped"
    some ⟨notified.2, id, { w with pc := .idle }, notified.1⟩
  | _ => none

/-- A step of the goroutine of an instance `a` of `actorID`. -/
def workStep (r : MonitoredRuntime π) (actorID : String) (a : ActorEntry π) (w : Worker) :
    WorkAction → Option (WorkResult π)
  | .hookReturns ok =>
    match w.pc, ok with
    | .starting, true | .hooking, true =>
      r.privately (fun a => { a with status := .running }) { w with pc := .idle }
    | .starting, false => r.privately .ended ⟨.exited, true⟩
    | .hooking, false => r.privately .ended ⟨.unregistering, true⟩
    | _, _ => none
  | .take maxSize =>
    let taken := match maxSize with
      | none => (a.mailbox.dequeue.1.toList, a.mailbox.dequeue.2)
      | some maxSize => a.mailbox.dequeueBatch maxSize
    if w.pc = .idle ∧ taken.1 ≠ [] then
      r.privately (fun a => { a with mailbox := taken.2 }) { w with pc := .calling }
    else none
  | .returns failure =>
    if w.pc = .calling then
      match failure with
      | none => r.privately id { w with pc := .idle }
      | some .restart => r.privately .restarting { w with pc := .loading }
      | some _ => r.privately .ended ⟨.unregistering, true⟩
    else none
  | .access => r.accessStep down actorID w w.pc
  | .exit =>
    if w.pc = .idle ∧ w.canceled then
      r.privately (fun a => { a with status := .stopped }) { w with pc := .exited }
    else none

end MonitoredRuntime

/-- An instance that was removed from the registry, with its goroutine. -/
structure Removed (π : Type) where
  actorID : String
  entry : ActorEntry π
  worker : Worker

/-- A runtime with the goroutines of its registered instances, and the instances removed
from it. -/
structure Incarnations (π : Type) extends MonitoredRuntime π where
  workers : AList (fun _ : String => Worker)
  removed : List (Removed π)

/-- The operations and the steps of the goroutines; `oldWork` is a step of a removed instance. -/
inductive IncarnationAction (π : Type)
  | createActor (id : String) (nilHandler : Bool) (capacity : ℤ)
  | issuePID (ns id : String)
  | registerName (id name ns : String)
  | unregisterName (name : String)
  | monitor (watcher target : PID)
  | demonitor (ref : MonitorRef)
  | send (id : String) (payload : Option π)
  | sendPID (pid : PID) (payload : Option π)
  | stop (id : String)
  | removeActor (id : String)
  | work (id : String) (act : WorkAction)
  | oldWork (i : ℕ) (act : WorkAction)

namespace Incarnations

variable {π : Type}

def new (nodeID : String) (remoteSend : Option (PID → PIDDeliveryOutcome)) : Incarnations π where
  toRuntime := .new nodeID remoteSend
  monitors := .new
  workers := ∅
  removed := []

/-- The state after an operation that concerns the runtime alone. -/
def afterRuntime (s : Incarnations π) (rt : Runtime π) : Incarnations π :=
  { s with toRuntime := rt }

/-- The state after an operation that may write the monitors too. -/
def afterMonitored (s : Incarnations π) (r : MonitoredRuntime π) : Incarnations π :=
  { s with toMonitoredRuntime := r }

variable [Inhabited π] (down : DownMessage → π)

def stop (s : Incarnations π) (id : String) : Incarnations π × List (PID × DownMessage) :=
  match s.toMonitoredRuntime.endsBy down id .stop with
  | none => (s, [])
  | some (sent, r) =>
    let workers := match s.workers.lookup id with
      | none => s.workers
      | some w => s.workers.insert id { w with canceled := true }
    ({ s.afterMonitored r with workers := workers }, sent)

/-- `RemoveActor`: the instance is no longer registered, its goroutine is still there. -/
def removeActor (s : Incarnations π) (id : String) : Incarnations π :=
  match s.toRuntime.removeActor id, s.registry.lookup id, s.workers.lookup id with
  | .ok rt, some a, some w =>
    { s.afterRuntime rt with
      workers := s.workers.erase id
      removed := s.removed ++ [⟨id, a, w⟩] }
  | _, _, _ => s

def work (s : Incarnations π) (id : String) (act : WorkAction) :
    Option (Incarnations π × List (PID × DownMessage)) := do
  let a ← s.registry.lookup id
  let w ← s.workers.lookup id
  let result ← s.toMonitoredRuntime.workStep down id a w act
  let r := result.runtime
  let own := result.own ((r.registry.lookup id).getD a)
  some ({ s.afterMonitored (r.after { r.toRuntime with registry := r.registry.insert id own }) with
    workers := s.workers.insert id result.worker }, result.sent)

/-- A step of the goroutine of the removed instance at index `i`. -/
def oldWork (s : Incarnations π) (i : ℕ) (act : WorkAction) :
    Option (Incarnations π × List (PID × DownMessage)) := do
  let old ← s.removed[i]?
  let result ← s.toMonitoredRuntime.workStep down old.actorID old.entry old.worker act
  some ({ s.afterMonitored result.runtime with
    removed := s.removed.set i ⟨old.actorID, result.own old.entry, result.worker⟩ }, result.sent)

/-- One operation, or one step of a goroutine, with the messages to the watchers. -/
def step (s : Incarnations π) :
    IncarnationAction π → Option (Incarnations π × List (PID × DownMessage))
  | .createActor id nilHandler capacity =>
    match s.toRuntime.spawn id nilHandler capacity with
    | .error _ => some (s, [])
    | .ok rt =>
      some ({ s.afterRuntime rt with workers := s.workers.insert id ⟨.starting, false⟩ }, [])
  | .issuePID ns id =>
    match s.toRuntime.issuePID ns id with
    | .error _ => some (s, [])
    | .ok (_, rt) => some (s.afterRuntime rt, [])
  | .registerName id name ns => some (s.afterRuntime (s.toRuntime.registerName id name ns).2, [])
  | .unregisterName name => some (s.afterRuntime (s.toRuntime.unregisterName name).2, [])
  | .monitor watcher target =>
    some (s.afterMonitored (s.toMonitoredRuntime.monitor watcher target).2, [])
  | .demonitor ref => some (s.afterMonitored (s.toMonitoredRuntime.demonitor ref).2, [])
  | .send id payload => some (s.afterRuntime (s.toRuntime.send id payload).2, [])
  | .sendPID pid payload => some (s.afterRuntime (s.toRuntime.sendPID pid payload).2, [])
  | .stop id => some (s.stop down id)
  | .removeActor id => some (s.removeActor id, [])
  | .work id act => s.work down id act
  | .oldWork i act => s.oldWork down i act

end Incarnations

/-! ### Keys of an ID -/

/-- The keys under which the resolver has entries for `id`. -/
def KeyOf (id k : String) : Prop := ∃ pid : PID, pid.actorID = id ∧ pid.key = k

namespace Runtime

variable {π : Type}

/-- The identifier last issued for an ID has a key of that ID, and entries are under their own keys.
-/
structure OwnKeys (rt : Runtime π) : Prop where
  last : ∀ id pid, rt.actorPID.lookup id = some pid → KeyOf id pid.key
  entry : ∀ k e, rt.resolver.byKey.lookup k = some e → e.pid.key = k

namespace OwnKeys

variable {rt rt' : Runtime π}

theorem keep (h : rt.OwnKeys) (hpid : rt'.actorPID = rt.actorPID)
    (hres : rt'.resolver.byKey = rt.resolver.byKey) : rt'.OwnKeys where
  last := by rw [hpid]; exact h.last
  entry := by rw [hres]; exact h.entry

theorem new (nodeID : String) (remoteSend : Option (PID → PIDDeliveryOutcome)) :
    (Runtime.new nodeID remoteSend : Runtime π).OwnKeys where
  last := fun id pid hid => by cases hid
  entry := fun k e he => by cases he

variable (h : rt.OwnKeys)
include h

theorem setEntry {k : String} {e : PIDResolverEntry} (he : e.pid.key = k)
    (hpid : rt'.actorPID = rt.actorPID) (hres : rt'.resolver.byKey = rt.resolver.byKey.insert k e) :
    rt'.OwnKeys where
  last := by rw [hpid]; exact h.last
  entry := by
    intro k' e' he'
    rw [hres, lookup_insert_ite] at he'
    split_ifs at he' with hk
    · obtain rfl := some.inj he'
      rw [hk, he]
    · exact h.entry k' e' he'

theorem setLast {id : String} {pid : PID} (hkey : KeyOf id pid.key)
    (hpid : rt'.actorPID = rt.actorPID.insert id pid)
    (hres : rt'.resolver.byKey = rt.resolver.byKey) : rt'.OwnKeys where
  last := by
    intro id' pid' hid'
    rw [hpid, lookup_insert_ite] at hid'
    split_ifs at hid' with hid
    · obtain rfl := some.inj hid'
      rw [hid]
      exact hkey
    · exact h.last id' pid' hid'
  entry := by rw [hres]; exact h.entry

theorem setState (pid : PID) (state : PIDRouteState) :
    { rt with resolver := rt.resolver.setState pid state }.OwnKeys := by
  refine h.setEntry (k := pid.key) ?_ rfl rfl
  cases he : rt.resolver.resolve pid with
  | none => rfl
  | some e => exact h.entry _ e he

theorem bump {oldPID newPID : PID} {resolver : InMemoryPIDResolver}
    (hbump : rt.resolver.bumpGeneration oldPID = some (newPID, resolver)) :
    { rt with resolver := resolver }.OwnKeys ∧ newPID.key = oldPID.key := by
  simp only [bumpGeneration, map_eq_some_iff, Prod.mk.injEq] at hbump
  obtain ⟨e, he, rfl, rfl⟩ := hbump
  have hkey : e.pid.key = oldPID.key := h.entry _ e he
  refine ⟨h.setEntry (k := oldPID.key) ?_ rfl rfl, hkey⟩
  exact hkey

theorem issuePID {ns id : String} {pid : PID} (hissue : rt.issuePID ns id = .ok (pid, rt')) :
    rt'.OwnKeys := by
  obtain ⟨-, rfl, rfl⟩ := issuePID_spec hissue
  have hentry : { rt with resolver := rt.resolver.register (rt.pidToIssue ns id) }.OwnKeys :=
    h.setEntry (k := (rt.pidToIssue ns id).key)
      (e := ⟨rt.pidToIssue ns id, .reachable, (rt.pidToIssue ns id).generation⟩) rfl rfl rfl
  exact hentry.setLast ⟨rt.pidToIssue ns id, rfl, rfl⟩ rfl rfl

theorem registerName (id name ns : String) : (rt.registerName id name ns).2.OwnKeys := by
  have hentry : ∀ {rt1 : Runtime π} (pid : PID), rt1.OwnKeys →
      (rt1.registerEntry name id pid).2.OwnKeys := by
    intro rt1 pid h1
    obtain ⟨names, heq⟩ := rt1.exists_names_registerEntry name id pid
    rw [heq]
    exact h1.keep rfl rfl
  rcases registerName_cases rt id name ns with ⟨e, herr⟩ | ⟨pid, rt1, -, hpid, heq⟩
  · rw [herr]
    exact h
  · rw [heq]
    cases hpid with
    | found _ => exact hentry pid h
    | issued _ hissue => exact hentry pid (h.issuePID hissue)

theorem removeActor {id : String} (hrm : rt.removeActor id = .ok rt') : rt'.OwnKeys := by
  simp only [Runtime.removeActor] at hrm
  split at hrm
  · cases hrm
  · split_ifs at hrm
    cases hrm
    constructor
    · intro id' pid hid
      rw [lookup_erase_ite] at hid
      split_ifs at hid
      exact h.last id' pid hid
    · intro k e he
      rw [releasePID] at he
      split at he
      · rw [InMemoryPIDResolver.remove, lookup_erase_ite] at he
        split_ifs at he
        exact h.entry k e he
      · exact h.entry k e he

theorem stop (id : String) : (rt.stop id).2.OwnKeys := by
  rcases stop_cases rt id with ⟨-, heq⟩ | ⟨a, heq⟩
  · rw [heq]
    exact h
  · rw [heq]
    have hmark : { rt with resolver := rt.markStopped id }.OwnKeys := by
      unfold markStopped
      split
      · exact h.setState _ _
      · exact h
    exact hmark.keep rfl rfl

end OwnKeys

end Runtime

namespace MonitoredRuntime

variable {π : Type} [Inhabited π] (down : DownMessage → π)

theorem sameBooks_notifyMonitors (r : MonitoredRuntime π) (actorID reason : String) :
    Runtime.SameBooks r.toRuntime (r.notifyMonitors down actorID reason).2.toRuntime :=
  foldlRecOn (motive := Runtime.SameBooks r.toRuntime) _ _ (.refl _)
    fun rt h m _ => h.trans (Runtime.sameBooks_sendPID rt m.1 (some (down m.2)))

end MonitoredRuntime

namespace Incarnations

variable {π : Type}

/-- The identifier a goroutine of `id` works on has a key of `id`. -/
def PcKeyed (id : String) : WorkPc → Prop
  | .marking pid | .bumping pid | .storing pid => KeyOf id pid.key
  | _ => True

/-- Identifiers have keys of their own ID, in the tables and in the goroutines. -/
structure Keyed (s : Incarnations π) : Prop where
  tables : s.toRuntime.OwnKeys
  workers : ∀ id w, s.workers.lookup id = some w → PcKeyed id w.pc
  removed : ∀ old ∈ s.removed, PcKeyed old.actorID old.worker.pc

variable {s s' : Incarnations π}

theorem Keyed.runtime (h : Keyed s) {rt : Runtime π} (hrt : rt.OwnKeys) :
    Keyed (s.afterRuntime rt) :=
  ⟨hrt, h.workers, h.removed⟩

variable {r : MonitoredRuntime π}

theorem Keyed.monitored (h : Keyed s) (hr : r.toRuntime.OwnKeys) : Keyed (s.afterMonitored r) :=
  ⟨hr, h.workers, h.removed⟩

variable {id : String} {w : Worker}

theorem Keyed.setWorker (h : Keyed s) (hw : PcKeyed id w.pc) :
    Keyed { s with workers := s.workers.insert id w } := by
  refine ⟨h.tables, ?_, h.removed⟩
  intro id' w' hw'
  rw [lookup_insert_ite] at hw'
  split_ifs at hw' with hid
  · obtain rfl := some.inj hw'
    rw [hid]
    exact hw
  · exact h.workers id' w' hw'

theorem Keyed.removeActor (h : Keyed s) (id : String) : Keyed (s.removeActor id) := by
  unfold Incarnations.removeActor
  split
  · next rt a w hrm ha hw =>
    refine ⟨h.tables.removeActor hrm, ?_, ?_⟩
    · intro id' w' hw'
      rw [lookup_erase_ite] at hw'
      split_ifs at hw'
      exact h.workers id' w' hw'
    · intro old hold
      rcases mem_append.mp hold with hold | hold
      · exact h.removed old hold
      · rw [mem_singleton.mp hold]
        exact h.workers id w hw
  · exact h

theorem keyed_new (nodeID : String) (remoteSend : Option (PID → PIDDeliveryOutcome)) :
    Keyed (new nodeID remoteSend : Incarnations π) where
  tables := .new nodeID remoteSend
  workers := fun id w hw => by cases hw
  removed := fun old hold => by cases hold

variable [Inhabited π] {down : DownMessage → π}

variable {act : WorkAction} {result : WorkResult π}

open MonitoredRuntime (workStep privately accessStep endsBy)

theorem workStep_own {a : ActorEntry π} (hact : act ≠ .access)
    (h : r.workStep down id a w act = some result) :
    result.runtime = r ∧ result.sent = [] ∧ w.pc ∈ [.starting, .idle, .calling, .hooking] ∧
      PcKeyed id result.worker.pc := by
  obtain ⟨pc, canceled⟩ := w
  cases act with
  | access => exact absurd rfl hact
  | hookReturns ok =>
    simp only [workStep, privately] at h
    split at h <;> cases h <;> simp_all [PcKeyed]
  | take maxSize | exit =>
    obtain ⟨hpc, h⟩ := ite_none_right_eq_some.mp h
    cases h
    simp_all [PcKeyed]
  | returns failure =>
    obtain ⟨hpc, h⟩ := ite_none_right_eq_some.mp h
    simp only [privately] at h
    split at h <;> cases h <;> simp_all [PcKeyed]

theorem ownKeys_workStep {a : ActorEntry π} (hr : r.toRuntime.OwnKeys) (hw : PcKeyed id w.pc)
    (h : r.workStep down id a w act = some result) :
    result.runtime.toRuntime.OwnKeys ∧ PcKeyed id result.worker.pc := by
  by_cases hact : act = .access
  · subst hact
    obtain ⟨pc, canceled⟩ := w
    cases pc with
    | loading =>
      cases h
      refine ⟨hr, ?_⟩
      cases hpid : r.actorPID.lookup id with
      | none => trivial
      | some oldPID => exact hr.last id oldPID hpid
    | marking oldPID =>
      cases h
      exact ⟨hr.setState oldPID .restarting, hw⟩
    | bumping oldPID =>
      simp only [workStep, accessStep] at h
      split at h
      · cases h
        exact ⟨hr, trivial⟩
      · next newPID resolver hbump =>
        cases h
        obtain ⟨hkeys, hnew⟩ := hr.bump hbump
        refine ⟨hkeys, ?_⟩
        simp only [PcKeyed, hnew]
        exact hw
    | storing newPID =>
      cases h
      exact ⟨hr.setLast hw rfl rfl, trivial⟩
    | unregistering =>
      cases h
      exact ⟨hr.keep rfl rfl, trivial⟩
    | notifying =>
      cases h
      have hsame := r.sameBooks_notifyMonitors down id "stopped"
      exact ⟨hr.keep hsame.actorPID hsame.byKey, trivial⟩
    | starting | idle | calling | hooking | exited => cases h
  · obtain ⟨hrt, -, -, hpc⟩ := workStep_own hact h
    rw [hrt]
    exact ⟨hr, hpc⟩

theorem Keyed.stop (h : Keyed s) (id : String) : Keyed (s.stop down id).1 := by
  unfold Incarnations.stop
  split
  · exact h
  · next sent r hends =>
    have hr : r.toRuntime.OwnKeys := by
      simp only [endsBy, Runtime.endsBy, map_eq_some_iff] at hends
      obtain ⟨rt, hstop, hr⟩ := hends
      have hrt : rt.OwnKeys := by
        split at hstop
        · next heq =>
          cases hstop
          have hkeys := h.tables.stop id
          rw [heq] at hkeys
          exact hkeys
        · cases hstop
      cases hr
      have hsame := (s.toMonitoredRuntime.after rt).sameBooks_notifyMonitors down id "stopped"
      exact hrt.keep hsame.actorPID hsame.byKey
    cases hw : s.workers.lookup id with
    | none => exact h.monitored hr
    | some w =>
      exact (h.monitored hr).setWorker (w := { w with canceled := true }) (h.workers id w hw)

variable {sent : List (PID × DownMessage)}

theorem work_eq_some (h : s.work down id act = some (s', sent)) :
    ∃ a w result, s.workers.lookup id = some w ∧
      s.toMonitoredRuntime.workStep down id a w act = some result ∧
      s' = { s.afterMonitored (result.runtime.after { result.runtime.toRuntime with
          registry := result.runtime.registry.insert id
            (result.own ((result.runtime.registry.lookup id).getD a)) }) with
        workers := s.workers.insert id result.worker } := by
  simp only [work, bind_eq_bind, bind_eq_some_iff, some.injEq,
    Prod.mk.injEq] at h
  obtain ⟨a, -, w, hw, result, hresult, rfl, -⟩ := h
  exact ⟨a, w, result, hw, hresult, rfl⟩

theorem oldWork_eq_some {i : ℕ} (h : s.oldWork down i act = some (s', sent)) :
    ∃ old result, s.removed[i]? = some old ∧
      s.toMonitoredRuntime.workStep down old.actorID old.entry old.worker act = some result ∧
      s' = { s.afterMonitored result.runtime with
        removed := s.removed.set i ⟨old.actorID, result.own old.entry, result.worker⟩ } ∧
      sent = result.sent := by
  simp only [oldWork, bind_eq_bind, bind_eq_some_iff, some.injEq,
    Prod.mk.injEq] at h
  obtain ⟨old, hold, result, hresult, rfl, rfl⟩ := h
  exact ⟨old, result, hold, hresult, rfl, rfl⟩

theorem keyed_step {a : IncarnationAction π} (h : Keyed s) (hs : s.step down a = some (s', sent)) :
    Keyed s' := by
  cases a with
  | createActor id nilHandler capacity =>
    simp only [step] at hs
    split at hs
    · cases hs
      exact h
    · next rt hspawn =>
      cases hs
      have hrt : rt.OwnKeys := by
        simp only [Runtime.spawn] at hspawn
        split_ifs at hspawn
        cases hspawn
        exact h.tables.keep rfl rfl
      exact (h.runtime hrt).setWorker (w := ⟨.starting, false⟩) trivial
  | issuePID ns id =>
    simp only [step] at hs
    split at hs
    · cases hs
      exact h
    · next hissue =>
      cases hs
      exact h.runtime (h.tables.issuePID hissue)
  | registerName id name ns =>
    cases hs
    exact h.runtime (h.tables.registerName id name ns)
  | unregisterName name =>
    cases hs
    refine h.runtime ?_
    unfold Runtime.unregisterName
    split
    · exact h.tables
    · exact h.tables.keep rfl rfl
  | monitor watcher target | demonitor ref =>
    cases hs
    exact h.monitored h.tables
  | send id payload =>
    cases hs
    have hsame := Runtime.sameBooks_send s.toRuntime id payload
    exact h.runtime (h.tables.keep hsame.actorPID hsame.byKey)
  | sendPID pid payload =>
    cases hs
    have hsame := Runtime.sameBooks_sendPID s.toRuntime pid payload
    exact h.runtime (h.tables.keep hsame.actorPID hsame.byKey)
  | stop id =>
    obtain rfl : (s.stop down id).1 = s' := congrArg Prod.fst (some.inj hs)
    exact h.stop id
  | removeActor id =>
    cases hs
    exact h.removeActor id
  | work id act =>
    obtain ⟨a, w, result, hw, hresult, rfl⟩ := work_eq_some hs
    obtain ⟨hkeys, hpc⟩ := ownKeys_workStep h.tables (h.workers id w hw) hresult
    exact ⟨hkeys.keep rfl rfl, ((h.monitored hkeys).setWorker hpc).workers, h.removed⟩
  | oldWork i act =>
    obtain ⟨old, result, hold, hresult, rfl, -⟩ := oldWork_eq_some hs
    have hmem : old ∈ s.removed := mem_of_getElem? hold
    obtain ⟨hkeys, hpc⟩ := ownKeys_workStep h.tables (h.removed old hmem) hresult
    refine ⟨hkeys, h.workers, ?_⟩
    intro old' hold'
    rcases mem_or_eq_of_mem_set hold' with hold' | rfl
    · exact h.removed old' hold'
    · exact hpc

/-! ### Isolation -/

/-- The step left the actor registered under `id` alone: its names, its resolver entries and the
identifier last issued stay, and no monitor on it is told that it is down. -/
structure Isolated (s s' : Incarnations π) (sent : List (PID × DownMessage)) (id : String) :
    Prop where
  names : ∀ name pid, s.names.lookup name = some (id, pid) → s'.names.lookup name = some (id, pid)
  resolver : ∀ pid, pid.actorID = id → s'.resolver.resolve pid = s.resolver.resolve pid
  actorPID : s'.actorPID.lookup id = s.actorPID.lookup id
  monitors : ∀ m ∈ sent, m.2.target.actorID ≠ id

/-- What the goroutine accesses next has nothing of the ID, or it is not on its failure path. -/
def FindsNothing (s : Incarnations π) (id : String) : WorkPc → Prop
  | .marking oldPID => ∃ e, s.resolver.resolve oldPID = some e ∧ e.routeState = .restarting
  | .bumping oldPID => s.resolver.resolve oldPID = none
  | .storing newPID => s.actorPID.lookup id = some newPID
  | .unregistering => ∀ name e, s.names.lookup name = some e → e.1 ≠ id
  | .notifying => ∀ ref watcher target, s.monitors.active ref watcher target → target.actorID ≠ id
  | .starting | .idle | .calling | .loading | .hooking | .exited => True

omit [Inhabited π] in
theorem isolated_of_same (id : String) (hnames : s'.names = s.names)
    (hres : s'.resolver = s.resolver) (hpid : s'.actorPID = s.actorPID) : Isolated s s' [] id where
  names := by rw [hnames]; exact fun _ _ h => h
  resolver := by rw [hres]; exact fun _ _ => rfl
  actorPID := by rw [hpid]
  monitors := fun m hm => by cases hm

omit [Inhabited π] in
theorem isolated_setEntry_iff {pid : PID} {e : PIDResolverEntry} (hkey : KeyOf id pid.key)
    (hnames : s'.names = s.names) (hpid : s'.actorPID = s.actorPID)
    (hres : s'.resolver.byKey = s.resolver.byKey.insert pid.key e) :
    Isolated s s' [] id ↔ s.resolver.resolve pid = some e := by
  obtain ⟨pid', hid, hk⟩ := hkey
  have hresolve : ∀ q : PID, s'.resolver.resolve q =
      if q.key = pid.key then some e else s.resolver.resolve q := by
    intro q
    rw [resolve, hres, lookup_insert_ite]
    rfl
  constructor
  · intro h
    have hsame := h.resolver pid' hid
    rw [hresolve, if_pos hk] at hsame
    rw [resolve, ← hk]
    exact hsame.symm
  · intro h
    refine ⟨by rw [hnames]; exact fun _ _ h => h, ?_, by rw [hpid], fun m hm => by cases hm⟩
    intro q _
    rw [hresolve]
    split_ifs with hq
    · rw [← h, resolve, resolve, hq]
    · rfl

/-- **The accesses of the failure path**, one by one. -/
theorem isolated_access_iff (hw : PcKeyed id w.pc)
    (h : s.toMonitoredRuntime.accessStep down id w w.pc = some result)
    (hs : s'.toMonitoredRuntime = result.runtime) :
    Isolated s s' result.sent id ↔ FindsNothing s id w.pc := by
  cases hpc : w.pc with
  | loading =>
    rw [hpc] at h
    cases h
    exact iff_of_true (isolated_of_same id (by rw [hs]) (by rw [hs]) (by rw [hs])) trivial
  | marking oldPID =>
    rw [hpc] at h hw
    cases h
    refine (isolated_setEntry_iff hw (by rw [hs]; rfl) (by rw [hs]; rfl)
      (by rw [hs]; rfl)).trans ?_
    simp only [FindsNothing]
    cases he : s.resolver.resolve oldPID with
    | none => simp
    | some e =>
      constructor
      · intro heq
        refine ⟨e, rfl, ?_⟩
        rw [some.inj heq]
      · rintro ⟨e', he', hst⟩
        cases he'
        simp only [getD_some, some.injEq]
        rw [← hst]
  | bumping oldPID =>
    rw [hpc] at h hw
    cases he : s.resolver.resolve oldPID with
    | none =>
      simp only [accessStep, bumpGeneration, he, map_none] at h
      cases h
      exact iff_of_true (isolated_of_same id (by rw [hs]) (by rw [hs]) (by rw [hs])) he
    | some e =>
      simp only [accessStep, bumpGeneration, he, map_some] at h
      cases h
      refine (isolated_setEntry_iff hw (by rw [hs]; rfl) (by rw [hs]; rfl)
        (by rw [hs]; rfl)).trans ?_
      -- the generation has moved on
      refine iff_of_false ?_ ?_
      · rw [he]
        intro heq
        have hgen := congrArg PIDResolverEntry.currentGeneration (some.inj heq)
        simp at hgen
      · simp [FindsNothing, he]
  | storing newPID =>
    rw [hpc] at h
    cases h
    have hlast : s'.actorPID.lookup id = some newPID := by
      rw [hs]
      exact AList.lookup_insert _
    constructor
    · intro hiso
      exact hiso.actorPID.symm.trans hlast
    · intro hfound
      refine ⟨?_, ?_, hlast.trans hfound.symm, fun m hm => by cases hm⟩
      · rw [hs]
        exact fun _ _ h => h
      · rw [hs]
        exact fun _ _ => rfl
  | unregistering =>
    rw [hpc] at h
    cases h
    have hnames : ∀ name, s'.names.lookup name =
        (s.names.lookup name).filter fun e => e.1 ≠ id := by
      rw [hs]
      exact Runtime.lookup_cleanupRegistry s.names id
    constructor
    · rintro hiso name ⟨owner, pid⟩ he rfl
      have hkept := hiso.names name pid he
      rw [hnames, he] at hkept
      simp at hkept
    · intro hnone
      refine ⟨?_, ?_, by rw [hs]; rfl, fun m hm => by cases hm⟩
      · intro name pid he
        exact absurd rfl (hnone name _ he)
      · rw [hs]
        exact fun _ _ => rfl
  | notifying =>
    rw [hpc] at h
    cases h
    have hsame := s.toMonitoredRuntime.sameBooks_notifyMonitors down id "stopped"
    constructor
    · intro hiso ref watcher target hactive htarget
      have hmem := (s.monitors.mem_drain ref watcher target id).mpr ⟨hactive, htarget⟩
      exact hiso.monitors _ (mem_map.mpr ⟨_, hmem, rfl⟩) htarget
    · intro hnone
      refine ⟨?_, ?_, ?_, ?_⟩
      · rw [hs, hsame.names]
        exact fun _ _ h => h
      · intro pid _
        rw [hs, resolve, hsame.byKey]
        rfl
      · rw [hs, hsame.actorPID]
      · intro m hm
        obtain ⟨⟨ref, watcher, target⟩, hmem, rfl⟩ := mem_map.mp hm
        obtain ⟨hactive, -⟩ := (s.monitors.mem_drain ref watcher target id).mp hmem
        exact hnone ref watcher target hactive
  | starting | idle | calling | hooking | exited =>
    rw [hpc] at h
    cases h

/-- **When incarnations are isolated.** A step of the goroutine of a removed instance leaves its
successor alone iff it is not at one of the five accesses of the failure path, or finds nothing
there. -/
theorem oldWork_isolated_iff {nodeID : String} {remoteSend : Option (PID → PIDDeliveryOutcome)}
    {tr sent : List (PID × DownMessage)} {s s' : Incarnations π}
    (hrun : Run (step down) anyStep (new nodeID remoteSend) tr s) {i : ℕ} {old : Removed π}
    (hold : s.removed[i]? = some old) {act : WorkAction}
    (hs : s.step down (.oldWork i act) = some (s', sent)) :
    Isolated s s' sent old.actorID ↔ FindsNothing s old.actorID old.worker.pc := by
  have hkeyed : Keyed s := hrun.invariant_state Keyed (keyed_new nodeID remoteSend)
    (fun _ _ _ _ h _ hs => keyed_step h hs)
  obtain ⟨old', result, hold', hresult, rfl, rfl⟩ := oldWork_eq_some hs
  obtain rfl : old = old' := some.inj (hold.symm.trans hold')
  by_cases hact : act = .access
  · subst hact
    exact isolated_access_iff (hkeyed.removed old (mem_of_getElem? hold)) hresult rfl
  · obtain ⟨hrt, hsent, hpc, -⟩ := workStep_own hact hresult
    rw [hsent]
    refine iff_of_true (isolated_of_same _ ?_ ?_ ?_) ?_
    · rw [afterMonitored, hrt]
    · rw [afterMonitored, hrt]
    · rw [afterMonitored, hrt]
    · simp only [mem_cons, not_mem_nil, or_false] at hpc
      rcases hpc with hpc | hpc | hpc | hpc
      all_goals
        rw [hpc]
        trivial

/-- An actor is stopped and removed during a handler call; another is created under its ID, named
and monitored. -/
def recreated : List (IncarnationAction ℕ) :=
  [.createActor "a" false 4, .work "a" (.hookReturns true), .send "a" (some 7),
    .work "a" (.take none), .stop "a", .removeActor "a", .createActor "a" false 4,
    .work "a" (.hookReturns true), .registerName "a" "svc" "n",
    .monitor ⟨"n", "w", 1⟩ ⟨"n", "a", 1⟩]

/-- A call of the old instance that succeeds leaves the new one alone. -/
theorem oldWork_isolated_iff_success :
    ∃ tr s s', Run (step fun m => m.ref.id) anyStep (new "" none : Incarnations ℕ) tr s ∧
      s.names.lookup "svc" = some ("a", ⟨"n", "a", 1⟩) ∧
      s.step (fun m => m.ref.id) (.oldWork 0 (.returns none)) = some (s', []) ∧
      Isolated s s' [] "a" := by
  obtain ⟨tr, s, hrun, hname, old, hold, hid, hpc, ⟨s', _⟩, hs, rfl⟩ :
      ∃ tr s, Run (step fun m => m.ref.id) anyStep (new "" none : Incarnations ℕ) tr s ∧
        s.names.lookup "svc" = some ("a", ⟨"n", "a", 1⟩) ∧
        ∃ old ∈ s.removed[0]?, old.actorID = "a" ∧ old.worker.pc = .calling ∧
          ∃ r ∈ s.step (fun m => m.ref.id) (.oldWork 0 (.returns none)), r.2 = [] :=
    Run.of_check recreated (by decide +kernel)
  have hiff := oldWork_isolated_iff hrun hold hs
  rw [hid, hpc] at hiff
  exact ⟨tr, s, s', hrun, hname, hs, hiff.mpr trivial⟩

/-- The old call fails. After a stop the new actor loses its name and its watcher is told it is
down; after a restart its identifier is stale. -/
theorem old_failure_reaches_new_actor :
    (∃ s tr, exec (step fun m => m.ref.id) (fun _ _ => true) (new "" none : Incarnations ℕ)
        recreated = some (s, tr) ∧
      s.names.lookup "svc" = some ("a", ⟨"n", "a", 1⟩) ∧ tr = [] ∧
      s.actorPID.lookup "a" = some ⟨"n", "a", 1⟩ ∧
      s.resolver.resolve ⟨"n", "a", 1⟩ = some ⟨⟨"n", "a", 1⟩, .reachable, 1⟩) ∧
    (∃ s tr, exec (step fun m => m.ref.id) (fun _ _ => true) (new "" none : Incarnations ℕ)
        (recreated ++ [.oldWork 0 (.returns (some .stop)), .oldWork 0 .access,
          .oldWork 0 .access]) = some (s, tr) ∧
      (s.registry.lookup "a").map (fun a => a.status) = some .running ∧
      s.names.lookup "svc" = none ∧
      tr = [(⟨"n", "w", 1⟩, ⟨⟨1⟩, ⟨"n", "a", 1⟩, "stopped"⟩)]) ∧
    ∃ s tr, exec (step fun m => m.ref.id) (fun _ _ => true) (new "" none : Incarnations ℕ)
        (recreated ++ [.oldWork 0 (.returns (some .restart)), .oldWork 0 .access,
          .oldWork 0 .access, .oldWork 0 .access, .oldWork 0 .access]) = some (s, tr) ∧
      s.actorPID.lookup "a" = some ⟨"n", "a", 2⟩ ∧
      s.resolver.resolve ⟨"n", "a", 1⟩ = some ⟨⟨"n", "a", 2⟩, .reachable, 2⟩ := by
  refine ⟨⟨_, _, rfl, ?_, ?_, ?_, ?_⟩, ⟨_, _, rfl, ?_, ?_, ?_⟩, ⟨_, _, rfl, ?_, ?_⟩⟩ <;> rfl

end Incarnations

end Westcoast
