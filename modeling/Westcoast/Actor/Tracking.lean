import Westcoast.Actor.Operations

/-!
# Whether the resolver follows the lifecycle

`Lifecycle` is a runtime with what its goroutines are about: start hooks that have not returned,
`Stop` calls whose stop hook runs, contexts that are cancelled. `Tracked`: of every identifier
issued so far the route is stopped iff the actor is. `Stop` marks the identifier last issued, a
restart makes that one reachable, and the paths that end an actor otherwise mark nothing.
-/
namespace Westcoast

open Lib List Option InMemoryPIDResolver

variable {π : Type}

namespace Runtime

/-- `ResolvePID` -/
def resolvePID (rt : Runtime π) (pid : PID) : Option PIDResolverEntry := rt.resolver.resolve pid

/-- `Status`; an actor that does not exist counts as stopped. -/
def status (rt : Runtime π) (id : String) : ActorStatus :=
  match rt.registry.lookup id with
  | none => .stopped
  | some a => a.status

def down (rt : Runtime π) (id : String) : Bool := rt.status id = .stopped

/-- A goroutine stores the status of its actor. -/
def setStatus (rt : Runtime π) (id : String) (status : ActorStatus) : Runtime π :=
  match rt.registry.lookup id with
  | none => rt
  | some a => { rt with registry := rt.registry.insert id { a with status := status } }

/-- Whether the entry under a key is stopped, if there is one. -/
def route (rt : Runtime π) (k : String) : Option Bool :=
  (rt.resolver.byKey.lookup k).map fun e => e.routeState = .stopped

/-- The key of the identifier last issued for an actor. -/
def lastKey (rt : Runtime π) (id : String) : Option String := (rt.actorPID.lookup id).map PID.key

/-- The identifiers issued up to an operation, which issues one at most: `actorPID` has the last of
each actor. -/
def issuedAfter (rt' : Runtime π) (issued : List PID) : List PID :=
  rt'.actorPID.entries.map (fun e => e.2) ++ issued

end Runtime

/-- A runtime, the identifiers issued so far, and where its goroutines are: the start hooks that
have not returned (of a restart or not), the `Stop` calls that wait for a stop hook, and the actors
whose context is cancelled. -/
structure Lifecycle (π : Type) where
  rt : Runtime π
  issued : List PID
  hooks : List (String × Bool)
  stops : List String
  canceled : List String

inductive LifecycleAction (π : Type)
  /-- An operation that waits for nothing. -/
  | op (a : RuntimeAction π)
  /-- `CreateActor`, up to the start hook. -/
  | create (id : String) (nilHandler : Bool) (capacity : ℤ)
  /-- A handler fails; a restart goes up to the start hook. -/
  | fail (id : String) (decision : SupervisionDecision)
  /-- The start hook returns. -/
  | hook (id : String) (ok : Bool)
  /-- `runActor` finds the context done. -/
  | exit (id : String)
  /-- `Stop` or `StopAndCapture`, up to the stop hook. -/
  | stop (id : String)
  /-- The stop hook has returned or timed out. -/
  | stopped (id : String)

namespace Lifecycle

def new (nodeID : String) (remoteSend : Option (PID → PIDDeliveryOutcome)) : Lifecycle π :=
  ⟨.new nodeID remoteSend, [], [], [], []⟩

def after (t : Lifecycle π) (rt : Runtime π) : Lifecycle π :=
  { t with rt := rt, issued := rt.issuedAfter t.issued }

/-- The goroutine of the actor is in its loop. -/
def inLoop (t : Lifecycle π) (id : String) : Bool := (t.hooks.lookup id).isNone

def atOnce (t : Lifecycle π) : RuntimeAction π → Bool
  | .createActor .. | .stop _ | .removeActor _ | .process _ (.failed ..) => false
  | .process id .ok => t.inLoop id
  | _ => true

/-- One step. A goroutine that has returned may go on, which only adds runs. -/
def step [Inhabited π] (t : Lifecycle π) :
    LifecycleAction π → Option (Lifecycle π × List RuntimeEvent)
  | .op a => if t.atOnce a then (t.rt.step a).map fun r => (t.after r.1, r.2) else none
  | .create id nilHandler capacity =>
    match t.rt.createActor id nilHandler capacity true with
    | .error _ => some (t, [])
    | .ok rt =>
      some ({ t.after (rt.setStatus id .starting) with hooks := (id, false) :: t.hooks }, [])
  | .fail id decision =>
    if t.inLoop id then
      (t.rt.step (.process id (.failed decision true))).map fun r =>
        if decision = .restart then
          ({ t.after (r.1.setStatus id .restarting) with hooks := (id, true) :: t.hooks }, r.2)
        else ({ t.after r.1 with canceled := id :: t.canceled }, r.2)
    else none
  | .hook id ok =>
    match t.hooks.lookup id, t.rt.registry.lookup id with
    | some restart, some a =>
      let rt := t.rt.terminate id a
      let failed := if restart then rt else { rt with names := t.rt.names }
      some ({ t.after (if ok then t.rt.setStatus id .running else failed) with
        hooks := t.hooks.filter (·.1 ≠ id)
        canceled := if ok then t.canceled else id :: t.canceled }, [])
    | _, _ => none
  | .exit id =>
    if t.inLoop id && t.canceled.contains id then some (t.after (t.rt.setStatus id .stopped), [])
    else none
  | .stop id =>
    if t.rt.down id then some (t, [])
    else some ({ t.after (t.rt.setStatus id .stopping) with stops := id :: t.stops }, [])
  | .stopped id =>
    match t.rt.registry.lookup id with
    | none => none
    | some a =>
      if t.stops.contains id then
        some ({ t.after ({ t.rt with resolver := t.rt.markStopped id }.terminate id a) with
          stops := t.stops.erase id
          canceled := id :: t.canceled }, [.superseded id])
      else none

/-- **The resolver tracks the lifecycle.** Every identifier issued has an entry, whose
route state is stopped iff the actor's status is. -/
def Tracked (t : Lifecycle π) : Prop :=
  ∀ pid ∈ t.issued, ∃ e, t.rt.resolvePID pid = some e ∧
    (e.routeState = .stopped ↔ t.rt.status pid.actorID = .stopped)

/-- A status may be stored: the actor has no identifiers, or was stopped or not as it is then. -/
def mayStore (t : Lifecycle π) (id : String) (stopped : Bool) : Bool :=
  t.issued.all fun q => q.actorID = id → t.rt.down id = stopped

/-- Issuing makes a key reachable: no actor with an identifier under it, the new one included, may
be stopped. -/
def mayRoute (t : Lifecycle π) (ns id : String) : Bool :=
  (t.rt.registry.lookup id).isNone ||
    (t.rt.pidToIssue ns id :: t.issued).all fun q =>
      q.key = (t.rt.pidToIssue ns id).key → !t.rt.down q.actorID

/-- The key last issued for the actor may be marked stopped, or reachable, and the actor with it: no
other actor has an identifier under it that disagrees, and the actor none under another key. -/
def mayMark (t : Lifecycle π) (id : String) (stopped : Bool) : Bool :=
  t.issued.all fun q =>
    if t.rt.lastKey id = some q.key then q.actorID = id || t.rt.down q.actorID = stopped
    else q.actorID = id → t.rt.down id = stopped

/-- The steps after which the resolver still tracks the lifecycle. -/
def keepsTrack (t : Lifecycle π) : LifecycleAction π → Bool
  | .op (.issuePID ns id) => t.mayRoute ns id
  | .op (.registerName id _ ns) =>
    (t.rt.pidInNamespace id (Runtime.namespaceFor ns)).isSome ||
      t.mayRoute (Runtime.namespaceFor ns) id
  | .fail id .restart => t.mayMark id false
  | .fail id _ | .exit id => t.mayStore id true
  | .hook id ok => t.mayStore id !ok
  | .stopped id => t.mayMark id true
  | _ => true

end Lifecycle

namespace Runtime

variable {rt rt' : Runtime π} {id : String} {a : ActorEntry π} {issued : List PID}

theorem down_of_lookup (ha : rt.registry.lookup id = some a) :
    rt.down id = decide (a.status = .stopped) := by
  simp only [down, status, ha]

theorem down_insert (hreg : rt'.registry = rt.registry.insert id a) (j : String) :
    rt'.down j = if j = id then decide (a.status = .stopped) else rt.down j := by
  by_cases hj : j = id
  · rw [if_pos hj]
    apply down_of_lookup
    rw [hreg, lookup_insert_ite, if_pos hj]
  · have hlookup : rt'.registry.lookup j = rt.registry.lookup j := by
      rw [hreg, lookup_insert_ite, if_neg hj]
    rw [if_neg hj]
    unfold down status
    rw [hlookup]

theorem setStatus_insert {m : AList (fun _ : String => ActorEntry π)}
    (hreg : rt.registry = m.insert id a) (status : ActorStatus) :
    rt.setStatus id status = { rt with registry := m.insert id { a with status := status } } := by
  simp [setStatus, hreg]

theorem mem_issuedAfter {q : PID} :
    q ∈ rt'.issuedAfter issued ↔ (∃ id, rt'.actorPID.lookup id = some q) ∨ q ∈ issued := by
  rw [issuedAfter, mem_append, List.mem_map]
  refine or_congr_left ⟨?_, ?_⟩
  · rintro ⟨⟨id, pid⟩, he, rfl⟩
    exact ⟨id, AList.mem_lookup_iff.mpr he⟩
  · rintro ⟨id, hid⟩
    exact ⟨⟨id, q⟩, AList.mem_lookup_iff.mp hid, rfl⟩

/-! ### The invariant -/

/-- What the tables hold was issued, and for actors that exist; and the routes agree with the
statuses. -/
structure Follows (rt : Runtime π) (issued : List PID) : Prop where
  last : ∀ id pid, rt.actorPID.lookup id = some pid → pid ∈ issued
  entry : ∀ k e, rt.resolver.byKey.lookup k = some e →
    e.pid.key = k ∧ ∃ q ∈ issued, q.key = k ∧ q.actorID = e.pid.actorID
  registered : ∀ q ∈ issued, (rt.registry.lookup q.actorID).isSome = true
  agrees : ∀ q ∈ issued, rt.route q.key = some (rt.down q.actorID)

/-- An operation writes one entry at most, gives one actor a status and issues `fresh`. -/
structure Writes (rt rt' : Runtime π) (issued fresh : List PID) (key : Option String)
    (e : PIDResolverEntry) (id : String) (stopped : Bool) : Prop where
  byKey : ∀ k, rt'.resolver.byKey.lookup k =
    if key = some k then some e else rt.resolver.byKey.lookup k
  entry : ∀ k, key = some k →
    e.pid.key = k ∧ ∃ q ∈ fresh ++ issued, q.key = k ∧ q.actorID = e.pid.actorID
  registry : ∀ j, (rt.registry.lookup j).isSome = true → (rt'.registry.lookup j).isSome = true
  down : ∀ j, rt'.down j = if j = id then stopped else rt.down j
  actorPID : ∀ i pid, rt'.actorPID.lookup i = some pid →
    ∃ q ∈ fresh ++ issued, q.key = pid.key ∧ q.actorID = pid.actorID
  fresh : ∀ q ∈ fresh, key = some q.key ∧ (rt.registry.lookup q.actorID).isSome = true ∧
    ∃ i, rt'.actorPID.lookup i = some q

/-- **One write.** The condition is on the identifiers under the key and on those of the actor. -/
theorem Follows.writes {fresh : List PID} {key : Option String} {e : PIDResolverEntry}
    {stopped : Bool} (h : Follows rt issued) (hw : Writes rt rt' issued fresh key e id stopped)
    (hok : ∀ q ∈ fresh ++ issued,
      if key = some q.key then
        (if q.actorID = id then stopped else rt.down q.actorID) = decide (e.routeState = .stopped)
      else q.actorID = id → rt.down id = stopped) :
    Follows rt' (rt'.issuedAfter issued) := by
  have hmem : ∀ q ∈ fresh ++ issued, q ∈ rt'.issuedAfter issued := by
    intro q hq
    rcases mem_append.mp hq with hq | hq
    · exact mem_issuedAfter.mpr (.inl (hw.fresh q hq).2.2)
    · exact mem_issuedAfter.mpr (.inr hq)
  have hcover : ∀ q ∈ rt'.issuedAfter issued,
      ∃ q' ∈ fresh ++ issued, q'.key = q.key ∧ q'.actorID = q.actorID := by
    intro q hq
    rcases mem_issuedAfter.mp hq with ⟨i, hi⟩ | hq
    · exact hw.actorPID i q hi
    · exact ⟨q, mem_append_right _ hq, rfl, rfl⟩
  refine ⟨fun i pid hi => mem_issuedAfter.mpr (.inl ⟨i, hi⟩), ?_, ?_, ?_⟩
  · intro k e' he'
    rw [hw.byKey] at he'
    split_ifs at he' with hk
    · obtain rfl := some.inj he'
      obtain ⟨hkey, q, hq, hq'⟩ := hw.entry k hk
      exact ⟨hkey, q, hmem q hq, hq'⟩
    · obtain ⟨hkey, q, hq, hq'⟩ := h.entry k e' he'
      exact ⟨hkey, q, mem_issuedAfter.mpr (.inr hq), hq'⟩
  · intro q hq
    obtain ⟨q', hq', -, howner⟩ := hcover q hq
    rw [← howner]
    rcases mem_append.mp hq' with hq' | hq'
    · exact hw.registry _ (hw.fresh q' hq').2.1
    · exact hw.registry _ (h.registered q' hq')
  · intro q hq
    obtain ⟨q', hq', hkey, howner⟩ := hcover q hq
    rw [← hkey, ← howner, hw.down]
    have hq'' := hok q' hq'
    unfold route
    rw [hw.byKey]
    by_cases hk : key = some q'.key
    · rw [if_pos hk] at hq'' ⊢
      rw [map_some, hq'']
    · rw [if_neg hk] at hq'' ⊢
      have hold : q' ∈ issued :=
        (mem_append.mp hq').resolve_left fun hnew => hk (hw.fresh q' hnew).1
      split_ifs with hid
      · rw [← hq'' hid, ← hid]
        exact h.agrees q' hold
      · exact h.agrees q' hold

/-! ### What the operations write -/

namespace Follows
variable (h : Follows rt issued)
include h

theorem same (hs : SameBooks rt rt') : Follows rt' (rt'.issuedAfter issued) := by
  have hlookup : ∀ j, rt'.status j = rt.status j ∧
      (rt'.registry.lookup j).isSome = (rt.registry.lookup j).isSome := by
    intro j
    have hj := hs.standing j
    unfold status
    cases h1 : rt.registry.lookup j <;> cases h2 : rt'.registry.lookup j <;>
      simp_all [ActorEntry.standing]
  have hw : Writes rt rt' issued [] none ⟨⟨"", "", 0⟩, .stopped, 0⟩ "" (rt.down "") := by
    refine ⟨by simp [hs.byKey], by simp, ?_, ?_, ?_, by simp⟩
    · intro j hj
      rwa [(hlookup j).2]
    · intro j
      unfold down
      rw [(hlookup j).1]
      split_ifs with hj
      · rw [hj]
      · rfl
    · intro i pid hi
      exact ⟨pid, h.last i pid (hs.actorPID ▸ hi), rfl, rfl⟩
  exact h.writes hw (by simp)

theorem store (hreg : rt'.registry = rt.registry.insert id a) (hpid : rt'.actorPID = rt.actorPID)
    (hres : rt'.resolver.byKey = rt.resolver.byKey)
    (hok : ∀ q ∈ issued, q.actorID = id → rt.down id = decide (a.status = .stopped)) :
    Follows rt' (rt'.issuedAfter issued) := by
  have hw : Writes rt rt' issued [] none ⟨⟨"", "", 0⟩, .stopped, 0⟩ id
      (decide (a.status = .stopped)) := by
    refine ⟨by simp [hres], by simp, ?_, down_insert hreg, ?_, by simp⟩
    · intro j hj
      rw [hreg, lookup_insert_ite]
      split_ifs
      · rfl
      · exact hj
    · intro i pid hi
      exact ⟨pid, h.last i pid (hpid ▸ hi), rfl, rfl⟩
  exact h.writes hw (by simpa using hok)

theorem setStatus (status : ActorStatus)
    (hok : ∀ q ∈ issued, q.actorID = id → rt.down id = decide (status = .stopped)) :
    Follows (rt.setStatus id status) ((rt.setStatus id status).issuedAfter issued) := by
  unfold Runtime.setStatus
  cases ha : rt.registry.lookup id with
  | none => exact h.same (.refl rt)
  | some a => exact h.store rfl rfl rfl hok

/-- The entry of the identifier last issued, or the one that is made for it. -/
theorem entryOf {r : PID} (hr : rt.actorPID.lookup id = some r) (state : PIDRouteState) :
    let e := (rt.resolver.resolve r).getD ⟨r, state, r.generation⟩
    e.pid.key = r.key ∧ ∃ q ∈ [] ++ issued, q.key = r.key ∧ q.actorID = e.pid.actorID := by
  cases he : rt.resolver.resolve r with
  | none => exact ⟨rfl, r, h.last id r hr, rfl, rfl⟩
  | some e => exact h.entry r.key e he

/-- The identifier last issued is marked and the actor stored, both as stopped or both as not. -/
theorem mark {r : PID} (hr : rt.actorPID.lookup id = some r) (e : PIDResolverEntry)
    (hreg : rt'.registry = rt.registry.insert id a)
    (hpid : ∀ i pid, rt'.actorPID.lookup i = some pid →
      ∃ q ∈ [] ++ issued, q.key = pid.key ∧ q.actorID = pid.actorID)
    (hres : ∀ k, rt'.resolver.byKey.lookup k =
      if k = r.key then some e else rt.resolver.byKey.lookup k)
    (he : e.pid.key = r.key ∧ ∃ q ∈ [] ++ issued, q.key = r.key ∧ q.actorID = e.pid.actorID)
    (hstopped : decide (a.status = .stopped) = decide (e.routeState = .stopped))
    (hok : ∀ q ∈ issued,
      if rt.lastKey id = some q.key then
        q.actorID = id ∨ rt.down q.actorID = decide (e.routeState = .stopped)
      else q.actorID = id → rt.down id = decide (e.routeState = .stopped)) :
    Follows rt' (rt'.issuedAfter issued) := by
  have hlast : rt.lastKey id = some r.key := by simp only [lastKey, hr, map_some]
  have hw : Writes rt rt' issued [] (some r.key) e id (decide (e.routeState = .stopped)) := by
    refine ⟨?_, ?_, ?_, ?_, hpid, by simp⟩
    · intro k
      rw [hres]
      simp only [some.injEq, eq_comm]
    · rintro k ⟨⟩
      exact he
    · intro j hj
      rw [hreg, lookup_insert_ite]
      split_ifs
      · rfl
      · exact hj
    · rw [← hstopped]
      exact down_insert hreg
  refine h.writes hw fun q hq => ?_
  have hq' := hok q hq
  rw [hlast] at hq'
  split_ifs at hq' ⊢ with hk hid
  · rfl
  · exact hq'.resolve_left hid
  · exact hq'

theorem stopped (hok : ∀ q ∈ issued,
      if rt.lastKey id = some q.key then q.actorID = id ∨ rt.down q.actorID = true
      else q.actorID = id → rt.down id = true) :
    let rt' := { rt with resolver := rt.markStopped id }.terminate id a
    Follows rt' (rt'.issuedAfter issued) := by
  cases hr : rt.actorPID.lookup id with
  | none =>
    have hlast : rt.lastKey id = none := by simp only [lastKey, hr, map_none]
    refine h.store rfl rfl (by simp only [terminate, markStopped, hr]) ?_
    simpa [hlast] using hok
  | some r =>
    exact h.mark hr
      { (rt.resolver.resolve r).getD ⟨r, .stopped, r.generation⟩ with routeState := .stopped } rfl
      (fun i pid hi => ⟨pid, h.last i pid hi, rfl, rfl⟩)
      (fun k => by simp only [terminate, markStopped, hr, setState, lookup_insert_ite])
      (h.entryOf hr .stopped) rfl hok

theorem restarts (hreg : rt'.registry = rt.registry.insert id a) (hst : a.status ≠ .stopped)
    (hpid : rt'.actorPID = (rt.bumpPID id).actorPID)
    (hres : rt'.resolver = (rt.bumpPID id).resolver) (hok : ∀ q ∈ issued,
      if rt.lastKey id = some q.key then q.actorID = id ∨ rt.down q.actorID = false
      else q.actorID = id → rt.down id = false) :
    Follows rt' (rt'.issuedAfter issued) := by
  cases hr : rt.actorPID.lookup id with
  | none =>
    rw [bumpPID_none hr] at hpid hres
    have hlast : rt.lastKey id = none := by simp only [lastKey, hr, map_none]
    refine h.store hreg hpid (by rw [hres]) ?_
    simpa [hlast, hst] using hok
  | some r =>
    rw [bumpPID_some_eq hr] at hpid hres
    obtain ⟨hkey, q, hq, hqkey, howner⟩ := h.entryOf hr .restarting
    let e := (rt.resolver.resolve r).getD ⟨r, .restarting, r.generation⟩
    refine h.mark hr
      ⟨{ e.pid with generation := e.currentGeneration + 1 }, .reachable, e.currentGeneration + 1⟩
      hreg ?_ ?_ ⟨hkey, q, hq, hqkey, howner⟩ (by simpa using hst) (by simpa using hok)
    · intro i pid hi
      rw [hpid, lookup_insert_ite] at hi
      split_ifs at hi with hid
      · obtain rfl := some.inj hi
        exact ⟨q, hq, hqkey.trans hkey.symm, howner⟩
      · exact ⟨pid, h.last i pid hi, rfl, rfl⟩
    · intro k
      rw [hres]
      simp only [lookup_insert_ite]
      split_ifs <;> rfl

theorem issues {ns : String} {pid : PID} {rt₁ : Runtime π}
    (hissue : rt.issuePID ns id = .ok (pid, rt₁)) (hreg : rt'.registry = rt₁.registry)
    (hpid : rt'.actorPID = rt₁.actorPID) (hres : rt'.resolver = rt₁.resolver)
    (hok : ∀ q ∈ pid :: issued, q.key = pid.key → rt.down q.actorID = false) :
    Follows rt' (rt'.issuedAfter issued) := by
  obtain ⟨hsome, hpid', rfl⟩ := issuePID_spec hissue
  have hid : pid.actorID = id := by rw [hpid']; rfl
  have hw : Writes rt rt' issued [pid] (some pid.key) ⟨pid, .reachable, pid.generation⟩ id
      (rt.down id) := by
    refine ⟨?_, ?_, ?_, ?_, ?_, ?_⟩
    · intro k
      simp only [hres, Runtime.issued, register, lookup_insert_ite, some.injEq, eq_comm]
    · rintro k ⟨⟩
      exact ⟨rfl, pid, by simp, rfl, rfl⟩
    · intro j hj
      rwa [hreg]
    · intro j
      unfold down status
      rw [hreg]
      split_ifs with hj
      · rw [hj]
        rfl
      · rfl
    · intro i r hi
      rw [hpid, Runtime.issued, lookup_insert_ite] at hi
      split_ifs at hi
      · obtain rfl := some.inj hi
        exact ⟨pid, by simp, rfl, rfl⟩
      · exact ⟨r, by simp [h.last i r hi], rfl, rfl⟩
    · intro q hq
      obtain rfl := mem_singleton.mp hq
      exact ⟨rfl, hid ▸ hsome, id, by rw [hpid, Runtime.issued, AList.lookup_insert]⟩
  refine h.writes hw fun q hq => ?_
  split_ifs with hk hq'
  · simpa [hq'] using hok q hq (some.inj hk).symm
  · simpa using hok q hq (some.inj hk).symm
  · exact fun _ => rfl

end Follows
end Runtime

namespace Lifecycle

variable {t t' : Lifecycle π} {a : LifecycleAction π} {es : List RuntimeEvent}

theorem tracked_of_follows (h : t.rt.Follows t.issued) : t.Tracked := by
  intro q hq
  simpa [Runtime.resolvePID, resolve, Runtime.route, Runtime.down] using h.agrees q hq

theorem follows_registerEntry {rt : Runtime π} {issued : List PID} (name id : String) (pid : PID)
    (h : rt.Follows (rt.issuedAfter issued)) : (rt.registerEntry name id pid).2.Follows
      ((rt.registerEntry name id pid).2.issuedAfter issued) := by
  obtain ⟨names, heq⟩ := rt.exists_names_registerEntry name id pid
  rw [heq]
  exact ⟨h.last, h.entry, h.registered, h.agrees⟩

/-! ### One step -/

theorem of_mayStore {id : String} {stopped : Bool} (h : t.mayStore id stopped = true) :
    ∀ q ∈ t.issued, q.actorID = id → t.rt.down id = stopped := by
  simpa [mayStore, imp_iff_not_or] using h

theorem of_mayMark {id : String} {stopped : Bool} (h : t.mayMark id stopped = true) :
    ∀ q ∈ t.issued,
      if t.rt.lastKey id = some q.key then q.actorID = id ∨ t.rt.down q.actorID = stopped
      else q.actorID = id → t.rt.down id = stopped := by
  intro q hq
  have hq' := List.all_eq_true.mp h q hq
  split_ifs at hq' ⊢
  · simpa using hq'
  · simpa [imp_iff_not_or] using hq'

theorem follows_issuePID {ns id : String} {pid : PID} {rt₁ rt' : Runtime π}
    (h : t.rt.Follows t.issued) (hok : t.mayRoute ns id = true)
    (hissue : t.rt.issuePID ns id = .ok (pid, rt₁)) (hreg : rt'.registry = rt₁.registry)
    (hpid : rt'.actorPID = rt₁.actorPID) (hres : rt'.resolver = rt₁.resolver) :
    rt'.Follows (rt'.issuedAfter t.issued) := by
  obtain ⟨hsome, rfl, -⟩ := Runtime.issuePID_spec hissue
  refine h.issues hissue hreg hpid hres fun q hq hkey => ?_
  obtain ⟨a, ha⟩ := isSome_iff_exists.mp hsome
  simp only [mayRoute, ha, isNone_some, Bool.false_or, List.all_eq_true] at hok
  simpa [hkey] using hok q hq

section
variable [Inhabited π]

theorem follows_op {op : RuntimeAction π} {rt' : Runtime π} (h : t.rt.Follows t.issued)
    (honce : t.atOnce op = true) (hok : t.keepsTrack (.op op) = true)
    (hs : t.rt.step op = some (rt', es)) : rt'.Follows (rt'.issuedAfter t.issued) := by
  cases Runtime.does_of_step hs with
  | keeps hsame => exact h.same hsame
  | creates | stops | removes | fails => cases honce
  | issues hissue => exact follows_issuePID h hok hissue rfl rfl rfl
  | @registers id name ns pid rt₁ hsome haddr =>
    refine follows_registerEntry name id pid ?_
    cases haddr with
    | found => exact h.same (.refl _)
    | issued hnone hissue =>
      simp only [keepsTrack, hnone, isSome_none, Bool.false_or] at hok
      exact follows_issuePID h hok hissue rfl rfl rfl

/-- A failed handler: the supervisor ends the actor, or its identifier is made reachable again. -/
theorem follows_fail {id : String} {decision : SupervisionDecision} {rt' : Runtime π}
    (h : t.rt.Follows t.issued) (hok : t.keepsTrack (.fail id decision) = true)
    (hs : t.rt.step (.process id (.failed decision true)) = some (rt', es)) :
    let rt₁ := if decision = .restart then rt'.setStatus id .restarting else rt'
    rt₁.Follows (rt₁.issuedAfter t.issued) := by
  simp only [Runtime.step] at hs
  split at hs
  · cases hs
  split at hs
  · cases hs
  cases hs
  cases decision with
  | restart =>
    rw [if_pos rfl, Runtime.setStatus_insert rfl, Runtime.registry_bumpPID]
    refine h.restarts rfl ?_ rfl rfl (of_mayMark hok)
    simp
  | stop | escalate | other name => exact h.store rfl rfl rfl (of_mayStore hok)

/-- **One step** keeps the resolver and the lifecycle together if it meets its condition. -/
theorem follows_step (h : t.rt.Follows t.issued) (hok : t.keepsTrack a = true)
    (hs : t.step a = some (t', es)) : t'.rt.Follows t'.issued := by
  cases a with
  | op a =>
    simp only [step, ite_none_right_eq_some, map_eq_some_iff] at hs
    obtain ⟨honce, r, hr, heq⟩ := hs
    cases heq
    exact follows_op h honce hok hr
  | create id nilHandler capacity =>
    simp only [step] at hs
    split at hs
    · cases hs
      exact h
    · next rt₁ hc =>
      cases hs
      simp only [Runtime.createActor] at hc
      split_ifs at hc with hid hnil hdup
      cases hc
      rw [Runtime.setStatus_insert rfl]
      refine h.store rfl rfl rfl fun q hq hq' => ?_
      rw [← hq'] at hdup
      exact absurd (h.registered q hq) hdup
  | fail id decision =>
    simp only [step, ite_none_right_eq_some, map_eq_some_iff] at hs
    obtain ⟨-, r, hr, heq⟩ := hs
    have hf := follows_fail h hok hr
    split_ifs at hf heq <;> cases heq <;> exact hf
  | hook id ok =>
    simp only [step] at hs
    split at hs
    · next restart a hhook ha =>
      cases hs
      have hst := of_mayStore hok
      cases ok with
      | true => exact h.setStatus .running hst
      | false => cases restart <;> exact h.store rfl rfl rfl hst
    · cases hs
  | exit id =>
    simp only [step, ite_none_right_eq_some] at hs
    obtain ⟨-, heq⟩ := hs
    cases heq
    exact h.setStatus .stopped (of_mayStore hok)
  | stop id =>
    simp only [step] at hs
    split_ifs at hs with hdown <;> cases hs
    · exact h
    · exact h.setStatus .stopping fun _ _ _ => by simpa using hdown
  | stopped id =>
    simp only [step] at hs
    split at hs
    · cases hs
    · split_ifs at hs
      cases hs
      exact h.stopped (of_mayMark hok)

end

/-- An actor is given two identifiers in one namespace and one restart, is stopped, and its
goroutine returns. -/
def stopTracked : List (LifecycleAction ℕ) :=
  [.create "a" false 4, .hook "a" true, .op (.issuePID "n" "a"), .op (.send "a" (some 7)),
    .fail "a" .restart, .hook "a" true, .op (.issuePID "n" "a"), .stop "a", .stopped "a", .exit "a"]

/-- An identifier of a stopped actor is reachable. -/
def LeftReachable (t : Lifecycle ℕ) (pid : PID) : Prop :=
  pid ∈ t.issued ∧ t.rt.status pid.actorID = .stopped ∧
    (t.rt.resolvePID pid).map (fun e => e.routeState) = some .reachable

instance (t : Lifecycle ℕ) (pid : PID) : Decidable (LeftReachable t pid) :=
  inferInstanceAs (Decidable (_ ∧ _))

end Lifecycle
end Westcoast
