import Westcoast.Actor.Host

/-!
# The operations of a host, by what they do

The books of a runtime are its names, the identifiers last issued and the resolver, and of every
actor its status, its restarts and whether its mailbox is closed. `Runtime.Does` says once what each
operation does to them, `Host.does_of_step` what a step of the host does.
-/
namespace Westcoast

open Lib Option

variable {π : Type}

def ActorEntry.standing (a : ActorEntry π) : ActorStatus × ℕ × Bool :=
  (a.status, a.restarts, a.mailbox.closed)

namespace Runtime

structure SameBooks (rt rt' : Runtime π) : Prop where
  nodeID : rt'.nodeID = rt.nodeID
  remoteSend : rt'.remoteSend = rt.remoteSend
  names : rt'.names = rt.names
  actorPID : rt'.actorPID = rt.actorPID
  byKey : rt'.resolver.byKey = rt.resolver.byKey
  standing : ∀ id, (rt'.registry.lookup id).map (·.standing) =
    (rt.registry.lookup id).map (·.standing)

variable {rt rt' : Runtime π}

theorem SameBooks.of_eq (hnode : rt'.nodeID = rt.nodeID) (hsend : rt'.remoteSend = rt.remoteSend)
    (hnames : rt'.names = rt.names) (hpid : rt'.actorPID = rt.actorPID)
    (hkeys : rt'.resolver.byKey = rt.resolver.byKey) (hreg : rt'.registry = rt.registry) :
    SameBooks rt rt' :=
  ⟨hnode, hsend, hnames, hpid, hkeys, fun id => by rw [hreg]⟩

theorem SameBooks.refl (rt : Runtime π) : SameBooks rt rt := .of_eq rfl rfl rfl rfl rfl rfl

theorem SameBooks.trans {rt₁ rt₂ : Runtime π} (h : SameBooks rt rt₁) (h' : SameBooks rt₁ rt₂) :
    SameBooks rt rt₂ :=
  ⟨h'.nodeID.trans h.nodeID, h'.remoteSend.trans h.remoteSend, h'.names.trans h.names,
    h'.actorPID.trans h.actorPID, h'.byKey.trans h.byKey,
    fun id => (h'.standing id).trans (h.standing id)⟩

variable {id : String}

theorem SameBooks.insert {a : ActorEntry π} (ha : rt.registry.lookup id = some a)
    (a' : ActorEntry π) (hst : a'.standing = a.standing) :
    SameBooks rt { rt with registry := rt.registry.insert id a' } := by
  refine ⟨rfl, rfl, rfl, rfl, rfl, fun id' => ?_⟩
  simp only [lookup_insert_ite]
  split_ifs with hid
  · rw [hid, ha, map_some, map_some, hst]
  · rfl

/-- The runtime once `IssuePID` has registered an identifier. -/
def issued (rt : Runtime π) (id : String) (pid : PID) : Runtime π :=
  { rt with
    resolver := rt.resolver.register pid
    actorPID := rt.actorPID.insert id pid }

variable {pid : PID}

theorem issuePID_spec {ns : String} (h : rt.issuePID ns id = .ok (pid, rt')) :
    (rt.registry.lookup id).isSome = true ∧ pid = rt.pidToIssue ns id ∧ rt' = rt.issued id pid := by
  have hissued := issuePID_ok h
  simp only [issuePID] at h
  split_ifs at h with hreg
  rw [isNone_iff_eq_none, ← Ne, ← isSome_iff_ne_none] at hreg
  exact ⟨hreg, hissued⟩

theorem lookup_cleanupRegistry (names : NamedRegistry) (id name : String) :
    (cleanupRegistry names id).lookup name = (names.lookup name).filter fun e => e.1 ≠ id := by
  have hwhere : cleanupRegistry names id = eraseWhere (fun e => e.1 = id) names := rfl
  rw [hwhere, lookup_eraseWhere]
  simp

section
variable (rt id)

theorem lookup_releasePID (k : String) : (rt.releasePID id).byKey.lookup k =
      if ∃ pid, rt.actorPID.lookup id = some pid ∧ pid.key = k then none
      else rt.resolver.byKey.lookup k := by
  unfold releasePID
  cases hpid : rt.actorPID.lookup id with
  | none => simp
  | some pid =>
    simp only [InMemoryPIDResolver.remove, lookup_erase_ite, some.injEq, exists_eq_left']
    exact if_congr eq_comm rfl rfl

theorem bumpPID_keeps : (rt.bumpPID id).names = rt.names ∧
    (rt.bumpPID id).remoteSend = rt.remoteSend ∧ (rt.bumpPID id).nodeID = rt.nodeID := by
  cases hp : rt.actorPID.lookup id with
  | none => simp [bumpPID_none hp]
  | some p => simp [bumpPID_some_eq hp]

variable [Inhabited π]

theorem sameBooks_send (payload : Option π) : SameBooks rt (rt.send id payload).2 := by
  simp only [send]
  cases payload with
  | none => exact .of_eq rfl rfl rfl rfl rfl rfl
  | some payload =>
    simp only
    cases ha : rt.registry.lookup id with
    | none => exact .of_eq rfl rfl rfl rfl rfl rfl
    | some a =>
      simp only
      split_ifs
      · exact .of_eq rfl rfl rfl rfl rfl rfl
      · split
        · next mailbox henq =>
          have hclosed : mailbox.closed = a.mailbox.closed := by
            rw [← Mailbox.closed_enqueue a.mailbox, henq]
          have hbooks := SameBooks.insert ha { a with mailbox := mailbox }
            (by simp only [ActorEntry.standing, hclosed])
          exact ⟨rfl, rfl, rfl, rfl, rfl, hbooks.standing⟩
        · exact .of_eq rfl rfl rfl rfl rfl rfl

theorem sameBooks_sendPID (pid : PID) (payload : Option π) :
    SameBooks rt (rt.sendPID pid payload).2 := by
  have hdraw : SameBooks rt { rt with msgSeq := rt.msgSeq + 1 } := .of_eq rfl rfl rfl rfl rfl rfl
  have hlocal : SameBooks rt
      ({ rt with msgSeq := rt.msgSeq + 1 }.sendResolved pid payload).2 := by
    rcases sendResolved_cases { rt with msgSeq := rt.msgSeq + 1 } pid payload with
      ⟨heq, -⟩ | ⟨-, heq, -⟩
    · rw [heq]
      exact hdraw
    · rw [heq]
      have hsent := sameBooks_send { rt with msgSeq := rt.msgSeq + 1 } pid.actorID payload
      exact ⟨hsent.nodeID, hsent.remoteSend, hsent.names, hsent.actorPID, hsent.byKey,
        hsent.standing⟩
  simp only [sendPID]
  split_ifs
  · exact hdraw
  · split
    · exact hdraw
    · exact hlocal
  · exact hlocal

end

def namespaceFor (ns : String) : String := if ns = "" then "default" else ns

/-- What `RegisterName` registers: the identifier issued last, if it is in the namespace, or a new
one. -/
inductive Addressed (rt : Runtime π) (id ns : String) : PID → Runtime π → Prop
  | found {pid : PID} :
      rt.pidInNamespace id (namespaceFor ns) = some pid → Addressed rt id ns pid rt
  | issued {pid : PID} {rt' : Runtime π} : rt.pidInNamespace id (namespaceFor ns) = none →
      rt.issuePID (namespaceFor ns) id = .ok (pid, rt') → Addressed rt id ns pid rt'

/-- The operations, by what they do to the books. -/
inductive Does (rt : Runtime π) : RuntimeAction π → Runtime π → Prop
  | keeps {op : RuntimeAction π} {rt' : Runtime π} : SameBooks rt rt' → Does rt op rt'
  | creates {id : String} {nilHandler : Bool} {capacity : ℤ} {hookOk : Bool} {a : ActorEntry π} :
      rt.registry.lookup id = none → a.restarts = 0 →
        (a.status = .running → a.mailbox.closed = false) →
          Does rt (.createActor id nilHandler capacity hookOk)
            { rt with registry := rt.registry.insert id a }
  | issues {ns id : String} {pid : PID} {rt' : Runtime π} :
      rt.issuePID ns id = .ok (pid, rt') → Does rt (.issuePID ns id) rt'
  | registers {id name ns : String} {pid : PID} {rt₁ : Runtime π} :
      (rt.registry.lookup id).isSome = true → rt.Addressed id ns pid rt₁ →
          Does rt (.registerName id name ns) (rt₁.registerEntry name id pid).2
  | fails {id : String} {a a' : ActorEntry π} {decision : SupervisionDecision} {hookOk : Bool} :
      rt.registry.lookup id = some a → a'.standing = a.standing →
        Does rt (.process id (.failed decision hookOk))
          (rt.processMessage id a' (.failed decision hookOk))
  | stops {id : String} {a : ActorEntry π} : rt.registry.lookup id = some a →
      Does rt (.stop id) ({ rt with resolver := rt.markStopped id }.terminate id a)
  | removes {id : String} {a : ActorEntry π} : rt.registry.lookup id = some a →
      a.status = .stopped → Does rt (.removeActor id)
          { rt with
            registry := rt.registry.erase id
            actorPID := rt.actorPID.erase id
            resolver := rt.releasePID id }

section
variable (rt)

theorem registerName_cases (id name ns : String) :
    (∃ e, rt.registerName id name ns = (.error e, rt)) ∨
      ∃ pid rt₁, (rt.registry.lookup id).isSome = true ∧ rt.Addressed id ns pid rt₁ ∧
        rt.registerName id name ns = rt₁.registerEntry name id pid := by
  have hns : (if ns = "" then "default" else ns) = namespaceFor ns := rfl
  simp only [registerName, hns]
  split_ifs with hreg
  · exact .inl ⟨_, rfl⟩
  · have hsome : (rt.registry.lookup id).isSome = true := by
      rwa [isNone_iff_eq_none, ← Ne, ← isSome_iff_ne_none] at hreg
    cases hp : rt.pidInNamespace id (namespaceFor ns) with
    | some pid => exact .inr ⟨pid, rt, hsome, .found hp, rfl⟩
    | none =>
      cases hissue : rt.issuePID (namespaceFor ns) id with
      | error e => exact .inl ⟨e, rfl⟩
      | ok r =>
        obtain ⟨pid, rt₁⟩ := r
        exact .inr ⟨pid, rt₁, hsome, .issued hp hissue, rfl⟩

variable {rt} in
theorem registerEntry_ok {name : String} {pid' : PID}
    (h : rt.registerEntry name id pid = (.ok pid', rt')) :
    pid' = pid ∧ rt.names.lookup name = none ∧
      rt' = { rt with names := rt.names.insert name (id, pid) } := by
  simp only [registerEntry] at h
  split_ifs at h with hname hdup
  · cases h
  · cases h
  · cases h
    exact ⟨rfl, by simpa using hdup, rfl⟩

theorem exists_names_registerEntry (name id : String) (pid : PID) :
    ∃ names, (rt.registerEntry name id pid).2 = { rt with names := names } := by
  simp only [registerEntry]
  split_ifs
  · exact ⟨rt.names, rfl⟩
  · exact ⟨rt.names, rfl⟩
  · exact ⟨_, rfl⟩

theorem nodeID_registerEntry (name id : String) (pid : PID) :
    (rt.registerEntry name id pid).2.nodeID = rt.nodeID := by
  obtain ⟨names, heq⟩ := rt.exists_names_registerEntry name id pid
  rw [heq]

variable {rt} in
theorem Addressed.nodeID {rt₁ : Runtime π} {ns : String} (h : rt.Addressed id ns pid rt₁) :
    rt₁.nodeID = rt.nodeID := by
  cases h with
  | found _ => rfl
  | issued _ hissue =>
    obtain ⟨-, -, rfl⟩ := issuePID_spec hissue
    rfl

theorem nodeID_registerName (id name ns : String) :
    (rt.registerName id name ns).2.nodeID = rt.nodeID := by
  rcases registerName_cases rt id name ns with ⟨e, herr⟩ | ⟨pid, rt1, -, hpid, heq⟩
  · rw [herr]
  · rw [heq, nodeID_registerEntry, hpid.nodeID]

theorem nodeID_unregisterName (name : String) : (rt.unregisterName name).2.nodeID = rt.nodeID := by
  simp only [unregisterName]
  split <;> rfl

theorem nodeID_stop (id : String) : (rt.stop id).2.nodeID = rt.nodeID := by
  rcases stop_cases rt id with ⟨-, heq⟩ | ⟨a, heq⟩
  · rw [heq]
  · rw [heq]
    rfl

theorem lookup_stop (id name : String) : (rt.stop id).2.registry.lookup name =
      if name = id then (rt.registry.lookup id).map fun a =>
        if a.status = .stopped then a
        else { a with status := .stopped, mailbox := a.mailbox.close }
      else rt.registry.lookup name := by
  cases ha : rt.registry.lookup id with
  | none =>
    simp only [stop, ha]
    split_ifs with hname
    · rw [hname, ha, map_none]
    · rfl
  | some a =>
    by_cases hst : a.status = .stopped
    · simp only [stop, ha, if_pos hst, map_some]
      split_ifs with hname
      · rw [hname, ha]
      · rfl
    · simp [stop, ha, if_neg hst, terminate, lookup_insert_ite]

theorem registry_unregisterName (name : String) :
    (rt.unregisterName name).2.registry = rt.registry := by
  simp only [unregisterName]
  split <;> rfl

theorem registry_registerName (id name ns : String) :
    (rt.registerName id name ns).2.registry = rt.registry := by
  rcases registerName_cases rt id name ns with ⟨e, herr⟩ | ⟨pid, rt1, -, hpid, heq⟩
  · rw [herr]
  · obtain ⟨names, hentry⟩ := rt1.exists_names_registerEntry name id pid
    rw [heq, hentry]
    cases hpid with
    | found _ => rfl
    | issued _ hissue =>
      obtain ⟨-, -, rfl⟩ := issuePID_spec hissue
      rfl

end

theorem createActor_refused [Inhabited π] {nilHandler : Bool} (capacity : ℤ) (hookOk : Bool)
    (h : id = "" ∨ nilHandler = true ∨ (rt.registry.lookup id).isSome = true) :
    ∃ e, rt.createActor id nilHandler capacity hookOk = .error e := by
  by_cases hid : id = ""
  · exact ⟨_, if_pos hid⟩
  · by_cases hnil : nilHandler = true
    · exact ⟨_, (if_neg hid).trans (if_pos hnil)⟩
    · have hdup := (h.resolve_left hid).resolve_left hnil
      exact ⟨_, (if_neg hid).trans ((if_neg hnil).trans (if_pos hdup))⟩

theorem Does.nodeID {op : RuntimeAction π} (h : rt.Does op rt') : rt'.nodeID = rt.nodeID := by
  cases h with
  | keeps hsame => exact hsame.nodeID
  | creates _ _ _ | stops _ | removes _ _ => rfl
  | issues hissue =>
    obtain ⟨-, -, rfl⟩ := issuePID_spec hissue
    rfl
  | @registers id name ns pid rt1 hreg hpid => rw [nodeID_registerEntry, hpid.nodeID]
  | @fails id a a' decision hookOk _ _ =>
    cases decision with
    | restart =>
      cases hookOk with
      | true | false => exact (rt.bumpPID_keeps id).2.2
    | stop | escalate | other name => rfl

theorem does_of_step [Inhabited π] {op : RuntimeAction π} {es : List RuntimeEvent}
    (h : rt.step op = some (rt', es)) : rt.Does op rt' := by
  cases op with
  | createActor id nilHandler capacity hookOk =>
    simp only [step, Runtime.createActor] at h
    split_ifs at h with hempty hnil hdup <;> cases h
    · exact .keeps (.refl rt)
    · exact .keeps (.refl rt)
    · exact .keeps (.refl rt)
    · exact .creates (by simpa using hdup) rfl fun _ => rfl
    · exact .creates (by simpa using hdup) rfl fun hrun => by cases hrun
  | issuePID ns id =>
    simp only [step] at h
    split at h
    · next hissue =>
      cases h
      exact .issues hissue
    · cases h
      exact .keeps (.refl rt)
  | registerName id name ns =>
    obtain rfl : (rt.registerName id name ns).2 = rt' := by
      simp only [step] at h
      split at h <;> next hreg => cases h; rw [hreg]
    rcases registerName_cases rt id name ns with ⟨e, herr⟩ | ⟨pid, rt1, hsome, hpid, heq⟩
    · rw [herr]
      exact .keeps (.refl rt)
    · rw [heq]
      exact .registers hsome hpid
  | process id result =>
    simp only [step] at h
    split at h
    · cases h
    · next a ha =>
      split at h
      · cases h
      · next msg mailbox hd =>
        have hclosed : mailbox.closed = a.mailbox.closed := by
          rw [← Mailbox.closed_dequeue a.mailbox, hd]
        have hst : ({ a with mailbox := mailbox } : ActorEntry π).standing = a.standing := by
          simp only [ActorEntry.standing, hclosed]
        cases h
        cases result with
        | ok => exact .keeps (.insert ha _ hst)
        | failed decision hookOk => exact .fails ha hst
  | stop id =>
    simp only [step, Runtime.stop] at h
    cases ha : rt.registry.lookup id with
    | none =>
      simp only [ha] at h
      cases h
      exact .keeps (.refl rt)
    | some a =>
      simp only [ha] at h
      split_ifs at h
      · cases h
        exact .keeps (.refl rt)
      · cases h
        exact .stops ha
  | removeActor id =>
    simp only [step, Runtime.removeActor] at h
    cases ha : rt.registry.lookup id with
    | none =>
      simp only [ha] at h
      cases h
      exact .keeps (.refl rt)
    | some a =>
      simp only [ha] at h
      split_ifs at h with hst
      · cases h
        exact .keeps (.refl rt)
      · cases h
        exact .removes ha (not_not.mp hst)
  | send id payload =>
    cases h
    exact .keeps (sameBooks_send rt id payload)
  | sendPID pid payload =>
    cases h
    exact .keeps (sameBooks_sendPID rt pid payload)
  | setGatewayMode mode | setGatewayAvailability available =>
    cases h
    exact .keeps (.of_eq rfl rfl rfl rfl rfl rfl)

end Runtime

/-- The sends of the runtime alone, which know nothing of routers and type routes. -/
def RuntimeAction.sends : RuntimeAction π → Bool
  | .send .. | .sendPID .. => true
  | _ => false

/-- The operations on a host. `fuel` bounds the passing on from router to router. -/
inductive HostAction (π : Type)
  | runtime (op : RuntimeAction (Request π))
  | unregisterName (name : String)
  | registerTypeRoute (actorID typeName schemaVersion handlerKey : String)
  | registerFallbackRoute (actorID handlerKey : String)
  | configureRouter (routerID : String) (strategy : RouterStrategy) (workers : List String)
  | deliverLocal (id : String) (payload : Option π) (ask : Option AskRequestContext) (fuel : ℕ)
  | sendPID (pid : PID) (payload : Option π) (fuel : ℕ)
  | sendName (name : String) (payload : Option π) (fuel : ℕ)
  | ask (id : String) (payload : Option π) (evict fuel : ℕ)
  | askPID (pid : PID) (payload : Option π) (evict fuel : ℕ)
  | askReturns (wait : PendingAsk) (evict : ℕ)

namespace Host

def after (h : Host π) (rt : Runtime (Request π)) : Host π := { h with toRuntime := rt }

/-- The host after a setting, which is refused for an actor that does not exist. -/
def orSame (h : Host π) : Except RuntimeError (Host π) → Host π
  | .ok h' => h'
  | .error _ => h

section
variable [Inhabited π] [Payload π] [ReplyPayload π]

/-- One operation. `deliverLocal` without a request is `Send`; a call that does not return
is no step. -/
def step (h : Host π) : HostAction π → Option (Host π × List RuntimeEvent)
  | .runtime op =>
    if op.sends then none else (h.toRuntime.step op).map fun r => (h.after r.1, r.2)
  | .unregisterName name => some (h.after (h.toRuntime.unregisterName name).2, [])
  | .registerTypeRoute actorID typeName schemaVersion handlerKey =>
    some (h.orSame (h.registerTypeRoute actorID typeName schemaVersion handlerKey), [])
  | .registerFallbackRoute actorID handlerKey =>
    some (h.orSame (h.registerFallbackRoute actorID handlerKey), [])
  | .configureRouter routerID strategy workers =>
    some (h.orSame (h.configureRouter routerID strategy workers), [])
  | .deliverLocal id payload ask fuel =>
    (h.deliverLocal id payload ask fuel).map fun r => (r.2, [])
  | .sendPID pid payload fuel => (h.sendPID pid payload fuel).map fun r => (r.2, [])
  | .sendName name payload fuel => (h.sendName name payload fuel).map fun r => (r.2, [])
  | .ask id payload evict fuel => (h.ask id payload evict fuel).map fun r => (r.2, [])
  | .askPID pid payload evict fuel => (h.askPID pid payload evict fuel).map fun r => (r.2, [])
  | .askReturns wait evict => some (h.abandon wait evict, [])

end

abbrev SameBooks (h h' : Host π) : Prop := Runtime.SameBooks h.toRuntime h'.toRuntime

variable {h h' : Host π}

variable {actorID handlerKey : String}

theorem registerTypeRoute_ok {typeName schemaVersion : String}
    (hok : h.registerTypeRoute actorID typeName schemaVersion handlerKey = .ok h') : h' = { h with
      routing := h.routing.registerExact actorID typeName schemaVersion handlerKey } := by
  simp only [registerTypeRoute] at hok
  split_ifs at hok
  cases hok
  rfl

theorem registerFallbackRoute_ok (hok : h.registerFallbackRoute actorID handlerKey = .ok h') :
    h' = { h with routing := h.routing.registerFallback actorID handlerKey } := by
  simp only [registerFallbackRoute] at hok
  split_ifs at hok
  cases hok
  rfl

theorem configureRouter_ok {routerID : String} {strategy : RouterStrategy} {workers : List String}
    (hok : h.configureRouter routerID strategy workers = .ok h') :
    h' = { h with routers := h.routers.insert routerID (.configure strategy workers) } := by
  simp only [configureRouter] at hok
  split_ifs at hok
  cases hok
  rfl

variable {id : String}

theorem sameBooks_setMailbox {a : ActorEntry (Request π)} (ha : h.registry.lookup id = some a)
    {mailbox : Mailbox (Message (Request π))} (hclosed : mailbox.closed = a.mailbox.closed) :
    SameBooks h (h.setMailbox id a mailbox) :=
  .insert ha _ (by simp only [ActorEntry.standing, hclosed])

theorem sameBooks_asking (h : Host π) (targetActor : String) : SameBooks h (h.asking targetActor) :=
  .of_eq rfl rfl rfl rfl rfl rfl

theorem sameBooks_orSame {r : Except RuntimeError (Host π)}
    (hr : ∀ h', r = .ok h' → h'.toRuntime = h.toRuntime) : SameBooks h (h.orSame r) := by
  cases r with
  | error e => exact .refl _
  | ok h' =>
    have heq : h'.toRuntime = h.toRuntime := hr h' rfl
    simp only [SameBooks, orSame, heq]
    exact .refl _

variable [Inhabited π] [Payload π]

theorem sameBooks_deliver (h : Host π) (id : String) (payload : π)
    (ask : Option AskRequestContext) : SameBooks h (h.deliver id payload ask).2 := by
  simp only [deliver]
  cases ha : h.registry.lookup id with
  | none => exact .refl _
  | some a =>
    simp only
    split_ifs
    · exact .refl _
    · cases h.routeMatch id payload with
      | versionMismatch | unsupportedType => exact .refl _
      | noRules | exact | fallback =>
        exact sameBooks_setMailbox ha (Mailbox.closed_enqueue a.mailbox _)

variable {payload : Option π}

theorem sameBooks_sendWithAskContext {ask : Option AskRequestContext} (fuel : ℕ)
    {result : SubmitResult} (hsend : h.sendWithAskContext id payload ask fuel = some (result, h')) :
    SameBooks h h' := by
  refine sendWithAskContext_rel (R := SameBooks) ?_ ?_ ?_ ?_ fuel hsend
  · exact fun _ _ _ h1 h2 => h1.trans h2
  · exact fun h => .of_eq rfl rfl rfl rfl rfl rfl
  · exact fun h id router _ => .of_eq rfl rfl rfl rfl rfl rfl
  · exact fun h id p ask _ => sameBooks_deliver h id p ask

variable {pid : PID} {fuel : ℕ} {outcome : PIDDeliveryOutcome}

theorem sameBooks_sendResolved (hsend : h.sendResolved pid payload fuel = some (outcome, h')) :
    SameBooks h h' := by
  rcases sendResolved_cases hsend with ⟨-, rfl⟩ | ⟨-, result, hsent, -⟩
  · exact .refl _
  · exact sameBooks_sendWithAskContext fuel hsent

variable {wait : PendingAsk} {evict : ℕ} {ok : Bool}

theorem sameBooks_submitAsk (hask : h.submitAsk wait id payload evict fuel = some (ok, h')) :
    SameBooks h h' := by
  simp only [submitAsk, map_eq_some_iff] at hask
  obtain ⟨⟨result, h1⟩, hsent, hr⟩ := hask
  have hbooks := sameBooks_sendWithAskContext fuel hsent
  simp only at hr
  split_ifs at hr
  · cases hr
    exact hbooks
  · cases hr
    exact hbooks.trans (.of_eq rfl rfl rfl rfl rfl rfl)

theorem sameBooks_submitAskPID (hask : h.submitAskPID wait pid payload evict fuel = some (ok, h')) :
    SameBooks h h' := by
  simp only [submitAskPID] at hask
  cases htr : h.transport h.remoteAsk pid with
  | some remoteAsk =>
    simp only [htr] at hask
    split_ifs at hask
    · cases hask
      exact .of_eq rfl rfl rfl rfl rfl rfl
    · cases hask
      exact .of_eq rfl rfl rfl rfl rfl rfl
  | none =>
    simp only [htr] at hask
    exact sameBooks_submitAsk hask

variable [ReplyPayload π]

theorem sameBooks_sendPID (hsend : h.sendPID pid payload fuel = some (outcome, h')) :
    SameBooks h h' := by
  have hdraw : SameBooks h h.drawID := .of_eq rfl rfl rfl rfl rfl rfl
  simp only [sendPID] at hsend
  split_ifs at hsend
  · obtain ⟨-, rfl⟩ := Prod.mk.inj (some.inj hsend)
    exact .of_eq rfl rfl rfl rfl rfl rfl
  · cases htr : h.transport h.remoteSend pid with
    | some remoteSend =>
      simp only [htr] at hsend
      obtain ⟨-, rfl⟩ := Prod.mk.inj (some.inj hsend)
      exact hdraw
    | none =>
      simp only [htr] at hsend
      exact hdraw.trans (sameBooks_sendResolved hsend)

theorem sameBooks_sendName {name : String}
    (hsend : h.sendName name payload fuel = some (outcome, h')) : SameBooks h h' := by
  simp only [sendName] at hsend
  cases hname : h.lookupName name with
  | none =>
    simp only [hname] at hsend
    cases hsend
    exact .refl _
  | some pid =>
    simp only [hname] at hsend
    exact sameBooks_sendPID hsend

/-- **A step of the host**, by what it does to the books. -/
inductive Does (h : Host π) : HostAction π → Host π → Prop
  | runtime {op : RuntimeAction (Request π)} {h' : Host π} :
      h.toRuntime.Does op h'.toRuntime → Does h (.runtime op) h'
  | unregisters {name : String} :
      Does h (.unregisterName name) (h.after (h.toRuntime.unregisterName name).2)
  | keeps {a : HostAction π} {h' : Host π} : SameBooks h h' → Does h a h'

theorem does_of_step {a : HostAction π} {es : List RuntimeEvent}
    (hstep : h.step a = some (h', es)) : h.Does a h' := by
  cases a with
  | runtime op =>
    simp only [step] at hstep
    split_ifs at hstep
    simp only [map_eq_some_iff] at hstep
    obtain ⟨⟨rt, es⟩, hrt, hr⟩ := hstep
    cases hr
    exact .runtime (Runtime.does_of_step hrt)
  | unregisterName name =>
    cases hstep
    exact .unregisters
  | registerTypeRoute actorID typeName schemaVersion handlerKey =>
    cases hstep
    refine .keeps (sameBooks_orSame fun h' hok => ?_)
    rw [registerTypeRoute_ok hok]
  | registerFallbackRoute actorID handlerKey =>
    cases hstep
    refine .keeps (sameBooks_orSame fun h' hok => ?_)
    rw [registerFallbackRoute_ok hok]
  | configureRouter routerID strategy workers =>
    cases hstep
    refine .keeps (sameBooks_orSame fun h' hok => ?_)
    rw [configureRouter_ok hok]
  | deliverLocal id payload ask fuel =>
    simp only [step, map_eq_some_iff] at hstep
    obtain ⟨⟨result, h1⟩, hsent, hr⟩ := hstep
    cases hr
    exact .keeps (sameBooks_sendWithAskContext fuel hsent)
  | sendPID pid payload fuel =>
    simp only [step, map_eq_some_iff] at hstep
    obtain ⟨⟨outcome, h1⟩, hsent, hr⟩ := hstep
    cases hr
    exact .keeps (sameBooks_sendPID hsent)
  | sendName name payload fuel =>
    simp only [step, map_eq_some_iff] at hstep
    obtain ⟨⟨outcome, h1⟩, hsent, hr⟩ := hstep
    cases hr
    exact .keeps (sameBooks_sendName hsent)
  | ask id payload evict fuel =>
    simp only [step, map_eq_some_iff] at hstep
    obtain ⟨⟨ok, h1⟩, hasked, hr⟩ := hstep
    cases hr
    exact .keeps ((sameBooks_asking h id).trans (sameBooks_submitAsk hasked))
  | askPID pid payload evict fuel =>
    simp only [step, map_eq_some_iff] at hstep
    obtain ⟨⟨ok, h1⟩, hasked, hr⟩ := hstep
    cases hr
    exact .keeps ((sameBooks_asking h pid.actorID).trans (sameBooks_submitAskPID hasked))
  | askReturns wait evict =>
    cases hstep
    exact .keeps (.of_eq rfl rfl rfl rfl rfl rfl)

end Host
end Westcoast
