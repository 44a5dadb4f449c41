import Westcoast.Actor.Ask
import Westcoast.Actor.Routes
import Westcoast.Actor.Runtime

/-!
# A runtime with its routers, type routes and requests

`sendWithAskContext` is the one way into a mailbox; `SendPID`, `SendName`, `AskPID` and
`DeliverLocal` lead to it by different checks. A router passes a message on to a worker, which may
be a router; a call that runs out of `fuel` does not return. The transport is `remoteSend` or
`remoteAsk`.
-/
namespace Westcoast

open Lib Option

/-- A payload with the request it belongs to, as it lies in a mailbox. -/
structure Request (π : Type) where
  payload : π
  ask : Option AskRequestContext

instance {π : Type} [Inhabited π] : Inhabited (Request π) := ⟨⟨default, none⟩⟩

/-- Go's strings as payloads. -/
instance : Payload String := ⟨fun _ => "string", fun _ => none, fun _ => none⟩

instance : ReplyPayload String := ⟨fun _ => none⟩

/-- All that decides about a send. `randSrc` is what the random source returns, one after the other.
-/
structure Host (π : Type) extends Runtime (Request π) where
  routers : AList (fun _ : String => RouterState)
  routing : TypeRoutingRegistry
  randSrc : ℕ → ℕ
  randNext : ℕ
  asks : AskTable π
  remoteAsk : Option (PID → PIDDeliveryOutcome)
  clusterLookup : Option (String → Option PID)

namespace Host

variable {π : Type}

def new (nodeID : String) (remoteSend remoteAsk : Option (PID → PIDDeliveryOutcome))
    (clusterLookup : Option (String → Option PID)) (randSrc : ℕ → ℕ) : Host π where
  toRuntime := .new nodeID remoteSend
  routers := ∅
  routing := ∅
  randSrc := randSrc
  randNext := 0
  asks := .new
  remoteAsk := remoteAsk
  clusterLookup := clusterLookup

def registerTypeRoute (h : Host π) (actorID typeName schemaVersion handlerKey : String) :
    Except RuntimeError (Host π) :=
  if (h.registry.lookup actorID).isNone then .error .actorNotFound
  else .ok { h with routing := h.routing.registerExact actorID typeName schemaVersion handlerKey }

def registerFallbackRoute (h : Host π) (actorID handlerKey : String) :
    Except RuntimeError (Host π) :=
  if (h.registry.lookup actorID).isNone then .error .actorNotFound
  else .ok { h with routing := h.routing.registerFallback actorID handlerKey }

/-- `ConfigureRouter`, which begins the rotation anew. -/
def configureRouter (h : Host π) (routerID : String) (strategy : RouterStrategy)
    (workers : List String) : Except RuntimeError (Host π) :=
  if (h.registry.lookup routerID).isNone then .error .actorNotFound
  else .ok { h with routers := h.routers.insert routerID (.configure strategy workers) }

def lookupName (h : Host π) (name : String) : Option PID :=
  h.toRuntime.lookupName h.clusterLookup name

def messages (h : Host π) (id : String) : List (Message (Request π)) :=
  match h.registry.lookup id with
  | none => []
  | some a => a.mailbox.toList

def setMailbox (h : Host π) (id : String) (a : ActorEntry (Request π))
    (mailbox : Mailbox (Message (Request π))) : Host π :=
  { h with registry := h.registry.insert id { a with mailbox := mailbox } }

def drawID (h : Host π) : Host π := { h with msgSeq := h.msgSeq + 1 }

def advance (h : Host π) (routerID : String) (router : RouterState) : Host π :=
  { h with
    routers := h.routers.insert routerID router.advance
    randNext :=
      if router.strategy = .random ∧ router.workers ≠ [] then h.randNext + 1 else h.randNext }

section
variable [Inhabited π] [Payload π]

/-- What `resolve` says about a payload for an actor. -/
def routeMatch (h : Host π) (id : String) (payload : π) : RouteMatch :=
  (h.routing.resolve id (Payload.typeName payload) (messageSchemaVersion payload)).routeMatch

/-- `sendWithAskContext` for an actor that is no router: the status, the type routes, the mailbox.
-/
def deliver (h : Host π) (id : String) (payload : π) (ask : Option AskRequestContext) :
    SubmitResult × Host π :=
  match h.registry.lookup id with
  | none => (.rejectedFound, h)
  | some a =>
    if a.status = .stopped then (.rejectedStop, h)
    else
      match h.routeMatch id payload with
      | .versionMismatch => (.rejectedVersionMismatch, h)
      | .unsupportedType => (.rejectedUnsupportedType, h)
      | .noRules | .exact | .fallback =>
        let (result, mailbox) := a.mailbox.enqueue ⟨h.msgSeq, ⟨payload, ask⟩⟩
        (result, h.setMailbox id a mailbox)

/-- `sendWithAskContext`, with `dispatchRouted`; a missing payload is Go's `nil`. -/
def sendWithAskContext (h : Host π) (id : String) (payload : Option π)
    (ask : Option AskRequestContext) : ℕ → Option (SubmitResult × Host π)
  | 0 => none
  | fuel + 1 =>
    match payload with
    | none => some (.rejectedNilPayload, h.drawID)
    | some p =>
      match h.routers.lookup id with
      | none => some (h.drawID.deliver id p ask)
      | some router =>
        match h.registry.lookup id with
        | none => some (.rejectedFound, h.drawID)
        | some a =>
          if a.status = .stopped then some (.rejectedStop, h.drawID)
          else
            match router.selectWorker (h.randSrc h.randNext) p with
            | .error _ => some (.rejectedFound, (h.drawID.drawID).advance id router)
            | .ok worker =>
              ((h.drawID.drawID).advance id router).sendWithAskContext worker payload ask fuel

def send (h : Host π) (id : String) (payload : Option π) (fuel : ℕ) :
    Option (SubmitResult × Host π) :=
  h.sendWithAskContext id payload none fuel

def deliverLocal (h : Host π) (id : String) (payload : Option π) (ask : Option AskRequestContext)
    (fuel : ℕ) : Option (SubmitResult × Host π) :=
  h.sendWithAskContext id payload ask fuel

/-- Why the local part of `SendPID` refuses an identifier, if it does. -/
def refusal (h : Host π) (pid : PID) : Option PIDDeliveryOutcome :=
  match h.resolver.resolve pid with
  | none =>
    some (if (h.registry.lookup pid.actorID).isNone then .rejectedNotFound else .unresolved)
  | some entry =>
    if entry.routeState = .stopped then some .rejectedStopped
    else if pid.generation ≠ entry.currentGeneration then some .rejectedStaleGeneration
    else if h.resolver.mode = .gatewayMediated ∧ !h.resolver.gwUp then some .unresolved
    else none

/-- The local part of `SendPID`. -/
def sendResolved (h : Host π) (pid : PID) (payload : Option π) (fuel : ℕ) :
    Option (PIDDeliveryOutcome × Host π) :=
  match h.refusal pid with
  | some outcome => some (outcome, h)
  | none =>
    (h.send pid.actorID payload fuel).map fun r =>
      (if r.1 = .accepted then .delivered else .rejectedStopped, r.2)

/-- The transport for an identifier of another node. -/
def transport (h : Host π) (send : Option (PID → PIDDeliveryOutcome)) (pid : PID) :
    Option (PID → PIDDeliveryOutcome) :=
  if pid.isRemote h.nodeID then send else none

/-- `SendPID`: a reply, a remote actor or a local one. -/
def sendPID [ReplyPayload π] (h : Host π) (pid : PID) (payload : Option π) (fuel : ℕ) :
    Option (PIDDeliveryOutcome × Host π) :=
  if askReplyHere h.nodeID pid then
    let (outcome, asks) := h.asks.routeAskReply pid (.of payload)
    some (outcome, { h.drawID with asks := asks })
  else
    match h.transport h.remoteSend pid with
    | some remoteSend => some (remoteSend pid, h.drawID)
    | none => h.drawID.sendResolved pid payload fuel

def asking (h : Host π) (targetActor : String) : Host π :=
  { h with asks := (h.asks.newAskRequest h.nodeID targetActor).2 }

def abandon (h : Host π) (wait : PendingAsk) (evict : ℕ) : Host π :=
  { h with asks := h.asks.completeAskRequest wait evict }

/-- `Ask` after the request is entered: whether it is on its way. -/
def submitAsk (h : Host π) (wait : PendingAsk) (id : String) (payload : Option π)
    (evict fuel : ℕ) : Option (Bool × Host π) :=
  (h.sendWithAskContext id payload (some ⟨wait.requestID, wait.replyTo⟩) fuel).map
    fun r => if r.1 = .accepted then (true, r.2) else (false, r.2.abandon wait evict)

/-- `AskPID` after the request is entered: whether it is on its way. -/
def submitAskPID (h : Host π) (wait : PendingAsk) (pid : PID) (payload : Option π)
    (evict fuel : ℕ) : Option (Bool × Host π) :=
  match h.transport h.remoteAsk pid with
  | some remoteAsk =>
    some (if remoteAsk pid = .delivered then (true, h.drawID)
      else (false, h.drawID.abandon wait evict))
  | none => h.submitAsk wait pid.actorID payload evict fuel

def ask (h : Host π) (id : String) (payload : Option π) (evict fuel : ℕ) : Option (Bool × Host π) :=
  (h.asking id).submitAsk (h.asks.newAskRequest h.nodeID id).1 id payload evict fuel

def askPID (h : Host π) (pid : PID) (payload : Option π) (evict fuel : ℕ) :
    Option (Bool × Host π) :=
  (h.asking pid.actorID).submitAskPID (h.asks.newAskRequest h.nodeID pid.actorID).1 pid payload
    evict fuel

/-- `SendName`, by the name at the time of the send. -/
def sendName [ReplyPayload π] (h : Host π) (name : String) (payload : Option π) (fuel : ℕ) :
    Option (PIDDeliveryOutcome × Host π) :=
  match h.lookupName name with
  | none => some (.rejectedNotFound, h)
  | some pid => h.sendPID pid payload fuel

end

/-! ### What a send does to the mailboxes -/

@[simp] theorem messages_asking (h : Host π) (targetActor id : String) :
    (h.asking targetActor).messages id = h.messages id := rfl

@[simp] theorem refusal_drawID (h : Host π) (pid : PID) : h.drawID.refusal pid = h.refusal pid :=
  rfl

variable {h h' : Host π} {pid : PID}

theorem transport_self (hns : pid.ns = h.nodeID) (send : Option (PID → PIDDeliveryOutcome)) :
    h.transport send pid = none := by
  simp [transport, PID.isRemote, hns]

theorem messages_setMailbox (h : Host π) (id x : String) (a : ActorEntry (Request π))
    (mailbox : Mailbox (Message (Request π))) : (h.setMailbox id a mailbox).messages x =
      if x = id then mailbox.toList else h.messages x := by
  simp only [messages, setMailbox, lookup_insert_ite]
  split_ifs with hx <;> simp

variable [Payload π]

/-- Whether an actor that is no router takes a payload into its mailbox. -/
def admits (h : Host π) (id : String) (payload : π) : Bool :=
  match h.registry.lookup id with
  | none => false
  | some a =>
    a.status ≠ .stopped && (h.routeMatch id payload).admits && !a.mailbox.closed &&
      a.mailbox.depth < a.mailbox.max

@[simp] theorem admits_drawID (h : Host π) (id : String) (p : π) :
    h.drawID.admits id p = h.admits id p := rfl

/-- The actor addressed by its name is no router and takes the message into its mailbox. -/
def takes (h : Host π) (id : String) (payload : π) : Bool :=
  (h.routers.lookup id).isNone && h.admits id payload

@[simp] theorem takes_drawID (h : Host π) (id : String) (p : π) :
    h.drawID.takes id p = h.takes id p := rfl

@[simp] theorem takes_asking (h : Host π) (targetActor id : String) (p : π) :
    (h.asking targetActor).takes id p = h.takes id p := rfl

variable [Inhabited π]

variable {id : String} {p : π}

theorem deliver_eq {a : ActorEntry (Request π)} (ha : h.registry.lookup id = some a)
    (hst : a.status ≠ .stopped) (hroute : (h.routeMatch id p).admits = true)
    (ask : Option AskRequestContext) :
    h.deliver id p ask = ((a.mailbox.enqueue ⟨h.msgSeq, ⟨p, ask⟩⟩).1,
        h.setMailbox id a (a.mailbox.enqueue ⟨h.msgSeq, ⟨p, ask⟩⟩).2) := by
  simp only [deliver, ha, if_neg hst]
  cases hm : h.routeMatch id p with
  | noRules | exact | fallback => rfl
  | unsupportedType | versionMismatch => simp [hm, RouteMatch.admits] at hroute

theorem deliver_refused (hno : ∀ a, h.registry.lookup id = some a → a.status ≠ .stopped →
      (h.routeMatch id p).admits = false) (ask : Option AskRequestContext) :
    (h.deliver id p ask).1 ≠ .accepted ∧ (h.deliver id p ask).2 = h := by
  simp only [deliver]
  cases ha : h.registry.lookup id with
  | none => exact ⟨by simp, rfl⟩
  | some a =>
    simp only
    split_ifs with hst
    · exact ⟨by simp, rfl⟩
    · have hroute := hno a ha hst
      cases hm : h.routeMatch id p with
      | noRules | exact | fallback => simp [hm, RouteMatch.admits] at hroute
      | unsupportedType | versionMismatch => exact ⟨by simp, rfl⟩

/-- A send to an actor that is no router goes to its mailbox or nowhere. -/
structure Delivered (h : Host π) (id : String) (p : π) (ask : Option AskRequestContext)
    (result : SubmitResult) (h' : Host π) : Prop where
  routers : h'.routers = h.routers
  others : ∀ x, x ≠ id → h'.messages x = h.messages x
  accepted : result = .accepted ↔ h.admits id p = true
  messages : h'.messages id =
    if h.admits id p then h.messages id ++ [⟨h.msgSeq, ⟨p, ask⟩⟩] else h.messages id

theorem delivered (h : Host π) (id : String) (p : π) (ask : Option AskRequestContext) :
    Delivered h id p ask (h.deliver id p ask).1 (h.deliver id p ask).2 := by
  by_cases hin : ∃ a, h.registry.lookup id = some a ∧ a.status ≠ .stopped ∧
      (h.routeMatch id p).admits = true
  · obtain ⟨a, ha, hst, hroute⟩ := hin
    have hadmits : h.admits id p = true ↔
        (a.mailbox.enqueue ⟨h.msgSeq, ⟨p, ask⟩⟩).1 = .accepted := by
      simp [admits, ha, hst, hroute, Mailbox.enqueue_accepted_iff]
    rw [deliver_eq ha hst hroute]
    refine ⟨rfl, ?_, hadmits.symm, ?_⟩
    · intro x hx
      rw [messages_setMailbox, if_neg hx]
    · have hold : h.messages id = a.mailbox.toList := by simp [Host.messages, ha]
      rw [messages_setMailbox, if_pos rfl, hold]
      by_cases hacc : (a.mailbox.enqueue ⟨h.msgSeq, ⟨p, ask⟩⟩).1 = .accepted
      · rw [if_pos (hadmits.mpr hacc), Mailbox.toList_enqueue _ _ hacc]
      · rw [if_neg (mt hadmits.mp hacc), Mailbox.enqueue_refused _ _ hacc]
  · have hno : ∀ a, h.registry.lookup id = some a → a.status ≠ .stopped →
        (h.routeMatch id p).admits = false := by
      intro a ha hst
      by_contra hroute
      exact hin ⟨a, ha, hst, by simpa using hroute⟩
    have hadmits : h.admits id p = false := by
      simp only [admits]
      cases ha : h.registry.lookup id with
      | none => rfl
      | some a =>
        by_cases hst : a.status = .stopped
        · simp [hst]
        · simp [hno a ha hst]
    obtain ⟨hresult, hsame⟩ := deliver_refused hno ask
    rw [hsame]
    exact ⟨rfl, fun x _ => rfl, by simp [hresult, hadmits], by simp [hadmits]⟩

theorem sendWithAskContext_of_not_router (hr : h.routers.lookup id = none) (p : π)
    (ask : Option AskRequestContext) (fuel : ℕ) :
    h.sendWithAskContext id (some p) ask (fuel + 1) = some (h.drawID.deliver id p ask) := by
  simp only [sendWithAskContext, hr]

variable {payload : Option π} {result : SubmitResult}

variable {ask : Option AskRequestContext}

/-- **What a send does:** it draws identifiers, makes routers select, and delivers to one actor at
most, which is no router. -/
theorem sendWithAskContext_rel {R : Host π → Host π → Prop}
    (trans : ∀ h₁ h₂ h₃, R h₁ h₂ → R h₂ h₃ → R h₁ h₃) (draw : ∀ h, R h h.drawID)
    (pass : ∀ h id router, h.routers.lookup id = some router → R h (h.advance id router))
    (delivery : ∀ h id p ask, h.routers.lookup id = none → R h (h.deliver id p ask).2) (fuel : ℕ)
    (hsend : h.sendWithAskContext id payload ask fuel = some (result, h')) : R h h' := by
  induction fuel generalizing h id with
  | zero => cases hsend
  | succ fuel ih =>
    simp only [sendWithAskContext] at hsend
    cases payload with
    | none =>
      cases hsend
      exact draw h
    | some p =>
      simp only at hsend
      cases hr : h.routers.lookup id with
      | none =>
        simp only [hr, some.injEq] at hsend
        have hdelivered := delivery h.drawID id p ask hr
        rw [hsend] at hdelivered
        exact trans _ _ _ (draw h) hdelivered
      | some router =>
        have hpassed : R h (h.drawID.drawID.advance id router) :=
          trans _ _ _ (draw h) (trans _ _ _ (draw _) (pass _ id router hr))
        simp only [hr] at hsend
        cases ha : h.registry.lookup id with
        | none =>
          simp only [ha] at hsend
          cases hsend
          exact draw h
        | some a =>
          simp only [ha] at hsend
          split_ifs at hsend
          · cases hsend
            exact draw h
          · split at hsend
            · cases hsend
              exact hpassed
            · exact trans _ _ _ hpassed (ih hsend)

theorem messages_router {x : String} (fuel : ℕ) (hx : (h.routers.lookup x).isSome = true)
    (hsend : h.sendWithAskContext id payload ask fuel = some (result, h')) :
    h'.messages x = h.messages x := by
  let R (h h' : Host π) : Prop := (h.routers.lookup x).isSome = true →
    (h'.routers.lookup x).isSome = true ∧ h'.messages x = h.messages x
  have hrel : R h h' := by
    refine sendWithAskContext_rel ?_ ?_ ?_ ?_ fuel hsend
    · intro h1 h2 h3 h12 h23 hx
      obtain ⟨hx2, heq2⟩ := h12 hx
      obtain ⟨hx3, heq3⟩ := h23 hx2
      exact ⟨hx3, heq3.trans heq2⟩
    · exact fun h hx => ⟨hx, rfl⟩
    · intro h id router _ hx
      refine ⟨?_, rfl⟩
      simp only [advance, lookup_insert_ite]
      split_ifs
      · rfl
      · exact hx
    · intro h id p ask hid hx
      have hd := delivered h id p ask
      have hne : x ≠ id := by
        rintro rfl
        rw [hid] at hx
        cases hx
      exact ⟨by rw [hd.routers]; exact hx, hd.others x hne⟩
  exact (hrel hx).2

variable {fuel : ℕ}

theorem messages_of_not_takes (htakes : h.takes id p = false)
    (hsend : h.sendWithAskContext id (some p) ask fuel = some (result, h')) :
    h'.messages id = h.messages id := by
  cases hr : h.routers.lookup id with
  | some router => exact messages_router fuel (by rw [hr]; rfl) hsend
  | none =>
    cases fuel with
    | zero => cases hsend
    | succ fuel =>
      rw [sendWithAskContext_of_not_router hr, some.injEq] at hsend
      have hd := (delivered h.drawID id p ask).messages
      have hadmits : h.drawID.admits id p = false := by
        simpa [takes, hr] using htakes
      rw [hsend, hadmits] at hd
      exact hd

theorem messages_of_takes (htakes : h.takes id p = true) (ask : Option AskRequestContext)
    (fuel : ℕ) : ∃ h', h.sendWithAskContext id (some p) ask (fuel + 1) = some (.accepted, h') ∧
      h'.messages id = h.messages id ++ [⟨h.msgSeq + 1, ⟨p, ask⟩⟩] := by
  simp only [takes, Bool.and_eq_true, isNone_iff_eq_none] at htakes
  have hd := delivered h.drawID id p ask
  refine ⟨(h.drawID.deliver id p ask).2, ?_, ?_⟩
  · rw [sendWithAskContext_of_not_router htakes.1]
    exact congrArg some (Prod.ext (hd.accepted.mpr htakes.2) rfl)
  · rw [hd.messages, admits_drawID, if_pos htakes.2]
    rfl

/-! ### Identifiers of this node -/

variable {outcome : PIDDeliveryOutcome}

theorem sendResolved_cases (hsend : h.sendResolved pid payload fuel = some (outcome, h')) :
    h.refusal pid = some outcome ∧ h' = h ∨ h.refusal pid = none ∧
      ∃ result, h.send pid.actorID payload fuel = some (result, h') ∧
        outcome = if result = .accepted then .delivered else .rejectedStopped := by
  unfold sendResolved at hsend
  split at hsend
  · next reason hreason =>
    cases hsend
    exact .inl ⟨hreason, rfl⟩
  · next hnone =>
    obtain ⟨⟨result, h1⟩, hsent, heq⟩ := map_eq_some_iff.mp hsend
    cases heq
    exact .inr ⟨hnone, result, hsent, rfl⟩

theorem messages_sendPID_refused [ReplyPayload π]
    (hns : pid.ns = h.nodeID) (hrefused : (h.refusal pid).isSome = true)
    (hsend : h.sendPID pid payload fuel = some (outcome, h')) (id : String) :
    h'.messages id = h.messages id := by
  obtain ⟨reason, hreason⟩ := isSome_iff_exists.mp hrefused
  simp only [sendPID, transport_self hns, sendResolved, refusal_drawID, hreason] at hsend
  split_ifs at hsend
  · cases hsend
    rfl
  · cases hsend
    rfl

theorem askPID_self (hns : pid.ns = h.nodeID) (payload : Option π) (evict fuel : ℕ) :
    h.askPID pid payload evict fuel =
      let wait := (h.asks.newAskRequest h.nodeID pid.actorID).1
      ((h.asking pid.actorID).sendWithAskContext pid.actorID payload
        (some ⟨wait.requestID, wait.replyTo⟩) fuel).map fun r =>
          if r.1 = .accepted then (true, r.2) else (false, r.2.abandon wait evict) := by
  have hself : pid.ns = (h.asking pid.actorID).nodeID := hns
  simp only [askPID, submitAskPID, submitAsk, transport_self hself]

theorem messages_askPID_of_not_takes {payload : π} {evict : ℕ} {ok : Bool}
    (hns : pid.ns = h.nodeID) (htakes : h.takes pid.actorID payload = false)
    (hask : h.askPID pid (some payload) evict fuel = some (ok, h')) :
    h'.messages pid.actorID = h.messages pid.actorID := by
  rw [askPID_self hns, map_eq_some_iff] at hask
  obtain ⟨⟨result, h1⟩, hsend, hr⟩ := hask
  have hkeep : h1.messages pid.actorID = (h.asking pid.actorID).messages pid.actorID :=
    messages_of_not_takes (by rw [takes_asking]; exact htakes) hsend
  simp only at hr
  split_ifs at hr
  · cases hr
    exact hkeep
  · cases hr
    exact hkeep

end Host
end Westcoast
