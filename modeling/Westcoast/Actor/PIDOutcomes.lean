import Westcoast.Actor.Pending
import Westcoast.Actor.Traps

/-!
# What `SendPID` reports

`SendPID` asks the pending requests, the resolver and `Send` one after the other. `rejectedStopped`
stands for everything that `Send` does not accept, so it is right only where the addressed actor has
indeed stopped. `Leads (nextCall p)` is how routers pass a message on.
-/
namespace Westcoast

open Lib Option AskTable

variable {π : Type}

/-! ## Replies -/

namespace AskTable

/-- The maps agree, and the channel of a pending request is empty. -/
structure Ready (nodeID : String) (t : AskTable π) : Prop extends Sound nodeID t where
  empty : ∀ r, t.pending r = true → t.waitCh.lookup r = some none

theorem ready_new (nodeID : String) : Ready nodeID (new : AskTable π) :=
  ⟨sound_new nodeID, fun _ h => by cases h⟩

variable {nodeID : String} {t : AskTable π}

section
variable (h : t.Ready nodeID)
include h

theorem Ready.draw : t.draw.Ready nodeID := ⟨⟨h.wait, h.reply⟩, h.empty⟩

variable {wait : PendingAsk}

theorem Ready.enter (hto : wait.replyTo = replyAddress nodeID wait.requestID) :
    (t.enter wait).Ready nodeID := by
  refine ⟨h.toSound.enter hto, fun r hr => ?_⟩
  simp only [AskTable.enter, lookup_insert_ite]
  split_ifs with heq
  · rfl
  · rw [pending_enter, Bool.or_eq_true, decide_eq_true_eq] at hr
    exact h.empty r (hr.resolve_left heq)

theorem Ready.newAskRequest (targetActor : String) :
    (t.newAskRequest nodeID targetActor).2.Ready nodeID :=
  h.draw.enter rfl

variable {t' : AskTable π}

theorem Ready.remove {r : String} (hwait : t'.askWait = t.askWait.erase r)
    (hreply : t'.askReply = t.askReply.erase (replyAddress nodeID r).key)
    (hchannels : ∀ r', r' ≠ r → t'.waitCh.lookup r' = t.waitCh.lookup r') : t'.Ready nodeID := by
  refine ⟨h.toSound.remove hwait hreply, fun r' hr' => ?_⟩
  rw [pending_of_erase hwait, Bool.and_eq_true, decide_eq_true_eq] at hr'
  rw [hchannels r' hr'.1, h.empty r' hr'.2]

theorem Ready.complete (hto : wait.replyTo = replyAddress nodeID wait.requestID) (evict : ℕ) :
    (t.completeAskRequest wait evict).Ready nodeID :=
  h.remove rfl (by rw [← hto]; rfl) fun _ _ => rfl

/-- What `routeAskReply` does with an identifier that it takes for one of its own. -/
inductive Replied (nodeID : String) (t : AskTable π) (pid : PID) :
    PIDDeliveryOutcome → AskTable π → Prop
  | late (hnone : t.askReply.lookup pid.key = none)
      (hclosed : (t.askClosed.lookup pid.actorID).isSome = true) :
      Replied nodeID t pid .rejectedStopped t
  | stray (hnone : t.askReply.lookup pid.key = none) : Replied nodeID t pid .rejectedNotFound t
  | mismatch {w : PendingAsk} {t' : AskTable π} (htaken : Taken nodeID t pid w t') :
      Replied nodeID t pid .rejectedNotFound t'
  | answered {w : PendingAsk} {t' : AskTable π} (htaken : Taken nodeID t pid w t')
      (env : AskReplyEnvelope π) :
      Replied nodeID t pid .delivered { t' with waitCh := t'.waitCh.insert w.requestID (some env) }

variable {pid : PID}

theorem replied (hhere : askReplyHere nodeID pid = true) (reply : Reply π) :
    Replied nodeID t pid (t.routeAskReply pid reply).1 (t.routeAskReply pid reply).2 := by
  simp only [routeAskReply, matchReply]
  cases hkey : t.askReply.lookup pid.key with
  | none =>
    by_cases hclosed : (t.askClosed.lookup pid.actorID).isSome = true
    · simp only [hclosed, if_true]
      exact .late hkey hclosed
    · simp only [hclosed]
      exact .stray hkey
  | some r =>
    obtain ⟨hp, hk⟩ := (h.reply pid.key r).mp hkey
    obtain ⟨w, hw⟩ := isSome_iff_exists.mp hp
    obtain ⟨rfl, -⟩ := h.wait r w hw
    have htaken : Taken nodeID t pid w (t.close pid.key w.requestID w.targetActor) :=
      ⟨hp, eq_replyAddress_of_key hhere hk, rfl⟩
    simp only [hw, map_some, getD_some]
    split_ifs
    · exact .mismatch htaken
    · have hempty : (t.close pid.key w.requestID w.targetActor).waitCh.lookup w.requestID =
          some none := h.empty _ hp
      simp only [offer, hempty]
      exact .answered htaken _

end

theorem Replied.ready {o : PIDDeliveryOutcome} (hr : Replied nodeID t pid o t')
    (h : t.Ready nodeID) : t'.Ready nodeID := by
  have hremove : ∀ {w : PendingAsk} {t' : AskTable π}, Taken nodeID t pid w t' →
      ∀ t'' : AskTable π, t''.askWait = t'.askWait → t''.askReply = t'.askReply →
        (∀ r, r ≠ w.requestID → t''.waitCh.lookup r = t'.waitCh.lookup r) → t''.Ready nodeID := by
    intro w t' htaken t'' hwait hreply hchannels
    have hkey : pid.key = (replyAddress nodeID w.requestID).key := by rw [htaken.sentTo]; rfl
    rw [htaken.asks] at hwait hreply hchannels
    exact h.remove hwait (by rw [hreply, ← hkey]; rfl) hchannels
  cases hr with
  | late => exact h
  | stray => exact h
  | mismatch htaken => exact hremove htaken _ rfl rfl fun _ _ => rfl
  | answered htaken env =>
    refine hremove htaken _ rfl rfl fun r hne => ?_
    exact AList.lookup_insert_ne hne

end AskTable

namespace Host

/-! ## The requests of a host are ready -/

def OwnRequests (h : Host π) : HostAction π → Prop
  | .askReturns wait _ => wait.replyTo = replyAddress h.nodeID wait.requestID
  | _ => True

instance ownRequestsDecidable (h : Host π) (a : HostAction π) : Decidable (h.OwnRequests a) := by
  cases a <;> unfold OwnRequests <;> infer_instance

section Requests
variable [Payload π] [Inhabited π]

variable {h h' : Host π}

theorem ready_sendPID [ReplyPayload π] (hready : h.asks.Ready h.nodeID) {pid : PID}
    {payload : Option π} {fuel : ℕ} {outcome : PIDDeliveryOutcome}
    (hsend : h.sendPID pid payload fuel = some (outcome, h')) : h'.asks.Ready h.nodeID := by
  simp only [sendPID] at hsend
  split_ifs at hsend with hhere
  · cases hsend
    exact (replied hready hhere (.of payload)).ready hready
  · split at hsend
    · cases hsend
      exact hready
    · rw [(sameAsks_sendResolved hsend).asks]
      exact hready

theorem ready_step [ReplyPayload π] {a : HostAction π} {es : List RuntimeEvent}
    (hready : h.asks.Ready h.nodeID) (hown : h.OwnRequests a) (hstep : h.step a = some (h', es)) :
    h'.asks.Ready h.nodeID := by
  have hquiet : a.asksNothing = true → h'.asks.Ready h.nodeID := fun hnothing => by
    rw [(sameAsks_step hnothing hstep).asks]
    exact hready
  have hasked : ∀ {targetActor : String} {ok : Bool} {evict : ℕ},
      (h'.asks = if ok then (h.asking targetActor).asks else
        (h.asking targetActor).asks.completeAskRequest
          (h.asks.newAskRequest h.nodeID targetActor).1 evict) → h'.asks.Ready h.nodeID := by
    intro targetActor ok evict hasks
    have hnew : (h.asking targetActor).asks.Ready h.nodeID := hready.newAskRequest targetActor
    rw [hasks]
    split_ifs
    · exact hnew
    · exact hnew.complete rfl evict
  cases a with
  | runtime op | unregisterName name
  | registerTypeRoute actorID typeName schemaVersion handlerKey
  | registerFallbackRoute actorID handlerKey | configureRouter routerID strategy workers =>
    exact hquiet rfl
  | deliverLocal id payload ask fuel =>
    simp only [step, map_eq_some_iff] at hstep
    obtain ⟨⟨result, h1⟩, hsent, hr⟩ := hstep
    obtain ⟨rfl, -⟩ := Prod.mk.inj hr
    rw [(sameAsks_sendWithAskContext hsent).asks]
    exact hready
  | sendPID pid payload fuel =>
    simp only [step, map_eq_some_iff] at hstep
    obtain ⟨⟨outcome, h1⟩, hsent, hr⟩ := hstep
    obtain ⟨rfl, -⟩ := Prod.mk.inj hr
    exact ready_sendPID hready hsent
  | sendName name payload fuel =>
    simp only [step, map_eq_some_iff, sendName] at hstep
    obtain ⟨⟨outcome, h1⟩, hsent, hr⟩ := hstep
    obtain ⟨rfl, -⟩ := Prod.mk.inj hr
    split at hsent
    · cases hsent
      exact hready
    · exact ready_sendPID hready hsent
  | ask id payload evict fuel =>
    simp only [step, map_eq_some_iff] at hstep
    obtain ⟨⟨ok, h1⟩, hsent, hr⟩ := hstep
    obtain ⟨rfl, -⟩ := Prod.mk.inj hr
    exact hasked (submitAsk_asks hsent)
  | askPID pid payload evict fuel =>
    simp only [step, map_eq_some_iff] at hstep
    obtain ⟨⟨ok, h1⟩, hsent, hr⟩ := hstep
    obtain ⟨rfl, -⟩ := Prod.mk.inj hr
    exact hasked (submitAskPID_asks hsent)
  | askReturns wait evict =>
    obtain ⟨rfl, -⟩ := Prod.mk.inj (some.inj hstep)
    exact hready.complete hown evict

theorem ready_run [ReplyPayload π] {nodeID : String}
    {remoteSend remoteAsk : Option (PID → PIDDeliveryOutcome)}
    {clusterLookup : Option (String → Option PID)} {randSrc : ℕ → ℕ} {tr : List RuntimeEvent}
    (hrun : Run step OwnRequests (.new nodeID remoteSend remoteAsk clusterLookup randSrc) tr h) :
    h.nodeID = nodeID ∧ h.asks.Ready nodeID := by
  refine hrun.invariant_state (fun h => h.nodeID = nodeID ∧ h.asks.Ready nodeID)
    ⟨rfl, ready_new nodeID⟩ ?_
  rintro h a h' es ⟨rfl, hready⟩ hown hstep
  exact ⟨nodeID_step hstep, ready_step hready hown hstep⟩

end Requests

/-! ## Where a send ends -/

section Sends
variable [Payload π]

/-- The last call was at an actor that takes the message and has it, or at one that does not, and
all mailboxes are as before. -/
structure SentTo (h : Host π) (id : String) (p : π) (ask : Option AskRequestContext)
    (result : SubmitResult) (h' : Host π) (y : Host π × String) : Prop where
  leads : Leads (nextCall p) (h, id) y
  last : nextCall p y = none
  accepted : result = .accepted ↔ y.1.takes y.2 p = true
  taken : y.1.takes y.2 p = true → ∃ msgID, h'.messages y.2 = h.messages y.2 ++ [⟨msgID, ⟨p, ask⟩⟩]
  refused : y.1.takes y.2 p = false → ∀ z, h'.messages z = h.messages z

variable {p : π}

theorem nextCall_of_takes {y : Host π × String} (h : y.1.takes y.2 p = true) :
    nextCall p y = none := by
  simp only [takes, Bool.and_eq_true, isNone_iff_eq_none] at h
  simp only [nextCall, passOn, h.1]

variable {h h' : Host π} {id : String}

theorem takes_of_router {router : RouterState} (hr : h.routers.lookup id = some router) (p : π) :
    h.takes id p = false := by
  simp [takes, hr]

variable [Inhabited π]

variable {ask : Option AskRequestContext} {result : SubmitResult}

theorem sentTo_last {fuel : ℕ} (hlast : nextCall p (h, id) = none)
    (hsend : h.sendWithAskContext id (some p) ask (fuel + 1) = some (result, h')) :
    SentTo h id p ask result h' (h, id) := by
  cases hr : h.routers.lookup id with
  | none =>
    rw [sendWithAskContext_of_not_router hr, some.injEq] at hsend
    have hd := delivered h.drawID id p ask
    rw [hsend] at hd
    have htakes : h.takes id p = h.drawID.admits id p := by simp [takes, hr]
    refine ⟨.refl, hlast, by rw [hd.accepted, htakes], fun ht => ⟨h.drawID.msgSeq, ?_⟩,
      fun ht z => ?_⟩
    · rw [hd.messages, if_pos (htakes ▸ ht)]
      rfl
    · by_cases hz : z = id
      · rw [hz, hd.messages, if_neg (by rw [← htakes, ht]; exact Bool.false_ne_true)]
        rfl
      · exact hd.others z hz
  | some router =>
    have htakes := takes_of_router hr p
    have hrefused : result ≠ .accepted ∧ ∀ z, h'.messages z = h.messages z := by
      simp only [sendWithAskContext, hr] at hsend
      simp only [nextCall, passOn, hr] at hlast
      cases ha : h.registry.lookup id with
      | none =>
        simp only [ha] at hsend
        cases hsend
        exact ⟨by simp, fun _ => rfl⟩
      | some a =>
        simp only [ha] at hsend hlast
        split_ifs at hsend hlast
        · cases hsend
          exact ⟨by simp, fun _ => rfl⟩
        · split at hsend
          · cases hsend
            exact ⟨by simp, fun _ => rfl⟩
          · next worker hsel =>
            rw [hsel] at hlast
            cases hlast
    exact ⟨.refl, hlast, by simp [hrefused.1, htakes], by simp [htakes], fun _ => hrefused.2⟩

theorem exists_sentTo (fuel : ℕ)
    (hsend : h.sendWithAskContext id (some p) ask fuel = some (result, h')) :
    ∃ y, SentTo h id p ask result h' y := by
  induction fuel generalizing h id with
  | zero => cases hsend
  | succ fuel ih =>
    cases hnext : nextCall p (h, id) with
    | none => exact ⟨_, sentTo_last hnext hsend⟩
    | some x =>
      obtain ⟨h1, worker⟩ := x
      have hcall := (fuelLoop_send p ask).calls _ _ fuel hnext
      obtain ⟨y, hy⟩ := ih (hcall.symm.trans hsend)
      obtain ⟨router, a, -, -, -, -, hhost⟩ := passOn_eq_some.mp hnext
      have hsame : ∀ z, h1.messages z = h.messages z := by
        intro z
        rw [show h1 = _ from hhost]
        rfl
      refine ⟨y, .head hnext hy.leads, hy.last, hy.accepted, fun ht => ?_, fun ht z => ?_⟩
      · obtain ⟨msgID, hmsg⟩ := hy.taken ht
        exact ⟨msgID, by rw [hmsg, hsame]⟩
      · rw [hy.refused ht, hsame]

end Sends

/-! ## The outcomes -/

def Enqueued (h h' : Host π) (payload : Option π) : Prop :=
  ∃ id msgID p, payload = some p ∧ h'.messages id = h.messages id ++ [⟨msgID, ⟨p, none⟩⟩]

def Completed (h h' : Host π) : Prop :=
  ∃ r env, h.asks.pending r = true ∧ h.asks.waitCh.lookup r = some none ∧
    h'.asks.pending r = false ∧ h'.asks.waitCh.lookup r = some (some env)

/-- The actor has stopped: by its status, or its mailbox is closed. -/
def ActorStopped (h : Host π) (id : String) : Prop :=
  ∃ a, h.registry.lookup id = some a ∧ (a.status = .stopped ∨ a.mailbox.closed = true)

/-- What an identifier stands for has stopped: the actor, the route, or the request. -/
def TargetStopped (h : Host π) (pid : PID) : Prop :=
  h.ActorStopped pid.actorID ∨
    (∃ entry, h.resolver.resolve pid = some entry ∧ entry.routeState = .stopped) ∨
    (askReplyHere h.nodeID pid = true ∧ h.asks.askReply.lookup pid.key = none ∧
      (h.asks.askClosed.lookup pid.actorID).isSome = true)

structure Reports (h : Host π) (pid : PID) (payload : Option π) (outcome : PIDDeliveryOutcome)
    (h' : Host π) : Prop where
  delivered : outcome = .delivered ↔ Enqueued h h' payload ∨ Completed h h'
  stopped : outcome = .rejectedStopped → h.TargetStopped pid

/-- The message, passed on by routers, comes to an actor that takes it. -/
def Arrives [Payload π] (h : Host π) (id : String) (payload : Option π) : Prop :=
  ∃ p y, payload = some p ∧ Leads (nextCall p) (h, id) y ∧ y.1.takes y.2 p = true

/-- The routers do not pass the message on for ever. -/
def Ends [Payload π] (h : Host π) (id : String) (payload : Option π) : Prop :=
  ∀ p, payload = some p → ∃ y, Leads (nextCall p) (h, id) y ∧ nextCall p y = none

variable {h h' : Host π} {payload : Option π}

theorem not_enqueued (hsame : ∀ id, h'.messages id = h.messages id) : ¬ Enqueued h h' payload := by
  rintro ⟨id, msgID, p, -, hmsg⟩
  have hlen := congrArg List.length hmsg
  rw [hsame, List.length_append, List.length_singleton] at hlen
  omega

theorem not_completed (hsame : h'.asks.waitCh = h.asks.waitCh) : ¬ Completed h h' := by
  rintro ⟨r, env, -, hempty, -, hreply⟩
  rw [hsame, hempty] at hreply
  cases hreply

variable {pid : PID} {outcome : PIDDeliveryOutcome}

theorem reports_reply (hready : h.asks.Ready h.nodeID) (hhere : askReplyHere h.nodeID pid = true)
    (payload : Option π) {asks : AskTable π}
    (hreplied : AskTable.Replied h.nodeID h.asks pid outcome asks) :
    Reports h pid payload outcome { h.drawID with asks := asks } := by
  have hmailboxes : ¬ Enqueued h { h.drawID with asks := asks } payload := not_enqueued fun _ => rfl
  cases hreplied with
  | late hnone hclosed =>
    refine ⟨?_, fun _ => .inr (.inr ⟨hhere, hnone, hclosed⟩)⟩
    simp only [reduceCtorEq, false_iff, not_or]
    exact ⟨hmailboxes, not_completed rfl⟩
  | stray hnone =>
    refine ⟨?_, fun h => by cases h⟩
    simp only [reduceCtorEq, false_iff, not_or]
    exact ⟨hmailboxes, not_completed rfl⟩
  | mismatch htaken =>
    refine ⟨?_, fun h => by cases h⟩
    simp only [reduceCtorEq, false_iff, not_or]
    refine ⟨hmailboxes, not_completed ?_⟩
    rw [htaken.asks]
    rfl
  | @answered w t' htaken env =>
    refine ⟨⟨fun _ => .inr ?_, fun _ => rfl⟩, fun h => by cases h⟩
    refine ⟨w.requestID, env, htaken.pending, hready.empty _ htaken.pending, ?_,
      AList.lookup_insert _⟩
    have hwait : t'.askWait = h.asks.askWait.erase w.requestID := by rw [htaken.asks]; rfl
    exact (pending_of_erase hwait w.requestID).trans (by simp)

theorem reports_refusal (hrefusal : h.refusal pid = some outcome) :
    Reports h pid payload outcome h.drawID := by
  have houtcome : outcome ≠ .delivered ∧ (outcome = .rejectedStopped →
      ∃ entry, h.resolver.resolve pid = some entry ∧ entry.routeState = .stopped) := by
    simp only [refusal] at hrefusal
    cases hentry : h.resolver.resolve pid with
    | none =>
      simp only [hentry, some.injEq] at hrefusal
      rw [← hrefusal]
      split_ifs <;> simp
    | some entry =>
      simp only [hentry] at hrefusal
      split_ifs at hrefusal with hstopped hstale hgateway
      · cases hrefusal
        exact ⟨by simp, fun _ => ⟨entry, rfl, hstopped⟩⟩
      · cases hrefusal
        simp
      · cases hrefusal
        simp
  refine ⟨?_, fun hstopped => .inr (.inl (houtcome.2 hstopped))⟩
  simp only [houtcome.1, false_iff, not_or]
  exact ⟨not_enqueued fun _ => rfl, not_completed rfl⟩

section Main
variable [Payload π]

variable {h h' : Host π} {id : String} {payload : Option π}

theorem Arrives.ends (harrives : h.Arrives id payload) : h.Ends id payload := by
  obtain ⟨p, y, rfl, hleads, htakes⟩ := harrives
  rintro p' hp
  obtain rfl := some.inj hp
  exact ⟨y, hleads, nextCall_of_takes htakes⟩

variable [Inhabited π]

variable {fuel : ℕ} {result : SubmitResult}

theorem send_returned (hsend : h.send id payload fuel = some (result, h')) :
    (result = .accepted ↔ h.Arrives id payload) ∧ (result = .accepted ↔ Enqueued h h' payload) ∧
      h.Ends id payload := by
  cases payload with
  | none =>
    cases fuel with
    | zero => cases hsend
    | succ fuel =>
      cases hsend
      refine ⟨?_, ?_, fun p hp => by cases hp⟩
      · simp [Arrives]
      · simp [Enqueued]
  | some p =>
    obtain ⟨y, hy⟩ := exists_sentTo fuel hsend
    refine ⟨⟨fun hacc => ?_, ?_⟩, ?_, ?_⟩
    · exact ⟨p, y, rfl, hy.leads, hy.accepted.mp hacc⟩
    · rintro ⟨p', y', hp, hleads, htakes⟩
      obtain rfl := some.inj hp
      rw [hy.accepted, hy.leads.unique hy.last hleads (nextCall_of_takes htakes), htakes]
    · rw [hy.accepted]
      constructor
      · intro htakes
        obtain ⟨msgID, hmsg⟩ := hy.taken htakes
        exact ⟨y.2, msgID, p, rfl, hmsg⟩
      · intro henqueued
        by_contra hrefused
        exact not_enqueued (hy.refused (by simpa using hrefused)) henqueued
    · rintro p' hp
      obtain rfl := some.inj hp
      exact ⟨y, hy.leads, hy.last⟩

theorem Ends.exists_send (hends : h.Ends id payload) :
    ∃ fuel result h', h.send id payload fuel = some (result, h') := by
  have hfuel : ∃ fuel, (h.send id payload fuel).isSome = true := by
    cases payload with
    | none => exact ⟨1, rfl⟩
    | some p =>
      obtain ⟨y, hleads, hlast⟩ := hends p rfl
      exact (fuelLoop_send p none).exists_fuel hleads hlast
  obtain ⟨fuel, hfuel⟩ := hfuel
  obtain ⟨⟨result, h'⟩, hsend⟩ := isSome_iff_exists.mp hfuel
  exact ⟨fuel, result, h', hsend⟩

theorem reports_send_iff {pid : PID} (hhere : askReplyHere h.nodeID pid = false)
    (hrefusal : h.refusal pid = none)
    (hsend : h.drawID.send pid.actorID payload fuel = some (result, h')) :
    Reports h pid payload (if result = .accepted then .delivered else .rejectedStopped) h' ↔
      result = .accepted ∨ h.ActorStopped pid.actorID := by
  obtain ⟨-, henqueued, -⟩ := send_returned hsend
  have hasks : ¬ Completed h h' := by
    refine not_completed ?_
    rw [(sameAsks_sendWithAskContext hsend).asks]
    rfl
  have hdelivered : ((if result = .accepted then .delivered else .rejectedStopped :
      PIDDeliveryOutcome) = .delivered ↔ Enqueued h h' payload ∨ Completed h h') := by
    have hsame : Enqueued h h' payload ↔ Enqueued h.drawID h' payload := Iff.rfl
    rw [or_iff_left hasks, hsame, ← henqueued]
    split_ifs with hacc <;> simp [hacc]
  constructor
  · intro hreports
    by_cases hacc : result = .accepted
    · exact .inl hacc
    · right
      rcases hreports.stopped (if_neg hacc) with hactor | ⟨entry, hentry, hstopped⟩ | ⟨hask, -⟩
      · exact hactor
      · simp [refusal, hentry, hstopped] at hrefusal
      · rw [hhere] at hask
        cases hask
  · rintro (hacc | hactor)
    · exact ⟨hdelivered, fun hstopped => by rw [if_pos hacc] at hstopped; cases hstopped⟩
    · exact ⟨hdelivered, fun _ => .inl hactor⟩

/-- `SendPID` reports what it has done exactly if the identifier is one for replies, the resolver
refuses it, the message arrives, or the actor has stopped (and its routers end). -/
theorem sendPID_reports_iff [ReplyPayload π] {h : Host π} {pid : PID}
    (hready : h.asks.Ready h.nodeID) (hlocal : h.transport h.remoteSend pid = none)
    (payload : Option π) : (∃ fuel outcome h', h.sendPID pid payload fuel = some (outcome, h') ∧
      Reports h pid payload outcome h') ↔
    askReplyHere h.nodeID pid = true ∨ (h.refusal pid).isSome = true ∨
      h.drawID.Arrives pid.actorID payload ∨
      (h.ActorStopped pid.actorID ∧ h.drawID.Ends pid.actorID payload) := by
  cases hhere : askReplyHere h.nodeID pid with
  | true =>
    simp only [true_or, iff_true]
    refine ⟨0, _, _, by simp only [sendPID, hhere, if_true]; rfl, ?_⟩
    exact reports_reply hready hhere payload (replied hready hhere (.of payload))
  | false =>
    have hsent : ∀ fuel, h.sendPID pid payload fuel = h.drawID.sendResolved pid payload fuel := by
      intro fuel
      simp only [sendPID, hhere, hlocal]
      rfl
    simp only [hsent, sendResolved, refusal_drawID]
    cases hrefusal : h.refusal pid with
    | some outcome =>
      simp only [isSome_some, true_or, or_true, iff_true]
      exact ⟨0, outcome, h.drawID, rfl, reports_refusal hrefusal⟩
    | none =>
      simp only [isSome_none, Bool.false_eq_true, false_or, map_eq_some_iff]
      constructor
      · rintro ⟨fuel, outcome, h', ⟨⟨result, h1⟩, hsend, hr⟩, hreports⟩
        obtain ⟨rfl, rfl⟩ := Prod.mk.inj hr
        obtain ⟨harrives, -, hends⟩ := send_returned hsend
        rcases (reports_send_iff hhere hrefusal hsend).mp hreports with hacc | hactor
        · exact .inl (harrives.mp hacc)
        · exact .inr ⟨hactor, hends⟩
      · intro hcases
        have hends : h.drawID.Ends pid.actorID payload :=
          hcases.elim Arrives.ends fun hactor => hactor.2
        obtain ⟨fuel, result, h', hsend⟩ := hends.exists_send
        obtain ⟨harrives, -, -⟩ := send_returned hsend
        refine ⟨fuel, _, h', ⟨(result, h'), hsend, rfl⟩, ?_⟩
        refine (reports_send_iff hhere hrefusal hsend).mpr ?_
        exact hcases.imp harrives.mpr fun hactor => hactor.1

end Main

/-- An actor with room for one message: the first one is reported as delivered. -/
theorem sendPID_reports_first : ∃ (h : Host String) (tr : List RuntimeEvent),
    Run step OwnRequests (.new "n1" none none none fun _ => 0) tr h ∧
    ∃ fuel outcome h', h.sendPID ⟨"n1", "a", 1⟩ (some "m") fuel = some (outcome, h') ∧
      Reports h ⟨"n1", "a", 1⟩ (some "m") outcome h' := by
  obtain ⟨tr, h, hrun, hlocal, htakes⟩ : ∃ tr h, Run step OwnRequests
      (.new "n1" none none none fun _ => 0 : Host String) tr h ∧
      h.transport h.remoteSend ⟨"n1", "a", 1⟩ = none ∧ h.takes "a" "m" = true :=
    Run.of_check [.runtime (.createActor "a" false 1 true), .runtime (.issuePID "n1" "a")]
      (by decide +kernel)
  obtain ⟨hnode, hready⟩ := ready_run hrun
  rw [← hnode] at hready
  refine ⟨h, tr, hrun, (sendPID_reports_iff hready hlocal (some "m")).mpr (.inr (.inr (.inl ?_)))⟩
  exact ⟨"m", (h.drawID, "a"), rfl, .refl, htakes⟩

/-- The second one, for which there is no room, is reported as one to a stopped actor. -/
theorem full_reported_stopped : ∃ (h : Host String) (tr : List RuntimeEvent),
    Run step OwnRequests (.new "n1" none none none fun _ => 0) tr h ∧
    (h.sendPID ⟨"n1", "a", 1⟩ (some "m") 1).map (·.1) = some .rejectedStopped ∧
    (h.send "a" (some "m") 1).map (·.1) = some .rejectedFull ∧
    ¬ h.TargetStopped ⟨"n1", "a", 1⟩ := by
  obtain ⟨tr, h, hrun, hpid, hsend, hactor, hroute, hhere⟩ : ∃ tr h, Run step OwnRequests
      (.new "n1" none none none fun _ => 0 : Host String) tr h ∧
      (h.sendPID ⟨"n1", "a", 1⟩ (some "m") 1).map (·.1) = some .rejectedStopped ∧
      (h.send "a" (some "m") 1).map (·.1) = some .rejectedFull ∧
      (∀ a ∈ h.registry.lookup "a", ¬ (a.status = .stopped ∨ a.mailbox.closed = true)) ∧
      (∀ entry ∈ h.resolver.resolve ⟨"n1", "a", 1⟩, entry.routeState ≠ .stopped) ∧
      ¬ askReplyHere h.nodeID ⟨"n1", "a", 1⟩ = true :=
    Run.of_check [.runtime (.createActor "a" false 1 true), .runtime (.issuePID "n1" "a"),
      .sendPID ⟨"n1", "a", 1⟩ (some "m") 1] (by decide +kernel)
  refine ⟨h, tr, hrun, hpid, hsend, ?_⟩
  rintro (⟨a, ha, hstopped⟩ | ⟨entry, hentry, hstopped⟩ | ⟨hask, -⟩)
  · exact hactor a ha hstopped
  · exact hroute entry hentry hstopped
  · exact hhere hask

end Host

end Westcoast
