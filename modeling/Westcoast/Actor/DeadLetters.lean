import Westcoast.Actor.PIDOutcomes

/-!
# Dead letters

`sendPIDWithSender` has nine exits, of which four hand the payload to the dead-letter sink. An
`Office` is a host with what `sendPIDWithSender` writes besides.
-/
namespace Westcoast

open Lib Option

structure DeadLetter (π : Type) where
  targetActorID : String
  targetPID : PID
  payload : Option π
  reason : String

/-- The sink of the dead letters. `handed` is what the handler has been called with. -/
structure DeadLetterSink (π : Type) where
  handler : Bool
  count : ℕ
  handed : List (DeadLetter π)

namespace DeadLetterSink

variable {π : Type}

/-- `newDeadLetterSink`, with or without a handler. -/
def new (handler : Bool) : DeadLetterSink π := ⟨handler, 0, []⟩

def emit (s : DeadLetterSink π) (letter : DeadLetter π) : DeadLetterSink π :=
  { s with
    count := s.count + 1
    handed := if s.handler then s.handed ++ [letter] else s.handed }

def emitPID (s : DeadLetterSink π) (pid : PID) (payload : Option π) (reason : String) :
    DeadLetterSink π :=
  s.emit ⟨pid.actorID, pid, payload, reason⟩

/-- One letter more has been emitted, about this payload and this identifier. -/
structure OneMore (s s' : DeadLetterSink π) (pid : PID) (payload : Option π) : Prop where
  count : s'.count = s.count + 1
  letter : ∃ reason, s' = s.emitPID pid payload reason

theorem oneMore_emitPID (s : DeadLetterSink π) (pid : PID) (payload : Option π)
    (reason : String) : OneMore s (s.emitPID pid payload reason) pid payload :=
  ⟨rfl, reason, rfl⟩

theorem not_oneMore_self (s : DeadLetterSink π) (pid : PID) (payload : Option π) :
    ¬ OneMore s s pid payload := fun h => absurd h.count (by omega)

/-- What an exit leaves in the sink: one letter, about a call not delivered, or nothing. -/
inductive Exit (s s' : DeadLetterSink π) (pid : PID) (payload : Option π) (silent : Prop)
    (outcome : PIDDeliveryOutcome) : Prop
  | letter (hletter : OneMore s s' pid payload) (hout : outcome ≠ .delivered)
      (hsilent : ¬ silent)
  | delivered (hsame : s' = s) (hout : outcome = .delivered) (hsilent : ¬ silent)
  | nothing (hsame : s' = s) (hout : outcome ≠ .delivered) (hsilent : silent)

theorem Exit.complete_iff {s s' : DeadLetterSink π} {pid : PID} {payload : Option π}
    {silent : Prop} {outcome : PIDDeliveryOutcome} (h : Exit s s' pid payload silent outcome) :
    (OneMore s s' pid payload ↔ outcome ≠ .delivered) ↔ ¬ silent := by
  cases h with
  | letter hletter hout hsilent =>
    exact iff_of_true (iff_of_true hletter hout) hsilent
  | delivered hsame hout hsilent =>
    rw [hsame]
    exact iff_of_true (iff_of_false (not_oneMore_self s pid payload) (not_not.mpr hout)) hsilent
  | nothing hsame hout hsilent =>
    rw [hsame]
    exact iff_of_false (fun h => not_oneMore_self s pid payload (h.mpr hout))
      (not_not.mpr hsilent)

end DeadLetterSink

/-- The text of an outcome, which is the reason code of the guardrail outcome about it. -/
def PIDDeliveryOutcome.code : PIDDeliveryOutcome → String
  | .delivered => "delivered"
  | .unresolved => "unresolved"
  | .rejectedStopped => "rejected_stopped"
  | .rejectedStaleGeneration => "rejected_stale_generation"
  | .rejectedNotFound => "rejected_not_found"

inductive PIDInteractionPolicyMode
  | disabled
  | pidOnly
  deriving DecidableEq

inductive GuardrailOutcomeType
  | policyAccept
  | policyRejectNonPID
  | gatewayRouteSuccess
  | gatewayRouteFailure

structure GuardrailOutcome where
  actorID : String
  policyMode : PIDInteractionPolicyMode
  gatewayMode : GatewayRouteMode
  outcome : GuardrailOutcomeType
  reasonCode : String

/-- The host with its dead letters and guardrail outcomes. -/
structure Office (π : Type) extends Host π where
  deadLetters : DeadLetterSink π
  guardrails : List GuardrailOutcome
  pidPolicy : PIDInteractionPolicyMode

/-! ### The checks as conditions on the host -/

/-- A reply to this address reaches its request: that is pending and meant, and its channel is
empty. -/
def AskTable.takesReply {π : Type} (t : AskTable π) (pid : PID) (reply : Reply π) : Bool :=
  match t.askReply.lookup pid.key with
  | none => false
  | some requestID =>
    (reply.wrap requestID).requestID = requestID &&
      (t.askWait.lookup requestID).any fun wait =>
        match t.waitCh.lookup wait.requestID with
        | some none => true
        | _ => false

theorem AskTable.routeAskReply_delivered_iff {π : Type} (t : AskTable π) (pid : PID)
    (reply : Reply π) :
    (t.routeAskReply pid reply).1 = .delivered ↔ t.takesReply pid reply = true := by
  simp only [routeAskReply, matchReply, takesReply]
  cases hreq : t.askReply.lookup pid.key with
  | none =>
    simp only
    split_ifs <;> simp
  | some requestID =>
    by_cases hid : (reply.wrap requestID).requestID = requestID
    · cases hwait : t.askWait.lookup requestID with
      | none => simp [hid, hwait]
      | some wait =>
        -- taking the request out of the pending ones leaves its channel as it is
        have hch : (t.close pid.key requestID wait.targetActor).waitCh = t.waitCh := rfl
        simp only [hid, hwait, ne_eq, not_true_eq_false, if_false, map_some,
          getD_some, offer, hch, decide_true, Bool.true_and, any_some]
        cases t.waitCh.lookup wait.requestID with
        | none => simp
        | some content =>
          cases content with
          | none => simp
          | some env => simp
    · simp [hid]

namespace Host

variable {π : Type}

/-- The resolver has an entry for the identifier that is not stopped and of its
generation. -/
def resolves (h : Host π) (pid : PID) : Bool :=
  (h.resolver.resolve pid).any fun entry =>
    entry.routeState ≠ .stopped && pid.generation = entry.currentGeneration

def gatewayDown (h : Host π) : Bool :=
  h.resolver.mode = .gatewayMediated && !h.resolver.gwUp

def staysHere (h : Host π) (pid : PID) : Prop :=
  askReplyHere h.nodeID pid = true ∨ h.transport h.remoteSend pid = none

end Host

namespace Office

variable {π : Type}

def emitGuardrail (o : Office π) (actorID : String) (mode : GatewayRouteMode)
    (outcome : GuardrailOutcomeType) (code : String) : Office π :=
  { o with guardrails := o.guardrails ++ [⟨actorID, o.pidPolicy, mode, outcome, code⟩] }

def emitPID (o : Office π) (pid : PID) (payload : Option π) (reason : String) : Office π :=
  { o with deadLetters := o.deadLetters.emitPID pid payload reason }

def after (o : Office π) (h : Host π) : Office π := { o with toHost := h }

/-- An exit with a dead letter. -/
def reject (o : Office π) (guardrailActor : String) (pid : PID) (payload : Option π)
    (outcome : PIDDeliveryOutcome) (reason : String) : PIDDeliveryOutcome × Office π :=
  (outcome, (o.emitGuardrail guardrailActor o.resolver.mode .gatewayRouteFailure
    outcome.code).emitPID pid payload reason)

section
variable [Inhabited π] [Payload π]

/-- The end of `sendPIDWithSender`: the identifier is resolved, and the gateway is open. -/
def submit (o : Office π) (guardrailActor : String) (pid : PID) (payload : Option π)
    (fuel : ℕ) : Option (PIDDeliveryOutcome × Office π) :=
  let mode := o.resolver.mode
  (o.send pid.actorID payload fuel).map fun r =>
    if r.1 ≠ .accepted then
      (.rejectedStopped, (o.after r.2).emitGuardrail guardrailActor mode .gatewayRouteFailure
        PIDDeliveryOutcome.rejectedStopped.code)
    else (.delivered, (o.after r.2).emitGuardrail guardrailActor mode .gatewayRouteSuccess "")

/-- `sendPIDWithSender` after the reply addresses and the transport. -/
def sendHere (o : Office π) (senderActorID : String) (pid : PID) (payload : Option π)
    (fuel : ℕ) : Option (PIDDeliveryOutcome × Office π) :=
  let guardrailActor := if senderActorID ≠ "" then senderActorID else pid.actorID
  match o.resolver.resolve pid with
  | none =>
    some (if (o.registry.lookup pid.actorID).isNone then
      o.reject guardrailActor pid payload .rejectedNotFound "actor_not_found"
    else o.reject guardrailActor pid payload .unresolved "pid_unresolved")
  | some entry =>
    if entry.routeState = .stopped then
      some (o.reject guardrailActor pid payload .rejectedStopped "actor_stopped")
    else if pid.generation ≠ entry.currentGeneration then
      some (o.reject guardrailActor pid payload .rejectedStaleGeneration "stale_generation")
    else if o.gatewayDown then
      some (.unresolved, o.emitGuardrail guardrailActor o.resolver.mode .gatewayRouteFailure
        "gateway_route_failed")
    else o.submit guardrailActor pid payload fuel

/-- `sendPIDWithSender`. Replies and remote sends leave no dead letter. -/
def sendPIDWithSender [ReplyPayload π] (o : Office π) (senderActorID : String) (pid : PID)
    (payload : Option π) (fuel : ℕ) : Option (PIDDeliveryOutcome × Office π) :=
  if askReplyHere o.nodeID pid then
    let r := o.asks.routeAskReply pid (.of payload)
    some (r.1, o.after { o.drawID with asks := r.2 })
  else
    match o.transport o.remoteSend pid with
    | some remoteSend => some (remoteSend pid, o.after o.drawID)
    | none => (o.after o.drawID).sendHere senderActorID pid payload fuel

def sendPID [ReplyPayload π] (o : Office π) (pid : PID) (payload : Option π) (fuel : ℕ) :
    Option (PIDDeliveryOutcome × Office π) :=
  o.sendPIDWithSender "" pid payload fuel

/-- `CrossActorSendPID`, which the policy only reports. -/
def crossActorSendPID [ReplyPayload π] (o : Office π) (senderActorID : String) (target : PID)
    (payload : Option π) (fuel : ℕ) : Option (PIDDeliveryOutcome × Office π) :=
  let o := if o.pidPolicy = .pidOnly then
    o.emitGuardrail senderActorID o.resolver.mode .policyAccept "" else o
  o.sendPIDWithSender senderActorID target payload fuel

end

@[simp] theorem deadLetters_reject (o : Office π) (guardrailActor : String) (pid : PID)
    (payload : Option π) (outcome : PIDDeliveryOutcome) (reason : String) :
    (o.reject guardrailActor pid payload outcome reason).2.deadLetters =
      o.deadLetters.emitPID pid payload reason := rfl

variable {o o' : Office π} {pid : PID} {payload : Option π} {outcome : PIDDeliveryOutcome}

theorem exit_reject {silent : Prop} (guardrailActor : String) (reason : String)
    (hout : outcome ≠ .delivered) (hsilent : ¬ silent) :
    o.deadLetters.Exit (o.reject guardrailActor pid payload outcome reason).2.deadLetters pid
      payload silent (o.reject guardrailActor pid payload outcome reason).1 := by
  refine .letter ?_ hout hsilent
  rw [deadLetters_reject]
  exact o.deadLetters.oneMore_emitPID pid payload reason

variable [Inhabited π] [Payload π]

/-! ### Which exits leave a letter -/

/-- Refused without a letter: no request takes the reply, or the identifier is resolved and the
gateway is down or no actor takes the message. -/
def refusedSilently [ReplyPayload π] (o : Office π) (pid : PID) (payload : Option π) : Prop :=
  if askReplyHere o.nodeID pid then o.asks.takesReply pid (.of payload) = false
  else o.resolves pid = true ∧ (o.gatewayDown = true ∨ ¬ o.drawID.Arrives pid.actorID payload)

variable {fuel : ℕ}

theorem exit_submit {guardrailActor : String}
    (hsend : o.submit guardrailActor pid payload fuel = some (outcome, o')) :
    o.deadLetters.Exit o'.deadLetters pid payload (¬ o.Arrives pid.actorID payload) outcome := by
  simp only [submit, map_eq_some_iff] at hsend
  obtain ⟨r, hr, heq⟩ := hsend
  obtain ⟨harrives, -⟩ := Host.send_returned hr
  by_cases hacc : r.1 = .accepted
  · rw [if_neg (not_not.mpr hacc)] at heq
    cases heq
    exact .delivered rfl rfl (not_not.mpr (harrives.mp hacc))
  · rw [if_pos hacc] at heq
    cases heq
    exact .nothing rfl (by simp) (mt harrives.mpr hacc)

theorem exit_sendHere {senderActorID : String}
    (hsend : o.sendHere senderActorID pid payload fuel = some (outcome, o')) :
    o.deadLetters.Exit o'.deadLetters pid payload
      (o.resolves pid = true ∧ (o.gatewayDown = true ∨ ¬ o.Arrives pid.actorID payload))
      outcome := by
  simp only [sendHere] at hsend
  cases hres : o.resolver.resolve pid with
  | none =>
    have hno : o.resolves pid = false := by simp [Host.resolves, hres]
    simp only [hres, some.injEq] at hsend
    by_cases hfound : (o.registry.lookup pid.actorID).isNone = true
    · rw [if_pos hfound] at hsend
      cases hsend
      exact exit_reject _ _ (by simp) (by simp [hno])
    · rw [if_neg hfound] at hsend
      cases hsend
      exact exit_reject _ _ (by simp) (by simp [hno])
  | some entry =>
    simp only [hres] at hsend
    by_cases hstop : entry.routeState = .stopped
    · rw [if_pos hstop] at hsend
      cases hsend
      exact exit_reject _ _ (by simp) (by simp [Host.resolves, hres, hstop])
    · rw [if_neg hstop] at hsend
      by_cases hgen : pid.generation = entry.currentGeneration
      · rw [if_neg (not_not.mpr hgen)] at hsend
        have hyes : o.resolves pid = true := by simp [Host.resolves, hres, hstop, hgen]
        by_cases hgw : o.gatewayDown = true
        · rw [if_pos hgw] at hsend
          cases hsend
          exact .nothing rfl (by simp) ⟨hyes, .inl hgw⟩
        · rw [if_neg hgw] at hsend
          simpa [hyes, hgw] using exit_submit hsend
      · rw [if_pos hgen] at hsend
        cases hsend
        exact exit_reject _ _ (by simp) (by simp [Host.resolves, hres, hgen])

variable [ReplyPayload π]

theorem exit_sendPIDWithSender {senderActorID : String} (hhere : o.staysHere pid)
    (hsend : o.sendPIDWithSender senderActorID pid payload fuel = some (outcome, o')) :
    o.deadLetters.Exit o'.deadLetters pid payload (o.refusedSilently pid payload) outcome := by
  simp only [sendPIDWithSender] at hsend
  by_cases hask : askReplyHere o.nodeID pid = true
  · rw [if_pos hask] at hsend
    cases hsend
    have hiff := o.asks.routeAskReply_delivered_iff pid (.of payload)
    simp only [refusedSilently, if_pos hask]
    by_cases htakes : o.asks.takesReply pid (.of payload) = true
    · exact .delivered rfl (hiff.mpr htakes) (by simp [htakes])
    · exact .nothing rfl (fun hd => htakes (hiff.mp hd)) (by simpa using htakes)
  · have hlocal : o.transport o.remoteSend pid = none := hhere.resolve_left hask
    rw [if_neg hask, hlocal] at hsend
    simp only [refusedSilently, if_neg hask]
    exact exit_sendHere hsend

/-- **The dead letters are complete but for three refusals:** by the reply addresses, by a gateway
that is down, and of a message that no actor takes although the identifier is resolved. Any other
call that stays on the node leaves one letter exactly if it is not delivered. -/
theorem deadLetter_iff_of_not_refusedSilently {o : Office π} {pid : PID}
    (hhere : o.staysHere pid) (payload : Option π) (fuel : ℕ) (senderActorID : String) :
    (∀ outcome o', o.sendPID pid payload fuel = some (outcome, o') →
      ((o.deadLetters.OneMore o'.deadLetters pid payload ↔ outcome ≠ .delivered) ↔
        ¬ o.refusedSilently pid payload)) ∧
    ∀ outcome o', o.crossActorSendPID senderActorID pid payload fuel = some (outcome, o') →
      ((o.deadLetters.OneMore o'.deadLetters pid payload ↔ outcome ≠ .delivered) ↔
        ¬ o.refusedSilently pid payload) := by
  refine ⟨?_, ?_⟩
  · intro outcome o' hsend
    exact (exit_sendPIDWithSender hhere hsend).complete_iff
  · intro outcome o' hsend
    simp only [crossActorSendPID] at hsend
    by_cases hpolicy : o.pidPolicy = .pidOnly
    · -- the guardrail outcome before the call is not among what the call depends on
      rw [if_pos hpolicy] at hsend
      exact (exit_sendPIDWithSender (o := o.emitGuardrail senderActorID o.resolver.mode
        .policyAccept "") hhere hsend).complete_iff
    · rw [if_neg hpolicy] at hsend
      exact (exit_sendPIDWithSender hhere hsend).complete_iff

def opened (h : Host String) : Office String := ⟨h, .new true, [], .disabled⟩

/-- A message for an actor that never existed becomes one letter. -/
theorem deadLetter_iff_of_unknown_actor :
    ∃ o', (opened (.new "n1" none none none fun _ => 0)).sendPID ⟨"n1", "w", 1⟩ (some "m") 1 =
        some (.rejectedNotFound, o') ∧
      (DeadLetterSink.new true).OneMore o'.deadLetters ⟨"n1", "w", 1⟩ (some "m") := by
  have hhere : (opened (.new "n1" none none none fun _ => 0)).staysHere ⟨"n1", "w", 1⟩ :=
    .inr (by decide +kernel)
  have hsilent : ¬ (opened (.new "n1" none none none fun _ => 0)).refusedSilently
      ⟨"n1", "w", 1⟩ (some "m") := by
    have hask : askReplyHere "n1" ⟨"n1", "w", 1⟩ = false := by decide +kernel
    have hres : (opened (.new "n1" none none none fun _ => 0)).resolves ⟨"n1", "w", 1⟩ = false := by
      decide +kernel
    rintro hno
    simp only [refusedSilently] at hno
    rw [if_neg (by rw [Bool.not_eq_true]; exact hask), hres] at hno
    cases hno.1
  have hout : ((opened (.new "n1" none none none fun _ => 0)).sendPID ⟨"n1", "w", 1⟩ (some "m")
      1).map Prod.fst = some .rejectedNotFound := by decide +kernel
  obtain ⟨⟨outcome, o'⟩, hsend, rfl⟩ := map_eq_some_iff.mp hout
  have hiff := (deadLetter_iff_of_not_refusedSilently hhere (some "m") 1 "").1 _ _ hsend
  exact ⟨o', hsend, (hiff.mpr hsilent).mpr (by simp)⟩

/-- An actor stopped by its supervisor is still reachable in the resolver: `Send` refuses, without a
letter. -/
theorem no_letter_after_supervised_stop :
    ∃ (h : Host String) (tr : List RuntimeEvent) (o' : Office String),
      Run Host.step anyStep (Host.new "n1" none none none fun _ => 0) tr h ∧
        (opened h).sendPID ⟨"n1", "w", 1⟩ (some "m") 1 = some (.rejectedStopped, o') ∧
        o'.deadLetters.count = 0 ∧ o'.deadLetters.handed = [] := by
  obtain ⟨tr, h, hrun, hsent⟩ : ∃ tr h, Run Host.step anyStep
      (Host.new "n1" none none none fun _ => 0) tr h ∧
      ((opened h).sendPID ⟨"n1", "w", 1⟩ (some "m") 1).any (fun q => q.1 = .rejectedStopped ∧
        q.2.deadLetters.count = 0 ∧ q.2.deadLetters.handed = []) = true :=
    Run.of_check [.runtime (.createActor "w" false 4 true), .runtime (.issuePID "" "w"),
      .deliverLocal "w" (some "bad") none 1, .runtime (.process "w" (.failed .stop true))]
      (by decide +kernel)
  obtain ⟨⟨outcome, o'⟩, hsend, rfl, hsink⟩ := exists_of_any hsent
  exact ⟨h, tr, o', hrun, hsend, hsink⟩

end Office
end Westcoast
