import Westcoast.Actor.PIDOutcomes

/-!
# A rejected reply

`routeAskReply` takes the request out of the maps before it looks into the envelope. So an envelope
of another request is rejected and ends the call it was not meant for.
-/
namespace Westcoast

open Lib Option

variable {π : Type}

namespace AskTable
variable {nodeID : String} {t : AskTable π} {w : PendingAsk}

theorem Ready.routeAskReply (h : t.Ready nodeID) (hw : t.askWait.lookup w.requestID = some w)
    (reply : Reply π) : t.routeAskReply w.replyTo reply =
      if (reply.wrap w.requestID).requestID = w.requestID then
        (.delivered, { t.close w.replyTo.key w.requestID w.targetActor with
          waitCh := t.waitCh.insert w.requestID (some (reply.wrap w.requestID)) })
      else (.rejectedNotFound, t.close w.replyTo.key w.requestID w.targetActor) := by
  have hpending : t.pending w.requestID = true := by simp [pending, hw]
  have hreply : t.askReply.lookup w.replyTo.key = some w.requestID :=
    (h.reply _ _).mpr ⟨hpending, congrArg PID.key (h.wait _ _ hw).2⟩
  have hempty : t.waitCh.lookup w.requestID = some none := h.empty _ hpending
  by_cases hmatch : (reply.wrap w.requestID).requestID = w.requestID <;>
    simp [AskTable.routeAskReply, matchReply, hreply, hw, hmatch, offer, close, hempty]

theorem routeAskReply_of_gone {pid : PID} (hgone : t.askReply.lookup pid.key = none)
    (reply : Reply π) :
    (t.routeAskReply pid reply).1 ≠ .delivered ∧ (t.routeAskReply pid reply).2 = t := by
  simp only [AskTable.routeAskReply, matchReply, hgone, and_true]
  split_ifs <;> simp

end AskTable

theorem askReplyHere_replyAddress (nodeID r : String) :
    askReplyHere nodeID (replyAddress nodeID r) = true := by
  by_cases hnode : nodeID = "" <;>
    simp [askReplyHere, replyAddress, askReplyNamespaceOf, isAskReplyNamespace, hnode]

namespace Host
variable [ReplyPayload π] [Payload π] [Inhabited π]

/-- The payload is no envelope of another request. -/
def Answers (w : PendingAsk) (payload : Option π) : Prop :=
  ((Reply.of payload).wrap w.requestID).requestID = w.requestID

/-- Replies are sent one after the other: one that is not acknowledged changes nothing, and one that
answers reaches the channel if that is `waiting` for the first acknowledged one. -/
def RejectionHarmless (w : PendingAsk) (fuel : ℕ) : Bool → Host π → List (Option π) → Prop
  | _, _, [] => True
  | waiting, h, payload :: rest =>
    ∃ outcome h', h.sendPID w.replyTo payload fuel = some (outcome, h') ∧
      (outcome ≠ .delivered → h'.asks.askWait = h.asks.askWait ∧
        h'.asks.askReply = h.asks.askReply ∧ h'.asks.waitCh = h.asks.waitCh) ∧
      (waiting = true → Answers w payload → outcome = .delivered ∧
        h'.asks.waitCh.lookup w.requestID = some (some ((Reply.of payload).wrap w.requestID))) ∧
      RejectionHarmless w fuel (waiting && outcome ≠ .delivered) h' rest

variable {h : Host π} {w : PendingAsk}

theorem sendPID_replyTo (hto : w.replyTo = replyAddress h.nodeID w.requestID)
    (payload : Option π) (fuel : ℕ) : h.sendPID w.replyTo payload fuel =
      some ((h.asks.routeAskReply w.replyTo (.of payload)).1,
        { h.drawID with asks := (h.asks.routeAskReply w.replyTo (.of payload)).2 }) := by
  simp only [sendPID, hto, askReplyHere_replyAddress, if_true]

theorem rejectionHarmless_of_gone (hto : w.replyTo = replyAddress h.nodeID w.requestID)
    (hgone : h.asks.askReply.lookup w.replyTo.key = none) (fuel : ℕ) (rest : List (Option π)) :
    RejectionHarmless w fuel false h rest := by
  induction rest generalizing h with
  | nil => trivial
  | cons payload rest ih =>
    obtain ⟨-, hsame⟩ := AskTable.routeAskReply_of_gone hgone (.of payload)
    refine ⟨_, _, sendPID_replyTo hto payload fuel, fun _ => ?_, nofun, ?_⟩
    · simp only [hsame, and_self]
    · exact ih hto (by simpa only [hsame] using hgone)

/-- Rejected replies leave a request alone and the right one reaches its caller, iff the first reply
to its address is right. -/
theorem rejection_harmless_iff {nodeID : String}
    {remoteSend remoteAsk : Option (PID → PIDDeliveryOutcome)}
    {clusterLookup : Option (String → Option PID)} {randSrc : ℕ → ℕ} {tr : List RuntimeEvent}
    (hrun : Run step OwnRequests (.new nodeID remoteSend remoteAsk clusterLookup randSrc) tr h)
    (hw : h.asks.askWait.lookup w.requestID = some w) (fuel : ℕ) (payloads : List (Option π)) :
    RejectionHarmless w fuel true h payloads ↔ ∀ payload ∈ payloads.head?, Answers w payload := by
  obtain ⟨rfl, hready⟩ := ready_run hrun
  have hto := (hready.wait _ _ hw).2
  cases payloads with
  | nil => simp [RejectionHarmless]
  | cons payload rest =>
    have hsent := sendPID_replyTo hto payload fuel
    rw [hready.routeAskReply hw] at hsent
    simp only [List.head?_cons, mem_some_iff, forall_eq']
    by_cases hanswers : ((Reply.of payload).wrap w.requestID).requestID = w.requestID
    · -- the reply is taken, and with it the request
      rw [if_pos hanswers] at hsent
      refine ⟨fun _ => hanswers, fun _ => ⟨_, _, hsent, fun h => absurd rfl h, fun _ _ => ?_, ?_⟩⟩
      · exact ⟨rfl, AList.lookup_insert _⟩
      · refine rejectionHarmless_of_gone ?_ (AList.lookup_erase _ _) fuel rest
        exact hto
    · -- the request goes although the reply is rejected
      rw [if_neg hanswers] at hsent
      refine ⟨fun ⟨_, _, hs, hsame, _⟩ => ?_, fun h => absurd h hanswers⟩
      obtain ⟨rfl, rfl⟩ := Prod.mk.inj (some.inj (hsent.symm.trans hs))
      have hgone := (hsame (by simp)).1
      have hlookup := congrArg (AList.lookup w.requestID) hgone
      simp [AskTable.close, hw] at hlookup

/-- A reply that is a text, or the envelope of a request. -/
inductive Answer
  | text
  | envelope (requestID : String)
  deriving DecidableEq, Inhabited

instance answerPayload : Payload Answer := ⟨fun _ => "answer", fun _ => none, fun _ => none⟩

instance answerReplyPayload : ReplyPayload Answer where
  envelope
    | .text => none
    | .envelope requestID => some ⟨requestID, none⟩

def asked : List (HostAction Answer) :=
  [.runtime (.createActor "a" false 1 true), .ask "a" (some .text) 0 1]

def askedOf : PendingAsk := ⟨"ask-1", "a", replyAddress "n1" "ask-1"⟩

theorem rejection_harmless_right :
    ∃ tr h, Run step OwnRequests (.new "n1" none none none fun _ => 0 : Host Answer) tr h ∧
      h.asks.askWait.lookup askedOf.requestID = some askedOf ∧
      RejectionHarmless askedOf 1 true h [some (.envelope "ask-1"), some (.envelope "other")] := by
  refine Run.of_check_then asked (by decide +kernel) fun tr h hrun hw =>
    ⟨tr, h, hrun, hw, (rejection_harmless_iff hrun hw 1 _).mpr fun payload hp => ?_⟩
  cases hp
  rfl

/-- The envelope of another request is rejected, and the right reply after it as well. -/
theorem rejected_reply_ends_request :
    ∃ tr h, Run step OwnRequests (.new "n1" none none none fun _ => 0 : Host Answer) tr h ∧
      h.asks.askWait.lookup askedOf.requestID = some askedOf ∧
      ((h.sendPID askedOf.replyTo (some (.envelope "other")) 1).bind fun sent =>
        sent.2.sendPID askedOf.replyTo (some .text) 1).map (·.1) = some .rejectedStopped ∧
      ¬ RejectionHarmless askedOf 1 true h [some (.envelope "other"), some .text] := by
  obtain ⟨tr, h, hrun, hw, hlater, hgone⟩ : ∃ tr h,
      Run step OwnRequests (.new "n1" none none none fun _ => 0 : Host Answer) tr h ∧
      h.asks.askWait.lookup askedOf.requestID = some askedOf ∧
      ((h.sendPID askedOf.replyTo (some (.envelope "other")) 1).bind fun sent =>
        sent.2.sendPID askedOf.replyTo (some .text) 1).map (·.1) = some .rejectedStopped ∧
      (h.sendPID askedOf.replyTo (some (.envelope "other")) 1).map
        (fun sent => (sent.1, sent.2.asks.askWait.lookup askedOf.requestID)) =
          some (.rejectedNotFound, none) :=
    Run.of_check asked (by decide +kernel)
  refine ⟨tr, h, hrun, hw, hlater, ?_⟩
  rintro ⟨outcome, h', hs, hsame, -⟩
  rw [hs] at hgone
  obtain ⟨rfl, hnone⟩ := Prod.mk.inj (some.inj hgone)
  rw [(hsame (by simp)).1, hw] at hnone
  cases hnone

end Host
end Westcoast
