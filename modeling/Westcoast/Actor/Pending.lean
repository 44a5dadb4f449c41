import Westcoast.Actor.Operations

/-!
# The pending requests of a runtime

`askWait` and `askReply` hold the same requests, each under its identifier and under the key of its
reply address (`AskTable.Sound`), so a reply that is matched is one sent to the request's own
address.
-/
namespace Westcoast

open Lib Option List Bool

variable {π : Type}

theorem PID.toList_key (p : PID) : p.key.toList = p.ns.toList ++ ':' :: p.actorID.toList := by
  simp [PID.key]

/-- The address that a node gives to the replies for a request. -/
def replyAddress (nodeID requestID : String) : PID := ⟨askReplyNamespaceOf nodeID, requestID, 1⟩

theorem replyAddress_key_inj {nodeID r r' : String} :
    (replyAddress nodeID r).key = (replyAddress nodeID r').key ↔ r = r' := by
  simp [PID.key, replyAddress]

theorem plain_ne_qualified (l l' : List Char) :
    "__ask_reply".toList ++ ':' :: l ≠ "__ask_reply@".toList ++ l' := by
  have hsplit : "__ask_reply@".toList = "__ask_reply".toList ++ ['@'] := by decide +kernel
  rw [hsplit, append_assoc]
  intro h
  have htail := append_cancel_left h
  simp at htail

theorem eq_replyAddress_of_key {nodeID r : String} {pid : PID}
    (hhere : askReplyHere nodeID pid = true) (hkey : pid.key = (replyAddress nodeID r).key) :
    pid = { replyAddress nodeID r with generation := pid.generation } := by
  have hns : pid.ns = askReplyNamespaceOf nodeID := by
    have hlist := congrArg String.toList hkey
    rw [PID.toList_key, PID.toList_key] at hlist
    simp only [askReplyHere, isAskReplyNamespace, and_eq_true, or_eq_true,
      decide_eq_true_eq] at hhere
    obtain ⟨hreply, hown⟩ := hhere
    simp only [replyAddress, askReplyNamespaceOf] at hlist ⊢
    by_cases hnode : nodeID = ""
    · -- without a node ID every qualified namespace is taken as well, but its keys differ
      rw [if_pos hnode] at hlist ⊢
      rcases hreply with hplain | hqualified
      · exact hplain
      · obtain ⟨rest, hrest⟩ := isPrefixOf_iff_prefix.mp hqualified
        rw [← hrest, append_assoc] at hlist
        exact absurd hlist.symm (plain_ne_qualified _ _)
    · -- with one, the plain namespace is
      rw [if_neg hnode] at hlist ⊢
      rcases hown with (hempty | hplain) | hqualified
      · exact absurd hempty hnode
      · rw [hplain, String.toList_append, append_assoc] at hlist
        exact absurd hlist (plain_ne_qualified _ _)
      · exact hqualified
  have hactor : pid.actorID = r := by
    simpa [PID.key, replyAddress, hns] using hkey
  rw [← hactor]
  simp only [replyAddress, ← hns]

namespace AskTable

theorem requestID_inj {n m : ℕ} (h : requestID n = requestID m) : n = m :=
  repr_inj ((String.append_right_inj _).mp h)

def pending (t : AskTable π) (r : String) : Bool := (t.askWait.lookup r).isSome

theorem pending_enter (t : AskTable π) (wait : PendingAsk) (r : String) :
    (t.enter wait).pending r = (decide (r = wait.requestID) || t.pending r) := by
  simp only [pending, enter, lookup_insert_ite]
  split_ifs with hr <;> simp [hr]

variable {t t' : AskTable π}

theorem pending_of_erase {r : String} (hwait : t'.askWait = t.askWait.erase r) (r' : String) :
    t'.pending r' = (decide (r' ≠ r) && t.pending r') := by
  simp only [pending, hwait, lookup_erase_ite]
  split_ifs with hr <;> simp [hr]

/-- The maps describe the same requests, each under its identifier and its reply address. -/
structure Sound (nodeID : String) (t : AskTable π) : Prop where
  wait : ∀ r w, t.askWait.lookup r = some w → w.requestID = r ∧ w.replyTo = replyAddress nodeID r
  reply : ∀ key r, t.askReply.lookup key = some r ↔
    t.pending r = true ∧ key = (replyAddress nodeID r).key

theorem sound_new (nodeID : String) : Sound nodeID (new : AskTable π) := by
  refine ⟨fun r w h => ?_, fun key r => ⟨fun h => ?_, fun h => ?_⟩⟩
  · cases h
  · cases h
  · cases h.1

variable {nodeID : String}

theorem Sound.enter (hs : t.Sound nodeID) {wait : PendingAsk}
    (hto : wait.replyTo = replyAddress nodeID wait.requestID) : (t.enter wait).Sound nodeID := by
  refine ⟨fun r w hw => ?_, fun key r => ?_⟩
  · simp only [AskTable.enter, lookup_insert_ite] at hw
    split_ifs at hw with hr
    · cases hw
      exact ⟨hr.symm, by rw [hr]; exact hto⟩
    · exact hs.wait r w hw
  · have hlookup : (t.enter wait).askReply.lookup key =
        if key = (replyAddress nodeID wait.requestID).key then some wait.requestID
        else t.askReply.lookup key := by
      rw [← hto]
      exact lookup_insert_ite _ _ _ _
    rw [hlookup, pending_enter, or_eq_true, decide_eq_true_eq]
    by_cases hk : key = (replyAddress nodeID wait.requestID).key
    · rw [if_pos hk, hk]
      constructor
      · intro h
        cases h
        exact ⟨.inl rfl, rfl⟩
      · rintro ⟨-, hr⟩
        rw [replyAddress_key_inj.mp hr]
    · rw [if_neg hk, hs.reply]
      constructor
      · rintro ⟨hp, rfl⟩
        exact ⟨.inr hp, rfl⟩
      · rintro ⟨rfl | hp, hkey'⟩
        · exact absurd hkey' hk
        · exact ⟨hp, hkey'⟩

theorem Sound.remove (hs : t.Sound nodeID) {r : String} (hwait : t'.askWait = t.askWait.erase r)
    (hreply : t'.askReply = t.askReply.erase (replyAddress nodeID r).key) : t'.Sound nodeID := by
  have hpending := pending_of_erase hwait
  refine ⟨fun r' w hw => ?_, fun key r' => ?_⟩
  · rw [hwait, lookup_erase_ite] at hw
    split_ifs at hw
    exact hs.wait r' w hw
  · simp only [hreply, lookup_erase_ite, hpending, and_eq_true, decide_eq_true_eq]
    constructor
    · intro h
      split_ifs at h with hk
      obtain ⟨hp, rfl⟩ := (hs.reply key r').mp h
      exact ⟨⟨fun hr => hk (replyAddress_key_inj.mpr hr), hp⟩, rfl⟩
    · rintro ⟨⟨hr, hp⟩, rfl⟩
      rw [if_neg (mt replyAddress_key_inj.mp hr)]
      exact (hs.reply _ r').mpr ⟨hp, rfl⟩

theorem Sound.complete (hs : t.Sound nodeID) {wait : PendingAsk}
    (hto : wait.replyTo = replyAddress nodeID wait.requestID) (evict : ℕ) :
    (t.completeAskRequest wait evict).Sound nodeID :=
  hs.remove rfl (by rw [← hto]; rfl)

/-- A pending request is taken out for a reply that was sent to its address. -/
structure Taken (nodeID : String) (t : AskTable π) (pid : PID) (w : PendingAsk) (t' : AskTable π) :
    Prop where
  pending : t.pending w.requestID = true
  sentTo : pid = { replyAddress nodeID w.requestID with generation := pid.generation }
  asks : t' = t.close pid.key w.requestID w.targetActor

theorem Taken.sound {pid : PID} {w : PendingAsk} (h : Taken nodeID t pid w t')
    (hs : t.Sound nodeID) : t'.Sound nodeID := by
  have hkey : pid.key = (replyAddress nodeID w.requestID).key := by rw [h.sentTo]; rfl
  rw [h.asks, hkey]
  exact hs.remove rfl rfl

/-- **Matching a reply.** Nothing happens, or the request with the reply's address is taken out, and
may get the reply. -/
theorem matchReply_cases (hs : t.Sound nodeID) {pid : PID}
    (hhere : askReplyHere nodeID pid = true) {reply : Reply π}
    {result : Except PIDDeliveryOutcome (PendingAsk × AskReplyEnvelope π)}
    (hmatch : t.matchReply pid reply = (result, t')) :
    (∃ o, result = .error o ∧ t' = t) ∨ ∃ w, Taken nodeID t pid w t' ∧
        ((∃ o, result = .error o) ∨ result = .ok (w, reply.wrap w.requestID)) := by
  simp only [matchReply] at hmatch
  cases hkey : t.askReply.lookup pid.key with
  | none =>
    simp only [hkey] at hmatch
    cases hmatch
    exact .inl ⟨_, rfl, rfl⟩
  | some r =>
    obtain ⟨hp, hk⟩ := (hs.reply pid.key r).mp hkey
    obtain ⟨w, hw⟩ := isSome_iff_exists.mp hp
    obtain ⟨rfl, -⟩ := hs.wait r w hw
    have hpid := eq_replyAddress_of_key hhere hk
    simp only [hkey, hw, map_some, getD_some] at hmatch
    split_ifs at hmatch
    · cases hmatch
      exact .inr ⟨w, ⟨hp, hpid, rfl⟩, .inl ⟨_, rfl⟩⟩
    · cases hmatch
      exact .inr ⟨w, ⟨hp, hpid, rfl⟩, .inr rfl⟩

theorem offer_cases (t : AskTable π) (wait : PendingAsk) (env : AskReplyEnvelope π) :
    (t.waitCh.lookup wait.requestID = some none ∧ t.offer wait env =
        (.delivered, { t with waitCh := t.waitCh.insert wait.requestID (some env) })) ∨
      t.offer wait env = (.rejectedStopped, t) := by
  simp only [offer]
  split
  · next hempty => exact .inl ⟨hempty, rfl⟩
  · exact .inr rfl

end AskTable

theorem Reply.payload_wrap (r : String) (reply : Reply π) :
    (reply.wrap r).payload = reply.payload := by
  cases reply with
  | bare payload => rfl
  | envelope env =>
    simp only [Reply.wrap, Reply.payload]
    split_ifs <;> rfl

/-- The operations of a host that concern no request. -/
def HostAction.asksNothing : HostAction π → Bool
  | .runtime _ | .unregisterName _ | .registerTypeRoute .. | .registerFallbackRoute ..
  | .configureRouter .. | .deliverLocal _ _ none _ => true
  | _ => false

namespace Host

structure SameAsks (h h' : Host π) : Prop where
  asks : h'.asks = h.asks
  nodeID : h'.nodeID = h.nodeID

theorem SameAsks.refl (h : Host π) : SameAsks h h := ⟨rfl, rfl⟩

variable {h h' : Host π}

theorem SameAsks.trans {h₁ h₂ : Host π} (h₀₁ : SameAsks h h₁) (h₁₂ : SameAsks h₁ h₂) :
    SameAsks h h₂ :=
  ⟨h₁₂.asks.trans h₀₁.asks, h₁₂.nodeID.trans h₀₁.nodeID⟩

variable [Inhabited π] [Payload π]

theorem sameAsks_deliver (h : Host π) (id : String) (payload : π)
    (ask : Option AskRequestContext) : SameAsks h (h.deliver id payload ask).2 := by
  refine ⟨?_, (sameBooks_deliver h id payload ask).nodeID⟩
  simp only [deliver]
  cases h.registry.lookup id with
  | none => rfl
  | some a =>
    simp only
    split_ifs
    · rfl
    · cases h.routeMatch id payload <;> rfl

variable {payload : Option π} {fuel : ℕ}

variable {id : String}

theorem sameAsks_sendWithAskContext {ask : Option AskRequestContext} {result : SubmitResult}
    (hsend : h.sendWithAskContext id payload ask fuel = some (result, h')) : SameAsks h h' := by
  refine sendWithAskContext_rel (R := SameAsks) ?_ ?_ ?_ ?_ fuel hsend
  · exact fun _ _ _ h1 h2 => h1.trans h2
  · exact fun h => ⟨rfl, rfl⟩
  · exact fun h id router _ => ⟨rfl, rfl⟩
  · exact fun h id p ask _ => sameAsks_deliver h id p ask

variable {pid : PID}

theorem sameAsks_sendResolved {outcome : PIDDeliveryOutcome}
    (hsend : h.sendResolved pid payload fuel = some (outcome, h')) : SameAsks h h' := by
  rcases sendResolved_cases hsend with ⟨-, rfl⟩ | ⟨-, result, hsent, -⟩
  · exact .refl h'
  · exact sameAsks_sendWithAskContext hsent

variable {wait : PendingAsk} {evict : ℕ} {ok : Bool}

theorem submitAsk_asks (hask : h.submitAsk wait id payload evict fuel = some (ok, h')) :
    h'.asks = if ok then h.asks else h.asks.completeAskRequest wait evict := by
  simp only [submitAsk, map_eq_some_iff] at hask
  obtain ⟨⟨result, h1⟩, hsent, hr⟩ := hask
  have hsame := (sameAsks_sendWithAskContext hsent).asks
  simp only at hr
  split_ifs at hr
  · cases hr
    exact hsame
  · cases hr
    simp [abandon, hsame]

theorem submitAskPID_asks (hask : h.submitAskPID wait pid payload evict fuel = some (ok, h')) :
    h'.asks = if ok then h.asks else h.asks.completeAskRequest wait evict := by
  simp only [submitAskPID] at hask
  cases htr : h.transport h.remoteAsk pid with
  | some remoteAsk =>
    simp only [htr] at hask
    split_ifs at hask
    · cases hask
      rfl
    · cases hask
      rfl
  | none =>
    simp only [htr] at hask
    exact submitAsk_asks hask

variable {a : HostAction π} {es : List RuntimeEvent}

theorem nodeID_step [ReplyPayload π] (hstep : h.step a = some (h', es)) : h'.nodeID = h.nodeID := by
  cases does_of_step hstep with
  | runtime hdoes => exact hdoes.nodeID
  | unregisters => exact Runtime.nodeID_unregisterName _ _
  | keeps hsame => exact hsame.nodeID

theorem sameAsks_step [ReplyPayload π] (ha : a.asksNothing = true)
    (hstep : h.step a = some (h', es)) : SameAsks h h' := by
  refine ⟨?_, nodeID_step hstep⟩
  have hsetting : ∀ r : Except RuntimeError (Host π), (∀ h', r = .ok h' → h'.asks = h.asks) →
      (h.orSame r).asks = h.asks := by
    intro r hr
    cases r with
    | error e => rfl
    | ok h' => exact hr h' rfl
  cases a with
  | runtime op =>
    simp only [step] at hstep
    split_ifs at hstep
    simp only [map_eq_some_iff] at hstep
    obtain ⟨r, -, hr⟩ := hstep
    cases hr
    rfl
  | unregisterName name =>
    cases hstep
    rfl
  | registerTypeRoute actorID typeName schemaVersion handlerKey =>
    cases hstep
    refine hsetting _ fun h' hok => ?_
    rw [registerTypeRoute_ok hok]
  | registerFallbackRoute actorID handlerKey =>
    cases hstep
    refine hsetting _ fun h' hok => ?_
    rw [registerFallbackRoute_ok hok]
  | configureRouter routerID strategy workers =>
    cases hstep
    refine hsetting _ fun h' hok => ?_
    rw [configureRouter_ok hok]
  | deliverLocal id payload ask fuel =>
    simp only [step, map_eq_some_iff] at hstep
    obtain ⟨⟨result, h1⟩, hsent, hr⟩ := hstep
    cases hr
    exact (sameAsks_sendWithAskContext hsent).asks
  | sendPID _ _ _ | sendName _ _ _ | ask _ _ _ _ | askPID _ _ _ _ | askReturns _ _ => cases ha

end Host
end Westcoast
