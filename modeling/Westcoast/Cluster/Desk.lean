import Mathlib.Data.List.InsertIdx
import Westcoast.Cluster.Asking

/-!
# What a step does to the requests of a node

A `Desk` is what a node holds of its requests: the maps, the requests that are drawn and not
entered, those whose callers wait, and the replies on the way to a channel. A step of the network is
a move at one desk and hands over envelopes that somebody sent (`turn_of_step`).
-/
namespace Westcoast.Cluster

open Lib List Option AskingNode

variable {ι π β : Type}

/-- The requests of a node, without its actors. -/
structure Desk (π : Type) where
  asks : AskTable π
  drawn : List PendingAsk
  waits : List PendingAsk
  offers : List (PendingAsk × AskReplyEnvelope π)

namespace Desk

/-- The first lines of `newAskRequest`: a number is drawn. -/
def draw (d : Desk π) (nodeID targetActor : String) : Desk π :=
  { d with asks := d.asks.draw, drawn := d.drawn ++ [d.asks.nextRequest nodeID targetActor] }

/-- The rest of `newAskRequest`: the request is entered. -/
def enter (d : Desk π) (k : ℕ) (wait : PendingAsk) : Desk π :=
  { d with
    asks := d.asks.enter wait
    drawn := d.drawn.eraseIdx k
    waits := d.waits ++ [wait] }

/-- `completeAskRequest`, deferred by the call that waits. -/
def complete (d : Desk π) (k : ℕ) (wait : PendingAsk) (evict : ℕ) : Desk π :=
  { d with asks := d.asks.completeAskRequest wait evict, waits := d.waits.eraseIdx k }

end Desk

namespace AskingNode

def desk (n : AskingNode π) : Desk π where
  asks := n.host.asks
  drawn := n.drawn.map (·.wait)
  waits := n.calls.map (·.wait)
  offers := n.offers

variable (n : AskingNode π)

theorem desk_draw (target : AskTarget) :
    (n.draw target).desk = n.desk.draw n.host.nodeID target.actorID := by
  simp [desk, draw, setAsks, Desk.draw]

theorem desk_enter (k : ℕ) (call : Call) : (n.enter k call).desk = n.desk.enter k call.wait := by
  simp [desk, enter, setAsks, Desk.enter, eraseIdx_map]

theorem desk_complete (k : ℕ) (wait : PendingAsk) (evict : ℕ) :
    (n.complete k wait evict).desk = n.desk.complete k wait evict := by
  simp only [desk, complete, Host.abandon, Desk.complete, eraseIdx_map]

end AskingNode

def NetEvent.accepts [DecidableEq ι] (i : ι) (requestID : String) : NetEvent ι π → Bool
  | .accepted j r => decide (j = i ∧ r = requestID)
  | _ => false

def NetEvent.isSent : NetEvent ι π → Bool
  | .sent .. => true
  | _ => false

/-- The moves at the desk of node `i`; `tr` is what has happened, the step included. -/
inductive Desk.Moves [ReplyPayload π] (i : ι) (nodeID : String) (tr : List (NetEvent ι π))
    (d : Desk π) : Desk π → List (NetEvent ι π) → Prop
  | keeps {es : List (NetEvent ι π)} : es.all (·.isSent) = true → Moves i nodeID tr d d es
  | draws {targetActor : String} : Moves i nodeID tr d (d.draw nodeID targetActor) []
  | enters {k : ℕ} {wait : PendingAsk} : d.drawn[k]? = some wait →
      Moves i nodeID tr d (d.enter k wait) []
  | completes {k evict : ℕ} {wait : PendingAsk} : d.waits[k]? = some wait →
      Moves i nodeID tr d (d.complete k wait evict) []
  | refuses {pid : PID} {v : Option π} {o : PIDDeliveryOutcome} {asks : AskTable π}
      {es : List (NetEvent ι π)} : es.all (·.isSent) = true → askReplyHere nodeID pid = true →
      .sent pid v ∈ tr → d.asks.matchReply pid (.of v) = (.error o, asks) →
      Moves i nodeID tr d { d with asks := asks } es
  | matched {pid : PID} {v : Option π} {offer : PendingAsk × AskReplyEnvelope π}
      {asks : AskTable π} {es : List (NetEvent ι π)} :
      es.all (·.isSent) = true → askReplyHere nodeID pid = true → .sent pid v ∈ tr →
      d.asks.matchReply pid (.of v) = (.ok offer, asks) →
      Moves i nodeID tr d { d with asks := asks, offers := d.offers ++ [offer] } es
  | accepts {k : ℕ} {wait : PendingAsk} {env : AskReplyEnvelope π} {asks : AskTable π} :
      d.offers[k]? = some (wait, env) → d.asks.offer wait env = (.delivered, asks) →
      Moves i nodeID tr d { d with asks := asks, offers := d.offers.eraseIdx k }
        [.accepted i wait.requestID]
  | drops {k : ℕ} : Moves i nodeID tr d { d with offers := d.offers.eraseIdx k } []
  | receives {k evict : ℕ} {wait : PendingAsk} {env : AskReplyEnvelope π} {asks : AskTable π} :
      d.waits[k]? = some wait → d.asks.receive wait = some (env, asks) →
      Moves i nodeID tr d ({ d with asks := asks }.complete k wait evict)
        [.returned i wait env.payload]

/-- An envelope in flight carries a request, or was made by a `SendPID`. -/
def Sourced (codec : Codec π β) (tr : List (NetEvent ι π)) (env : RemoteEnvelope β) : Prop :=
  env.isAsk = true ∧ env.askReplyTo.isSome = true ∨
    ∃ v, .sent ⟨env.ns, env.targetActorID, env.generation⟩ v ∈ tr ∧
      codec.encode v = some env.payload

theorem Sourced.append {codec : Codec π β} {tr : List (NetEvent ι π)} {env : RemoteEnvelope β}
    (h : Sourced codec tr env) (es : List (NetEvent ι π)) : Sourced codec (tr ++ es) env := by
  rcases h with hask | ⟨v, hsent, henc⟩
  · exact .inl hask
  · exact .inr ⟨v, mem_append_left es hsent, henc⟩

section
variable [Payload π]

variable {pid : PID} {v : Option π} {env : RemoteEnvelope β}

theorem sourced_of_sent {codec : Codec π β} {tr : List (NetEvent ι π)} (hsent : .sent pid v ∈ tr)
    (henv : env ∈ (codec.envelope pid v none).toList) : Sourced codec tr env := by
  simp only [Codec.envelope, mem_toList, map_eq_some_iff] at henv
  obtain ⟨bytes, henc, rfl⟩ := henv
  exact .inr ⟨v, hsent, henc⟩

theorem sourced_of_ask (codec : Codec π β) (tr : List (NetEvent ι π)) {ask : AskRequestContext}
    (henv : env ∈ (codec.envelope pid v (some ask)).toList) : Sourced codec tr env := by
  simp only [Codec.envelope, mem_toList, map_eq_some_iff] at henv
  obtain ⟨bytes, -, rfl⟩ := henv
  exact .inl ⟨rfl, rfl⟩

end

structure Acts [ReplyPayload π] (codec : Codec π β) (i : ι) (tr : List (NetEvent ι π))
    (n n' : AskingNode π) (envs : List (RemoteEnvelope β)) (es : List (NetEvent ι π)) : Prop where
  nodeID : n'.host.nodeID = n.host.nodeID
  moves : Desk.Moves i n.host.nodeID tr n.desk n'.desk es
  sourced : ∀ env ∈ envs, Sourced codec tr env

section
variable [ReplyPayload π] {codec : Codec π β} {i : ι}
  {tr es : List (NetEvent ι π)} {n n' : AskingNode π}

variable {h : Westcoast.Host π}

theorem acts_of_sameAsks (hsame : n.host.SameAsks h) (hes : es.all (·.isSent) = true) :
    Acts codec i tr n { n with host := h } [] es := by
  have hdesk : ({ n with host := h } : AskingNode π).desk = n.desk := by
    simp only [desk, hsame.asks]
  refine ⟨hsame.nodeID, ?_, by simp⟩
  rw [hdesk]
  exact .keeps hes

variable {pid : PID} {v : Option π}

theorem acts_takeReply (hes : es.all (·.isSent) = true)
    (hhere : askReplyHere n.host.nodeID pid = true) (hsent : .sent pid v ∈ tr) :
    Acts codec i tr n (n.takeReply pid v) [] es := by
  simp only [takeReply]
  cases hmatch : n.host.asks.matchReply pid (.of v) with
  | mk result asks =>
    cases result with
    | error o => exact ⟨rfl, .refuses hes hhere hsent hmatch, by simp⟩
    | ok offer => exact ⟨rfl, .matched hes hhere hsent hmatch, by simp⟩

variable {evict k fuel : ℕ} {call : Call} {envs : List (RemoteEnvelope β)}

theorem acts_submitted {ok : Bool} (hk : n.calls[k]? = some call) (hnode : h.nodeID = n.host.nodeID)
    (hasks : h.asks = if ok then n.host.asks else n.host.asks.completeAskRequest call.wait evict)
    (henvs : ∀ env ∈ envs, Sourced codec tr env) :
    Acts codec i tr n (n.submitted k call (ok, h)) envs [] := by
  refine ⟨hnode, ?_, henvs⟩
  cases ok with
  | true =>
    -- the call is marked, but waits for the same request
    have hwaits : (n.calls.set k { call with submitted := true }).map (·.wait) =
        n.calls.map (·.wait) := by
      obtain ⟨hlt, rfl⟩ := List.getElem?_eq_some_iff.mp hk
      refine ext_getElem? fun j => ?_
      by_cases hj : k = j
      · subst hj
        simp [hlt]
      · simp [hj]
    have hdesk : (n.submitted k call (true, h)).desk = n.desk := by
      simp only [desk, submitted, if_pos, hwaits, hasks]
    rw [hdesk]
    exact .keeps rfl
  | false =>
    have hdesk : (n.submitted k call (false, h)).desk = n.desk.complete k call.wait evict := by
      simp [desk, submitted, Desk.complete, hasks, eraseIdx_map]
    rw [hdesk]
    exact .completes (by simp [desk, hk])

variable [Inhabited π] [Payload π]

variable {taken : Bool}

theorem acts_sendPID (hes : es.all (·.isSent) = true) (hsent : .sent pid v ∈ tr)
    (hsend : n.sendPID codec pid v taken fuel = some (n', envs)) :
    Acts codec i tr n n' envs es := by
  simp only [sendPID] at hsend
  split_ifs at hsend with hhere hremote htaken
  · cases hsend
    have hacts : Acts codec i tr { n with host := n.host.drawID } _ [] es :=
      acts_takeReply hes hhere hsent
    exact ⟨hacts.nodeID, hacts.moves, hacts.sourced⟩
  · cases hsend
    exact ⟨rfl, .keeps hes, fun env henv => sourced_of_sent hsent henv⟩
  · cases hsend
    exact ⟨rfl, .keeps hes, by simp⟩
  · rw [map_eq_some_iff] at hsend
    obtain ⟨⟨outcome, h⟩, hsent', hr⟩ := hsend
    cases hr
    have hsame : n.host.SameAsks h :=
      (⟨rfl, rfl⟩ : n.host.SameAsks n.host.drawID).trans (Host.sameAsks_sendResolved hsent')
    exact acts_of_sameAsks hsame hes

theorem acts_submit {payload : Option π} {answer : PIDDeliveryOutcome}
    (hk : n.calls[k]? = some call)
    (hsubmit : n.submit codec k call payload answer taken evict fuel = some (n', envs)) :
    Acts codec i tr n n' envs [] := by
  simp only [submit] at hsubmit
  cases htarget : call.target with
  | actor id =>
    simp only [htarget, map_eq_some_iff] at hsubmit
    obtain ⟨⟨ok, h⟩, hask, hr⟩ := hsubmit
    cases hr
    exact acts_submitted hk (Host.sameBooks_submitAsk hask).nodeID (Host.submitAsk_asks hask)
      (by simp)
  | pid pid =>
    simp only [htarget, map_eq_some_iff] at hsubmit
    obtain ⟨⟨ok, h⟩, hask, hr⟩ := hsubmit
    cases hr
    have hasks := Host.submitAskPID_asks hask
    refine acts_submitted hk (Host.sameBooks_submitAskPID hask).nodeID hasks fun env henv => ?_
    split_ifs at henv
    · exact sourced_of_ask codec tr henv
    · cases henv

theorem acts_dispatch {handlers : List String} {env : RemoteEnvelope β}
    (hsourced : Sourced codec tr env)
    (hdispatch : Net.dispatch codec handlers n env fuel = some (n', envs)) :
    Acts codec i tr n n' envs [] := by
  simp only [Net.dispatch] at hdispatch
  rcases inbound_cases ⟨codec, handlers, true⟩ n.host.nodeID env with
    hin | ⟨payload, hdec, ⟨ask, hin⟩ | ⟨hnoask, hlocal, hin⟩⟩
  · simp only [hin] at hdispatch
    cases hdispatch
    exact ⟨rfl, .keeps rfl, by simp⟩
  · simp only [hin, map_eq_some_iff] at hdispatch
    obtain ⟨⟨result, h⟩, hsent, hr⟩ := hdispatch
    cases hr
    exact acts_of_sameAsks (Host.sameAsks_sendWithAskContext hsent) rfl
  · -- it is no request, so a `SendPID` made it, and decoding gives back what was sent
    simp only [hin] at hdispatch
    rcases hsourced with ⟨hask, hto⟩ | ⟨v, hsent, henc⟩
    · rcases hnoask with hno | hno
      · rw [hno] at hask
        cases hask
      · rw [hno] at hto
        cases hto
    · obtain rfl := codec.decode_encode v env.payload payload henc hdec
      exact acts_sendPID rfl hsent hdispatch

end

/-- **A step of the network**: an envelope is lost, or a node moves; what is new in flight
was sent. -/
inductive Net.Turn [DecidableEq ι] [ReplyPayload π] (codec : Codec π β) (tr : List (NetEvent ι π))
    (s : Net ι π β) : Net ι π β → List (NetEvent ι π) → Prop
  | loses {k : ℕ} : Turn codec tr s { s with flight := s.flight.eraseIdx k } []
  | acts {i : ι} {n : AskingNode π} {flight envs : List (RemoteEnvelope β)}
      {es : List (NetEvent ι π)} : flight ⊆ s.flight →
      Acts codec i (tr ++ es) (s.nodes i) n envs es →
      Turn codec tr s ({ s with flight := flight }.put i n envs) es

theorem Net.turn_of_step [DecidableEq ι] [Inhabited π] [Payload π] [ReplyPayload π]
    {codec : Codec π β} {handlers : ι → List String} {tr es : List (NetEvent ι π)}
    {s s' : Net ι π β} {a : NetAction ι π} (hflight : ∀ env ∈ s.flight, Sourced codec tr env)
    (hstep : s.step codec handlers a = some (s', es)) : Net.Turn codec tr s s' es := by
  have hkeep : s.flight ⊆ s.flight := List.Subset.refl s.flight
  cases a with
  | host i a =>
    simp only [Net.step] at hstep
    split_ifs at hstep with hasks
    rw [map_eq_some_iff] at hstep
    obtain ⟨⟨h, es'⟩, hhost, hr⟩ := hstep
    cases hr
    exact .acts hkeep (acts_of_sameAsks (Host.sameAsks_step hasks hhost) rfl)
  | sendPID i pid payload taken fuel =>
    simp only [Net.step, map_eq_some_iff] at hstep
    obtain ⟨⟨n, envs⟩, hsend, hr⟩ := hstep
    cases hr
    exact .acts hkeep (acts_sendPID rfl (by simp) hsend)
  | draw i target =>
    cases hstep
    refine .acts hkeep ⟨rfl, ?_, by simp⟩
    rw [desk_draw]
    exact .draws
  | enter i k =>
    simp only [Net.step] at hstep
    cases hk : (s.nodes i).drawn[k]? with
    | none => simp [hk] at hstep
    | some call =>
      simp only [hk] at hstep
      cases hstep
      refine .acts hkeep ⟨rfl, ?_, by simp⟩
      rw [desk_enter]
      exact .enters (by simp [desk, hk])
  | submit i k payload answer taken evict fuel =>
    simp only [Net.step] at hstep
    cases hk : (s.nodes i).calls[k]? with
    | none => simp [hk] at hstep
    | some call =>
      simp only [hk] at hstep
      split_ifs at hstep
      rw [map_eq_some_iff] at hstep
      obtain ⟨⟨n, envs⟩, hsubmit, hr⟩ := hstep
      cases hr
      exact .acts hkeep (acts_submit hk hsubmit)
  | deliver i k fuel =>
    simp only [Net.step] at hstep
    cases hk : s.flight[k]? with
    | none => simp [hk] at hstep
    | some env =>
      simp only [hk] at hstep
      split_ifs at hstep
      rw [map_eq_some_iff] at hstep
      obtain ⟨⟨n, envs⟩, hdispatch, hr⟩ := hstep
      cases hr
      have hsourced := (hflight env (mem_of_getElem? hk)).append []
      exact .acts eraseIdx_subset (acts_dispatch hsourced hdispatch)
  | lose k =>
    cases hstep
    exact .loses
  | offer i k =>
    simp only [Net.step] at hstep
    cases hk : (s.nodes i).offers[k]? with
    | none => simp [hk] at hstep
    | some offer =>
      obtain ⟨wait, env⟩ := offer
      simp only [hk] at hstep
      rcases AskTable.offer_cases (s.nodes i).host.asks wait env with ⟨-, hoffer⟩ | hoffer
      · simp only [hoffer] at hstep
        cases hstep
        exact .acts hkeep ⟨rfl, .accepts hk hoffer, by simp⟩
      · simp only [hoffer] at hstep
        cases hstep
        exact .acts hkeep ⟨rfl, .drops, by simp⟩
  | receive i k evict =>
    simp only [Net.step] at hstep
    cases hk : (s.nodes i).calls[k]? with
    | none => simp [hk] at hstep
    | some call =>
      simp only [hk] at hstep
      split_ifs at hstep
      rw [map_eq_some_iff] at hstep
      obtain ⟨⟨env, asks⟩, hreceive, hr⟩ := hstep
      cases hr
      refine .acts hkeep ⟨rfl, ?_, by simp⟩
      rw [desk_complete]
      exact .receives (by simp [desk, hk]) hreceive
  | giveUp i k evict =>
    simp only [Net.step] at hstep
    cases hk : (s.nodes i).calls[k]? with
    | none => simp [hk] at hstep
    | some call =>
      simp only [hk] at hstep
      split_ifs at hstep
      cases hstep
      refine .acts hkeep ⟨rfl, ?_, by simp⟩
      rw [desk_complete]
      exact .completes (by simp [desk, hk])

end Westcoast.Cluster
