import Mathlib.Data.List.Perm.Basic
import Westcoast.Cluster.Desk

/-!
# Replies reach the requests they were sent to

A request has one token: drawn, then pending, then with a reply on the way to the channel, then
spent. A token is made only with a number that was never drawn (`Spent`). A reply is matched by the
address it was sent to, and then carried together with its request (`DeskOk`).
-/
namespace Westcoast.Cluster

open Lib List AskTable

variable {ι π β : Type}

/-- The request is one of this node: replies for it are sent to the address of its number. -/
def OfNode (nodeID : String) (wait : PendingAsk) : Prop :=
  wait.replyTo = replyAddress nodeID wait.requestID

/-- The payload was sent to the address. `routeAskReply` does not look at the generation. -/
def SentTo [ReplyPayload π] (tr : List (NetEvent ι π)) (addr : PID) (payload : Option π) : Prop :=
  ∃ pid v, .sent pid v ∈ tr ∧ pid = { addr with generation := pid.generation } ∧
    payload = (Reply.of v).payload

theorem SentTo.append [ReplyPayload π] {tr : List (NetEvent ι π)} {addr : PID}
    {payload : Option π} (h : SentTo tr addr payload) (es : List (NetEvent ι π)) :
    SentTo (tr ++ es) addr payload := by
  obtain ⟨pid, v, hsent, hpid, hpayload⟩ := h
  exact ⟨pid, v, mem_append_left es hsent, hpid, hpayload⟩

theorem countP_eraseIdx {α : Type} {l : List α} {k : ℕ} {x : α} (hk : l[k]? = some x)
    (p : α → Bool) : l.countP p = (l.eraseIdx k).countP p + (p x).toNat := by
  obtain ⟨hlt, rfl⟩ := List.getElem?_eq_some_iff.mp hk
  rw [← (getElem_cons_eraseIdx_perm hlt).countP_eq p, countP_cons]
  cases p l[k] <;> rfl

section
variable [DecidableEq ι] {i : ι} {nodeID : String} {tr es : List (NetEvent ι π)} {d d' : Desk π}

/-! ### Tokens -/

theorem accepts_of_isSent (hes : es.all (·.isSent) = true) (i : ι) :
    ∀ e ∈ es, ∀ r, e.accepts i r = false := by
  intro e he r
  have hsent := all_eq_true.mp hes e he
  cases e with
  | sent pid v => rfl
  | accepted j r' | returned j wait payload => cases hsent

def tokens (i : ι) (tr : List (NetEvent ι π)) (d : Desk π) (r : String) : ℕ :=
  d.drawn.countP (·.requestID = r) + (d.asks.pending r).toNat +
    d.offers.countP (·.1.requestID = r) + tr.countP (·.accepts i r)

/-- One token for a request at most, and none for a number that was not drawn. -/
structure Spent (i : ι) (tr : List (NetEvent ι π)) (d : Desk π) : Prop where
  once : ∀ r, tokens i tr d r ≤ 1
  fresh : ∀ m, d.asks.askSeq < m → tokens i tr d (requestID m) = 0

theorem Spent.mono {tr' : List (NetEvent ι π)} (h : Spent i tr d)
    (hseq : d'.asks.askSeq = d.asks.askSeq) (hle : ∀ r, tokens i tr' d' r ≤ tokens i tr d r) :
    Spent i tr' d' := by
  refine ⟨fun r => (hle r).trans (h.once r), fun m hm => ?_⟩
  have hold := h.fresh m (hseq ▸ hm)
  have hnew := hle (requestID m)
  omega

theorem tokens_append (hes : ∀ e ∈ es, ∀ r, e.accepts i r = false) (r : String) :
    tokens i (tr ++ es) d r = tokens i tr d r := by
  have hnone : es.countP (·.accepts i r) = 0 := by
    rw [countP_eq_zero]
    intro e he
    simp [hes e he r]
  simp [tokens, hnone]

theorem tokens_draw (targetActor r : String) : tokens i tr (d.draw nodeID targetActor) r =
      tokens i tr d r + (decide (requestID (d.asks.askSeq + 1) = r)).toNat := by
  have hdrawn : (d.draw nodeID targetActor).drawn.countP (·.requestID = r) =
      d.drawn.countP (·.requestID = r) +
        (decide (requestID (d.asks.askSeq + 1) = r)).toNat := by
    simp only [Desk.draw, nextRequest, countP_append, countP_cons,
      countP_nil, Nat.zero_add]
    split_ifs with hr <;> simp_all
  have hpending : (d.draw nodeID targetActor).asks.pending r = d.asks.pending r := rfl
  have hoffers : (d.draw nodeID targetActor).offers = d.offers := rfl
  simp only [tokens, hdrawn, hpending, hoffers]
  omega

section
variable (h : Spent i tr d)
include h

theorem Spent.draw (targetActor : String) : Spent i tr (d.draw nodeID targetActor) := by
  refine ⟨fun r => ?_, fun m hm => ?_⟩
  · rw [tokens_draw]
    by_cases hr : requestID (d.asks.askSeq + 1) = r
    · rw [← hr, h.fresh _ (Nat.lt_succ_self _)]
      simp
    · simpa [hr] using h.once r
  · have hlt : d.asks.askSeq + 1 < m := hm
    have hne : requestID (d.asks.askSeq + 1) ≠ requestID m :=
      fun heq => hlt.ne (requestID_inj heq)
    rw [tokens_draw, h.fresh m (Nat.lt_of_succ_lt hlt)]
    simp [hne]

variable {k : ℕ} {wait : PendingAsk}

theorem Spent.enter (hk : d.drawn[k]? = some wait) : Spent i tr (d.enter k wait) := by
  refine h.mono rfl fun r => ?_
  -- what `drawn` loses is at least what the pending ones gain
  have hdrawn := countP_eraseIdx hk (·.requestID = r)
  have hpending : ((d.enter k wait).asks.pending r).toNat ≤
      (d.asks.pending r).toNat + (decide (wait.requestID = r)).toNat := by
    simp only [Desk.enter, pending_enter]
    by_cases hr : r = wait.requestID <;> simp [hr]
  simp only [tokens, hdrawn]
  simp only [Desk.enter] at hpending ⊢
  omega

theorem Spent.removes (hseq : d'.asks.askSeq = d.asks.askSeq) (hdrawn : d'.drawn = d.drawn)
    (hoffers : d'.offers = d.offers)
    (hpending : ∀ r, d'.asks.pending r = true → d.asks.pending r = true) : Spent i tr d' := by
  refine h.mono hseq fun r => ?_
  have hle : (d'.asks.pending r).toNat ≤ (d.asks.pending r).toNat := by
    cases hp : d'.asks.pending r with
    | false => simp
    | true => simp [hpending r hp]
  simp only [tokens, hdrawn, hoffers]
  omega

variable {asks : AskTable π}

theorem Spent.matched {r₀ : String} {offer : PendingAsk × AskReplyEnvelope π}
    (hr₀ : offer.1.requestID = r₀) (hseq : asks.askSeq = d.asks.askSeq)
    (hwait : asks.askWait = d.asks.askWait.erase r₀) (hpending : d.asks.pending r₀ = true) :
    Spent i tr { d with asks := asks, offers := d.offers ++ [offer] } := by
  refine h.mono hseq fun r => ?_
  have hcount : (d.offers ++ [offer]).countP (·.1.requestID = r) =
      d.offers.countP (·.1.requestID = r) + (decide (r₀ = r)).toNat := by
    simp only [countP_append, countP_cons, countP_nil, hr₀]
    split_ifs with hr <;> simp_all
  have hmoved : (asks.pending r).toNat + (decide (r₀ = r)).toNat ≤ (d.asks.pending r).toNat := by
    rw [pending_of_erase hwait]
    by_cases hr : r₀ = r
    · simp [← hr, hpending]
    · simp [hr, Ne.symm hr]
  simp only [tokens, hcount]
  omega

variable {env : AskReplyEnvelope π}

theorem Spent.accept (hk : d.offers[k]? = some (wait, env)) (hseq : asks.askSeq = d.asks.askSeq)
    (hwait : asks.askWait = d.asks.askWait) : Spent i (tr ++ [.accepted i wait.requestID])
      { d with asks := asks, offers := d.offers.eraseIdx k } := by
  refine h.mono hseq fun r => ?_
  have hoffers := countP_eraseIdx hk (·.1.requestID = r)
  have hevent : [(NetEvent.accepted i wait.requestID : NetEvent ι π)].countP (·.accepts i r) =
      (decide (wait.requestID = r)).toNat := by
    simp only [countP_cons, countP_nil, NetEvent.accepts, true_and]
    split_ifs with hr <;> simp_all
  have hpending : asks.pending r = d.asks.pending r := by simp only [pending, hwait]
  simp only [tokens, countP_append, hoffers, hevent, hpending]
  omega

theorem Spent.drop (k : ℕ) : Spent i tr { d with offers := d.offers.eraseIdx k } := by
  refine h.mono rfl fun r => ?_
  have hle := (eraseIdx_sublist d.offers k).countP_le (p := (·.1.requestID = r))
  simp only [tokens]
  omega

end

/-! ### Replies and their requests -/

variable [ReplyPayload π]

/-- What holds at the desk of node `i`, after the events `tr`. -/
structure DeskOk (i : ι) (nodeID : String) (tr : List (NetEvent ι π)) (d : Desk π) : Prop where
  sound : d.asks.Sound nodeID
  spent : Spent i tr d
  drawn : ∀ wait ∈ d.drawn, OfNode nodeID wait
  waits : ∀ wait ∈ d.waits, OfNode nodeID wait
  offers : ∀ o ∈ d.offers, SentTo tr (replyAddress nodeID o.1.requestID) o.2.payload
  channels : ∀ r env, d.asks.waitCh.lookup r = some (some env) →
    SentTo tr (replyAddress nodeID r) env.payload

theorem deskOk_new (i : ι) (nodeID : String) :
    DeskOk i nodeID [] (⟨.new, [], [], []⟩ : Desk π) where
  sound := sound_new nodeID
  spent := ⟨fun _ => Nat.zero_le 1, fun _ _ => rfl⟩
  drawn := by simp
  waits := by simp
  offers := by simp
  channels := fun r env h => by cases h

namespace DeskOk

variable (h : DeskOk i nodeID tr d)
include h

theorem append (hes : ∀ e ∈ es, ∀ r, e.accepts i r = false) : DeskOk i nodeID (tr ++ es) d where
  sound := h.sound
  spent := h.spent.mono rfl fun r => (tokens_append hes r).le
  drawn := h.drawn
  waits := h.waits
  offers := fun o ho => (h.offers o ho).append es
  channels := fun r env hch => (h.channels r env hch).append es

theorem draw (targetActor : String) : DeskOk i nodeID tr (d.draw nodeID targetActor) where
  sound := ⟨h.sound.wait, h.sound.reply⟩
  spent := h.spent.draw targetActor
  drawn := by
    intro wait hmem
    rcases mem_append.mp hmem with hold | hnew
    · exact h.drawn wait hold
    · rw [mem_singleton.mp hnew]
      rfl
  waits := h.waits
  offers := h.offers
  channels := h.channels

variable {k : ℕ} {wait : PendingAsk}

theorem enter (hk : d.drawn[k]? = some wait) : DeskOk i nodeID tr (d.enter k wait) where
  sound := h.sound.enter (h.drawn wait (mem_of_getElem? hk))
  spent := h.spent.enter hk
  drawn := fun w hw => h.drawn w (mem_of_mem_eraseIdx hw)
  waits := by
    intro w hmem
    rcases mem_append.mp hmem with hold | hnew
    · exact h.waits w hold
    · rw [mem_singleton.mp hnew]
      exact h.drawn wait (mem_of_getElem? hk)
  offers := h.offers
  channels := by
    intro r env hch
    simp only [Desk.enter, AskTable.enter, lookup_insert_ite] at hch
    split_ifs at hch
    · cases hch
    · exact h.channels r env hch

theorem complete (hk : d.waits[k]? = some wait) (evict : ℕ) :
    DeskOk i nodeID tr (d.complete k wait evict) where
  sound := h.sound.complete (h.waits wait (mem_of_getElem? hk)) evict
  spent := by
    refine h.spent.removes rfl rfl rfl fun r hr => ?_
    rw [pending_of_erase (r := wait.requestID) rfl, Bool.and_eq_true] at hr
    exact hr.2
  drawn := h.drawn
  waits := fun w hw => h.waits w (mem_of_mem_eraseIdx hw)
  offers := h.offers
  channels := h.channels

variable {pid : PID} {asks : AskTable π}

theorem taken (htaken : d.asks.Taken nodeID pid wait asks) :
    DeskOk i nodeID tr { d with asks := asks } := by
  have hasks := htaken.asks
  exact {
    sound := htaken.sound h.sound
    spent := by
      refine h.spent.removes (by rw [hasks]; rfl) rfl rfl fun r hr => ?_
      rw [pending_of_erase (r := wait.requestID) (by rw [hasks]; rfl),
        Bool.and_eq_true] at hr
      exact hr.2
    drawn := h.drawn
    waits := h.waits
    offers := h.offers
    channels := by
      intro r env hch
      refine h.channels r env ?_
      rwa [hasks] at hch }

theorem refuse (hhere : askReplyHere nodeID pid = true) {reply : Reply π} {o : PIDDeliveryOutcome}
    (hmatch : d.asks.matchReply pid reply = (.error o, asks)) :
    DeskOk i nodeID tr { d with asks := asks } := by
  rcases matchReply_cases h.sound hhere hmatch with ⟨_, -, rfl⟩ | ⟨wait, htaken, -⟩
  · exact h
  · exact h.taken htaken

theorem matched {v : Option π} (hhere : askReplyHere nodeID pid = true) (hsent : .sent pid v ∈ tr)
    {offer : PendingAsk × AskReplyEnvelope π}
    (hmatch : d.asks.matchReply pid (.of v) = (.ok offer, asks)) :
    DeskOk i nodeID tr { d with asks := asks, offers := d.offers ++ [offer] } := by
  rcases matchReply_cases h.sound hhere hmatch with
    ⟨_, hr, -⟩ | ⟨wait, htaken, ⟨_, hr⟩ | hr⟩
  · cases hr
  · cases hr
  · cases hr
    have hkept := h.taken htaken
    exact {
      sound := hkept.sound
      spent := h.spent.matched rfl (by rw [htaken.asks]; rfl) (by rw [htaken.asks]; rfl)
        htaken.pending
      drawn := h.drawn
      waits := h.waits
      offers := by
        intro o ho
        rcases mem_append.mp ho with hold | hnew
        · exact h.offers o hold
        · rw [mem_singleton.mp hnew]
          exact ⟨pid, v, hsent, htaken.sentTo, Reply.payload_wrap _ _⟩
      channels := hkept.channels }

theorem accept (hk : d.offers[k]? = some (wait, env))
    (hoffer : d.asks.offer wait env = (.delivered, asks)) :
    DeskOk i nodeID (tr ++ [.accepted i wait.requestID])
      { d with asks := asks, offers := d.offers.eraseIdx k } := by
  rcases offer_cases d.asks wait env with ⟨-, heq⟩ | heq
  · rw [hoffer] at heq
    cases heq
    exact {
      sound := ⟨h.sound.wait, h.sound.reply⟩
      spent := h.spent.accept hk rfl rfl
      drawn := h.drawn
      waits := h.waits
      offers := fun o ho => (h.offers o (mem_of_mem_eraseIdx ho)).append _
      channels := by
        intro r env' hch
        simp only [lookup_insert_ite] at hch
        split_ifs at hch with hr
        · cases hch
          rw [hr]
          exact (h.offers _ (mem_of_getElem? hk)).append _
        · exact (h.channels r env' hch).append _ }
  · rw [hoffer] at heq
    cases heq

theorem drop (k : ℕ) : DeskOk i nodeID tr { d with offers := d.offers.eraseIdx k } where
  sound := h.sound
  spent := h.spent.drop k
  drawn := h.drawn
  waits := h.waits
  offers := fun o ho => h.offers o (mem_of_mem_eraseIdx ho)
  channels := h.channels

theorem receive (hk : d.waits[k]? = some wait) (hreceive : d.asks.receive wait = some (env, asks))
    (evict : ℕ) : SentTo tr wait.replyTo env.payload ∧
      DeskOk i nodeID tr ({ d with asks := asks }.complete k wait evict) := by
  have hof : OfNode nodeID wait := h.waits wait (mem_of_getElem? hk)
  simp only [AskTable.receive] at hreceive
  split at hreceive
  · next env' hch =>
    cases hreceive
    have hempty : DeskOk i nodeID tr
        { d with asks := { d.asks with waitCh := d.asks.waitCh.insert wait.requestID none } } := {
      sound := ⟨h.sound.wait, h.sound.reply⟩
      spent := h.spent.removes rfl rfl rfl fun r hr => hr
      drawn := h.drawn
      waits := h.waits
      offers := h.offers
      channels := by
        intro r env' hch'
        simp only [lookup_insert_ite] at hch'
        split_ifs at hch'
        · cases hch'
        · exact h.channels r env' hch' }
    refine ⟨?_, hempty.complete hk evict⟩
    rw [hof]
    exact h.channels _ _ hch
  · cases hreceive

end DeskOk

variable {j : ι}

theorem Desk.Moves.accepts_other (hij : i ≠ j) (h : d.Moves i nodeID tr d' es) :
    ∀ e ∈ es, ∀ r, e.accepts j r = false := by
  cases h with
  | keeps hes | refuses hes _ _ _ | matched hes _ _ _ => exact accepts_of_isSent hes j
  | draws | enters _ | completes _ | drops => simp
  | accepts _ _ => simp [NetEvent.accepts, hij]
  | receives _ _ => simp [NetEvent.accepts]

theorem DeskOk.moves (h : DeskOk i nodeID tr d) (hmoves : Desk.Moves i nodeID (tr ++ es) d d' es) :
    DeskOk i nodeID (tr ++ es) d' := by
  cases hmoves with
  | keeps hes => exact h.append (accepts_of_isSent hes i)
  | draws => exact (h.append (by simp)).draw _
  | enters hk => exact (h.append (by simp)).enter hk
  | completes hk => exact (h.append (by simp)).complete hk _
  | refuses hes hhere _ hmatch => exact (h.append (accepts_of_isSent hes i)).refuse hhere hmatch
  | matched hes hhere hsent hmatch =>
    exact (h.append (accepts_of_isSent hes i)).matched hhere hsent hmatch
  | accepts hk hoffer => exact h.accept hk hoffer
  | drops => exact (h.append (by simp)).drop _
  | receives hk hreceive =>
    exact ((h.append (by simp [NetEvent.accepts])).receive hk hreceive _).2

theorem DeskOk.returned (h : DeskOk i nodeID tr d)
    (hmoves : Desk.Moves i nodeID (tr ++ es) d d' es) {payload : Option π}
    (hmem : .returned j wait payload ∈ es) :
    j = i ∧ OfNode nodeID wait ∧ SentTo tr wait.replyTo payload := by
  cases hmoves with
  | keeps hes | refuses hes _ _ _ | matched hes _ _ _ =>
    have hsent := all_eq_true.mp hes _ hmem
    cases hsent
  | draws | enters _ | completes _ | drops => cases hmem
  | accepts _ _ => simp at hmem
  | receives hk hreceive =>
    obtain ⟨rfl, rfl, rfl⟩ := by simpa using hmem
    exact ⟨rfl, h.waits _ (mem_of_getElem? hk), (h.receive hk hreceive 0).1⟩

end

/-! ### The network -/

section
variable [DecidableEq ι] [ReplyPayload π]

structure Correlated (codec : Codec π β) (hosts : ι → Westcoast.Host π) (tr : List (NetEvent ι π))
    (s : Net ι π β) : Prop where
  nodeID : ∀ i, (s.nodes i).host.nodeID = (hosts i).nodeID
  desks : ∀ i, DeskOk i (hosts i).nodeID tr (s.nodes i).desk
  flight : ∀ env ∈ s.flight, Sourced codec tr env
  returned : ∀ i wait payload, .returned i wait payload ∈ tr →
    OfNode (hosts i).nodeID wait ∧ SentTo tr wait.replyTo payload

theorem correlated_new (codec : Codec π β) (hosts : ι → Westcoast.Host π) :
    Correlated codec hosts [] (Net.new hosts) where
  nodeID := fun _ => rfl
  desks := fun i => deskOk_new i _
  flight := by simp [Net.new]
  returned := by simp

variable {codec : Codec π β} {hosts : ι → Westcoast.Host π} {tr : List (NetEvent ι π)}
  {s : Net ι π β}

theorem Correlated.turn {es : List (NetEvent ι π)} {s' : Net ι π β}
    (h : Correlated codec hosts tr s) (hturn : Net.Turn codec tr s s' es) :
    Correlated codec hosts (tr ++ es) s' := by
  cases hturn with
  | loses =>
    rw [append_nil]
    exact { h with flight := fun env henv => h.flight env (mem_of_mem_eraseIdx henv) }
  | @acts i n flight envs _ hflight hacts =>
    have hmoves := hacts.moves
    rw [h.nodeID i] at hmoves
    refine ⟨fun j => ?_, fun j => ?_, fun env henv => ?_, fun j wait payload hmem => ?_⟩
    · by_cases hj : j = i
      · subst hj
        simpa [Net.put] using hacts.nodeID.trans (h.nodeID j)
      · simpa [Net.put, hj] using h.nodeID j
    · -- the node that acts makes the move, and for the others nothing is accepted
      by_cases hj : j = i
      · subst hj
        simpa [Net.put] using (h.desks j).moves hmoves
      · simpa [Net.put, hj] using (h.desks j).append (hmoves.accepts_other (Ne.symm hj))
    · rcases mem_append.mp henv with hold | hnew
      · exact (h.flight env (hflight hold)).append es
      · exact hacts.sourced env hnew
    · rcases mem_append.mp hmem with hold | hnew
      · obtain ⟨hof, hsent⟩ := h.returned j wait payload hold
        exact ⟨hof, hsent.append es⟩
      · obtain ⟨rfl, hof, hsent⟩ := (h.desks i).returned hmoves hnew
        exact ⟨hof, hsent.append es⟩

variable [Inhabited π] [Payload π]

theorem correlated_of_run {handlers : ι → List String}
    (hrun : Run (Net.step codec handlers) anyStep (Net.new hosts) tr s) :
    Correlated codec hosts tr s :=
  hrun.invariant (Correlated codec hosts) (correlated_new codec hosts)
    fun _ _ _ _ _ h _ hstep => h.turn (Net.turn_of_step h.flight hstep)

/-- **Replies are correlated with requests.** What a call returns was sent to the address of its
request, which gets one reply at most; and `askWait` and `askReply` hold the same requests.
Their numbers are taken not to wrap at `2 ^ 64`. -/
theorem replies_correlated {codec : Codec π β} {handlers : ι → List String}
    {hosts : ι → Westcoast.Host π} {tr : List (NetEvent ι π)} {s : Net ι π β}
    (hrun : Run (Net.step codec handlers) anyStep (Net.new hosts) tr s) :
    (∀ i wait payload, .returned i wait payload ∈ tr →
      wait.replyTo = replyAddress (hosts i).nodeID wait.requestID ∧
      ∃ pid v, .sent pid v ∈ tr ∧ payload = (Reply.of v).payload ∧
        pid = { wait.replyTo with generation := pid.generation } ∧
        ((∃ nodeID r, pid = replyAddress nodeID r) → pid = wait.replyTo)) ∧
    (∀ i r, tr.countP (·.accepts i r) ≤ 1) ∧
    ∀ i key r, (s.nodes i).host.asks.askReply.lookup key = some r ↔
      ∃ wait, (s.nodes i).host.asks.askWait.lookup r = some wait ∧ key = wait.replyTo.key := by
  have h := correlated_of_run hrun
  refine ⟨fun i wait payload hmem => ?_, fun i r => ?_, fun i key r => ?_⟩
  · obtain ⟨hof, pid, v, hsent, hpid, hpayload⟩ := h.returned i wait payload hmem
    refine ⟨hof, pid, v, hsent, hpayload, hpid, ?_⟩
    rintro ⟨nodeID, r, rfl⟩
    have hgeneration : wait.replyTo.generation = 1 := by rw [hof]; rfl
    rw [hpid]
    exact congrArg (fun g => { wait.replyTo with generation := g }) hgeneration.symm
  · have honce := (h.desks i).spent.once r
    simp only [tokens] at honce
    omega
  · have hsound := (h.desks i).sound
    constructor
    · intro hkey
      obtain ⟨hpending, rfl⟩ := (hsound.reply key r).mp hkey
      obtain ⟨wait, hwait⟩ := Option.isSome_iff_exists.mp hpending
      obtain ⟨-, hto⟩ := hsound.wait r wait hwait
      exact ⟨wait, hwait, by rw [hto]⟩
    · rintro ⟨wait, hwait, rfl⟩
      obtain ⟨-, hto⟩ := hsound.wait r wait hwait
      rw [hto]
      exact (hsound.reply _ r).mpr ⟨Option.isSome_iff_exists.mpr ⟨wait, hwait⟩, rfl⟩

end

def askers (i : Bool) : Westcoast.Host String :=
  .new (if i then "n2" else "n1") (some fun _ => .delivered) (some fun _ => .delivered) none
    fun _ => 0

/-- Both nodes ask an actor `a` of the other under the same number; the replies cross. -/
def crossing : List (NetAction Bool String) :=
  [.host false (.runtime (.createActor "a" false 4 true)),
    .host true (.runtime (.createActor "a" false 4 true)),
    .draw false (.pid ⟨"n2", "a", 1⟩), .draw true (.pid ⟨"n1", "a", 1⟩), .enter true 0,
    .enter false 0, .submit false 0 (some "x") .delivered true 0 1,
    .submit true 0 (some "y") .delivered true 0 1, .deliver false 1 1, .deliver true 0 1,
    .sendPID true ⟨"__ask_reply@n1", "ask-1", 1⟩ (some "to n1") true 1,
    .sendPID false ⟨"__ask_reply@n2", "ask-1", 1⟩ (some "to n2") true 1, .deliver true 1 1,
    .deliver false 0 1, .offer false 0, .offer true 0, .receive true 0 0, .receive false 0 0]

theorem replies_correlated_crossing :
    ∃ tr s, Run (Net.step Codec.plain fun _ => []) anyStep (Net.new askers) tr s ∧
      .returned false ⟨"ask-1", "a", ⟨"__ask_reply@n1", "ask-1", 1⟩⟩ (some "to n1") ∈ tr ∧
      (∃ pid v, .sent pid v ∈ tr ∧ some "to n1" = (Reply.of v).payload ∧
        pid.ns = "__ask_reply@n1") ∧
      ∀ i r, tr.countP (·.accepts i r) ≤ 1 := by
  obtain ⟨tr, s, hrun, htr⟩ : ∃ tr s, Run (Net.step Codec.plain fun _ => []) anyStep
      (Net.new askers) tr s ∧
      .returned false ⟨"ask-1", "a", ⟨"__ask_reply@n1", "ask-1", 1⟩⟩ (some "to n1") ∈ tr :=
    Run.of_check crossing (by decide +kernel)
  obtain ⟨hreturned, honce, -⟩ := replies_correlated hrun
  obtain ⟨-, pid, v, hsent, hpayload, hpid, -⟩ := hreturned _ _ _ htr
  exact ⟨tr, s, hrun, htr, ⟨pid, v, hsent, hpayload, by rw [hpid]⟩, honce⟩

end Westcoast.Cluster
