import Westcoast.Cluster.Exclusive

/-!
# At most one instance

A node takes the last leader it saw replaced for the owner of the singleton, which need not have
been a leader. `at_most_one` says what is missing: when a node is about to start the singleton or to
ask for it, no other live node is in an activation, and the node where the singleton was started
last is not live or is the one that the node infers and does not take for failed; and a hand-off
begins in a term of its own.
-/
namespace Westcoast.Cluster

open Lib List Node Bool Westcoast.Cluster.Message

variable {σ : Type}

namespace Node

theorem onHandoffRequest_spec (n : Node σ) (t : ℕ) (captured : Option σ) :
    n.Calm (n.onHandoffRequest t captured).1 ∧
      (n.onHandoffRequest t captured).1.phase.runs = false ∧
      ∀ t', (n.onHandoffRequest t captured).2.asks t' = false ∧
        ((n.onHandoffRequest t captured).2.answers t' = true → t' = t) := by
  have hanswer : ∀ ok state error t',
      (handoffResponse t ok state error : Message σ).asks t' = false ∧
      ((handoffResponse t ok state error : Message σ).answers t' = true → t' = t) := by
    intro ok state error t'
    refine ⟨rfl, ?_⟩
    simp only [answers, decide_eq_true_eq]
    exact Eq.symm
  simp only [onHandoffRequest]
  cases hs : n.singleton with
  | none => exact ⟨.frame rfl rfl, by simp [phase, hs, SingletonPhase.runs], hanswer _ _ _⟩
  | some s =>
    simp only
    split_ifs with hr
    · exact ⟨.frame rfl rfl, by simpa [phase, hs] using hr, hanswer _ _ _⟩
    · exact ⟨n.calm_stopAndCleanup s, rfl, hanswer _ _ _⟩

variable {n : Node σ}

theorem handoffs_onHandoffResponse (h : n.Sound) (t : ℕ) (ok : Bool) (state : Option σ) :
    ∀ g' ∈ (n.onHandoffResponse t ok state).handoffs, ∃ g ∈ n.handoffs,
      g'.term = g.term ∧ g'.prevLeader = g.prevLeader ∧
        (g'.settled = true → g.settled = true ∨ g.term = t) := by
  simp only [onHandoffResponse]
  cases hw : n.handoffWaits.lookup t with
  | none => exact fun g hg => ⟨g, hg, rfl, rfl, .inl⟩
  | some id =>
    simp only [forall_mem_map]
    intro g hg
    refine ⟨g, hg, ?_⟩
    split
    · by_cases hid : g.id = id
      · rw [if_pos hid]
        exact ⟨rfl, rfl, fun _ => .inr ((h.waits t id hw).2 g hg hid)⟩
      · rw [if_neg hid]
        exact ⟨rfl, rfl, .inl⟩
    · exact ⟨rfl, rfl, .inl⟩

theorem handoffs_handoffSend (h : n.Sound) {g₀ : Handoff σ} (hg₀ : g₀ ∈ n.handoffs) (ok : Bool) :
    ∀ g' ∈ (n.handoffSend g₀ ok).1.handoffs, ∃ g ∈ n.handoffs,
      g'.term = g.term ∧ g'.prevLeader = g.prevLeader ∧
        (g'.settled = true → g.settled = true ∨ g = g₀ ∧ ok = false ∧ g₀.canceled = false) := by
  simp only [handoffSend, forall_mem_map]
  intro g hg
  refine ⟨g, hg, ?_⟩
  split_ifs with hid hok
  · exact ⟨rfl, rfl, fun hset => by simp [Handoff.settled] at hset⟩
  · refine ⟨rfl, rfl, fun hset => .inr ?_⟩
    obtain rfl := h.uniqueID g hg g₀ hg₀ hid
    exact ⟨rfl, by simpa using hok, by simpa [Handoff.settled] using hset⟩
  · exact ⟨rfl, rfl, .inl⟩

theorem handoffEnd_cases (h : n.Sound) {g : Handoff σ} (hg : g ∈ n.handoffs) {ctxDone : Bool}
    (hdone : ctxDone = true → g.canceled = true) {result : HandoffResult σ}
    (hres : g.result ctxDone = some result) :
    n.Calm (n.handoffEnd g result) ∨ (n.handoffEnd g result).phase = .active ∧ g.settled = true ∧
        ∃ s, n.singleton = some s ∧ s.phase = .activating ∧ s.term = g.term := by
  have hremoved : ∀ g' ∈ n.handoffs.filter (fun g' => g'.id ≠ g.id), n.Continues g' :=
    fun g' hg' => .of_mem (mem_of_mem_filter hg')
  cases result with
  | returns => exact .inl ⟨.of_singleton rfl, hremoved⟩
  | completes state =>
    have hc := n.completes g.term state
    simp only [handoffEnd, finish]
    generalize n.completeActivation g.term state = m at hc ⊢
    cases hc with
    | stale => exact .inl ⟨.of_singleton rfl, hremoved⟩
    | outrun => exact .inl ⟨.of_idle rfl, hremoved⟩
    | @starts s hs hp ht hterm =>
      refine .inr ⟨rfl, ?_, s, hs, hp, ht⟩
      -- a cancelled goroutine has an old term, so that this one was answered
      have hlive : g.canceled = false := by
        by_contra hc
        have := h.canceled g hg (by simpa using hc)
        omega
      obtain rfl : ctxDone = false := by
        cases ctxDone with
        | false => rfl
        | true => simp [hdone rfl] at hlive
      simp only [Handoff.result] at hres
      simp only [Handoff.settled, hlive]
      cases hstage : g.stage <;> simp [hstage] at hres ⊢

end Node

namespace State

/-- No other live node is in an activation. -/
def noneActivating (c : State σ) (id : NodeID) : Bool :=
  c.hosts.entries.all fun e => e.1 = id || !e.2.live || e.2.node.phase ≠ .activating

/-- What the node was told is right, if the node where the singleton was started last is live. -/
def ownerTold (c : State σ) (m : Node σ) : Bool :=
  (c.node? c.lastStart).isNone ||
    m.findPrevLeader = c.lastStart && !m.isRecentlyFailed c.lastStart

/-- No goroutine and no message of another hand-off of this node has the term of one that begins. -/
def termFree (c : State σ) (id : NodeID) (m : Node σ) : Bool :=
  m.handoffs.all (·.term ≠ m.term) &&
    c.flight.all fun env =>
      !(env.sender = id && env.payload.asks m.term) &&
        !(env.target = id && env.payload.answers m.term)

def ownerKnown (c : State σ) (a : Action σ) : Bool :=
  match c.turn a with
  | none => true
  | some t =>
    match t.host.node.gainingBy t.action with
    | none => true
    | some (m, s) =>
      !m.reaches s ||
        c.noneActivating t.id && c.ownerTold m && (m.startsNow s || c.termFree t.id m)

/-- The singleton runs only where it was started last. -/
def Owned (c : State σ) : Prop :=
  ∀ id n, c.node? id = some n → n.phase.runs = true → id = c.lastStart

variable {c : State σ} {n n' : Node σ}

variable {id id' : NodeID} {m : Node σ}

theorem not_activating (h : c.noneActivating id = true) (hid : id' ≠ id)
    (hn : c.node? id' = some n) : n.phase ≠ .activating := by
  simp only [node?, Option.map_eq_some_iff, liveHost, Option.filter_eq_some_iff] at hn
  obtain ⟨host, ⟨hlookup, hlive⟩, rfl⟩ := hn
  simp only [noneActivating, all_eq_true] at h
  simpa [hid, hlive] using h ⟨id', host⟩ (AList.mem_lookup_iff.mp hlookup)

/-- A node that runs the singleton is the one inferred, and not taken for failed. -/
theorem Owned.told (h : c.Owned) (ht : c.ownerTold m = true) (hn : c.node? id = some n)
    (hr : n.phase.runs = true) : m.findPrevLeader = id ∧ m.isRecentlyFailed id = false := by
  obtain rfl := h id n hn hr
  simpa [ownerTold, hn] using ht

theorem node?_booted (c : State σ) (name : String) (self : NodeMeta) (id : NodeID) :
    (c.booted name self).node? id = if id = self.id then some (.new name self) else c.node? id :=
  c.node?_insert self.id id ⟨.new name self, true, 0⟩

theorem Exclusive.boots (h : c.Exclusive) (name : String) {self : NodeMeta} (hself : self.id ≠ "") :
    (c.booted name self).Exclusive := by
  refine h.shrink ?_ fun _ henv => henv
  intro id n hn
  rw [node?_booted] at hn
  split_ifs at hn with hid
  · cases hn
    exact .inr ⟨sound_new name hself, hid.symm, rfl⟩
  · exact .inl hn

/-- A node that boots does not run the singleton, and if another does, that one started it last. -/
theorem Owned.boots (h : c.Owned) (name : String) (self : NodeMeta) :
    (c.booted name self).Owned := by
  intro id n hn hr
  rw [node?_booted] at hn
  split_ifs at hn with hid
  · cases hn
    cases hr
  · have hlast := h id n hn hr
    simp only [booted]
    rw [if_neg (hlast ▸ hid), hlast]

theorem Owned.of_node? {c' : State σ} (h : c.Owned) (hlast : c'.lastStart = c.lastStart)
    (hnode : ∀ id n, c'.node? id = some n → c.node? id = some n) : c'.Owned := by
  intro id n hn hr
  rw [hlast]
  exact h id n (hnode id n hn) hr

theorem Exclusive.crashes (h : c.Exclusive) (id : NodeID) (host : Host σ) :
    ({ c with hosts := c.hosts.insert id { host with live := false } } : State σ).Exclusive := by
  refine h.shrink ?_ fun _ henv => henv
  intro id' n hn
  rw [node?_insert] at hn
  simp only [false_eq_true, if_false] at hn
  split_ifs at hn
  exact .inl hn

variable {t : Turn σ} {env : Envelope σ}

variable {term : ℕ} {captured : Option σ} {ok : Bool} {es : List (Envelope σ)}

section

variable (h : c.Exclusive) (ht : c.Turns t)

include h ht

theorem Exclusive.receivesRequest (henv : env ∈ c.flight)
    (htarget : env.target = t.id) (hpay : env.payload = .handoffRequest term) {answer : Message σ}
    (hn' : t.host.node.onHandoffRequest term captured = (n', answer)) (hsound : n'.Sound)
    (hself : n'.self = t.host.node.self) :
    (c.update t n' [⟨n'.self.id, env.sender, answer⟩]).Exclusive := by
  obtain ⟨hcalm, hstop, hanswer⟩ := t.host.node.onHandoffRequest_spec term captured
  rw [hn'] at hcalm hstop hanswer
  refine h.leaves ⟨ht.node, becomes_update ht.live n' _, hcalm.toStays, ?_, ?_, ?_⟩ hsound hself
  · intro g' hg'
    obtain ⟨g, hg, hterm, hlead, hset⟩ := hcalm.handoffs g' hg'
    exact ⟨g, hg, hterm, hlead, fun hs => .inl (hset hs)⟩
  · intro env' henv' t' hasks
    rcases mem_append.mp henv' with hold | hnew
    · exact .inl (ht.flight env' hold)
    · rw [mem_singleton.mp hnew, (hanswer t').1] at hasks
      cases hasks
  · intro env' henv' t' hans
    rcases mem_append.mp henv' with hold | hnew
    · exact .inl (ht.flight env' hold)
    · rw [mem_singleton.mp hnew] at hans ⊢
      obtain rfl := (hanswer t').2 hans
      exact .inr ⟨hstop, env, henv, rfl, htarget, by simp [hpay, asks]⟩

theorem Exclusive.receivesResponse (henv : env ∈ c.flight)
    (htarget : env.target = t.id) {state : Option σ} {error : String}
    (hpay : env.payload = .handoffResponse term ok state error)
    (hsound : (t.host.node.onHandoffResponse term ok state).Sound)
    (hself : (t.host.node.onHandoffResponse term ok state).self = t.host.node.self) :
    (c.update t (t.host.node.onHandoffResponse term ok state) []).Exclusive := by
  have hsame : (t.host.node.onHandoffResponse term ok state).singleton = t.host.node.singleton := by
    simp only [onHandoffResponse]
    split <;> rfl
  refine h.leaves ⟨ht.node, becomes_update ht.live _ _, .of_singleton hsame, ?_, ?_, ?_⟩ hsound
    hself
  · intro g' hg'
    obtain ⟨g, hg, hterm, hlead, hset⟩ :=
      handoffs_onHandoffResponse (h.sound t.id _ ht.node).1 term ok state g' hg'
    refine ⟨g, hg, hterm, hlead, ?_⟩
    intro hs
    rcases hset hs with hold | rfl
    · exact .inl hold
    · exact .inr (.inl ⟨env, henv, htarget, by simp [hpay, answers]⟩)
  · intro env' henv' t' _
    exact .inl (ht.flight env' (by simpa [update] using henv'))
  · intro env' henv' t' _
    exact .inl (ht.flight env' (by simpa [update] using henv'))

omit h in
theorem Turns.flight_append {sent : List (Envelope σ)}
    (hsent : ∀ env ∈ sent, ∀ t, env.payload.asks t = false ∧ env.payload.answers t = false) :
    ∀ env ∈ (c.update t n sent).flight, env ∈ c.flight ∨
      ∀ t, env.payload.asks t = false ∧ env.payload.answers t = false := by
  intro env henv
  rcases mem_append.mp henv with hold | hnew
  · exact .inl (ht.flight env hold)
  · exact .inr (hsent env hnew)

theorem Exclusive.silent (hsound : n'.Sound)
    (hself : n'.self = t.host.node.self) (hcalm : t.host.node.Calm n') :
    (c.update t n' []).Exclusive := by
  refine h.quiet ht.node (becomes_update ht.live n' []) hsound hself hcalm (ht.flight_append ?_)
  intro env henv
  cases henv

theorem Exclusive.receives (ha : t.action = .receive env captured) :
    (c.update t (t.host.node.receive env captured).1
      (t.host.node.receive env captured).2).Exclusive := by
  obtain ⟨henv, htarget⟩ := ht.received env captured ha
  have hsound := ((h.sound t.id _ ht.node).1).receive env captured
  have hself : (t.host.node.receive env captured).1.self = t.host.node.self :=
    t.host.node.self_receive env captured
  simp only [receive] at hsound hself ⊢
  split_ifs at hsound hself ⊢ with hst
  · exact h.silent ht hsound hself (.frame rfl rfl)
  · cases hpay : env.payload with
    | discoverRequest =>
      simp only [hpay] at hsound hself ⊢
      refine h.quiet ht.node (becomes_update ht.live _ _) hsound rfl (.frame rfl rfl)
        (ht.flight_append ?_)
      intro env' henv' t'
      rw [mem_singleton.mp henv']
      exact ⟨rfl, rfl⟩
    | discoverResponse running =>
      simp only [hpay] at hsound hself ⊢
      refine h.silent ht hsound hself ?_
      simp only [onDiscoverResponse]
      split_ifs <;> exact .frame rfl rfl
    | handoffRequest term =>
      simp only [hpay] at hsound hself ⊢
      exact h.receivesRequest ht henv htarget hpay rfl hsound hself
    | handoffResponse term ok state error =>
      simp only [hpay] at hsound hself ⊢
      exact h.receivesResponse ht henv htarget hpay hsound hself

theorem Exclusive.sends {id : ℕ} (ha : t.action = .handoffSend id ok) {g₀ : Handoff σ}
    (hfind : t.host.node.handoffs.find? (·.id = id) = some g₀) :
    (c.update t (t.host.node.handoffSend g₀ ok).1 (t.host.node.handoffSend g₀ ok).2).Exclusive := by
  obtain ⟨hsound, hself⟩ := h.sound t.id _ ht.node
  have hg0 := mem_of_find?_eq_some hfind
  refine h.leaves ⟨ht.node, becomes_update ht.live _ _, .of_singleton rfl, ?_, ?_, ?_⟩
    (hsound.handoffSend hg0 ok) rfl
  · intro g' hg'
    obtain ⟨g, hg, hterm, hlead, hset⟩ := handoffs_handoffSend hsound hg0 ok g' hg'
    refine ⟨g, hg, hterm, hlead, ?_⟩
    intro hs
    rcases hset hs with hold | ⟨rfl, rfl, hc⟩
    · exact .inl hold
    · rcases ht.send id g ha hfind with hgone | hcanceled
      · exact .inr (.inr hgone)
      · simp [hc] at hcanceled
  · intro env henv t' hasks
    rcases mem_append.mp henv with hold | hnew
    · exact .inl (ht.flight env hold)
    · simp only [handoffSend] at hnew
      split_ifs at hnew
      · rw [mem_singleton.mp hnew] at hasks ⊢
        exact .inr ⟨hself, g₀, hg0, by simpa [asks] using hasks, rfl⟩
      · cases hnew
  · intro env henv t' hans
    rcases mem_append.mp henv with hold | hnew
    · exact .inl (ht.flight env hold)
    · simp only [handoffSend] at hnew
      split_ifs at hnew
      · rw [mem_singleton.mp hnew] at hans
        cases hans
      · cases hnew

theorem Exclusive.ends {id : ℕ} {ctxDone : Bool}
    (ha : t.action = .handoffEnd id ctxDone) {g : Handoff σ}
    (hfind : t.host.node.handoffs.find? (·.id = id) = some g) {result : HandoffResult σ}
    (hres : g.result ctxDone = some result) :
    (c.update t (t.host.node.handoffEnd g result) []).Exclusive := by
  obtain ⟨hsound, -⟩ := h.sound t.id _ ht.node
  have hg := mem_of_find?_eq_some hfind
  have hdone : ctxDone = true → g.canceled = true := by
    rintro rfl
    exact ht.done id g ha hfind
  have hsound' := hsound.handoffEnd hg result
  have hself : (t.host.node.handoffEnd g result).self = t.host.node.self :=
    t.host.node.self_finish g.term result
  rcases handoffEnd_cases hsound hg hdone hres with hcalm | ⟨hactive, hset, s, hs, hp, hterm⟩
  · exact h.silent ht hsound' hself hcalm
  · -- the hand-off is settled, so that nobody has the singleton
    obtain ⟨owner, ho⟩ := h.handsOver t.id _ s ht.node hs hp
    have hnobody := ho.answered (.inr ⟨g, hg, hterm.symm, hset⟩)
    refine h.sole ht.node (becomes_update ht.live _ _) hsound' hself (by simp [hactive]) ?_
    intro id' m hne hm
    refine ⟨hnobody id' m hm, ?_⟩
    intro hpm
    exact hne (h.activating id' t.id m _ hm ht.node hpm (by simp [phase, hs, hp]))

theorem Exclusive.gains (howned : c.Owned) {s : SingletonState σ}
    (hg : t.host.node.gainingBy t.action = some (m, s)) (hreaches : m.reaches s = true)
    (hnone : c.noneActivating t.id = true) (htold : c.ownerTold m = true)
    (hterm : m.startsNow s = true ∨ c.termFree t.id m = true)
    (hstep : t.host.node.step t.action = some (n', es)) (hsound : n'.Sound) :
    (c.update t n' es).Exclusive := by
  obtain ⟨hsound0, hid⟩ := h.sound t.id _ ht.node
  obtain ⟨hgains, hself⟩ := hsound0.gains_step ht.placement hg
  have hself' := self_step hstep
  obtain ⟨rfl, rfl⟩ := step_of_gaining hstep hg
  have hbecomes := becomes_update (c := c) ht.live
  rcases gainLeadership_cases m s m.term with
    ⟨hnow, s', -, -, hact⟩ | ⟨hnow, hr, -⟩ | ⟨hnow, -, hbegin⟩
  · refine h.sole ht.node (hbecomes _ []) hsound hself' ?_ ?_
    · rw [hact, phase_afterReconcile, phase_activate]
      decide
    · intro id' m' hne hm'
      refine ⟨?_, not_activating hnone hne hm'⟩
      by_contra hruns
      obtain ⟨hprev, hlive⟩ := howned.told htold hm' (by simpa using hruns)
      obtain ⟨hsound', hid'⟩ := h.sound id' m' hm'
      simp only [startsNow, hgains.sound.clustered, Bool.not_true, Bool.and_false,
        Bool.or_false, presumedGone, hprev, hlive, Bool.or_eq_true, decide_eq_true_eq] at hnow
      rcases hnow with hempty | hme
      · exact hsound'.self (hid'.trans hempty)
      · exact hne (by rw [hme, hself, hid])
  · simp [reaches, hnow, hr] at hreaches
  · have hfree : c.termFree t.id m = true := by simpa [hnow] using hterm
    simp only [termFree, and_eq_true, all_eq_true, decide_eq_true_eq] at hfree
    obtain ⟨hgoroutines, hmessages⟩ := hfree
    rw [hbegin] at hsound hself' ⊢
    refine h.begins ht.node (hbecomes _ []) hsound hself' (singleton_afterReconcile _ _) rfl
      m.findPrevLeader ?_ ?_ ?_
    · intro id' m' hne hm'
      exact ⟨not_activating hnone hne hm', fun hr => (howned.told htold hm' hr).1.symm⟩
    · intro env henv
      have hold : env ∈ c.flight := ht.flight env (by simpa [update] using henv)
      have hmsg := hmessages env hold
      refine ⟨?_, ?_⟩
      · intro hsender
        simpa [hsender] using hmsg.1
      · intro htarget
        simpa [htarget] using hmsg.2
    · intro g hg hgt
      rw [handoffs_afterReconcile] at hg
      rcases mem_append.mp hg with hold | hnew
      · exact absurd hgt (hgoroutines g hold)
      · rw [mem_singleton.mp hnew]
        exact ⟨rfl, rfl⟩

theorem Exclusive.moves (hstep : t.host.node.step t.action = some (n', es))
    (hcalm : ∀ m s, t.host.node.gainingBy t.action = some (m, s) → m.reaches s = false)
    (hsound : n'.Sound) : (c.update t n' es).Exclusive := by
  have hself := self_step hstep
  generalize hact : t.action = a at hstep hcalm
  cases moves_of_step hstep with
  | @reconciles _ m hm =>
    have hrec : m.Calm m.reconcile :=
      calm_reconcile fun m' s hg => hcalm m' s (gainingBy_of_gaining hm hg)
    have hbefore := calm_beforeReconcile hm
    exact h.silent ht hsound hself ((hbefore.trans hrec).trans (m.reconcile.calm_afterReconcile a))
  | starts =>
    refine h.quiet ht.node (becomes_update ht.live _ _) hsound hself (.frame rfl rfl)
      (ht.flight_append ?_)
    intro env henv t'
    simp only [Node.start] at henv
    split_ifs at henv
    · obtain ⟨peer, -, rfl⟩ := mem_map.mp henv
      exact ⟨rfl, rfl⟩
    · cases henv
  | registers hst =>
    exact h.silent ht hsound hself ⟨.of_idle rfl, fun _ => .of_mem⟩
  | rebalances =>
    refine h.silent ht hsound hself (calm_rebalance ?_)
    cases hg : t.host.node.gainingBy .rebalance with
    | none => rfl
    | some ms =>
      have hreaches := hcalm ms.1 ms.2 hg
      have hr := (rebalance_of_gaining (m := ms.1) (s := ms.2) hg).2.1
      simp [reaches, hr] at hreaches
  | receives => exact h.receives ht hact
  | sends hfind => exact h.sends ht hact hfind
  | ends hfind hres => exact h.ends ht hact hfind hres
  | wakes => exact h.silent ht hsound hself (calm_deactivationEnd _ _)
  | stops | replicates => exact h.silent ht hsound hself (.frame rfl rfl)

end

theorem exclusive_step {name : String} {c' : State σ} {a : Action σ} (h : c.Exclusive)
    (howned : c.Owned) (hk : c.ownerKnown a = true) (hstep : c.step name a = some (c', es)) :
    c'.Exclusive := by
  cases happens_of_step hstep with
  | boots hself => exact h.boots name hself
  | crashes => exact h.crashes _ _
  | emits => exact h.shrink (fun _ _ hn => .inl hn) fun _ henv => henv
  | loses => exact h.shrink (fun _ _ hn => .inl hn) fun _ henv => mem_of_mem_eraseIdx henv
  | @moves _ t n' sent hturn hmove =>
    have ht := turns_of_turn hturn
    have hsound0 := (h.sound t.id _ ht.node).1
    simp only [ownerKnown, hturn] at hk
    have hfresh : ∀ m s, t.host.node.gainingBy t.action = some (m, s) → m.freshTerm s := by
      intro m s hg hnow hr
      simp only [hg, reaches, hnow, hr, Bool.or_true, Bool.not_true, Bool.false_or,
        Bool.and_eq_true, termFree, all_eq_true, decide_eq_true_eq] at hk
      exact hk.2.1
    have hsound := sound_step hsound0 ht.placement hfresh hmove
    by_cases hcalm : ∀ m s, t.host.node.gainingBy t.action = some (m, s) → m.reaches s = false
    · exact h.moves ht hmove hcalm hsound
    · simp only [not_forall, exists_prop] at hcalm
      obtain ⟨m, s, hg, hreaches⟩ := hcalm
      have hreaches' : m.reaches s = true := by simpa using hreaches
      simp only [hg, hreaches', Bool.not_true, Bool.false_or, Bool.and_eq_true,
        or_eq_true] at hk
      exact h.gains ht howned hg hreaches' hk.1.1 hk.1.2 hk.2 hmove hsound

/-- A node that begins to run the singleton is the only one that does. -/
theorem owned_step {name : String} {c' : State σ} {a : Action σ} (howned : c.Owned)
    (h' : c'.Exclusive) (hstep : c.step name a = some (c', es)) : c'.Owned := by
  cases happens_of_step hstep with
  | boots => exact howned.boots name _
  | crashes =>
    refine howned.of_node? rfl fun id n hn => ?_
    rw [node?_insert] at hn
    simp only [false_eq_true, if_false] at hn
    split_ifs at hn
    exact hn
  | emits | loses => exact howned.of_node? rfl fun _ _ hn => hn
  | @moves _ t n' sent hturn hmove =>
    have ht := turns_of_turn hturn
    have hself : (c.update t n' sent).node? t.id = some n' :=
      (becomes_update ht.live n' sent t.id).trans (if_pos rfl)
    intro id n hn hr
    simp only [update]
    split_ifs with hstarts
    · exact h'.runs id t.id n n' hn hself hr (and_eq_true_iff.mp hstarts).1
    · rcases (becomes_update ht.live n' sent).cases hn with ⟨rfl, rfl⟩ | ⟨-, hold⟩
      · exact howned t.id _ ht.node (by simpa [hr] using hstarts)
      · exact howned id n hold hr

/-- **At most one instance.** In a run whose steps all meet the condition `ownerKnown`, at
most one live node is active or deactivating. -/
theorem at_most_one {name : String} {c : State σ} {tr : List (Envelope σ)}
    (h : Run (step name) (fun c a => c.ownerKnown a = true) empty tr c) {id₁ id₂ : NodeID}
    {n₁ n₂ : Node σ} (h₁ : c.node? id₁ = some n₁) (h₂ : c.node? id₂ = some n₂)
    (hr₁ : n₁.phase = .active ∨ n₁.phase = .deactivating)
    (hr₂ : n₂.phase = .active ∨ n₂.phase = .deactivating) : id₁ = id₂ := by
  have hinv : c.Exclusive ∧ c.Owned := by
    refine h.invariant_state (fun c => c.Exclusive ∧ c.Owned)
      ⟨exclusive_empty, fun id n hn => by cases hn⟩ ?_
    intro c a c' es hc hk hs
    have hexclusive := exclusive_step hc.1 hc.2 hk hs
    exact ⟨hexclusive, owned_step hc.2 hexclusive hs⟩
  have hruns : ∀ {n : Node σ}, n.phase = .active ∨ n.phase = .deactivating →
      n.phase.runs = true := by
    intro n hp
    rcases hp with hp | hp <;> simp [hp, SingletonPhase.runs]
  exact hinv.1.runs id₁ id₂ n₁ n₂ h₁ h₂ (hruns hr₁) (hruns hr₂)

/-- `c` runs the singleton, `b` joins with a lower hash and gets it after `Rebalance` on both. Then
`c` crashes and boots again. -/
theorem at_most_one_handoff : ∃ (s : State ℕ) (tr : List (Envelope ℕ)),
      Run (step "s") (fun s a => s.ownerKnown a = true) empty tr s ∧
        (s.node? "b").map phase = some .active ∧
          ∀ id n, s.node? id = some n → n.phase = .active ∨ n.phase = .deactivating → id = "b" := by
  let spec : SingletonSpec ℕ := ⟨0, true, none, none⟩
  let node (id : NodeID) : NodeMeta := ⟨id, "", []⟩
  obtain ⟨tr, s, hrun, hb⟩ : ∃ tr s,
      Run (step "s") (fun s a => s.ownerKnown a = true) (empty : State ℕ) tr s ∧
      (s.node? "b").map phase = some .active :=
    Run.of_check
      [.boot (node "c"), .act "c" (.register spec), .act "c" .start, .act "c" .finishStart,
        .emit ⟨.join, node "c"⟩, .boot (node "b"), .emit ⟨.join, node "b"⟩,
        .process "b" 0, .process "b" 0, .act "b" (.register spec), .act "b" .start,
        .deliver 0 none, .deliver 1 none, .act "b" .finishStart,
        .process "c" 0, .process "c" 0, .act "b" .rebalance, .act "c" .rebalance,
        .act "b" (.handoffSend 0 true), .deliver 1 (some 7), .deliver 1 none,
        .act "b" (.handoffEnd 0 false), .crash "c", .emit ⟨.failed, node "c"⟩, .boot (node "c"),
        .process "b" 0] (by decide +kernel)
  obtain ⟨n2, h2, hp2⟩ := Option.map_eq_some_iff.mp hb
  refine ⟨s, tr, hrun, hb, ?_⟩
  intro id n hn hp
  exact at_most_one hrun hn h2 hp (.inl hp2)

/-- `b` and then `a` join, with lower hashes, and learn that `c` has the singleton. When `a`
crashes, `b` leads again and takes itself for the previous leader: both run the singleton. -/
theorem two_instances :
    ∃ (s : State ℕ) (tr : List (Envelope ℕ)), Run (step "s") anyStep empty tr s ∧
      (s.node? "b").map phase = some .active ∧
      (s.node? "c").map phase = some .active := by
  let spec : SingletonSpec ℕ := ⟨0, true, none, none⟩
  let node (id : NodeID) : NodeMeta := ⟨id, "", []⟩
  exact Run.of_check_then
      [.boot (node "c"), .act "c" (.register spec), .act "c" .start, .act "c" .finishStart,
        .act "c" (.watchEvent 0), .emit ⟨.join, node "c"⟩, .boot (node "b"),
        .emit ⟨.join, node "b"⟩, .process "b" 0, .process "b" 0, .act "b" (.register spec),
        .act "b" .start, .deliver 0 none, .deliver 1 none, .act "b" .finishStart,
        .act "b" (.watchEvent 0), .process "c" 0, .process "c" 0, .act "c" (.watchEvent 0),
        .boot (node "a"), .emit ⟨.join, node "a"⟩, .process "a" 0, .process "a" 0, .process "a" 0,
        .act "a" (.register spec), .act "a" .start, .deliver 1 none, .deliver 3 none,
        .act "a" .finishStart, .act "a" (.watchEvent 0), .process "b" 0, .act "b" (.watchEvent 0),
        .process "c" 0, .act "c" (.watchEvent 0), .crash "a", .emit ⟨.failed, node "a"⟩,
        .process "b" 0, .process "c" 0, .act "b" (.watchEvent 0), .act "c" (.watchEvent 0)]
    (by decide +kernel) fun tr s hrun hend => ⟨s, tr, hrun, hend⟩

end State
end Westcoast.Cluster
