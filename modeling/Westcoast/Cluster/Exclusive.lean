import Westcoast.Cluster.Protocol

/-!
# One node has the singleton

`Exclusive`: one live node at most has the singleton, one at most waits for it, and meanwhile the
singleton can only be at the node it has asked. It is kept by steps that leave the singleton where
it is, by the start on a node while nobody else has or wants it, and by the beginning of a hand-off.
-/
namespace Westcoast.Cluster

open Lib

variable {σ : Type}

/-- The message asks for the singleton in this term. -/
def Message.asks : Message σ → ℕ → Bool
  | .handoffRequest t', t => t' = t
  | _, _ => false

/-- The message answers such a request. -/
def Message.answers : Message σ → ℕ → Bool
  | .handoffResponse t' _ _ _, t => t' = t
  | _, _ => false

namespace Node

/-- The singleton does not begin to run or to activate on the node. -/
structure Stays (n n' : Node σ) : Prop where
  runs : n'.phase.runs = true → n.phase.runs = true
  activating : ∀ s', n'.singleton = some s' → s'.phase = .activating →
    ∃ s, n.singleton = some s ∧ s.phase = .activating ∧ s.term = s'.term

namespace Stays

theorem of_singleton {n n' : Node σ} (hs : n'.singleton = n.singleton) : n.Stays n' where
  runs := by
    simp only [phase, hs]
    exact id
  activating := by
    intro s' hs' hp
    exact ⟨s', hs ▸ hs', hp, rfl⟩

theorem of_idle {n n' : Node σ} (hp : n'.phase = .idle) : n.Stays n' where
  runs := by
    simp [hp, SingletonPhase.runs]
  activating := by
    intro s' hs' hp'
    simp [phase, hs', hp'] at hp

theorem trans {n₁ n₂ n₃ : Node σ} (h : n₁.Stays n₂) (h' : n₂.Stays n₃) : n₁.Stays n₃ where
  runs := fun hr => h.runs (h'.runs hr)
  activating := by
    intro s3 hs3 hp3
    obtain ⟨s2, hs2, hp2, ht2⟩ := h'.activating s3 hs3 hp3
    obtain ⟨s1, hs1, hp1, ht1⟩ := h.activating s2 hs2 hp2
    exact ⟨s1, hs1, hp1, ht1.trans ht2⟩

theorem phase_activating {n n' : Node σ} (h : n.Stays n') (hp : n'.phase = .activating) :
    n.phase = .activating := by
  cases hs' : n'.singleton with
  | none => simp [phase, hs'] at hp
  | some s' =>
    obtain ⟨s, hs, hps, -⟩ := h.activating s' hs' (by simpa [phase, hs'] using hp)
    simp [phase, hs, hps]

end Stays

/-- The hand-off goes back to one of the node, and it has not been settled since. -/
def Continues (n : Node σ) (g' : Handoff σ) : Prop :=
  ∃ g ∈ n.handoffs, g'.term = g.term ∧ g'.prevLeader = g.prevLeader ∧
    (g'.settled = true → g.settled = true)

variable {n m : Node σ}

theorem Continues.of_mem {g : Handoff σ} (hg : g ∈ n.handoffs) : n.Continues g :=
  ⟨g, hg, rfl, rfl, id⟩

/-- A step that brings the singleton no closer to the node, and no hand-off of it closer to its end.
-/
structure Calm (n n' : Node σ) : Prop extends n.Stays n' where
  handoffs : ∀ g' ∈ n'.handoffs, n.Continues g'

namespace Calm

theorem trans {n₁ n₂ n₃ : Node σ} (h : n₁.Calm n₂) (h' : n₂.Calm n₃) : n₁.Calm n₃ where
  toStays := h.toStays.trans h'.toStays
  handoffs := by
    intro g3 hg3
    obtain ⟨g2, hg2, ht2, hl2, hset2⟩ := h'.handoffs g3 hg3
    obtain ⟨g1, hg1, ht1, hl1, hset1⟩ := h.handoffs g2 hg2
    exact ⟨g1, hg1, ht2.trans ht1, hl2.trans hl1, fun hset => hset1 (hset2 hset)⟩

theorem frame {n n' : Node σ} (hs : n'.singleton = n.singleton) (hh : n'.handoffs = n.handoffs) :
    n.Calm n' where
  toStays := .of_singleton hs
  handoffs := fun _ hg => .of_mem (hh ▸ hg)

end Calm

theorem handoffs_cancel (n : Node σ) (c : Option CancelFunc) :
    ∀ g' ∈ (n.cancel c).handoffs, n.Continues g' := by
  simp only [cancel, List.forall_mem_map]
  intro g hg
  refine ⟨g, hg, rfl, rfl, ?_⟩
  simp only [Handoff.settled, Handoff.cancelBy]
  cases g.stage <;> simp
  intro hc _
  exact hc

theorem calm_consult (n : Node σ) (spec : SingletonSpec σ) : n.Calm (n.consult spec) :=
  .frame rfl rfl

theorem calm_abortActivation (n : Node σ) (s : SingletonState σ) : n.Calm (n.abortActivation s) :=
  ⟨.of_idle rfl, n.handoffs_cancel s.cancel⟩

theorem calm_stopAndCleanup (n : Node σ) (s : SingletonState σ) : n.Calm (n.stopAndCleanup s) :=
  ⟨.of_idle rfl, n.handoffs_cancel s.cancel⟩

variable {s : SingletonState σ}

theorem calm_loseLeadership (hs : n.singleton = some s) (hp : s.phase = .active) (t : ℕ) :
    n.Calm (n.loseLeadership s t) := by
  simp only [loseLeadership]
  split_ifs
  · exact n.calm_stopAndCleanup s
  · refine ⟨⟨?_, ?_⟩, fun _ => .of_mem⟩
    · intro _
      simp [phase, hs, hp, SingletonPhase.runs]
    · intro s' hs' hp'
      cases hs'
      cases hp'

theorem calm_beforeReconcile {a : NodeAction σ} (h : n.beforeReconcile a = some m) : n.Calm m := by
  cases prepares_of_beforeReconcile h with
  | finishStart | memberEvent | watchEvent | reconcile => exact .frame rfl rfl
  | register => exact ⟨.of_idle rfl, fun _ => .of_mem⟩

theorem calm_afterReconcile (n : Node σ) (a : NodeAction σ) : n.Calm (n.afterReconcile a) := by
  cases a <;> exact .frame rfl rfl

theorem calm_gaining (hg : n.gaining = some (m, s)) : n.Calm { m with singleton := some s } := by
  obtain ⟨s0, hs0, -, ⟨-, rfl, rfl⟩ | ⟨hp, -, rfl, rfl⟩⟩ := gaining_eq_some hg
  · exact .frame hs0.symm rfl
  · refine ⟨⟨?_, ?_⟩, n.handoffs_cancel s0.cancel⟩
    · simp [phase, hp, SingletonPhase.runs]
    · intro s' hs' _
      cases hs'
      exact ⟨s0, hs0, hp, rfl⟩

/-- The node is about to start the singleton or to ask for it. -/
def reaches (m : Node σ) (s : SingletonState σ) : Bool := m.startsNow s || s.rebalancing

theorem gainLeadership_of_not_reaches (h : m.reaches s = false) (t : ℕ) :
    m.gainLeadership s t = { m with singleton := some s } := by
  simp only [reaches, Bool.or_eq_false_iff] at h
  rcases gainLeadership_cases m s t with ⟨hnow, -⟩ | ⟨-, -, hstay⟩ | ⟨-, hr, -⟩
  · simp [h.1] at hnow
  · exact hstay
  · simp [h.2] at hr

theorem calm_reconcile (h : ∀ m s, n.gaining = some (m, s) → m.reaches s = false) :
    n.Calm n.reconcile := by
  have hrec := n.reconciles
  generalize n.reconcile = n' at hrec ⊢
  cases hrec with
  | absent | asks => exact .frame rfl rfl
  | aborts => exact (n.calm_consult _).trans ((n.consult _).calm_abortActivation _)
  | gains hg =>
    rw [gainLeadership_of_not_reaches (h _ _ hg)]
    exact calm_gaining hg

theorem calm_rebalance (h : n.gainingBy .rebalance = none) : n.Calm n.rebalance := by
  have hreb := n.rebalances
  generalize n.rebalance = n' at hreb ⊢
  cases hreb with
  | absent | asks => exact .frame rfl rfl
  | @loses s hs hp =>
    have hs' : (n.consult s.spec).singleton = some s := hs
    exact (n.calm_consult s.spec).trans (calm_loseLeadership hs' hp _)
  | gains _ _ _ hg =>
    rw [h] at hg
    cases hg

theorem calm_deactivationEnd (n : Node σ) (id : ℕ) : n.Calm (n.deactivationEnd id) := by
  rcases deactivationEnd_cases n id with hend | ⟨s, -, -, hend⟩
  · rw [hend]
    exact .frame rfl rfl
  · rw [hend]
    exact ⟨.of_idle rfl, n.handoffs_cancel _⟩

end Node

namespace State

/-- A hand-off under way: nobody but the node it asks has the singleton, its requests go there, and
after an answer nobody has it. -/
structure HandsOver (c : State σ) (id : NodeID) (n : Node σ) (t : ℕ) (owner : NodeID) : Prop where
  runs : ∀ id' n', c.node? id' = some n' → n'.phase.runs = true → id' = owner
  request : ∀ env ∈ c.flight, env.sender = id → env.payload.asks t = true → env.target = owner
  handoff : ∀ g ∈ n.handoffs, g.term = t → g.prevLeader = owner
  answered : ((∃ env ∈ c.flight, env.target = id ∧ env.payload.answers t = true) ∨
    ∃ g ∈ n.handoffs, g.term = t ∧ g.settled = true) →
      ∀ id' n', c.node? id' = some n' → n'.phase.runs = false

/-- Sound nodes; one live node has the singleton, one waits for it, and that one has what it relies
on. -/
structure Exclusive (c : State σ) : Prop where
  sound : ∀ id n, c.node? id = some n → n.Sound ∧ n.self.id = id
  runs : ∀ id₁ id₂ n₁ n₂, c.node? id₁ = some n₁ → c.node? id₂ = some n₂ →
    n₁.phase.runs = true → n₂.phase.runs = true → id₁ = id₂
  activating : ∀ id₁ id₂ n₁ n₂, c.node? id₁ = some n₁ → c.node? id₂ = some n₂ →
    n₁.phase = .activating → n₂.phase = .activating → id₁ = id₂
  handsOver : ∀ id n s, c.node? id = some n → n.singleton = some s → s.phase = .activating →
    ∃ owner, c.HandsOver id n s.term owner

theorem exclusive_empty : (empty : State σ).Exclusive := by
  have hnone : ∀ id, (empty : State σ).node? id = none := by
    intro id
    rfl
  constructor <;> intro id <;> simp [hnone]

/-- A step of node `id` that leaves the singleton where it is. It sends requests of hand-offs under
way, or answers of a node without the singleton; and a hand-off it settles has an answer or asked a
node that is not live. -/
structure Leaves (c c' : State σ) (id : NodeID) (n n' : Node σ) : Prop where
  node : c.node? id = some n
  becomes : Becomes c c' id n'
  stays : n.Stays n'
  handoffs : ∀ g' ∈ n'.handoffs, ∃ g ∈ n.handoffs,
    g'.term = g.term ∧ g'.prevLeader = g.prevLeader ∧ (g'.settled = true → g.settled = true ∨
      (∃ env ∈ c.flight, env.target = id ∧ env.payload.answers g.term = true) ∨
      c.node? g.prevLeader = none)
  asks : ∀ env ∈ c'.flight, ∀ t, env.payload.asks t = true → env ∈ c.flight ∨
    env.sender = id ∧ ∃ g ∈ n.handoffs, g.term = t ∧ env.target = g.prevLeader
  answers : ∀ env ∈ c'.flight, ∀ t, env.payload.answers t = true → env ∈ c.flight ∨
    n'.phase.runs = false ∧ ∃ req ∈ c.flight, req.sender = env.target ∧ req.target = id ∧
      req.payload.asks t = true

namespace Leaves
variable {c c' : State σ} {id : NodeID} {n n' : Node σ} (h : Leaves c c' id n n')
include h

theorem back {x : NodeID} {m' : Node σ} (hm' : c'.node? x = some m') :
    ∃ m, c.node? x = some m ∧ m.Stays m' := by
  rcases h.becomes.cases hm' with ⟨rfl, rfl⟩ | ⟨-, hm⟩
  · exact ⟨n, h.node, h.stays⟩
  · exact ⟨m', hm, .of_singleton rfl⟩

theorem nobody (hnone : ∀ x m, c.node? x = some m → m.phase.runs = false) (x : NodeID)
    (m' : Node σ) (hm' : c'.node? x = some m') : m'.phase.runs = false := by
  obtain ⟨m, hm, hstays⟩ := h.back hm'
  by_contra hr
  have hrm := hstays.runs (by simpa using hr)
  simp [hnone x m hm] at hrm

variable {t : ℕ}

theorem owner {y : NodeID} {ny : Node σ} {owner : NodeID} (ho : c.HandsOver y ny t owner)
    {x : NodeID} {m' : Node σ} (hm' : c'.node? x = some m') (hr : m'.phase.runs = true) :
    x = owner ∧ ∃ m, c.node? x = some m := by
  obtain ⟨m, hm, hstays⟩ := h.back hm'
  exact ⟨ho.runs x m hm (hstays.runs hr), m, hm⟩

theorem answered_of_flight {y : NodeID} {ny : Node σ} {owner : NodeID}
    (ho : c.HandsOver y ny t owner) {env : Envelope σ} (henv : env ∈ c'.flight)
    (htarget : env.target = y) (hans : env.payload.answers t = true) :
    ∀ x m', c'.node? x = some m' → m'.phase.runs = false := by
  rcases h.answers env henv t hans with hold | ⟨hstop, req, hreq, hsender, hreqt, hasks⟩
  · exact h.nobody (ho.answered (.inl ⟨env, hold, htarget, hans⟩))
  · -- the node that answers is the owner, and it does not have the singleton
    have howner : id = owner := by
      rw [← hreqt]
      exact ho.request req hreq (hsender.trans htarget) hasks
    intro x m' hm'
    by_contra hr
    obtain ⟨hx, -⟩ := h.owner ho hm' (by simpa using hr)
    rw [h.becomes x, if_pos (hx.trans howner.symm)] at hm'
    cases hm'
    exact hr hstop

theorem answered_of_settled {owner : NodeID} (ho : c.HandsOver id n t owner) {g' : Handoff σ}
    (hg' : g' ∈ n'.handoffs) (hgt' : g'.term = t) (hset' : g'.settled = true) :
    ∀ x m', c'.node? x = some m' → m'.phase.runs = false := by
  obtain ⟨g, hg, hgt, hlead, hset⟩ := h.handoffs g' hg'
  rw [hgt] at hgt'
  rcases hset hset' with hold | ⟨env, henv, htarget, hans⟩ | hgone
  · exact h.nobody (ho.answered (.inr ⟨g, hg, hgt', hold⟩))
  · exact h.nobody (ho.answered (.inl ⟨env, henv, htarget, hgt' ▸ hans⟩))
  · rw [ho.handoff g hg hgt'] at hgone
    intro x m' hm'
    by_contra hr
    obtain ⟨rfl, m, hm⟩ := h.owner ho hm' (by simpa using hr)
    rw [hgone] at hm
    cases hm

theorem handsOver_self {owner : NodeID} (ho : c.HandsOver id n t owner) :
    c'.HandsOver id n' t owner := by
  refine ⟨fun x m' hm' hr => (h.owner ho hm' hr).1, ?_, ?_, ?_⟩
  · intro env henv hsender hasks
    rcases h.asks env henv t hasks with hold | ⟨-, g, hg, hgt, htarget⟩
    · exact ho.request env hold hsender hasks
    · rw [htarget]
      exact ho.handoff g hg hgt
  · intro g' hg' hgt'
    obtain ⟨g, hg, hgt, hlead, -⟩ := h.handoffs g' hg'
    rw [hlead]
    exact ho.handoff g hg (hgt ▸ hgt')
  · rintro (⟨env, henv, htarget, hans⟩ | ⟨g', hg', hgt', hset'⟩)
    · exact h.answered_of_flight ho henv htarget hans
    · exact h.answered_of_settled ho hg' hgt' hset'

theorem handsOver_other {y : NodeID} (hy : y ≠ id) {ny : Node σ} {owner : NodeID}
    (ho : c.HandsOver y ny t owner) : c'.HandsOver y ny t owner := by
  refine ⟨fun x m' hm' hr => (h.owner ho hm' hr).1, ?_, ho.handoff, ?_⟩
  · intro env henv hsender hasks
    rcases h.asks env henv t hasks with hold | ⟨hid, -⟩
    · exact ho.request env hold hsender hasks
    · exact absurd (hsender.symm.trans hid) hy
  · rintro (⟨env, henv, htarget, hans⟩ | hset)
    · exact h.answered_of_flight ho henv htarget hans
    · exact h.nobody (ho.answered (.inr hset))

end Leaves

variable {c c' : State σ} {id : NodeID} {n n' : Node σ} (h : c.Exclusive)
include h

theorem Exclusive.sound_becomes (hn : c.node? id = some n) (hc : Becomes c c' id n')
    (hsound : n'.Sound) (hself : n'.self = n.self) (x : NodeID) (m : Node σ)
    (hm : c'.node? x = some m) : m.Sound ∧ m.self.id = x := by
  rcases hc.cases hm with ⟨rfl, rfl⟩ | ⟨-, hold⟩
  · exact ⟨hsound, hself ▸ (h.sound x n hn).2⟩
  · exact h.sound x m hold

theorem Exclusive.leaves (hl : Leaves c c' id n n') (hsound : n'.Sound) (hself : n'.self = n.self) :
    c'.Exclusive := by
  refine ⟨h.sound_becomes hl.node hl.becomes hsound hself, ?_, ?_, ?_⟩
  · intro id1 id2 n1 n2 h1 h2 hr1 hr2
    obtain ⟨m1, hm1, hs1⟩ := hl.back h1
    obtain ⟨m2, hm2, hs2⟩ := hl.back h2
    exact h.runs id1 id2 m1 m2 hm1 hm2 (hs1.runs hr1) (hs2.runs hr2)
  · intro id1 id2 n1 n2 h1 h2 hp1 hp2
    obtain ⟨m1, hm1, hs1⟩ := hl.back h1
    obtain ⟨m2, hm2, hs2⟩ := hl.back h2
    exact h.activating id1 id2 m1 m2 hm1 hm2 (hs1.phase_activating hp1) (hs2.phase_activating hp2)
  · intro x m' s' hm' hs' hp'
    rcases hl.becomes.cases hm' with ⟨rfl, rfl⟩ | ⟨hne, hm⟩
    · obtain ⟨s, hs, hp, hterm⟩ := hl.stays.activating s' hs' hp'
      obtain ⟨owner, ho⟩ := h.handsOver x n s hl.node hs hp
      rw [← hterm]
      exact ⟨owner, hl.handsOver_self ho⟩
    · obtain ⟨owner, ho⟩ := h.handsOver x m' s' hm hs' hp'
      exact ⟨owner, hl.handsOver_other hne ho⟩

theorem Exclusive.quiet (hn : c.node? id = some n) (hc : Becomes c c' id n') (hsound : n'.Sound)
    (hself : n'.self = n.self) (hcalm : n.Calm n') (hflight : ∀ env ∈ c'.flight, env ∈ c.flight ∨
      ∀ t, env.payload.asks t = false ∧ env.payload.answers t = false) :
    c'.Exclusive := by
  refine h.leaves ⟨hn, hc, hcalm.toStays, ?_, ?_, ?_⟩ hsound hself
  · intro g' hg'
    obtain ⟨g, hg, hterm, hlead, hset⟩ := hcalm.handoffs g' hg'
    exact ⟨g, hg, hterm, hlead, fun hs => .inl (hset hs)⟩
  · intro env henv t hasks
    rcases hflight env henv with hold | hother
    · exact .inl hold
    · simp [(hother t).1] at hasks
  · intro env henv t hans
    rcases hflight env henv with hold | hother
    · exact .inl hold
    · simp [(hother t).2] at hans

theorem Exclusive.shrink (hnodes : ∀ id n, c'.node? id = some n →
      c.node? id = some n ∨ n.Sound ∧ n.self.id = id ∧ n.phase = .idle)
    (hflight : ∀ env ∈ c'.flight, env ∈ c.flight) : c'.Exclusive := by
  have hruns : ∀ id n, c'.node? id = some n → n.phase.runs = true → c.node? id = some n := by
    intro id n hn hr
    rcases hnodes id n hn with hold | ⟨-, -, hidle⟩
    · exact hold
    · simp [hidle, SingletonPhase.runs] at hr
  have hact : ∀ id n, c'.node? id = some n → n.phase = .activating → c.node? id = some n := by
    intro id n hn hp
    rcases hnodes id n hn with hold | ⟨-, -, hidle⟩
    · exact hold
    · simp [hidle] at hp
  refine ⟨?_, ?_, ?_, ?_⟩
  · intro id n hn
    rcases hnodes id n hn with hold | ⟨hsound, hid, -⟩
    · exact h.sound id n hold
    · exact ⟨hsound, hid⟩
  · intro id1 id2 n1 n2 h1 h2 hr1 hr2
    exact h.runs id1 id2 n1 n2 (hruns _ _ h1 hr1) (hruns _ _ h2 hr2) hr1 hr2
  · intro id1 id2 n1 n2 h1 h2 hp1 hp2
    exact h.activating id1 id2 n1 n2 (hact _ _ h1 hp1) (hact _ _ h2 hp2) hp1 hp2
  · intro id n s hn hs hp
    obtain ⟨owner, ho⟩ := h.handsOver id n s (hact id n hn (by simp [Node.phase, hs, hp])) hs hp
    refine ⟨owner, ?_, ?_, ho.handoff, ?_⟩
    · intro id' n' hn' hr'
      exact ho.runs id' n' (hruns id' n' hn' hr') hr'
    · intro env henv
      exact ho.request env (hflight env henv)
    · intro hans id' n' hn'
      by_contra hr'
      have hr : n'.phase.runs = true := by simpa using hr'
      have hnone : n'.phase.runs = false := by
        refine ho.answered ?_ id' n' (hruns id' n' hn' hr)
        rcases hans with ⟨env, henv, htarget, ha⟩ | hset
        · exact .inl ⟨env, hflight env henv, htarget, ha⟩
        · exact .inr hset
      exact hr' hnone

theorem Exclusive.sole (hn : c.node? id = some n) (hc : Becomes c c' id n') (hsound : n'.Sound)
    (hself : n'.self = n.self) (hp : n'.phase ≠ .activating)
    (hothers : ∀ id' m, id' ≠ id → c.node? id' = some m →
      m.phase.runs = false ∧ m.phase ≠ .activating) :
    c'.Exclusive := by
  have hrunsID : ∀ id' m, c'.node? id' = some m → m.phase.runs = true → id' = id := by
    intro id' m hm hr
    rcases hc.cases hm with ⟨hid, -⟩ | ⟨hne, hold⟩
    · exact hid
    · simp [(hothers id' m hne hold).1] at hr
  have hnoact : ∀ id' m, c'.node? id' = some m → m.phase ≠ .activating := by
    intro id' m hm
    rcases hc.cases hm with ⟨-, rfl⟩ | ⟨hne, hold⟩
    · exact hp
    · exact (hothers id' m hne hold).2
  refine ⟨h.sound_becomes hn hc hsound hself, ?_, ?_, ?_⟩
  · intro id1 id2 n1 n2 h1 h2 hr1 hr2
    rw [hrunsID id1 n1 h1 hr1, hrunsID id2 n2 h2 hr2]
  · intro id1 id2 n1 n2 h1 h2 hp1 hp2
    exact absurd hp1 (hnoact id1 n1 h1)
  · intro id' m s hm hs hps
    exact absurd (by simp [Node.phase, hs, hps]) (hnoact id' m hm)

/-- A hand-off begins in its own term, while no other live node waits and only the node asked may
have the singleton. -/
theorem Exclusive.begins (hn : c.node? id = some n) (hc : Becomes c c' id n') (hsound : n'.Sound)
    (hself : n'.self = n.self) {s' : SingletonState σ} (hs' : n'.singleton = some s')
    (hp : s'.phase = .activating) (owner : NodeID)
    (hothers : ∀ id' m, id' ≠ id → c.node? id' = some m →
      m.phase ≠ .activating ∧ (m.phase.runs = true → id' = owner))
    (hflight : ∀ env ∈ c'.flight, (env.sender = id → env.payload.asks s'.term = false) ∧
      (env.target = id → env.payload.answers s'.term = false))
    (hhandoffs : ∀ g ∈ n'.handoffs, g.term = s'.term → g.prevLeader = owner ∧ g.settled = false) :
    c'.Exclusive := by
  have hphase : n'.phase = .activating := by simp [Node.phase, hs', hp]
  have hruns : ∀ id' m, c'.node? id' = some m → m.phase.runs = true →
      c.node? id' = some m ∧ id' = owner := by
    intro id' m hm hr
    rcases hc.cases hm with ⟨-, rfl⟩ | ⟨hne, hold⟩
    · simp [hphase, SingletonPhase.runs] at hr
    · exact ⟨hold, (hothers id' m hne hold).2 hr⟩
  have hact : ∀ id' m, c'.node? id' = some m → m.phase = .activating → id' = id := by
    intro id' m hm hpm
    rcases hc.cases hm with ⟨hid, -⟩ | ⟨hne, hold⟩
    · exact hid
    · exact absurd hpm (hothers id' m hne hold).1
  refine ⟨h.sound_becomes hn hc hsound hself, ?_, ?_, ?_⟩
  · intro id1 id2 n1 n2 h1 h2 hr1 hr2
    rw [(hruns id1 n1 h1 hr1).2, (hruns id2 n2 h2 hr2).2]
  · intro id1 id2 n1 n2 h1 h2 hp1 hp2
    rw [hact id1 n1 h1 hp1, hact id2 n2 h2 hp2]
  · intro x m s hm hs hps
    obtain rfl := hact x m hm (by simp [Node.phase, hs, hps])
    rw [hc x, if_pos rfl] at hm
    cases hm
    rw [hs'] at hs
    cases hs
    refine ⟨owner, ?_, ?_, ?_, ?_⟩
    · intro id' m hm hr
      exact (hruns id' m hm hr).2
    · intro env henv hsender hasks
      simp [(hflight env henv).1 hsender] at hasks
    · intro g hg hterm
      exact (hhandoffs g hg hterm).1
    · rintro (⟨env, henv, htarget, hans⟩ | ⟨g, hg, hterm, hset⟩)
      · simp [(hflight env henv).2 htarget] at hans
      · simp [(hhandoffs g hg hterm).2] at hset

end State
end Westcoast.Cluster
