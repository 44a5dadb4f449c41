import Westcoast.Cluster.Singleton

/-!
# Gaining leadership

Apart from `Rebalance` it is `reconcile` that calls `gainLeadership`: `gaining` says whether, and on
what. It has three outcomes: the singleton is started, nothing happens, or a hand-off begins.
-/
namespace Westcoast.Cluster.Node

variable {σ : Type}

variable {n m n' : Node σ} {s : SingletonState σ}

theorem phase_of_singleton (h : n.singleton = some s) : n.phase = s.phase := by
  simp only [phase, h]

/-- The node and the singleton state that `reconcile` passes to `gainLeadership`, with
the current term. -/
def gaining (n : Node σ) : Option (Node σ × SingletonState σ) :=
  match n.singleton with
  | none => none
  | some s =>
    let n := n.consult s.spec
    match s.phase with
    | .active | .deactivating => none
    | .activating =>
      if n.leads s.spec ∧ s.term ≠ n.term then some (n.cancel s.cancel, { s with cancel := none })
      else none
    | .idle => if n.leads s.spec then some (n, s) else none

theorem reconcile_of_gaining (h : n.gaining = some (m, s)) :
    n.reconcile = m.gainLeadership s m.term := by
  simp only [gaining] at h
  simp only [reconcile]
  cases hs : n.singleton with
  | none => simp [hs] at h
  | some s0 =>
    simp only [hs] at h ⊢
    cases hp : s0.phase with
    | active | deactivating => simp [hp] at h
    | activating =>
      simp only [hp] at h ⊢
      split_ifs at h with hl
      cases h
      rw [if_neg (by simp [hl.1]), if_pos hl.2]
      rfl
    | idle =>
      simp only [hp] at h ⊢
      split_ifs at h with hl
      cases h
      rw [if_pos hl]

/-- What a pass of `reconcile` does. -/
inductive Reconciles (n : Node σ) : Node σ → Prop
  | absent : n.singleton = none → Reconciles n n
  | asks {s : SingletonState σ} : n.singleton = some s →
      (s.phase = .activating → (n.consult s.spec).leads s.spec = true) →
        Reconciles n (n.consult s.spec)
  | aborts {s : SingletonState σ} : n.singleton = some s →
      (n.consult s.spec).leads s.spec = false →
        Reconciles n ((n.consult s.spec).abortActivation s)
  | gains {m : Node σ} {s : SingletonState σ} : n.gaining = some (m, s) →
      Reconciles n (m.gainLeadership s m.term)

theorem reconciles (n : Node σ) : n.Reconciles n.reconcile := by
  cases hg : n.gaining with
  | some ms =>
    rw [reconcile_of_gaining hg]
    exact .gains hg
  | none =>
    simp only [gaining] at hg
    simp only [reconcile]
    cases hs : n.singleton with
    | none => exact .absent hs
    | some s =>
      simp only [hs] at hg ⊢
      have hask := Reconciles.asks hs
      cases hp : s.phase with
      | active | deactivating => exact hask (by simp [hp])
      | activating =>
        simp only [hp] at hg ⊢
        by_cases hl : (n.consult s.spec).leads s.spec = true
        · have hterm : s.term = (n.consult s.spec).term := by
            by_contra hne
            simp [hl, hne] at hg
          simpa [hl, hterm] using hask fun _ => hl
        · simp only [Bool.not_eq_true] at hl
          simpa [hl] using Reconciles.aborts hs hl
      | idle =>
        simp only [hp] at hg ⊢
        by_cases hl : (n.consult s.spec).leads s.spec = true
        · simp [hl] at hg
        · simpa [hl] using hask (by simp [hp])

theorem gaining_eq_some (h : n.gaining = some (m, s)) :
    ∃ s₀, n.singleton = some s₀ ∧ (n.consult s₀.spec).leads s₀.spec = true ∧
      (s₀.phase = .idle ∧ m = n.consult s₀.spec ∧ s = s₀ ∨
        s₀.phase = .activating ∧ s₀.term ≠ (n.consult s₀.spec).term ∧
          m = (n.consult s₀.spec).cancel s₀.cancel ∧ s = { s₀ with cancel := none }) := by
  simp only [gaining] at h
  cases hs : n.singleton with
  | none => simp [hs] at h
  | some s₀ =>
    refine ⟨s₀, rfl, ?_⟩
    simp only [hs] at h
    cases hp : s₀.phase with
    | active | deactivating => simp [hp] at h
    | activating =>
      simp only [hp] at h
      split_ifs at h with hl
      cases h
      exact ⟨hl.1, .inr ⟨rfl, hl.2, rfl, rfl⟩⟩
    | idle =>
      simp only [hp] at h
      split_ifs at h with hl
      cases h
      exact ⟨hl, .inl ⟨rfl, rfl, rfl⟩⟩

def startsNow (n : Node σ) (s : SingletonState σ) : Bool :=
  n.presumedGone n.findPrevLeader || s.rebalancing && !n.clustered

theorem gainLeadership_cases (n : Node σ) (s : SingletonState σ) (t : ℕ) : n.startsNow s = true ∧
        (∃ s', s'.spec = s.spec ∧ s'.cancel = s.cancel ∧ n.gainLeadership s t = n.activate s' t) ∨
      n.startsNow s = false ∧ s.rebalancing = false ∧
        n.gainLeadership s t = { n with singleton := some s } ∨
      n.startsNow s = false ∧ s.rebalancing = true ∧ n.gainLeadership s t = n.beginHandoff s t := by
  simp only [gainLeadership, startsNow]
  by_cases hn : n.presumedGone n.findPrevLeader = true
  · exact .inl ⟨by simp [hn], s, rfl, rfl, by simp [hn]⟩
  · by_cases hr : s.rebalancing = true
    · by_cases hc : n.clustered = true
      · exact .inr (.inr ⟨by simp [hn, hc], hr, by simp [hn, hr, hc]⟩)
      · exact .inl ⟨by simp [hr, hc], { s with rebalancing := false }, rfl, rfl,
          by simp [hn, hr, hc]⟩
    · exact .inr (.inl ⟨by simp [hn, hr], by simpa using hr, by simp [hn, hr]⟩)

/-! ### The steps that may gain leadership -/

def beforeReconcile (n : Node σ) : NodeAction σ → Option (Node σ)
  | .finishStart => some n.endDiscovery
  | .register spec =>
    if n.started then some ({ n with singleton := some (.new spec) } : Node σ).watch else none
  | .memberEvent ev now => some ((n.updateElection ev).noteFailed ev now)
  | .watchEvent w =>
    match n.watcherEvents w with
    | [] => none
    | ev :: evs => some ((n.setWatcherEvents w evs).seeLeader ev)
  | .reconcile => some n
  | _ => none

def afterReconcile (n : Node σ) : NodeAction σ → Node σ
  | .memberEvent ev _ => { n with registry := n.registry.onMembershipChange ev }
  | _ => n

@[simp] theorem singleton_afterReconcile (n : Node σ) (a : NodeAction σ) :
    (n.afterReconcile a).singleton = n.singleton := by
  cases a <;> rfl

@[simp] theorem phase_afterReconcile (n : Node σ) (a : NodeAction σ) :
    (n.afterReconcile a).phase = n.phase := by
  cases a <;> rfl

@[simp] theorem handoffs_afterReconcile (n : Node σ) (a : NodeAction σ) :
    (n.afterReconcile a).handoffs = n.handoffs := by
  cases a <;> rfl

inductive Moves (n : Node σ) : NodeAction σ → Node σ → List (Envelope σ) → Prop
  | reconciles {a : NodeAction σ} {m : Node σ} :
      n.beforeReconcile a = some m → Moves n a (m.reconcile.afterReconcile a) []
  | starts : Moves n .start n.start.1 n.start.2
  | registers {spec : SingletonSpec σ} : n.started = false →
      Moves n (.register spec) { n with singleton := some (.new spec) } []
  | rebalances : Moves n .rebalance n.rebalance []
  | receives {env : Envelope σ} {captured : Option σ} :
      Moves n (.receive env captured) (n.receive env captured).1 (n.receive env captured).2
  | sends {id : ℕ} {ok : Bool} {h : Handoff σ} :
      n.handoffs.find? (·.id = id) = some h → h.isSpawned = true →
        Moves n (.handoffSend id ok) (n.handoffSend h ok).1 (n.handoffSend h ok).2
  | ends {id : ℕ} {ctxDone : Bool} {h : Handoff σ} {result : HandoffResult σ} :
      n.handoffs.find? (·.id = id) = some h → h.result ctxDone = some result →
        Moves n (.handoffEnd id ctxDone) (n.handoffEnd h result) []
  | wakes {id : ℕ} : Moves n (.deactivationEnd id) (n.deactivationEnd id) []
  | stops : Moves n .actorStops { n with actor := n.actor.stop } []
  | replicates {r : DistributedRegistry} : Moves n (.replicate r) { n with registry := r } []

variable {a : NodeAction σ} {es : List (Envelope σ)}

theorem moves_of_step (h : n.step a = some (n', es)) : n.Moves a n' es := by
  cases a with
  | start | rebalance | actorStops | replicate r =>
    cases h
    constructor
  | receive env captured =>
    obtain rfl : (n.receive env captured).1 = n' := congrArg Prod.fst (Option.some.inj h)
    obtain rfl : (n.receive env captured).2 = es := congrArg Prod.snd (Option.some.inj h)
    exact .receives
  | reconcile | memberEvent ev now =>
    cases h
    exact .reconciles rfl
  | finishStart =>
    simp only [step] at h
    split_ifs at h
    cases h
    exact .reconciles rfl
  | register spec =>
    simp only [step, Node.register] at h
    split_ifs at h with hst
    · cases h
      exact .reconciles (m := ({ n with singleton := some (.new spec) } : Node σ).watch)
        (if_pos hst)
    · cases h
      exact .registers (by simpa using hst)
  | watchEvent w =>
    simp only [step] at h
    cases hw : n.watcherEvents w with
    | nil => simp [hw] at h
    | cons ev evs =>
      simp only [hw] at h
      cases h
      exact .reconciles (by simp [beforeReconcile, hw])
  | handoffSend id ok =>
    simp only [step] at h
    cases hfind : n.handoffs.find? (·.id = id) with
    | none => simp [hfind] at h
    | some g =>
      simp only [hfind] at h
      split_ifs at h with hsp
      cases h
      exact .sends hfind hsp
  | handoffEnd id ctxDone =>
    simp only [step] at h
    cases hfind : n.handoffs.find? (·.id = id) with
    | none => simp [hfind] at h
    | some g =>
      simp only [hfind, Option.map_eq_some_iff] at h
      obtain ⟨result, hres, hend⟩ := h
      cases hend
      exact .ends hfind hres
  | deactivationEnd id =>
    simp only [step] at h
    split_ifs at h
    cases h
    exact .wakes

inductive Prepares (n : Node σ) : NodeAction σ → Node σ → Prop
  | finishStart : Prepares n .finishStart n.endDiscovery
  | register {spec : SingletonSpec σ} :
      Prepares n (.register spec) ({ n with singleton := some (.new spec) } : Node σ).watch
  | memberEvent {ev : MemberEvent} {now : ℕ} :
      Prepares n (.memberEvent ev now) ((n.updateElection ev).noteFailed ev now)
  | watchEvent {w : ℕ} {ev : LeaderEvent} {evs : List LeaderEvent} : n.watcherEvents w = ev :: evs →
        Prepares n (.watchEvent w) ((n.setWatcherEvents w evs).seeLeader ev)
  | reconcile : Prepares n .reconcile n

theorem prepares_of_beforeReconcile (h : n.beforeReconcile a = some m) : n.Prepares a m := by
  cases a with
  | finishStart | memberEvent ev now | reconcile =>
    cases h
    constructor
  | register spec =>
    simp only [beforeReconcile] at h
    split_ifs at h
    cases h
    exact .register
  | watchEvent w =>
    simp only [beforeReconcile] at h
    split at h
    · cases h
    · next ev evs hw =>
      cases h
      exact .watchEvent hw
  | _ => cases h

/-- What a message does to the node. A response is noted in the goroutine that waits for it. -/
inductive Receives (n : Node σ) : Node σ → Prop
  | ignores : Receives n n
  | discovers {sender : NodeID} : Receives n { n with prevLeader := sender }
  | stops {s : SingletonState σ} : n.singleton = some s → s.phase.runs = true →
      Receives n (n.stopAndCleanup s)
  | answers {note : Handoff σ → Handoff σ} :
      (∀ h, (note h).id = h.id ∧ (note h).term = h.term ∧ (note h).canceled = h.canceled) →
        Receives n { n with handoffs := n.handoffs.map note }

theorem receives (n : Node σ) (env : Envelope σ) (captured : Option σ) :
    n.Receives (n.receive env captured).1 := by
  simp only [receive]
  split_ifs
  · exact .ignores
  · split
    · exact .ignores
    · simp only [onDiscoverResponse]
      split_ifs
      · exact .discovers
      · exact .ignores
    · simp only [onHandoffRequest]
      split
      · exact .ignores
      · next s hs =>
        split_ifs with hruns
        · exact .ignores
        · exact .stops hs (by simpa using hruns)
    · simp only [onHandoffResponse]
      split
      · exact .ignores
      · refine .answers fun h => ?_
        split
        · split_ifs <;> exact ⟨rfl, rfl, rfl⟩
        · exact ⟨rfl, rfl, rfl⟩

/-- What `completeActivation` does: nothing, if the singleton does not wait for it. -/
inductive Completes (n : Node σ) (t : ℕ) (state : Option σ) : Node σ → Prop
  | stale : (∀ s, n.singleton = some s → s.phase = .activating → s.term ≠ t) → Completes n t state n
  | outrun {s : SingletonState σ} : n.singleton = some s → s.phase = .activating → s.term = t →
      n.term ≠ t → Completes n t state { n with singleton := some { s with phase := .idle } }
  | starts {s : SingletonState σ} : n.singleton = some s → s.phase = .activating → s.term = t →
      n.term = t → Completes n t state { n.startActor s.spec (s.spec.stateFrom state) with
          singleton := some { s with phase := .active } }

theorem completes (n : Node σ) (t : ℕ) (state : Option σ) :
    n.Completes t state (n.completeActivation t state) := by
  simp only [completeActivation]
  split
  · next hs =>
    refine .stale fun s hs' => ?_
    rw [hs] at hs'
    cases hs'
  · next s hs =>
    split_ifs with hstale hterm
    · refine .stale fun s' hs' hp hterm => ?_
      rw [hs] at hs'
      cases hs'
      exact hstale.elim (fun hne => hne hp) fun hne => hne hterm
    · simp only [not_or, not_not] at hstale
      exact .outrun hs hstale.1 hstale.2 hterm
    · simp only [not_or, not_not] at hstale hterm
      exact .starts hs hstale.1 hstale.2 hterm

theorem deactivationEnd_cases (n : Node σ) (id : ℕ) :
    n.deactivationEnd id = { n with deactivations := n.deactivations.filter fun d => d.id ≠ id } ∨
      ∃ s, n.singleton = some s ∧ s.phase = .deactivating ∧ n.deactivationEnd id =
          ({ n with deactivations := n.deactivations.filter fun d => d.id ≠ id } :
            Node σ).stopAndCleanup s := by
  simp only [deactivationEnd]
  split
  · exact .inl rfl
  · next s hs =>
    split_ifs with hp
    · exact .inr ⟨s, hs, hp, rfl⟩
    · exact .inl rfl

/-- The node and the singleton state that the step passes to `gainLeadership`. -/
def gainingBy (n : Node σ) (a : NodeAction σ) : Option (Node σ × SingletonState σ) :=
  match a with
  | .rebalance =>
    match n.singleton with
    | none => none
    | some s =>
      let n := n.consult s.spec
      if s.phase = .idle ∧ n.leads s.spec then some (n, { s with rebalancing := true }) else none
  | a => (n.beforeReconcile a).bind gaining

theorem gainingBy_of_gaining {m' : Node σ} (hm : n.beforeReconcile a = some m)
    (hg : m.gaining = some (m', s)) : n.gainingBy a = some (m', s) := by
  cases a with
  | rebalance => cases hm
  | _ => simp [gainingBy, hm, hg]

/-- What `Rebalance` does. -/
inductive Rebalances (n : Node σ) : Node σ → Prop
  | absent : n.singleton = none → Rebalances n n
  | asks {s : SingletonState σ} : n.singleton = some s → Rebalances n (n.consult s.spec)
  | loses {s : SingletonState σ} : n.singleton = some s → s.phase = .active →
      (n.consult s.spec).leads s.spec = false →
        Rebalances n ((n.consult s.spec).loseLeadership s (n.consult s.spec).term)
  | gains {s : SingletonState σ} : n.singleton = some s → s.phase = .idle →
      (n.consult s.spec).leads s.spec = true →
      n.gainingBy .rebalance = some (n.consult s.spec, { s with rebalancing := true }) →
        Rebalances n ((n.consult s.spec).gainLeadership { s with rebalancing := true }
          (n.consult s.spec).term)

theorem rebalances (n : Node σ) : n.Rebalances n.rebalance := by
  simp only [rebalance]
  cases hs : n.singleton with
  | none => exact .absent hs
  | some s =>
    cases hp : s.phase with
    | activating | deactivating => simpa only [hp] using Rebalances.asks hs
    | active =>
      by_cases hl : (n.consult s.spec).leads s.spec = true
      · simpa [hp, hl] using Rebalances.asks hs
      · simp only [Bool.not_eq_true] at hl
        simpa [hp, hl] using Rebalances.loses hs hp hl
    | idle =>
      by_cases hl : (n.consult s.spec).leads s.spec = true
      · simpa [hp, hl] using Rebalances.gains hs hp hl (by simp [gainingBy, hs, hp, hl])
      · simpa [hp, hl] using Rebalances.asks hs

theorem rebalance_of_gaining (h : n.gainingBy .rebalance = some (m, s)) :
    n.rebalance = m.gainLeadership s m.term ∧ s.rebalancing = true ∧
      ∃ s₀, n.singleton = some s₀ ∧ s₀.phase = .idle ∧ (n.consult s₀.spec).leads s₀.spec = true ∧
        m = n.consult s₀.spec ∧ s = { s₀ with rebalancing := true } := by
  simp only [gainingBy] at h
  simp only [rebalance]
  cases hs : n.singleton with
  | none => simp [hs] at h
  | some s₀ =>
    simp only [hs] at h ⊢
    split_ifs at h with hl
    cases h
    refine ⟨by simp [hl.1, hl.2], rfl, s₀, rfl, hl.1, hl.2, rfl, rfl⟩

theorem step_of_gaining (h : n.step a = some (n', es)) (hg : n.gainingBy a = some (m, s)) :
    n' = (m.gainLeadership s m.term).afterReconcile a ∧ es = [] := by
  cases moves_of_step h with
  | @reconciles _ m0 hm =>
    have hgain : m0.gaining = some (m, s) := by
      cases a with
      | rebalance => cases hm
      | _ => simpa [gainingBy, hm] using hg
    rw [reconcile_of_gaining hgain]
    exact ⟨rfl, rfl⟩
  | rebalances => exact ⟨(rebalance_of_gaining hg).1, rfl⟩
  | registers hst => simp [gainingBy, beforeReconcile, hst] at hg
  | _ => cases hg

/-! ### A node stays who it is -/

variable (n)

@[simp] theorem self_gainLeadership (s : SingletonState σ) (t : ℕ) :
    (n.gainLeadership s t).self = n.self := by
  rcases gainLeadership_cases n s t with ⟨-, _, -, -, h⟩ | ⟨-, -, h⟩ | ⟨-, -, h⟩ <;> rw [h] <;> rfl

variable {n} in
theorem self_gaining (h : n.gaining = some (m, s)) : m.self = n.self := by
  obtain ⟨s0, -, -, ⟨-, rfl, -⟩ | ⟨-, -, rfl, -⟩⟩ := gaining_eq_some h <;> rfl

@[simp] theorem self_reconcile : n.reconcile.self = n.self := by
  have hrec := n.reconciles
  generalize n.reconcile = n' at hrec ⊢
  cases hrec with
  | absent | asks | aborts => rfl
  | gains hg => rw [self_gainLeadership, self_gaining hg]

@[simp] theorem self_loseLeadership (s : SingletonState σ) (t : ℕ) :
    (n.loseLeadership s t).self = n.self := by
  simp only [loseLeadership]
  split_ifs <;> rfl

@[simp] theorem self_rebalance : n.rebalance.self = n.self := by
  have hreb := n.rebalances
  generalize n.rebalance = n' at hreb ⊢
  cases hreb with
  | absent | asks => rfl
  | loses =>
    rw [self_loseLeadership]
    rfl
  | gains =>
    rw [self_gainLeadership]
    rfl

@[simp] theorem self_finish (t : ℕ) (result : HandoffResult σ) :
    (n.finish t result).self = n.self := by
  cases result with
  | returns => rfl
  | completes state =>
    have hc := n.completes t state
    simp only [finish]
    generalize n.completeActivation t state = m at hc ⊢
    cases hc <;> rfl

theorem self_receive (env : Envelope σ) (captured : Option σ) :
    (n.receive env captured).1.self = n.self := by
  have hr := n.receives env captured
  generalize (n.receive env captured).1 = m at hr ⊢
  cases hr <;> rfl

@[simp] theorem self_afterReconcile (a : NodeAction σ) : (n.afterReconcile a).self = n.self := by
  cases a <;> rfl

variable {n} in
theorem self_beforeReconcile (h : n.beforeReconcile a = some m) : m.self = n.self := by
  cases prepares_of_beforeReconcile h <;> rfl

variable {n} in
theorem self_step (h : n.step a = some (n', es)) : n'.self = n.self := by
  cases moves_of_step h with
  | reconciles hm => rw [self_afterReconcile, self_reconcile, self_beforeReconcile hm]
  | starts | registers | sends | stops | replicates => rfl
  | rebalances => exact self_rebalance n
  | receives => exact self_receive n _ _
  | ends => exact self_finish n _ _
  | @wakes id =>
    rcases deactivationEnd_cases n id with hend | ⟨s, -, -, hend⟩
    · rw [hend]
    · rw [hend]
      rfl

@[simp] theorem phase_activate (s : SingletonState σ) (t : ℕ) :
    (n.activate s t).phase = .active := rfl

end Westcoast.Cluster.Node
