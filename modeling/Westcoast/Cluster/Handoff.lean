import Westcoast.Cluster.Leadership

/-!
# The hand-off goroutines of a node

`Sound` relates the manager's state for a singleton without placement to its `runHandoff`
goroutines: each has its own term, in which this node led; one whose context is cancelled has an old
term; the cancel function the manager keeps belongs to a goroutine only during its activation. A
hand-off is assumed to begin in a term of its own (`freshTerm`).
-/
namespace Westcoast.Cluster

open Lib List SingletonPhase Nat

variable {σ : Type}

/-- The goroutine has its answer, or knows that there will be none. -/
def Handoff.settled (h : Handoff σ) : Bool :=
  match h.stage with
  | .answered _ => true
  | .sendFailed => !h.canceled
  | _ => false

namespace Node

/-- An election scope only moves on: its term grows, and in one term it has one leader. -/
def ScopeGrows (o o' : Option ElectionScope) : Prop :=
  ∀ e, o = some e →
    ∃ e', o' = some e' ∧ e.term ≤ e'.term ∧ (e'.term = e.term → e'.leader = e.leader)

theorem ScopeGrows.refl (o : Option ElectionScope) : ScopeGrows o o :=
  fun e he => ⟨e, he, le_refl _, fun _ => rfl⟩

theorem scopeGrows_ensureScope (n : Node σ) : ScopeGrows n.scope n.ensureScope.scope := by
  intro e he
  exact ⟨e, by simp [ensureScope, he], le_refl _, fun _ => rfl⟩

theorem scopeGrows_consult (n : Node σ) (spec : SingletonSpec σ) :
    ScopeGrows n.scope (n.consult spec).scope := by
  simp only [consult]
  split_ifs
  · exact ScopeGrows.refl _
  · exact scopeGrows_ensureScope n

theorem scopeGrows_watch (n : Node σ) : ScopeGrows n.scope n.watch.scope := by
  intro e he
  exact ⟨e.watch, by simp [watch, ensureScope, he], le_refl _, fun _ => rfl⟩

theorem scopeGrows_setWatcherEvents (n : Node σ) (w : ℕ) (evs : List LeaderEvent) :
    ScopeGrows n.scope (n.setWatcherEvents w evs).scope := by
  intro e he
  exact ⟨{ e with watchers := e.watchers.set w evs }, by simp [setWatcherEvents, he], le_refl _,
    fun _ => rfl⟩

theorem scopeGrows_setLeader (o : Option ElectionScope) (leader : NodeID) :
    ScopeGrows o (o.map (·.setLeader leader)) := by
  intro e he
  refine ⟨e.setLeader leader, by simp [he], ?_, ?_⟩
  · rw [ElectionScope.term_setLeader]
    split_ifs <;> omega
  · rw [ElectionScope.term_setLeader, ElectionScope.leader_setLeader]
    split_ifs with hl
    · intro _
      exact hl
    · omega

structure Sound (n : Node σ) : Prop where
  self : n.self.id ≠ ""
  clustered : n.clustered = true
  placement : ∀ s, n.singleton = some s → s.spec.placement = none
  -- goroutines have numbers and terms of their own
  fresh : ∀ h ∈ n.handoffs, h.id < n.nextID
  uniqueID : ∀ g ∈ n.handoffs, ∀ h ∈ n.handoffs, g.id = h.id → g = h
  uniqueTerm : ∀ g ∈ n.handoffs, ∀ h ∈ n.handoffs, g.term = h.term → g = h
  -- the term of a goroutine is one that this node led
  reached : ∀ h ∈ n.handoffs, ∃ e, n.scope = some e ∧ h.term ≤ e.term ∧
    (h.term = e.term → e.leader = n.self.id)
  canceled : ∀ h ∈ n.handoffs, h.canceled = true → h.term < n.term
  cancel : ∀ s id, n.singleton = some s → s.cancel = some (.handoff id) →
    ∀ h ∈ n.handoffs, h.id = id → s.phase = .activating ∧ h.term = s.term
  waits : ∀ t id, n.handoffWaits.lookup t = some id →
    id < n.nextID ∧ ∀ h ∈ n.handoffs, h.id = id → h.term = t

variable {n m : Node σ}

theorem term_of_scope {e : ElectionScope} (h : n.scope = some e) : n.term = e.term := by
  simp only [term, h]

theorem sound_new (name : String) {self : NodeMeta} (hself : self.id ≠ "") :
    (Node.new name self : Node σ).Sound where
  self := hself
  clustered := rfl
  placement := by
    intro s hs
    cases hs
  fresh := by
    intro h hmem
    cases hmem
  uniqueID := by
    intro g hmem
    cases hmem
  uniqueTerm := by
    intro g hmem
    cases hmem
  reached := by
    intro h hmem
    cases hmem
  canceled := by
    intro h hmem
    cases hmem
  cancel := by
    intro s id hs
    cases hs
  waits := by
    intro t id h
    cases h

namespace Sound
variable {n n' : Node σ} (h : n.Sound)
include h

theorem frame (hself : n'.self = n.self) (hcl : n'.clustered = n.clustered)
    (hs : n'.singleton = n.singleton) (hh : n'.handoffs = n.handoffs)
    (hw : n'.handoffWaits = n.handoffWaits) (hid : n'.nextID = n.nextID)
    (hgrow : ScopeGrows n.scope n'.scope) : n'.Sound where
  self := hself ▸ h.self
  clustered := hcl ▸ h.clustered
  placement := hs ▸ h.placement
  fresh := by
    rw [hh, hid]
    exact h.fresh
  uniqueID := hh ▸ h.uniqueID
  uniqueTerm := hh ▸ h.uniqueTerm
  reached := by
    rw [hh, hself]
    intro g hg
    obtain ⟨e, he, hle, hlead⟩ := h.reached g hg
    obtain ⟨e', he', hle', hlead'⟩ := hgrow e he
    refine ⟨e', he', by omega, ?_⟩
    intro heq
    have hterm : e'.term = e.term := by omega
    rw [hlead' hterm]
    exact hlead (by omega)
  canceled := by
    rw [hh]
    intro g hg hc
    obtain ⟨e, he, -, -⟩ := h.reached g hg
    obtain ⟨e', he', hle', -⟩ := hgrow e he
    have hlt := h.canceled g hg hc
    rw [term_of_scope he] at hlt
    rw [term_of_scope he']
    omega
  cancel := by
    rw [hs, hh]
    exact h.cancel
  waits := by
    rw [hw, hid, hh]
    exact h.waits

variable {s : SingletonState σ}

theorem setSingleton (hplace : s.spec.placement = none)
    (hcancel : ∀ id, s.cancel = some (.handoff id) → ∀ h ∈ n.handoffs, h.id ≠ id) :
    ({ n with singleton := some s } : Node σ).Sound where
  self := h.self
  clustered := h.clustered
  placement := by
    intro s' hs'
    cases hs'
    exact hplace
  fresh := h.fresh
  uniqueID := h.uniqueID
  uniqueTerm := h.uniqueTerm
  reached := h.reached
  canceled := h.canceled
  cancel := by
    intro s' id hs' hid g hg heq
    cases hs'
    exact absurd heq (hcancel id hid g hg)
  waits := h.waits

theorem mapHandoffs {f : Handoff σ → Handoff σ} (hid : ∀ g, (f g).id = g.id)
    (hterm : ∀ g, (f g).term = g.term)
    (hcanceled : ∀ g ∈ n.handoffs, (f g).canceled = true → g.term < n.term) :
    ({ n with handoffs := n.handoffs.map f } : Node σ).Sound where
  self := h.self
  clustered := h.clustered
  placement := h.placement
  fresh := by
    simp only [forall_mem_map, hid]
    exact h.fresh
  uniqueID := by
    simp only [forall_mem_map, hid]
    intro g hg g' hg' heq
    rw [h.uniqueID g hg g' hg' heq]
  uniqueTerm := by
    simp only [forall_mem_map, hterm]
    intro g hg g' hg' heq
    rw [h.uniqueTerm g hg g' hg' heq]
  reached := by
    simp only [forall_mem_map, hterm]
    exact h.reached
  canceled := by
    simp only [forall_mem_map, hterm]
    exact hcanceled
  cancel := by
    simp only [forall_mem_map, hid, hterm]
    exact h.cancel
  waits := by
    simp only [forall_mem_map, hid, hterm]
    exact h.waits

theorem cancelOld {c : Option CancelFunc}
    (hold : ∀ g ∈ n.handoffs, c = some (.handoff g.id) → g.term < n.term) : (n.cancel c).Sound := by
  have hmap := h.mapHandoffs (f := (·.cancelBy c)) (fun _ => rfl) (fun _ => rfl) ?_
  · exact hmap.frame rfl rfl rfl rfl rfl rfl (ScopeGrows.refl _)
  · intro g hg hc
    simp only [Handoff.cancelBy, Bool.or_eq_true, decide_eq_true_eq] at hc
    rcases hc with hc | hc
    · exact h.canceled g hg hc
    · exact hold g hg hc

theorem consult (spec : SingletonSpec σ) : (n.consult spec).Sound :=
  h.frame rfl rfl rfl rfl rfl rfl (scopeGrows_consult n spec)

theorem startActor (spec : SingletonSpec σ) (initialState : σ) :
    (n.startActor spec initialState).Sound :=
  h.frame rfl rfl rfl rfl rfl rfl (ScopeGrows.refl _)

theorem abortActivation (hs : n.singleton = some s) (hlead : n.leads s.spec = false) :
    (n.abortActivation s).Sound := by
  have hplace := h.placement s hs
  have hcancel : (n.cancel s.cancel).Sound := by
    apply h.cancelOld
    intro g hg hc
    obtain ⟨e, he, hle, hself⟩ := h.reached g hg
    have hne : g.term ≠ e.term := by
      intro heq
      simp [leads, hplace, isLeader, he, hself heq, h.self] at hlead
    rw [term_of_scope he]
    omega
  refine hcancel.setSingleton hplace ?_
  intro id hid
  cases hid

theorem stopAndCleanup (hs : n.singleton = some s) (hruns : s.phase.runs = true) :
    (n.stopAndCleanup s).Sound := by
  have hcancel : (n.cancel s.cancel).Sound := by
    apply h.cancelOld
    intro g hg hc
    obtain ⟨hp, -⟩ := h.cancel s g.id hs hc g hg rfl
    simp [hp, runs] at hruns
  have hstate := hcancel.setSingleton (s := { s with phase := .idle, cancel := none })
    (h.placement s hs) (by intro id hid; cases hid)
  exact hstate.frame rfl rfl rfl rfl rfl rfl (ScopeGrows.refl _)

theorem loseLeadership (hs : n.singleton = some s) (t : ℕ) : (n.loseLeadership s t).Sound := by
  simp only [Node.loseLeadership, h.clustered, Bool.not_true, Bool.false_eq_true, if_false]
  exact {
    self := h.self
    clustered := rfl
    placement := by
      intro s' hs'
      cases hs'
      exact h.placement s hs
    fresh := by
      intro g hg
      have := h.fresh g hg
      simp only
      omega
    uniqueID := h.uniqueID
    uniqueTerm := h.uniqueTerm
    reached := h.reached
    canceled := h.canceled
    cancel := by
      intro s' id hs' hid
      cases hs'
      cases hid
    waits := by
      intro t id hid
      obtain ⟨hlt, hterm⟩ := h.waits t id hid
      exact ⟨by simp only; omega, hterm⟩ }

theorem beginHandoff (hplace : s.spec.placement = none)
    (hlead : ∃ e, n.scope = some e ∧ e.leader = n.self.id)
    (hterm : ∀ g ∈ n.handoffs, g.term ≠ n.term) : (n.beginHandoff s n.term).Sound := by
  obtain ⟨e, he, hleader⟩ := hlead
  have hmem : ∀ {g : Handoff σ}, g ∈ (n.beginHandoff s n.term).handoffs →
      g ∈ n.handoffs ∨ g = ⟨n.nextID, n.findPrevLeader, n.term, .spawned, false⟩ := by
    intro g hg
    simpa [Node.beginHandoff] using hg
  refine ⟨h.self, h.clustered, ?_, ?_, ?_, ?_, ?_, ?_, ?_, ?_⟩
  · intro s' hs'
    cases hs'
    exact hplace
  · intro g hg
    rcases hmem hg with hg | rfl
    · exact lt_succ_of_lt (h.fresh g hg)
    · exact lt_succ_self _
  · intro g hg g' hg' heq
    rcases hmem hg with hg | rfl <;> rcases hmem hg' with hg' | rfl
    · exact h.uniqueID g hg g' hg' heq
    · exact absurd heq (Nat.ne_of_lt (h.fresh g hg))
    · exact absurd heq.symm (Nat.ne_of_lt (h.fresh g' hg'))
    · rfl
  · intro g hg g' hg' heq
    rcases hmem hg with hg | rfl <;> rcases hmem hg' with hg' | rfl
    · exact h.uniqueTerm g hg g' hg' heq
    · exact absurd heq (hterm g hg)
    · exact absurd heq.symm (hterm g' hg')
    · rfl
  · intro g hg
    rcases hmem hg with hg | rfl
    · exact h.reached g hg
    · exact ⟨e, he, le_of_eq (term_of_scope he), fun _ => hleader⟩
  · intro g hg hc
    rcases hmem hg with hg | rfl
    · exact h.canceled g hg hc
    · cases hc
  · intro s' id hs' hid g hg heq
    cases hs'
    cases hid
    rcases hmem hg with hg | rfl
    · exact absurd heq (Nat.ne_of_lt (h.fresh g hg))
    · exact ⟨rfl, rfl⟩
  · intro t id hid
    obtain ⟨hlt, ht⟩ := h.waits t id hid
    refine ⟨lt_succ_of_lt hlt, ?_⟩
    intro g hg heq
    rcases hmem hg with hg | rfl
    · exact ht g hg heq
    · exact absurd heq (ne_of_gt hlt)

end Sound

theorem leader_of_leads {spec : SingletonSpec σ} (hplace : spec.placement = none)
    (h : n.leads spec = true) : ∃ e, n.scope = some e ∧ e.leader = n.self.id := by
  simp only [leads, hplace, isLeader] at h
  cases hscope : n.scope with
  | none => simp [hscope] at h
  | some e =>
    simp only [hscope, Bool.and_eq_true, decide_eq_true_eq] at h
    exact ⟨e, rfl, h.2⟩

/-- A sound node that leads, and a singleton that does not run and has no goroutine's cancel
function. -/
structure Gains (m : Node σ) (s : SingletonState σ) : Prop where
  sound : m.Sound
  placement : s.spec.placement = none
  runs : s.phase.runs = false
  leader : ∃ e, m.scope = some e ∧ e.leader = m.self.id
  cancel : ∀ id, s.cancel = some (.handoff id) → ∀ h ∈ m.handoffs, h.id ≠ id

variable {s : SingletonState σ}

theorem Sound.cancel_of_idle (h : n.Sound) (hs : n.singleton = some s) (hidle : s.phase = .idle)
    (id : ℕ) (hid : s.cancel = some (.handoff id)) : ∀ g ∈ n.handoffs, g.id ≠ id := by
  intro g hg heq
  obtain ⟨hp, -⟩ := h.cancel s id hs hid g hg heq
  rw [hidle] at hp
  cases hp

theorem Sound.gains (h : n.Sound) (hg : n.gaining = some (m, s)) : m.Gains s := by
  obtain ⟨s0, hs0, hlead, ⟨hp, rfl, rfl⟩ | ⟨hp, hterm, rfl, rfl⟩⟩ := gaining_eq_some hg
  · have hplace := h.placement s hs0
    exact ⟨h.consult s.spec, hplace, by simp [hp, runs],
      leader_of_leads hplace hlead, h.cancel_of_idle hs0 hp⟩
  · have hplace := h.placement s0 hs0
    have hc := h.consult s0.spec
    refine ⟨hc.cancelOld ?_, hplace, by simp [hp, runs],
      leader_of_leads hplace hlead, by intro id hid; cases hid⟩
    intro g hmem hcancel
    obtain ⟨-, hgt⟩ := hc.cancel s0 g.id hs0 hcancel g hmem rfl
    obtain ⟨e, he, hle, -⟩ := hc.reached g hmem
    rw [term_of_scope he] at hterm ⊢
    omega

theorem Sound.gains_rebalance (h : n.Sound) (hg : n.gainingBy .rebalance = some (m, s)) :
    m.Gains s := by
  obtain ⟨-, -, s0, hs0, hp, hlead, rfl, rfl⟩ := rebalance_of_gaining hg
  have hplace := h.placement s0 hs0
  exact ⟨h.consult s0.spec, hplace, by simp [hp, runs],
    leader_of_leads hplace hlead, fun id hid => h.cancel_of_idle hs0 hp id hid⟩

def freshTerm (m : Node σ) (s : SingletonState σ) : Prop :=
  m.startsNow s = false → s.rebalancing = true → ∀ h ∈ m.handoffs, h.term ≠ m.term

theorem Gains.sound_gainLeadership (h : m.Gains s) (hfresh : m.freshTerm s) :
    (m.gainLeadership s m.term).Sound := by
  rcases gainLeadership_cases m s m.term with
    ⟨-, s', hspec, hcancel, hact⟩ | ⟨-, -, hstay⟩ | ⟨hnow, hr, hbegin⟩
  · rw [hact]
    refine (h.sound.startActor _ _).setSingleton (hspec ▸ h.placement) ?_
    exact hcancel ▸ h.cancel
  · rw [hstay]
    exact h.sound.setSingleton h.placement h.cancel
  · rw [hbegin]
    exact h.sound.beginHandoff h.placement h.leader (hfresh hnow hr)

variable (h : n.Sound)
include h

theorem Sound.reconcile (hfresh : ∀ m s, n.gaining = some (m, s) → m.freshTerm s) :
    n.reconcile.Sound := by
  have hrec := n.reconciles
  generalize n.reconcile = n' at hrec ⊢
  cases hrec with
  | absent => exact h
  | asks => exact h.consult _
  | aborts hs hlead => exact (h.consult _).abortActivation hs hlead
  | gains hg => exact (h.gains hg).sound_gainLeadership (hfresh _ _ hg)

theorem Sound.rebalance (hfresh : ∀ m s, n.gainingBy .rebalance = some (m, s) → m.freshTerm s) :
    n.rebalance.Sound := by
  have hreb := n.rebalances
  generalize n.rebalance = n' at hreb ⊢
  cases hreb with
  | absent => exact h
  | asks => exact h.consult _
  | loses hs => exact (h.consult _).loseLeadership hs _
  | gains _ _ _ hg => exact (h.gains_rebalance hg).sound_gainLeadership (hfresh _ _ hg)

variable {a : NodeAction σ}

theorem Sound.beforeReconcile (hplace : ∀ spec, a = .register spec → spec.placement = none)
    (hm : n.beforeReconcile a = some m) : m.Sound := by
  cases prepares_of_beforeReconcile hm with
  | finishStart =>
    refine h.frame rfl rfl rfl rfl rfl rfl ?_
    simp only [endDiscovery]
    split_ifs
    · exact scopeGrows_watch n
    · exact ScopeGrows.refl _
  | @register spec =>
    have hnew := h.setSingleton (s := SingletonState.new spec) (hplace spec rfl)
      (by intro id hid; cases hid)
    exact hnew.frame rfl rfl rfl rfl rfl rfl (scopeGrows_watch _)
  | memberEvent => exact h.frame rfl rfl rfl rfl rfl rfl (scopeGrows_setLeader n.scope _)
  | @watchEvent w => exact h.frame rfl rfl rfl rfl rfl rfl (scopeGrows_setWatcherEvents n w _)
  | reconcile => exact h

theorem Sound.gains_step (hplace : ∀ spec, a = .register spec → spec.placement = none)
    (hg : n.gainingBy a = some (m, s)) : m.Gains s ∧ m.self = n.self := by
  cases a with
  | rebalance =>
    obtain ⟨-, -, s0, -, -, -, hm, -⟩ := rebalance_of_gaining hg
    refine ⟨h.gains_rebalance hg, ?_⟩
    rw [hm]
    rfl
  | _ =>
    simp only [gainingBy, Option.bind_eq_some_iff] at hg
    obtain ⟨m0, hm0, hg0⟩ := hg
    exact ⟨(h.beforeReconcile hplace hm0).gains hg0,
      (self_gaining hg0).trans (self_beforeReconcile hm0)⟩

theorem Sound.receive (env : Envelope σ) (captured : Option σ) :
    (n.receive env captured).1.Sound := by
  have hr := n.receives env captured
  generalize (n.receive env captured).1 = m at hr ⊢
  cases hr with
  | ignores => exact h
  | discovers => exact h.frame rfl rfl rfl rfl rfl rfl (ScopeGrows.refl _)
  | stops hs hruns => exact h.stopAndCleanup hs hruns
  | answers hnote =>
    refine h.mapHandoffs (fun g => (hnote g).1) (fun g => (hnote g).2.1) fun g hg hc => ?_
    rw [(hnote g).2.2] at hc
    exact h.canceled g hg hc

theorem Sound.handoffSend {g : Handoff σ} (hg : g ∈ n.handoffs) (ok : Bool) :
    (n.handoffSend g ok).1.Sound := by
  have hwait : ({ n with handoffWaits := n.handoffWaits.insert g.term g.id } : Node σ).Sound := by
    refine ⟨h.self, h.clustered, h.placement, h.fresh, h.uniqueID, h.uniqueTerm, h.reached,
      h.canceled, h.cancel, ?_⟩
    intro t id hid
    simp only [lookup_insert_ite] at hid
    split_ifs at hid with ht
    · cases hid
      refine ⟨h.fresh g hg, ?_⟩
      intro g' hg' heq
      rw [ht, h.uniqueID g' hg' g hg heq]
    · exact h.waits t id hid
  refine hwait.mapHandoffs ?_ ?_ ?_
  · intro g'
    split_ifs <;> rfl
  · intro g'
    split_ifs <;> rfl
  · intro g' hg' hc
    apply h.canceled g' hg'
    revert hc
    split_ifs <;> exact id

theorem Sound.remove (g : Handoff σ) : ({ n with
      handoffWaits := n.handoffWaits.erase g.term
      handoffs := n.handoffs.filter fun g' => g'.id ≠ g.id } : Node σ).Sound := by
  have hmem : ∀ {g' : Handoff σ}, g' ∈ n.handoffs.filter (fun g' => g'.id ≠ g.id) →
      g' ∈ n.handoffs := mem_of_mem_filter
  refine ⟨h.self, h.clustered, h.placement, ?_, ?_, ?_, ?_, ?_, ?_, ?_⟩
  · exact fun g' hg' => h.fresh g' (hmem hg')
  · exact fun g1 h1 g2 h2 => h.uniqueID g1 (hmem h1) g2 (hmem h2)
  · exact fun g1 h1 g2 h2 => h.uniqueTerm g1 (hmem h1) g2 (hmem h2)
  · exact fun g' hg' => h.reached g' (hmem hg')
  · exact fun g' hg' => h.canceled g' (hmem hg')
  · exact fun s id hs hid g' hg' => h.cancel s id hs hid g' (hmem hg')
  · intro t id hid
    simp only [lookup_erase_ite] at hid
    split_ifs at hid
    obtain ⟨hlt, hterm⟩ := h.waits t id hid
    exact ⟨hlt, fun g' hg' => hterm g' (hmem hg')⟩

theorem Sound.handoffEnd {g : Handoff σ} (hg : g ∈ n.handoffs) (result : HandoffResult σ) :
    (n.handoffEnd g result).Sound := by
  have hrem := h.remove g
  cases result with
  | returns => exact hrem
  | completes state =>
    -- the goroutine the cancel function belongs to is the one that ends
    have hfree : ∀ s, n.singleton = some s → s.term = g.term → ∀ id, s.cancel = some (.handoff id) →
          ∀ g' ∈ n.handoffs.filter (fun g' => g'.id ≠ g.id), g'.id ≠ id := by
      intro s hs hterm id hid g' hg' heq
      obtain ⟨hmem, hne⟩ := mem_filter.mp hg'
      obtain ⟨-, ht⟩ := h.cancel s id hs hid g' hmem heq
      simp [h.uniqueTerm g' hmem g hg (ht.trans hterm)] at hne
    have hc := n.completes g.term state
    simp only [Node.handoffEnd, finish]
    generalize n.completeActivation g.term state = m at hc ⊢
    cases hc with
    | stale => exact hrem
    | @outrun s hs _ hterm =>
      have hplace : s.spec.placement = none := h.placement s hs
      exact hrem.setSingleton hplace (hfree s hs hterm)
    | @starts s hs _ hterm =>
      have hplace : s.spec.placement = none := h.placement s hs
      exact (hrem.startActor _ _).setSingleton hplace (hfree s hs hterm)

theorem Sound.deactivationEnd (id : ℕ) : (n.deactivationEnd id).Sound := by
  have hframe : ({ n with deactivations := n.deactivations.filter fun d => d.id ≠ id } :
      Node σ).Sound := h.frame rfl rfl rfl rfl rfl rfl (ScopeGrows.refl _)
  rcases deactivationEnd_cases n id with hend | ⟨s, hs, hp, hend⟩
  · rw [hend]
    exact hframe
  · rw [hend]
    exact hframe.stopAndCleanup hs (by simp [hp, runs])

/-- **A node stays sound**, if its hand-offs begin in terms of their own. -/
theorem sound_step {n' : Node σ} {es : List (Envelope σ)}
    (hplace : ∀ spec, a = .register spec → spec.placement = none)
    (hfresh : ∀ m s, n.gainingBy a = some (m, s) → m.freshTerm s)
    (hstep : n.step a = some (n', es)) : n'.Sound := by
  cases moves_of_step hstep with
  | @reconciles _ m hm =>
    have hrec : m.reconcile.Sound := by
      refine (h.beforeReconcile hplace hm).reconcile ?_
      intro m' s hg
      exact hfresh m' s (gainingBy_of_gaining hm hg)
    cases a with
    | memberEvent ev now => exact hrec.frame rfl rfl rfl rfl rfl rfl (ScopeGrows.refl _)
    | _ => exact hrec
  | starts | stops | replicates => exact h.frame rfl rfl rfl rfl rfl rfl (ScopeGrows.refl _)
  | @registers spec =>
    exact h.setSingleton (s := SingletonState.new spec) (hplace spec rfl)
      (by intro id hid; cases hid)
  | rebalances => exact h.rebalance hfresh
  | receives => exact h.receive _ _
  | sends hfind => exact h.handoffSend (mem_of_find?_eq_some hfind) _
  | ends hfind => exact h.handoffEnd (mem_of_find?_eq_some hfind) _
  | wakes => exact h.deactivationEnd _

end Node
end Westcoast.Cluster
