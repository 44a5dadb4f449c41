import Westcoast.Cluster.Handoff
import Westcoast.Cluster.Resolvable

/-!
# Attempts to take a singleton over

`completeActivation` knows an attempt by the term in which it began. With a placement two attempts
may begin in one term, and it does not ask who leads now (`canceled_attempt_activates`,
`activation_of_leader`). The peers, the election and the manager are told of a membership event one
after the other, with hand-off goroutines in between, and also while the manager, which has its own
lock, looks at the leader and then at the term; the tags of the node itself change without notice.
-/
namespace Westcoast.Cluster

open Lib List Option Node

variable {σ : Type}

/-- What changes without the lock of the manager. -/
inductive ViewChange
  /-- `UpdateTags` and `RemoveTag`, which tell nobody on this node. -/
  | setTags (tags : List (String × String))
  /-- `handleMemberEvent` or `UpdatePeerMeta` before the callback. -/
  | peers (ev : MemberEvent)
  /-- The callback tells the election. -/
  | election (ev : MemberEvent)

inductive AttemptAction (σ : Type)
  | node (a : NodeAction σ)
  | view (c : ViewChange)
  /-- `OnMemberEvent` before its `reconcile`. -/
  | noteFailed (ev : MemberEvent) (now : ℕ)
  /-- What else precedes a `reconcile`. -/
  | prepare (a : NodeAction σ)
  /-- A pass of `reconcile` or of `Rebalance` during which the view changes. -/
  | pass (rebalance : Bool) (cs : List ViewChange)

def AttemptAction.endsHandoff : AttemptAction σ → Bool
  | .node (.handoffEnd _ _) => true
  | _ => false

/-- A node, and whether its peers or its tags have changed since the last pass of `reconcile`. -/
structure Attempts (σ : Type) where
  node : Node σ
  unseen : Bool

/-- `completeActivation` starts the actor: whether its attempt was cancelled, and whether the node
leads. -/
structure Activation where
  canceled : Bool
  leads : Bool
  deriving DecidableEq

namespace Node

def activations (n : Node σ) : NodeAction σ → List Activation
  | .handoffEnd id ctxDone =>
    match n.handoffs.find? (·.id = id) with
    | none => []
    | some h =>
      match h.result ctxDone with
      | some (.completes _) =>
        (n.completing h.term).toList.map fun spec => ⟨h.canceled, (n.consult spec).leads spec⟩
      | _ => []
  | _ => []

def byElection (n : Node σ) (spec : SingletonSpec σ) : Bool :=
  spec.placement.isNone || !n.clustered

/-- The node leads the term in which an attempt begins, if that is what counts, and no cancelled
attempt is under way in it. -/
def termClear (m : Node σ) (s : SingletonState σ) : Bool :=
  m.startsNow s || !s.rebalancing ||
    (!m.byElection s.spec || m.isLeader) && m.handoffs.all fun h => h.term ≠ m.term || !h.canceled

def change (n : Node σ) : ViewChange → Node σ
  | .setTags tags => { n with self := { n.self with tags := tags } }
  | .peers ev => n.updatePeers ev
  | .election ev => n.electionOnMembershipChange ev

/-- `reconcile`, or `Rebalance`, with changes between its looks at the leader and at the term. -/
def passAcross (rebalance : Bool) (cs : List ViewChange) (n : Node σ) : Node σ :=
  match n.singleton with
  | none => n
  | some s =>
    let leads := (n.consult s.spec).leads s.spec
    let n := cs.foldl change (n.consult s.spec)
    match s.phase, rebalance with
    | .deactivating, _ | .active, false | .activating, true => n
    | .active, true => if !leads then n.loseLeadership s n.term else n
    | .activating, false =>
      if !leads then n.abortActivation s
      else if s.term ≠ n.term then
        (n.cancel s.cancel).gainLeadership { s with cancel := none } n.term
      else n
    | .idle, _ =>
      if leads then n.gainLeadership { s with rebalancing := s.rebalancing || rebalance } n.term
      else n

/-- The node and the singleton state that the pass hands to `gainLeadership`. -/
def gainingAcross (rebalance : Bool) (cs : List ViewChange) (n : Node σ) :
    Option (Node σ × SingletonState σ) :=
  match n.singleton with
  | none => none
  | some s =>
    let leads := (n.consult s.spec).leads s.spec
    let n := cs.foldl change (n.consult s.spec)
    match s.phase, rebalance with
    | .activating, false =>
      if leads ∧ s.term ≠ n.term then some (n.cancel s.cancel, { s with cancel := none }) else none
    | .idle, _ =>
      if leads then some (n, { s with rebalancing := s.rebalancing || rebalance }) else none
    | _, _ => none

/-- With nothing in between, these are `reconcile` and `Rebalance`. -/
theorem passAcross_nil (n : Node σ) :
    n.passAcross false [] = n.reconcile ∧ n.passAcross true [] = n.rebalance := by
  simp only [passAcross, reconcile, rebalance]
  rcases n.singleton with _ | ⟨spec, phase, term, cancel, rebalancing⟩
  · exact ⟨rfl, rfl⟩
  · cases phase with
    | idle => simp
    | _ => exact ⟨rfl, rfl⟩

@[inherit_doc passAcross_nil]
theorem gainingAcross_nil (n : Node σ) : n.gainingAcross false [] = n.gaining ∧
    n.gainingAcross true [] = n.gainingBy .rebalance := by
  simp only [gainingAcross, gaining, gainingBy]
  rcases n.singleton with _ | ⟨spec, phase, term, cancel, rebalancing⟩
  · exact ⟨rfl, rfl⟩
  · cases phase with
    | idle => simp
    | _ => exact ⟨rfl, rfl⟩

end Node

namespace Attempts

def new (name : String) (self : NodeMeta) (clustered : Bool) : Attempts σ :=
  ⟨{ Node.new name self with clustered := clustered }, false⟩

def step (x : Attempts σ) : AttemptAction σ → Option (Attempts σ × List Activation)
  | .node a =>
    (x.node.step a).map fun r =>
      (⟨r.1, x.unseen && (x.node.beforeReconcile a).isNone⟩, x.node.activations a)
  | .view (.election ev) => some (⟨x.node.change (.election ev), x.unseen⟩, [])
  | .view c => some (⟨x.node.change c, true⟩, [])
  | .noteFailed ev now => some (⟨x.node.noteFailed ev now, x.unseen⟩, [])
  | .prepare a => (x.node.beforeReconcile a).map fun n => (⟨n, true⟩, [])
  | .pass rebalance cs => some (⟨x.node.passAcross rebalance cs, true⟩, [])

/-- The node and the singleton state that the step passes to `gainLeadership`. -/
def gainingBy (x : Attempts σ) : AttemptAction σ → Option (Node σ × SingletonState σ)
  | .node a => x.node.gainingBy a
  | .pass rebalance cs => x.node.gainingAcross rebalance cs
  | _ => none

/-- What `reconcile` has not seen does not matter to the singleton. -/
def informed (x : Attempts σ) : Bool :=
  !x.unseen || x.node.singleton.all fun s => x.node.byElection s.spec

def Orderly (x : Attempts σ) (a : AttemptAction σ) : Prop :=
  (∀ g ∈ x.gainingBy a, g.1.termClear g.2 = true) ∧ (a.endsHandoff = true → x.informed = true)

instance (x : Attempts σ) (a : AttemptAction σ) : Decidable (x.Orderly a) :=
  inferInstanceAs (Decidable (_ ∧ _))

end Attempts

namespace Node

/-- An activation under way in the current term is not cancelled, and this node leads, if that is
what counts. -/
def Current (n : Node σ) : Prop :=
  ∀ s, n.singleton = some s → s.phase = .activating → s.term ≤ n.term ∧
    (s.term = n.term → (∀ h ∈ n.handoffs, h.term = s.term → h.canceled = false) ∧
      (n.byElection s.spec = true → n.isLeader = true))

/-- With a placement, the node leads what it is about to activate. -/
def Placed (n : Node σ) : Prop :=
  ∀ s, n.singleton = some s → s.phase = .activating → n.byElection s.spec = false →
    n.leads s.spec = true

variable {n n' m : Node σ}

theorem Current.of_phase (h : n.phase ≠ .activating) : n.Current :=
  fun _ hs hp => absurd ((phase_of_singleton hs).trans hp) h

theorem Placed.of_phase (h : n.phase ≠ .activating) : n.Placed :=
  fun _ hs hp => absurd ((phase_of_singleton hs).trans hp) h

theorem ScopeGrows.term_le (h : ScopeGrows n.scope n'.scope) : n.term ≤ n'.term := by
  cases he : n.scope with
  | none => simp [term, he]
  | some e =>
    obtain ⟨e', he', hle, -⟩ := h e he
    simpa [term, he, he'] using hle

theorem ScopeGrows.isLeader (h : ScopeGrows n.scope n'.scope) (hself : n'.self.id = n.self.id)
    (hterm : n'.term = n.term) (hlead : n.isLeader = true) : n'.isLeader = true := by
  cases he : n.scope with
  | none => simp [Node.isLeader, he] at hlead
  | some e =>
    obtain ⟨e', he', -, hleader⟩ := h e he
    simp only [term, he, he'] at hterm
    simpa [Node.isLeader, he, he', hleader hterm, hself] using hlead

theorem Current.frame (h : n.Current) (hself : n'.self.id = n.self.id)
    (hcl : n'.clustered = n.clustered) (hs : n'.singleton = n.singleton)
    (hh : ∀ g' ∈ n'.handoffs, ∃ g ∈ n.handoffs, g'.term = g.term ∧ g'.canceled = g.canceled)
    (hgrow : ScopeGrows n.scope n'.scope) : n'.Current := by
  intro s hsing hp
  obtain ⟨hle, hcur⟩ := h s (hs ▸ hsing) hp
  have hterm := hgrow.term_le
  refine ⟨Nat.le_trans hle hterm, fun heq => ?_⟩
  obtain ⟨hattempts, hlead⟩ := hcur (by omega)
  refine ⟨fun g' hg' ht => ?_, fun hby => ?_⟩
  · obtain ⟨g, hg, hgt, hgc⟩ := hh g' hg'
    rw [hgc]
    exact hattempts g hg (hgt ▸ ht)
  · refine hgrow.isLeader hself (by omega) (hlead ?_)
    simpa only [byElection, hcl] using hby

theorem same_handoffs (h : n'.handoffs = n.handoffs) :
    ∀ g' ∈ n'.handoffs, ∃ g ∈ n.handoffs, g'.term = g.term ∧ g'.canceled = g.canceled :=
  fun g' hg' => ⟨g', h ▸ hg', rfl, rfl⟩

variable {spec : SingletonSpec σ}

theorem leads_of_not_byElection (h : n.byElection spec = false) :
    ∃ matcher, spec.placement = some matcher ∧ n.leads spec = n.leadsAmong matcher := by
  obtain ⟨hplace, hcl⟩ : spec.placement.isNone = false ∧ n.clustered = true := by
    simpa [byElection] using h
  obtain ⟨matcher, hmatcher⟩ := isSome_iff_exists.mp (isNone_eq_false_iff.mp hplace)
  exact ⟨matcher, hmatcher, by simp [leads, hmatcher, hcl]⟩

theorem leads_congr (h : n.byElection spec = false) (hself : n'.self = n.self)
    (hname : n'.name = n.name) (hpeers : n'.peers = n.peers) (hcl : n'.clustered = n.clustered) :
    n'.leads spec = n.leads spec := by
  obtain ⟨matcher, hmatcher, hleads⟩ := leads_of_not_byElection h
  have h' : n'.byElection spec = false := by simpa only [byElection, hcl] using h
  obtain ⟨matcher', hmatcher', hleads'⟩ := leads_of_not_byElection h'
  rw [hmatcher] at hmatcher'
  cases hmatcher'
  rw [hleads, hleads', leadsAmong, leadsAmong, scopeName, scopeName, hself, hname, hpeers]

theorem Placed.frame (h : n.Placed) (hself : n'.self = n.self) (hname : n'.name = n.name)
    (hpeers : n'.peers = n.peers) (hcl : n'.clustered = n.clustered)
    (hs : n'.singleton = n.singleton) : n'.Placed := by
  intro s hsing hp hby
  have hby' : n.byElection s.spec = false := by simpa only [byElection, hcl] using hby
  rw [leads_congr hby' hself hname hpeers hcl]
  exact h s (hs ▸ hsing) hp hby'

/-! ### Attempts begin and end -/

variable {s : SingletonState σ}

theorem current_beginHandoff (hlead : m.byElection s.spec = true → m.isLeader = true)
    (hclear : ∀ h ∈ m.handoffs, h.term = m.term → h.canceled = false) :
    (m.beginHandoff s m.term).Current := by
  intro s' hs' _
  cases hs'
  refine ⟨le_refl _, fun _ => ⟨fun h hmem ht => ?_, hlead⟩⟩
  rcases mem_append.mp hmem with hold | hnew
  · exact hclear h hold ht
  · rw [mem_singleton.mp hnew]

theorem placed_of_leads (hlead : m.leads s.spec = true) (hself : n.self = m.self)
    (hname : n.name = m.name) (hpeers : n.peers = m.peers) (hcl : n.clustered = m.clustered)
    (hspec : ∀ s', n.singleton = some s' → s'.spec = s.spec) : n.Placed := by
  intro s' hs' _ hby
  have hby' : m.byElection s.spec = false := by
    simpa only [byElection, hcl, hspec s' hs'] using hby
  rw [hspec s' hs', leads_congr hby' hself hname hpeers hcl]
  exact hlead

theorem termClear_iff (h : m.termClear s = true) (hnow : m.startsNow s = false)
    (hr : s.rebalancing = true) : (m.byElection s.spec = true → m.isLeader = true) ∧
      ∀ h ∈ m.handoffs, h.term = m.term → h.canceled = false := by
  simp only [termClear, hnow, hr, Bool.not_true, Bool.or_self, Bool.false_or, Bool.and_eq_true,
    List.all_eq_true] at h
  exact ⟨fun hby => by simpa [hby] using h.1, fun g hg ht => by simpa [ht] using h.2 g hg⟩

theorem current_gainLeadership (hstay : s.phase = .activating → s.term < m.term)
    (hclear : m.termClear s = true) : (m.gainLeadership s m.term).Current := by
  rcases gainLeadership_cases m s m.term with
    ⟨-, s', hspec, -, hact⟩ | ⟨-, -, hsame⟩ | ⟨hnow, hr, hbegin⟩
  · rw [hact]
    exact .of_phase (by simp [activate, phase])
  · rw [hsame]
    intro s' hs' hp
    cases hs'
    have hlt : s.term < ({ m with singleton := some s } : Node σ).term := hstay hp
    exact ⟨Nat.le_of_lt hlt, fun heq => absurd heq (Nat.ne_of_lt hlt)⟩
  · rw [hbegin]
    obtain ⟨hlead, hattempts⟩ := termClear_iff hclear hnow hr
    exact current_beginHandoff hlead hattempts

theorem placed_gainLeadership (hlead : m.leads s.spec = true) :
    (m.gainLeadership s m.term).Placed := by
  rcases gainLeadership_cases m s m.term with
    ⟨-, s', hspec, -, hact⟩ | ⟨-, -, hsame⟩ | ⟨-, -, hbegin⟩
  · rw [hact]
    exact .of_phase (by simp [activate, phase])
  · rw [hsame]
    exact placed_of_leads hlead rfl rfl rfl rfl fun s' hs' => by cases hs'; rfl
  · rw [hbegin]
    exact placed_of_leads hlead rfl rfl rfl rfl fun s' hs' => by cases hs'; rfl

theorem current_consult (h : n.Current) (spec : SingletonSpec σ) : (n.consult spec).Current :=
  h.frame rfl rfl rfl (same_handoffs rfl) (scopeGrows_consult n spec)

theorem current_change (h : n.Current) (c : ViewChange) : (n.change c).Current := by
  cases c with
  | setTags tags | peers ev =>
    exact h.frame rfl rfl rfl (same_handoffs rfl) (ScopeGrows.refl _)
  | election ev => exact h.frame rfl rfl rfl (same_handoffs rfl) (scopeGrows_setLeader _ _)

variable {cs : List ViewChange}

theorem singleton_changes (n : Node σ) (cs : List ViewChange) :
    (cs.foldl change n).singleton = n.singleton :=
  foldlRecOn (motive := fun m : Node σ => m.singleton = n.singleton) cs change rfl
    fun _ h c _ => by cases c <;> exact h

theorem current_passAcross (h : n.Current) {rebalance : Bool}
    (hclear : ∀ m s, n.gainingAcross rebalance cs = some (m, s) → m.termClear s = true) :
    (n.passAcross rebalance cs).Current := by
  simp only [gainingAcross] at hclear
  simp only [passAcross]
  cases hs : n.singleton with
  | none => exact h
  | some s =>
    have hcur : (cs.foldl change (n.consult s.spec)).Current :=
      foldlRecOn cs change (current_consult h s.spec) fun _ h c _ => current_change h c
    have hsing := (singleton_changes (n.consult s.spec) cs).trans hs
    simp only [hs] at hclear ⊢
    generalize cs.foldl change (n.consult s.spec) = m at hclear hcur hsing ⊢
    split
    · exact hcur
    · exact hcur
    · exact hcur
    · split_ifs
      · unfold loseLeadership
        split_ifs
        · exact .of_phase (by simp [stopAndCleanup, phase])
        · exact .of_phase (by simp [phase])
      · exact hcur
    · next hp =>
      split_ifs with hlead hterm
      · exact .of_phase (by simp [abortActivation, phase])
      · refine current_gainLeadership (m := m.cancel s.cancel) (fun _ => ?_) (hclear _ _ ?_)
        · exact Nat.lt_of_le_of_ne (hcur s hsing hp).1 hterm
        · rw [hp]
          exact if_pos ⟨by simpa using hlead, hterm⟩
      · exact hcur
    · next hp =>
      split_ifs with hlead
      · refine current_gainLeadership (by simp [hp]) (hclear _ _ ?_)
        rw [hp]
        exact if_pos hlead
      · exact hcur

theorem placed_reconcile (n : Node σ) : n.reconcile.Placed := by
  have hrec := n.reconciles
  generalize n.reconcile = n' at hrec ⊢
  cases hrec with
  | absent hnone => exact .of_phase (by simp [phase, hnone])
  | @asks s hs hlead =>
    by_cases hp : s.phase = .activating
    · refine placed_of_leads (hlead hp) rfl rfl rfl rfl fun s' hs' => ?_
      rw [show n.singleton = some s' from hs'] at hs
      cases hs
      rfl
    · exact .of_phase fun hphase => hp ((phase_of_singleton hs).symm.trans hphase)
  | aborts => exact .of_phase (by simp [abortActivation, phase])
  | gains hg =>
    obtain ⟨s0, -, hlead, ⟨-, rfl, rfl⟩ | ⟨-, -, rfl, rfl⟩⟩ := gaining_eq_some hg
    · exact placed_gainLeadership hlead
    · exact placed_gainLeadership hlead

theorem Placed.rebalance (h : n.Placed) : n.rebalance.Placed := by
  have hreb := n.rebalances
  generalize n.rebalance = n' at hreb ⊢
  cases hreb with
  | absent => exact h
  | asks => exact h.frame rfl rfl rfl rfl rfl
  | loses =>
    rw [loseLeadership]
    split_ifs
    · exact .of_phase (by simp [stopAndCleanup, phase])
    · exact .of_phase (by simp [phase])
  | @gains s _ hp hlead hg =>
    exact placed_gainLeadership (s := { s with rebalancing := true }) hlead

variable {a : NodeAction σ}

theorem current_beforeReconcile (h : n.Current) (hm : n.beforeReconcile a = some m) :
    m.Current := by
  cases prepares_of_beforeReconcile hm with
  | finishStart =>
    refine h.frame rfl rfl rfl (same_handoffs rfl) ?_
    simp only [endDiscovery]
    split_ifs
    · exact scopeGrows_watch n
    · exact ScopeGrows.refl _
  | register => exact .of_phase (by simp [watch, ensureScope, phase, SingletonState.new])
  | memberEvent => exact h.frame rfl rfl rfl (same_handoffs rfl) (scopeGrows_setLeader n.scope _)
  | @watchEvent w =>
    exact h.frame rfl rfl rfl (same_handoffs rfl) (scopeGrows_setWatcherEvents n w _)
  | reconcile => exact h

/-- A step that keeps the membership and the singleton's own state, or leaves it not activating. -/
structure Neutral (n n' : Node σ) : Prop where
  current : n.Current → n'.Current
  placed : n.Placed → n'.Placed

namespace Neutral

theorem of_phase {n n' : Node σ} (h : n'.phase ≠ .activating) : n.Neutral n' :=
  ⟨fun _ => .of_phase h, fun _ => .of_phase h⟩

theorem frame {n n' : Node σ} (hself : n'.self = n.self) (hname : n'.name = n.name)
    (hpeers : n'.peers = n.peers) (hcl : n'.clustered = n.clustered)
    (hs : n'.singleton = n.singleton) (hscope : n'.scope = n.scope)
    (hh : ∀ g' ∈ n'.handoffs, ∃ g ∈ n.handoffs, g'.term = g.term ∧ g'.canceled = g.canceled) :
    n.Neutral n' :=
  ⟨fun h => h.frame (congrArg NodeMeta.id hself) hcl hs hh (hscope ▸ ScopeGrows.refl _),
    fun h => h.frame hself hname hpeers hcl hs⟩

theorem stopAndCleanup (n n' : Node σ) (s : SingletonState σ) : n.Neutral (n'.stopAndCleanup s) :=
  .of_phase (by simp [Node.stopAndCleanup, phase])

theorem receive (n : Node σ) (env : Envelope σ) (captured : Option σ) :
    n.Neutral (n.receive env captured).1 := by
  have hr := n.receives env captured
  generalize (n.receive env captured).1 = m at hr ⊢
  cases hr with
  | ignores | discovers => exact .frame rfl rfl rfl rfl rfl rfl (same_handoffs rfl)
  | stops => exact .stopAndCleanup _ _ _
  | answers hnote =>
    refine .frame rfl rfl rfl rfl rfl rfl fun g' hg' => ?_
    obtain ⟨g, hg, rfl⟩ := mem_map.mp hg'
    exact ⟨g, hg, (hnote g).2⟩

theorem handoffSend (n : Node σ) (h : Handoff σ) (ok : Bool) :
    n.Neutral (n.handoffSend h ok).1 := by
  refine .frame rfl rfl rfl rfl rfl rfl fun g' hg' => ?_
  obtain ⟨g, hg, rfl⟩ := mem_map.mp hg'
  refine ⟨g, hg, ?_⟩
  split_ifs <;> exact ⟨rfl, rfl⟩

theorem handoffEnd (n : Node σ) (h : Handoff σ) (result : HandoffResult σ) :
    n.Neutral (n.handoffEnd h result) := by
  have hrest : ∀ g' ∈ n.handoffs.filter (fun g => g.id ≠ h.id), ∃ g ∈ n.handoffs,
      g'.term = g.term ∧ g'.canceled = g.canceled :=
    fun g' hg' => ⟨g', mem_of_mem_filter hg', rfl, rfl⟩
  cases result with
  | returns => exact .frame rfl rfl rfl rfl rfl rfl hrest
  | completes state =>
    have hc := n.completes h.term state
    simp only [Node.handoffEnd, finish]
    generalize n.completeActivation h.term state = m at hc ⊢
    cases hc with
    | stale => exact .frame rfl rfl rfl rfl rfl rfl hrest
    | outrun | starts => exact .of_phase (by simp [phase])

theorem deactivationEnd (n : Node σ) (id : ℕ) : n.Neutral (n.deactivationEnd id) := by
  rcases deactivationEnd_cases n id with hend | ⟨s, -, -, hend⟩
  · rw [hend]
    exact .frame rfl rfl rfl rfl rfl rfl (same_handoffs rfl)
  · rw [hend]
    exact .stopAndCleanup _ _ _

end Neutral

theorem step_attempts {es : List (Envelope σ)} (h : n.Current)
    (hclear : ∀ m s, n.gainingBy a = some (m, s) → m.termClear s = true)
    (hstep : n.step a = some (n', es)) :
    n'.Current ∧ ((n.beforeReconcile a).isSome = true ∨ n.Placed → n'.Placed) := by
  have hneutral : ∀ {n' : Node σ}, n.Neutral n' → (n.beforeReconcile a).isSome = false →
      n'.Current ∧ ((n.beforeReconcile a).isSome = true ∨ n.Placed → n'.Placed) := by
    intro n' hn hnone
    refine ⟨hn.current h, fun hor => hn.placed ?_⟩
    rcases hor with hsome | hplaced
    · rw [hnone] at hsome
      cases hsome
    · exact hplaced
  cases moves_of_step hstep with
  | @reconciles _ m hm =>
    have hcur : m.reconcile.Current := by
      rw [← m.passAcross_nil.1]
      refine current_passAcross (current_beforeReconcile h hm) fun m' s hg => ?_
      exact hclear m' s (gainingBy_of_gaining hm (m.gainingAcross_nil.1 ▸ hg))
    cases a with
    | memberEvent ev now =>
      exact ⟨hcur.frame rfl rfl rfl (same_handoffs rfl) (ScopeGrows.refl _),
        fun _ => m.placed_reconcile.frame rfl rfl rfl rfl rfl⟩
    | _ => exact ⟨hcur, fun _ => m.placed_reconcile⟩
  | rebalances =>
    refine ⟨?_, fun hor => Placed.rebalance ?_⟩
    · rw [← n.passAcross_nil.2]
      exact current_passAcross h fun m s hg => hclear m s (n.gainingAcross_nil.2 ▸ hg)
    rcases hor with hsome | hplaced
    · cases hsome
    · exact hplaced
  | starts | stops | replicates =>
    exact hneutral (.frame rfl rfl rfl rfl rfl rfl (same_handoffs rfl)) rfl
  | registers hst =>
    exact hneutral (.of_phase (by simp [phase, SingletonState.new]))
      (by simp [beforeReconcile, hst])
  | receives => exact hneutral (.receive n _ _) rfl
  | sends => exact hneutral (.handoffSend n _ _) rfl
  | ends => exact hneutral (.handoffEnd n _ _) rfl
  | wakes => exact hneutral (.deactivationEnd n _) rfl

/-! ### Whole runs -/

theorem mem_activations {e : Activation} (he : e ∈ n.activations a) :
    ∃ id ctxDone h s, a = .handoffEnd id ctxDone ∧ h ∈ n.handoffs ∧ n.singleton = some s ∧
      s.phase = .activating ∧ s.term = h.term ∧ n.term = h.term ∧
      e = ⟨h.canceled, (n.consult s.spec).leads s.spec⟩ := by
  cases a with
  | handoffEnd id ctxDone =>
    simp only [activations] at he
    split at he
    · exact absurd he not_mem_nil
    · next h hfind =>
      split at he
      · obtain ⟨spec, hspec, rfl⟩ := mem_map.mp he
        rw [mem_toList] at hspec
        simp only [completing] at hspec
        split at hspec
        · cases hspec
        · next s hs =>
          split_ifs at hspec with hcond
          cases hspec
          obtain ⟨hp, hst, hnt⟩ := hcond
          exact ⟨id, ctxDone, h, s, rfl, mem_of_find?_eq_some hfind, hs, hp, hst, hnt, rfl⟩
      · exact absurd he not_mem_nil
  | _ => exact absurd he not_mem_nil

theorem leads_consult_of_isLeader (hby : n.byElection spec = true) (hlead : n.isLeader = true) :
    (n.consult spec).leads spec = true := by
  have hscope : (n.consult spec).scope = n.scope := by
    cases he : n.scope with
    | none => simp [isLeader, he] at hlead
    | some e =>
      simp only [consult, ensureScope, he, getD_some]
      split_ifs <;> rfl
  have hsame : (n.consult spec).isLeader = true := by
    rw [isLeader, hscope]
    exact hlead
  unfold leads
  split
  · exact hsame
  · next matcher hmatcher =>
    have hcl : n.clustered = false := by
      simpa [byElection, hmatcher] using hby
    rw [show (n.consult spec).clustered = false from hcl]
    exact hsame

end Node

namespace Attempts

structure Tended (x : Attempts σ) : Prop where
  current : x.node.Current
  placed : x.unseen = false → x.node.Placed

theorem tended_new (name : String) (self : NodeMeta) (clustered : Bool) :
    (new name self clustered : Attempts σ).Tended :=
  have hphase : (new name self clustered : Attempts σ).node.phase ≠ .activating := by
    simp [new, phase, Node.new]
  ⟨.of_phase hphase, fun _ => .of_phase hphase⟩

variable {x x' : Attempts σ} {a : AttemptAction σ} {es : List Activation}

theorem tended_step (h : x.Tended) (ho : x.Orderly a) (hs : x.step a = some (x', es)) :
    x'.Tended := by
  cases a with
  | node a =>
    obtain ⟨⟨n', envs⟩, hstep, hr⟩ := map_eq_some_iff.mp hs
    cases hr
    obtain ⟨hcur, hplaced⟩ := step_attempts h.current
      (fun m s hg => ho.1 (m, s) hg) hstep
    refine ⟨hcur, fun hunseen => hplaced ?_⟩
    rcases Bool.and_eq_false_iff.mp hunseen with hseen | hrec
    · exact .inr (h.placed hseen)
    · exact .inl (isNone_eq_false_iff.mp hrec)
  | view c =>
    cases c with
    | setTags tags | peers ev =>
      cases hs
      exact ⟨current_change h.current _, nofun⟩
    | election ev =>
      cases hs
      exact ⟨current_change h.current _, fun hseen => (h.placed hseen).frame rfl rfl rfl rfl rfl⟩
  | noteFailed ev now =>
    cases hs
    exact ⟨h.current.frame rfl rfl rfl (same_handoffs rfl) (Node.ScopeGrows.refl _),
      fun hseen => (h.placed hseen).frame rfl rfl rfl rfl rfl⟩
  | prepare a =>
    obtain ⟨m, hm, hr⟩ := map_eq_some_iff.mp hs
    cases hr
    exact ⟨current_beforeReconcile h.current hm, nofun⟩
  | pass rebalance cs =>
    cases hs
    exact ⟨current_passAcross h.current fun m s hg => ho.1 (m, s) hg, nofun⟩

theorem activation_step (h : x.Tended) (ho : x.Orderly a) (hs : x.step a = some (x', es)) :
    ∀ e ∈ es, e = ⟨false, true⟩ := by
  cases a with
  | node a =>
    obtain ⟨⟨n', envs⟩, -, hr⟩ := map_eq_some_iff.mp hs
    cases hr
    intro e he
    obtain ⟨id, ctxDone, g, s, rfl, hg, hsing, hp, hterm, hnow, rfl⟩ := mem_activations he
    obtain ⟨-, hcur⟩ := h.current s hsing hp
    obtain ⟨hattempts, hlead⟩ := hcur (hterm.trans hnow.symm)
    have hleads : (x.node.consult s.spec).leads s.spec = true := by
      cases hby : x.node.byElection s.spec with
      | true => exact leads_consult_of_isLeader hby (hlead hby)
      | false =>
        have hseen : x.unseen = false := by
          have hinformed := ho.2 rfl
          simpa [informed, hsing, hby] using hinformed
        have hsame : (x.node.consult s.spec).leads s.spec = x.node.leads s.spec :=
          leads_congr hby rfl rfl rfl rfl
        rw [hsame]
        exact h.placed hseen s hsing hp hby
    rw [hattempts g hg hterm.symm, hleads]
  | view c =>
    cases c <;> cases hs <;> exact nofun
  | noteFailed ev now | pass rebalance cs =>
    cases hs
    exact nofun
  | prepare a =>
    obtain ⟨m, -, hr⟩ := map_eq_some_iff.mp hs
    cases hr
    exact nofun

def databaseOnly : SingletonSpec ℕ := ⟨0, true, some fun m => ("role", "db") ∈ m.tags, none⟩

/-- `b` has the tag and begins to take the singleton over from `a`, which has not. -/
def takesOver : List (AttemptAction ℕ) :=
  [.node (.memberEvent ⟨.join, ⟨"a", "", []⟩⟩ 0), .node (.register databaseOnly), .node .start,
    .node (.receive ⟨"a", "b", .discoverResponse true⟩ none), .node .finishStart, .node .rebalance,
    .node (.handoffSend 0 true)]

/-- `a` gets the tag and loses it again; then `b` begins anew, and the first attempt ends. -/
def beginsTwice : List (AttemptAction ℕ) :=
  takesOver ++ [.node (.memberEvent ⟨.updated, ⟨"a", "", [("role", "db")]⟩⟩ 1),
    .node (.memberEvent ⟨.updated, ⟨"a", "", []⟩⟩ 2), .node .rebalance, .node (.handoffEnd 0 true)]

end Attempts
end Westcoast.Cluster
