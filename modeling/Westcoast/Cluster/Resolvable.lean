import Westcoast.Cluster.Leadership
import Westcoast.Lib.Machine

/-!
# Finding a running singleton by its name

`startActor` drops the errors of `CreateActor` and of `Register`. In a failover the registry still
binds the name to the failed owner then, since `cluster.Start` calls the manager first.
`active_resolvable` says which steps keep an active singleton resolvable.
-/
namespace Westcoast.Cluster.Node

open Lib Bool

variable {σ : Type}

def Resolvable (n : Node σ) : Prop :=
  n.phase = .active → ∃ pid, n.registry.lookup n.name = some pid ∧ pid.ns = n.self.id

/-- The name is bound to this node already, or it is free and the actor can be created. -/
def ownsOrFree (n : Node σ) (spec : SingletonSpec σ) : Bool :=
  match n.registry.lookup n.name with
  | some pid => pid.ns = n.self.id
  | none => n.canCreate spec

variable {n m : Node σ}

theorem registerPID_of_owned {pid : PID} (h : n.registry.lookup n.name = some pid) :
    n.registerPID.lookup n.name = some pid := by
  simp only [registerPID, DistributedRegistry.register, h]
  split
  · exact h
  · split_ifs <;> exact h

section
variable (hself : n.self.id ≠ "")
include hself

theorem registerPID_of_free (hname : n.name ≠ "") (h : n.registry.lookup n.name = none) :
    n.registerPID.lookup n.name = some n.pid := by
  have hvalid : n.pid.validate = .ok () := by
    simp [PID.validate, pid, hself, hname]
  simp only [registerPID, hvalid, DistributedRegistry.register, h]
  rw [lookup_insert_ite, if_pos rfl]

theorem startActor_binds {spec : SingletonSpec σ} (h : n.ownsOrFree spec = true)
    (initialState : σ) : ∃ pid, (n.startActor spec initialState).registry.lookup n.name = some pid ∧
      pid.ns = n.self.id := by
  simp only [ownsOrFree] at h
  cases hl : n.registry.lookup n.name with
  | some pid =>
    simp only [hl, decide_eq_true_eq] at h
    refine ⟨pid, ?_, h⟩
    simp only [startActor]
    split_ifs
    · exact registerPID_of_owned hl
    · exact hl
  | none =>
    simp only [hl] at h
    have hname : n.name ≠ "" := by
      simp only [canCreate, and_eq_true, decide_eq_true_eq] at h
      exact h.1.1
    refine ⟨n.pid, ?_, rfl⟩
    simp only [startActor, if_pos h]
    exact registerPID_of_free hself hname hl

/-! ### One function at a time -/

def completing (n : Node σ) (expectedTerm : ℕ) : Option (SingletonSpec σ) :=
  match n.singleton with
  | none => none
  | some s =>
    if s.phase = .activating ∧ s.term = expectedTerm ∧ n.term = expectedTerm then some s.spec
    else none

theorem Resolvable.completeActivation (h : n.Resolvable) {t : ℕ}
    (hfree : ∀ spec, n.completing t = some spec → n.ownsOrFree spec = true) (state : Option σ) :
    (n.completeActivation t state).Resolvable := by
  have hc := n.completes t state
  generalize n.completeActivation t state = m at hc ⊢
  cases hc with
  | stale => exact h
  | outrun =>
    intro hactive
    cases hactive
  | @starts s hs hp ht hterm =>
    intro _
    have hown := hfree s.spec (by simp [completing, hs, hp, ht, hterm])
    exact startActor_binds hself hown (s.spec.stateFrom state)

theorem Resolvable.gainLeadership {s : SingletonState σ} (hp : s.phase ≠ .active)
    (hfree : n.startsNow s = true → n.ownsOrFree s.spec = true) (t : ℕ) :
    (n.gainLeadership s t).Resolvable := by
  rcases gainLeadership_cases n s t with
    ⟨hnow, s', hspec, -, hact⟩ | ⟨-, -, hstay⟩ | ⟨-, -, hbegin⟩
  · rw [hact]
    intro _
    rw [← hspec] at hfree
    exact startActor_binds hself (hfree hnow) s'.spec.initialState
  · rw [hstay]
    intro hactive
    exact absurd hactive hp
  · rw [hbegin]
    intro hactive
    cases hactive

theorem Resolvable.reconcile (h : n.Resolvable)
    (hfree : ∀ m s, n.gaining = some (m, s) → m.startsNow s = true → m.ownsOrFree s.spec = true) :
    n.reconcile.Resolvable := by
  have hrec := n.reconciles
  generalize n.reconcile = n' at hrec ⊢
  cases hrec with
  | absent | asks => exact h
  | aborts =>
    intro hactive
    cases hactive
  | @gains m s hg =>
    obtain ⟨hself', hp⟩ : m.self = n.self ∧ s.phase ≠ .active := by
      obtain ⟨s0, -, -, ⟨hp, rfl, rfl⟩ | ⟨hp, -, rfl, rfl⟩⟩ := gaining_eq_some hg
      · exact ⟨rfl, by simp [hp]⟩
      · exact ⟨rfl, by simp [hp]⟩
    exact Resolvable.gainLeadership (hself' ▸ hself) hp (hfree m s hg) m.term

end

theorem phase_reconcile_active (h : n.reconcile.phase = .active) :
    n.phase = .active ∨ ∃ m s, n.gaining = some (m, s) ∧ m.startsNow s = true := by
  have hrec := n.reconciles
  generalize n.reconcile = n' at hrec h
  cases hrec with
  | absent | asks => exact .inl h
  | aborts => cases h
  | @gains m s hg =>
    rcases gainLeadership_cases m s m.term with ⟨hnow, -⟩ | ⟨-, -, hstay⟩ | ⟨-, -, hbegin⟩
    · exact .inr ⟨m, s, hg, hnow⟩
    · rw [hstay] at h
      obtain ⟨s0, -, -, ⟨hp, -, rfl⟩ | ⟨hp, -, -, rfl⟩⟩ := gaining_eq_some hg
      · simp [phase, hp] at h
      · simp [phase, hp] at h
    · rw [hbegin] at h
      cases h

theorem Resolvable.onMembershipChange (h : n.Resolvable) {ev : MemberEvent}
    (hev : ev.type.departs = false ∨ ev.member.id ≠ n.self.id ∨ n.phase ≠ .active) :
    ({ n with registry := n.registry.onMembershipChange ev } : Node σ).Resolvable := by
  intro hactive
  obtain ⟨pid, hl, hns⟩ := h hactive
  refine ⟨pid, ?_, hns⟩
  rw [DistributedRegistry.lookup_onMembershipChange, hl, Option.filter_some, if_pos]
  rcases hev with hd | hne | hidle
  · simp [hd]
  · simp [hns, Ne.symm hne]
  · exact absurd hactive hidle

theorem Resolvable.of_not_active (h : n.phase ≠ .active) : n.Resolvable :=
  fun hactive => absurd hactive h

theorem Resolvable.stopAndCleanup (n : Node σ) (s : SingletonState σ) :
    (n.stopAndCleanup s).Resolvable := by
  apply Resolvable.of_not_active
  simp [Node.stopAndCleanup, phase]

/-! ### Whole runs -/

/-- The node on which the step calls `startActor`, and the singleton it starts. -/
def startingBy (n : Node σ) (a : NodeAction σ) : Option (Node σ × SingletonSpec σ) :=
  match a with
  | .handoffEnd id _ =>
    (n.handoffs.find? (·.id = id)).bind fun h => (n.completing h.term).map fun spec => (n, spec)
  | a => (n.gainingBy a).bind fun g => if g.1.startsNow g.2 then some (g.1, g.2.spec) else none

/-- What starts finds its name free or bound to this node; this node stays a member while the
singleton is active here. -/
def keepsResolvable (n : Node σ) (a : NodeAction σ) : Bool :=
  (match n.startingBy a with
    | none => true
    | some (m, spec) => m.ownsOrFree spec) &&
  match a with
  | .replicate _ => false
  | .memberEvent ev _ =>
    !ev.type.departs || ev.member.id ≠ n.self.id ||
      (n.phase ≠ .active && (n.startingBy a).isNone)
  | _ => true

variable {a : NodeAction σ}

theorem startingBy_of_gaining {m' : Node σ} {s : SingletonState σ}
    (hm : n.beforeReconcile a = some m) (hg : m.gaining = some (m', s))
    (hnow : m'.startsNow s = true) : n.startingBy a = some (m', s.spec) := by
  have hgain := gainingBy_of_gaining hm hg
  cases a with
  | handoffEnd id ctxDone => cases hm
  | _ => simp [startingBy, hgain, if_pos hnow]

theorem Resolvable.beforeReconcile (h : n.Resolvable) (hm : n.beforeReconcile a = some m) :
    m.Resolvable := by
  cases prepares_of_beforeReconcile hm with
  | finishStart | memberEvent | watchEvent | reconcile => exact h
  | register =>
    exact Resolvable.of_not_active (by simp [watch, ensureScope, phase, SingletonState.new])

theorem resolvable_reconciled (hself : n.self.id ≠ "") (h : n.Resolvable)
    (hk : n.keepsResolvable a = true) (hm : n.beforeReconcile a = some m) :
    (m.reconcile.afterReconcile a).Resolvable := by
  have hself' := self_beforeReconcile hm
  simp only [keepsResolvable, and_eq_true] at hk
  obtain ⟨hstart, haction⟩ := hk
  have hrec : m.reconcile.Resolvable := by
    refine (h.beforeReconcile hm).reconcile (hself' ▸ hself) ?_
    intro m' s hg hnow
    simpa [startingBy_of_gaining hm hg hnow] using hstart
  cases a with
  | memberEvent ev now =>
    refine hrec.onMembershipChange ?_
    simp only [or_eq_true, and_eq_true, not_eq_true', decide_eq_true_eq] at haction
    rw [self_reconcile, hself']
    rcases haction with (hd | hne) | ⟨hidle, hnone⟩
    · exact .inl hd
    · exact .inr (.inl hne)
    · refine .inr (.inr fun hactive => ?_)
      rcases phase_reconcile_active hactive with hp | ⟨m', s, hg, hnow⟩
      · cases hm
        exact hidle hp
      · simp [startingBy_of_gaining hm hg hnow] at hnone
  | _ => exact hrec

theorem Resolvable.rebalance (hself : n.self.id ≠ "") (h : n.Resolvable)
    (hfree : ∀ m s, n.gainingBy .rebalance = some (m, s) → m.startsNow s = true →
      m.ownsOrFree s.spec = true) : n.rebalance.Resolvable := by
  have hreb := n.rebalances
  generalize n.rebalance = n' at hreb ⊢
  cases hreb with
  | absent | asks => exact h
  | loses =>
    rw [loseLeadership]
    split_ifs
    · exact Resolvable.stopAndCleanup _ _
    · exact Resolvable.of_not_active (by simp [phase])
  | @gains s _ hp _ hg =>
    exact Resolvable.gainLeadership (n := n.consult s.spec) hself (by simp [hp]) (hfree _ _ hg) _

theorem Resolvable.receive (h : n.Resolvable) (env : Envelope σ) (captured : Option σ) :
    (n.receive env captured).1.Resolvable := by
  have hr := n.receives env captured
  generalize (n.receive env captured).1 = m at hr ⊢
  cases hr with
  | ignores | discovers | answers => exact h
  | stops => exact Resolvable.stopAndCleanup _ _

theorem resolvable_step {n' : Node σ} {es : List (Envelope σ)} (hself : n.self.id ≠ "")
    (h : n.Resolvable) (hk : n.keepsResolvable a = true) (hstep : n.step a = some (n', es)) :
    n'.Resolvable := by
  have hfree : ∀ m spec, n.startingBy a = some (m, spec) → m.ownsOrFree spec = true := by
    intro m spec hstart
    simp only [keepsResolvable, and_eq_true, hstart] at hk
    exact hk.1
  cases moves_of_step hstep with
  | reconciles hm => exact resolvable_reconciled hself h hk hm
  | starts | sends | stops => exact h
  | registers => exact Resolvable.of_not_active (by simp [phase, SingletonState.new])
  | rebalances =>
    refine h.rebalance hself ?_
    intro m s hg hnow
    exact hfree m s.spec (by simp [startingBy, hg, hnow])
  | receives => exact h.receive _ _
  | @ends id ctxDone g result hfind =>
    cases result with
    | returns => exact h
    | completes state =>
      refine h.completeActivation hself ?_ state
      intro spec hspec
      exact hfree n spec (by simp [startingBy, hfind, hspec])
  | @wakes id =>
    rcases deactivationEnd_cases n id with hend | ⟨s, -, -, hend⟩
    · rw [hend]
      exact h
    · rw [hend]
      exact Resolvable.stopAndCleanup _ _
  | replicates => simp [keepsResolvable] at hk

/-- **Running singletons are resolvable**, in runs whose steps keep them so: an active singleton is
found under its name at this node. -/
theorem active_resolvable {n₀ n : Node σ} {tr : List (Envelope σ)} (hself : n₀.self.id ≠ "")
    (hfresh : n₀.phase ≠ .active)
    (h : Run step (fun n a => n.keepsResolvable a = true) n₀ tr n) (hactive : n.phase = .active) :
    ∃ pid, n.registry.lookup n.name = some pid ∧ pid.ns = n.self.id := by
  have hinv : n.self.id ≠ "" ∧ n.Resolvable := by
    refine h.invariant_state (fun n => n.self.id ≠ "" ∧ n.Resolvable)
      ⟨hself, Resolvable.of_not_active hfresh⟩ ?_
    intro n a n' es hn hk hstep
    refine ⟨?_, resolvable_step hn.1 hn.2 hk hstep⟩
    rw [self_step hstep]
    exact hn.1
  exact hinv.2 hactive

/-- A failover: `a` was seen running the singleton and fails, and `b` has no binding of it. -/
theorem active_resolvable_failover : ∃ (n : Node ℕ) (tr : List (Envelope ℕ)),
      Run step (fun n a => n.keepsResolvable a = true) (Node.new "s" ⟨"b", "", []⟩) tr n ∧
        n.phase = .active ∧ n.isRecentlyFailed "a" = true ∧
          ∃ pid, n.registry.lookup n.name = some pid ∧ pid.ns = n.self.id := by
  let a : NodeMeta := ⟨"a", "", []⟩
  obtain ⟨tr, n, hrun, hactive, hfailed⟩ : ∃ tr, ∃ n : Node ℕ,
      Run step (fun n a => n.keepsResolvable a = true) (Node.new "s" ⟨"b", "", []⟩) tr n ∧
      n.phase = .active ∧ n.isRecentlyFailed "a" = true :=
    Run.of_check [.memberEvent ⟨.join, a⟩ 0, .register ⟨0, true, none, none⟩, .start,
      .receive ⟨"a", "b", .discoverResponse true⟩ none, .finishStart, .watchEvent 0,
      .memberEvent ⟨.failed, a⟩ 1, .watchEvent 0] (by decide +kernel)
  exact ⟨n, tr, hrun, hactive, hfailed, active_resolvable (by decide) (by decide) hrun hactive⟩

/-- The registry holds the binding of `a`: the registration at `b` is refused, and the active
singleton ends up without one. -/
theorem failover_loses_binding : let n₀ : Node ℕ :=
      { Node.new "s" ⟨"b", "", []⟩ with registry := AList.singleton "s" ⟨"a", "s", 1⟩ }
    ∃ n tr, Run step anyStep n₀ tr n ∧ n.phase = .active ∧ n.watcherEvents 0 = [] ∧
      n.registry.lookup n.name = none := by
  intro n₀
  let a : NodeMeta := ⟨"a", "", []⟩
  exact Run.of_check_then [.memberEvent ⟨.join, a⟩ 0, .register ⟨0, true, none, none⟩, .start,
    .finishStart, .watchEvent 0, .memberEvent ⟨.failed, a⟩ 1, .watchEvent 0] (by decide +kernel)
    fun tr n hrun hend => ⟨n, tr, hrun, hend⟩

end Westcoast.Cluster.Node
