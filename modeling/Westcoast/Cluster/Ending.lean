import Westcoast.Cluster.Resolvable

/-!
# Ending a singleton from outside

`onHandoffRequest` copies the term of a request into its answer and reads it nowhere else. `Stop`
cancels what is under way and stops what runs, but the manager starts singletons as before, and a
cancelled hand-off takes its context for a timeout. It is final for a manager that is not taking the
singleton over and does not lead any more (`stop_final`).
-/
namespace Westcoast.Cluster

open Lib Node Option

variable {σ : Type}

def ActorSlot.isRunning : ActorSlot σ → Bool
  | .running _ => true
  | _ => false

@[simp] theorem ActorSlot.isRunning_stop (a : ActorSlot σ) : a.stop.isRunning = false := by
  cases a <;> rfl

namespace Node

/-! ### Hand-off requests -/

/-- The request is refused, and the singleton stays as it is. -/
structure Refuses (n : Node σ) (term : ℕ) (captured : Option σ) : Prop where
  answer : ∃ state error,
    (n.onHandoffRequest term captured).2 = .handoffResponse term false state error
  actor : (n.onHandoffRequest term captured).1.actor = n.actor
  phase : (n.onHandoffRequest term captured).1.phase = n.phase
  deactivations : (n.onHandoffRequest term captured).1.deactivations = n.deactivations
  registry : (n.onHandoffRequest term captured).1.registry = n.registry

theorem onHandoffRequest_of_not_runs {n : Node σ} (h : n.phase.runs = false) (term : ℕ)
    (captured : Option σ) : (n.onHandoffRequest term captured).1 = n ∧
      ∃ error, (n.onHandoffRequest term captured).2 = .handoffResponse term false none error := by
  cases hs : n.singleton with
  | none => simp [onHandoffRequest, hs]
  | some s =>
    simp only [phase, hs] at h
    simp [onHandoffRequest, hs, h]

/-- **Who is refused.** A request is refused by a node that does not run the singleton, whatever the
terms. -/
theorem handoffRequest_refused_iff (n : Node σ) (term : ℕ) (captured : Option σ) :
    n.Refuses term captured ↔ n.phase.runs = false := by
  constructor
  · rintro ⟨⟨state, error, hanswer⟩, -, -, -, -⟩
    cases hs : n.singleton with
    | none => simp [phase, hs, SingletonPhase.runs]
    | some s =>
      by_contra hruns
      simp only [phase, hs, Bool.not_eq_false] at hruns
      simp [onHandoffRequest, hs, hruns] at hanswer
  · intro hruns
    obtain ⟨hnode, error, hanswer⟩ := onHandoffRequest_of_not_runs hruns term captured
    exact ⟨⟨none, error, hanswer⟩, by rw [hnode], by rw [hnode], by rw [hnode], by rw [hnode]⟩

/-- `a` takes the lead over from `b` and leaves. Its late request stops the singleton of the only
node left. -/
theorem old_request_stops_singleton : ∃ (n : Node ℕ) (tr : List (Envelope ℕ)),
      Run step anyStep (Node.new "s" ⟨"b", "", []⟩) tr n ∧ n.phase = .active ∧ n.term = 3 ∧
        n.actor.isRunning = true ∧ (n.onHandoffRequest 2 none).2 = .handoffResponse 2 true none "" ∧
            (n.onHandoffRequest 2 none).1.phase = .idle ∧
              (n.onHandoffRequest 2 none).1.actor.isRunning = false := by
  let a : NodeMeta := ⟨"a", "", []⟩
  obtain ⟨tr, n, hrun, hactive, hterm, hactor⟩ : ∃ tr, ∃ n : Node ℕ,
      Run step anyStep (Node.new "s" ⟨"b", "", []⟩) tr n ∧ n.phase = .active ∧ n.term = 3 ∧
      n.actor.isRunning = true :=
    Run.of_check [.register ⟨0, true, none, none⟩, .start, .finishStart, .memberEvent ⟨.join, a⟩ 0,
      .memberEvent ⟨.leave, a⟩ 0] (by decide +kernel)
  obtain ⟨s, hs, hruns⟩ : ∃ s, n.singleton = some s ∧ s.phase.runs = true := by
    cases hs : n.singleton with
    | none => simp [phase, hs] at hactive
    | some s =>
      simp only [phase, hs] at hactive
      exact ⟨s, rfl, by rw [hactive]; rfl⟩
  have hstops : n.onHandoffRequest 2 none =
      (n.stopAndCleanup s, .handoffResponse 2 true none "") := by
    simp [onHandoffRequest, hs, hruns]
  exact ⟨n, tr, hrun, hactive, hterm, hactor, by rw [hstops], by rw [hstops]; rfl,
    by rw [hstops]; exact ActorSlot.isRunning_stop n.actor⟩

/-! ### `Stop` -/

/-- `SingletonManager.Stop`, for the name. The watch loops it cancels may still take an
event that waits for them. -/
def stop (n : Node σ) : Node σ :=
  match n.singleton with
  | none => n
  | some s =>
    { n.cancel s.cancel with
      actor := if s.phase.runs then n.actor.stop else n.actor
      singleton := some { s with
        cancel := none, phase := if s.phase.runs then .idle else s.phase } }

end Node

inductive ManagerAction (σ : Type)
  | node (a : NodeAction σ)
  | stop

namespace Node

def managerStep (n : Node σ) : ManagerAction σ → Option (Node σ × List (Envelope σ))
  | .node a => n.step a
  | .stop => some (n.stop, [])

/-- The manager does not lead the singleton it looks at. -/
def bystander (n : Node σ) : Bool := n.singleton.all fun s => !(n.consult s.spec).leads s.spec

/-- What the manager is told makes it look at a singleton that it does not lead. -/
def spared (n : Node σ) : ManagerAction σ → Bool
  | .stop => true
  | .node .rebalance => n.bystander
  | .node a => (n.beforeReconcile a).all bystander

/-- The singleton is idle, and its actor is not a new one. -/
structure Quiet (old : ActorSlot σ) (n : Node σ) : Prop where
  phase : n.phase = .idle
  actor : n.actor = old ∨ n.actor.isRunning = false

theorem phase_stop {n : Node σ} (h : n.phase ≠ .activating) : n.stop.phase = .idle := by
  simp only [stop]
  cases hs : n.singleton with
  | none => simp [phase, hs]
  | some s =>
    simp only [phase, hs] at h ⊢
    cases hp : s.phase with
    | activating => exact absurd hp h
    | _ => rfl

theorem actor_stop (n : Node σ) : n.stop.actor = n.actor ∨ n.stop.actor = n.actor.stop := by
  simp only [stop]
  cases n.singleton with
  | none => exact .inl rfl
  | some s =>
    simp only
    split_ifs
    · exact .inr rfl
    · exact .inl rfl

namespace Quiet
variable {old : ActorSlot σ} {n : Node σ} (h : Quiet old n)
include h

theorem frame {n' : Node σ} (hphase : n'.phase = .idle) (hactor : n'.actor = n.actor) :
    Quiet old n' :=
  ⟨hphase, hactor ▸ h.actor⟩

theorem stopped {n' : Node σ} (hphase : n'.phase = .idle)
    (hactor : n'.actor = n.actor ∨ n'.actor = n.actor.stop) : Quiet old n' := by
  rcases hactor with hsame | hstop
  · exact h.frame hphase hsame
  · exact ⟨hphase, .inr (by rw [hstop, ActorSlot.isRunning_stop])⟩

theorem beforeReconcile {m : Node σ} {a : NodeAction σ} (hm : n.beforeReconcile a = some m) :
    Quiet old m := by
  cases prepares_of_beforeReconcile hm with
  | finishStart | memberEvent | watchEvent | reconcile => exact h.frame h.phase rfl
  | register => exact h.frame rfl rfl

omit h in
theorem not_leads (hby : n.bystander = true) {s : SingletonState σ} (hs : n.singleton = some s) :
    (n.consult s.spec).leads s.spec ≠ true := by
  simpa [bystander, hs] using hby

theorem reconcile (hby : n.bystander = true) : Quiet old n.reconcile := by
  have hrec := n.reconciles
  generalize n.reconcile = n' at hrec ⊢
  cases hrec with
  | absent => exact h
  | asks => exact h.frame h.phase rfl
  | aborts => exact h.frame rfl rfl
  | gains hg =>
    obtain ⟨s, hs, hlead, -⟩ := gaining_eq_some hg
    exact absurd hlead (not_leads hby hs)

theorem rebalance (hby : n.bystander = true) : Quiet old n.rebalance := by
  have hreb := n.rebalances
  generalize n.rebalance = n' at hreb ⊢
  cases hreb with
  | absent => exact h
  | asks => exact h.frame h.phase rfl
  | loses hs hp =>
    have hphase := h.phase
    rw [phase_of_singleton hs, hp] at hphase
    cases hphase
  | gains hs _ hlead => exact absurd hlead (not_leads hby hs)

theorem receive (env : Envelope σ) (captured : Option σ) :
    Quiet old (n.receive env captured).1 := by
  have hr := n.receives env captured
  generalize (n.receive env captured).1 = m at hr ⊢
  cases hr with
  | ignores => exact h
  | discovers | answers => exact h.frame h.phase rfl
  | stops => exact h.stopped rfl (.inr rfl)

theorem completeActivation (t : ℕ) (state : Option σ) :
    Quiet old (n.completeActivation t state) := by
  have hcases := n.completes t state
  generalize n.completeActivation t state = m at hcases ⊢
  cases hcases with
  | stale => exact h
  | outrun => exact h.frame rfl rfl
  | starts hs hp =>
    have hphase := h.phase
    rw [phase_of_singleton hs, hp] at hphase
    cases hphase

end Quiet

theorem quiet_step {old : ActorSlot σ} {n n' : Node σ} {a : ManagerAction σ}
    {es : List (Envelope σ)} (h : Quiet old n) (hspared : n.spared a = true)
    (hstep : n.managerStep a = some (n', es)) : Quiet old n' := by
  cases a with
  | stop =>
    cases hstep
    exact h.stopped (phase_stop (by simp [h.phase])) (actor_stop n)
  | node a =>
    cases moves_of_step hstep with
    | @reconciles _ m hm =>
      have hby : m.bystander = true := by
        cases a with
        | rebalance => cases hm
        | _ => simpa only [spared, hm, all_some] using hspared
      have hrec := (h.beforeReconcile hm).reconcile hby
      refine hrec.frame (by rw [phase_afterReconcile, hrec.phase]) ?_
      cases a <;> rfl
    | starts | sends | replicates => exact h.frame h.phase rfl
    | registers => exact h.frame rfl rfl
    | rebalances => exact h.rebalance hspared
    | receives => exact h.receive _ _
    | @ends id ctxDone g result hfind hres =>
      cases result with
      | returns => exact h.frame h.phase rfl
      | completes state =>
        have hdone := h.completeActivation g.term state
        exact hdone.frame hdone.phase rfl
    | @wakes id =>
      rcases deactivationEnd_cases n id with hend | ⟨s, -, -, hend⟩
      · rw [hend]
        exact h.frame h.phase rfl
      · rw [hend]
        exact h.stopped rfl (.inr rfl)
    | stops => exact h.stopped h.phase (.inr rfl)

/-- **`Stop` is final** for a manager that is not taking the singleton over, while this node does
not lead it: the singleton does not run here, and the manager has no actor. -/
theorem stop_final {n : Node σ} (hn : n.phase ≠ .activating) {n' : Node σ} {tr : List (Envelope σ)}
    (h : Run managerStep (fun n a => n.spared a = true) n.stop tr n') :
    n'.phase.runs = false ∧ (n'.actor = n.stop.actor ∨ n'.actor.isRunning = false) := by
  have hquiet : Quiet n.stop.actor n' := by
    refine h.invariant_state (Quiet n.stop.actor) ⟨phase_stop hn, .inl rfl⟩ ?_
    intro n1 a n2 es hq hspared hstep
    exact quiet_step hq hspared hstep
  exact ⟨by rw [hquiet.phase]; rfl, hquiet.actor⟩

theorem runs_of_exec {β : Type} (view : Node σ → Node σ → β) (n₀ : Node σ)
    (pre : List (NodeAction σ)) (post : List (ManagerAction σ))
    {guard : Node σ → ManagerAction σ → Prop} (ok : Node σ → ManagerAction σ → Bool)
    (hok : ∀ n a, ok n a = true → guard n a) {x : β}
    (h : ((exec step (fun _ _ => true) n₀ pre).bind fun r =>
      (exec managerStep ok r.1.stop post).map fun r' => view r.1 r'.1) = some x) :
    ∃ n n' tr tr', Run step anyStep n₀ tr n ∧ Run managerStep guard n.stop tr' n' ∧
      view n n' = x := by
  obtain ⟨⟨n, tr⟩, hpre, hmap⟩ := bind_eq_some_iff.mp h
  obtain ⟨⟨n', tr'⟩, hpost, hview⟩ := map_eq_some_iff.mp hmap
  exact ⟨n, n', tr, tr', Run.of_exec_any _ _ _ hpre, Run.of_exec hok hpost, hview⟩

/-- `a` leads and is about to take the singleton over from `b`, which runs it. -/
def takingOver : List (NodeAction ℕ) :=
  [.memberEvent ⟨.join, ⟨"b", "", []⟩⟩ 0, .register ⟨0, true, none, none⟩, .start,
    .receive ⟨"b", "a", .discoverResponse true⟩ none, .finishStart, .rebalance]

/-- `b` is stopped while it waits to hand the singleton to `a`, which leads; its timer expires, `c`
joins and the request of `a` arrives. -/
theorem stop_final_handoff : ∃ (n n' : Node ℕ) (tr tr' : List (Envelope ℕ)),
      Run step anyStep (Node.new "s" ⟨"b", "", []⟩) tr n ∧ n.phase = .deactivating ∧
        Run managerStep (fun n a => n.spared a = true) n.stop tr' n' ∧ n'.members.length = 3 ∧
          n'.phase.runs = false ∧ (n'.actor = n.stop.actor ∨ n'.actor.isRunning = false) := by
  obtain ⟨n, n', tr, tr', hpre, hpost, hview⟩ :=
    runs_of_exec (fun n n' : Node ℕ => (n.phase, n'.members.length)) (.new "s" ⟨"b", "", []⟩)
      [.register ⟨0, true, none, none⟩, .start, .finishStart, .memberEvent ⟨.join, ⟨"a", "", []⟩⟩ 0,
        .rebalance]
      [.node (.deactivationEnd 0), .node (.memberEvent ⟨.join, ⟨"c", "", []⟩⟩ 1),
        .node (.receive ⟨"a", "b", .handoffRequest 2⟩ none), .node .rebalance]
      spared (fun _ _ hok => hok) (show _ = some (.deactivating, 3) by decide +kernel)
  obtain ⟨hphase, hmembers⟩ := Prod.mk.inj hview
  exact ⟨n, n', tr, tr', hpre, hphase, hpost, hmembers, stop_final (by simp [hphase]) hpost⟩

/-- One manager is stopped while its singleton runs, and starts it again at the next news. The other
waits for a hand-off, and its goroutine takes the cancelled context for a timeout. -/
theorem stopped_manager_starts : (∃ (n n' : Node ℕ) (tr tr' : List (Envelope ℕ)),
      Run step anyStep (Node.new "s" ⟨"a", "", []⟩) tr n ∧ n.phase = .active ∧
        Run managerStep anyStep n.stop tr' n' ∧ n.stop.actor.isRunning = false ∧
          n'.phase = .active ∧ n'.actor.isRunning = true) ∧
    ∃ (n n' : Node ℕ) (tr tr' : List (Envelope ℕ)),
      Run step anyStep (Node.new "s" ⟨"a", "", []⟩) tr n ∧ n.phase = .activating ∧
        Run managerStep anyStep n.stop tr' n' ∧ n.stop.actor.isRunning = false ∧
          n'.phase = .active ∧ n'.actor.isRunning = true := by
  let view (n n' : Node ℕ) := (n.phase, n.stop.actor.isRunning, n'.phase, n'.actor.isRunning)
  constructor
  · obtain ⟨n, n', tr, tr', hpre, hpost, hview⟩ := runs_of_exec view (.new "s" ⟨"a", "", []⟩)
      [.register ⟨0, true, none, none⟩, .start, .finishStart]
      [.node (.memberEvent ⟨.join, ⟨"b", "", []⟩⟩ 0)] (fun _ _ => true) (fun _ _ _ => trivial)
      (show _ = some (.active, false, .active, true) by decide +kernel)
    obtain ⟨hphase, hactor, hphase', hactor'⟩ := by simpa [view] using hview
    exact ⟨n, n', tr, tr', hpre, hphase, hpost, hactor, hphase', hactor'⟩
  · obtain ⟨n, n', tr, tr', hpre, hpost, hview⟩ := runs_of_exec view (.new "s" ⟨"a", "", []⟩)
      (takingOver ++ [.handoffSend 0 true]) [.node (.handoffEnd 0 true)] (fun _ _ => true)
      (fun _ _ _ => trivial) (show _ = some (.activating, false, .active, true) by decide +kernel)
    obtain ⟨hphase, hactor, hphase', hactor'⟩ := by simpa [view] using hview
    exact ⟨n, n', tr, tr', hpre, hphase, hpost, hactor, hphase', hactor'⟩

end Node
end Westcoast.Cluster
