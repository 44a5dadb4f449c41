import Westcoast.Actor.Steps
import Westcoast.Cluster.Ending

/-!
# Active singletons and their actors

The phase of a singleton is the manager's, the status of its actor the runtime's. Only `startActor`
ties them together, and it drops the error of `CreateActor`; nobody tells the manager that the actor
has ended (`active_without_actor`, `active_runs`). `RemoveActor` and `CreateActor` of `startActor`
are one step: what others create in between might as well be there before.
-/
namespace Westcoast

variable {σ π : Type}

/-- A start hook fails, the supervisor decides against a restart, or somebody calls `Stop` or
`StopAndCapture`. -/
def Action.endsActor : Action σ π → Bool
  | .hookReturns ok => !ok
  | .decide decision => decision ≠ .restart
  | .stop _ => true
  | _ => false

def Effect.spares : Effect → Bool
  | .setStatus status => status ≠ .stopped
  | .cancel => false
  | .resetState | .closeMailbox => true

/-- The goroutine is not about to end the actor. -/
def Pc.spares : Pc σ π → Bool
  | .effects es _ => es.all Effect.spares
  | _ => true

theorem Pc.spares_after {e : Effect} {es : List Effect} {k : Cont π}
    (h : (Pc.effects (e :: es) k : Pc σ π).spares = true) :
    e.spares = true ∧ (Pc.after es k : Pc σ π).spares = true := by
  obtain ⟨he, hes⟩ : e.spares = true ∧ es.all Effect.spares = true := by
    simpa [Pc.spares] using h
  refine ⟨he, ?_⟩
  cases es with
  | cons e' es' => exact hes
  | nil =>
    cases k with
    | resume rest => cases rest <;> rfl
    | _ => rfl

namespace Instance

/-- The actor is not stopped, and nothing is under way that would end it. -/
structure Alive (i : Instance σ π) : Prop where
  status : i.status ≠ .stopped
  live : i.canceled = false
  pc : i.pc.spares = true
  stops : i.stops = []

theorem Alive.move {i i' : Instance σ π} (h : i.Alive) (hstatus : i'.status = i.status)
    (hlive : i'.canceled = i.canceled) (hstops : i'.stops = i.stops)
    (hpc : i'.pc.spares = true) : i'.Alive :=
  ⟨hstatus ▸ h.status, hlive.trans h.live, hpc, hstops.trans h.stops⟩

variable [Inhabited π]

theorem alive_new (init : σ) (capacity : ℤ) (batch : BatchConfig) :
    (new init capacity batch : Instance σ π).Alive :=
  ⟨by simp [new], rfl, rfl, rfl⟩

/-- **An actor lives on** unless something ends it. -/
theorem Alive.step {i i' : Instance σ π} {a : Action σ π} {es : List (Event σ π)} (h : i.Alive)
    (ha : a.endsActor = false) (hs : Steps i a i' es) : i'.Alive := by
  -- No call of `Stop` is under way that could take a step.
  have hnone : ∀ (k : ℕ) (c : StopCall σ), i.stops[k]? ≠ some c := by
    intro k c hk
    rw [h.stops] at hk
    cases hk
  cases hs with
  | startHookFailed | rehookFailed | stop => cases ha
  | decideStop _ _ d _ hd => simp [Action.endsActor, hd] at ha
  | selectDone hpc hc => simp [h.live] at hc
  | stopCheck k c hk | stopStore k c hk | stopCapture k c hk | stopHook k c hk | stopStored k c hk
  | stopCancel k c hk | stopClose k c hk => exact absurd hk (hnone k c)
  | started | selectNotify | readBatch | dequeueEmpty | dequeueOne | callBatch | callOne | callOk
  | callFailed | decideRestart | rehookOk => exact h.move rfl rfl rfl rfl
  | sendStopped | send | enqueueAccepted | refused | drawID | configure =>
    exact h.move rfl rfl rfl h.pc
  | dequeueBatch =>
    refine h.move rfl rfl rfl ?_
    simp only
    split_ifs <;> rfl
  | fallback msgs => exact h.move rfl rfl rfl (by cases msgs <;> rfl)
  | apply _ _ rest => exact h.move rfl rfl rfl (by cases rest <;> rfl)
  | effect e es k hpc =>
    obtain ⟨he, hafter⟩ := Pc.spares_after (hpc ▸ h.pc)
    cases e with
    | setStatus status => exact ⟨of_decide_eq_true he, h.live, hafter, h.stops⟩
    | cancel => cases he
    | resetState | closeMailbox => exact h.move rfl rfl rfl hafter

end Instance
end Westcoast

namespace Westcoast.Cluster

open Lib

variable {σ π : Type}

namespace Node

/-! ### What a step of the manager does to the actor -/

def startedBy (n : Node σ) : ManagerAction σ → Option (SingletonSpec σ)
  | .stop => none
  | .node (.handoffEnd id ctxDone) =>
    match n.handoffs.find? (·.id = id) with
    | none => none
    | some h =>
      match h.result ctxDone with
      | some (.completes _) => n.completing h.term
      | _ => none
  | .node a => (n.gainingBy a).bind fun g => if g.1.startsNow g.2 then some g.2.spec else none

def activeSpec (n : Node σ) : Option (SingletonSpec σ) :=
  n.singleton.bind fun s => if s.phase = .active then some s.spec else none

variable {n : Node σ}

theorem activeSpec_of_phase (h : n.phase ≠ .active) : n.activeSpec = none := by
  cases hs : n.singleton with
  | none => simp [activeSpec, hs]
  | some s =>
    rw [phase_of_singleton hs] at h
    simp [activeSpec, hs, h]

theorem phase_of_activeSpec {spec : SingletonSpec σ} (h : n.activeSpec = some spec) :
    n.phase = .active := by
  by_contra hp
  rw [activeSpec_of_phase hp] at h
  cases h

/-- The steps of the manager, by what they do to the actor and to an active singleton. -/
inductive ActorMoves (n : Node σ) (a : ManagerAction σ) (n' : Node σ) : Prop
  | keeps (hactor : n'.actor = n.actor)
      (hactive : n'.activeSpec = none ∨ n'.activeSpec = n.activeSpec)
  | stops (hactor : n'.actor = n.actor.stop) (hactive : n'.activeSpec = none)
  | starts {spec : SingletonSpec σ} {init : σ} (hstart : n.startedBy a = some spec)
      (hactor : n'.actor = if n.canCreate spec then .running init else n.actor.remove)
      (hactive : n'.activeSpec = some spec)

theorem gainLeadership_actor (m : Node σ) {s : SingletonState σ} (hp : s.phase ≠ .active) (t : ℕ) :
    m.startsNow s = false ∧ (m.gainLeadership s t).actor = m.actor ∧
        (m.gainLeadership s t).activeSpec = none ∨
      m.startsNow s = true ∧ (∃ init, (m.gainLeadership s t).actor =
          if m.canCreate s.spec then .running init else m.actor.remove) ∧
        (m.gainLeadership s t).activeSpec = some s.spec := by
  rcases gainLeadership_cases m s t with
    ⟨hnow, s', hspec, -, hact⟩ | ⟨hnow, -, hstay⟩ | ⟨hnow, -, hbegin⟩
  · rw [hact, ← hspec]
    exact .inr ⟨hnow, ⟨s'.spec.initialState, rfl⟩, rfl⟩
  · rw [hstay]
    exact .inl ⟨hnow, rfl, activeSpec_of_phase hp⟩
  · rw [hbegin]
    exact .inl ⟨hnow, rfl, rfl⟩

theorem reconcile_actor (n : Node σ) : n.reconcile.actor = n.actor ∧
        (n.reconcile.activeSpec = none ∨ n.reconcile.activeSpec = n.activeSpec) ∨
      ∃ m s init, n.gaining = some (m, s) ∧ m.startsNow s = true ∧
        n.reconcile.actor = (if n.canCreate s.spec then .running init else n.actor.remove) ∧
        n.reconcile.activeSpec = some s.spec := by
  have hrec := n.reconciles
  generalize n.reconcile = n' at hrec ⊢
  cases hrec with
  | absent | asks => exact .inl ⟨rfl, .inr rfl⟩
  | aborts => exact .inl ⟨rfl, .inl rfl⟩
  | @gains m s hg =>
    obtain ⟨hactor, hname, hp⟩ : m.actor = n.actor ∧ m.name = n.name ∧ s.phase ≠ .active := by
      obtain ⟨s0, -, -, ⟨hp, rfl, rfl⟩ | ⟨hp, -, rfl, rfl⟩⟩ := gaining_eq_some hg
      · exact ⟨rfl, rfl, by simp [hp]⟩
      · exact ⟨rfl, rfl, by simp [hp]⟩
    have hcan : m.canCreate s.spec = n.canCreate s.spec := by
      rw [canCreate, canCreate, hactor, hname]
    rcases gainLeadership_actor m hp m.term with
      ⟨-, hsame, hactive⟩ | ⟨hnow, ⟨init, hnew⟩, hactive⟩
    · exact .inl ⟨hsame.trans hactor, .inl hactive⟩
    · rw [hcan, hactor] at hnew
      exact .inr ⟨m, s, init, hg, hnow, hnew, hactive⟩

theorem beforeReconcile_actor {m : Node σ} {a : NodeAction σ} (h : n.beforeReconcile a = some m) :
    m.actor = n.actor ∧ m.name = n.name ∧ (m.activeSpec = none ∨ m.activeSpec = n.activeSpec) := by
  cases prepares_of_beforeReconcile h with
  | finishStart | memberEvent | watchEvent | reconcile => exact ⟨rfl, rfl, .inr rfl⟩
  | register => exact ⟨rfl, rfl, .inl rfl⟩

theorem rebalance_moves (n : Node σ) : n.ActorMoves (.node .rebalance) n.rebalance := by
  have hreb := n.rebalances
  generalize n.rebalance = n' at hreb ⊢
  cases hreb with
  | absent | asks => exact .keeps rfl (.inr rfl)
  | loses =>
    rw [loseLeadership]
    split_ifs
    · exact .stops rfl rfl
    · exact .keeps rfl (.inl rfl)
  | @gains s _ hp _ hg =>
    have hidle : ({ s with rebalancing := true } : SingletonState σ).phase ≠ .active := by simp [hp]
    rcases gainLeadership_actor (n.consult s.spec) hidle (n.consult s.spec).term with
      ⟨-, hsame, hactive⟩ | ⟨hnow, ⟨init, hnew⟩, hactive⟩
    · exact .keeps hsame (.inl hactive)
    · exact .starts (by simp [startedBy, hg, hnow]) hnew hactive

theorem receive_moves (n : Node σ) (env : Envelope σ) (captured : Option σ) :
    n.ActorMoves (.node (.receive env captured)) (n.receive env captured).1 := by
  have hr := n.receives env captured
  generalize (n.receive env captured).1 = m at hr ⊢
  cases hr with
  | ignores | discovers | answers => exact .keeps rfl (.inr rfl)
  | stops => exact .stops rfl rfl

theorem handoffEnd_moves {id : ℕ} {ctxDone : Bool} {h : Handoff σ} {result : HandoffResult σ}
    (hfind : n.handoffs.find? (·.id = id) = some h) (hres : h.result ctxDone = some result) :
    n.ActorMoves (.node (.handoffEnd id ctxDone)) (n.handoffEnd h result) := by
  cases result with
  | returns => exact .keeps rfl (.inr rfl)
  | completes state =>
    have hc := n.completes h.term state
    simp only [handoffEnd, finish]
    generalize n.completeActivation h.term state = m at hc ⊢
    cases hc with
    | stale => exact .keeps rfl (.inr rfl)
    | outrun => exact .keeps rfl (.inl rfl)
    | @starts s hs hp ht hterm =>
      have hstart : n.startedBy (.node (.handoffEnd id ctxDone)) = some s.spec := by
        simp [startedBy, hfind, hres, completing, hs, hp, ht, hterm]
      exact .starts hstart rfl rfl

theorem stop_moves (n : Node σ) : n.ActorMoves .stop n.stop := by
  simp only [stop]
  cases hs : n.singleton with
  | none => exact .keeps rfl (.inr rfl)
  | some s =>
    simp only
    split_ifs with hruns
    · exact .stops rfl rfl
    · refine .keeps rfl (.inl (activeSpec_of_phase fun hp => ?_))
      simp only [phase] at hp
      simp [hp, SingletonPhase.runs] at hruns

theorem deactivationEnd_moves (n : Node σ) (id : ℕ) :
    n.ActorMoves (.node (.deactivationEnd id)) (n.deactivationEnd id) := by
  rcases deactivationEnd_cases n id with hend | ⟨s, -, -, hend⟩
  · rw [hend]
    exact .keeps rfl (.inr rfl)
  · rw [hend]
    exact .stops rfl rfl

theorem actorMoves_of_step {n' : Node σ} {a : ManagerAction σ} {es : List (Envelope σ)}
    (ha : a ≠ .node .actorStops) (h : n.managerStep a = some (n', es)) : n.ActorMoves a n' := by
  cases a with
  | stop =>
    cases h
    exact stop_moves n
  | node a =>
    cases moves_of_step h with
    | @reconciles _ m hm =>
      obtain ⟨hactor, hname, hbefore⟩ := beforeReconcile_actor hm
      have hafter : (m.reconcile.afterReconcile a).actor = m.reconcile.actor ∧
          (m.reconcile.afterReconcile a).activeSpec = m.reconcile.activeSpec := by
        cases a <;> exact ⟨rfl, rfl⟩
      rcases reconcile_actor m with
        ⟨hsame, hactive⟩ | ⟨m', s, init, hg, hnow, hnew, hactive⟩
      · refine .keeps (hafter.1.trans (hsame.trans hactor)) ?_
        rw [hafter.2]
        rcases hactive with hnone | hsame
        · exact .inl hnone
        · rw [hsame]
          exact hbefore
      · have hstart : n.startedBy (.node a) = some s.spec := by
          have hgain := gainingBy_of_gaining hm hg
          cases a with
          | handoffEnd id ctxDone => cases hm
          | _ => simp [startedBy, hgain, hnow]
        have hcreated : (m.reconcile.afterReconcile a).actor =
            if n.canCreate s.spec then .running init else n.actor.remove := by
          rw [hafter.1, hnew, canCreate, canCreate, hactor, hname]
        exact .starts hstart hcreated (hafter.2.trans hactive)
    | starts | sends | replicates => exact .keeps rfl (.inr rfl)
    | registers => exact .keeps rfl (.inl rfl)
    | rebalances => exact rebalance_moves n
    | receives => exact receive_moves n _ _
    | ends hfind hres => exact handoffEnd_moves hfind hres
    | wakes => exact deactivationEnd_moves n _
    | stops => exact absurd rfl ha

end Node

/-! ### The manager and the runtime -/

/-- A manager and what the runtime has under the name of the singleton. -/
structure Managed (σ π : Type) where
  node : Node σ
  inst : Option (Instance σ π)
  -- the spec from which `startActor` created the instance, if it did
  origin : Option (SingletonSpec σ)
  -- the manager is in `Stop` or `StopAndCapture`, which is this call on the instance
  stopping : Option ℕ
  -- the calls of `RemoveActor` by others that have found the actor stopped
  removals : ℕ

inductive ManagedAction (σ π : Type)
  /-- A step of the manager; capacity and batching are those of the spec's options. -/
  | manager (a : ManagerAction σ) (capacity : ℤ) (batch : BatchConfig)
  /-- The manager's call of `Stop` has returned. -/
  | stopReturns
  /-- The actor's goroutine, a sender, a stop call, or somebody else who calls `Stop`. -/
  | inst (a : Westcoast.Action σ π)
  /-- Somebody else calls `CreateActor` with the identifier. -/
  | createActor (nilHandler : Bool) (init : σ) (capacity : ℤ) (batch : BatchConfig)
  /-- Somebody else's `RemoveActor` looks at the status. -/
  | removeCheck
  /-- It removes what there is under the identifier. -/
  | remove

/-- The manager stops the actor by `StopAndCapture`. -/
def ManagerAction.captures : ManagerAction σ → Bool
  | .node (.receive _ _) => true
  | _ => false

namespace Managed

def new (name : String) (self : NodeMeta) (clustered : Bool) : Managed σ π where
  node := { Node.new name self with clustered := clustered }
  inst := none
  origin := none
  stopping := none
  removals := 0

def status (x : Managed σ π) : Option ActorStatus := x.inst.map (·.status)

def slot (x : Managed σ π) : ActorSlot σ :=
  match x.inst with
  | none => .absent
  | some i => if i.status = .stopped then .stopped else .running i.initialState

def current (x : Managed σ π) : Node σ := { x.node with actor := x.slot }

section
variable [Inhabited π]

/-- What the manager's step does to the actor: `Stop`, `RemoveActor` and `CreateActor`, or
`RemoveActor` alone. -/
def perform (x : Managed σ π) (a : ManagerAction σ) (n' : Node σ) (capacity : ℤ)
    (batch : BatchConfig) : Managed σ π :=
  match x.slot, n'.actor with
  | .running _, .stopped =>
    { x with
      node := n'
      inst := x.inst.bind fun i => (i.step (.stop a.captures)).map Prod.fst
      stopping := x.inst.map (·.stops.length) }
  | .running _, _ => { x with node := n' }
  | _, .running init =>
    { x with
      node := n'
      inst := some (.new init capacity batch)
      origin := x.current.startedBy a }
  | .stopped, .absent => { x with node := n', inst := none, origin := none }
  | _, _ => { x with node := n' }

def step (x : Managed σ π) : ManagedAction σ π → Option (Managed σ π × List (Envelope σ))
  -- that an actor ends by itself is a step of the instance
  | .manager (.node .actorStops) _ _ => none
  | .manager a capacity batch =>
    if x.stopping.isSome then none
    else (x.current.managerStep a).map fun r => (x.perform a r.1 capacity batch, r.2)
  | .stopReturns =>
    match x.inst, x.stopping with
    | some i, some k =>
      match i.stops[k]? with
      | some ⟨_, .returned _, _⟩ => some ({ x with stopping := none }, [])
      | _ => none
    | _, _ => none
  | .inst a => x.inst.bind fun i => (i.step a).map fun r => ({ x with inst := some r.1 }, [])
  | .createActor nilHandler init capacity batch =>
    if x.node.name = "" ∨ nilHandler = true ∨ x.inst.isSome then some (x, [])
    else some ({ x with inst := some (.new init capacity batch), origin := none }, [])
  | .removeCheck =>
    if x.status = some .stopped then some ({ x with removals := x.removals + 1 }, [])
    else some (x, [])
  -- a stop call of the manager goes on with the instance it has, which nobody finds any more
  | .remove =>
    if x.removals = 0 then none
    else
      some ({ x with
        inst := none, origin := none, stopping := none, removals := x.removals - 1 }, [])

end

/-- An active singleton has an actor that is not stopped, created by `startActor` from the current
spec. -/
def ActiveRuns (x : Managed σ π) : Prop :=
  ∀ s, x.node.singleton = some s → s.phase = .active →
    ∃ i, x.inst = some i ∧ i.status ≠ .stopped ∧ x.origin = some s.spec

/-- The actor was created by `startActor` from this spec, and nothing is under way that would end
it. -/
def HasActor (x : Managed σ π) (spec : SingletonSpec σ) : Prop :=
  ∃ i, x.inst = some i ∧ i.Alive ∧ x.origin = some spec

variable {x : Managed σ π}

theorem HasActor.remove_slot {spec : SingletonSpec σ} (h : x.HasActor spec) :
    x.slot.remove = x.slot := by
  obtain ⟨i, hi, halive, -⟩ := h
  simp [slot, hi, halive.status, ActorSlot.remove]

/-- `startActor` can create the actor or finds its own of the same spec; nobody ends or removes that
of an active singleton. -/
def Undisturbed (x : Managed σ π) : ManagedAction σ π → Prop
  | .manager a _ _ => ∀ spec, x.current.startedBy a = some spec →
      x.current.canCreate spec = true ∨ x.HasActor spec
  | .inst a => x.node.phase = .active → a.endsActor = false
  | .remove => x.node.phase ≠ .active
  | .stopReturns | .createActor .. | .removeCheck => True

/-- `Undisturbed` as far as it can be computed: every start creates an actor. -/
def undisturbed (x : Managed σ π) : ManagedAction σ π → Bool
  | .manager a _ _ => (x.current.startedBy a).all x.current.canCreate
  | .inst a => x.node.phase ≠ .active || !a.endsActor
  | .remove => x.node.phase ≠ .active
  | .stopReturns | .createActor .. | .removeCheck => true

theorem Undisturbed.of_undisturbed {a : ManagedAction σ π} (h : x.undisturbed a = true) :
    x.Undisturbed a := by
  cases a with
  | manager a capacity batch =>
    intro spec hspec
    rw [undisturbed, hspec] at h
    exact .inl h
  | inst a =>
    intro hp
    simpa [undisturbed, hp] using h
  | remove =>
    have hp : x.node.phase ≠ .active := of_decide_eq_true h
    exact hp
  | stopReturns | createActor | removeCheck => trivial

def Sound (x : Managed σ π) : Prop :=
  ∀ spec, x.node.activeSpec = some spec → x.HasActor spec

theorem Sound.activeRuns (h : x.Sound) : x.ActiveRuns := by
  intro s hs hp
  obtain ⟨i, hi, halive, horigin⟩ := h s.spec (by simp [Node.activeSpec, hs, hp])
  exact ⟨i, hi, halive.status, horigin⟩

theorem Sound.of_none (h : x.node.activeSpec = none) : x.Sound := by
  intro spec hspec
  rw [h] at hspec
  cases hspec

variable [Inhabited π]

variable {a : ManagerAction σ} {capacity : ℤ} {batch : BatchConfig}

theorem step_manager (ha : a ≠ .node .actorStops) : x.step (.manager a capacity batch) =
      if x.stopping.isSome then none
      else (x.current.managerStep a).map fun r => (x.perform a r.1 capacity batch, r.2) := by
  cases a with
  | stop => rfl
  | node a =>
    cases a with
    | actorStops => exact absurd rfl ha
    | _ => rfl

variable {n' : Node σ}

theorem perform_of_same (h : n'.actor = x.slot) :
    x.perform a n' capacity batch = { x with node := n' } := by
  simp only [perform, h]
  cases x.slot <;> rfl

theorem node_perform (x : Managed σ π) (a : ManagerAction σ) (n' : Node σ) (capacity : ℤ)
    (batch : BatchConfig) : (x.perform a n' capacity batch).node = n' := by
  simp only [perform]
  split <;> rfl

theorem perform_of_created {init : σ} (hfree : x.slot.remove.isAbsent = true)
    (h : n'.actor = .running init) : x.perform a n' capacity batch = { x with
        node := n'
        inst := some (.new init capacity batch)
        origin := x.current.startedBy a } := by
  simp only [perform, h]
  cases hslot : x.slot with
  | running init' => simp [hslot, ActorSlot.remove, ActorSlot.isAbsent] at hfree
  | absent | stopped => rfl

theorem Sound.manager (h : x.Sound) (hcan : ∀ spec, x.current.startedBy a = some spec →
      x.current.canCreate spec = true ∨ x.HasActor spec) (hmoves : x.current.ActorMoves a n') :
    (x.perform a n' capacity batch).Sound := by
  cases hmoves with
  | keeps hactor hactive =>
    rw [perform_of_same hactor]
    rcases hactive with hnone | hsame
    · exact .of_none hnone
    · intro spec hspec
      exact h spec (hsame.symm.trans hspec)
  | stops hactor hactive => exact .of_none (by rw [node_perform, hactive])
  | @starts spec init hstart hactor hactive =>
    intro spec' hspec
    rw [node_perform, hactive] at hspec
    cases hspec
    by_cases hcreate : x.current.canCreate spec = true
    · have hfree : x.slot.remove.isAbsent = true := by
        simp only [Node.canCreate, Bool.and_eq_true] at hcreate
        exact hcreate.2
      rw [if_pos hcreate] at hactor
      rw [perform_of_created hfree hactor]
      exact ⟨_, rfl, Instance.alive_new init capacity batch, hstart⟩
    · -- the actor is there already, and `RemoveActor` refuses it
      have hown : x.HasActor spec := (hcan spec hstart).resolve_left hcreate
      rw [if_neg hcreate] at hactor
      rw [perform_of_same (hactor.trans hown.remove_slot)]
      exact hown

theorem sound_step {x' : Managed σ π} {a : ManagedAction σ π} {es : List (Envelope σ)}
    (h : x.Sound) (hu : x.Undisturbed a) (hs : x.step a = some (x', es)) : x'.Sound := by
  cases a with
  | manager a capacity batch =>
    have ha : a ≠ .node .actorStops := by
      rintro rfl
      cases hs
    rw [step_manager ha] at hs
    split_ifs at hs
    obtain ⟨⟨n', envs⟩, hman, hr⟩ := Option.map_eq_some_iff.mp hs
    cases hr
    exact h.manager hu (Node.actorMoves_of_step ha hman)
  | stopReturns =>
    simp only [step] at hs
    split at hs
    · split at hs
      · cases hs
        exact h
      · cases hs
    · cases hs
  | inst a =>
    obtain ⟨i, hi, hs⟩ := Option.bind_eq_some_iff.mp hs
    obtain ⟨⟨i', evs⟩, hstep, hr⟩ := Option.map_eq_some_iff.mp hs
    cases hr
    intro spec hspec
    obtain ⟨i0, hi0, halive, horigin⟩ := h spec hspec
    rw [hi] at hi0
    cases hi0
    have hspares : a.endsActor = false := hu (Node.phase_of_activeSpec hspec)
    exact ⟨i', rfl, halive.step hspares (Instance.steps_of_step hstep), horigin⟩
  | createActor nilHandler init capacity batch =>
    simp only [step] at hs
    split_ifs at hs with hrefused
    · cases hs
      exact h
    · cases hs
      intro spec hspec
      obtain ⟨i, hi, -, -⟩ := h spec hspec
      simp [hi] at hrefused
  | removeCheck =>
    simp only [step] at hs
    split_ifs at hs
    · cases hs
      exact h
    · cases hs
      exact h
  | remove =>
    simp only [step] at hs
    split_ifs at hs
    cases hs
    exact .of_none (Node.activeSpec_of_phase hu)

/-- **Active means running**, if each start finds its identifier free, or its own actor, and nobody
ends or removes it. -/
theorem active_runs (name : String) (self : NodeMeta) (clustered : Bool)
    (tr : List (Envelope σ)) (x : Managed σ π)
    (h : Run step Undisturbed (new name self clustered) tr x) : x.ActiveRuns := by
  have hsound : x.Sound :=
    h.invariant_state Sound (.of_none rfl) fun x a x' es ih hu hs => sound_step ih hu hs
  exact hsound.activeRuns

def activates : List (ManagedAction ℕ ℕ) :=
  [.register ⟨0, true, none, none⟩, .start, .finishStart].map fun a => .manager (.node a) 4 {}

/-- The actor starts, takes a message and fails, and the supervisor decides. -/
def fails (decision : SupervisionDecision) : List (ManagedAction ℕ ℕ) :=
  [.hookReturns true, .effect, .send 7, .enqueue 0, .selectNotify, .readBatch, .dequeue, .enter,
    .callReturns .error, .decide decision, .effect].map .inst

/-- The actor fails and is restarted. -/
theorem active_runs_restarted : ∃ (tr : List (Envelope ℕ)) (x : Managed ℕ ℕ),
      Run step Undisturbed (new "s" ⟨"b", "", []⟩ true) tr x ∧
        x.node.phase = .active ∧ x.status = some .running ∧ x.ActiveRuns := by
  have hend : (exec step undisturbed (new "s" ⟨"b", "", []⟩ true)
      (activates ++ fails .restart ++
        [.inst .effect, .inst (.hookReturns true), .inst .effect])).map
      (fun r => (r.1.node.phase, r.1.status)) = some (.active, some .running) := by
    decide +kernel
  obtain ⟨x, tr, hrun, hview⟩ := Run.of_view (fun _ _ h => Undisturbed.of_undisturbed h) hend
  obtain ⟨hphase, hstatus⟩ := Prod.mk.inj hview
  exact ⟨tr, x, hrun, hphase, hstatus, active_runs _ _ _ tr x hrun⟩

/-- Another actor has the identifier; the supervisor stops the actor, or escalates; the start hook
fails; the singleton is registered again. -/
def disturbances : List (List (ManagedAction ℕ ℕ)) :=
  [.createActor false 7 4 {} :: activates, activates ++ fails .stop, activates ++ fails .escalate,
    activates ++ [.inst (.hookReturns false), .inst .effect],
    activates ++ [.manager (.node (.register ⟨1, true, none, none⟩)) 4 {}]]

/-- The singleton is active and its actor is stopped, or was not created from the spec. -/
def lacksActor (x : Managed ℕ ℕ) : Bool :=
  x.node.phase = .active && (x.status = some .stopped ||
    x.origin.map (·.initialState) ≠ x.node.singleton.map (·.spec.initialState))

theorem not_activeRuns_of_lacksActor {x : Managed ℕ ℕ} (h : x.lacksActor = true) :
    ¬ x.ActiveRuns := by
  intro hruns
  obtain ⟨hphase, hlacks⟩ : x.node.phase = .active ∧ (x.status = some .stopped ∨
      x.origin.map (·.initialState) ≠ x.node.singleton.map (·.spec.initialState)) := by
    simpa [lacksActor] using h
  cases hs : x.node.singleton with
  | none => simp [Node.phase, hs] at hphase
  | some s =>
    have hp : s.phase = .active := (Node.phase_of_singleton hs).symm.trans hphase
    obtain ⟨i, hi, hstatus, horigin⟩ := hruns s hs hp
    rcases hlacks with hstopped | hother
    · simp [status, hi, hstatus] at hstopped
    · simp [horigin, hs] at hother

/-- **Active without an actor of its own**, at the end of each of these runs. -/
theorem active_without_actor :
    disturbances.Forall fun as => ∃ (tr : List (Envelope ℕ)) (x : Managed ℕ ℕ),
      exec step (fun _ _ => true) (new "s" ⟨"b", "", []⟩ true) as = some (x, tr) ∧
        Run step anyStep (new "s" ⟨"b", "", []⟩ true) tr x ∧ x.stopping = none ∧
          ¬ x.ActiveRuns := by
  have hends : ∀ as ∈ disturbances,
      (exec step (fun _ _ => true) (new "s" ⟨"b", "", []⟩ true) as).map
        (fun r => (r.1.stopping, r.1.lacksActor)) = some (none, true) := by
    decide +kernel
  refine List.forall_iff_forall_mem.mpr fun as has => ?_
  obtain ⟨⟨x, tr⟩, hexec, hview⟩ := Option.map_eq_some_iff.mp (hends as has)
  obtain ⟨hstopping, hlacks⟩ := Prod.mk.inj hview
  exact ⟨tr, x, hexec, Run.of_exec_any _ _ _ hexec, hstopping, not_activeRuns_of_lacksActor hlacks⟩

end Managed
end Westcoast.Cluster
