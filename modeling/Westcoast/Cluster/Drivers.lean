import Westcoast.Cluster.Ending

/-!
# The goroutines behind the passing phases

The `runHandoff` goroutine of an activation returns without ending it if the request cannot be sent
and the deadline passes during the pause that follows. `runDeactivationTimeout` looks at the phase
only, so a cancelled one takes a later deactivation for its own. Nothing else goes wrong
(`phases_attended`).
-/
namespace Westcoast.Cluster

open Lib List

variable {σ : Type}

/-- What identifies the goroutine of a hand-off. -/
def Handoff.key (h : Handoff σ) : ℕ × ℕ := (h.id, h.term)

/-- The goroutine returns without `completeActivation`, if its context is done. -/
def Handoff.pauses (h : Handoff σ) : Bool :=
  match h.stage with
  | .sendFailed => true
  | _ => false

/-- A step of the `runHandoff` goroutine with this number. -/
def NodeAction.isOf (id : ℕ) : NodeAction σ → Bool
  | .handoffSend id' _ | .handoffEnd id' _ => id' = id
  | _ => false

theorem Handoff.pauses_of_returns {h : Handoff σ} {ctxDone : Bool}
    (hres : h.result ctxDone = some .returns) : h.pauses = true ∧ ctxDone = true := by
  unfold Handoff.result at hres
  unfold Handoff.pauses
  split at hres <;> cases hres
  next hstage => simp [hstage]

namespace Node

/-- The hand-offs under way, and the deactivations. -/
def tasks (n : Node σ) : List (ℕ × ℕ) := n.handoffs.map Handoff.key

@[inherit_doc tasks]
def timers (n : Node σ) : List ℕ := n.deactivations.map (·.id)

def activatesIn (n : Node σ) (term : ℕ) : Bool :=
  n.singleton.any fun s => s.phase = .activating && s.term = term

/-- The goroutine that was started for the deactivation under way. -/
def episode (n : Node σ) : Option ℕ :=
  n.singleton.bind fun s =>
    match s.phase, s.cancel with
    | .deactivating, some (.deactivation id) => some id
    | _, _ => none

def deactivates (n : Node σ) : Bool :=
  n.clustered && n.singleton.any fun s => s.phase = .active && !(n.consult s.spec).leads s.spec

/-- No goroutine returns from the pause after a failed send during its activation, and no
deactivation begins while an earlier goroutine is left. -/
def attends (n : Node σ) : NodeAction σ → Bool
  | .handoffEnd id ctxDone =>
    (n.handoffs.find? (·.id = id)).all fun h => !(h.pauses && ctxDone && n.activatesIn h.term)
  | .rebalance => !n.deactivates || n.deactivations.isEmpty
  | _ => true

/-- By steps of its own alone, the goroutine comes to its call of `completeActivation`, after which
the singleton is not activating. -/
def ComesToComplete (n : Node σ) (g : Handoff σ) : Prop :=
  ∃ tr m g' ctxDone state, Run step (fun _ a => a.isOf g.id = true) n tr m ∧ g'.key = g.key ∧
    m.attends (.handoffEnd g.id ctxDone) = true ∧
    m.step (.handoffEnd g.id ctxDone) = some (m.handoffEnd g' (.completes state), []) ∧
    (m.handoffEnd g' (.completes state)).phase ≠ .activating

structure Staffed (n : Node σ) : Prop where
  fresh : ∀ k ∈ n.tasks, k.1 < n.nextID
  unique : (n.tasks.map Prod.fst).Nodup
  driven : ∀ s, n.singleton = some s → s.phase = .activating → ∃ k ∈ n.tasks, k.2 = s.term
  timed : ∀ s, n.singleton = some s → s.phase = .deactivating →
    ∃ id, s.cancel = some (.deactivation id) ∧ ∀ d ∈ n.timers, d = id

structure SamePassing (n n' : Node σ) : Prop where
  activating : ∀ s', n'.singleton = some s' → s'.phase = .activating →
    ∃ s, n.singleton = some s ∧ s.phase = .activating ∧ s.term = s'.term
  deactivating : ∀ s', n'.singleton = some s' → s'.phase = .deactivating →
    ∃ s, n.singleton = some s ∧ s.phase = .deactivating ∧ s.cancel = s'.cancel

namespace SamePassing

theorem of_eq {n n' : Node σ} (h : n'.singleton = n.singleton) : n.SamePassing n' :=
  ⟨fun s' hs' hp => ⟨s', h ▸ hs', hp, rfl⟩, fun s' hs' hp => ⟨s', h ▸ hs', hp, rfl⟩⟩

theorem of_phase {n n' : Node σ} (ha : n'.phase ≠ .activating) (hd : n'.phase ≠ .deactivating) :
    n.SamePassing n' :=
  ⟨fun _ hs' hp => absurd ((phase_of_singleton hs').trans hp) ha,
    fun _ hs' hp => absurd ((phase_of_singleton hs').trans hp) hd⟩

end SamePassing

namespace Staffed

variable {n n' : Node σ}

theorem frame (h : n.Staffed) (hid : n'.nextID = n.nextID) (htasks : n'.tasks = n.tasks)
    (htimers : ∀ d ∈ n'.timers, d ∈ n.timers) (hsame : n.SamePassing n') : n'.Staffed where
  fresh := by
    rw [htasks, hid]
    exact h.fresh
  unique := by
    rw [htasks]
    exact h.unique
  driven := by
    intro s' hs' hp
    obtain ⟨s, hs, hps, hterm⟩ := hsame.activating s' hs' hp
    rw [htasks, ← hterm]
    exact h.driven s hs hps
  timed := by
    intro s' hs' hp
    obtain ⟨s, hs, hps, hcancel⟩ := hsame.deactivating s' hs' hp
    obtain ⟨id, hid, hall⟩ := h.timed s hs hps
    exact ⟨id, hcancel ▸ hid, fun d hd => hall d (htimers d hd)⟩

end Staffed

theorem tasks_cancel (n : Node σ) (c : Option CancelFunc) : (n.cancel c).tasks = n.tasks := by
  simp only [tasks, cancel, map_map]
  rfl

theorem timers_cancel (n : Node σ) (c : Option CancelFunc) : (n.cancel c).timers = n.timers := by
  simp only [timers, cancel, map_map]
  rfl

/-! ### The steps -/

namespace Staffed

variable {n : Node σ} (h : n.Staffed)
include h

theorem stopAndCleanup (s : SingletonState σ) : (n.stopAndCleanup s).Staffed := by
  refine h.frame rfl (tasks_cancel n s.cancel) (fun d hd => ?_)
    (.of_phase (by simp [Node.stopAndCleanup, phase]) (by simp [Node.stopAndCleanup, phase]))
  exact timers_cancel n s.cancel ▸ hd

theorem consult (spec : SingletonSpec σ) : (n.consult spec).Staffed :=
  h.frame rfl rfl (fun _ hd => hd) (.of_eq rfl)

theorem abortActivation (s : SingletonState σ) : (n.abortActivation s).Staffed := by
  refine h.frame rfl (tasks_cancel n s.cancel) (fun d hd => ?_)
    (.of_phase (by simp [Node.abortActivation, phase]) (by simp [Node.abortActivation, phase]))
  exact timers_cancel n s.cancel ▸ hd

theorem beginHandoff (s : SingletonState σ) (t : ℕ) : (n.beginHandoff s t).Staffed := by
  have htasks : (n.beginHandoff s t).tasks = n.tasks ++ [(n.nextID, t)] := by
    simp [tasks, Node.beginHandoff, Handoff.key]
  refine ⟨?_, ?_, ?_, ?_⟩
  · intro k hk
    rw [htasks] at hk
    rcases mem_append.mp hk with hk | hk
    · exact Nat.lt_succ_of_lt (h.fresh k hk)
    · rw [mem_singleton.mp hk]
      exact Nat.lt_succ_self _
  · rw [htasks, map_append]
    refine List.Nodup.append h.unique (nodup_singleton _) ?_
    intro id hid hnew
    obtain ⟨k, hk, rfl⟩ := mem_map.mp hid
    exact absurd (mem_singleton.mp hnew) (Nat.ne_of_lt (h.fresh k hk))
  · intro s' hs' _
    cases hs'
    rw [htasks]
    exact ⟨(n.nextID, t), mem_append_right _ mem_cons_self, rfl⟩
  · intro s' hs' hp
    cases hs'
    cases hp

theorem loseLeadership (s : SingletonState σ) (t : ℕ)
    (hnone : n.clustered = true → n.deactivations = []) : (n.loseLeadership s t).Staffed := by
  simp only [Node.loseLeadership]
  split_ifs with hcl
  · exact h.stopAndCleanup s
  · have hempty := hnone (by simpa using hcl)
    refine ⟨fun k hk => Nat.lt_succ_of_lt (h.fresh k hk), h.unique, ?_, ?_⟩
    · intro s' hs' hp
      cases hs'
      cases hp
    · intro s' hs' _
      cases hs'
      refine ⟨n.nextID, rfl, fun d hd => ?_⟩
      simpa [timers, hempty] using hd

theorem gainLeadership {s : SingletonState σ} (t : ℕ)
    (hsame : n.SamePassing { n with singleton := some s }) : (n.gainLeadership s t).Staffed := by
  rcases gainLeadership_cases n s t with ⟨-, s', -, -, hact⟩ | ⟨-, -, hstay⟩ | ⟨-, -, hbegin⟩
  · rw [hact]
    exact h.frame rfl rfl (fun _ hd => hd)
      (.of_phase (by simp [activate, phase]) (by simp [activate, phase]))
  · rw [hstay]
    exact h.frame rfl rfl (fun _ hd => hd) hsame
  · rw [hbegin]
    exact h.beginHandoff s t

theorem reconcile : n.reconcile.Staffed := by
  have hrec := n.reconciles
  generalize n.reconcile = n' at hrec ⊢
  cases hrec with
  | absent => exact h
  | asks => exact h.consult _
  | aborts => exact (h.consult _).abortActivation _
  | gains hg =>
    obtain ⟨s0, hs0, -, ⟨hp, rfl, rfl⟩ | ⟨hp, -, rfl, rfl⟩⟩ := gaining_eq_some hg
    · exact (h.consult _).gainLeadership _ (.of_eq hs0.symm)
    · -- the old activation goes on with its goroutine, though that was cancelled
      have hc := h.consult s0.spec
      have hcanceled : ((n.consult s0.spec).cancel s0.cancel).Staffed :=
        hc.frame rfl (tasks_cancel _ _) (fun d hd => timers_cancel _ s0.cancel ▸ hd) (.of_eq rfl)
      refine hcanceled.gainLeadership _ ⟨fun s' hs' hp' => ?_, fun s' hs' hp' => ?_⟩
      · cases hs'
        exact ⟨s0, hs0, hp, rfl⟩
      · cases hs'
        rw [hp] at hp'
        cases hp'

theorem rebalance (hatt : n.attends .rebalance = true) : n.rebalance.Staffed := by
  have hreb := n.rebalances
  generalize n.rebalance = n' at hreb ⊢
  cases hreb with
  | absent => exact h
  | asks => exact h.consult _
  | loses hs hp hlead =>
    refine (h.consult _).loseLeadership _ _ fun hcl => ?_
    have hbegins : n.deactivates = true := by
      have hcl' : n.clustered = true := hcl
      simp [deactivates, hs, hp, hlead, hcl']
    have hempty : n.deactivations = [] := by simpa [attends, hbegins] using hatt
    exact hempty
  | gains _ hp =>
    exact (h.consult _).gainLeadership _ (.of_phase (by simp [phase, hp]) (by simp [phase, hp]))

theorem beforeReconcile {m : Node σ} {a : NodeAction σ} (hm : n.beforeReconcile a = some m) :
    m.Staffed := by
  cases prepares_of_beforeReconcile hm with
  | finishStart | memberEvent | watchEvent | reconcile =>
    exact h.frame rfl rfl (fun _ hd => hd) (.of_eq rfl)
  | register =>
    exact h.frame rfl rfl (fun _ hd => hd)
      (.of_phase (by simp [watch, ensureScope, phase, SingletonState.new])
        (by simp [watch, ensureScope, phase, SingletonState.new]))

theorem receive (env : Envelope σ) (captured : Option σ) : (n.receive env captured).1.Staffed := by
  have hr := n.receives env captured
  generalize (n.receive env captured).1 = m at hr ⊢
  cases hr with
  | ignores => exact h
  | discovers => exact h.frame rfl rfl (fun _ hd => hd) (.of_eq rfl)
  | stops => exact h.stopAndCleanup _
  | answers hnote =>
    refine h.frame rfl ?_ (fun _ hd => hd) (.of_eq rfl)
    simp only [tasks, map_map]
    exact map_congr_left fun g _ => Prod.ext (hnote g).1 (hnote g).2.1

theorem handoffSend (g : Handoff σ) (ok : Bool) : (n.handoffSend g ok).1.Staffed := by
  refine h.frame rfl ?_ (fun _ hd => hd) (.of_eq rfl)
  simp only [tasks, Node.handoffSend, map_map]
  refine map_congr_left fun g' _ => ?_
  simp only [Function.comp_apply]
  split_ifs <;> rfl

/-- The goroutine is gone, and the phase is not one that needs it. -/
theorem removed {g : Handoff σ} (hg : g ∈ n.handoffs) {n' : Node σ} (hid : n'.nextID = n.nextID)
    (hh : n'.handoffs = n.handoffs.filter fun g' => g'.id ≠ g.id)
    (hd : n'.deactivations = n.deactivations) (hsame : n.SamePassing n')
    (hfree : ∀ s, n'.singleton = some s → s.phase = .activating → s.term ≠ g.term) :
    n'.Staffed := by
  have hsub : List.Sublist n'.tasks n.tasks := by
    rw [tasks, hh]
    exact filter_sublist.map _
  refine ⟨?_, ?_, ?_, ?_⟩
  · intro k hk
    rw [hid]
    exact h.fresh k (hsub.subset hk)
  · exact h.unique.sublist (hsub.map _)
  · intro s' hs' hp
    obtain ⟨s, hs, hps, hterm⟩ := hsame.activating s' hs' hp
    obtain ⟨k, hk, hkterm⟩ := h.driven s hs hps
    obtain ⟨g', hg', rfl⟩ := mem_map.mp hk
    -- numbers are not used twice, so the driver is not the one that is gone
    have hne : g'.id ≠ g.id := by
      intro heq
      have hsame' : g'.key = g.key := inj_on_of_nodup_map h.unique hk
        (mem_map_of_mem hg) heq
      have hkey : g'.term = g.term := congrArg Prod.snd hsame'
      exact hfree s' hs' hp (by rw [← hterm, ← hkterm]; exact hkey)
    refine ⟨g'.key, ?_, hkterm.trans hterm⟩
    rw [tasks, hh]
    exact mem_map_of_mem (mem_filter.mpr ⟨hg', by simpa using hne⟩)
  · intro s' hs' hp
    obtain ⟨s, hs, hps, hcancel⟩ := hsame.deactivating s' hs' hp
    obtain ⟨id, hid', hall⟩ := h.timed s hs hps
    refine ⟨id, hcancel ▸ hid', fun d hdmem => hall d ?_⟩
    rw [timers, hd] at hdmem
    exact hdmem

theorem handoffEnd {g : Handoff σ} (hg : g ∈ n.handoffs) {result : HandoffResult σ}
    (hdone : n.activatesIn g.term = true → result ≠ .returns) :
    (n.handoffEnd g result).Staffed := by
  cases result with
  | returns =>
    refine h.removed hg rfl rfl rfl (.of_eq rfl) fun s hs hp hterm => hdone ?_ rfl
    have hs' : n.singleton = some s := hs
    simp [activatesIn, hs', hp, hterm]
  | completes state =>
    have hc := n.completes g.term state
    simp only [Node.handoffEnd, finish]
    generalize n.completeActivation g.term state = m at hc ⊢
    cases hc with
    | stale hstale => exact h.removed hg rfl rfl rfl (.of_eq rfl) hstale
    | outrun | starts =>
      exact h.removed hg rfl rfl rfl (.of_phase (by simp [phase]) (by simp [phase]))
        (by rintro _ ⟨⟩ ⟨⟩)

theorem deactivationEnd (id : ℕ) : (n.deactivationEnd id).Staffed := by
  have hrest : ({ n with deactivations := n.deactivations.filter fun d => d.id ≠ id } :
      Node σ).Staffed := by
    refine h.frame rfl rfl (fun d hd => ?_) (.of_eq rfl)
    obtain ⟨t, ht, rfl⟩ := mem_map.mp hd
    exact mem_map_of_mem (mem_of_mem_filter ht)
  rcases deactivationEnd_cases n id with hend | ⟨s, -, -, hend⟩
  · rw [hend]
    exact hrest
  · rw [hend]
    exact hrest.stopAndCleanup s

end Staffed

variable {n : Node σ}

theorem staffed_step {n' : Node σ} {a : NodeAction σ} {es : List (Envelope σ)} (h : n.Staffed)
    (hatt : n.attends a = true) (hstep : n.step a = some (n', es)) : n'.Staffed := by
  cases moves_of_step hstep with
  | @reconciles _ m hm =>
    have hrec := (h.beforeReconcile hm).reconcile
    cases a with
    | memberEvent ev now => exact hrec.frame rfl rfl (fun _ hd => hd) (.of_eq rfl)
    | _ => exact hrec
  | starts | stops | replicates => exact h.frame rfl rfl (fun _ hd => hd) (.of_eq rfl)
  | registers =>
    exact h.frame rfl rfl (fun _ hd => hd)
      (.of_phase (by simp [phase, SingletonState.new]) (by simp [phase, SingletonState.new]))
  | rebalances => exact h.rebalance hatt
  | receives => exact h.receive _ _
  | sends => exact h.handoffSend _ _
  | @ends id ctxDone g result hfind hres =>
    refine h.handoffEnd (mem_of_find?_eq_some hfind) fun hact hret => ?_
    subst hret
    obtain ⟨hpauses, hdone⟩ := Handoff.pauses_of_returns hres
    simp [attends, hfind, hpauses, hdone, hact] at hatt
  | wakes => exact h.deactivationEnd _

/-! ### Whole runs -/

variable {g : Handoff σ}

theorem Staffed.find?_eq (h : n.Staffed) (hg : g ∈ n.handoffs) :
    n.handoffs.find? (·.id = g.id) = some g := by
  have hids : (n.handoffs.map (·.id)).Nodup := by
    have hunique := h.unique
    rw [tasks, map_map] at hunique
    exact hunique
  cases hfind : n.handoffs.find? (·.id = g.id) with
  | none => simpa using find?_eq_none.mp hfind g hg
  | some g' =>
    have hid : g'.id = g.id := by simpa using find?_some hfind
    rw [inj_on_of_nodup_map hids (mem_of_find?_eq_some hfind) hg hid]

variable {s : SingletonState σ}

theorem phase_handoffEnd (hs : n.singleton = some s) (hp : s.phase = .activating)
    (hterm : g.term = s.term) (state : Option σ) :
    (n.handoffEnd g (.completes state)).phase ≠ .activating := by
  simp only [handoffEnd, finish, completeActivation, hs, hp, hterm, ne_eq, not_true_eq_false,
    or_self, if_false]
  split_ifs <;> simp [phase]

theorem comesToComplete_now {ctxDone : Bool} {state : Option σ} (hs : n.singleton = some s)
    (hp : s.phase = .activating) (hterm : g.term = s.term)
    (hfind : n.handoffs.find? (·.id = g.id) = some g) (hno : g.pauses = false ∨ ctxDone = false)
    (hres : g.result ctxDone = some (.completes state)) : n.ComesToComplete g := by
  have hatt : n.attends (.handoffEnd g.id ctxDone) = true := by
    simp [attends, hfind, hno]
  have hstep : n.step (.handoffEnd g.id ctxDone) =
      some (n.handoffEnd g (.completes state), []) := by
    simp [step, hfind, hres]
  exact ⟨[], n, g, ctxDone, state, .refl, rfl, hatt, hstep, phase_handoffEnd hs hp hterm state⟩

theorem find?_handoffSend (hfind : n.handoffs.find? (·.id = g.id) = some g) :
    (n.handoffSend g true).1.handoffs.find? (·.id = g.id) = some { g with stage := .waiting } := by
  simp only [handoffSend, if_true, find?_map]
  have hsame : ((fun g' : Handoff σ => decide (g'.id = g.id)) ∘ fun g' =>
      if g'.id = g.id then { g' with stage := .waiting } else g') =
        fun g' => decide (g'.id = g.id) := by
    funext g'
    simp only [Function.comp_apply]
    split_ifs <;> rfl
  rw [hsame, hfind, Option.map_some, if_pos rfl]

theorem Staffed.completes (h : n.Staffed) (hs : n.singleton = some s) (hp : s.phase = .activating)
    (hg : g ∈ n.handoffs) (hterm : g.term = s.term) : n.ComesToComplete g := by
  have hfind := h.find?_eq hg
  cases hstage : g.stage with
  | spawned =>
    have hsend : n.step (.handoffSend g.id true) = some (n.handoffSend g true) := by
      simp [step, hfind, Handoff.isSpawned, hstage]
    have hfirst : Run step (fun _ a => a.isOf g.id = true) n _ (n.handoffSend g true).1 :=
      .step .refl (by simp [NodeAction.isOf]) hsend
    have hwaits : ({ g with stage := .waiting } : Handoff σ).result true =
        some (.completes none) := rfl
    have hnext := find?_handoffSend hfind
    obtain ⟨tr, m, g', ctxDone, state, hrun, hend⟩ :=
      comesToComplete_now (n := (n.handoffSend g true).1) (g := { g with stage := .waiting })
        hs hp hterm hnext (.inl rfl) hwaits
    exact ⟨_, m, g', ctxDone, state, hfirst.trans hrun, hend⟩
  | waiting =>
    have hres : g.result true = some (.completes none) := by simp [Handoff.result, hstage]
    exact comesToComplete_now hs hp hterm hfind (.inl (by simp [Handoff.pauses, hstage])) hres
  | answered state =>
    have hres : g.result false = some (.completes state) := by simp [Handoff.result, hstage]
    exact comesToComplete_now hs hp hterm hfind (.inr rfl) hres
  | sendFailed =>
    have hres : g.result false = some (.completes none) := by simp [Handoff.result, hstage]
    exact comesToComplete_now hs hp hterm hfind (.inr rfl) hres

theorem episode_of_timed (hs : n.singleton = some s) (hp : s.phase = .deactivating) {id : ℕ}
    (hcancel : s.cancel = some (.deactivation id)) : n.episode = some id := by
  simp [episode, hs, hp, hcancel]

/-- What a passing phase can count on: an activation has a goroutine of its term, which ends by
`completeActivation`; and a goroutine that stops the singleton was started for this deactivation. -/
structure Attended (n : Node σ) : Prop where
  driver : ∀ s, n.singleton = some s → s.phase = .activating → ∃ g ∈ n.handoffs, g.term = s.term
  goesOn : ∀ s g, n.singleton = some s → s.phase = .activating → g ∈ n.handoffs → g.term = s.term →
    n.ComesToComplete g
  calls : ∀ s g ctxDone n' es, n.singleton = some s → s.phase = .activating → g ∈ n.handoffs →
    g.term = s.term → n.attends (.handoffEnd g.id ctxDone) = true →
    n.step (.handoffEnd g.id ctxDone) = some (n', es) →
      ∃ state, n' = n.handoffEnd g (.completes state)
  episode : ∀ id n' es, n.step (.deactivationEnd id) = some (n', es) → n.phase = .deactivating →
    n.episode = some id

theorem Staffed.attended (h : n.Staffed) : n.Attended where
  driver := by
    intro s hs hp
    obtain ⟨k, hk, hterm⟩ := h.driven s hs hp
    obtain ⟨g, hg, rfl⟩ := mem_map.mp hk
    exact ⟨g, hg, hterm⟩
  goesOn := fun s g hs hp hg hterm => h.completes hs hp hg hterm
  calls := by
    intro s g ctxDone n' es hs hp hg hterm hatt hstep
    have hfind := h.find?_eq hg
    simp only [step, hfind, Option.map_eq_some_iff] at hstep
    obtain ⟨result, hres, hend⟩ := hstep
    cases hend
    cases result with
    | returns =>
      obtain ⟨hpauses, hdone⟩ := Handoff.pauses_of_returns hres
      simp [attends, hfind, hpauses, hdone, activatesIn, hs, hp, hterm] at hatt
    | completes state => exact ⟨state, rfl⟩
  episode := by
    intro id n' es hstep hphase
    cases hs : n.singleton with
    | none => simp [phase, hs] at hphase
    | some s =>
      have hp : s.phase = .deactivating := (phase_of_singleton hs).symm.trans hphase
      obtain ⟨id', hcancel, hall⟩ := h.timed s hs hp
      simp only [step] at hstep
      split_ifs at hstep with hany
      obtain ⟨d, hd, hid⟩ := any_eq_true.mp hany
      rw [episode_of_timed hs hp hcancel, ← hall d.id (mem_map_of_mem hd),
        of_decide_eq_true hid]

/-- **Passing phases have their drivers**, if no hand-off goroutine returns from the pause while its
activation is under way, and no deactivation begins before earlier goroutines have ended. -/
theorem phases_attended (name : String) (self : NodeMeta) (clustered : Bool)
    (tr : List (Envelope σ)) (n : Node σ) (h : Run step (fun n a => n.attends a = true)
      { Node.new name self with clustered := clustered } tr n) : n.Attended := by
  have hinv : n.Staffed := by
    refine h.invariant_state Staffed ⟨?_, ?_, ?_, ?_⟩ fun n a n' es ih hatt hs =>
      staffed_step ih hatt hs
    · exact fun k hk => absurd hk not_mem_nil
    · exact nodup_nil
    · intro s hs
      cases hs
    · intro s hs
      cases hs
  exact hinv.attended

/-- A hand-off that was asked for and not answered yet. -/
theorem phases_attended_waiting : ∃ (tr : List (Envelope ℕ)) (n : Node ℕ),
      Run step (fun n a => n.attends a = true)
        { Node.new "s" ⟨"a", "", []⟩ with clustered := true } tr n ∧
      n.phase = .activating ∧ n.Attended :=
  Run.of_check_then (takingOver ++ [.handoffSend 0 true]) (by decide +kernel)
    fun tr n hrun hphase => ⟨tr, n, hrun, hphase, phases_attended _ _ _ tr n hrun⟩

/-- `b` hands the singleton to `a`, runs it again and is asked once more; the first goroutine has
not run yet. -/
def deactivatedTwice : List (NodeAction ℕ) :=
  [.register ⟨0, true, none, none⟩, .start, .finishStart, .memberEvent ⟨.join, ⟨"a", "", []⟩⟩ 0,
    .rebalance, .receive ⟨"a", "b", .handoffRequest 2⟩ none,
    .memberEvent ⟨.failed, ⟨"a", "", []⟩⟩ 1, .memberEvent ⟨.join, ⟨"a", "", []⟩⟩ 2, .rebalance]

/-- **Phases nobody attends to.** The request of `a` cannot be sent and the deadline passes during
the pause: no goroutine is left. Or the goroutine of the first deactivation of `b` stops the
singleton in the second one. -/
theorem unattended_phases :
    (∃ (tr : List (Envelope ℕ)) (n : Node ℕ), Run step anyStep (Node.new "s" ⟨"a", "", []⟩) tr n ∧
      n.phase = .activating ∧ n.handoffs.length = 0) ∧
    ∃ (tr : List (Envelope ℕ)) (n n' : Node ℕ),
      Run step anyStep (Node.new "s" ⟨"b", "", []⟩) tr n ∧ n.phase = .deactivating ∧
        n.episode = some 1 ∧ n.actor.isRunning = true ∧
        n.step (.deactivationEnd 0) = some (n', []) ∧ n'.phase = .idle ∧
        n'.actor.isRunning = false := by
  constructor
  · exact Run.of_check (takingOver ++ [.handoffSend 0 false, .handoffEnd 0 true])
      (by decide +kernel)
  · obtain ⟨tr, n, hrun, hphase, hepisode, hactor, hnext⟩ : ∃ tr, ∃ n : Node ℕ,
        Run step anyStep (Node.new "s" ⟨"b", "", []⟩) tr n ∧ n.phase = .deactivating ∧
        n.episode = some 1 ∧ n.actor.isRunning = true ∧
        (n.step (.deactivationEnd 0)).any (fun r =>
          r.2.isEmpty ∧ r.1.phase = .idle ∧ r.1.actor.isRunning = false) = true :=
      Run.of_check deactivatedTwice (by decide +kernel)
    obtain ⟨⟨n', es⟩, hstep, hes, hend⟩ := exists_of_any hnext
    obtain rfl : es = [] := isEmpty_iff.mp hes
    exact ⟨tr, n, n', hrun, hphase, hepisode, hactor, hstep, hend⟩

end Node
end Westcoast.Cluster
