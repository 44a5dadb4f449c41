import Mathlib.Data.Set.Function
import Westcoast.Cluster.Singleton
import Westcoast.Cron.Service

/-!
# The cron actor as a singleton

The nodes of a cluster with their cron services; the cron actor runs on one of them at a time. It is
stopped for good or for a hand-off (`capture`); then its state is encoded, decoded and given to the
actor that is created next (`activate`). The services and their goroutines stay where they are. The
codec makes a `CronHandoffState` of a `*CronHandoffState` (`CronState.registered`), which the
handler does not restore from (`Unrestored`).
-/
namespace Westcoast

open Lib Option CronBrokerService Function

variable {π β : Type}

/-- A state after it has been decoded: a pointer is encoded as what it points to. -/
def CronState.registered : CronState π → CronState π
  | .nil => .nil
  | .pointer state | .value state => .value state

/-- A codec with the types of `RegisterCronSingleton`: a value comes back in its registered type,
payloads included. -/
structure CronCodec (π β : Type) where
  encode : CronState π → β
  decode : β → Option (CronState π)
  decode_encode : ∀ state, decode (encode state) = some state.registered

/-- The specification `RegisterCronSingleton` makes: `OnHandoff` passes the state through. -/
def cronSpec (π : Type) (placement : Option (Cluster.NodeMeta → Bool)) :
    Cluster.SingletonSpec (CronState π) :=
  ⟨.nil, true, placement, some id⟩

/-- `running` is the node of the cron actor, with its state; `inFlight` is the state of the last
hand-off. -/
structure CronCluster (π β : Type) where
  now : ℕ
  services : String → CronBrokerService π
  running : Option (String × CronState π)
  inFlight : Option β

inductive CronAction (π : Type)
  | elapse (d : ℕ)
  /-- The actor is created, with the state handed over or without. -/
  | activate (node : String) (handedOver : Bool)
  | message (node : String) (ask : Option AskRequestContext) (command : CronCommand π)
  /-- `onHandoffRequest`: `StopAndCapture`, and the state is sent. -/
  | capture (node : String)
  /-- `Stop`, also by a drain or by a deactivation. -/
  | stop (node : String)
  /-- The runtime notifies the monitors of an actor, which it forgets. -/
  | notified (node actorID : String)
  | arm (node : String) (loop : ℕ)
  | wake (node : String) (loop : ℕ)
  | quit (node : String) (loop : ℕ)
  | fire (node : String) (loop : ℕ)

/-- The steps of the goroutines and of the clock, and those of other actors. -/
def CronAction.background : CronAction π → Bool
  | .elapse .. | .notified .. | .arm .. | .wake .. | .quit .. | .fire .. => true
  | .activate .. | .message .. | .capture .. | .stop .. => false

inductive CronEvent (π : Type)
  | service (node : String) (event : CronServiceEvent π)
  | stopped (node : String)
  /-- A goroutine of the node called `Send` of its runtime for an actor. -/
  | ticked (node : String) (loop : ℕ) (actorID : String) (tick : CronTickMessage π)
  deriving DecidableEq

namespace CronCluster

def new (cronID : String) : CronCluster π β := ⟨0, fun node => .new node cronID, none, none⟩

def setService (s : CronCluster π β) (node : String) (cs : CronBrokerService π) : CronCluster π β :=
  { s with services := update s.services node cs }

def loop (s : CronCluster π β) (node : String) (g : ℕ) : Option (CronLoop π) :=
  (s.services node).loops[g]?

def setLoop (s : CronCluster π β) (node : String) (g : ℕ) (l : CronLoop π) : CronCluster π β :=
  s.setService node { s.services node with loops := (s.services node).loops.set g l }

variable (parse : String → Option CronSchedule) (codec : CronCodec π β)
  (spec : Cluster.SingletonSpec (CronState π))

def step (s : CronCluster π β) : CronAction π → Option (CronCluster π β × List (CronEvent π))
  | .elapse d => some ({ s with now := s.now + d }, [])
  | .activate node handedOver =>
    match s.running with
    | some _ => none
    | none =>
      let state := if handedOver then s.inFlight.bind codec.decode else none
      some ({ s with running := some (node, spec.stateFrom state) }, [])
  | .message node ask command =>
    match s.running with
    | none => none
    | some (node', state) =>
      if node' = node then
        let r := (s.services node).handler parse state ask command
        some ({ s.setService node r.1 with running := some (node, r.2.1) },
          r.2.2.map (.service node))
      else none
  | .capture node =>
    match s.running with
    | none => none
    | some (node', state) =>
      if node' = node then
        some ({ s with running := none, inFlight := some (codec.encode state) }, [.stopped node])
      else none
  | .stop node =>
    match s.running with
    | none => none
    | some (node', _) =>
      if node' = node then some ({ s with running := none }, [.stopped node]) else none
  | .notified node actorID =>
    let cs := s.services node
    some (s.setService node { cs with monitors := (cs.monitors.drain actorID).2 }, [])
  | .arm node g => ((s.loop node g).bind (·.arm s.now)).map fun l => (s.setLoop node g l, [])
  | .wake node g => ((s.loop node g).bind (·.wake s.now)).map fun l => (s.setLoop node g l, [])
  | .quit node g => ((s.loop node g).bind (·.quit)).map fun l => (s.setLoop node g l, [])
  | .fire node g =>
    ((s.loop node g).bind (·.fire)).map fun r =>
      (s.setLoop node g r.2, [.ticked node g r.2.sub.actorID r.1])

inductive Turn (s : CronCluster π β) :
    CronAction π → CronCluster π β → List (CronEvent π) → Prop
  | elapse (d : ℕ) : Turn s (.elapse d) { s with now := s.now + d } []
  | activate (node : String) (handedOver : Bool) (hidle : s.running = none) :
      Turn s (.activate node handedOver)
        { s with running := some (node, spec.stateFrom
          (if handedOver then s.inFlight.bind codec.decode else none)) } []
  | message (node : String) (state : CronState π) (ask : Option AskRequestContext)
      (command : CronCommand π) (hrunning : s.running = some (node, state)) :
      Turn s (.message node ask command)
        { s.setService node ((s.services node).handler parse state ask command).1 with
          running := some (node, ((s.services node).handler parse state ask command).2.1) }
        (((s.services node).handler parse state ask command).2.2.map (.service node))
  | capture (node : String) (state : CronState π) (hrunning : s.running = some (node, state)) :
      Turn s (.capture node)
        { s with running := none, inFlight := some (codec.encode state) } [.stopped node]
  | stop (node : String) (state : CronState π) (hrunning : s.running = some (node, state)) :
      Turn s (.stop node) { s with running := none } [.stopped node]
  | notified (node actorID : String) :
      Turn s (.notified node actorID) (s.setService node { s.services node with
        monitors := ((s.services node).monitors.drain actorID).2 }) []
  /-- A goroutine looks at the clock or at its context. -/
  | advanced {a : CronAction π} (node : String) (g : ℕ) (l l' : CronLoop π)
      (ha : a = .arm node g ∨ a = .wake node g ∨ a = .quit node g) (hl : s.loop node g = some l)
      (hmove : l.arm s.now = some l' ∨ l.wake s.now = some l' ∨ l.quit = some l') :
      Turn s a (s.setLoop node g l') []
  | fired (node : String) (g : ℕ) (l l' : CronLoop π) (tick : CronTickMessage π)
      (hl : s.loop node g = some l) (hfire : l.fire = some (tick, l')) :
      Turn s (.fire node g) (s.setLoop node g l') [.ticked node g l'.sub.actorID tick]

variable {s s' : CronCluster π β} {a : CronAction π} {es : List (CronEvent π)}

variable {parse codec spec} in
theorem turn_of_step (h : s.step parse codec spec a = some (s', es)) :
    Turn parse codec spec s a s' es := by
  cases a with
  | elapse d =>
    cases h
    exact .elapse d
  | activate node handedOver =>
    simp only [step] at h
    split at h
    · cases h
    · next hidle =>
      cases h
      exact .activate node handedOver hidle
  | message node ask command =>
    simp only [step] at h
    split at h
    · cases h
    · next node' state hrunning =>
      split_ifs at h with hnode
      subst hnode
      cases h
      exact .message node' state ask command hrunning
  | capture node =>
    simp only [step] at h
    split at h
    · cases h
    · next node' state hrunning =>
      split_ifs at h with hnode
      subst hnode
      cases h
      exact .capture node' state hrunning
  | stop node =>
    simp only [step] at h
    split at h
    · cases h
    · next node' state hrunning =>
      split_ifs at h with hnode
      subst hnode
      cases h
      exact .stop node' state hrunning
  | notified node actorID =>
    cases h
    exact .notified node actorID
  | arm node g =>
    obtain ⟨l', hl', heq⟩ := map_eq_some_iff.mp h
    obtain ⟨l, hl, hmove⟩ := bind_eq_some_iff.mp hl'
    cases heq
    exact .advanced node g l l' (.inl rfl) hl (.inl hmove)
  | wake node g =>
    obtain ⟨l', hl', heq⟩ := map_eq_some_iff.mp h
    obtain ⟨l, hl, hmove⟩ := bind_eq_some_iff.mp hl'
    cases heq
    exact .advanced node g l l' (.inr (.inl rfl)) hl (.inr (.inl hmove))
  | quit node g =>
    obtain ⟨l', hl', heq⟩ := map_eq_some_iff.mp h
    obtain ⟨l, hl, hmove⟩ := bind_eq_some_iff.mp hl'
    cases heq
    exact .advanced node g l l' (.inr (.inr rfl)) hl (.inr (.inr hmove))
  | fire node g =>
    obtain ⟨⟨tick, l'⟩, hl', heq⟩ := map_eq_some_iff.mp h
    obtain ⟨l, hl, hfire⟩ := bind_eq_some_iff.mp hl'
    cases heq
    exact .fired node g l l' tick hl hfire

/-! ### One step, seen from a node -/

/-- What a step does to the service of one node, and the events about it. -/
inductive Moves (s : CronCluster π β) (a : CronAction π) (s' : CronCluster π β)
    (es : List (CronEvent π)) (node : String) : Prop
  /-- The goroutines and the subscriptions are as they were. -/
  | same (hloops : (s'.services node).loops = (s.services node).loops)
      (hsubs : (s'.services node).subs = (s.services node).subs)
      (hflag : (s'.services node).restored = (s.services node).restored)
      (hquiet : ∀ e, .service node e ∉ es) (hsilent : ∀ g id tick, .ticked node g id tick ∉ es)
  | handled (state : CronState π) (ask : Option AskRequestContext) (command : CronCommand π)
      (ha : a = .message node ask command) (hrunning : s.running = some (node, state))
      (hservice : s'.services node = ((s.services node).handler parse state ask command).1)
      (hstate : s'.running = some (node, ((s.services node).handler parse state ask command).2.1))
      (hes : es = ((s.services node).handler parse state ask command).2.2.map (.service node))
  /-- A goroutine looks at the clock or at its context. -/
  | advanced (g : ℕ) (l l' : CronLoop π) (hl : s.loop node g = some l)
      (hmove : l.arm s.now = some l' ∨ l.wake s.now = some l' ∨ l.quit = some l')
      (hservice : s'.services node =
        { s.services node with loops := (s.services node).loops.set g l' })
      (hes : es = [])
  | fired (g : ℕ) (l l' : CronLoop π) (tick : CronTickMessage π) (hl : s.loop node g = some l)
      (hfire : l.fire = some (tick, l'))
      (hservice : s'.services node =
        { s.services node with loops := (s.services node).loops.set g l' })
      (hes : es = [.ticked node g l'.sub.actorID tick])

variable {parse codec spec}

variable {node : String}

theorem Moves.of_eq (h : s'.services node = s.services node) (hquiet : ∀ e, .service node e ∉ es)
    (hsilent : ∀ g id tick, .ticked node g id tick ∉ es) : Moves parse s a s' es node :=
  .same (by rw [h]) (by rw [h]) (by rw [h]) hquiet hsilent

variable {cs : CronBrokerService π}

variable {k : String}

theorem Moves.of_ne (hk : k ≠ node) (hquiet : ∀ e, .service k e ∉ es)
    (hsilent : ∀ g id tick, .ticked k g id tick ∉ es) :
    Moves parse s a (s.setService node cs) es k := by
  refine .of_eq ?_ hquiet hsilent
  simp only [setService, update_of_ne hk]

theorem moves_step (h : s.step parse codec spec a = some (s', es)) (k : String) :
    Moves parse s a s' es k := by
  cases turn_of_step h with
  | elapse | activate | capture | stop => exact .of_eq rfl (by simp) (by simp)
  | message node state ask command hrunning =>
    by_cases hk : k = node
    · subst hk
      exact .handled state ask command rfl hrunning (by simp [setService]) rfl rfl
    · refine .of_eq ?_ (by simp [Ne.symm hk]) (by simp)
      simp only [setService, update_of_ne hk]
  | notified node actorID =>
    by_cases hk : k = node
    · subst hk
      exact .same (by simp [setService]) (by simp [setService]) (by simp [setService])
        (by simp) (by simp)
    · exact .of_ne hk (by simp) (by simp)
  | advanced node g l l' ha hl hmove =>
    by_cases hk : k = node
    · subst hk
      exact .advanced g l l' hl hmove (by simp [setLoop, setService]) rfl
    · exact .of_ne hk (by simp) (by simp)
  | fired node g l l' tick hl hfire =>
    by_cases hk : k = node
    · subst hk
      exact .fired g l l' tick hl hfire (by simp [setLoop, setService]) rfl
    · exact .of_ne hk (by simp) (by simp [hk])

variable (codec spec) in
inductive Shift (s : CronCluster π β) (a : CronAction π) (s' : CronCluster π β) : Prop
  | kept (hrunning : s'.running = s.running) (hflight : s'.inFlight = s.inFlight)
      (hflag : ∀ node, (s'.services node).restored = (s.services node).restored)
  | handled (node : String) (state state' : CronState π) (hrunning : s.running = some (node, state))
      (hrunning' : s'.running = some (node, state')) (hflight : s'.inFlight = s.inFlight)
      (hflag : (s'.services node).restored = true)
  | activated (node : String) (handoffState : Option (CronState π)) (hidle : s.running = none)
      (hdecoded : ∀ state, handoffState = some state →
        ∃ bytes, s.inFlight = some bytes ∧ codec.decode bytes = some state)
      (hrunning' : s'.running = some (node, spec.stateFrom handoffState))
      (hflight : s'.inFlight = s.inFlight)
  | halted (node : String) (state : CronState π) (ha : a = .stop node ∨ a = .capture node)
      (hrunning : s.running = some (node, state)) (hrunning' : s'.running = none)
      (hservices : s'.services = s.services) (hnow : s'.now = s.now)
      (hflight : s'.inFlight = s.inFlight ∨ s'.inFlight = some (codec.encode state))

theorem restored_setService (h : cs.restored = (s.services node).restored) (k : String) :
    ((s.setService node cs).services k).restored = (s.services k).restored := by
  by_cases hk : k = node
  · subst hk
    simpa [setService] using h
  · simp only [setService, update_of_ne hk]

theorem shift_step (h : s.step parse codec spec a = some (s', es)) : Shift codec spec s a s' := by
  cases turn_of_step h with
  | elapse => exact .kept rfl rfl fun _ => rfl
  | activate node handedOver hidle =>
    refine .activated node _ hidle ?_ rfl rfl
    intro state hstate
    split_ifs at hstate
    exact bind_eq_some_iff.mp hstate
  | message node state ask command hrunning =>
    refine .handled node state _ hrunning rfl rfl ?_
    simp only [setService, update_self]
    exact restored_handler parse _ state ask command
  | capture node state hrunning =>
    exact .halted node state (.inr rfl) hrunning rfl rfl rfl (.inr rfl)
  | stop node state hrunning =>
    exact .halted node state (.inl rfl) hrunning rfl rfl rfl (.inl rfl)
  | notified | advanced | fired => exact .kept rfl rfl (restored_setService rfl)

/-! ### Nothing is ever restored -/

/-- A cron actor without a message so far has no pointer for its state, and what is in flight is an
encoded state. -/
structure Unrestored (codec : CronCodec π β) (s : CronCluster π β) : Prop where
  running : ∀ node state, s.running = some (node, state) →
    (s.services node).restored = true ∨ ∀ hs, state ≠ .pointer hs
  inFlight : ∀ bytes, s.inFlight = some bytes → ∃ state, bytes = codec.encode state

theorem CronState.registered_ne_pointer (state : CronState π) (hs : CronHandoffState π) :
    state.registered ≠ .pointer hs := by
  cases state with
  | nil | pointer state | value state => simp [CronState.registered]

variable {placement : Option (Cluster.NodeMeta → Bool)}

theorem Unrestored.step (hu : Unrestored codec s)
    (h : s.step parse codec (cronSpec π placement) a = some (s', es)) : Unrestored codec s' := by
  cases shift_step h with
  | kept hrunning hflight hflag =>
    refine ⟨fun node state hrun => ?_, ?_⟩
    · rw [hrunning] at hrun
      rw [hflag]
      exact hu.running node state hrun
    · rw [hflight]
      exact hu.inFlight
  | handled node state state' hrunning hrunning' hflight hflag =>
    refine ⟨fun node' state'' hrun => ?_, ?_⟩
    · rw [hrunning'] at hrun
      cases hrun
      exact .inl hflag
    · rw [hflight]
      exact hu.inFlight
  | activated node handoffState hidle hdecoded hrunning' hflight =>
    refine ⟨fun node' state' hrun => .inr fun hs => ?_, ?_⟩
    · rw [hrunning'] at hrun
      cases hrun
      cases handoffState with
      | none => simp [Cluster.SingletonSpec.stateFrom, cronSpec]
      | some state =>
        -- what was handed over has been through the codec
        obtain ⟨bytes, hbytes, hstate⟩ := hdecoded state rfl
        obtain ⟨sent, rfl⟩ := hu.inFlight bytes hbytes
        rw [codec.decode_encode, some.injEq] at hstate
        rw [← hstate]
        exact CronState.registered_ne_pointer sent hs
    · rw [hflight]
      exact hu.inFlight
  | halted node state ha hrunning hrunning' hservices hnow hflight =>
    refine ⟨fun node' state' hrun => ?_, fun bytes hbytes => ?_⟩
    · rw [hrunning'] at hrun
      cases hrun
    · rcases hflight with hflight | hflight
      · rw [hflight] at hbytes
        exact hu.inFlight bytes hbytes
      · rw [hflight, some.injEq] at hbytes
        exact ⟨state, hbytes.symm⟩

variable {cronID : String} {tr : List (CronEvent π)} {s : CronCluster π β}

theorem Unrestored.run {guard : CronCluster π β → CronAction π → Prop} (hu : Unrestored codec s)
    (hrun : Run (CronCluster.step parse codec (cronSpec π placement)) guard s tr s') :
    Unrestored codec s' :=
  hrun.invariant_state (Unrestored codec) hu fun _ _ _ _ hu _ h => hu.step h

theorem unrestored_new : Unrestored codec (new cronID : CronCluster π β) :=
  ⟨fun _ _ h => (nomatch h), fun _ h => nomatch h⟩

theorem Unrestored.restoreOnce (hu : Unrestored codec s) {state : CronState π}
    (hrunning : s.running = some (node, state)) :
    (s.services node).restoreOnce parse state = ({ s.services node with restored := true }, []) :=
  restoreOnce_eq parse (hu.running node state hrunning)

/-! ### What is left after a hand-off -/

variable {cs' : CronBrokerService π}

theorem held_of_subs (h : cs'.subs = cs.subs) : cs'.held = cs.held := by
  simp only [held, h]

theorem subs_step (h : s.step parse codec spec a = some (s', es))
    (ha : ∀ ask command, a ≠ .message k ask command) :
    (s'.services k).subs = (s.services k).subs := by
  cases moves_step h k with
  | same hloops hsubs hflag hquiet hsilent => exact hsubs
  | handled state ask command hmessage hrun hservice hstate hes =>
    exact absurd hmessage (ha ask command)
  | advanced g l l' hl hmove hservice hes | fired g l l' tick hl hfire hservice hes => rw [hservice]

theorem subs_of_background {tr : List (CronEvent π)}
    (hrun : Run (step parse codec spec) (fun _ a => a.background = true) s tr s') (k : String) :
    (s'.services k).subs = (s.services k).subs := by
  refine hrun.invariant_state (fun s' => (s'.services k).subs = (s.services k).subs) rfl ?_
  intro s1 a s2 es hsame hback h
  refine (subs_step h ?_).trans hsame
  rintro ask command rfl
  cases hback

/-- **What a hand-off preserves.** The state is captured, encoded, decoded and given to the actor on
another, or the same, node; after its first message the service holds the captured subscriptions
exactly if it held these before. -/
theorem held_after_handoff_iff
    (hrun : Run (step parse codec (cronSpec π placement)) anyStep (new cronID) tr s)
    {i j : String} {s₁ s₂ s₃ s₄ s₅ : CronCluster π β} {es₁ tr₂ es₃ tr₄ es₅ : List (CronEvent π)}
    {ask : Option AskRequestContext} {command : CronCommand π}
    (hcapture : s.step parse codec (cronSpec π placement) (.capture i) = some (s₁, es₁))
    (htransfer : Run (step parse codec (cronSpec π placement)) (fun _ a => a.background = true)
      s₁ tr₂ s₂)
    (hactivate : s₂.step parse codec (cronSpec π placement) (.activate j true) = some (s₃, es₃))
    (hidle : Run (step parse codec (cronSpec π placement)) (fun _ a => a.background = true)
      s₃ tr₄ s₄)
    (hmessage : s₄.step parse codec (cronSpec π placement) (.message j ask command) =
      some (s₅, es₅))
    (hneutral : command.neutral ask = true) :
    (s₅.services j).held = (s.services i).held ↔ (s.services j).held = (s.services i).held := by
  have hbefore : (s₄.services j).subs = (s.services j).subs := by
    calc (s₄.services j).subs = (s₃.services j).subs := subs_of_background hidle j
      _ = (s₂.services j).subs := subs_step hactivate (by simp)
      _ = (s₁.services j).subs := subs_of_background htransfer j
      _ = (s.services j).subs := subs_step hcapture (by simp)
  have hunrestored : Unrestored codec s₄ := by
    have hu2 := ((unrestored_new.run hrun).step hcapture).run htransfer
    exact (hu2.step hactivate).run hidle
  have hafter : (s₅.services j).subs = (s₄.services j).subs := by
    cases moves_step hmessage j with
    | same hloops hsubs hflag hquiet hsilent => exact hsubs
    | handled state ask' command' ha hrunning hservice hstate hes =>
      cases ha
      rw [hservice]
      simp only [handler]
      rw [subs_dispatch_neutral parse _ hneutral,
        hunrestored.restoreOnce hrunning]
    | advanced g l l' hl hmove hservice hes | fired g l l' tick hl hfire hservice hes =>
      rw [hservice]
  rw [held_of_subs (hafter.trans hbefore)]

def everySecond (schedule : String) : Option CronSchedule :=
  if schedule = "@every 1s" then some ⟨fun now => some (now + 1), by simp⟩ else none

/-- The codec that passes the registered value on as it is. -/
def plainCodec : CronCodec ℕ (CronState ℕ) := ⟨CronState.registered, some, fun _ => rfl⟩

/-- A cluster whose cron singleton may run anywhere. -/
abbrev plainStep : CronCluster ℕ (CronState ℕ) → CronAction ℕ →
    Option (CronCluster ℕ (CronState ℕ) × List (CronEvent ℕ)) :=
  step everySecond plainCodec (cronSpec ℕ none)

/-- The request of an actor, and its subscription to a tick every second. -/
def request : AskRequestContext := ⟨"ask-1", ⟨"__ask_reply@n1", "ask-1", 1⟩⟩

def subscribeA (node : String) : CronAction ℕ :=
  .message node (some request) (.subscribe ⟨"n1", "a", 1⟩ "@every 1s" 7 "t")

theorem held_eq_of_captureState (h : cs.captureState = cs'.captureState) : cs.held = cs'.held := by
  ext e
  rw [← mem_captureState, h, mem_captureState]

/-- The subscription is lost by a hand-off, made again under the same reference, and handed back to
a service that has it. -/
theorem held_after_handoff_back :
    ∃ (tr : List (CronEvent ℕ)) (s s₁ s₃ s₅ : CronCluster ℕ (CronState ℕ))
      (es₁ es₃ es₅ : List (CronEvent ℕ)),
      Run plainStep anyStep (new "c") tr s ∧ plainStep s (.capture "n2") = some (s₁, es₁) ∧
        plainStep s₁ (.activate "n1" true) = some (s₃, es₃) ∧
        plainStep s₃ (.message "n1" (some request) (.list ⟨"n1", "a", 1⟩)) = some (s₅, es₅) ∧
        (s.services "n2").captureState = ⟨[⟨"cron-c-1", "a", "@every 1s", "t", 7⟩]⟩ ∧
        (s₅.services "n1").held = (s.services "n2").held := by
  obtain ⟨tr, s, hrun, ⟨s₁, es₁⟩, hcapture, ⟨s₃, es₃⟩, hactivate, ⟨s₅, es₅⟩, hmessage, htwo,
      hone⟩ : ∃ tr s, Run plainStep anyStep (new "c") tr s ∧ ∃ r1 ∈ plainStep s (.capture "n2"),
        ∃ r3 ∈ plainStep r1.1 (.activate "n1" true),
        ∃ r5 ∈ plainStep r3.1 (.message "n1" (some request) (.list ⟨"n1", "a", 1⟩)),
          (s.services "n2").captureState = ⟨[⟨"cron-c-1", "a", "@every 1s", "t", 7⟩]⟩ ∧
          (s.services "n1").captureState = (s.services "n2").captureState :=
    Run.of_check [.activate "n1" false, subscribeA "n1", .capture "n1", .activate "n2" true,
      subscribeA "n2"] (by decide +kernel)
  refine ⟨tr, s, s₁, s₃, s₅, es₁, es₃, es₅, hrun, hcapture, hactivate, hmessage, htwo, ?_⟩
  exact (held_after_handoff_iff hrun hcapture .refl hactivate .refl hmessage rfl).mpr
    (held_eq_of_captureState hone)

/-- After one hand-off to a new node the subscription is gone. -/
theorem handoff_loses_subscription :
    ∃ (tr : List (CronEvent ℕ)) (s s₁ s₃ s₅ : CronCluster ℕ (CronState ℕ))
      (es₁ es₃ es₅ : List (CronEvent ℕ)),
      Run plainStep anyStep (new "c") tr s ∧ plainStep s (.capture "n1") = some (s₁, es₁) ∧
        plainStep s₁ (.activate "n2" true) = some (s₃, es₃) ∧
        plainStep s₃ (.message "n2" (some request) (.list ⟨"n1", "a", 1⟩)) = some (s₅, es₅) ∧
        (s.services "n1").captureState = ⟨[⟨"cron-c-1", "a", "@every 1s", "t", 7⟩]⟩ ∧
        (s₅.services "n2").captureState = ⟨[]⟩ ∧
        (s₅.services "n2").held ≠ (s.services "n1").held := by
  obtain ⟨tr, s, hrun, ⟨s₁, es₁⟩, hcapture, ⟨s₃, es₃⟩, hactivate, ⟨s₅, es₅⟩, hmessage, hone,
      htwo⟩ : ∃ tr s, Run plainStep anyStep (new "c") tr s ∧ ∃ r1 ∈ plainStep s (.capture "n1"),
        ∃ r3 ∈ plainStep r1.1 (.activate "n2" true),
        ∃ r5 ∈ plainStep r3.1 (.message "n2" (some request) (.list ⟨"n1", "a", 1⟩)),
          (s.services "n1").captureState = ⟨[⟨"cron-c-1", "a", "@every 1s", "t", 7⟩]⟩ ∧
          (r5.1.services "n2").captureState = ⟨[]⟩ :=
    Run.of_check [.activate "n1" false, subscribeA "n1"] (by decide +kernel)
  refine ⟨tr, s, s₁, s₃, s₅, es₁, es₃, es₅, hrun, hcapture, hactivate, hmessage, hone, htwo,
    fun hsame => ?_⟩
  have hheld : ⟨"cron-c-1", "a", "@every 1s", "t", 7⟩ ∈ (s.services "n1").held := by
    rw [← mem_captureState, hone]
    exact List.mem_singleton.mpr rfl
  rw [← hsame, ← mem_captureState, htwo] at hheld
  cases hheld

end CronCluster
end Westcoast
