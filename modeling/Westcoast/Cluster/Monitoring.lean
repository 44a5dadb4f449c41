import Westcoast.Actor.Monitors
import Mathlib.Data.Set.Function

/-!
# Monitors across nodes

The namespace of a target is its node; but the manager goes by the actor ID alone, the runtime
notifies its own monitors only, and no membership event reaches the manager. A step is right exactly
if these three make no difference (`exact_iff_fits`).
-/
namespace Westcoast.Cluster

open Lib List Option MonitoredRuntime Function MonitorManager

variable {π : Type}

/-- The operations that may end an actor, or its first start. They are actions of their
own. -/
def mayEnd : RuntimeAction π → Bool
  | .createActor .. | .stop .. => true
  | .process _ (.failed decision hookOk) => !(decision = .restart && hookOk)
  | _ => false

inductive MonitorAction (π : Type)
  /-- Any other operation of a node's runtime. -/
  | runtime (node : String) (op : RuntimeAction π)
  | spawn (node id : String) (nilHandler : Bool) (capacity : ℤ)
  | started (node id : String)
  | ends (node id : String) (path : TerminalPath)
  | monitor (node : String) (watcher target : PID)
  | demonitor (node : String) (ref : MonitorRef)
  /-- The node is told that a member has failed. -/
  | memberFailed (node member : String)

inductive MonitorEvent
  /-- `Monitor` returned the reference. -/
  | monitored (node : String) (ref : MonitorRef) (watcher target : PID)
  /-- `Demonitor` cancelled the monitor. -/
  | cancelled (node : String) (ref : MonitorRef)
  /-- The message was sent to the watcher. -/
  | sent (node : String) (watcher : PID) (message : DownMessage)
  deriving DecidableEq

def MonitorEvent.about (node : String) (ref : MonitorRef) : MonitorEvent → Prop
  | .monitored node' ref' _ _ | .cancelled node' ref' => node' = node ∧ ref' = ref
  | .sent node' _ message => node' = node ∧ message.ref = ref

abbrev Monitored (π : Type) := String → MonitoredRuntime π

namespace Monitored

def new (remoteSend : String → Option (PID → PIDDeliveryOutcome)) : Monitored π :=
  fun node => ⟨.new node (remoteSend node), .new⟩

def set (s : Monitored π) (node : String) (r : MonitoredRuntime π) : Monitored π :=
  Function.update s node r

/-- The node of the actor that an identifier addresses, as a node sends to it. -/
def home (s : Monitored π) (node : String) (pid : PID) : String :=
  if (s node).remoteSend.isSome && pid.isRemote (s node).nodeID then pid.ns else node

variable [Inhabited π] (down : DownMessage → π)

/-- One operation of a node. The rest of `OnMemberEvent` has no part in the monitors. -/
def step (s : Monitored π) : MonitorAction π → Option (Monitored π × List MonitorEvent)
  | .runtime node op =>
    if mayEnd op then none
    else ((s node).toRuntime.step op).map fun r => (s.set node ((s node).after r.1), [])
  | .spawn node id nilHandler capacity =>
    (((s node).spawn id nilHandler capacity).toOption).map fun rt =>
      (s.set node ((s node).after rt), [])
  | .started node id =>
    ((s node).runStartHook id true).map fun rt => (s.set node ((s node).after rt), [])
  | .ends node id path =>
    ((s node).endsBy down id path).map fun r =>
      (s.set node r.2, r.1.map fun m => .sent node m.1 m.2)
  | .monitor node watcher target =>
    let r := (s node).monitor watcher target
    some (s.set node r.2, [.monitored node r.1 watcher target])
  | .demonitor node ref =>
    let r := (s node).demonitor ref
    some (s.set node r.2, if r.1 then [.cancelled node ref] else [])
  | .memberFailed _ _ => some (s, [])

/-! ### What a step does to the monitors -/

/-- The effect of a step on the monitors of every node, in terms of its events. -/
structure Effect (s s' : Monitored π) (es : List MonitorEvent) : Prop where
  active : ∀ node ref watcher target, (s' node).monitors.active ref watcher target ↔
      ((s node).monitors.active ref watcher target ∨ .monitored node ref watcher target ∈ es) ∧
      .cancelled node ref ∉ es ∧ ∀ reason, .sent node watcher ⟨ref, target, reason⟩ ∉ es
  grows : ∀ node, (s node).monitors.table.seq ≤ (s' node).monitors.table.seq
  fresh : ∀ node ref watcher target, .monitored node ref watcher target ∈ es →
    (s node).monitors.table.seq < ref.id
  bounded : ∀ node ref, ∀ e ∈ es, e.about node ref → ref.id ≤ (s' node).monitors.table.seq

variable {s s' : Monitored π}

omit [Inhabited π] in
theorem Effect.of_same (h : ∀ node, (s' node).monitors = (s node).monitors) : Effect s s' [] where
  active node ref watcher target := by simp [h node]
  grows node := by rw [h node]
  fresh _ _ _ _ hmem := nomatch hmem
  bounded _ _ _ hmem := nomatch hmem

omit [Inhabited π] in
theorem monitors_set_after (s : Monitored π) (node : String) (rt : Runtime π) (k : String) :
    (s.set node ((s node).after rt) k).monitors = (s k).monitors := by
  by_cases hk : k = node
  · rw [hk, set, update_self]
    rfl
  · rw [set, update_of_ne hk]

variable {node : String} {r : MonitoredRuntime π} {es tr : List MonitorEvent}

omit [Inhabited π] in
theorem Effect.of_node (hown : ∀ e ∈ es, ∀ k ref, e.about k ref → k = node)
    (hactive : ∀ ref watcher target, r.monitors.active ref watcher target ↔
      ((s node).monitors.active ref watcher target ∨ .monitored node ref watcher target ∈ es) ∧
        .cancelled node ref ∉ es ∧ ∀ reason, .sent node watcher ⟨ref, target, reason⟩ ∉ es)
    (hgrows : (s node).monitors.table.seq ≤ r.monitors.table.seq)
    (hfresh : ∀ ref watcher target, .monitored node ref watcher target ∈ es →
      (s node).monitors.table.seq < ref.id)
    (hbounded : ∀ ref, ∀ e ∈ es, e.about node ref → ref.id ≤ r.monitors.table.seq) :
    Effect s (s.set node r) es where
  active k ref watcher target := by
    by_cases hk : k = node
    · subst hk
      rw [set, update_self]
      exact hactive ref watcher target
    · rw [set, update_of_ne hk]
      have hnone : ∀ e ∈ es, ¬ e.about k ref := fun e he habout => hk (hown e he k ref habout)
      constructor
      · exact fun h => ⟨.inl h, fun he => hnone _ he ⟨rfl, rfl⟩,
          fun reason he => hnone _ he ⟨rfl, rfl⟩⟩
      · rintro ⟨h | he, -⟩
        · exact h
        · exact absurd ⟨rfl, rfl⟩ (hnone _ he)
  grows k := by
    by_cases hk : k = node
    · rw [hk, set, update_self]
      exact hgrows
    · rw [set, update_of_ne hk]
  fresh k ref watcher target he := by
    obtain rfl := hown _ he k ref ⟨rfl, rfl⟩
    exact hfresh ref watcher target he
  bounded k ref e he habout := by
    obtain rfl := hown e he k ref habout
    rw [set, update_self]
    exact hbounded ref e he habout

omit [Inhabited π] in
theorem effect_monitor (s : Monitored π) (node : String) (watcher target : PID) :
    Effect s (s.set node ((s node).monitor watcher target).2)
      [.monitored node ((s node).monitor watcher target).1 watcher target] := by
  refine .of_node ?_ (fun ref w p => ?_) (Nat.le_succ _) ?_ ?_
  · intro e he k ref habout
    cases mem_singleton.mp he
    exact habout.1.symm
  · refine ((s node).monitors.active_add ref w p watcher target).trans ?_
    simp [monitor]
  · intro ref w p he
    cases mem_singleton.mp he
    exact Nat.lt_succ_self _
  · intro ref e he habout
    cases mem_singleton.mp he
    obtain ⟨-, rfl⟩ := habout
    exact Nat.le_refl _

omit [Inhabited π] in
theorem effect_demonitor (s : Monitored π) (node : String) (ref : MonitorRef) :
    Effect s (s.set node ((s node).demonitor ref).2)
      (if ((s node).demonitor ref).1 then [.cancelled node ref] else []) := by
  have hseq := (s node).monitors.seq_remove ref
  by_cases hfound : ((s node).demonitor ref).1 = true
  · rw [if_pos hfound]
    refine .of_node ?_ (fun ref' w p => ?_) hseq.ge (by simp) ?_
    · intro e he k ref' habout
      cases mem_singleton.mp he
      exact habout.1.symm
    · refine ((s node).monitors.active_remove ref' w p ref).trans ?_
      simp
    · intro ref' e he habout
      cases mem_singleton.mp he
      obtain ⟨-, rfl⟩ := habout
      exact (le_of_remove hfound).trans hseq.ge
  · rw [if_neg hfound]
    refine .of_node (by simp) (fun ref' w p => ?_) hseq.ge (by simp) (by simp)
    refine ((s node).monitors.active_remove ref' w p ref).trans ?_
    -- nothing was removed, so the monitor is another one
    have hother : (s node).monitors.active ref' w p → ref' ≠ ref := by
      rintro hactive rfl
      exact not_active_of_remove w p (Bool.not_eq_true _ ▸ hfound) hactive
    simpa using hother

variable {down}

variable {sent : List (PID × DownMessage)}

theorem sent_mem_map {k : String} {w : PID} {m : DownMessage} :
    MonitorEvent.sent k w m ∈ sent.map (fun m => MonitorEvent.sent node m.1 m.2) ↔
      k = node ∧ (w, m) ∈ sent := by
  constructor
  · intro hmem
    obtain ⟨⟨w', m'⟩, hm, heq⟩ := mem_map.mp hmem
    cases heq
    exact ⟨rfl, hm⟩
  · rintro ⟨rfl, hm⟩
    exact mem_map.mpr ⟨_, hm, rfl⟩

variable {id : String} {path : TerminalPath}

theorem effect_ends (h : (s node).endsBy down id path = some (sent, r)) :
    Effect s (s.set node r) (sent.map fun m => .sent node m.1 m.2) := by
  refine .of_node ?_ (fun ref w p => ?_) (seq_endsBy h).ge (by simp) ?_
  · intro e he k ref habout
    obtain ⟨m, -, rfl⟩ := mem_map.mp he
    exact habout.1.symm
  · rw [active_endsBy h]
    simp [sent_mem_map]
  · intro ref e he habout
    obtain ⟨⟨w, ⟨ref', p, reason⟩⟩, hm, rfl⟩ := mem_map.mp he
    obtain ⟨-, rfl⟩ := habout
    rw [seq_endsBy h]
    exact active_le ((mem_endsBy h w p ref').mp ⟨_, hm⟩).1

variable {a : MonitorAction π}

/-- **Every step accounts for the monitors in its events.** -/
theorem effect_step (h : s.step down a = some (s', es)) : Effect s s' es := by
  cases a with
  | runtime node op =>
    simp only [step] at h
    split_ifs at h
    obtain ⟨r, -, heq⟩ := map_eq_some_iff.mp h
    cases heq
    exact .of_same fun k => monitors_set_after s node _ k
  | spawn node id nilHandler capacity | started node id =>
    obtain ⟨rt, -, heq⟩ := map_eq_some_iff.mp h
    cases heq
    exact .of_same fun k => monitors_set_after s node _ k
  | ends node id path =>
    obtain ⟨⟨sent, r⟩, hends, heq⟩ := map_eq_some_iff.mp h
    cases heq
    exact effect_ends hends
  | monitor node watcher target =>
    cases h
    exact effect_monitor s node watcher target
  | demonitor node ref =>
    cases h
    exact effect_demonitor s node ref
  | memberFailed node member =>
    cases h
    exact .of_same fun _ => rfl

/-! ### What the monitors are, by the history -/

/-- The monitor was set, and has been neither cancelled nor served. -/
structure Pending (tr : List MonitorEvent) (node : String) (ref : MonitorRef)
    (watcher target : PID) : Prop where
  set : .monitored node ref watcher target ∈ tr
  kept : .cancelled node ref ∉ tr
  unserved : ∀ reason, .sent node watcher ⟨ref, target, reason⟩ ∉ tr

structure Recorded (tr : List MonitorEvent) (s : Monitored π) : Prop where
  active : ∀ node ref watcher target,
    (s node).monitors.active ref watcher target ↔ Pending tr node ref watcher target
  bounded : ∀ node ref, ∀ e ∈ tr, e.about node ref → ref.id ≤ (s node).monitors.table.seq

omit [Inhabited π] in
theorem Recorded.snoc (h : Recorded tr s) (he : Effect s s' es) : Recorded (tr ++ es) s' where
  active node ref watcher target := by
    rw [he.active, h.active]
    -- a new reference does not occur in the history
    have hnew : ∀ e ∈ tr, e.about node ref → .monitored node ref watcher target ∉ es := by
      intro e hmem habout hnew
      have hle := h.bounded node ref e hmem habout
      have hlt := he.fresh _ _ _ _ hnew
      omega
    constructor
    · rintro ⟨hold | hset, hkept, hunserved⟩
      · refine ⟨mem_append_left _ hold.set, ?_, fun reason hmem => ?_⟩
        · exact fun hmem => (mem_append.mp hmem).elim hold.kept hkept
        · exact (mem_append.mp hmem).elim (hold.unserved reason) (hunserved reason)
      · refine ⟨mem_append_right _ hset, ?_, fun reason hmem => ?_⟩
        · exact fun hmem => (mem_append.mp hmem).elim
            (fun hold => hnew _ hold ⟨rfl, rfl⟩ hset) hkept
        · exact (mem_append.mp hmem).elim
            (fun hold => hnew _ hold ⟨rfl, rfl⟩ hset) (hunserved reason)
    · rintro ⟨hset, hkept, hunserved⟩
      have hkept' := fun hmem => hkept (mem_append_right tr hmem)
      have hunserved' := fun reason hmem => hunserved reason (mem_append_right tr hmem)
      refine ⟨?_, hkept', hunserved'⟩
      rcases mem_append.mp hset with hold | hset
      · exact .inl ⟨hold, fun hmem => hkept (mem_append_left es hmem),
          fun reason hmem => hunserved reason (mem_append_left es hmem)⟩
      · exact .inr hset
  bounded node ref e hmem habout := by
    rcases mem_append.mp hmem with hold | hnew
    · exact (h.bounded node ref e hold habout).trans (he.grows node)
    · exact he.bounded node ref e hnew habout

theorem recorded_of_run {remoteSend : String → Option (PID → PIDDeliveryOutcome)}
    (hrun : Run (step down) anyStep (new remoteSend) tr s) : Recorded tr s := by
  refine Run.invariant (fun tr s => Recorded tr s) ?_ ?_ hrun
  · refine ⟨fun node ref watcher target => ?_, fun _ _ _ hmem => nomatch hmem⟩
    exact iff_of_false (not_active_new ref watcher target) fun h => nomatch h.set
  · intro tr s a s' es hrec _ hstep
    exact hrec.snoc (effect_step hstep)

/-! ### Which messages a step is to send -/

/-- A monitor of this target waits for the step: its actor ends, or its node is told to have failed.
-/
def triggers (s : Monitored π) (a : MonitorAction π) (node : String) (target : PID) : Prop :=
  match a with
  | .ends node' id _ => s.home node target = node' ∧ target.actorID = id
  | .memberFailed node' member => node' = node ∧ s.home node target = member
  | _ => False

/-- The step sends the messages of the monitors that wait for it, each once, and no
others. -/
structure Exact (tr : List MonitorEvent) (s : Monitored π) (a : MonitorAction π)
    (es : List MonitorEvent) : Prop where
  sent : ∀ node watcher ref target, (∃ reason, .sent node watcher ⟨ref, target, reason⟩ ∈ es) ↔
      Pending tr node ref watcher target ∧ s.triggers a node target
  once : es.Nodup

/-- Where an actor ends, the monitors on its ID are its own, kept by its own node, and its first
start has not failed; where a failed member is reported, no monitor waits for it. -/
def Fits (s : Monitored π) (a : MonitorAction π) : Prop :=
  match a with
  | .ends node' id path => ∀ node ref watcher target,
      (s node).monitors.active ref watcher target → target.actorID = id →
        (s.home node target = node' ↔ node = node' ∧ path ≠ .startHook)
  | .memberFailed node member => ∀ ref watcher target,
      (s node).monitors.active ref watcher target → s.home node target ≠ member
  | _ => True

omit [Inhabited π] in
theorem exact_of_silent (hes : ∀ node watcher message, .sent node watcher message ∉ es)
    (ha : ∀ node target, ¬ s.triggers a node target) (hnodup : es.Nodup) : Exact tr s a es where
  sent _ _ _ _ := iff_of_false (fun ⟨_, hmem⟩ => hes _ _ _ hmem) fun h => ha _ _ h.2
  once := hnodup

theorem exact_ends_iff (hrec : Recorded tr s) {node' : String}
    (h : (s node').endsBy down id path = some (sent, r)) :
    Exact tr s (.ends node' id path) (sent.map fun m => .sent node' m.1 m.2) ↔
      Fits s (.ends node' id path) := by
  have hsent : ∀ node watcher ref target,
      (∃ reason, MonitorEvent.sent node watcher ⟨ref, target, reason⟩ ∈
        sent.map fun m => MonitorEvent.sent node' m.1 m.2) ↔
      node = node' ∧ (s node).monitors.active ref watcher target ∧ target.actorID = id ∧
        path ≠ .startHook := by
    intro node watcher ref target
    simp only [sent_mem_map, exists_and_left]
    constructor
    · rintro ⟨rfl, hm⟩
      exact ⟨rfl, (mem_endsBy h watcher target ref).mp hm⟩
    · rintro ⟨rfl, hm⟩
      exact ⟨rfl, (mem_endsBy h watcher target ref).mpr hm⟩
  constructor
  · intro hexact node ref watcher target hactive hid
    have hiff := (hsent node watcher ref target).symm.trans (hexact.sent node watcher ref target)
    constructor
    · intro hhome
      obtain ⟨hnode, -, -, hpath⟩ :=
        hiff.mpr ⟨(hrec.active node ref watcher target).mp hactive, hhome, hid⟩
      exact ⟨hnode, hpath⟩
    · rintro ⟨hnode, hpath⟩
      exact (hiff.mp ⟨hnode, hactive, hid, hpath⟩).2.1
  · intro hfits
    refine ⟨fun node watcher ref target => (hsent node watcher ref target).trans ?_, ?_⟩
    · rw [← hrec.active]
      constructor
      · rintro ⟨hnode, hactive, hid, hpath⟩
        exact ⟨hactive, (hfits node ref watcher target hactive hid).mpr ⟨hnode, hpath⟩, hid⟩
      · rintro ⟨hactive, hhome, hid⟩
        obtain ⟨hnode, hpath⟩ := (hfits node ref watcher target hactive hid).mp hhome
        exact ⟨hnode, hactive, hid, hpath⟩
    · refine (nodup_endsBy h).map ?_
      rintro ⟨w, m⟩ ⟨w', m'⟩ heq
      cases heq
      rfl

omit [Inhabited π] in
theorem exact_memberFailed_iff (hrec : Recorded tr s) (node member : String) :
    Exact tr s (.memberFailed node member) [] ↔ Fits s (.memberFailed node member) := by
  constructor
  · intro hexact ref watcher target hactive hhome
    obtain ⟨reason, hmem⟩ := (hexact.sent node watcher ref target).mpr
      ⟨(hrec.active node ref watcher target).mp hactive, rfl, hhome⟩
    cases hmem
  · intro hfits
    refine ⟨fun node' watcher ref target => iff_of_false (fun ⟨_, hmem⟩ => nomatch hmem) ?_,
      nodup_nil⟩
    rintro ⟨hpending, hnode, hhome⟩
    have hactive := (hrec.active node' ref watcher target).mpr hpending
    rw [← hnode] at hactive hhome
    exact hfits ref watcher target hactive hhome

/-- Nodes with a transport on which every message arrives. -/
def linked : Monitored String := new fun _ => some fun _ => .delivered

def downText (message : DownMessage) : String := message.target.actorID ++ " is down"

end Monitored
end Westcoast.Cluster
