import Westcoast.Actor.Operations
import Westcoast.Cluster.Election

/-!
# Daemons

`daemonset.go` on one node. The manager knows the latest spec of a daemon and a flag that it runs;
the actor is in the runtime, under the daemon's name. `slot` is what there is under a name, and
`Slot.reconcile` is `reconcileDaemon` on it.
-/
namespace Westcoast.Cluster

open Lib Option

/-- `DaemonSpec`: a nil handler or predicate is `none`. Of the options, the mailbox capacity and the
start hook count. -/
structure DaemonSpec (η : Type) where
  name : String
  handler : Option η
  capacity : ℤ
  hookOk : Bool
  placement : Option (NodeMeta → Bool)

structure Daemon (η : Type) where
  spec : DaemonSpec η
  running : Bool

/-- `DaemonSetManager` with its runtime and the actors' handlers; `cluster` is the metadata `Self`
returns, if any. -/
structure DaemonSetManager (η π : Type) where
  runtime : Runtime π
  handlers : AList (fun _ : String => η)
  cluster : Option NodeMeta
  daemons : AList (fun _ : String => Daemon η)
  started : Bool

/-- The calls of the manager and of its cluster. The loops range over a map, in the order given. -/
inductive DaemonAction (η : Type)
  | register (spec : DaemonSpec η)
  | start (order : List String)
  | stop (order : List String)
  | updateTags (tags : List (String × String))
  | removeTag (key : String)
  | reconcile (order : List String)

def NodeMeta.removeTag (m : NodeMeta) (key : String) : NodeMeta :=
  { m with tags := m.tags.filter fun t => t.1 ≠ key }

def NodeMeta.setTag (m : NodeMeta) (tag : String × String) : NodeMeta :=
  { m with tags := (m.removeTag tag.1).tags ++ [tag] }

/-- The predicate of a spec; without one the daemon runs everywhere. -/
def DaemonSpec.accepts {η : Type} (spec : DaemonSpec η) (self : NodeMeta) : Bool :=
  match spec.placement with
  | none => true
  | some placement => placement self

namespace DaemonSetManager

variable {η π : Type}

def new (rt : Runtime π) (handlers : AList (fun _ : String => η)) (cluster : Option NodeMeta) :
    DaemonSetManager η π where
  runtime := rt
  handlers := handlers
  cluster := cluster
  daemons := ∅
  started := false

def localMeta (dm : DaemonSetManager η π) : NodeMeta :=
  dm.cluster.getD ⟨dm.runtime.nodeID, "", []⟩

def shouldRunLocally (dm : DaemonSetManager η π) (spec : DaemonSpec η) : Bool :=
  spec.accepts dm.localMeta

def running (dm : DaemonSetManager η π) : List String :=
  (dm.daemons.entries.filter fun e => e.2.running).map fun e => e.1

/-- `reconcileDaemon`, for a daemon that should no longer run. -/
def stopDaemon (dm : DaemonSetManager η π) (name : String) (d : Daemon η) : DaemonSetManager η π :=
  { dm with
    runtime := ((dm.runtime.unregisterName name).2.stop name).2
    daemons := dm.daemons.insert name { d with running := false } }

/-- `Stop` for one daemon, without `UnregisterName`. -/
def stopRunning (dm : DaemonSetManager η π) (name : String) : DaemonSetManager η π :=
  match dm.daemons.lookup name with
  | none => dm
  | some d =>
    if d.running then
      { dm with
        runtime := (dm.runtime.stop name).2
        daemons := dm.daemons.insert name { d with running := false } }
    else dm

def updateTags (dm : DaemonSetManager η π) (tags : List (String × String)) : DaemonSetManager η π :=
  { dm with cluster := dm.cluster.map fun self => tags.foldl NodeMeta.setTag self }

def removeTag (dm : DaemonSetManager η π) (key : String) : DaemonSetManager η π :=
  { dm with cluster := dm.cluster.map fun self => self.removeTag key }

/-- The daemons are where they should be: each is reported iff its latest predicate accepts the
node, and a reported one has its actor, which runs the handler of the latest spec. -/
def Placed (dm : DaemonSetManager η π) : Prop :=
  ∀ name d, dm.daemons.lookup name = some d →
    (name ∈ dm.running ↔ dm.shouldRunLocally d.spec = true) ∧
    (name ∈ dm.running → ∃ a h, dm.runtime.registry.lookup name = some a ∧
      a.status ≠ .stopped ∧ dm.handlers.lookup name = some h ∧ d.spec.handler = some h)

/-- Every daemon that should run can be had: its hook succeeds, and if not marked it has a name, a
handler and no actor left. -/
def Startable (dm : DaemonSetManager η π) : Prop :=
  ∀ name d, dm.daemons.lookup name = some d → dm.shouldRunLocally d.spec = true →
    d.spec.hookOk = true ∧
    (d.running = false → name ≠ "" ∧ d.spec.handler.isSome = true ∧
      dm.runtime.registry.lookup name = none)

variable [Inhabited π]

/-- `reconcileDaemon`, for a daemon that should run and does not. -/
def startDaemon (dm : DaemonSetManager η π) (name : String) (d : Daemon η) : DaemonSetManager η π :=
  match dm.runtime.createActor d.spec.name d.spec.handler.isNone d.spec.capacity d.spec.hookOk with
  | .error _ => dm
  | .ok rt =>
    { dm with
      runtime := (rt.registerName d.spec.name d.spec.name rt.nodeID).2
      handlers := d.spec.handler.elim dm.handlers fun h => dm.handlers.insert d.spec.name h
      daemons := dm.daemons.insert name { d with running := true } }

/-- `reconcileDaemon`: the predicate against what is running. -/
def reconcileDaemon (dm : DaemonSetManager η π) (name : String) : DaemonSetManager η π :=
  match dm.daemons.lookup name with
  | none => dm
  | some d =>
    if dm.shouldRunLocally d.spec && !d.running then dm.startDaemon name d
    else if !dm.shouldRunLocally d.spec && d.running then dm.stopDaemon name d
    else dm

def step (dm : DaemonSetManager η π) : DaemonAction η → Option (DaemonSetManager η π × List Unit)
  | .register spec =>
    let dm := { dm with daemons := dm.daemons.insert spec.name ⟨spec, false⟩ }
    some (if dm.started then dm.reconcileDaemon spec.name else dm, [])
  | .start order =>
    if order.isPerm dm.daemons.keys then
      some (order.foldl reconcileDaemon { dm with started := true }, [])
    else none
  | .stop order =>
    if order.isPerm dm.daemons.keys then
      some (order.foldl stopRunning { dm with started := false }, [])
    else none
  | .updateTags tags => some (dm.updateTags tags, [])
  | .removeTag key => some (dm.removeTag key, [])
  | .reconcile order =>
    if order.isPerm dm.daemons.keys then
      some (if dm.started then order.foldl reconcileDaemon dm else dm, [])
    else none

end DaemonSetManager

structure Slot (η π : Type) where
  daemon : Option (Daemon η)
  actor : Option (ActorEntry π)
  handler : Option η

namespace Slot

variable {η π : Type}

def stop (s : Slot η π) (d : Daemon η) : Slot η π :=
  { s with
    daemon := some { d with running := false }
    actor := s.actor.map fun a =>
      if a.status = .stopped then a
      else { a with status := .stopped, mailbox := a.mailbox.close } }

def stopRunning (s : Slot η π) : Slot η π :=
  match s.daemon with
  | none => s
  | some d => if d.running then s.stop d else s

/-- The daemon is under its spec's name, and if it runs it has the actor the spec asks for. -/
def Kept (name : String) (s : Slot η π) : Prop :=
  ∀ d, s.daemon = some d → d.spec.name = name ∧
    (d.running = true → ∃ a h, s.actor = some a ∧ (a.status ≠ .stopped ↔ d.spec.hookOk = true) ∧
      s.handler = some h ∧ d.spec.handler = some h)

variable [Inhabited π]

def start (s : Slot η π) (name : String) (d : Daemon η) : Slot η π :=
  if name = "" ∨ d.spec.handler = none ∨ s.actor.isSome = true then s
  else
    { daemon := some { d with running := true }
      actor := some (if d.spec.hookOk then ⟨.running, .new d.spec.capacity, 0⟩
        else ⟨.stopped, (Mailbox.new d.spec.capacity).close, 0⟩)
      handler := d.spec.handler }

def reconcile (self : NodeMeta) (name : String) (s : Slot η π) : Slot η π :=
  match s.daemon with
  | none => s
  | some d =>
    if d.spec.accepts self && !d.running then s.start name d
    else if !d.spec.accepts self && d.running then s.stop d
    else s

/-- The daemon of the name is reported iff its predicate accepts the node, and then has its
actor. -/
def Right (self : NodeMeta) (s : Slot η π) : Prop :=
  ∀ d, s.daemon = some d → (d.running = true ↔ d.spec.accepts self = true) ∧
    (d.running = true → ∃ a h, s.actor = some a ∧ a.status ≠ .stopped ∧ s.handler = some h ∧
      d.spec.handler = some h)

/-- If the daemon of the name should run, it does or it can be started. -/
def Ready (self : NodeMeta) (name : String) (s : Slot η π) : Prop :=
  ∀ d, s.daemon = some d → d.spec.accepts self = true → d.spec.hookOk = true ∧
    (d.running = false → name ≠ "" ∧ d.spec.handler.isSome = true ∧ s.actor = none)

section

variable {s : Slot η π} {name : String} {self : NodeMeta} {d : Daemon η}

omit [Inhabited π] in
theorem Kept.stop (h : s.Kept name) (hd : s.daemon = some d) : (s.stop d).Kept name := by
  rintro d' ⟨⟩
  exact ⟨(h d hd).1, fun hrun => nomatch hrun⟩

omit [Inhabited π] in
theorem Kept.stopRunning (h : s.Kept name) : s.stopRunning.Kept name := by
  cases hd : s.daemon with
  | none => simpa only [Slot.stopRunning, hd] using h
  | some d =>
    simp only [Slot.stopRunning, hd]
    split_ifs with hrun
    · exact h.stop hd
    · exact h

theorem start_of_free (hname : name ≠ "") {h : η} (hh : d.spec.handler = some h)
    (hfree : s.actor = none) : s.start name d =
      { daemon := some { d with running := true }
        actor := some (if d.spec.hookOk then ⟨.running, .new d.spec.capacity, 0⟩
          else ⟨.stopped, (Mailbox.new d.spec.capacity).close, 0⟩)
        handler := some h } := by
  rw [start, if_neg, hh]
  rintro (hempty | hnil | hsome)
  · exact hname hempty
  · rw [hh] at hnil
    cases hnil
  · rw [hfree] at hsome
    cases hsome

theorem start_cases (s : Slot η π) (name : String) (d : Daemon η) :
    s.start name d = s ∧ ¬ (name ≠ "" ∧ d.spec.handler.isSome = true ∧ s.actor = none) ∨
      ∃ a h, d.spec.handler = some h ∧ (a.status ≠ .stopped ↔ d.spec.hookOk = true) ∧
        (name ≠ "" ∧ d.spec.handler.isSome = true ∧ s.actor = none) ∧
        s.start name d = ⟨some { d with running := true }, some a, some h⟩ := by
  by_cases hfree : name ≠ "" ∧ d.spec.handler.isSome = true ∧ s.actor = none
  · obtain ⟨h, hh⟩ := isSome_iff_exists.mp hfree.2.1
    refine .inr ⟨_, h, hh, ?_, hfree, start_of_free hfree.1 hh hfree.2.2⟩
    cases d.spec.hookOk <;> simp
  · refine .inl ⟨if_pos ?_, hfree⟩
    by_contra hrefused
    simp only [not_or, Bool.not_eq_true, isSome_eq_false_iff, isNone_iff_eq_none]
      at hrefused
    exact hfree ⟨hrefused.1, isSome_iff_ne_none.mpr hrefused.2.1, hrefused.2.2⟩

theorem Kept.start (h : s.Kept name) (hd : s.daemon = some d) : (s.start name d).Kept name := by
  rcases start_cases s name d with ⟨heq, -⟩ | ⟨a, f, hh, hstatus, -, heq⟩
  · rw [heq]
    exact h
  · rw [heq]
    rintro d' ⟨⟩
    exact ⟨(h d hd).1, fun _ => ⟨a, f, rfl, hstatus, rfl, hh⟩⟩

theorem Kept.reconcile (h : s.Kept name) (self : NodeMeta) : (s.reconcile self name).Kept name := by
  cases hd : s.daemon with
  | none => simpa only [Slot.reconcile, hd] using h
  | some d =>
    simp only [Slot.reconcile, hd]
    split_ifs with hstart hstop
    · exact h.start hd
    · exact h.stop hd
    · exact h

/-- **When reconciling a name gets it right**: a daemon that should run does so with its own actor,
or can be started. -/
theorem right_reconcile_iff (h : s.Kept name) :
    (s.reconcile self name).Right self ↔ s.Ready self name := by
  cases hd : s.daemon with
  | none => simp [Slot.reconcile, hd, Right, Ready]
  | some d =>
    have hready : s.Ready self name ↔ (d.spec.accepts self = true → d.spec.hookOk = true ∧
        (d.running = false → name ≠ "" ∧ d.spec.handler.isSome = true ∧ s.actor = none)) := by
      simp [Ready, hd]
    rw [hready]
    cases hacc : d.spec.accepts self with
    | false =>
      -- the daemon is stopped, or was not running
      refine iff_of_true ?_ (fun hc => nomatch hc)
      simp only [Slot.reconcile, hd, hacc]
      cases hrun : d.running with
      | false =>
        intro d' hd'
        cases hd.symm.trans hd'
        simp [hacc, hrun]
      | true =>
        rintro d' ⟨⟩
        simp [hacc]
    | true =>
      simp only [Slot.reconcile, hd, hacc, true_implies]
      cases hrun : d.running with
      | true =>
        -- it runs already, with the actor it was given
        obtain ⟨a, f, ha, hstatus, hhandler, hspec⟩ := (h d hd).2 hrun
        simp only [Bool.not_true, Bool.and_false, Bool.false_and, Bool.false_eq_true,
          if_false, Bool.true_eq_false, false_implies, and_true]
        rw [← hstatus]
        constructor
        · intro hright
          obtain ⟨a', -, ha', hrun', -⟩ := (hright d hd).2 hrun
          cases ha.symm.trans ha'
          exact hrun'
        · intro hrun' d' hd'
          cases hd.symm.trans hd'
          exact ⟨iff_of_true hrun hacc, fun _ => ⟨a, f, ha, hrun', hhandler, hspec⟩⟩
      | false =>
        simp only [Bool.not_false, Bool.and_self, if_true, true_implies]
        rcases start_cases s name d with ⟨heq, hrefused⟩ | ⟨a, f, hh, hstatus, hfree, heq⟩
        · rw [heq]
          refine iff_of_false (fun hright => ?_) fun hr => hrefused hr.2
          have hstarted := (hright d hd).1.mpr hacc
          rw [hrun] at hstarted
          cases hstarted
        · rw [heq, ← hstatus]
          constructor
          · intro hright
            obtain ⟨a', -, ha', hrun', -⟩ := (hright _ rfl).2 rfl
            cases ha'
            exact ⟨hrun', hfree⟩
          · rintro ⟨hrun', -⟩ d' ⟨⟩
            exact ⟨iff_of_true rfl hacc, fun _ => ⟨a, f, rfl, hrun', rfl, hh⟩⟩

end

end Slot

namespace DaemonSetManager

variable {η π : Type}

def slot (dm : DaemonSetManager η π) (name : String) : Slot η π :=
  ⟨dm.daemons.lookup name, dm.runtime.registry.lookup name, dm.handlers.lookup name⟩

variable {dm : DaemonSetManager η π} {name : String}

theorem mem_running :
    name ∈ dm.running ↔ ∃ d, dm.daemons.lookup name = some d ∧ d.running = true := by
  simp only [running, List.mem_map, List.mem_filter]
  constructor
  · rintro ⟨⟨name, d⟩, ⟨hmem, hrun⟩, rfl⟩
    exact ⟨d, AList.mem_lookup_iff.mpr hmem, hrun⟩
  · rintro ⟨d, hd, hrun⟩
    exact ⟨⟨name, d⟩, ⟨AList.mem_lookup_iff.mp hd, hrun⟩, rfl⟩

theorem slot_stopDaemon (dm : DaemonSetManager η π) (name name' : String) (d : Daemon η) :
    (dm.stopDaemon name d).slot name' =
      if name' = name then (dm.slot name).stop d else dm.slot name' := by
  simp only [slot, stopDaemon, lookup_insert_ite, Runtime.lookup_stop,
    Runtime.registry_unregisterName]
  split_ifs with hname
  · rw [hname, Slot.stop]
  · rfl

theorem slot_eq_ite (dm : DaemonSetManager η π) (name name' : String) :
    dm.slot name' = if name' = name then dm.slot name else dm.slot name' := by
  split_ifs with hname
  · rw [hname]
  · rfl

theorem slot_stopRunning (dm : DaemonSetManager η π) (name name' : String) :
    (dm.stopRunning name).slot name' =
      if name' = name then (dm.slot name).stopRunning else dm.slot name' := by
  cases hd : dm.daemons.lookup name with
  | none =>
    have hslot : (dm.slot name).stopRunning = dm.slot name := by simp [Slot.stopRunning, slot, hd]
    rw [hslot, ← slot_eq_ite, stopRunning, hd]
  | some d =>
    by_cases hrun : d.running = true
    · have hslot : (dm.slot name).stopRunning = (dm.slot name).stop d := by
        simp [Slot.stopRunning, slot, hd, hrun]
      rw [hslot, stopRunning, hd]
      simp only [if_pos hrun, slot, lookup_insert_ite, Runtime.lookup_stop]
      split_ifs with hname
      · rw [hname, Slot.stop]
      · rfl
    · have hslot : (dm.slot name).stopRunning = dm.slot name := by
        simp [Slot.stopRunning, slot, hd, hrun]
      rw [hslot, ← slot_eq_ite, stopRunning, hd]
      simp only [if_neg hrun]

variable [Inhabited π]

theorem slot_startDaemon (dm : DaemonSetManager η π) (name' : String) {d : Daemon η}
    (hname : d.spec.name = name) : (dm.startDaemon name d).slot name' =
      if name' = name then (dm.slot name).start name d else dm.slot name' := by
  subst hname
  by_cases hrefused : d.spec.name = "" ∨ d.spec.handler = none ∨
      (dm.runtime.registry.lookup d.spec.name).isSome = true
  · have hslot : (dm.slot d.spec.name).start d.spec.name d = dm.slot d.spec.name :=
      if_pos hrefused
    rw [← isNone_iff_eq_none] at hrefused
    obtain ⟨e, he⟩ := Runtime.createActor_refused d.spec.capacity d.spec.hookOk hrefused
    rw [hslot, ← slot_eq_ite, startDaemon, he]
  · have hslot : (dm.slot d.spec.name).start d.spec.name d = _ := if_neg hrefused
    rw [hslot]
    simp only [not_or, ← isNone_iff_eq_none] at hrefused
    obtain ⟨hempty, hnil, hdup⟩ := hrefused
    obtain ⟨h, hh⟩ : ∃ h, d.spec.handler = some h :=
      ne_none_iff_exists'.mp fun hnone => hnil (isNone_iff_eq_none.mpr hnone)
    rw [startDaemon, Runtime.createActor, if_neg hempty, if_neg hnil, if_neg hdup]
    simp only [slot, Runtime.registry_registerName, lookup_insert_ite, hh, elim_some]
    split_ifs <;> rfl

theorem slot_reconcileDaemon (hname : (dm.slot name).Kept name) (name' : String) :
    (dm.reconcileDaemon name).slot name' =
      if name' = name then (dm.slot name).reconcile dm.localMeta name else dm.slot name' := by
  cases hd : dm.daemons.lookup name with
  | none =>
    have hslot : (dm.slot name).reconcile dm.localMeta name = dm.slot name := by
      simp [Slot.reconcile, slot, hd]
    rw [hslot, ← slot_eq_ite, reconcileDaemon, hd]
  | some d =>
    have hdaemon : (dm.slot name).daemon = some d := hd
    have hacc : dm.shouldRunLocally d.spec = d.spec.accepts dm.localMeta := rfl
    simp only [reconcileDaemon, hd, hacc, Slot.reconcile, hdaemon]
    cases d.spec.accepts dm.localMeta <;> cases d.running
    · exact slot_eq_ite dm name name'
    · exact slot_stopDaemon dm name name' d
    · exact slot_startDaemon dm name' (hname d hd).1
    · exact slot_eq_ite dm name name'

theorem localMeta_reconcileDaemon (dm : DaemonSetManager η π) (name : String) :
    (dm.reconcileDaemon name).localMeta = dm.localMeta := by
  cases hd : dm.daemons.lookup name with
  | none => rw [reconcileDaemon, hd]
  | some d =>
    simp only [reconcileDaemon, hd]
    split_ifs with hstart hstop
    · simp only [startDaemon]
      split
      · rfl
      · next rt hcreate =>
        have hnode : rt.nodeID = dm.runtime.nodeID := by
          simp only [Runtime.createActor] at hcreate
          split_ifs at hcreate <;> cases hcreate <;> rfl
        simp only [localMeta, Runtime.nodeID_registerName, hnode]
    · simp only [stopDaemon, localMeta, Runtime.nodeID_stop, Runtime.nodeID_unregisterName]
    · rfl

theorem localMeta_reconcileAll (dm : DaemonSetManager η π) (order : List String) :
    (order.foldl reconcileDaemon dm).localMeta = dm.localMeta := by
  induction order generalizing dm with
  | nil => rfl
  | cons name order ih => exact (ih _).trans (localMeta_reconcileDaemon dm name)

def Kept (dm : DaemonSetManager η π) : Prop :=
  ∀ name, (dm.slot name).Kept name

omit [Inhabited π] in
theorem Kept.stopRunning (h : dm.Kept) (name : String) : (dm.stopRunning name).Kept := by
  intro name'
  rw [slot_stopRunning]
  split_ifs with hname
  · subst hname
    exact (h name').stopRunning
  · exact h name'

theorem Kept.reconcileDaemon (h : dm.Kept) (name : String) : (dm.reconcileDaemon name).Kept := by
  intro name'
  rw [slot_reconcileDaemon (h name)]
  split_ifs with hname
  · subst hname
    exact (h name').reconcile _
  · exact h name'

theorem slot_reconcileAll (h : dm.Kept) {order : List String}
    (horder : order.Perm dm.daemons.keys) (name : String) :
    (order.foldl reconcileDaemon dm).slot name = (dm.slot name).reconcile dm.localMeta name := by
  have hnodup : order.Nodup := horder.nodup_iff.mpr dm.daemons.keys_nodup
  have hfold := view_foldl slot (fun name s => s.reconcile dm.localMeta name)
    (fun dm' => dm'.Kept ∧ dm'.localMeta = dm.localMeta)
    (fun dm' name h' =>
      ⟨h'.1.reconcileDaemon name, (localMeta_reconcileDaemon dm' name).trans h'.2⟩)
    (fun dm' name name' h' => by rw [slot_reconcileDaemon (h'.1 name), h'.2])
    hnodup ⟨h, rfl⟩ name
  rw [hfold]
  split_ifs with hmem
  · rfl
  · have hnone : (dm.slot name).daemon = none :=
      AList.lookup_eq_none.mpr fun hin => hmem (horder.mem_iff.mpr hin)
    simp only [Slot.reconcile, hnone]

theorem kept_step {dm' : DaemonSetManager η π} {a : DaemonAction η} {es : List Unit} (h : dm.Kept)
    (hs : dm.step a = some (dm', es)) : dm'.Kept := by
  cases a with
  | register spec =>
    cases hs
    have hreg : Kept { dm with daemons := dm.daemons.insert spec.name ⟨spec, false⟩ } := by
      intro name d hd
      simp only [slot, lookup_insert_ite] at hd
      split_ifs at hd with hname
      · cases hd
        exact ⟨hname.symm, fun hrun => nomatch hrun⟩
      · exact h name d hd
    split_ifs
    · exact hreg.reconcileDaemon spec.name
    · exact hreg
  | start order =>
    obtain ⟨-, heq⟩ := ite_none_right_eq_some.mp hs
    cases heq
    have hstarted : Kept { dm with started := true } := h
    exact List.foldlRecOn order _ hstarted fun _ h name _ => h.reconcileDaemon name
  | stop order =>
    obtain ⟨-, heq⟩ := ite_none_right_eq_some.mp hs
    cases heq
    have hstopped : Kept { dm with started := false } := h
    exact List.foldlRecOn order _ hstopped fun _ h name _ => h.stopRunning name
  | updateTags tags | removeTag key =>
    cases hs
    exact h
  | reconcile order =>
    obtain ⟨-, heq⟩ := ite_none_right_eq_some.mp hs
    cases heq
    split_ifs
    · exact List.foldlRecOn order _ h fun _ h name _ => h.reconcileDaemon name
    · exact h

theorem kept_run {rt : Runtime π} {handlers : AList (fun _ : String => η)}
    {cluster : Option NodeMeta} {tr : List Unit}
    (hrun : Run step anyStep (new rt handlers cluster) tr dm) : dm.Kept :=
  hrun.invariant_state Kept (fun _ _ hd => absurd hd (by simp [slot, new]))
    fun _ _ _ _ h _ hs => kept_step h hs

omit [Inhabited π] in
theorem placed_iff_slots : dm.Placed ↔ ∀ name, (dm.slot name).Right dm.localMeta := by
  refine forall_congr' fun name => forall_congr' fun d => forall_congr' fun hd => ?_
  have hmem : name ∈ dm.running ↔ d.running = true := by
    rw [mem_running]
    exact ⟨fun ⟨d', hd', hrun⟩ => Option.some.inj (hd.symm.trans hd') ▸ hrun,
      fun hrun => ⟨d, hd, hrun⟩⟩
  rw [hmem]
  rfl

/-- **Placement after `Reconcile`** is right iff before it every daemon that should run and is not
marked so can be started. (Start hooks succeed.) -/
theorem placed_iff {rt : Runtime π} {handlers : AList (fun _ : String => η)}
    {cluster : Option NodeMeta} {dm dm' : DaemonSetManager η π} {tr es : List Unit}
    {order : List String} (hrun : Run step anyStep (new rt handlers cluster) tr dm)
    (hstarted : dm.started = true) (hstep : dm.step (.reconcile order) = some (dm', es)) :
    dm'.Placed ↔ dm.Startable := by
  have hkept := kept_run hrun
  obtain ⟨horder, heq⟩ := ite_none_right_eq_some.mp hstep
  rw [if_pos hstarted] at heq
  cases heq
  have hperm : order.Perm dm.daemons.keys := List.isPerm_iff.mp horder
  rw [placed_iff_slots, localMeta_reconcileAll]
  have hright : ∀ name, ((order.foldl reconcileDaemon dm).slot name).Right dm.localMeta ↔
      (dm.slot name).Ready dm.localMeta name := by
    intro name
    rw [slot_reconcileAll hkept hperm]
    exact Slot.right_reconcile_iff (hkept name)
  exact forall_congr' hright

def gpuWorker (handler : ℕ) : DaemonSpec ℕ :=
  ⟨"gpu-worker", some handler, 4, true, some fun self => self.tags.any fun t => t.1 = "gpus"⟩

def single : DaemonSetManager ℕ String :=
  .new (.new "n1" none) ∅ (some ⟨"n1", "", []⟩)

def tagged : List (DaemonAction ℕ) :=
  [.register (gpuWorker 1), .start ["gpu-worker"], .updateTags [("gpus", "4")]]

theorem placed_iff_new_tag : ∃ dm tr dm' es,
      exec step (fun _ _ => true) single tagged = some (dm, tr) ∧
      dm.step (.reconcile ["gpu-worker"]) = some (dm', es) ∧ (dm'.Placed ↔ dm.Startable) ∧
      dm'.running = ["gpu-worker"] := by
  obtain ⟨dm, tr, dm', es, hexec, hstep, hstarted, hrunning⟩ :
      ∃ dm tr dm' es, exec step (fun _ _ => true) single tagged = some (dm, tr) ∧
        dm.step (.reconcile ["gpu-worker"]) = some (dm', es) ∧ dm.started = true ∧
        dm'.running = ["gpu-worker"] := ⟨_, _, _, _, rfl, rfl, rfl, rfl⟩
  have hrun := Run.of_exec_any step single tagged hexec
  exact ⟨dm, tr, dm', es, hexec, hstep, placed_iff hrun hstarted hstep, hrunning⟩

/-- A stopped daemon is not started again: its actor is still there. One registered anew while it
runs keeps the old handler. -/
theorem daemon_not_placed : (∃ dm tr, exec step (fun _ _ => true) single
        [.updateTags [("gpus", "4")], .register (gpuWorker 1), .start ["gpu-worker"],
          .removeTag "gpus", .reconcile ["gpu-worker"], .updateTags [("gpus", "4")],
          .reconcile ["gpu-worker"]] = some (dm, tr) ∧
      dm.shouldRunLocally (gpuWorker 1) = true ∧ dm.running = [] ∧
      (dm.runtime.registry.lookup "gpu-worker").map (fun a => a.status) = some .stopped) ∧
    ∃ dm tr, exec step (fun _ _ => true) single
        [.updateTags [("gpus", "4")], .register (gpuWorker 1), .start ["gpu-worker"],
          .register (gpuWorker 2), .reconcile ["gpu-worker"]] = some (dm, tr) ∧
      dm.shouldRunLocally (gpuWorker 2) = true ∧ dm.running = [] ∧
      dm.handlers.lookup "gpu-worker" = some 1 ∧
      (dm.runtime.registry.lookup "gpu-worker").map (fun a => a.status) = some .running := by
  refine ⟨⟨_, _, rfl, ?_, ?_, ?_⟩, ⟨_, _, rfl, ?_, ?_, ?_, ?_⟩⟩ <;> rfl

end DaemonSetManager

end Westcoast.Cluster
