import Westcoast.Cluster.Directory

/-!
# The bindings of other members

`UnregisterName` passes on the name alone, so a member that has the name in its own table removes
whatever the registry binds it to. Daemons have the same name on every member, so any of them that
stops its own removes the binding of another. `others_kept_iff` says which operations do not.
-/
namespace Westcoast

open Option Function

namespace Runtime

variable {π : Type}

theorem nodeID_spawn [Inhabited π] {rt rt' : Runtime π} {id : String} {nilHandler : Bool}
    {capacity : ℤ} (h : rt.spawn id nilHandler capacity = .ok rt') : rt'.nodeID = rt.nodeID := by
  simp only [spawn] at h
  split_ifs at h
  cases h
  rfl

end Runtime

namespace Cluster

open Lib

theorem DistributedRegistry.lookup_register (r : DistributedRegistry) (name : String) (pid : PID)
    (n : String) : ((r.register name pid).toOption.getD r).lookup n =
      if n = name then some ((r.lookup name).getD pid) else r.lookup n := by
  simp only [register]
  cases hr : r.lookup name with
  | none => simp [Except.toOption, lookup_insert_ite]
  | some existing =>
    have hsame : (if existing.key = pid.key then (.ok r : Except String DistributedRegistry)
        else .error "name already registered").toOption.getD r = r := by
      split_ifs <;> rfl
    simp only [hsame, getD_some]
    split_ifs with hn
    · rw [hn, hr]
    · rfl

namespace Directory

variable {ι π : Type}

def IsOther (s : Directory ι π) (i : ι) (ns : String) : Prop :=
  ns ≠ (s.members i).runtime.nodeID ∧ ∃ j, (s.members j).runtime.nodeID = ns

/-- The registry has lost no binding of another member. -/
def KeepsOthers (s s' : Directory ι π) (i : ι) : Prop :=
  ∀ name pid, s.registry.lookup name = some pid → s.IsOther i pid.ns →
    s'.registry.lookup name = some pid

/-- A name that the member has in its own table is not bound for another member. -/
def SparesName (s : Directory ι π) (i : ι) (name : String) : Prop :=
  ((s.members i).runtime.names.lookup name).isSome = true →
    ∀ pid, s.registry.lookup name = some pid → ¬ s.IsOther i pid.ns

/-- The daemon is not stopped, or its name is not bound for another member. -/
def SparesDaemon (s : Directory ι π) (i : ι) (place : String → Bool) (name : String) : Prop :=
  ∀ d, (s.members i).daemons.lookup name = some d → d.running = true → place name = false →
    s.SparesName i name

variable {s s' : Directory ι π}

theorem keepsOthers_of_eq (h : s'.registry = s.registry) (i : ι) : s.KeepsOthers s' i := by
  intro n pid hpid _
  rw [h]
  exact hpid

theorem keepsOthers_congr (s s₁ : Directory ι π) (hreg : s₁.registry = s.registry)
    (hnode : ∀ j, (s₁.members j).runtime.nodeID = (s.members j).runtime.nodeID) (i : ι) :
    s.KeepsOthers s' i ↔ s₁.KeepsOthers s' i := by
  simp only [KeepsOthers, IsOther, hreg, hnode]

/-- Reconciling: the names of daemons that should run stay bound, and no other name is bound anew.
-/
structure Reconciled (place : String → Bool) (s s' : Directory ι π) : Prop where
  nodeID : ∀ j, (s'.members j).runtime.nodeID = (s.members j).runtime.nodeID
  kept : ∀ n pid, place n = true → s.registry.lookup n = some pid → s'.registry.lookup n = some pid
  gone : ∀ n, place n = false →
    s'.registry.lookup n = s.registry.lookup n ∨ s'.registry.lookup n = none

theorem Reconciled.refl (place : String → Bool) (s : Directory ι π) : Reconciled place s s :=
  ⟨fun _ => rfl, fun _ _ _ hpid => hpid, fun _ _ => .inl rfl⟩

variable {place : String → Bool}

variable {s₁ s₂ : Directory ι π}

theorem Reconciled.trans (h₁ : Reconciled place s s₁) (h₂ : Reconciled place s₁ s₂) :
    Reconciled place s s₂ where
  nodeID := fun j => (h₂.nodeID j).trans (h₁.nodeID j)
  kept := fun n pid hn hpid => h₂.kept n pid hn (h₁.kept n pid hn hpid)
  gone := by
    intro n hn
    rcases h₂.gone n hn with heq | hnone
    · rw [heq]
      exact h₁.gone n hn
    · exact .inr hnone

theorem Reconciled.isOther_iff (h : Reconciled place s s') (i : ι) (ns : String) :
    s'.IsOther i ns ↔ s.IsOther i ns := by
  simp only [IsOther, h.nodeID]

variable {i : ι}

theorem keepsOthers_comp_iff (h₁ : Reconciled place s s₁) (h₂ : Reconciled place s₁ s₂) :
    s.KeepsOthers s₂ i ↔ s.KeepsOthers s₁ i ∧ s₁.KeepsOthers s₂ i := by
  constructor
  · intro hkeep
    refine ⟨fun n pid hpid hother => ?_, fun n pid hpid hother => ?_⟩
    · have hend := hkeep n pid hpid hother
      cases hn : place n with
      | true => exact h₁.kept n pid hn hpid
      | false =>
        rcases h₁.gone n hn with heq | hnone
        · exact heq.trans hpid
        · rcases h₂.gone n hn with heq2 | hnone2
          · rw [heq2, hnone] at hend
            cases hend
          · rw [hnone2] at hend
            cases hend
    · cases hn : place n with
      | true => exact h₂.kept n pid hn hpid
      | false =>
        rcases h₁.gone n hn with heq | hnone
        · exact hkeep n pid (heq.symm.trans hpid) ((h₁.isOther_iff i pid.ns).mp hother)
        · rw [hnone] at hpid
          cases hpid
  · rintro ⟨hfirst, hsecond⟩ n pid hpid hother
    exact hsecond n pid (hfirst n pid hpid hother) ((h₁.isOther_iff i pid.ns).mpr hother)

variable [DecidableEq ι] (s)

theorem registry_registerName (i : ι) (id name ns n : String) :
    (s.registerName i id name ns).2.registry.lookup n = s.registry.lookup n ∨
      n = name ∧ s.registry.lookup n = none := by
  simp only [registerName]
  split
  · exact .inl rfl
  · simp only [DistributedRegistry.lookup_register]
    by_cases hn : n = name
    · subst hn
      cases hr : s.registry.lookup n with
      | none => exact .inr ⟨rfl, rfl⟩
      | some existing => exact .inl (by simp)
    · exact .inl (if_neg hn)

theorem registry_unregisterName (i : ι) (name n : String) :
    (s.unregisterName i name).2.registry.lookup n =
      if n = name ∧ ((s.members i).runtime.names.lookup name).isSome = true then none
      else s.registry.lookup n := by
  simp only [unregisterName, Runtime.unregisterName]
  cases hl : (s.members i).runtime.names.lookup name with
  | none => simp [setRuntime, setMember]
  | some e =>
    simp only [DistributedRegistry.unregister]
    cases hr : s.registry.lookup name with
    | none =>
      by_cases hn : n = name
      · subst hn
        simp [hr]
      · simp [hn]
    | some pid => simp [lookup_erase_ite]

theorem unregisterName_keeps_iff (i : ι) (name : String) :
    s.KeepsOthers (s.unregisterName i name).2 i ↔ s.SparesName i name := by
  simp only [KeepsOthers, registry_unregisterName, SparesName]
  constructor
  · intro hkeep hlocal pid hpid hother
    have hafter := hkeep name pid hpid hother
    rw [if_pos ⟨rfl, hlocal⟩] at hafter
    cases hafter
  · intro hspares n pid hpid hother
    rw [if_neg]
    · exact hpid
    · rintro ⟨rfl, hlocal⟩
      exact hspares hlocal pid hpid hother

variable {s} in
theorem nodeID_setRuntime {rt : Runtime π} (hrt : rt.nodeID = (s.members i).runtime.nodeID)
    (j : ι) : ((s.setRuntime i rt).members j).runtime.nodeID = (s.members j).runtime.nodeID := by
  by_cases hj : j = i
  · subst hj
    simp [setRuntime, setMember, hrt]
  · simp only [setRuntime, setMember, update_of_ne hj]

theorem nodeID_setDaemon (i : ι) (name : String) (d : DaemonState) (j : ι) :
    ((s.setDaemon i name d).members j).runtime.nodeID = (s.members j).runtime.nodeID := by
  by_cases hj : j = i
  · subst hj
    simp [setDaemon, setMember]
  · simp only [setDaemon, setMember, update_of_ne hj]

theorem nodeID_setStarted (i : ι) (started : Bool) (j : ι) :
    ((s.setStarted i started).members j).runtime.nodeID = (s.members j).runtime.nodeID := by
  by_cases hj : j = i
  · subst hj
    simp [setStarted, setMember]
  · simp only [setStarted, setMember, update_of_ne hj]

theorem nodeID_registerName (i : ι) (id name ns : String) (j : ι) :
    ((s.registerName i id name ns).2.members j).runtime.nodeID = (s.members j).runtime.nodeID := by
  have hrt := (s.members i).runtime.nodeID_registerName id name ns
  simp only [registerName]
  split <;> next heq =>
    rw [heq] at hrt
    exact nodeID_setRuntime hrt j

theorem nodeID_unregisterName (i : ι) (name : String) (j : ι) :
    ((s.unregisterName i name).2.members j).runtime.nodeID = (s.members j).runtime.nodeID := by
  have hrt := (s.members i).runtime.nodeID_unregisterName name
  simp only [unregisterName]
  split <;> next heq =>
    rw [heq] at hrt
    exact nodeID_setRuntime hrt j

variable {name : String}

theorem reconciled_stopDaemon (hname : place name = false) (i : ι)
    (d : DaemonState) : Reconciled place s (s.stopDaemon i name d) := by
  have hreg : ∀ n, (s.stopDaemon i name d).registry.lookup n =
      (s.unregisterName i name).2.registry.lookup n := fun _ => rfl
  refine ⟨fun j => ?_, fun n pid hn hpid => ?_, fun n hn => ?_⟩
  · rw [stopDaemon, nodeID_setDaemon, stop, nodeID_setRuntime (Runtime.nodeID_stop _ _),
      nodeID_unregisterName]
  · rw [hreg, registry_unregisterName, if_neg]
    · exact hpid
    · rintro ⟨rfl, -⟩
      rw [hname] at hn
      cases hn
  · rw [hreg, registry_unregisterName]
    split_ifs
    · exact .inr rfl
    · exact .inl rfl

theorem registry_stopRunning (i : ι) (order : List String) :
    (order.foldl (stopRunning i) s).registry = s.registry := by
  induction order generalizing s with
  | nil => rfl
  | cons name order ih =>
    rw [List.foldl_cons, ih]
    simp only [stopRunning]
    split
    · rfl
    · split_ifs <;> rfl

variable [Inhabited π]

theorem registry_startDaemon (i : ι) (name : String) (d : DaemonState) (n : String) :
    (s.startDaemon i name d).registry.lookup n = s.registry.lookup n ∨
      n = name ∧ s.registry.lookup n = none := by
  simp only [startDaemon]
  split
  · exact .inl rfl
  · exact registry_registerName _ _ _ _ _ _

theorem reconciled_startDaemon (hname : place name = true) (i : ι)
    (d : DaemonState) : Reconciled place s (s.startDaemon i name d) := by
  refine ⟨fun j => ?_, fun n pid hn hpid => ?_, fun n hn => ?_⟩
  · simp only [startDaemon]
    split
    · rfl
    · next rt hspawn =>
      rw [nodeID_registerName, nodeID_setDaemon, nodeID_setRuntime (Runtime.nodeID_spawn hspawn)]
  · rcases registry_startDaemon s i name d n with heq | ⟨-, hnone⟩
    · exact heq.trans hpid
    · rw [hnone] at hpid
      cases hpid
  · rcases registry_startDaemon s i name d n with heq | ⟨rfl, -⟩
    · exact .inl heq
    · rw [hname] at hn
      cases hn

theorem reconcileDaemon_cases (i : ι) (place : String → Bool) (name : String) :
    (∃ d, place name = true ∧ s.reconcileDaemon i place name = s.startDaemon i name d) ∨
      (∃ d, (s.members i).daemons.lookup name = some d ∧ d.running = true ∧ place name = false ∧
        s.reconcileDaemon i place name = s.stopDaemon i name d) ∨
      (s.reconcileDaemon i place name = s ∧ ∀ d, (s.members i).daemons.lookup name = some d →
        d.running = true → place name = true) := by
  simp only [reconcileDaemon]
  cases hd : (s.members i).daemons.lookup name with
  | none => exact .inr (.inr ⟨rfl, fun d h => nomatch h⟩)
  | some d =>
    simp only
    cases hplace : place name with
    | true =>
      cases hrun : d.running with
      | true =>
        refine .inr (.inr ⟨by simp, fun _ _ _ => rfl⟩)
      | false => exact .inl ⟨d, rfl, by simp⟩
    | false =>
      cases hrun : d.running with
      | true => exact .inr (.inl ⟨d, rfl, hrun, rfl, by simp⟩)
      | false =>
        refine .inr (.inr ⟨by simp, fun d' hd' hrun' => ?_⟩)
        cases hd'
        rw [hrun] at hrun'
        cases hrun'

theorem reconciled_daemon (i : ι) (place : String → Bool) (name : String) :
    Reconciled place s (s.reconcileDaemon i place name) := by
  rcases s.reconcileDaemon_cases i place name with
    ⟨d, hplace, heq⟩ | ⟨d, -, -, hplace, heq⟩ | ⟨heq, -⟩
  · rw [heq]
    exact s.reconciled_startDaemon hplace i d
  · rw [heq]
    exact s.reconciled_stopDaemon hplace i d
  · rw [heq]
    exact .refl place s

theorem reconciled_all (i : ι) (place : String → Bool) (order : List String) :
    Reconciled place s (s.reconcileAll i place order) := by
  induction order generalizing s with
  | nil => exact .refl place s
  | cons name order ih => exact (s.reconciled_daemon i place name).trans (ih _)

theorem reconcileDaemon_keeps_iff (i : ι) (place : String → Bool) (name : String) :
    s.KeepsOthers (s.reconcileDaemon i place name) i ↔ s.SparesDaemon i place name := by
  rcases s.reconcileDaemon_cases i place name with
    ⟨d, hplace, heq⟩ | ⟨d, hd, hrun, hplace, heq⟩ | ⟨heq, hplace⟩
  · rw [heq]
    refine ⟨fun _ d' _ _ hno => ?_, fun _ n pid hpid _ => ?_⟩
    · rw [hplace] at hno
      cases hno
    · rcases registry_startDaemon s i name d n with hsame | ⟨-, hnone⟩
      · exact hsame.trans hpid
      · rw [hnone] at hpid
        cases hpid
  · rw [heq]
    have hiff := s.unregisterName_keeps_iff i name
    refine ⟨fun hkeep _ _ _ _ => hiff.mp hkeep, fun hspares => hiff.mpr (hspares d hd hrun hplace)⟩
  · rw [heq]
    refine ⟨fun _ d hd hrun hno => ?_, fun _ n pid hpid _ => hpid⟩
    rw [hplace d hd hrun] at hno
    cases hno

def SparesAll (i : ι) (place : String → Bool) : Directory ι π → List String → Prop
  | _, [] => True
  | s, name :: order =>
    s.SparesDaemon i place name ∧ SparesAll i place (s.reconcileDaemon i place name) order

theorem reconcileAll_keeps_iff (i : ι) (place : String → Bool) (order : List String) :
    s.KeepsOthers (s.reconcileAll i place order) i ↔ SparesAll i place s order := by
  induction order generalizing s with
  | nil => exact ⟨fun _ => trivial, fun _ n pid hpid _ => hpid⟩
  | cons name order ih =>
    have hfirst := s.reconciled_daemon i place name
    have hrest := (s.reconcileDaemon i place name).reconciled_all i place order
    have hcomp := keepsOthers_comp_iff (i := i) hfirst hrest
    rw [SparesAll, ← s.reconcileDaemon_keeps_iff i place name, ← ih]
    exact hcomp

/-- What the operation unregisters is not in the member's own table, or not bound for another. -/
def Spares (s : Directory ι π) : ι × DirectoryAction π → Prop
  | (i, .unregisterName name) => s.SparesName i name
  | (i, .startDaemons place order) => SparesAll i place (s.setStarted i true) order
  | (i, .reconcile place order) => (s.members i).started = true → SparesAll i place s order
  | _ => True

/-- **Which operations remove no binding of another member.** -/
theorem others_kept_iff {s s' : Directory ι π} {es : List Unit} {i : ι} {a : DirectoryAction π}
    (hstep : s.step (i, a) = some (s', es)) : s.KeepsOthers s' i ↔ s.Spares (i, a) := by
  have htrivial : s'.registry = s.registry → (s.KeepsOthers s' i ↔ True) := fun heq =>
    iff_true_intro (keepsOthers_of_eq heq i)
  cases a with
  | runtime op =>
    cases op with
    | registerName id name ns =>
      cases hstep
      refine iff_true_intro fun n pid hpid _ => ?_
      rcases s.registry_registerName i id name ns n with heq | ⟨-, hnone⟩
      · exact heq.trans hpid
      · rw [hnone] at hpid
        cases hpid
    | createActor _ _ _ _ | issuePID _ _ | process _ _ | stop _ | removeActor _ | send _ _
    | sendPID _ _ | setGatewayMode _ | setGatewayAvailability _ =>
      simp only [step, map_eq_some_iff] at hstep
      obtain ⟨r, -, hr⟩ := hstep
      cases hr
      exact htrivial rfl
  | spawn id nilHandler capacity =>
    simp only [step] at hstep
    split at hstep <;> cases hstep <;> exact htrivial rfl
  | started id | ends id path =>
    simp only [step, map_eq_some_iff] at hstep
    obtain ⟨rt, -, hr⟩ := hstep
    cases hr
    exact htrivial rfl
  | unregisterName name =>
    cases hstep
    exact s.unregisterName_keeps_iff i name
  | registerDaemon name nilHandler capacity place =>
    simp only [step, some.injEq, Prod.mk.injEq] at hstep
    obtain ⟨rfl, -⟩ := hstep
    have hspares :
        (s.setDaemon i name ⟨nilHandler, capacity, false⟩).SparesDaemon i place name := by
      -- a daemon that has just been entered does not run, so it is not stopped
      intro d hd hrun _
      simp only [setDaemon, setMember, update_self, AList.lookup_insert,
        some.injEq] at hd
      subst hd
      cases hrun
    have hkeep := (reconcileDaemon_keeps_iff _ i place name).mpr hspares
    rw [keepsOthers_congr s (s.setDaemon i name ⟨nilHandler, capacity, false⟩) rfl
      (s.nodeID_setDaemon i name _)]
    split_ifs
    · exact iff_true_intro hkeep
    · exact iff_true_intro (keepsOthers_of_eq rfl i)
  | startDaemons place order =>
    simp only [step] at hstep
    split_ifs at hstep
    cases hstep
    rw [keepsOthers_congr s (s.setStarted i true) rfl (s.nodeID_setStarted i true)]
    exact reconcileAll_keeps_iff _ i place order
  | reconcile place order =>
    simp only [step] at hstep
    split_ifs at hstep with hperm hstarted
    · cases hstep
      refine (s.reconcileAll_keeps_iff i place order).trans ⟨fun hall _ => hall, fun hall => ?_⟩
      exact hall hstarted
    · cases hstep
      exact ⟨fun _ hno => absurd hno hstarted, fun _ => keepsOthers_of_eq rfl i⟩
  | stopDaemons order =>
    simp only [step] at hstep
    split_ifs at hstep
    cases hstep
    exact htrivial (registry_stopRunning _ i order)

theorem pair_daemon : ∃ (s : Directory Bool String) (tr : List Unit), Run step anyStep pair tr s ∧
      s.registry.lookup "d" = some ⟨"n1", "d", 1⟩ ∧
      (s.members false).runtime.nodeID = "n1" ∧ (s.members true).runtime.nodeID = "n2" ∧
      (∃ s' es, s.step (false, .reconcile (fun _ => false) ["d"]) = some (s', es)) ∧
      ∃ s' es, s.step (true, .reconcile (fun _ => false) ["d"]) = some (s', es) ∧
        s'.registry.lookup "d" = none := by
  have hexec : (exec step (fun _ _ => true) pair
      [(false, .registerDaemon "d" false 4 fun _ => true),
        (false, .startDaemons (fun _ => true) ["d"]),
        (true, .registerDaemon "d" false 4 fun _ => true),
        (true, .startDaemons (fun _ => true) ["d"])]).map
      (fun r => (r.1.registry.lookup "d", (r.1.members false).runtime.nodeID,
        (r.1.members true).runtime.nodeID,
        (r.1.step (false, .reconcile (fun _ => false) ["d"])).isSome,
        (r.1.step (true, .reconcile (fun _ => false) ["d"])).map (·.1.registry.lookup "d"))) =
      some (some ⟨"n1", "d", 1⟩, "n1", "n2", true, some none) := by
    decide +kernel
  obtain ⟨⟨s, tr⟩, hrun, hend⟩ := map_eq_some_iff.mp hexec
  simp only [Prod.mk.injEq, isSome_iff_exists, map_eq_some_iff, Prod.exists] at hend
  exact ⟨s, tr, Run.of_exec_any _ _ _ hrun, hend⟩

/-- The first member stops its daemon, whose binding is its own. -/
theorem others_kept_own_daemon : ∃ (s s' : Directory Bool String) (tr es : List Unit),
      Run step anyStep pair tr s ∧
        s.step (false, .reconcile (fun _ => false) ["d"]) = some (s', es) ∧
        s.KeepsOthers s' false := by
  obtain ⟨s, tr, hrun, hbound, hnode, -, ⟨s', es, hstep⟩, -⟩ := pair_daemon
  refine ⟨s, s', tr, es, hrun, hstep, (others_kept_iff hstep).mpr fun _ => ⟨?_, trivial⟩⟩
  intro d _ _ _ _ pid hpid hother
  rw [hbound] at hpid
  cases hpid
  exact hother.1 hnode.symm

/-- The second member stops its daemon, and the registry loses the binding of the first. -/
theorem daemon_stop_removes_other : ∃ (s s' : Directory Bool String) (tr es : List Unit),
      Run step anyStep pair tr s ∧ s.registry.lookup "d" = some ⟨"n1", "d", 1⟩ ∧
        s.IsOther true "n1" ∧
        s.step (true, .reconcile (fun _ => false) ["d"]) = some (s', es) ∧
        s'.registry.lookup "d" = none := by
  obtain ⟨s, tr, hrun, hbound, hfirst, hsecond, -, s', es, hstep, hlost⟩ := pair_daemon
  refine ⟨s, s', tr, es, hrun, hbound, ⟨?_, false, hfirst⟩, hstep, hlost⟩
  rw [hsecond]
  decide +kernel

end Directory
end Cluster
end Westcoast
