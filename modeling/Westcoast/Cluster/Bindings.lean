import Westcoast.Cluster.Directory

/-!
# The names of an actor that has ended

When an actor ends, the local table forgets its names, but the registry, to which a lookup falls
back, is not told. An actor whose start hook fails at first keeps its names even in the local table
(`name_forgotten_iff`).
-/
namespace Westcoast

/-- The identifiers are of one actor, in whatever generation. -/
def PID.SameActor (p q : PID) : Prop := q.ns = p.ns ∧ q.actorID = p.actorID

namespace Cluster.Directory

open Lib

variable {ι π : Type} (s : Directory ι π)

theorem lookupName_eq (i : ι) (name : String) : s.lookupName i name =
      (((s.members i).runtime.names.lookup name).map (·.2)).or (s.registry.lookup name) := by
  simp only [lookupName, Runtime.lookupName]
  cases (s.members i).runtime.names.lookup name with
  | none => rfl
  | some e => rfl

variable [DecidableEq ι]

theorem lookupName_setRuntime_ne {i j : ι} (hne : j ≠ i) (rt : Runtime π) (name : String) :
    (s.setRuntime i rt).lookupName j name = s.lookupName j name := by
  simp only [lookupName, setRuntime, setMember, Function.update_of_ne hne]

theorem lookupName_setRuntime_self (i : ι) (rt : Runtime π) (name : String) :
    (s.setRuntime i rt).lookupName i name =
      rt.lookupName (some fun name => s.registry.lookup name) name := by
  simp [lookupName, setRuntime, setMember]

variable {id name ns : String} {rt : Runtime π}

theorem lookupName_endsBy [Inhabited π] {s : Directory ι π} {i : ι} {p : PID}
    {path : TerminalPath} (hname : (s.members i).runtime.names.lookup name = some (id, p))
    (hends : (s.members i).runtime.endsBy id path = some rt) :
    (s.setRuntime i rt).lookupName i name =
      if path = .startHook then some p else s.registry.lookup name := by
  rw [lookupName_setRuntime_self, Runtime.lookupName, Runtime.names_endsBy hends]
  split_ifs
  · rw [hname]
  · rw [Runtime.lookup_cleanupRegistry, hname, Option.filter_some]
    simp

/-- **When the names of an ended actor are gone:** exactly if it did not end by its first start
hook, the registry does not have the name for it, and no other member has the name for an identifier
that reads the same. -/
theorem name_forgotten_iff [Inhabited π] {s s' : Directory ι π} {es : List Unit} {i : ι}
    {id name : String} {p : PID} {path : TerminalPath}
    (hname : (s.members i).runtime.names.lookup name = some (id, p))
    (hstep : s.step (i, .ends id path) = some (s', es)) :
    (∀ j q, s'.lookupName j name = some q → ¬ p.SameActor q) ↔
      path ≠ .startHook ∧ (∀ q, s.registry.lookup name = some q → ¬ p.SameActor q) ∧
        ∀ j x q, j ≠ i → (s.members j).runtime.names.lookup name = some (x, q) →
          ¬ p.SameActor q := by
  simp only [step, Option.map_eq_some_iff] at hstep
  obtain ⟨rt, hends, hr⟩ := hstep
  cases hr
  have hself := lookupName_endsBy hname hends
  constructor
  · intro hgone
    have hpath : path ≠ .startHook := by
      intro hstart
      rw [if_pos hstart] at hself
      exact hgone i p hself ⟨rfl, rfl⟩
    rw [if_neg hpath] at hself
    refine ⟨hpath, fun q hq => hgone i q (hself.trans hq), fun j x q hne hq => hgone j q ?_⟩
    rw [lookupName_setRuntime_ne s hne, lookupName_eq, hq]
    rfl
  · rintro ⟨hpath, hreg, hothers⟩ j q hq
    by_cases hj : j = i
    · subst hj
      rw [hself, if_neg hpath] at hq
      exact hreg q hq
    · rw [lookupName_setRuntime_ne s hj, lookupName_eq] at hq
      cases hlocal : (s.members j).runtime.names.lookup name with
      | none =>
        rw [hlocal] at hq
        exact hreg q hq
      | some e =>
        rw [hlocal] at hq
        obtain rfl : e.2 = q := Option.some.inj hq
        exact hothers j e.1 e.2 hj hlocal

/-- The name is bound to an actor of the second member when the first registers it for its own,
which then ends. -/
theorem name_forgotten_taken : ∃ (s s' : Directory Bool String) (tr es : List Unit) (p : PID),
      Run step anyStep pair tr s ∧ (s.members false).runtime.names.lookup "svc" = some ("a", p) ∧
        s.step (false, .ends "a" .stop) = some (s', es) ∧
        ∀ j q, s'.lookupName j "svc" = some q → ¬ p.SameActor q := by
  obtain ⟨tr, s, hrun, hname, hother, hreg, hnext⟩ : ∃ tr s, Run step anyStep pair tr s ∧
      (s.members false).runtime.names.lookup "svc" = some ("a", ⟨"n1", "a", 1⟩) ∧
      (s.members true).runtime.names.lookup "svc" = some ("b", ⟨"n2", "b", 1⟩) ∧
      s.registry.lookup "svc" = some ⟨"n2", "b", 1⟩ ∧
      (s.step (false, .ends "a" .stop)).isSome = true :=
    Run.of_check [(true, .spawn "b" false 4), (true, .runtime (.registerName "b" "svc" "n2")),
      (false, .spawn "a" false 4), (false, .runtime (.registerName "a" "svc" "n1"))]
      (by decide +kernel)
  obtain ⟨⟨s', es⟩, hstep⟩ := Option.isSome_iff_exists.mp hnext
  refine ⟨s, s', tr, es, _, hrun, hname, hstep, ?_⟩
  refine (name_forgotten_iff hname hstep).mpr ⟨by decide, fun q hq => ?_, fun j x q hj hq => ?_⟩
  · rw [hreg] at hq
    cases hq
    simp [PID.SameActor]
  · obtain rfl : j = true := by simpa using hj
    rw [hother] at hq
    cases hq
    simp [PID.SameActor]

/-- An actor is registered under a name and stopped, and both members still find it under
the name. -/
theorem stopped_actor_found : ∃ (s s' : Directory Bool String) (tr es : List Unit),
      Run step anyStep pair tr s ∧
        (s.members false).runtime.names.lookup "svc" = some ("a", ⟨"n1", "a", 1⟩) ∧
        s.step (false, .ends "a" .stop) = some (s', es) ∧
        ((s'.members false).runtime.registry.lookup "a").map (·.status) = some .stopped ∧
        ∀ j, s'.lookupName j "svc" = some ⟨"n1", "a", 1⟩ := by
  obtain ⟨tr, s, hrun, hname, hnext⟩ : ∃ tr s, Run step anyStep pair tr s ∧
      (s.members false).runtime.names.lookup "svc" = some ("a", ⟨"n1", "a", 1⟩) ∧
      (s.step (false, .ends "a" .stop)).any (fun r =>
        ((r.1.members false).runtime.registry.lookup "a").map (·.status) = some .stopped ∧
        ∀ j, r.1.lookupName j "svc" = some ⟨"n1", "a", 1⟩) = true :=
    Run.of_check [(false, .spawn "a" false 4), (false, .started "a"),
      (false, .runtime (.registerName "a" "svc" "n1"))] (by decide +kernel)
  obtain ⟨⟨s', es⟩, hstep, hend⟩ := exists_of_any hnext
  exact ⟨s, s', tr, es, hrun, hname, hstep, hend⟩

/-! ## A registration that fails -/

/-- `RegisterName` issues an identifier: the actor is known, its current identifier is of another
namespace, and the one to issue is valid. -/
structure Issues (rt : Runtime π) (id ns : String) : Prop where
  known : (rt.registry.lookup id).isSome
  none : rt.pidInNamespace id (Runtime.namespaceFor ns) = none
  valid : (rt.pidToIssue (Runtime.namespaceFor ns) id).validate = .ok ()

/-- Names, identifiers and the registry are the same, and so is what becomes of a message to any
identifier. -/
structure Unchanged [Inhabited π] (s s' : Directory ι π) : Prop where
  names : ∀ j, (s'.members j).runtime.names = (s.members j).runtime.names
  resolver : ∀ j, (s'.members j).runtime.resolver = (s.members j).runtime.resolver
  actorPID : ∀ j, (s'.members j).runtime.actorPID = (s.members j).runtime.actorPID
  registry : s'.registry = s.registry
  outcome : ∀ j pid payload, ((s'.members j).runtime.sendPID pid payload).1 =
    ((s.members j).runtime.sendPID pid payload).1

variable {e : RuntimeError}

theorem registerEntry_error {pid : PID} (herr : (rt.registerEntry name id pid).1 = .error e) :
    (rt.registerEntry name id pid).2 = rt := by
  simp only [Runtime.registerEntry] at herr ⊢
  split_ifs at herr ⊢ <;> rfl

theorem registerName_of_error {s : Directory ι π} {i : ι}
    (herr : (s.registerName i id name ns).1 = .error e) :
    ((s.members i).runtime.registerName id name ns).1 = .error e ∧
      (s.registerName i id name ns).2 =
        s.setRuntime i ((s.members i).runtime.registerName id name ns).2 := by
  simp only [registerName] at herr ⊢
  split at herr <;> simp_all

theorem exists_issuePID_iff : (∃ r, rt.issuePID ns id = .ok r) ↔
      (rt.registry.lookup id).isSome ∧ (rt.pidToIssue ns id).validate = .ok () := by
  unfold Runtime.issuePID
  cases rt.registry.lookup id with
  | none => simp
  | some a => cases hv : (rt.pidToIssue ns id).validate <;> simp [hv]

theorem actorPID_registerName_of_issues (hissues : Issues rt id ns)
    (herr : (rt.registerName id name ns).1 = .error e) :
    (rt.registerName id name ns).2.actorPID ≠ rt.actorPID := by
  obtain ⟨hreg, hnone, hvalid⟩ := hissues
  obtain ⟨⟨pid, rt'⟩, hissue⟩ := exists_issuePID_iff.mpr ⟨hreg, hvalid⟩
  obtain ⟨-, hpid, rfl⟩ := Runtime.issuePID_spec hissue
  have hns : pid.ns = Runtime.namespaceFor ns := by
    rw [hpid]
    by_cases hempty : ns = "" <;> simp [Runtime.pidToIssue, Runtime.namespaceFor, hempty]
  have heq : rt.registerName id name ns = (rt.issued id pid).registerEntry name id pid := by
    have hsome : (rt.registry.lookup id).isNone = false := by simpa using hreg
    rw [Runtime.namespaceFor] at hnone hissue
    simp [Runtime.registerName, hsome, hnone, hissue]
  rw [heq] at herr ⊢
  rw [registerEntry_error herr]
  intro hsame
  have hlookup := congrArg (AList.lookup id) hsame
  rw [Runtime.issued, AList.lookup_insert] at hlookup
  simp [Runtime.pidInNamespace, ← hlookup, hns] at hnone

theorem registerName_of_not_issues (hissues : ¬ Issues rt id ns)
    (herr : (rt.registerName id name ns).1 = .error e) : (rt.registerName id name ns).2 = rt := by
  rcases Runtime.registerName_cases rt id name ns with ⟨e, heq⟩ | ⟨pid, rt1, -, haddr, heq⟩
  · rw [heq]
  · rw [heq] at herr ⊢
    rw [registerEntry_error herr]
    cases haddr with
    | found _ => rfl
    | issued hnone hissue =>
      obtain ⟨hreg, hvalid⟩ := exists_issuePID_iff.mp ⟨_, hissue⟩
      exact absurd ⟨hreg, hnone, hvalid⟩ hissues

/-- A call of `RegisterName` that fails changes nothing, exactly if it has issued no identifier. -/
theorem registerName_unchanged_iff [Inhabited π] {s : Directory ι π} {i : ι} {id name ns : String}
    {e : RuntimeError} (herr : (s.registerName i id name ns).1 = .error e) :
    Unchanged s (s.registerName i id name ns).2 ↔ ¬ Issues (s.members i).runtime id ns := by
  obtain ⟨hlocal, heq⟩ := registerName_of_error herr
  rw [heq]
  constructor
  · intro h hissues
    refine actorPID_registerName_of_issues hissues hlocal ?_
    simpa [setRuntime, setMember] using h.actorPID i
  · intro hissues
    have hsame : s.setRuntime i (s.members i).runtime = s := by simp [setRuntime, setMember]
    rw [registerName_of_not_issues hissues hlocal, hsame]
    exact ⟨fun _ => rfl, fun _ => rfl, fun _ => rfl, rfl, fun _ _ _ => rfl⟩

/-- An actor restarted after its first identifier, then issued one in another namespace. -/
def reissued : List (Bool × DirectoryAction String) :=
  [(false, .runtime (.createActor "a" false 4 true)), (false, .runtime (.issuePID "default" "a")),
    (false, .runtime (.send "a" (some "m"))),
    (false, .runtime (.process "a" (.failed .restart true))),
    (false, .runtime (.issuePID "n1" "a"))]

theorem registerName_unchanged_found : ∃ tr s, Run step anyStep pair tr s ∧
      (s.registerName false "a" "no name" "n1").1 = .error (.registryNameInvalid "no name") ∧
      Unchanged s (s.registerName false "a" "no name" "n1").2 := by
  obtain ⟨tr, s, hrun, herr, hfound⟩ : ∃ tr s, Run step anyStep pair tr s ∧
      (s.registerName false "a" "no name" "n1").1 = .error (.registryNameInvalid "no name") ∧
      ((s.members false).runtime.pidInNamespace "a" (Runtime.namespaceFor "n1")).isSome = true :=
    Run.of_check reissued (by decide +kernel)
  refine ⟨tr, s, hrun, herr, (registerName_unchanged_iff herr).mpr fun hissues => ?_⟩
  rw [hissues.none] at hfound
  cases hfound

/-- A name is refused, and the identifier by which the actor was reached is stale. -/
theorem refused_name_resets_generation : ∃ tr s, Run step anyStep pair tr s ∧
      (s.registerName false "a" "no name" "default").1 =
        .error (.registryNameInvalid "no name") ∧
      ((s.members false).runtime.sendPID ⟨"default", "a", 2⟩ (some "m")).1 = .delivered ∧
      (((s.registerName false "a" "no name" "default").2.members false).runtime.sendPID
        ⟨"default", "a", 2⟩ (some "m")).1 = .rejectedStaleGeneration :=
  Run.of_check reissued (by decide +kernel)

end Cluster.Directory
end Westcoast
