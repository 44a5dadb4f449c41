import Westcoast.Cluster.ClusterRouter
import Westcoast.Lib.Machine

/-!
# Who is in a service group

The abstract side of `Join` and `Leave` is a map: for a service, a namespace and an actor the
generation that was joined last. The router keeps all members in one registry, under names that are
strung together; `Faithful`: it holds exactly the members.
-/
namespace Westcoast.Cluster

open Lib List Option AList

structure GroupMember where
  serviceName : String
  ns : String
  actorID : String
  deriving DecidableEq

namespace GroupMember

/-- An identifier as a member of a service. -/
def of (serviceName : String) (pid : PID) : GroupMember := ⟨serviceName, pid.ns, pid.actorID⟩

def pid (m : GroupMember) (generation : ℕ) : PID := ⟨m.ns, m.actorID, generation⟩

def name (m : GroupMember) : String := serviceGroupKey m.serviceName (m.pid 0)

theorem name_of (serviceName : String) (pid : PID) :
    (of serviceName pid).name = serviceGroupKey serviceName pid := rfl

theorem pid_of (serviceName : String) (pid : PID) :
    (of serviceName pid).pid pid.generation = pid := rfl

theorem inGroup_name (m : GroupMember) : inGroup m.serviceName m.name = true := by
  have hkey : (m.pid 0).key ≠ "" := by
    intro h
    have hlist := congrArg String.toList h
    simp [PID.key] at hlist
  have hpos : 0 < (m.pid 0).key.length := by
    rw [Nat.pos_iff_ne_zero]
    intro h
    exact hkey (String.length_eq_zero_iff.mp h)
  simp only [inGroup, name, serviceGroupKey, String.length_append, String.toList_append,
    Bool.and_eq_true, decide_eq_true_eq, isPrefixOf_iff_prefix]
  exact ⟨by omega, prefix_append _ _⟩

theorem eq_of_name {m m' : GroupMember} (hname : m.name = m'.name) (hns : m.ns = m'.ns)
    (hid : m.actorID = m'.actorID) : m = m' := by
  obtain ⟨service, ns, id⟩ := m
  obtain ⟨service', ns', id'⟩ := m'
  obtain rfl : ns = ns' := hns
  obtain rfl : id = id' := hid
  have hlist := congrArg String.toList hname
  simp only [name, serviceGroupKey, groupStart, String.toList_append, pid,
    append_cancel_left_eq, append_cancel_right_eq] at hlist
  rw [String.toList_injective hlist]

end GroupMember

/-- The router, and beside it what the calls so far amount to. -/
structure ServiceGroups where
  router : ClusterRouter
  joined : AList (fun _ : GroupMember => ℕ)

inductive GroupCall
  | join (serviceName : String) (pid : PID)
  | leave (serviceName : String) (pid : PID)

namespace ServiceGroups

def step (g : ServiceGroups) : GroupCall → Option (ServiceGroups × List Unit)
  | .join serviceName pid =>
    match g.router.join serviceName pid with
    | .error _ => none
    | .ok router => some (⟨router, g.joined.insert (.of serviceName pid) pid.generation⟩, [])
  | .leave serviceName pid =>
    some (⟨g.router.leave serviceName pid, g.joined.erase (.of serviceName pid)⟩, [])

/-- The list of a service has the identifier of each of its members once, and nothing else. -/
def Exact (g : ServiceGroups) (sort : SortSlice) (serviceName : String) : Prop :=
  ∀ pid, (g.router.members sort serviceName).count pid =
    if g.joined.lookup (.of serviceName pid) = some pid.generation then 1 else 0

/-- Whoever is joined under the name of the call is who it is about, for `Join` with the same
generation. -/
def Careful (g : ServiceGroups) : GroupCall → Prop
  | .join serviceName pid => ∀ e ∈ g.joined.entries, e.1.name = serviceGroupKey serviceName pid →
      e.1 = .of serviceName pid ∧ e.2 = pid.generation
  | .leave serviceName pid => ∀ e ∈ g.joined.entries, e.1.name = serviceGroupKey serviceName pid →
      e.1 = .of serviceName pid

instance carefulDecidable (g : ServiceGroups) (a : GroupCall) : Decidable (Careful g a) := by
  cases a <;> unfold Careful <;> infer_instance

/-- A member of another service has a name that begins like those of this one. -/
def Foreign (g : ServiceGroups) (serviceName : String) : Prop :=
  ∃ e ∈ g.joined.entries, e.1.serviceName ≠ serviceName ∧ inGroup serviceName e.1.name = true

instance foreignDecidable (g : ServiceGroups) (serviceName : String) :
    Decidable (g.Foreign serviceName) := by
  unfold Foreign
  infer_instance

/-! ## The registry holds the members -/

/-- The registry holds every member under its name, and nothing else. -/
structure Faithful (g : ServiceGroups) : Prop where
  bound : ∀ m generation, g.joined.lookup m = some generation →
    g.router.registry.lookup m.name = some (m.pid generation)
  only : ∀ name pid, g.router.registry.lookup name = some pid →
    ∃ serviceName, g.joined.lookup (.of serviceName pid) = some pid.generation ∧
      name = serviceGroupKey serviceName pid

theorem faithful_empty {r : ClusterRouter} (h : r.registry = ∅) : Faithful ⟨r, ∅⟩ := by
  refine ⟨fun m generation hm => ?_, fun name pid hname => ?_⟩
  · cases hm
  · rw [h] at hname
    cases hname

variable {g : ServiceGroups} {serviceName : String} {m : GroupMember} {generation : ℕ}

variable {pid : PID}

theorem careful_join (h : g.Careful (.join serviceName pid))
    (hm : g.joined.lookup m = some generation) (hname : m.name = serviceGroupKey serviceName pid) :
    m = .of serviceName pid ∧ generation = pid.generation :=
  h ⟨m, generation⟩ (mem_lookup_iff.mp hm) hname

theorem careful_leave (h : g.Careful (.leave serviceName pid))
    (hm : g.joined.lookup m = some generation) (hname : m.name = serviceGroupKey serviceName pid) :
    m = .of serviceName pid :=
  h ⟨m, generation⟩ (mem_lookup_iff.mp hm) hname

open GroupMember (name_of pid_of of eq_of_name)

section

variable (hg : Faithful g)

include hg

theorem Faithful.join_new
    (hfree : g.router.registry.lookup (serviceGroupKey serviceName pid) = none) : Faithful
      ⟨{ g.router with registry := g.router.registry.insert (serviceGroupKey serviceName pid) pid },
        g.joined.insert (.of serviceName pid) pid.generation⟩ := by
  refine ⟨fun m generation hm => ?_, fun name pid' hname => ?_⟩
  · simp only [lookup_insert_ite] at hm ⊢
    by_cases heq : m = .of serviceName pid
    · subst heq
      rw [if_pos rfl, some.injEq] at hm
      subst hm
      rw [if_pos (name_of serviceName pid)]
      rfl
    · rw [if_neg heq] at hm
      have hbound := hg.bound m generation hm
      rw [if_neg, hbound]
      intro hname
      rw [hname, hfree] at hbound
      cases hbound
  · simp only [lookup_insert_ite] at hname ⊢
    by_cases heq : name = serviceGroupKey serviceName pid
    · rw [if_pos heq, some.injEq] at hname
      subst hname
      exact ⟨serviceName, by rw [if_pos rfl], heq⟩
    · rw [if_neg heq] at hname
      obtain ⟨service, hjoined, rfl⟩ := hg.only name pid' hname
      refine ⟨service, ?_, rfl⟩
      rw [if_neg, hjoined]
      intro hof
      rw [← name_of, hof, name_of] at heq
      exact heq rfl

theorem Faithful.join_again (hm : g.joined.lookup m = some generation) :
    Faithful ⟨g.router, g.joined.insert m generation⟩ := by
  have hsame : ∀ m', (g.joined.insert m generation).lookup m' = g.joined.lookup m' := by
    intro m'
    rw [lookup_insert_ite]
    split_ifs with heq
    · rw [heq, hm]
    · rfl
  refine ⟨fun m' generation' hm' => ?_, fun name pid hname => ?_⟩
  · exact hg.bound m' generation' ((hsame m').symm.trans hm')
  · obtain ⟨service, hjoined, heq⟩ := hg.only name pid hname
    exact ⟨service, (hsame _).trans hjoined, heq⟩

variable {g' : ServiceGroups} {es : List Unit}

theorem Faithful.join (hcareful : g.Careful (.join serviceName pid))
    (hstep : g.step (.join serviceName pid) = some (g', es)) : Faithful g' := by
  simp only [step, ClusterRouter.join, DistributedRegistry.register] at hstep
  cases hlookup : g.router.registry.lookup (serviceGroupKey serviceName pid) with
  | none =>
    simp only [hlookup, Except.map] at hstep
    obtain ⟨rfl, -⟩ := Prod.mk.inj (some.inj hstep)
    exact hg.join_new hlookup
  | some existing =>
    obtain ⟨service, hjoined, hname⟩ := hg.only _ existing hlookup
    obtain ⟨hof, hgeneration⟩ := careful_join hcareful hjoined hname.symm
    simp only [hlookup] at hstep
    split_ifs at hstep
    · simp only [Except.map] at hstep
      obtain ⟨rfl, -⟩ := Prod.mk.inj (some.inj hstep)
      rw [hof, hgeneration] at hjoined
      exact hg.join_again hjoined
    · simp only [Except.map] at hstep
      cases hstep

theorem Faithful.leave (hcareful : g.Careful (.leave serviceName pid)) :
    Faithful ⟨g.router.leave serviceName pid, g.joined.erase (.of serviceName pid)⟩ := by
  have hregistry : ∀ name, (g.router.leave serviceName pid).registry.lookup name =
      if name = serviceGroupKey serviceName pid then none else g.router.registry.lookup name := by
    intro name
    simp only [ClusterRouter.leave, DistributedRegistry.unregister]
    cases hlookup : g.router.registry.lookup (serviceGroupKey serviceName pid) with
    | none =>
      simp only
      split_ifs with heq
      · rw [heq, hlookup]
      · rfl
    | some existing => exact lookup_erase_ite _ _ _
  refine ⟨fun m generation hm => ?_, fun name pid' hname => ?_⟩
  · rw [lookup_erase_ite] at hm
    split_ifs at hm with heq
    rw [hregistry, if_neg, hg.bound m generation hm]
    exact fun hname => heq (careful_leave hcareful hm hname)
  · rw [hregistry] at hname
    split_ifs at hname with heq
    obtain ⟨service, hjoined, rfl⟩ := hg.only name pid' hname
    refine ⟨service, ?_, rfl⟩
    rw [lookup_erase_ite, if_neg, hjoined]
    intro hof
    rw [← name_of, hof, name_of] at heq
    exact heq rfl

theorem Faithful.step {a : GroupCall} (hcareful : g.Careful a)
    (hstep : g.step a = some (g', es)) : Faithful g' := by
  cases a with
  | join serviceName pid => exact hg.join hcareful hstep
  | leave serviceName pid =>
    obtain ⟨rfl, -⟩ := Prod.mk.inj (some.inj hstep)
    exact hg.leave hcareful

/-! ## What the list of a service counts -/

/-- The bindings that put an identifier into the list of a service. -/
def bindings (g : ServiceGroups) (serviceName : String) (pid : PID) :
    List (Sigma fun _ : String => PID) :=
  g.router.registry.entries.filter fun e => e.2 == pid && inGroup serviceName e.1

omit hg in
theorem nodup_bindings (g : ServiceGroups) (serviceName : String) (pid : PID) :
    (g.bindings serviceName pid).Nodup := g.router.registry.nodupKeys.nodup.filter _

omit hg in
theorem count_members (hfilter : g.router.staticFilter serviceName = none) (sort : SortSlice)
    (pid : PID) :
    (g.router.members sort serviceName).count pid = (g.bindings serviceName pid).length := by
  have hall : (g.router.collected serviceName).filter (g.router.passes serviceName) =
      g.router.collected serviceName :=
    filter_eq_self.mpr fun pid _ => by simp [ClusterRouter.passes, hfilter]
  rw [(g.router.members_perm sort serviceName).count_eq, hall, ClusterRouter.collected, List.count,
    countP_map, countP_filter, countP_eq_length_filter]
  rfl

theorem Faithful.mem_bindings {e : Sigma fun _ : String => PID} : e ∈ g.bindings serviceName pid ↔
      ∃ service, g.joined.lookup (.of service pid) = some pid.generation ∧
        e = ⟨serviceGroupKey service pid, pid⟩ ∧
          inGroup serviceName (serviceGroupKey service pid) = true := by
  simp only [bindings, mem_filter, Bool.and_eq_true, beq_iff_eq]
  constructor
  · obtain ⟨name, pid'⟩ := e
    rintro ⟨he, rfl, hin⟩
    obtain ⟨service, hjoined, rfl⟩ := hg.only name pid' (mem_lookup_iff.mpr he)
    exact ⟨service, hjoined, rfl, hin⟩
  · rintro ⟨service, hjoined, rfl, hin⟩
    have hbound := hg.bound (.of service pid) pid.generation hjoined
    rw [name_of, pid_of] at hbound
    exact ⟨mem_lookup_iff.mp hbound, rfl, hin⟩

theorem Faithful.own_mem_bindings
    (h : g.joined.lookup (.of serviceName pid) = some pid.generation) :
    ⟨serviceGroupKey serviceName pid, pid⟩ ∈ g.bindings serviceName pid := by
  have hin := GroupMember.inGroup_name (.of serviceName pid)
  rw [name_of] at hin
  exact hg.mem_bindings.mpr ⟨serviceName, h, rfl, hin⟩

theorem Faithful.exact (hfilter : g.router.staticFilter serviceName = none)
    (sort : SortSlice) (hforeign : ¬ g.Foreign serviceName) : g.Exact sort serviceName := by
  intro pid
  have hown : ∀ e ∈ g.bindings serviceName pid,
      g.joined.lookup (.of serviceName pid) = some pid.generation ∧
        e = ⟨serviceGroupKey serviceName pid, pid⟩ := by
    intro e he
    obtain ⟨service, hjoined, rfl, hin⟩ := hg.mem_bindings.mp he
    obtain rfl : service = serviceName := by
      by_contra hne
      exact hforeign ⟨⟨.of service pid, pid.generation⟩, mem_lookup_iff.mp hjoined, hne, hin⟩
    exact ⟨hjoined, rfl⟩
  rw [count_members hfilter]
  split_ifs with hjoined
  · have hperm : (g.bindings serviceName pid).Perm [⟨serviceGroupKey serviceName pid, pid⟩] := by
      refine (perm_ext_iff_of_nodup (g.nodup_bindings serviceName pid)
        (nodup_singleton _)).mpr fun e => ?_
      rw [mem_singleton]
      refine ⟨fun he => (hown e he).2, ?_⟩
      rintro rfl
      exact hg.own_mem_bindings hjoined
    rw [hperm.length_eq, length_singleton]
  · rw [length_eq_zero_iff, eq_nil_iff_forall_not_mem]
    exact fun e he => hjoined (hown e he).1

theorem Faithful.not_exact (hfilter : g.router.staticFilter serviceName = none)
    (sort : SortSlice) (hforeign : g.Foreign serviceName) : ¬ g.Exact sort serviceName := by
  obtain ⟨⟨m, generation⟩, he, hne, hin⟩ := hforeign
  intro hexact
  have hother : ⟨m.name, m.pid generation⟩ ∈ g.bindings serviceName (m.pid generation) :=
    hg.mem_bindings.mpr ⟨m.serviceName, mem_lookup_iff.mpr he, rfl, hin⟩
  have hcount := hexact (m.pid generation)
  rw [count_members hfilter] at hcount
  split_ifs at hcount with hjoined
  · -- the identifier is in the list twice, as a member of both services
    have hdiff : (⟨serviceGroupKey serviceName (m.pid generation), m.pid generation⟩ :
        Sigma fun _ : String => PID) ≠ ⟨m.name, m.pid generation⟩ := by
      intro heq
      have hname : (of serviceName (m.pid generation)).name = m.name := (Sigma.mk.inj heq).1
      exact hne (congrArg GroupMember.serviceName (eq_of_name hname rfl rfl)).symm
    obtain ⟨e, hall⟩ := length_eq_one_iff.mp hcount
    have hown := hg.own_mem_bindings hjoined
    rw [hall, mem_singleton] at hown hother
    exact hdiff (hown.trans hother.symm)
  · rw [length_eq_zero_iff] at hcount
    rw [hcount] at hother
    exact not_mem_nil hother

end

/-- After careful calls membership is exact iff no member of another service has a name that begins
like those of this one. -/
theorem groups_exact_iff {r : ClusterRouter} (hempty : r.registry = ∅) {tr : List Unit}
    {g : ServiceGroups} (hrun : Run step Careful ⟨r, ∅⟩ tr g) (sort : SortSlice)
    (serviceName : String) (hfilter : g.router.staticFilter serviceName = none) :
    g.Exact sort serviceName ↔ ¬ g.Foreign serviceName := by
  have hg : Faithful g := hrun.invariant_state Faithful (faithful_empty hempty)
    fun _ _ _ _ hg hcareful hstep => hg.step hcareful hstep
  exact ⟨fun hexact hforeign => hg.not_exact hfilter sort hforeign hexact,
    fun hforeign => hg.exact hfilter sort hforeign⟩

/-- Two services with one worker each, one of which leaves and comes back restarted. -/
theorem groups_exact_return : ∃ tr g,
    Run step Careful ⟨.new none, ∅⟩ tr g ∧ g.Exact .insertion "a" ∧
      g.router.members .insertion "a" = [⟨"n", "x", 2⟩] := by
  obtain ⟨tr, g, hrun, hforeign, hfilter, hmembers⟩ : ∃ tr g,
      Run step Careful ⟨.new none, ∅⟩ tr g ∧ ¬ g.Foreign "a" ∧
      (g.router.staticFilter "a").isNone = true ∧
      g.router.members .insertion "a" = [⟨"n", "x", 2⟩] :=
    Run.of_check [.join "a" ⟨"n", "x", 1⟩, .join "b" ⟨"n", "x", 1⟩, .leave "a" ⟨"n", "x", 1⟩,
      .join "a" ⟨"n", "x", 2⟩] (by decide +kernel)
  exact ⟨tr, g, hrun, (groups_exact_iff rfl hrun .insertion "a"
    (isNone_iff_eq_none.mp hfilter)).mpr hforeign, hmembers⟩

/-- A worker that joins again stays listed with the old generation; and `a` lists a worker that
joined only `a:b`. -/
theorem groups_not_exact : (∃ tr g, Run step anyStep ⟨.new none, ∅⟩ tr g ∧
      g.joined.lookup (.of "a" ⟨"n", "x", 2⟩) = some 2 ∧
      g.router.members .insertion "a" = [⟨"n", "x", 1⟩] ∧ ¬ g.Exact .insertion "a") ∧
    ∃ tr g, Run step anyStep ⟨.new none, ∅⟩ tr g ∧ g.joined.keys = [.of "a:b" ⟨"n", "x", 1⟩] ∧
      g.router.members .insertion "a" = [⟨"n", "x", 1⟩] ∧ ¬ g.Exact .insertion "a" := by
  constructor
  · obtain ⟨tr, g, hrun, hjoined, hmembers⟩ : ∃ tr g, Run step anyStep ⟨.new none, ∅⟩ tr g ∧
        g.joined.lookup (.of "a" ⟨"n", "x", 2⟩) = some 2 ∧
        g.router.members .insertion "a" = [⟨"n", "x", 1⟩] :=
      Run.of_check [.join "a" ⟨"n", "x", 1⟩, .join "a" ⟨"n", "x", 2⟩] (by decide +kernel)
    refine ⟨tr, g, hrun, hjoined, hmembers, fun hexact => ?_⟩
    have hcount := hexact ⟨"n", "x", 2⟩
    rw [hmembers, if_pos hjoined] at hcount
    exact absurd hcount (by decide)
  · obtain ⟨tr, g, hrun, hkeys, hmembers, hjoined⟩ : ∃ tr g, Run step anyStep ⟨.new none, ∅⟩ tr g ∧
        g.joined.keys = [.of "a:b" ⟨"n", "x", 1⟩] ∧
        g.router.members .insertion "a" = [⟨"n", "x", 1⟩] ∧
        g.joined.lookup (.of "a" ⟨"n", "x", 1⟩) ≠ some 1 :=
      Run.of_check [.join "a:b" ⟨"n", "x", 1⟩] (by decide +kernel)
    refine ⟨tr, g, hrun, hkeys, hmembers, fun hexact => ?_⟩
    have hcount := hexact ⟨"n", "x", 1⟩
    rw [hmembers, if_neg hjoined] at hcount
    exact absurd hcount (by decide)

end ServiceGroups

end Westcoast.Cluster
