import Westcoast.Cluster.Supervisor

/-!
# Placing the names of failed nodes

`ClusterSupervisor` with `SimpleRestartPolicy`, while some nodes crash. The crashes are reported to
the survivors, to all in one order. Only the node with the lowest hash in its view acts, so each
report has one node that answers for it (`leaderAt`).
-/
namespace Westcoast.Cluster

open Lib List Option SupervisorEvent Function DistributedRegistry Supervisor RingElection AList

/-- The nodes of a cluster: distinct identifiers, none of them empty (`NewCluster`). -/
structure Roster where
  nodes : List NodeMeta
  nodup : (nodes.map fun m => m.id).Nodup
  named : "" ∉ nodes.map fun m => m.id

namespace Roster

def ids (r : Roster) : List NodeID := r.nodes.map fun m => m.id

def view (r : Roster) (reports : List NodeMeta) : List NodeID :=
  r.ids.filter fun id => id ∉ reports.map fun m => m.id

/-- The node that answers for the last of the reports. -/
def leaderAt (r : Roster) (scope : String) (reports : List NodeMeta) : NodeID :=
  computeLeader scope (r.view reports)

end Roster

/-- The cluster, the reports so far, and how many of them each node has been told. -/
structure Failover where
  cluster : Supervisors NodeID
  reports : List NodeMeta
  seen : NodeID → ℕ

inductive FailoverAction
  | crash (id : NodeID)
  | report (m : NodeMeta)
  | deliver (id : NodeID)
  | work (id : NodeID) (a : SupervisorAction)

namespace Failover

/-- All nodes are up and know each other; the registry is the same everywhere. -/
def start (roster : Roster) (registry : DistributedRegistry) : Failover where
  cluster :=
    { nodes := fun id => .new id roster.nodes simpleRestartPolicy registry
      alive := fun id => id ∈ roster.ids }
  reports := []
  seen := fun _ => 0

/-- The registry is converged: what one node has written is everywhere. -/
def converge (c : Supervisors NodeID) (id : NodeID) : Supervisors NodeID :=
  { c with nodes := fun j => { c.nodes j with registry := (c.nodes id).registry } }

/-- One step. A crash leaves another node alive, and only crashed nodes are reported. -/
def step (roster : Roster) (scope : String) (s : Failover) :
    FailoverAction → Option (Failover × List (NodeID × SupervisorEvent))
  | .crash id =>
    if roster.ids.any fun j => j ≠ id ∧ s.cluster.alive j then
      (s.cluster.step scope (.crash id)).map fun r => ({ s with cluster := r.1 }, r.2)
    else none
  | .report m =>
    if m ∈ roster.nodes ∧ s.cluster.alive m.id = false ∧ m ∉ s.reports then
      some ({ s with reports := s.reports ++ [m] }, [])
    else none
  | .deliver id =>
    match s.reports[s.seen id]? with
    | none => none
    | some m =>
      (s.cluster.step scope (.node id (.receive ⟨.failed, m⟩))).map fun r =>
        ({ s with cluster := r.1, seen := Function.update s.seen id (s.seen id + 1) }, r.2)
  | .work id a =>
    if a.isCallback then
      (s.cluster.step scope (.node id a)).map fun r =>
        ({ s with cluster := converge r.1 id }, r.2)
    else none

end Failover

def SupervisorPc.undecided : SupervisorPc → Bool
  | .idle | .recorded _ => false
  | _ => true

def SupervisorPc.decides : SupervisorPc → Bool
  | .deciding .. => true
  | _ => false

namespace Failover

/-- The node has still to answer the report with this number. -/
def Pending (s : Failover) (id : NodeID) (k : ℕ) : Prop :=
  s.seen id ≤ k ∨ s.seen id = k + 1 ∧ (s.cluster.nodes id).pc.undecided = true

/-- The node that answers for a failure with names is alive when that is reported, has another node
to choose, and does not crash before; and when a node decides, it knows of all crashes: each peer it
has is alive. -/
def Survivable (roster : Roster) (scope : String) (registry : DistributedRegistry)
    (s : Failover) : FailoverAction → Prop
  | .report m =>
    registry.namesByNode m.id = [] ∨
      s.cluster.alive (roster.leaderAt scope (s.reports ++ [m])) = true ∧
        ∃ id ∈ roster.view (s.reports ++ [m]), id ≠ roster.leaderAt scope (s.reports ++ [m])
  | .crash id =>
    ∀ k < s.reports.length, ∀ m ∈ s.reports[k]?,
      id = roster.leaderAt scope (s.reports.take (k + 1)) → s.Pending id k →
        registry.namesByNode m.id = []
  | .work id .advance => (s.cluster.nodes id).pc.decides = true →
      ∀ x ∈ (s.cluster.nodes id).peers.keys, s.cluster.alive x = true
  | _ => True

instance (s : Failover) (id : NodeID) (k : ℕ) : Decidable (s.Pending id k) :=
  inferInstanceAs (Decidable (_ ∨ _ ∧ _))

instance (roster : Roster) (scope : String) (registry : DistributedRegistry) (s : Failover) :
    DecidablePred (s.Survivable roster scope registry)
  | .report _ => inferInstanceAs (Decidable (_ ∨ _ ∧ ∃ id ∈ _, _))
  | .crash _ => inferInstanceAs (Decidable (∀ k < _, ∀ m ∈ _, _ → _ → _))
  | .work _ .advance => inferInstanceAs (Decidable (_ → ∀ x ∈ _, _))
  | .deliver _ | .work _ (.receive _) | .work _ (.names _) | .work _ (.live _)
  | .work _ (.updatePeer _) | .work _ (.election _) | .work _ (.bind _ _)
  | .work _ (.unbind _) => inferInstanceAs (Decidable True)

/-- The name was placed, on a node that had not crashed, before it was taken out of the registry. -/
def Placed (roster : Roster) (tr : List (NodeID × SupervisorEvent)) (f : NodeID)
    (name : String) : Prop :=
  ∃ tr₁ id ds tr₂ d, tr = tr₁ ++ (id, .decided f ds) :: tr₂ ∧ d ∈ ds ∧ d.actorName = name ∧
    d.action = .restart ∧ d.targetNode ∈ roster.ids ∧ (d.targetNode, .crashed) ∉ tr₁ ∧
    ∀ j names, (j, .removed names) ∈ tr₁ → name ∉ names

/-- All failures have been reported, and the survivors are done with them. -/
def Quiet (roster : Roster) (s : Failover) : Prop :=
  ∀ m ∈ roster.nodes,
    if s.cluster.alive m.id then
      s.seen m.id = s.reports.length ∧ (s.cluster.nodes m.id).pc = .idle
    else m ∈ s.reports

/-! ### What a node knows -/

variable {roster : Roster} {tr : List (NodeID × SupervisorEvent)} {f : NodeID} {name : String}

theorem Placed.mono (h : Placed roster tr f name) (ext : List (NodeID × SupervisorEvent)) :
    Placed roster (tr ++ ext) f name := by
  obtain ⟨tr1, id, ds, tr2, d, rfl, h⟩ := h
  exact ⟨tr1, id, ds, tr2 ++ ext, d, by simp, h⟩

section

variable {roster : Roster} {scope : String} {registry : DistributedRegistry}
  {tr ext : List (NodeID × SupervisorEvent)} {reports more : List NodeMeta} {seen : ℕ}
  {id : NodeID} {n n' : Supervisor} {es : List SupervisorEvent}

/-- The election of the node has been told the first reports. -/
def Sees (roster : Roster) (reports : List NodeMeta) (k : ℕ) (n : Supervisor) : Prop :=
  k ≤ reports.length ∧ ∀ x, x ∈ n.election.members ↔ x ∈ roster.view (reports.take k)

def About (reports : List NodeMeta) (seen : ℕ) (m : NodeMeta) : Prop :=
  ∃ k, seen = k + 1 ∧ reports[k]? = some m

/-- What the node has established about the failure, by where it is. -/
def Stage (roster : Roster) (scope : String) (registry : DistributedRegistry)
    (tr : List (NodeID × SupervisorEvent)) (reports : List NodeMeta) (seen : ℕ) (n : Supervisor) :
    SupervisorPc → Prop
  | .idle => Sees roster reports seen n
  | .notified ev => ∃ m k, seen = k + 1 ∧ reports[k]? = some m ∧ ev = ⟨.failed, m⟩ ∧
      Sees roster reports k n
  | .failed m | .leading m => About reports seen m ∧ Sees roster reports seen n
  | .termed m term => About reports seen m ∧ Sees roster reports seen n ∧
      n.election.term scope = term
  | .named m term names => About reports seen m ∧ Sees roster reports seen n ∧
      n.election.term scope = term ∧ names ≠ [] ∧
      (∀ name ∈ names, name ∈ registry.namesByNode m.id) ∧
      ∀ name ∈ registry.namesByNode m.id, name ∈ names ∨ Placed roster tr m.id name
  | .deciding m term ds => About reports seen m ∧ Sees roster reports seen n ∧
      n.election.term scope = term ∧ (∀ d ∈ ds, d.targetNode ∈ n.peers) ∧
      ∀ name ∈ registry.namesByNode m.id,
        (∃ d ∈ ds, d.actorName = name ∧ d.action = .restart) ∨ Placed roster tr m.id name
  | .recorded m => About reports seen m ∧ Sees roster reports seen n ∧
      ∀ name ∈ registry.namesByNode m.id, Placed roster tr m.id name

structure Informed (roster : Roster) (scope : String) (registry : DistributedRegistry)
    (tr : List (NodeID × SupervisorEvent)) (reports : List NodeMeta) (seen : ℕ) (id : NodeID)
    (n : Supervisor) : Prop where
  elected : n.Elected
  localID : n.election.localID = id
  policy : n.policy = simpleRestartPolicy
  peers : ∀ x m, n.peers.lookup x = some m ↔ m ∈ roster.nodes ∧ m.id = x ∧ x ≠ id ∧
    x ∉ (reports.take seen).map fun m => m.id
  stage : Stage roster scope registry tr reports seen n n.pc

variable {k : ℕ}

theorem take_more (h : k ≤ reports.length) : (reports ++ more).take k = reports.take k :=
  take_append_of_le_length h

theorem Sees.mono (h : Sees roster reports k n) : Sees roster (reports ++ more) k n := by
  refine ⟨h.1.trans (by simp), fun x => ?_⟩
  rw [take_more h.1]
  exact h.2 x

variable {m : NodeMeta}

theorem getElem?_more (h : reports[k]? = some m) : (reports ++ more)[k]? = some m := by
  obtain ⟨hk, -⟩ := List.getElem?_eq_some_iff.mp h
  rw [getElem?_append_left hk, h]

theorem About.mono (h : About reports seen m) : About (reports ++ more) seen m := by
  obtain ⟨k, hk, hm⟩ := h
  exact ⟨k, hk, getElem?_more hm⟩

variable {pc : SupervisorPc}

theorem Stage.mono (h : Stage roster scope registry tr reports seen n pc) :
    Stage roster scope registry (tr ++ ext) (reports ++ more) seen n pc := by
  cases pc with
  | idle => exact Sees.mono h
  | notified ev =>
    obtain ⟨m, k, hk, hm, hev, hsees⟩ := h
    exact ⟨m, k, hk, getElem?_more hm, hev, hsees.mono⟩
  | failed m | leading m => exact ⟨h.1.mono, h.2.mono⟩
  | termed m term => exact ⟨h.1.mono, h.2.1.mono, h.2.2⟩
  | named m term names =>
    obtain ⟨habout, hsees, hterm, hne, hsub, hall⟩ := h
    exact ⟨habout.mono, hsees.mono, hterm, hne, hsub,
      fun name hname => (hall name hname).imp_right fun hp => hp.mono ext⟩
  | deciding m term ds =>
    obtain ⟨habout, hsees, hterm, htarget, hall⟩ := h
    exact ⟨habout.mono, hsees.mono, hterm, htarget,
      fun name hname => (hall name hname).imp_right fun hp => hp.mono ext⟩
  | recorded m =>
    exact ⟨h.1.mono, h.2.1.mono, fun name hname => (h.2.2 name hname).mono ext⟩

theorem Stage.seen_le (h : Stage roster scope registry tr reports seen n pc) :
    seen ≤ reports.length := by
  have habout : ∀ {k m}, reports[k]? = some m → k + 1 ≤ reports.length := fun hm =>
    (List.getElem?_eq_some_iff.mp hm).1
  cases pc with
  | idle => exact h.1
  | notified ev =>
    obtain ⟨m, k, rfl, hm, -⟩ := h
    exact habout hm
  | failed | leading | termed | named | deciding | recorded =>
    obtain ⟨⟨k, rfl, hm⟩, -⟩ := h
    exact habout hm

theorem Informed.mono (h : Informed roster scope registry tr reports seen id n)
    (ext : List (NodeID × SupervisorEvent)) (more : List NodeMeta) :
    Informed roster scope registry (tr ++ ext) (reports ++ more) seen id n where
  elected := h.elected
  localID := h.localID
  policy := h.policy
  peers := by
    rw [take_more h.stage.seen_le]
    exact h.peers
  stage := h.stage.mono

theorem Informed.setRegistry (h : Informed roster scope registry tr reports seen id n)
    (r : DistributedRegistry) :
    Informed roster scope registry tr reports seen id { n with registry := r } where
  elected := h.elected
  localID := h.localID
  policy := h.policy
  peers := h.peers
  stage := by
    have hstage := h.stage
    dsimp only
    cases hpc : n.pc <;> rw [hpc] at hstage <;> exact hstage

theorem mem_view_take_succ (hm : reports[k]? = some m) (x : NodeID) :
    x ∈ roster.view (reports.take (k + 1)) ↔ x ∈ roster.view (reports.take k) ∧ x ≠ m.id := by
  rw [take_add_one, hm]
  simp [Roster.view, not_or, and_assoc]

theorem mem_simpleRestartPolicy {f : NodeID} {names : List String} {live : List NodeMeta} :
    (live ≠ [] → ∀ name ∈ names, ∃ d ∈ simpleRestartPolicy f names live,
      d.actorName = name ∧ d.action = .restart) ∧
    ∀ d ∈ simpleRestartPolicy f names live, ∃ m ∈ live, d.targetNode = m.id := by
  constructor
  · intro hlive name hname
    have hlen : ¬ (live.length = 0 ∨ names.length = 0) := by
      rintro (h | h)
      · exact hlive (length_eq_zero_iff.mp h)
      · rw [length_eq_zero_iff.mp h] at hname
        cases hname
    obtain ⟨i, hi, rfl⟩ := mem_iff_getElem.mp hname
    rw [simpleRestartPolicy, dif_neg hlen]
    exact ⟨_, mem_mapIdx.mpr ⟨i, hi, rfl⟩, rfl, rfl⟩
  · intro d hd
    rw [simpleRestartPolicy] at hd
    split_ifs at hd with hlen
    · cases hd
    · obtain ⟨i, hi, rfl⟩ := mem_mapIdx.mp hd
      exact ⟨_, get_mem _ _, rfl⟩

theorem mem_liveMembers {f : NodeMeta} :
    m ∈ n.liveMembers f ↔ (∃ x, n.peers.lookup x = some m) ∧ m.id ≠ f.id := by
  simp only [liveMembers, List.mem_filter, List.mem_map, decide_eq_true_eq]
  refine and_congr_left fun _ => ⟨?_, ?_⟩
  · rintro ⟨⟨x, m⟩, hmem, rfl⟩
    exact ⟨x, mem_lookup_iff.mpr hmem⟩
  · rintro ⟨x, hx⟩
    exact ⟨⟨x, m⟩, mem_lookup_iff.mp hx, rfl⟩

/-- A binding of the start is there or was placed, none is new, and what was removed had been
placed. -/
structure Booked (roster : Roster) (registry : DistributedRegistry)
    (tr : List (NodeID × SupervisorEvent)) (r : DistributedRegistry) : Prop where
  bound : ∀ name pid, registry.lookup name = some pid →
    r.lookup name = some pid ∨ Placed roster tr pid.ns name
  kept : ∀ name pid, r.lookup name = some pid → registry.lookup name = some pid
  removed : ∀ j names name pid, (j, .removed names) ∈ tr → name ∈ names →
    registry.lookup name = some pid → Placed roster tr pid.ns name

/-- A report with names leaves the node that answers for it another one to choose. -/
def Choice (roster : Roster) (scope : String) (registry : DistributedRegistry)
    (reports : List NodeMeta) : Prop :=
  ∀ k m, reports[k]? = some m → registry.namesByNode m.id ≠ [] →
    ∃ x ∈ roster.view (reports.take (k + 1)), x ≠ roster.leaderAt scope (reports.take (k + 1))

variable {r : DistributedRegistry}

section Names

open DistributedRegistry (mem_namesByNode)

variable {f : NodeID} {name : String} (hb : Booked roster registry tr r)
include hb

theorem Booked.names (hname : name ∈ registry.namesByNode f) :
    name ∈ r.namesByNode f ∨ Placed roster tr f name := by
  obtain ⟨pid, hpid, rfl⟩ := mem_namesByNode.mp hname
  exact (hb.bound name pid hpid).imp_left fun hr => mem_namesByNode.mpr ⟨pid, hr, rfl⟩

theorem Booked.names_kept (hname : name ∈ r.namesByNode f) : name ∈ registry.namesByNode f := by
  obtain ⟨pid, hpid, rfl⟩ := mem_namesByNode.mp hname
  exact mem_namesByNode.mpr ⟨pid, hb.kept name pid hpid, rfl⟩

theorem Booked.placed (hnone : r.namesByNode f = []) (hname : name ∈ registry.namesByNode f) :
    Placed roster tr f name := by
  refine (hb.names hname).resolve_left ?_
  rw [hnone]
  exact not_mem_nil

theorem Booked.placed_of_removed {j : NodeID} {names : List String}
    (hmem : (j, .removed names) ∈ tr) (hin : name ∈ names) (hname : name ∈ registry.namesByNode f) :
    Placed roster tr f name := by
  obtain ⟨pid, hpid, rfl⟩ := mem_namesByNode.mp hname
  exact hb.removed j names name pid hmem hin hpid

end Names

theorem Informed.live (h : Informed roster scope registry tr reports seen id n)
    (hchoice : Choice roster scope registry reports) (habout : About reports seen m)
    (hnames : registry.namesByNode m.id ≠ []) : n.liveMembers m ≠ [] := by
  obtain ⟨k, rfl, hm⟩ := habout
  obtain ⟨x, hx, hne⟩ := hchoice k m hm hnames
  -- one of the leader and the other one is not this node
  obtain ⟨y, hy, hyid⟩ : ∃ y ∈ roster.view (reports.take (k + 1)), y ≠ id := by
    by_cases hxid : x = id
    · have hleader := (computeLeader_least scope (ne_nil_of_mem hx)).1
      exact ⟨_, hleader, fun heq => hne (hxid.trans heq.symm)⟩
    · exact ⟨x, hx, hxid⟩
  have hym : y ≠ m.id := ((mem_view_take_succ hm y).mp hy).2
  simp only [Roster.view, Roster.ids, mem_filter, decide_eq_true_eq] at hy
  obtain ⟨m', hm', rfl⟩ := mem_map.mp hy.1
  have hlook : n.peers.lookup m'.id = some m' := (h.peers _ _).mpr ⟨hm', rfl, hyid, hy.2⟩
  exact ne_nil_of_mem (mem_liveMembers.mpr ⟨⟨_, hlook⟩, hym⟩)

/-- **One statement of the callback.** What the node has established carries over. -/
theorem Informed.works (h : Informed roster scope registry tr reports seen id n)
    (hw : n.Works scope n' es) (hb : Booked roster registry tr n.registry)
    (hchoice : Choice roster scope registry reports)
    (htargets : ∀ f term ds, n.pc = .deciding f term ds → ∀ d ∈ ds,
      (d.targetNode, crashed) ∉ tr) :
    Informed roster scope registry (tr ++ es.map fun e => (id, e)) reports seen id n' := by
  have helected := (Supervisor.Moves.works hw).elected h.elected
  have hstage := h.stage
  have hkeep : n'.policy = n.policy ∧ n'.peers = n.peers := by cases hw <;> exact ⟨rfl, rfl⟩
  refine ⟨helected.1, helected.2.trans h.localID, hkeep.1.trans h.policy,
    by rw [hkeep.2]; exact h.peers, ?_⟩
  cases hw with
  | notified ev hpc =>
    rw [hpc] at hstage
    obtain ⟨m, k, rfl, hm, rfl, hsees⟩ := hstage
    refine ⟨⟨k, rfl, hm⟩, (List.getElem?_eq_some_iff.mp hm).1, fun x => ?_⟩
    have hmem : x ∈ updateMembers n.election.members ⟨.failed, m⟩ ↔
        x ∈ n.election.members ∧ x ≠ m.id := mem_updateMembers
    rw [mem_view_take_succ hm, ← hsees.2 x]
    exact hmem
  | checked m hpc =>
    rw [hpc] at hstage
    have hsees : Sees roster reports seen { n with election := (n.isLeader scope).2 } := by
      refine ⟨hstage.2.1, fun x => ?_⟩
      have hmembers : (n.isLeader scope).2.members = n.election.members :=
        members_ensureScope _ _
      simp only [hmembers]
      exact hstage.2.2 x
    dsimp only
    split_ifs
    · exact ⟨hstage.1, hsees⟩
    · exact hsees
  | termed m hpc =>
    rw [hpc] at hstage
    exact ⟨hstage.1, hstage.2, rfl⟩
  | unnamed m term hpc hnone | fenced m term ds hpc hterm | removed m hpc =>
    rw [hpc] at hstage
    exact hstage.2.1
  | named m term order hpc hperm hne =>
    rw [hpc] at hstage
    refine ⟨hstage.1, hstage.2.1, hstage.2.2, hne, fun name hname => ?_, fun name hname => ?_⟩
    · exact hb.names_kept (hperm.mem_iff.mp hname)
    · exact (hb.names hname).imp hperm.mem_iff.mpr fun hplaced => hplaced.mono _
  | listed m term names order hpc hperm =>
    rw [hpc] at hstage
    obtain ⟨habout, hsees, hterm, hne, hsub, hall⟩ := hstage
    obtain ⟨name0, hname0⟩ := exists_mem_of_ne_nil names hne
    have hlive := h.live hchoice habout (ne_nil_of_mem (hsub name0 hname0))
    have horder : order ≠ [] := fun hnil => hlive (hnil ▸ hperm).symm.eq_nil
    rw [h.policy]
    refine ⟨habout, hsees, hterm, fun d hd => ?_, fun name hname => ?_⟩
    · obtain ⟨m', hm', htarget⟩ := mem_simpleRestartPolicy.2 d hd
      obtain ⟨⟨x, hx⟩, -⟩ := mem_liveMembers.mp (hperm.mem_iff.mp hm')
      obtain ⟨-, rfl, -⟩ := (h.peers x m').mp hx
      rw [htarget]
      exact lookup_isSome.mp (isSome_of_mem hx)
    · rcases hall name hname with hmem | hplaced
      · exact .inl (mem_simpleRestartPolicy.1 horder name hmem)
      · exact .inr (hplaced.mono _)
  | decided m term ds hpc hterm =>
    rw [hpc] at hstage
    obtain ⟨habout, hsees, -, htarget, hall⟩ := hstage
    refine ⟨habout, hsees, fun name hname => ?_⟩
    have hnode : ∀ d ∈ ds, d.targetNode ∈ roster.ids := by
      intro d hd
      obtain ⟨m', hm'⟩ := isSome_iff_exists.mp (lookup_isSome.mpr (htarget d hd))
      obtain ⟨hmem, hid, -⟩ := (h.peers _ m').mp hm'
      exact hid ▸ mem_map_of_mem hmem
    rcases hall name hname with ⟨d, hd, hdname, hdaction⟩ | hplaced
    · -- the decision is recorded here, unless the name went before
      by_cases hgone : ∃ j names, (j, removed names) ∈ tr ∧ name ∈ names
      · obtain ⟨j, names, hmem, hin⟩ := hgone
        exact (hb.placed_of_removed hmem hin hname).mono _
      · exact ⟨tr, id, ds, [], d, rfl, hd, hdname, hdaction, hnode d hd,
          htargets m term ds hpc d hd, fun j names hmem hin => hgone ⟨j, names, hmem, hin⟩⟩
    · exact hplaced.mono _

theorem Booked.mono (hb : Booked roster registry tr r)
    (hext : ∀ j names, (j, SupervisorEvent.removed names) ∉ ext) :
    Booked roster registry (tr ++ ext) r where
  bound := fun name pid hpid => (hb.bound name pid hpid).imp_right fun hp => hp.mono ext
  kept := hb.kept
  removed := fun j names name pid hmem hin hpid => by
    rcases mem_append.mp hmem with hold | hnew
    · exact (hb.removed j names name pid hold hin hpid).mono ext
    · exact absurd hnew (hext j names)

theorem Booked.works (hb : Booked roster registry tr n.registry)
    (h : Informed roster scope registry tr reports seen id n) (hw : n.Works scope n' es) :
    Booked roster registry (tr ++ es.map fun e => (id, e)) n'.registry := by
  cases hw with
  | removed m hpc =>
    have hstage := h.stage
    rw [hpc] at hstage
    have hplaced := hstage.2.2
    have hlookup := lookup_unregisterByNode n.registry m.id
    refine ⟨fun name pid hpid => ?_, fun name pid hpid => ?_, ?_⟩
    · by_cases hns : pid.ns = m.id
      · refine .inr ?_
        rw [hns]
        exact (hplaced name (mem_namesByNode.mpr ⟨pid, hpid, hns⟩)).mono _
      · refine (hb.bound name pid hpid).imp (fun hr => ?_) fun hp => hp.mono _
        rw [hlookup, hr]
        simp [filter_some, hns]
    · rw [hlookup, filter_eq_some_iff] at hpid
      exact hb.kept name pid hpid.1
    · intro j names name pid hmem hin hpid
      rcases mem_append.mp hmem with hold | hnew
      · exact (hb.removed j names name pid hold hin hpid).mono _
      · simp only [map_cons, map_nil, mem_singleton, Prod.mk.injEq,
          removed.injEq] at hnew
        obtain ⟨-, rfl⟩ := hnew
        obtain ⟨pid', hpid', hns⟩ := mem_namesByNode.mp hin
        cases (hb.kept name pid' hpid').symm.trans hpid
        rw [hns]
        exact (hplaced name (mem_namesByNode.mpr ⟨_, hpid, hns⟩)).mono _
  | notified | checked | termed | unnamed | named | listed | fenced | decided =>
    exact hb.mono (by simp)

theorem Informed.isLeader (h : Informed roster scope registry tr reports seen id n)
    (hinj : Set.InjOn (ringHash scope) {x | x ∈ roster.ids}) (hsees : Sees roster reports seen n)
    (hid : id ∈ roster.ids) (hlead : id = roster.leaderAt scope (reports.take seen)) :
    (n.isLeader scope).1 = true := by
  have hinj' : Set.InjOn (ringHash scope) {x | x ∈ n.election.members} := by
    intro x hx y hy heq
    exact hinj (mem_filter.mp ((hsees.2 x).mp hx)).1
      (mem_filter.mp ((hsees.2 y).mp hy)).1 heq
  have hleader : computeLeader scope n.election.members = id :=
    (computeLeader_congr hinj' hsees.2).trans hlead.symm
  rw [isLeader_iff h.elected, hleader]
  refine ⟨fun hempty => roster.named ?_, h.localID.symm⟩
  rw [hempty] at hid
  exact hid

/-- The node that answers for a report gets on with it until the names are placed. -/
theorem Informed.answers (h : Informed roster scope registry tr reports seen id n)
    (hw : n.Works scope n' es) (hb : Booked roster registry tr n.registry)
    (hn' : Informed roster scope registry (tr ++ es.map fun e => (id, e)) reports seen id n')
    (hinj : Set.InjOn (ringHash scope) {x | x ∈ roster.ids}) (hid : id ∈ roster.ids)
    (hm : reports[k]? = some m) (hlead : id = roster.leaderAt scope (reports.take (k + 1)))
    (hpending : seen ≤ k ∨ seen = k + 1 ∧ n.pc.undecided = true) :
    (∀ name ∈ registry.namesByNode m.id, Placed roster (tr ++ es.map fun e => (id, e)) m.id name) ∨
    (seen ≤ k ∨ seen = k + 1 ∧ n'.pc.undecided = true) := by
  rcases hpending with hseen | ⟨rfl, hundecided⟩
  · exact .inr (.inl hseen)
  have hstage := h.stage
  -- the report the node is told of last is this one
  have habout : ∀ {m'}, About reports (k + 1) m' → m' = m := by
    rintro m' ⟨k', hk', hm'⟩
    cases Nat.succ.inj hk'
    exact Option.some.inj (hm'.symm.trans hm)
  cases hw with
  | notified ev hpc =>
    rw [hpc] at hstage
    obtain ⟨m', k', -, -, rfl, -⟩ := hstage
    exact .inr (.inr ⟨rfl, rfl⟩)
  | checked m' hpc =>
    rw [hpc] at hstage
    have htrue := h.isLeader hinj hstage.2 hid hlead
    exact .inr (.inr ⟨rfl, by simp only [htrue, if_true]; rfl⟩)
  | termed | named | listed => exact .inr (.inr ⟨rfl, rfl⟩)
  | unnamed m' term hpc hnone =>
    rw [hpc] at hstage
    obtain rfl := habout hstage.1
    exact .inl fun name hname => (hb.placed hnone hname).mono _
  | fenced m' term ds hpc hterm =>
    rw [hpc] at hstage
    exact absurd hstage.2.2.1 hterm
  | decided m' term ds hpc hterm =>
    have hrecorded := hn'.stage
    obtain rfl := habout hrecorded.1
    exact .inl hrecorded.2.2
  | removed m' hpc =>
    rw [hpc] at hundecided
    cases hundecided

end

/-! ### Runs -/

section

variable {roster : Roster} {scope : String} {registry : DistributedRegistry}
  {tr es : List (NodeID × SupervisorEvent)} {s s' : Failover} {a : FailoverAction}

/-- Every node knows what it was told, the registry agrees with the record, and every report is
answered or owed by a live node. -/
structure Answered (roster : Roster) (scope : String) (registry : DistributedRegistry)
    (tr : List (NodeID × SupervisorEvent)) (s : Failover) : Prop where
  alive : ∀ id, s.cluster.alive id = true ↔ id ∈ roster.ids ∧ (id, .crashed) ∉ tr
  nodes : ∀ id ∈ roster.ids, Informed roster scope registry tr s.reports (s.seen id) id
    (s.cluster.nodes id)
  booked : ∀ id, Booked roster registry tr (s.cluster.nodes id).registry
  choice : Choice roster scope registry s.reports
  answered : ∀ k m, s.reports[k]? = some m →
    (∀ name ∈ registry.namesByNode m.id, Placed roster tr m.id name) ∨
      s.cluster.alive (roster.leaderAt scope (s.reports.take (k + 1))) = true ∧
        s.Pending (roster.leaderAt scope (s.reports.take (k + 1))) k

variable {id : NodeID}

section
variable (h : Answered roster scope registry tr s)
include h

theorem answered_crash (hg : s.Survivable roster scope registry (.crash id))
    (hs : s.step roster scope (.crash id) = some (s', es)) :
    Answered roster scope registry (tr ++ es) s' := by
  obtain ⟨-, hs⟩ := ite_none_right_eq_some.mp hs
  obtain ⟨⟨c, es'⟩, hc, heq⟩ := map_eq_some_iff.mp hs
  cases heq
  obtain ⟨-, hc⟩ := ite_none_right_eq_some.mp hc
  cases hc
  refine ⟨fun j => ?_, fun j hj => ?_, fun j => (h.booked j).mono (by simp), h.choice, ?_⟩
  · dsimp only
    by_cases hj : j = id
    · subst hj
      simp
    · rw [update_of_ne hj, h.alive j]
      simp [hj]
  · simpa using (h.nodes j hj).mono [(id, .crashed)] []
  · intro k m hm
    rcases h.answered k m hm with hplaced | ⟨halive, hpending⟩
    · exact .inl fun name hname => (hplaced name hname).mono _
    · by_cases hlead : id = roster.leaderAt scope (s.reports.take (k + 1))
      · -- the node that owes the answer crashes only if there is nothing to place
        have hlt := (List.getElem?_eq_some_iff.mp hm).1
        have hnone := hg k hlt m hm hlead (hlead ▸ hpending)
        exact .inl fun name hname => by rw [hnone] at hname; cases hname
      · refine .inr ⟨?_, hpending⟩
        dsimp only
        rw [update_of_ne (Ne.symm hlead)]
        exact halive

theorem answered_report {m : NodeMeta} (hg : s.Survivable roster scope registry (.report m))
    (hs : s.step roster scope (.report m) = some (s', es)) :
    Answered roster scope registry (tr ++ es) s' := by
  obtain ⟨-, heq⟩ := ite_none_right_eq_some.mp hs
  cases heq
  -- a number below the new one stands for the same report, in the same view
  have hold : ∀ {k m'}, (s.reports ++ [m])[k]? = some m' →
      s.reports[k]? = some m' ∧ (s.reports ++ [m]).take (k + 1) = s.reports.take (k + 1) ∨
        k = s.reports.length ∧ m' = m ∧ (s.reports ++ [m]).take (k + 1) = s.reports ++ [m] := by
    intro k m' hm'
    by_cases hk : k < s.reports.length
    · rw [getElem?_append_left hk] at hm'
      exact .inl ⟨hm', take_more hk⟩
    · obtain ⟨hlt, -⟩ := List.getElem?_eq_some_iff.mp hm'
      rw [length_append, length_singleton] at hlt
      have hk' : k = s.reports.length := by omega
      subst hk'
      refine .inr ⟨rfl, ?_, take_of_length_le (by simp)⟩
      simpa using hm'.symm
  rw [append_nil]
  refine ⟨h.alive, fun j hj => ?_, h.booked, fun k m' hm' hnames => ?_, fun k m' hm' => ?_⟩
  · simpa using (h.nodes j hj).mono [] [m]
  · rcases hold hm' with ⟨hm', htake⟩ | ⟨rfl, rfl, htake⟩
    · rw [htake]
      exact h.choice k m' hm' hnames
    · rw [htake]
      exact (hg.resolve_left hnames).2
  · rcases hold hm' with ⟨hm', htake⟩ | ⟨rfl, rfl, htake⟩
    · rw [htake]
      exact h.answered k m' hm'
    · rw [htake]
      rcases hg with hnone | ⟨halive, -⟩
      · exact .inl fun name hname => by rw [hnone] at hname; cases hname
      · refine .inr ⟨halive, .inl ?_⟩
        exact (h.nodes _ ((h.alive _).mp halive).1).stage.seen_le

theorem answered_deliver (hs : s.step roster scope (.deliver id) = some (s', es)) :
    Answered roster scope registry (tr ++ es) s' := by
  simp only [step] at hs
  split at hs
  · cases hs
  next m hm =>
  obtain ⟨⟨c, es'⟩, hc, heq⟩ := map_eq_some_iff.mp hs
  cases heq
  obtain ⟨halive, hc⟩ := ite_none_right_eq_some.mp hc
  obtain ⟨⟨n', es1⟩, hn, heq⟩ := map_eq_some_iff.mp hc
  cases heq
  obtain ⟨hpc, heq⟩ := ite_none_right_eq_some.mp hn
  cases heq
  have hid := ((h.alive id).mp halive).1
  have hinf := h.nodes id hid
  have hidle := hinf.stage
  rw [hpc] at hidle
  rw [map_nil, append_nil]
  refine ⟨h.alive, fun j hj => ?_, fun j => ?_, h.choice, fun k m' hm' => ?_⟩
  · by_cases hji : j = id
    · subst hji
      simp only [update_self]
      refine ⟨hinf.elected, hinf.localID, hinf.policy, fun x m' => ?_, m, _, rfl, hm, rfl, hidle⟩
      have hpeers : updatePeers (s.cluster.nodes j).peers ⟨.failed, m⟩ =
          (s.cluster.nodes j).peers.erase m.id := rfl
      rw [hpeers, lookup_erase_ite, take_add_one, hm]
      by_cases hx : x = m.id
      · simp [hx]
      · simpa [hx] using hinf.peers x m'
    · simp only [update_of_ne hji]
      exact h.nodes j hj
  · have hbooked := h.booked j
    by_cases hji : j = id
    · subst hji
      simpa using hbooked
    · simpa only [update_of_ne hji] using hbooked
  · refine (h.answered k m' hm').imp_right fun hp => ⟨hp.1, ?_⟩
    have hpending := hp.2
    dsimp only at hpending ⊢
    generalize roster.leaderAt scope (s.reports.take (k + 1)) = leader at hpending
    by_cases hl : leader = id
    · subst hl
      simp only [Pending, update_self]
      rcases hpending with hle | ⟨-, hundecided⟩
      · rcases Nat.lt_or_eq_of_le hle with hlt | heq
        · exact .inl hlt
        · exact .inr ⟨by rw [heq], rfl⟩
      · rw [hpc] at hundecided
        cases hundecided
    · simpa only [Pending, update_of_ne hl] using hpending

end

theorem answered_work (hinj : Set.InjOn (ringHash scope) {x | x ∈ roster.ids})
    {act : SupervisorAction} (h : Answered roster scope registry tr s)
    (hg : s.Survivable roster scope registry (.work id act))
    (hs : s.step roster scope (.work id act) = some (s', es)) :
    Answered roster scope registry (tr ++ es) s' := by
  obtain ⟨hact, hs⟩ := ite_none_right_eq_some.mp hs
  obtain ⟨⟨c, es'⟩, hc, heq⟩ := map_eq_some_iff.mp hs
  cases heq
  obtain ⟨halive, hc⟩ := ite_none_right_eq_some.mp hc
  obtain ⟨⟨n', es1⟩, hn, heq⟩ := map_eq_some_iff.mp hc
  cases heq
  have hid := ((h.alive id).mp halive).1
  have hw := works_of_step hact hn
  have htargets : ∀ f term ds, (s.cluster.nodes id).pc = .deciding f term ds → ∀ d ∈ ds,
      (d.targetNode, crashed) ∉ tr := by
    intro f term ds hpc d hd
    -- only `advance` goes on from here
    cases act with
    | advance =>
      have hstage := (h.nodes id hid).stage
      rw [hpc] at hstage
      obtain ⟨-, -, -, htarget, -⟩ := hstage
      exact ((h.alive _).mp (hg (by rw [hpc]; rfl) _ (htarget d hd))).2
    | names | live => simp [Supervisor.step, hpc] at hn
    | receive | updatePeer | election | bind | unbind => cases hact
  have hinf := (h.nodes id hid).works hw (h.booked id) h.choice htargets
  have hbooked := (h.booked id).works (h.nodes id hid) hw
  refine ⟨fun j => ?_, fun j hj => ?_, fun j => ?_, h.choice, fun k m hm => ?_⟩
  · have hcrash : (j, crashed) ∉ es1.map fun e => (id, e) := by
      cases hw <;> simp
    rw [mem_append, not_or, and_iff_left hcrash]
    exact h.alive j
  · by_cases hji : j = id
    · subst hji
      simp only [converge, update_self]
      exact hinf
    · simp only [converge, update_self, update_of_ne hji]
      have hother := (h.nodes j hj).mono (es1.map fun e => (id, e)) []
      rw [append_nil] at hother
      exact hother.setRegistry n'.registry
  · simp only [converge, update_self]
    exact hbooked
  · rcases h.answered k m hm with hplaced | ⟨hlive, hpending⟩
    · exact .inl fun name hname => (hplaced name hname).mono _
    · by_cases hl : id = roster.leaderAt scope (s.reports.take (k + 1))
      · rw [← hl] at hpending
        refine ((h.nodes id hid).answers hw (h.booked id) hinf hinj hid hm hl hpending).imp_right
          fun hp => ⟨hlive, ?_⟩
        rw [← hl]
        simpa [Pending, converge] using hp
      · refine .inr ⟨hlive, ?_⟩
        simpa [Pending, converge, update_of_ne (Ne.symm hl)] using hpending

theorem informed_start (scope : String) (registry : DistributedRegistry) (hid : id ∈ roster.ids) :
    Informed roster scope registry [] [] 0 id
      (.new id roster.nodes simpleRestartPolicy registry) where
  elected := elected_new _ _ _ _
  localID := rfl
  policy := rfl
  peers := by
    intro x m
    have hnodup : ((roster.nodes.filter fun m => m.id ≠ id).map fun m => m.id).Nodup :=
      roster.nodup.sublist (filter_sublist.map _)
    refine (lookup_foldl_insert hnodup ∅ x m).trans ?_
    simp only [mem_filter, decide_eq_true_eq, lookup_empty, reduceCtorEq, and_false,
      or_false, take_nil, map_nil, not_mem_nil, not_false_eq_true, and_true]
    constructor
    · rintro ⟨⟨hm, hne⟩, rfl⟩
      exact ⟨hm, rfl, hne⟩
    · rintro ⟨hm, rfl, hne⟩
      exact ⟨⟨hm, hne⟩, rfl⟩
  stage := by
    refine ⟨Nat.le_refl _, fun x => ?_⟩
    have hmembers : x ∈ membersOf id roster.nodes ↔ x = id ∨ x ∈ roster.ids :=
      mem_membersOf
    have hview : x ∈ roster.view (List.take 0 []) ↔ x ∈ roster.ids := by simp [Roster.view]
    rw [hview]
    refine hmembers.trans ⟨?_, .inr⟩
    rintro (rfl | hx)
    · exact hid
    · exact hx

theorem answered_start (roster : Roster) (scope : String) (registry : DistributedRegistry) :
    Answered roster scope registry [] (start roster registry) where
  alive := fun id => by simp [start]
  nodes := fun id hid => informed_start scope registry hid
  booked := fun _ => ⟨fun _ _ hpid => .inl hpid, fun _ _ hpid => hpid,
    fun _ _ _ _ hmem => nomatch hmem⟩
  choice := fun _ _ hm => nomatch hm
  answered := fun _ _ hm => nomatch hm

theorem answered_run (hinj : Set.InjOn (ringHash scope) {x | x ∈ roster.ids})
    (hrun : Run (step roster scope) (Survivable roster scope registry) (start roster registry) tr
      s) : Answered roster scope registry tr s := by
  refine hrun.invariant (Answered roster scope registry) (answered_start roster scope registry) ?_
  intro tr s a s' es h hg hs
  cases a with
  | crash id => exact answered_crash h hg hs
  | report m => exact answered_report h hg hs
  | deliver id => exact answered_deliver h hs
  | work id act => exact answered_work hinj h hg hs

/-- **Every orphan is placed.** Once all failures are reported and the survivors are done, each name
of a crashed node was given a place on a live node before it left the registry. -/
theorem orphans_placed (hinj : Set.InjOn (ringHash scope) {x | x ∈ roster.ids})
    (hrun : Run (step roster scope) (Survivable roster scope registry) (start roster registry) tr
      s) (hquiet : s.Quiet roster) :
    ∀ m ∈ roster.nodes, s.cluster.alive m.id = false →
      ∀ name ∈ registry.namesByNode m.id, Placed roster tr m.id name := by
  have h := answered_run hinj hrun
  intro m hm hdead name hname
  have hreported := hquiet m hm
  rw [hdead] at hreported
  obtain ⟨k, hk, hkm⟩ := mem_iff_getElem.mp hreported
  have hget : s.reports[k]? = some m := List.getElem?_eq_some_iff.mpr ⟨hk, hkm⟩
  rcases h.answered k m hget with hplaced | ⟨halive, hpending⟩
  · exact hplaced name hname
  · -- a survivor has been told all and does nothing, so it owes no answer
    obtain ⟨m', hm', hid⟩ := mem_map.mp ((h.alive _).mp halive).1
    have hdone := hquiet m' hm'
    rw [hid, if_pos halive] at hdone
    rcases hpending with hle | ⟨-, hundecided⟩
    · omega
    · rw [hdone.2] at hundecided
      cases hundecided

end

instance (roster : Roster) (s : Failover) : Decidable (s.Quiet roster) :=
  inferInstanceAs (Decidable (∀ m ∈ roster.nodes, if s.cluster.alive m.id then
    s.seen m.id = s.reports.length ∧ (s.cluster.nodes m.id).pc = .idle else m ∈ s.reports))

def trio : Roster := ⟨[⟨"a", "", []⟩, ⟨"b", "", []⟩, ⟨"c", "", []⟩], by decide, by decide⟩

def orphan : DistributedRegistry := insert "svc" ⟨"c", "svc", 1⟩ ∅

def answeredByA : List FailoverAction :=
  [.crash "c", .report ⟨"c", "", []⟩, .deliver "b", .deliver "a", .work "a" .advance,
    .work "b" .advance, .work "a" .advance, .work "a" .advance, .work "a" (.names ["svc"]),
    .work "b" .advance, .work "a" (.live [⟨"b", "", []⟩]), .work "a" .advance,
    .work "a" .advance]

theorem orphans_placed_trio : ∃ s tr, exec (step trio clusterSupervisorScope)
        (fun s a => decide (s.Survivable trio clusterSupervisorScope orphan a))
        (start trio orphan) answeredByA = some (s, tr) ∧
      tr = [("c", .crashed), ("a", .decided "c" [⟨"svc", "b", .restart⟩]),
        ("a", .removed ["svc"])] ∧ Placed trio tr "c" "svc" := by
  have hinj : ∀ x ∈ trio.ids, ∀ y ∈ trio.ids,
      ringHash clusterSupervisorScope x = ringHash clusterSupervisorScope y → x = y := by
    decide +kernel
  refine exec_then (P := fun s tr => tr = [("c", .crashed),
    ("a", .decided "c" [⟨"svc", "b", .restart⟩]), ("a", .removed ["svc"])] ∧
      s.Quiet trio ∧ s.cluster.alive "c" = false) (by decide +kernel) ?_
  rintro s tr hexec ⟨htr, hquiet, hdead⟩
  exact ⟨htr, orphans_placed (fun x hx y hy heq => hinj x hx y hy heq)
    (Run.of_exec (fun _ _ h => of_decide_eq_true h) hexec) hquiet ⟨"c", "", []⟩ (by decide) hdead
    "svc" (by decide)⟩

def duo : Roster := ⟨[⟨"a", "", []⟩, ⟨"c", "", []⟩], by decide, by decide⟩

def soleSurvivor : List FailoverAction :=
  [.crash "c", .report ⟨"c", "", []⟩, .deliver "a", .work "a" .advance, .work "a" .advance,
    .work "a" .advance, .work "a" (.names ["svc"]), .work "a" (.live []), .work "a" .advance,
    .work "a" .advance]

/-- `a` crashes too, and the failure of `c` is reported first: the node that should answer for it is
gone. -/
def leaderGone : List FailoverAction :=
  [.crash "c", .crash "a", .report ⟨"c", "", []⟩, .report ⟨"a", "", []⟩, .deliver "b",
    .work "b" .advance, .work "b" .advance, .deliver "b", .work "b" .advance,
    .work "b" .advance, .work "b" .advance, .work "b" (.names [])]

def targetGone : List FailoverAction :=
  [.crash "c", .crash "b", .report ⟨"c", "", []⟩, .report ⟨"b", "", []⟩, .deliver "a",
    .work "a" .advance, .work "a" .advance, .work "a" .advance, .work "a" (.names ["svc"]),
    .work "a" (.live [⟨"b", "", []⟩]), .work "a" .advance, .work "a" .advance, .deliver "a",
    .work "a" .advance, .work "a" .advance, .work "a" .advance, .work "a" (.names [])]

theorem Placed.decided (h : Placed roster tr f name) :
    ∃ id ds, (id, .decided f ds) ∈ tr ∧ ds ≠ [] := by
  obtain ⟨tr1, id, ds, tr2, d, rfl, hd, -⟩ := h
  exact ⟨id, ds, by simp, ne_nil_of_mem hd⟩

/-- A run to the end after which `c` is down and its name was not placed. -/
def Lost (roster : Roster) (acts : List FailoverAction) (tr : List (NodeID × SupervisorEvent)) :
    Prop :=
  ∃ s, exec (step roster clusterSupervisorScope) (fun _ _ => true) (start roster orphan) acts =
      some (s, tr) ∧ s.Quiet roster ∧ s.cluster.alive "c" = false ∧ ¬ Placed roster tr "c" "svc"

theorem lost_of_exec {acts : List FailoverAction}
    (hend : (exec (step roster clusterSupervisorScope) (fun _ _ => true) (start roster orphan)
      acts).map (fun r => (decide (r.1.Quiet roster), r.1.cluster.alive "c", r.2)) =
        some (true, false, tr)) (hplaced : ¬ Placed roster tr "c" "svc") : Lost roster acts tr := by
  obtain ⟨⟨s, tr'⟩, hexec, hres⟩ := map_eq_some_iff.mp hend
  simp only [Prod.mk.injEq] at hres
  obtain ⟨hquiet, hdead, rfl⟩ := hres
  exact ⟨s, hexec, of_decide_eq_true hquiet, hdead, hplaced⟩

/-- The name of `c` is not placed: it is removed without a decision, stays bound, or is sent to a
crashed node. -/
theorem orphans_lost :
    Lost duo soleSurvivor [("c", .crashed), ("a", .decided "c" []), ("a", .removed ["svc"])] ∧
    Lost trio leaderGone [("c", .crashed), ("a", .crashed)] ∧
    Lost trio targetGone [("c", .crashed), ("b", .crashed),
      ("a", .decided "c" [⟨"svc", "b", .restart⟩]), ("a", .removed ["svc"])] := by
  refine ⟨lost_of_exec (by decide +kernel) ?_, lost_of_exec (by decide +kernel) ?_,
    lost_of_exec (by decide +kernel) ?_⟩
  · intro hplaced
    obtain ⟨id, ds, hmem, hne⟩ := hplaced.decided
    simp only [mem_cons, Prod.mk.injEq, reduceCtorEq, decided.injEq,
      and_false, false_or, or_false, not_mem_nil] at hmem
    exact hne hmem.2.2
  · intro hplaced
    obtain ⟨id, ds, hmem, -⟩ := hplaced.decided
    simp at hmem
  · rintro ⟨tr1, id, ds, tr2, d, htr, hd, -, -, -, hlive, -⟩
    -- the decision is the third event, after the crash of its target
    have hthird : tr1 = [("c", .crashed), ("b", .crashed)] ∧ ds = [⟨"svc", "b", .restart⟩] := by
      rcases tr1 with _ | ⟨e1, _ | ⟨e2, _ | ⟨e3, _ | ⟨e4, tr1⟩⟩⟩⟩ <;>
        simp at htr
      obtain ⟨rfl, rfl, ⟨-, rfl⟩, -⟩ := htr
      exact ⟨rfl, rfl⟩
    rw [hthird.2, mem_singleton] at hd
    rw [hthird.1, hd] at hlive
    exact hlive (by simp)

end Failover

end Westcoast.Cluster
