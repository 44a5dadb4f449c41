import Mathlib.Data.Fintype.Basic
import Westcoast.Cluster.Registry
import Westcoast.Cluster.RingElection
import Westcoast.Provider.Core

/-!
# The supervisor of a cluster

`supervision_cluster.go`, with `placement.go`. If a node has failed and this node leads, the
supervisor decides where its names go and then takes them out of the registry. The callback takes no
lock, so its reads are steps (`SupervisorPc`), between which other goroutines change what it reads.
The order in which a map is ranged over comes with the step.
-/
namespace Westcoast.Cluster

open Lib List Option

/-- The scope of the election, unless another is configured. -/
def clusterSupervisorScope : String := "cluster_supervisor"

inductive PlacementAction
  | restart
  | abandon
  deriving DecidableEq

structure PlacementDecision where
  actorName : String
  targetNode : NodeID
  action : PlacementAction
  deriving DecidableEq

/-- `OnNodeFailed` of a `ClusterSupervisionPolicy`. -/
abbrev SupervisionPolicy := NodeID → List String → List NodeMeta → List PlacementDecision

/-- `SimpleRestartPolicy`: the names are dealt out in turn. -/
def simpleRestartPolicy : SupervisionPolicy := fun _ actorNames liveMembers =>
  if h : liveMembers.length = 0 ∨ actorNames.length = 0 then []
  else
    actorNames.mapIdx fun i name =>
      ⟨name, (liveMembers.get ⟨i % liveMembers.length, Nat.mod_lt _ (by omega)⟩).id, .restart⟩

inductive SupervisorPc
  | idle
  /-- The peers are corrected, and the callback starts. -/
  | notified (ev : MemberEvent)
  /-- The election knows of the failure. -/
  | failed (f : NodeMeta)
  /-- `IsLeader` was true. -/
  | leading (f : NodeMeta)
  | termed (f : NodeMeta) (term : ℕ)
  | named (f : NodeMeta) (term : ℕ) (actorNames : List String)
  | deciding (f : NodeMeta) (term : ℕ) (decisions : List PlacementDecision)
  /-- The decisions are recorded, and the names are still bound. -/
  | recorded (f : NodeMeta)
  deriving DecidableEq

/-- One node: its `ClusterSupervisor`, the election, the peers of its cluster, and its replica
of the registry. -/
structure Supervisor where
  election : RingElection
  peers : AList (fun _ : NodeID => NodeMeta)
  registry : DistributedRegistry
  policy : SupervisionPolicy
  decisions : List PlacementDecision
  pc : SupervisorPc

/-- What happens on a node. The last four are `UpdatePeerMeta`, uses of the election, and the
registry's own calls and replication. -/
inductive SupervisorAction
  | receive (ev : MemberEvent)
  | advance
  | names (order : List String)
  | live (order : List NodeMeta)
  | updatePeer (peer : NodeMeta)
  | election (call : RingAction)
  | bind (name : String) (pid : PID)
  | unbind (name : String)

def SupervisorAction.isCallback : SupervisorAction → Bool
  | .advance | .names _ | .live _ => true
  | _ => false

inductive SupervisorEvent
  | decided (f : NodeID) (decisions : List PlacementDecision)
  | removed (actorNames : List String)
  | bound (name : String) (pid : PID)
  | crashed
  deriving DecidableEq

/-- The peers after an event, as `handleMemberEvent` corrects them. -/
def updatePeers (peers : AList (fun _ : NodeID => NodeMeta)) (ev : MemberEvent) :
    AList (fun _ : NodeID => NodeMeta) :=
  if ev.type.departs then peers.erase ev.member.id else peers.insert ev.member.id ev.member

namespace SupervisorPc

/-- The node has found that it leads, and has not yet recorded its decisions. -/
def leads : SupervisorPc → Bool
  | .leading _ | .termed _ _ | .named _ _ _ | .deciding _ _ _ => true
  | .idle | .notified _ | .failed _ | .recorded _ => false

/-- The node has found names of the failed node. -/
def holds (f : NodeID) : SupervisorPc → Bool
  | .named g _ _ | .deciding g _ _ => g.id = f
  | _ => false

end SupervisorPc

namespace Supervisor

def new (id : NodeID) (members : List NodeMeta) (policy : SupervisionPolicy)
    (registry : DistributedRegistry) : Supervisor where
  election := (RingElection.new id).setMembers members
  peers := (members.filter fun m => m.id ≠ id).foldl (fun peers m => peers.insert m.id m) ∅
  registry := registry
  policy := policy
  decisions := []
  pc := .idle

/-- The nodes a decision may name. The node itself is not one. -/
def liveMembers (n : Supervisor) (failed : NodeMeta) : List NodeMeta :=
  (n.peers.entries.map fun e => e.2).filter fun m => m.id ≠ failed.id

def isLeader (n : Supervisor) (scope : String) : Bool × RingElection :=
  let r := n.election.leader scope
  (r.1.2 && r.1.1 = n.election.localID, r.2)

/-- `handleNodeFailure`, one lock at a time. -/
def advance (scope : String) (n : Supervisor) : Option (Supervisor × List SupervisorEvent) :=
  match n.pc with
  | .notified ev =>
    some ({ n with
      election := n.election.onMembershipChange ev
      pc := if ev.type = .failed then .failed ev.member else .idle }, [])
  | .failed f =>
    let r := n.isLeader scope
    some ({ n with election := r.2, pc := if r.1 then .leading f else .idle }, [])
  | .leading f => some ({ n with pc := .termed f (n.election.term scope) }, [])
  | .deciding f term decisions =>
    if n.election.term scope ≠ term then some ({ n with pc := .idle }, [])
    else
      some ({ n with decisions := n.decisions ++ decisions, pc := .recorded f },
        [.decided f.id decisions])
  | .recorded f =>
    let r := n.registry.unregisterByNode f.id
    some ({ n with registry := r.2, pc := .idle }, [.removed r.1])
  | .idle | .termed _ _ | .named _ _ _ => none

def step (scope : String) (n : Supervisor) :
    SupervisorAction → Option (Supervisor × List SupervisorEvent)
  | .receive ev =>
    if n.pc = .idle then some ({ n with peers := updatePeers n.peers ev, pc := .notified ev }, [])
    else none
  | .advance => n.advance scope
  | .names order =>
    match n.pc with
    | .termed f term =>
      if order.isPerm (n.registry.namesByNode f.id) then
        some ({ n with pc := if order = [] then .idle else .named f term order }, [])
      else none
    | _ => none
  | .live order =>
    match n.pc with
    | .named f term actorNames =>
      if order.isPerm (n.liveMembers f) then
        some ({ n with pc := .deciding f term (n.policy f.id actorNames order) }, [])
      else none
    | _ => none
  | .updatePeer peer =>
    match n.peers.lookup peer.id with
    | none => some (n, [])
    | some existing =>
      if Provider.tagsEqual existing.tags peer.tags then some (n, [])
      else some ({ n with peers := n.peers.insert peer.id peer }, [])
  | .election call => (n.election.step call).map fun r => ({ n with election := r.1 }, [])
  | .bind name pid => some ({ n with registry := n.registry.insert name pid }, [.bound name pid])
  | .unbind name => some ({ n with registry := n.registry.erase name }, [])

/-! ### One step -/

inductive Works (scope : String) (n : Supervisor) : Supervisor → List SupervisorEvent → Prop
  | notified (ev : MemberEvent) (hpc : n.pc = .notified ev) : Works scope n
        { n with
          election := n.election.onMembershipChange ev
          pc := if ev.type = .failed then .failed ev.member else .idle } []
  | checked (f : NodeMeta) (hpc : n.pc = .failed f) : Works scope n
        { n with
          election := (n.isLeader scope).2
          pc := if (n.isLeader scope).1 then .leading f else .idle } []
  | termed (f : NodeMeta) (hpc : n.pc = .leading f) :
      Works scope n { n with pc := .termed f (n.election.term scope) } []
  | unnamed (f : NodeMeta) (term : ℕ) (hpc : n.pc = .termed f term)
      (hnone : n.registry.namesByNode f.id = []) : Works scope n { n with pc := .idle } []
  | named (f : NodeMeta) (term : ℕ) (order : List String) (hpc : n.pc = .termed f term)
      (hperm : order.Perm (n.registry.namesByNode f.id)) (hne : order ≠ []) :
      Works scope n { n with pc := .named f term order } []
  | listed (f : NodeMeta) (term : ℕ) (actorNames : List String) (order : List NodeMeta)
      (hpc : n.pc = .named f term actorNames) (hperm : order.Perm (n.liveMembers f)) :
      Works scope n { n with pc := .deciding f term (n.policy f.id actorNames order) } []
  | fenced (f : NodeMeta) (term : ℕ) (decisions : List PlacementDecision)
      (hpc : n.pc = .deciding f term decisions) (hterm : n.election.term scope ≠ term) :
      Works scope n { n with pc := .idle } []
  | decided (f : NodeMeta) (term : ℕ) (decisions : List PlacementDecision)
      (hpc : n.pc = .deciding f term decisions) (hterm : n.election.term scope = term) :
      Works scope n { n with decisions := n.decisions ++ decisions, pc := .recorded f }
        [.decided f.id decisions]
  | removed (f : NodeMeta) (hpc : n.pc = .recorded f) :
      Works scope n { n with registry := (n.registry.unregisterByNode f.id).2, pc := .idle }
        [.removed (n.registry.namesByNode f.id)]

inductive Moves (scope : String) (n : Supervisor) : Supervisor → List SupervisorEvent → Prop
  | received (ev : MemberEvent) (hpc : n.pc = .idle) :
      Moves scope n { n with peers := updatePeers n.peers ev, pc := .notified ev } []
  | works {n' : Supervisor} {es : List SupervisorEvent} (h : n.Works scope n' es) :
      Moves scope n n' es
  | peers (peers : AList (fun _ : NodeID => NodeMeta)) : Moves scope n { n with peers := peers } []
  | election (call : RingAction) (e : RingElection) (res : List RingEvent)
      (hcall : n.election.step call = some (e, res)) : Moves scope n { n with election := e } []
  | bound (name : String) (pid : PID) :
      Moves scope n { n with registry := n.registry.insert name pid } [.bound name pid]
  | unbound (name : String) : Moves scope n { n with registry := n.registry.erase name } []

variable {scope : String} {n n' : Supervisor} {es : List SupervisorEvent}

variable {a : SupervisorAction}

theorem works_of_step (ha : a.isCallback = true) (h : n.step scope a = some (n', es)) :
    n.Works scope n' es := by
  cases a with
  | advance =>
    simp only [step, advance] at h
    cases hpc : n.pc with
    | idle | termed f term | named f term actorNames =>
      rw [hpc] at h
      cases h
    | notified ev =>
      rw [hpc] at h
      cases h
      exact .notified ev hpc
    | failed f =>
      rw [hpc] at h
      cases h
      exact .checked f hpc
    | leading f =>
      rw [hpc] at h
      cases h
      exact .termed f hpc
    | deciding f term decisions =>
      simp only [hpc] at h
      split_ifs at h with hterm
      · cases h
        exact .fenced f term decisions hpc hterm
      · cases h
        exact .decided f term decisions hpc (not_ne_iff.mp hterm)
    | recorded f =>
      rw [hpc] at h
      cases h
      exact .removed f hpc
  | names order =>
    simp only [step] at h
    split at h
    · next f term hpc =>
      obtain ⟨hperm, heq⟩ := ite_none_right_eq_some.mp h
      cases heq
      have hperm := isPerm_iff.mp hperm
      split_ifs with hnil
      · subst hnil
        exact .unnamed f term hpc hperm.symm.eq_nil
      · exact .named f term order hpc hperm hnil
    · cases h
  | live order =>
    simp only [step] at h
    split at h
    · next f term actorNames hpc =>
      obtain ⟨hperm, heq⟩ := ite_none_right_eq_some.mp h
      cases heq
      exact .listed f term actorNames order hpc (isPerm_iff.mp hperm)
    · cases h
  | receive | updatePeer | election | bind | unbind => cases ha

theorem moves_of_step (h : n.step scope a = some (n', es)) : n.Moves scope n' es := by
  cases a with
  | receive ev =>
    obtain ⟨hpc, heq⟩ := ite_none_right_eq_some.mp h
    cases heq
    exact .received ev hpc
  | advance | names order | live order => exact .works (works_of_step rfl h)
  | updatePeer peer =>
    simp only [step] at h
    split at h
    · cases h
      exact .peers n.peers
    · split_ifs at h
      · cases h
        exact .peers n.peers
      · cases h
        exact .peers _
  | election call =>
    obtain ⟨⟨e, res⟩, hcall, heq⟩ := map_eq_some_iff.mp h
    cases heq
    exact .election call e res hcall
  | bind name pid =>
    cases h
    exact .bound name pid
  | unbind name =>
    cases h
    exact .unbound name

/-- The stored leaders are those of the members. -/
def Elected (n : Supervisor) : Prop := RingElection.Elects Set.univ Set.univ n.election

theorem elected_call {e e' : RingElection} (call : RingAction) {res : List RingEvent}
    (h : e.step call = some (e', res)) (he : RingElection.Elects Set.univ Set.univ e) :
    RingElection.Elects Set.univ Set.univ e' ∧ e'.localID = e.localID := by
  have hwithin : RingElection.Within Set.univ Set.univ e call := by
    cases call <;> simp [RingElection.Within]
  exact ⟨RingElection.elects_step hwithin h he, (RingElection.members_step h).1⟩

theorem elected_new (id : NodeID) (members : List NodeMeta) (policy : SupervisionPolicy)
    (registry : DistributedRegistry) : (new id members policy registry).Elected :=
  (elected_call (.setMembers members) rfl
    (RingElection.elects_new (Set.mem_univ id))).1

theorem Moves.elected (h : n.Moves scope n' es) (he : n.Elected) :
    n'.Elected ∧ n'.election.localID = n.election.localID := by
  cases h with
  | works hw =>
    cases hw with
    | notified ev _ => exact elected_call (.onMembershipChange ev) rfl he
    | checked f _ => exact elected_call (.leader scope) rfl he
    | _ => exact ⟨he, rfl⟩
  | election call e res hcall => exact elected_call call hcall he
  | _ => exact ⟨he, rfl⟩

theorem isLeader_iff (he : n.Elected) :
    (n.isLeader scope).1 = true ↔ computeLeader scope n.election.members ≠ "" ∧
      computeLeader scope n.election.members = n.election.localID := by
  have hleader : (n.election.ensureScope scope).1.leader =
      computeLeader scope n.election.members := by
    rw [RingElection.ensureScope_fst]
    cases hs : n.election.scopes.lookup scope with
    | none => rfl
    | some s => exact (he.active scope s hs).2
  rw [← hleader]
  exact Bool.and_eq_true_iff.trans (and_congr decide_eq_true_iff decide_eq_true_iff)

theorem isLeader_least (he : n.Elected) (hlead : (n.isLeader scope).1 = true) {id : NodeID}
    (hid : id ∈ n.election.members) : ringHash scope n.election.localID ≤ ringHash scope id := by
  rw [← ((isLeader_iff he).mp hlead).2]
  exact (computeLeader_least scope (ne_nil_of_mem hid)).2 id hid

theorem Works.leads (h : n.Works scope n' es) (hleads : n'.pc.leads = true) :
    n.pc.leads = true ∨ (n.isLeader scope).1 = true := by
  cases h with
  | notified ev hpc =>
    dsimp only at hleads
    split_ifs at hleads <;> cases hleads
  | checked f hpc =>
    dsimp only at hleads
    split_ifs at hleads with hlead
    · exact .inr hlead
    · cases hleads
  | termed f hpc | named f term order hpc hperm hne | listed f term names order hpc hperm =>
    exact .inl (by rw [hpc]; rfl)
  | unnamed | fenced | decided | removed => cases hleads

theorem Moves.leads (h : n.Moves scope n' es) (hleads : n'.pc.leads = true) :
    n.pc.leads = true ∨ (n.isLeader scope).1 = true := by
  cases h with
  | received ev hpc => cases hleads
  | works hw => exact hw.leads hleads
  | peers | election | bound | unbound => exact .inl hleads

variable {f : NodeID}

theorem Moves.deciding_of_decided (h : n.Moves scope n' es) {decisions : List PlacementDecision}
    (hmem : .decided f decisions ∈ es) :
    ∃ g term, g.id = f ∧ n.pc = .deciding g term decisions ∧ n'.pc = .recorded g := by
  cases h with
  | works hw =>
    cases hw with
    | decided g term ds hpc hterm =>
      simp only [mem_singleton, SupervisorEvent.decided.injEq] at hmem
      obtain ⟨rfl, rfl⟩ := hmem
      exact ⟨g, term, rfl, hpc, rfl⟩
    | _ => simp at hmem
  | _ => simp at hmem

/-- The failure of `f` is done with: no name is bound to it or held for it, or the names decided on
are about to go. -/
def Settled (f : NodeID) (n : Supervisor) : Prop :=
  (∃ g, n.pc = .recorded g ∧ g.id = f) ∨ n.registry.namesByNode f = [] ∧ n.pc.holds f = false

variable {r : DistributedRegistry}

open DistributedRegistry (namesByNode mem_namesByNode onMembershipChange)

theorem namesByNode_erase (h : r.namesByNode f = []) (name : String) :
    namesByNode (r.erase name) f = [] := by
  rw [eq_nil_iff_forall_not_mem] at h ⊢
  intro x hx
  obtain ⟨pid, hpid, hns⟩ := mem_namesByNode.mp hx
  rw [lookup_erase_ite] at hpid
  split_ifs at hpid
  exact h x (mem_namesByNode.mpr ⟨pid, hpid, hns⟩)

theorem namesByNode_insert (h : r.namesByNode f = []) (name : String) {pid : PID}
    (hns : pid.ns ≠ f) : namesByNode (r.insert name pid) f = [] := by
  rw [eq_nil_iff_forall_not_mem] at h ⊢
  intro x hx
  obtain ⟨pid', hpid, hns'⟩ := mem_namesByNode.mp hx
  rw [lookup_insert_ite] at hpid
  split_ifs at hpid
  · cases hpid
    exact hns hns'
  · exact h x (mem_namesByNode.mpr ⟨pid', hpid, hns'⟩)

theorem lookup_unregisterByNode (r : DistributedRegistry) (f : NodeID) (name : String) :
    (r.unregisterByNode f).2.lookup name = (r.lookup name).filter fun pid => pid.ns ≠ f := by
  have h := DistributedRegistry.lookup_onMembershipChange r ⟨.failed, ⟨f, "", []⟩⟩ name
  simpa [onMembershipChange, MemberEventType.departs] using h

theorem namesByNode_unregisterByNode (r : DistributedRegistry) (f g : NodeID)
    (h : g = f ∨ r.namesByNode g = []) : namesByNode (r.unregisterByNode f).2 g = [] := by
  rw [eq_nil_iff_forall_not_mem]
  intro x hx
  obtain ⟨pid, hpid, hns⟩ := mem_namesByNode.mp hx
  rw [lookup_unregisterByNode, filter_eq_some_iff, decide_eq_true_eq] at hpid
  rcases h with rfl | hnil
  · exact hpid.2 hns
  · rw [eq_nil_iff_forall_not_mem] at hnil
    exact hnil x (mem_namesByNode.mpr ⟨pid, hpid.1, hns⟩)

/-- A settled failure stays so along the callback, and nothing is decided on it. -/
theorem Works.settled (h : n.Works scope n' es) (hset : n.Settled f) :
    n'.Settled f ∧ ∀ decisions, .decided f decisions ∉ es := by
  rcases hset with ⟨g, hpc, rfl⟩ | ⟨hnil, hholds⟩
  · -- the names are about to go, and no other statement can come first
    cases h with
    | removed f' hpc' =>
      cases hpc.symm.trans hpc'
      exact ⟨.inr ⟨namesByNode_unregisterByNode _ _ _ (.inl rfl), rfl⟩, by simp⟩
    | notified _ hpc' | checked _ hpc' | termed _ hpc' | unnamed _ _ hpc' | named _ _ _ hpc'
    | listed _ _ _ _ hpc' | fenced _ _ _ hpc' | decided _ _ _ hpc' =>
      cases hpc.symm.trans hpc'
  · cases h with
    | notified ev hpc | checked g hpc =>
      refine ⟨.inr ⟨hnil, ?_⟩, by simp⟩
      dsimp only
      split_ifs <;> rfl
    | termed | unnamed | fenced => exact ⟨.inr ⟨hnil, rfl⟩, by simp⟩
    | named g term order hpc hperm hne =>
      refine ⟨.inr ⟨hnil, ?_⟩, by simp⟩
      by_cases hg : g.id = f
      · rw [hg, hnil] at hperm
        exact absurd hperm.eq_nil hne
      · exact decide_eq_false hg
    | listed g term names order hpc hperm =>
      rw [hpc] at hholds
      exact ⟨.inr ⟨hnil, hholds⟩, by simp⟩
    | decided g term ds hpc hterm =>
      rw [hpc] at hholds
      refine ⟨.inr ⟨hnil, rfl⟩, fun ds' hmem => ?_⟩
      simp only [mem_singleton, SupervisorEvent.decided.injEq] at hmem
      exact of_decide_eq_false hholds hmem.1.symm
    | removed g hpc =>
      exact ⟨.inr ⟨namesByNode_unregisterByNode _ _ _ (.inr hnil), rfl⟩, by simp⟩

/-- **A settled failure stays so**, and nothing is decided on it, unless a name is bound to the
failed node again. -/
theorem Moves.settled (h : n.Moves scope n' es) (hset : n.Settled f)
    (hbound : ∀ name pid, .bound name pid ∈ es → pid.ns ≠ f) :
    n'.Settled f ∧ ∀ decisions, .decided f decisions ∉ es := by
  cases h with
  | works hw => exact hw.settled hset
  | received ev hpc =>
    rcases hset with ⟨g, hpc', -⟩ | ⟨hnil, -⟩
    · cases hpc.symm.trans hpc'
    · exact ⟨.inr ⟨hnil, rfl⟩, by simp⟩
  | peers | election => exact ⟨hset, by simp⟩
  | bound name pid =>
    have hns := hbound name pid (mem_singleton.mpr rfl)
    exact ⟨hset.imp_right fun h => ⟨namesByNode_insert h.1 name hns, h.2⟩, by simp⟩
  | unbound name =>
    exact ⟨hset.imp_right fun h => ⟨namesByNode_erase h.1 name, h.2⟩, by simp⟩

end Supervisor

structure Supervisors (ι : Type) where
  nodes : ι → Supervisor
  alive : ι → Bool

inductive SupervisorsAction (ι : Type)
  | node (i : ι) (a : SupervisorAction)
  | crash (i : ι)

namespace Supervisors

variable {ι : Type}

def start (nodeID : ι → NodeID) (members : ι → List NodeMeta) (policy : ι → SupervisionPolicy)
    (registry : ι → DistributedRegistry) : Supervisors ι where
  nodes := fun i => .new (nodeID i) (members i) (policy i) (registry i)
  alive := fun _ => true

def Covers (nodeID : ι → NodeID) (s : Supervisors ι) : Prop :=
  ∀ i j, s.alive i = true → s.alive j = true → nodeID j ∈ (s.nodes i).election.members

variable [DecidableEq ι]

open Function (update update_self update_of_ne)

def step (scope : String) (s : Supervisors ι) :
    SupervisorsAction ι → Option (Supervisors ι × List (ι × SupervisorEvent))
  | .node i a =>
    if s.alive i then
      ((s.nodes i).step scope a).map fun r =>
        ({ s with nodes := update s.nodes i r.1 }, r.2.map fun e => (i, e))
    else none
  | .crash i =>
    if s.alive i then
      some ({ s with alive := update s.alive i false }, [(i, .crashed)])
    else none

variable {scope : String} {s s' : Supervisors ι} {a : SupervisorsAction ι}
  {es tr : List (ι × SupervisorEvent)}

theorem step_cases (h : s.step scope a = some (s', es)) :
    (∃ i n' es', s.alive i = true ∧ (s.nodes i).Moves scope n' es' ∧
        s' = { s with nodes := update s.nodes i n' } ∧ es = es'.map fun e => (i, e)) ∨
      ∃ i, s.alive i = true ∧ s' = { s with alive := update s.alive i false } ∧
        es = [(i, .crashed)] := by
  cases a with
  | node i a =>
    obtain ⟨halive, heq⟩ := ite_none_right_eq_some.mp h
    obtain ⟨⟨n', es'⟩, hstep, heq⟩ := map_eq_some_iff.mp heq
    cases heq
    exact .inl ⟨i, n', es', halive, Supervisor.moves_of_step hstep, rfl, rfl⟩
  | crash i =>
    obtain ⟨halive, heq⟩ := ite_none_right_eq_some.mp h
    cases heq
    exact .inr ⟨i, halive, rfl, rfl⟩

/-- The node has a hash that no live node is below. -/
def Ahead (scope : String) (nodeID : ι → NodeID) (s : Supervisors ι) (i : ι) : Prop :=
  ∀ j, s.alive j = true → ringHash scope (nodeID i) ≤ ringHash scope (nodeID j)

/-- If the views cover the live nodes, a node that went past `IsLeader`, or has decided, is ahead of
the live ones. -/
structure Ordered (scope : String) (nodeID : ι → NodeID) (tr : List (ι × SupervisorEvent))
    (s : Supervisors ι) : Prop where
  elected : ∀ i, (s.nodes i).Elected ∧ (s.nodes i).election.localID = nodeID i
  leads : ∀ i, (s.nodes i).pc.leads = true → Ahead scope nodeID s i
  decided : ∀ i f ds, (i, .decided f ds) ∈ tr → Ahead scope nodeID s i

variable {nodeID : ι → NodeID} {i : ι}

theorem Ahead.crash (h : Ahead scope nodeID s i) (k : ι) :
    Ahead scope nodeID { s with alive := update s.alive k false } i := by
  intro j hj
  dsimp only at hj
  by_cases hjk : j = k
  · subst hjk
    rw [update_self] at hj
    cases hj
  · rw [update_of_ne hjk] at hj
    exact h j hj

theorem ordered_step (h : Ordered scope nodeID tr s) (hcov : s.Covers nodeID)
    (hs : s.step scope a = some (s', es)) : Ordered scope nodeID (tr ++ es) s' := by
  rcases step_cases hs with ⟨i, n', es', halive, hmoves, rfl, rfl⟩ | ⟨k, -, rfl, rfl⟩
  · obtain ⟨helected, hlocal⟩ := h.elected i
    -- the alive nodes stay, so that being ahead does not change
    have hpast : n'.pc.leads = true → Ahead scope nodeID s i := by
      intro hleads
      rcases hmoves.leads hleads with hbefore | hlead
      · exact h.leads i hbefore
      · intro j hj
        rw [← hlocal]
        exact Supervisor.isLeader_least helected hlead (hcov i j halive hj)
    refine ⟨fun j => ?_, fun j hleads => ?_, fun j f ds hmem => ?_⟩
    · by_cases hj : j = i
      · subst hj
        simp only [update_self]
        exact ⟨(hmoves.elected helected).1, (hmoves.elected helected).2.trans hlocal⟩
      · simp only [update_of_ne hj]
        exact h.elected j
    · by_cases hj : j = i
      · subst hj
        simp only [update_self] at hleads
        exact hpast hleads
      · simp only [update_of_ne hj] at hleads
        exact h.leads j hleads
    · rcases mem_append.mp hmem with hold | hnew
      · exact h.decided j f ds hold
      · obtain ⟨e, he, heq⟩ := mem_map.mp hnew
        cases heq
        obtain ⟨g, term, -, hpc, -⟩ := hmoves.deciding_of_decided he
        exact h.leads i (by rw [hpc]; rfl)
  · refine ⟨h.elected, fun j hleads => (h.leads j hleads).crash k, fun j f ds hmem => ?_⟩
    rcases mem_append.mp hmem with hold | hnew
    · exact (h.decided j f ds hold).crash k
    · simp at hnew

omit [DecidableEq ι] in
theorem ordered_start (scope : String) (nodeID : ι → NodeID) (members : ι → List NodeMeta)
    (policy : ι → SupervisionPolicy) (registry : ι → DistributedRegistry) :
    Ordered scope nodeID [] (start nodeID members policy registry) where
  elected := fun _ => ⟨Supervisor.elected_new _ _ _ _, rfl⟩
  leads := fun _ hleads => nomatch hleads
  decided := fun _ _ _ hmem => nomatch hmem

theorem settled_run {f : NodeID} (hset : (s.nodes i).Settled f)
    (hrun : Run (step scope) anyStep s tr s')
    (hbound : ∀ name pid, (i, .bound name pid) ∈ tr → pid.ns ≠ f) :
    (s'.nodes i).Settled f ∧ ∀ ds, (i, .decided f ds) ∉ tr := by
  refine hrun.invariant (fun tr s' => (∀ name pid, (i, .bound name pid) ∈ tr → pid.ns ≠ f) →
    (s'.nodes i).Settled f ∧ ∀ ds, (i, .decided f ds) ∉ tr) (fun _ => ⟨hset, by simp⟩) ?_ hbound
  intro tr s a s' es ih _ hstep hbound
  obtain ⟨hset, hnone⟩ := ih fun name pid hmem => hbound name pid (mem_append_left _ hmem)
  rcases step_cases hstep with ⟨j, n', es', -, hmoves, rfl, rfl⟩ | ⟨k, -, rfl, rfl⟩
  · by_cases hj : i = j
    · subst hj
      have hnew := hmoves.settled hset fun name pid hmem =>
        hbound name pid (mem_append_right _ (mem_map.mpr ⟨_, hmem, rfl⟩))
      simp only [update_self]
      refine ⟨hnew.1, fun ds hmem => ?_⟩
      rcases mem_append.mp hmem with hold | hes
      · exact hnone ds hold
      · obtain ⟨e, he, heq⟩ := mem_map.mp hes
        cases heq
        exact hnew.2 ds he
    · simp only [update_of_ne hj]
      refine ⟨hset, fun ds hmem => ?_⟩
      rcases mem_append.mp hmem with hold | hes
      · exact hnone ds hold
      · obtain ⟨e, he, heq⟩ := mem_map.mp hes
        cases heq
        exact hj rfl
  · exact ⟨hset, fun ds hmem => by simp [hnone ds] at hmem⟩

/-- **At most one node decides a failure**, if each view contains the live nodes; and a node that
has decided it does not do so again while no name is bound to the failed node on it. -/
theorem one_decides {scope : String} {nodeID : ι → NodeID} {members : ι → List NodeMeta}
    {policy : ι → SupervisionPolicy} {registry : ι → DistributedRegistry}
    {tr : List (ι × SupervisorEvent)} {s : Supervisors ι}
    (hdistinct : ∀ i j, ringHash scope (nodeID i) = ringHash scope (nodeID j) → i = j)
    (hrun : Run (step scope) (fun s _ => s.Covers nodeID)
      (start nodeID members policy registry) tr s) :
    (∀ f i j ds ds', (i, .decided f ds) ∈ tr → (j, .decided f ds') ∈ tr → s.alive i = true →
      s.alive j = true → i = j) ∧
    ∀ f i ds a s₁ es tr₁ s₂, s.step scope a = some (s₁, es) → (i, .decided f ds) ∈ es →
      Run (step scope) anyStep s₁ tr₁ s₂ →
      (∀ name pid, (i, .bound name pid) ∈ tr₁ → pid.ns ≠ f) →
      ∀ ds', (i, .decided f ds') ∉ tr₁ := by
  have hord : Ordered scope nodeID tr s :=
    hrun.invariant (Ordered scope nodeID) (ordered_start scope nodeID members policy registry)
      fun _ _ _ _ _ h hcov hs => ordered_step h hcov hs
  refine ⟨fun f i j ds ds' hi hj halivei halivej => ?_, ?_⟩
  · have hij := hord.decided i f ds hi j halivej
    have hji := hord.decided j f ds' hj i halivei
    exact hdistinct i j (UInt64.le_antisymm hij hji)
  · intro f i ds a s₁ es tr₁ s₂ hstep hmem hrun1 hbound
    rcases step_cases hstep with ⟨j, n', es', -, hmoves, rfl, rfl⟩ | ⟨k, -, rfl, rfl⟩
    · obtain ⟨e, he, heq⟩ := mem_map.mp hmem
      cases heq
      refine (settled_run (i := i) (f := f) ?_ hrun1 hbound).2
      simp only [update_self]
      obtain ⟨g, term, hg, -, hpc⟩ := hmoves.deciding_of_decided he
      exact .inl ⟨g, hpc, hg⟩
    · simp at hmem

instance [Fintype ι] (nodeID : ι → NodeID) (s : Supervisors ι) : Decidable (s.Covers nodeID) :=
  inferInstanceAs (Decidable (∀ i j, s.alive i = true → s.alive j = true →
    nodeID j ∈ (s.nodes i).election.members))

def pairID (i : Bool) : NodeID := if i then "b" else "a"

def pair : Supervisors Bool :=
  start pairID (fun _ => [⟨"a", "", []⟩, ⟨"b", "", []⟩, ⟨"c", "", []⟩])
    (fun _ => simpleRestartPolicy) (fun _ => AList.insert "svc" ⟨"c", "svc", 1⟩ ∅)

def pairActions : List (SupervisorsAction Bool) :=
  [.node true (.receive ⟨.failed, ⟨"c", "", []⟩⟩), .node false (.receive ⟨.failed, ⟨"c", "", []⟩⟩),
    .node false .advance, .node false .advance, .node true .advance, .node true .advance,
    .node false .advance, .node false (.names ["svc"]), .node false (.live [⟨"b", "", []⟩]),
    .node false .advance, .node false .advance,
    .node false (.receive ⟨.failed, ⟨"c", "", []⟩⟩), .node false .advance, .node false .advance,
    .node false .advance, .node false (.names [])]

theorem one_decides_pair :
    ∃ s tr, exec (step clusterSupervisorScope) (fun s _ => decide (s.Covers pairID)) pair
        pairActions = some (s, tr) ∧
      tr = [(false, .decided "c" [⟨"svc", "b", .restart⟩]), (false, .removed ["svc"])] ∧
      ∀ f i j ds ds', (i, .decided f ds) ∈ tr → (j, .decided f ds') ∈ tr → s.alive i = true →
        s.alive j = true → i = j := by
  have hdistinct : ∀ i j, ringHash clusterSupervisorScope (pairID i) =
      ringHash clusterSupervisorScope (pairID j) → i = j := by decide +kernel
  refine exec_then (by decide +kernel) fun s tr hexec htr => ⟨htr, ?_⟩
  exact (one_decides hdistinct (Run.of_exec (fun _ _ h => of_decide_eq_true h) hexec)).1

end Supervisors

end Westcoast.Cluster
