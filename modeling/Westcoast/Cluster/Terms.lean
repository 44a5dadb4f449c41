import Westcoast.Cluster.RingElection
import Westcoast.Lib.Changes

/-!
# The terms of several nodes

Nodes that run a `RingElection` each, and one sequence of membership events. A node starts at the
end of the sequence, with the members of then, and applies the later events at its own pace; it may
start again. A scope is created in term 1, so a term counts the changes of leadership since then
(`steadyTouch`).
-/
namespace Westcoast.Cluster

open Lib RingElection List Option Function

def membersAt (log : List MemberEvent) (n : ℕ) : List NodeID :=
  (log.take n).foldl updateMembers []

def leaderAt (scope : String) (log : List MemberEvent) (n : ℕ) : NodeID :=
  computeLeader scope (membersAt log n)

def epoch (scope : String) (log : List MemberEvent) (n : ℕ) : ℕ := changes (leaderAt scope log) n

/-- A node with its election and the number of events it has applied. -/
structure Voter where
  election : RingElection
  applied : ℕ

structure Electorate where
  log : List MemberEvent
  nodes : NodeID → Option Voter

inductive ElectorateAction
  /-- The next event of the sequence. -/
  | occur (ev : MemberEvent)
  /-- A node joins, which is the next event, and is given the members of then. -/
  | start (self : NodeMeta) (members : List NodeMeta)
  | halt (id : NodeID)
  /-- A node applies the next event it has not seen. -/
  | apply (id : NodeID)
  | call (id : NodeID) (query : RingAction)
  deriving DecidableEq

/-- A node created a scope, after so many events. -/
inductive ElectorateEvent
  | touched (id : NodeID) (scope : String) (applied : ℕ)

namespace Electorate

def init : Electorate := ⟨[], fun _ => none⟩

def lists (members : List NodeMeta) (ids : List NodeID) : Bool :=
  (members.map (·.id)).all (· ∈ ids) && ids.all (· ∈ members.map (·.id))

def newScope (v : Voter) (query : RingAction) : Option String :=
  query.touches.filter fun scope => (v.election.scopes.lookup scope).isNone

def setNode (x : Electorate) (id : NodeID) (v : Option Voter) : Electorate :=
  { x with nodes := update x.nodes id v }

def step (x : Electorate) : ElectorateAction → Option (Electorate × List ElectorateEvent)
  | .occur ev => some ({ x with log := x.log ++ [ev] }, [])
  | .start self members =>
    let log := x.log ++ [⟨.join, self⟩]
    if (x.nodes self.id).isNone && lists members (membersAt log log.length) then
      let election := (RingElection.new self.id).setMembers members
      some ({ x with log := log }.setNode self.id (some ⟨election, log.length⟩), [])
    else none
  | .halt id => if (x.nodes id).isSome then some (x.setNode id none, []) else none
  | .apply id =>
    match x.nodes id with
    | none => none
    | some v =>
      (x.log[v.applied]?).map fun ev =>
        (x.setNode id (some ⟨v.election.onMembershipChange ev, v.applied + 1⟩), [])
  | .call id query =>
    match x.nodes id with
    | none => none
    | some v =>
      if query.isQuery then
        (v.election.step query).map fun r =>
          (x.setNode id (some { v with election := r.1 }),
            (newScope v query).toList.map fun scope => .touched id scope v.applied)
      else none

/-- What a node stores for a scope, if it runs and the scope is active. -/
def stored (x : Electorate) (id : NodeID) (scope : String) : Option ElectionScope :=
  (x.nodes id).bind fun v => v.election.scopes.lookup scope

def Within (scopes : Set String) (nodes : Set NodeID) : ElectorateAction → Prop
  | .occur ev => ev.member.id ∈ nodes
  | .start self members => self.id ∈ nodes ∧ ∀ m ∈ members, m.id ∈ nodes
  | .halt _ | .apply _ => True
  | .call _ query => ∀ e, RingElection.Within scopes nodes e query

/-- A node touches a scope only where its leader is that of the places where it was touched before.
-/
def steadyTouch (x : Electorate × List ElectorateEvent) : ElectorateAction → Bool
  | .call id query =>
    match (x.1.nodes id).bind fun v => (newScope v query).map fun scope => (scope, v.applied) with
    | none => true
    | some (scope, n) =>
      x.2.all fun
        | .touched _ other k =>
          other ≠ scope || epoch scope x.1.log k = epoch scope x.1.log n
  | _ => true

/-- The steps over the given scopes and nodes at which a scope is touched in time. -/
def Steady (scopes : Set String) (nodes : Set NodeID) (x : Electorate × List ElectorateEvent)
    (a : ElectorateAction) : Prop :=
  Within scopes nodes a ∧ steadyTouch x a = true

/-! ### The sequence of the leaders -/

theorem membersAt_append (log ext : List MemberEvent) {n : ℕ} (hn : n ≤ log.length) :
    membersAt (log ++ ext) n = membersAt log n := by
  rw [membersAt, membersAt, take_append_of_le_length hn]

theorem membersAt_succ {log : List MemberEvent} {n : ℕ} {ev : MemberEvent}
    (hev : log[n]? = some ev) : membersAt log (n + 1) = updateMembers (membersAt log n) ev := by
  rw [membersAt, take_add_one, hev, foldl_append]
  rfl

theorem epoch_append (scope : String) (log ext : List MemberEvent) {n : ℕ} (hn : n ≤ log.length) :
    epoch scope (log ++ ext) n = epoch scope log n :=
  changes_congr fun k hk => by rw [leaderAt, leaderAt, membersAt_append _ _ (by omega)]

/-! ### What a node's terms count -/

/-- A node has the members of some place of the sequence; a term counts the changes since the place
where some node touched the scope. -/
structure VoterSound (scopes : Set String) (nodes : Set NodeID) (log : List MemberEvent)
    (hist : List ElectorateEvent) (v : Voter) : Prop where
  reached : v.applied ≤ log.length
  members : ∀ id, id ∈ v.election.members ↔ id ∈ membersAt log v.applied
  elects : Elects scopes nodes v.election
  term : ∀ scope s, v.election.scopes.lookup scope = some s →
    ∃ other k, .touched other scope k ∈ hist ∧
      s.term + epoch scope log k = 1 + epoch scope log v.applied

structure Tally (scopes : Set String) (nodes : Set NodeID)
    (x : Electorate × List ElectorateEvent) : Prop where
  voters : ∀ id v, x.1.nodes id = some v → VoterSound scopes nodes x.1.log x.2 v
  log : ∀ ev ∈ x.1.log, ev.member.id ∈ nodes
  reached : ∀ id scope k, .touched id scope k ∈ x.2 → k ≤ x.1.log.length
  steady : ∀ scope id k id' k', .touched id scope k ∈ x.2 → .touched id' scope k' ∈ x.2 →
    epoch scope x.1.log k = epoch scope x.1.log k'

section
variable {scopes : Set String} {nodes : Set NodeID} {x x' : Electorate}
  {hist es : List ElectorateEvent} {log ext : List MemberEvent} {v : Voter}

theorem tally_init : Tally scopes nodes (init, []) where
  voters := fun _ _ hv => nomatch hv
  log := fun _ hev => nomatch hev
  reached := fun _ _ _ hk => nomatch hk
  steady := fun _ _ _ _ _ hk => nomatch hk

theorem VoterSound.later (hv : VoterSound scopes nodes log hist v)
    (hreached : ∀ id scope k, .touched id scope k ∈ hist → k ≤ log.length) :
    VoterSound scopes nodes (log ++ ext) (hist ++ es) v where
  reached := by
    rw [length_append]
    exact Nat.le_add_right_of_le hv.reached
  members := by
    rw [membersAt_append log ext hv.reached]
    exact hv.members
  elects := hv.elects
  term := by
    intro scope s hs
    obtain ⟨other, k, hk, hterm⟩ := hv.term scope s hs
    refine ⟨other, k, mem_append_left _ hk, ?_⟩
    rwa [epoch_append _ _ _ (hreached other scope k hk), epoch_append _ _ _ hv.reached]

theorem Tally.put (h : Tally scopes nodes (x, hist)) (id : NodeID) (v : Option Voter)
    (ext : List MemberEvent) (es : List ElectorateEvent) (hlog : ∀ ev ∈ ext, ev.member.id ∈ nodes)
    (hv : ∀ w, v = some w → VoterSound scopes nodes (x.log ++ ext) (hist ++ es) w)
    (hes : ∀ other scope k, .touched other scope k ∈ es → k ≤ x.log.length ∧
      ∀ id' k', .touched id' scope k' ∈ hist ++ es → epoch scope x.log k' = epoch scope x.log k) :
    Tally scopes nodes ({ x with log := x.log ++ ext }.setNode id v, hist ++ es) where
  voters := by
    intro id' w hw
    simp only [setNode] at hw
    by_cases hid : id' = id
    · subst hid
      rw [update_self] at hw
      exact hv w hw
    · rw [update_of_ne hid] at hw
      exact (h.voters id' w hw).later h.reached
  log := by
    intro ev hev
    rcases mem_append.mp hev with hev | hev
    · exact h.log ev hev
    · exact hlog ev hev
  reached := by
    intro id' scope k hk
    have hle : k ≤ x.log.length := by
      rcases mem_append.mp hk with hk | hk
      · exact h.reached id' scope k hk
      · exact (hes id' scope k hk).1
    simp only [setNode, length_append]
    omega
  steady := by
    intro scope i k i' k' hk hk'
    have hle : ∀ i k, .touched i scope k ∈ hist ++ es → k ≤ x.log.length := by
      intro i k hk
      rcases mem_append.mp hk with hk | hk
      · exact h.reached i scope k hk
      · exact (hes i scope k hk).1
    simp only [setNode]
    rw [epoch_append _ _ _ (hle i k hk), epoch_append _ _ _ (hle i' k' hk')]
    rcases mem_append.mp hk with hold | hnew
    · rcases mem_append.mp hk' with hold' | hnew'
      · exact h.steady scope i k i' k' hold hold'
      · exact (hes i' scope k' hnew').2 i k hk
    · exact ((hes i scope k hnew).2 i' k' hk').symm

variable {n : ℕ}

theorem voterSound_start {self : NodeMeta} {members : List NodeMeta} (hself : self.id ∈ nodes)
    (hnodes : ∀ m ∈ members, m.id ∈ nodes) (hlast : log[n]? = some ⟨.join, self⟩)
    (hlists : lists members (membersAt log (n + 1)) = true) :
    VoterSound scopes nodes log hist ⟨(RingElection.new self.id).setMembers members, n + 1⟩ where
  reached := (List.getElem?_eq_some_iff.mp hlast).1
  members := by
    intro id
    simp only [lists, Bool.and_eq_true, List.all_eq_true, decide_eq_true_eq] at hlists
    have hin : self.id ∈ membersAt log (n + 1) := by
      rw [membersAt_succ hlast, mem_updateMembers]
      exact .inr rfl
    change id ∈ membersOf self.id members ↔ _
    rw [mem_membersOf]
    constructor
    · rintro (rfl | hid)
      · exact hin
      · exact hlists.1 id hid
    · exact fun hid => .inr (hlists.2 id hid)
  elects := elects_step (a := .setMembers members) hnodes rfl (elects_new hself)
  term := by
    intro scope s hs
    have hnone := (lookup_recompute
      { RingElection.new self.id with members := membersOf self.id members } scope).symm.trans hs
    cases hnone

theorem leader_eq_leaderAt (hdistinct : ∀ scope ∈ scopes, Set.InjOn (ringHash scope) nodes)
    {e : RingElection} (he : Elects scopes nodes e)
    (hmembers : ∀ id, id ∈ e.members ↔ id ∈ membersAt log n) {scope : String} {s : ElectionScope}
    (hs : e.scopes.lookup scope = some s) : s.leader = leaderAt scope log n := by
  obtain ⟨hscope, hleader⟩ := he.active scope s hs
  rw [hleader]
  exact computeLeader_congr ((hdistinct scope hscope).mono he.members) hmembers

theorem VoterSound.apply (hdistinct : ∀ scope ∈ scopes, Set.InjOn (ringHash scope) nodes)
    (hv : VoterSound scopes nodes log hist v) {ev : MemberEvent} (hev : log[v.applied]? = some ev)
    (hnode : ev.member.id ∈ nodes) :
    VoterSound scopes nodes log hist ⟨v.election.onMembershipChange ev, v.applied + 1⟩ := by
  have hstep : v.election.step (.onMembershipChange ev) =
      some (v.election.onMembershipChange ev, []) := rfl
  have hmembers : ∀ id, id ∈ (v.election.onMembershipChange ev).members ↔
      id ∈ membersAt log (v.applied + 1) := by
    intro id
    rw [(members_step hstep).2, membersAt_succ hev, RingElection.membersAfter, mem_updateMembers,
      mem_updateMembers, hv.members]
  have helects : Elects scopes nodes (v.election.onMembershipChange ev) :=
    elects_step (a := .onMembershipChange ev) hnode hstep hv.elects
  refine ⟨(List.getElem?_eq_some_iff.mp hev).1, hmembers, helects, fun scope s' hs' => ?_⟩
  obtain ⟨s, hs, -⟩ := map_eq_some_iff.mp ((lookup_recompute _ scope).symm.trans hs')
  obtain ⟨other, k, hk, hterm⟩ := hv.term scope s hs
  refine ⟨other, k, hk, ?_⟩
  obtain ⟨s1, hs1, hnext⟩ := term_step hstep hs
  obtain rfl : s1 = s' := some.inj (hs1.symm.trans hs')
  rw [leader_eq_leaderAt hdistinct hv.elects hv.members hs,
    leader_eq_leaderAt hdistinct helects hmembers hs'] at hnext
  have hepoch : epoch scope log (v.applied + 1) = epoch scope log v.applied +
      if leaderAt scope log (v.applied + 1) = leaderAt scope log v.applied then 0 else 1 := rfl
  simp only
  split_ifs at hnext hepoch <;> omega

theorem VoterSound.call {id : NodeID} {query : RingAction} {e' : RingElection}
    {res : List RingEvent} (hv : VoterSound scopes nodes log hist v)
    (hquery : query.isQuery = true) (hw : RingElection.Within scopes nodes v.election query)
    (hstep : v.election.step query = some (e', res)) : VoterSound scopes nodes log
      (hist ++ (newScope v query).toList.map fun scope => .touched id scope v.applied)
      { v with election := e' } := by
  have hmem : e'.members = v.election.members := by
    rw [(members_step hstep).2]
    cases query with
    | onMembershipChange | setMembers => cases hquery
    | leader | term | watch | receive => rfl
  have helects := elects_step hw hstep hv.elects
  refine ⟨hv.reached, by rw [hmem]; exact hv.members, helects, fun scope s' hs' => ?_⟩
  cases hs : v.election.scopes.lookup scope with
  | some s =>
    obtain ⟨other, k, hk, hterm⟩ := hv.term scope s hs
    refine ⟨other, k, mem_append_left _ hk, ?_⟩
    obtain ⟨s1, hs1, hnext⟩ := term_step hstep hs
    obtain rfl : s1 = s' := some.inj (hs1.symm.trans hs')
    have hleader : s1.leader = s.leader := by
      rw [(helects.active scope s1 hs').2, hmem, (hv.elects.active scope s hs).2]
    rwa [hnext, if_pos hleader]
  | none =>
    obtain ⟨htouch, hterm⟩ := created_step hstep hs hs'
    have hnew : newScope v query = some scope := by simp [newScope, htouch, hs]
    refine ⟨id, v.applied, mem_append_right _ ?_, by rw [hterm]⟩
    simp [hnew]

inductive Turn (x : Electorate) : ElectorateAction → Electorate → List ElectorateEvent → Prop
  | occur (ev : MemberEvent) : Turn x (.occur ev) { x with log := x.log ++ [ev] } []
  | start (self : NodeMeta) (members : List NodeMeta)
      (hlists : lists members (membersAt (x.log ++ [⟨.join, self⟩]) (x.log.length + 1)) = true) :
      Turn x (.start self members)
        (setNode { x with log := x.log ++ [⟨.join, self⟩] } self.id
          (some ⟨(RingElection.new self.id).setMembers members, x.log.length + 1⟩)) []
  | halt (id : NodeID) : Turn x (.halt id) (x.setNode id none) []
  | apply (id : NodeID) (v : Voter) (ev : MemberEvent) (hv : x.nodes id = some v)
      (hev : x.log[v.applied]? = some ev) :
      Turn x (.apply id)
        (x.setNode id (some ⟨v.election.onMembershipChange ev, v.applied + 1⟩)) []
  | call (id : NodeID) (query : RingAction) (v : Voter) (e' : RingElection) (res : List RingEvent)
      (hv : x.nodes id = some v) (hquery : query.isQuery = true)
      (hcall : v.election.step query = some (e', res)) :
      Turn x (.call id query) (x.setNode id (some { v with election := e' }))
        ((newScope v query).toList.map fun scope => .touched id scope v.applied)

variable {a : ElectorateAction}

theorem turn_of_step (hstep : x.step a = some (x', es)) : Turn x a x' es := by
  cases a with
  | occur ev =>
    cases hstep
    exact .occur ev
  | start self members =>
    simp only [step] at hstep
    split_ifs at hstep with hok
    cases hstep
    simp only [Bool.and_eq_true, length_append, length_singleton] at hok
    rw [length_append, length_singleton]
    exact .start self members hok.2
  | halt id =>
    simp only [step] at hstep
    split_ifs at hstep
    cases hstep
    exact .halt id
  | apply id =>
    simp only [step] at hstep
    cases hv : x.nodes id with
    | none =>
      simp only [hv] at hstep
      cases hstep
    | some v =>
      simp only [hv, map_eq_some_iff, Prod.mk.injEq] at hstep
      obtain ⟨ev, hev, rfl, rfl⟩ := hstep
      exact .apply id v ev hv hev
  | call id query =>
    simp only [step] at hstep
    cases hv : x.nodes id with
    | none =>
      simp only [hv] at hstep
      cases hstep
    | some v =>
      simp only [hv] at hstep
      split_ifs at hstep with hquery
      simp only [map_eq_some_iff, Prod.mk.injEq] at hstep
      obtain ⟨⟨e', res⟩, hcall, rfl, rfl⟩ := hstep
      exact .call id query v e' res hv hquery hcall

theorem log_step (hstep : x.step a = some (x', es)) : ∃ ext, x'.log = x.log ++ ext := by
  cases turn_of_step hstep with
  | occur ev => exact ⟨[ev], rfl⟩
  | start self => exact ⟨[⟨.join, self⟩], rfl⟩
  | halt | apply | call => exact ⟨[], (append_nil _).symm⟩

theorem tally_step (hdistinct : ∀ scope ∈ scopes, Set.InjOn (ringHash scope) nodes)
    (hw : Within scopes nodes a) (hsteady : steadyTouch (x, hist) a = true)
    (hstep : x.step a = some (x', es)) (h : Tally scopes nodes (x, hist)) :
    Tally scopes nodes (x', hist ++ es) := by
  cases turn_of_step hstep with
  | occur ev =>
    refine ⟨fun id v hv => (h.voters id v hv).later h.reached, ?_, ?_, ?_⟩
    · intro ev' hev'
      rcases mem_append.mp hev' with hev' | hev'
      · exact h.log ev' hev'
      · rw [mem_singleton.mp hev']
        exact hw
    · intro id scope k hk
      rw [append_nil] at hk
      rw [length_append]
      exact Nat.le_add_right_of_le (h.reached id scope k hk)
    · intro scope id k id' k' hk hk'
      rw [append_nil] at hk hk'
      rw [epoch_append _ _ _ (h.reached id scope k hk),
        epoch_append _ _ _ (h.reached id' scope k' hk')]
      exact h.steady scope id k id' k' hk hk'
  | start self members hlists =>
    refine h.put self.id _ [⟨.join, self⟩] [] (by simpa using hw.1) (fun w hw' => ?_) (by simp)
    cases hw'
    exact voterSound_start hw.1 hw.2 getElem?_concat_length hlists
  | halt id =>
    simpa using h.put id none [] [] (by simp) (fun w hw => nomatch hw) (by simp)
  | apply id v ev hv hev =>
    have hnode := h.log ev (mem_of_getElem? hev)
    have hsound : VoterSound scopes nodes (x.log ++ []) (hist ++ [])
        ⟨v.election.onMembershipChange ev, v.applied + 1⟩ := by
      simpa using (h.voters id v hv).apply hdistinct hev hnode
    simpa using h.put id _ [] [] (by simp) (fun w hw' => some.inj hw' ▸ hsound) (by simp)
  | call id query v e' res hv hquery hcall =>
    have hput := h.put id (some { v with election := e' }) []
      ((newScope v query).toList.map fun scope => .touched id scope v.applied) (by simp) ?_ ?_
    · simpa using hput
    · intro w hw'
      cases hw'
      simpa using (h.voters id v hv).call hquery (hw v.election) hcall
    · intro other scope k hk
      simp only [List.mem_map, mem_toList, ElectorateEvent.touched.injEq] at hk
      obtain ⟨_, hnew, rfl, rfl, rfl⟩ := hk
      refine ⟨(h.voters _ v hv).reached, fun id' k' hk' => ?_⟩
      rcases mem_append.mp hk' with hk' | hk'
      · simp only [steadyTouch, hv, bind_some, hnew, map_some,
          List.all_eq_true] at hsteady
        simpa using hsteady _ hk'
      · simp only [List.mem_map, mem_toList, ElectorateEvent.touched.injEq] at hk'
        obtain ⟨_, -, -, -, rfl⟩ := hk'
        rfl

variable {tr : List ElectorateEvent} {y y' : Electorate × List ElectorateEvent}

theorem grows_run {guard : Electorate × List ElectorateEvent → ElectorateAction → Prop}
    (h : Run (withHistory step) guard y tr y') :
    (∃ ext, y'.1.log = y.1.log ++ ext) ∧ ∃ es, y'.2 = y.2 ++ es := by
  refine h.invariant_state
    (fun y' => (∃ ext, y'.1.log = y.1.log ++ ext) ∧ ∃ es, y'.2 = y.2 ++ es)
    ⟨⟨[], by simp⟩, [], by simp⟩ ?_
  rintro z a z' es ⟨⟨ext, hlog⟩, hist, hhist⟩ - hstep
  obtain ⟨hz, hes⟩ := withHistory_eq_some hstep
  refine ⟨?_, hist ++ es, by rw [hes, hhist, append_assoc]⟩
  obtain ⟨more, hmore⟩ := log_step hz
  exact ⟨ext ++ more, by rw [hmore, hlog, append_assoc]⟩

theorem tally_run (hdistinct : ∀ scope ∈ scopes, Set.InjOn (ringHash scope) nodes)
    (h : Run (withHistory step) (Steady scopes nodes) y tr y') (hy : Tally scopes nodes y) :
    Tally scopes nodes y' := by
  refine h.invariant_state _ hy fun z a z' es hz hg hstep => ?_
  obtain ⟨hstep, hes⟩ := withHistory_eq_some hstep
  have htally := tally_step hdistinct hg.1 hg.2 hstep hz
  rwa [← hes] at htally

/-- **Terms as fencing tokens.** If every scope is touched under the leader of its first touch, one
term has one leader. Terms are taken not to wrap at `2 ^ 64`. -/
theorem term_fences (hdistinct : ∀ scope ∈ scopes, Set.InjOn (ringHash scope) nodes)
    {tr₁ tr₂ : List ElectorateEvent} {x₁ x₂ : Electorate × List ElectorateEvent}
    (h₁ : Run (withHistory step) (Steady scopes nodes) (init, []) tr₁ x₁)
    (h₂ : Run (withHistory step) (Steady scopes nodes) x₁ tr₂ x₂) {i j : NodeID}
    {scope : String} {s₁ s₂ : ElectionScope} (hs₁ : x₁.1.stored i scope = some s₁)
    (hs₂ : x₂.1.stored j scope = some s₂) (hterm : s₁.term = s₂.term) : s₁.leader = s₂.leader := by
  have ht1 := tally_run hdistinct h₁ tally_init
  have ht2 := tally_run hdistinct h₂ ht1
  obtain ⟨v, hv, hs₁⟩ := bind_eq_some_iff.mp hs₁
  obtain ⟨w, hw, hs₂⟩ := bind_eq_some_iff.mp hs₂
  obtain ⟨⟨ext, hlog⟩, es, hhist⟩ := grows_run h₂
  -- the first node's counts, read off the later sequence
  have hv2 : VoterSound scopes nodes x₂.1.log x₂.2 v := by
    rw [hlog, hhist]
    exact (ht1.voters i v hv).later ht1.reached
  have hw2 := ht2.voters j w hw
  obtain ⟨other1, k1, hk1, hcount1⟩ := hv2.term scope s₁ hs₁
  obtain ⟨other2, k2, hk2, hcount2⟩ := hw2.term scope s₂ hs₂
  have htouch := ht2.steady scope other1 k1 other2 k2 hk1 hk2
  have hepoch : epoch scope x₂.1.log v.applied = epoch scope x₂.1.log w.applied := by omega
  rw [leader_eq_leaderAt hdistinct hv2.elects hv2.members hs₁,
    leader_eq_leaderAt hdistinct hw2.elects hw2.members hs₂]
  exact eq_of_changes_eq hepoch

end

/-- `a` is alone when it starts, and `b`, which has the lower hash, joins it. -/
def pair : List ElectorateAction :=
  [.start ⟨"a", "", []⟩ [⟨"a", "", []⟩], .start ⟨"b", "", []⟩ [⟨"b", "", []⟩, ⟨"a", "", []⟩],
    .apply "a", .call "a" (.leader "svc"), .call "b" (.leader "svc"),
    .occur ⟨.leave, ⟨"b", "", []⟩⟩, .apply "b"]

theorem within_pair {a : ElectorateAction} (ha : a ∈ pair) : Within {"svc"} {"a", "b"} a := by
  simp only [pair, mem_cons, not_mem_nil, or_false] at ha
  rcases ha with rfl | rfl | rfl | rfl | rfl | rfl | rfl <;> simp [Within, RingElection.Within]

/-- Both touch the scope while `b` leads. When `b` has left, they reach the second term one after
the other. -/
theorem term_fences_pair : ∃ (x₁ x₂ : Electorate × List ElectorateEvent) (s₁ s₂ : ElectionScope),
      x₁.1.stored "a" "svc" = some s₁ ∧ x₂.1.stored "b" "svc" = some s₂ ∧
        (s₁.term = 2 ∧ s₂.term = 2) ∧ s₁.leader = s₂.leader := by
  let ok (x : Electorate × List ElectorateEvent) (a : ElectorateAction) : Bool :=
    a ∈ pair && steadyTouch x a
  have hok : ∀ x a, ok x a = true → Steady {"svc"} {"a", "b"} x a := by
    intro x a h
    simp only [ok, Bool.and_eq_true, decide_eq_true_eq] at h
    exact ⟨within_pair h.1, h.2⟩
  have hend : ((exec (withHistory step) ok (init, []) (pair.take 6 ++ [.apply "a"])).bind fun r1 =>
      (exec (withHistory step) ok r1.1 [.apply "b"]).map fun r2 =>
        ((r1.1.1.stored "a" "svc").map (·.term), (r2.1.1.stored "b" "svc").map (·.term))) =
      some (some 2, some 2) := by decide +kernel
  obtain ⟨⟨x₁, tr1⟩, h1, hend⟩ := bind_eq_some_iff.mp hend
  obtain ⟨⟨x₂, tr2⟩, h2, hend⟩ := map_eq_some_iff.mp hend
  simp only [Prod.mk.injEq, map_eq_some_iff] at hend
  obtain ⟨⟨s₁, hs1, hterm1⟩, s₂, hs2, hterm2⟩ := hend
  refine ⟨x₁, x₂, s₁, s₂, hs1, hs2, ⟨hterm1, hterm2⟩, ?_⟩
  exact term_fences distinct_svc (Run.of_exec hok h1) (Run.of_exec hok h2) hs1 hs2
    (hterm1.trans hterm2.symm)

/-- **One term, two leaders.** `a` touches the scope before `b` joins, `b` afterwards; both report
themselves for term 1. -/
theorem term_one_twice :
    ∃ tr₁ tr₂ x₁ x₂ s₁ s₂, Run step (fun _ => Within {"svc"} {"a", "b"}) init tr₁ x₁ ∧
      Run step (fun _ => Within {"svc"} {"a", "b"}) x₁ tr₂ x₂ ∧
      (∀ scope ∈ ({"svc"} : Set String), Set.InjOn (ringHash scope) ({"a", "b"} : Set NodeID)) ∧
      x₁.stored "a" "svc" = some s₁ ∧ x₂.stored "b" "svc" = some s₂ ∧
      (s₁.term, s₁.leader) = (1, "a") ∧ (s₂.term, s₂.leader) = (1, "b") := by
  have hend : ((exec step (fun _ a => a ∈ pair) init
        [.start ⟨"a", "", []⟩ [⟨"a", "", []⟩], .call "a" (.leader "svc")]).bind fun r1 =>
      (exec step (fun _ a => a ∈ pair) r1.1
        [.start ⟨"b", "", []⟩ [⟨"b", "", []⟩, ⟨"a", "", []⟩], .apply "a",
          .call "b" (.leader "svc")]).map fun r2 =>
        ((r1.1.stored "a" "svc").map fun s => (s.term, s.leader),
          (r2.1.stored "b" "svc").map fun s => (s.term, s.leader))) =
      some (some (1, "a"), some (1, "b")) := by decide +kernel
  obtain ⟨⟨x₁, tr₁⟩, h1, hend⟩ := bind_eq_some_iff.mp hend
  obtain ⟨⟨x₂, tr₂⟩, h2, hend⟩ := map_eq_some_iff.mp hend
  rw [Prod.mk.injEq, map_eq_some_iff, map_eq_some_iff] at hend
  obtain ⟨⟨s₁, hs1, hrep1⟩, s₂, hs2, hrep2⟩ := hend
  have hok : ∀ (_ : Electorate) (a : ElectorateAction), decide (a ∈ pair) = true →
      Within {"svc"} {"a", "b"} a := fun _ a ha => within_pair (of_decide_eq_true ha)
  exact ⟨tr₁, tr₂, x₁, x₂, s₁, s₂, Run.of_exec hok h1, Run.of_exec hok h2, distinct_svc, hs1, hs2,
    hrep1, hrep2⟩

end Electorate
end Westcoast.Cluster
