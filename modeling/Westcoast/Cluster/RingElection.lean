import Mathlib.Data.List.MinMax
import Mathlib.Data.Set.Function
import Westcoast.Cluster.Election
import Westcoast.Lib.Assoc
import Westcoast.Lib.Machine

/-!
# The ring election of one node

`RingElection` of `election_ring.go` with all its scopes. A scope is created by the first call of
`Leader` or `Watch`; each change of the membership recomputes its leader. Reading the channel of a
watcher is an action (`receive`). The members are a map in the source (`computeLeader_congr`).
-/
namespace Westcoast.Cluster

open Lib ElectionScope List AList

/-! ### The lowest hash -/

theorem computeLeader_eq_argmin (scope : String) (ids : List NodeID) :
    computeLeader scope ids = (ids.argmin fun id => (ringHash scope id).toNat).getD "" := by
  induction ids using List.reverseRecOn with
  | nil => rfl
  | append_singleton ids id ih =>
    rw [argmin_concat]
    cases ids with
    | nil => rfl
    | cons first rest =>
      have hstep : computeLeader scope (first :: rest ++ [id]) =
          if ringHash scope id < ringHash scope (computeLeader scope (first :: rest)) then id
          else computeLeader scope (first :: rest) := by
        simp only [cons_append, computeLeader, foldl_append]
        rfl
      cases hmin : (first :: rest).argmin fun id => (ringHash scope id).toNat with
      | none => cases argmin_eq_none.mp hmin
      | some best =>
        rw [hmin, Option.getD_some] at ih
        rw [hstep, ih]
        simp only [UInt64.lt_iff_toNat_lt]
        split_ifs <;> rfl

@[simp] theorem computeLeader_nil (scope : String) : computeLeader scope [] = "" := rfl

variable {ids members : List NodeID}

theorem computeLeader_least (scope : String) (hne : ids ≠ []) : computeLeader scope ids ∈ ids ∧
      ∀ id ∈ ids, ringHash scope (computeLeader scope ids) ≤ ringHash scope id := by
  rw [computeLeader_eq_argmin]
  cases hmin : ids.argmin fun id => (ringHash scope id).toNat with
  | none => exact absurd (argmin_eq_none.mp hmin) hne
  | some best =>
    refine ⟨argmin_mem hmin, fun id hid => ?_⟩
    exact UInt64.le_iff_toNat_le.mpr
      (le_of_mem_argmin (f := fun id => (ringHash scope id).toNat) hid hmin)

variable {scope : String}

theorem eq_computeLeader {id : NodeID} (hinj : Set.InjOn (ringHash scope) {id | id ∈ ids})
    (hid : id ∈ ids) (hmin : ∀ id' ∈ ids, ringHash scope id ≤ ringHash scope id') :
    id = computeLeader scope ids := by
  obtain ⟨hmem, hle⟩ := computeLeader_least scope (ne_nil_of_mem hid)
  exact hinj hid hmem (UInt64.le_antisymm (hmin _ hmem) (hle _ hid))

/-- **Agreement.** The leader depends on the set of the members alone. -/
theorem computeLeader_congr {ids' : List NodeID}
    (hinj : Set.InjOn (ringHash scope) {id | id ∈ ids}) (hsame : ∀ id, id ∈ ids ↔ id ∈ ids') :
    computeLeader scope ids = computeLeader scope ids' := by
  by_cases hne : ids' = []
  · subst hne
    have hnil : ids = [] := eq_nil_iff_forall_not_mem.mpr fun id hid => by
      simpa using (hsame id).mp hid
    rw [hnil]
  · obtain ⟨hmem, hle⟩ := computeLeader_least scope hne
    refine (eq_computeLeader hinj ((hsame _).mpr hmem) fun id hid => ?_).symm
    exact hle id ((hsame id).mp hid)

variable {ev : MemberEvent}

theorem mem_updateMembers {id : NodeID} : id ∈ updateMembers members ev ↔
      if ev.type.departs then id ∈ members ∧ id ≠ ev.member.id
      else id ∈ members ∨ id = ev.member.id := by
  unfold updateMembers
  split_ifs with hdep hmem
  · simp
  · exact ⟨.inl, fun h => h.elim (fun h => h) fun h => h ▸ hmem⟩
  · simp

theorem computeLeader_join (hjoin : ev.type.departs = false) :
    computeLeader scope (updateMembers members ev) = computeLeader scope members ∨
      computeLeader scope (updateMembers members ev) = ev.member.id := by
  simp only [updateMembers, hjoin, Bool.false_eq_true, if_false]
  split_ifs with hmem
  · exact .inl rfl
  · cases members with
    | nil => exact .inr rfl
    | cons first rest =>
      simp only [cons_append, computeLeader, foldl_append, foldl_cons,
        foldl_nil]
      split_ifs
      · exact .inr rfl
      · exact .inl rfl

theorem computeLeader_depart (hinj : Set.InjOn (ringHash scope) {id | id ∈ members})
    (hdep : ev.type.departs = true) (hother : ev.member.id ≠ computeLeader scope members) :
    computeLeader scope (updateMembers members ev) = computeLeader scope members := by
  by_cases hne : members = []
  · subst hne
    simp [updateMembers, hdep]
  · obtain ⟨hmem, hle⟩ := computeLeader_least scope hne
    have hsub : ∀ id ∈ updateMembers members ev, id ∈ members := fun id hid => by
      rw [mem_updateMembers, if_pos hdep] at hid
      exact hid.1
    refine (eq_computeLeader (fun a ha b hb => hinj (hsub a ha) (hsub b hb)) ?_ ?_).symm
    · rw [mem_updateMembers, if_pos hdep]
      exact ⟨hmem, hother.symm⟩
    · exact fun id hid => hle id (hsub id hid)

/-! ### The election -/

def ElectionScope.receive (s : ElectionScope) (channel : ℕ) :
    Option (LeaderEvent × ElectionScope) :=
  match s.watchers[channel]? with
  | some (ev :: rest) => some (ev, { s with watchers := s.watchers.set channel rest })
  | _ => none

namespace ElectionScope

theorem length_watchers_setLeader (s : ElectionScope) (newLeader : NodeID) :
    (s.setLeader newLeader).watchers.length = s.watchers.length := by
  simp only [setLeader]
  split_ifs
  · rfl
  · exact length_map _

theorem watchers_setLeader (s : ElectionScope) (newLeader : NodeID) (channel : ℕ) :
    (s.setLeader newLeader).watchers[channel]? =
      if newLeader = s.leader then s.watchers[channel]?
      else (s.watchers[channel]?).map fun ch =>
        if ch.length < 4 then ch ++ [⟨newLeader, s.leader, s.term + 1⟩] else ch := by
  simp only [setLeader]
  split_ifs
  · rfl
  · exact List.getElem?_map

theorem watchers_watch (s : ElectionScope) (channel : ℕ) : s.watch.watchers[channel]? =
      if channel = s.watchers.length then
        some (if s.leader = "" then [] else [⟨s.leader, "", s.term⟩])
      else s.watchers[channel]? := by
  by_cases hc : channel = s.watchers.length
  · subst hc
    rw [if_pos rfl, watch, List.getElem?_concat_length]
  · rw [if_neg hc, watch]
    rcases Nat.lt_or_gt_of_ne hc with hlt | hgt
    · exact List.getElem?_append_left hlt
    · rw [List.getElem?_eq_none (by simp; omega), List.getElem?_eq_none (by omega)]

variable {s s' : ElectionScope}

theorem receive_keeps {channel : ℕ} {ev : LeaderEvent} (h : s.receive channel = some (ev, s')) :
    s'.leader = s.leader ∧ s'.term = s.term := by
  simp only [receive] at h
  split at h
  · cases h
    exact ⟨rfl, rfl⟩
  · cases h

end ElectionScope

/-- `RingElection`: members, and the scopes asked for. -/
structure RingElection where
  localID : NodeID
  members : List NodeID
  scopes : AList (fun _ : String => ElectionScope)

/-- The calls on an election, and `receive` for the reader of a watcher's channel. -/
inductive RingAction
  | onMembershipChange (ev : MemberEvent)
  | setMembers (members : List NodeMeta)
  | leader (scope : String)
  | term (scope : String)
  | watch (scope : String)
  | receive (scope : String) (channel : ℕ)
  deriving DecidableEq

def RingAction.isQuery : RingAction → Bool
  | .onMembershipChange _ | .setMembers _ => false
  | .leader _ | .term _ | .watch _ | .receive _ _ => true

def RingAction.touches : RingAction → Option String
  | .leader scope | .watch scope => some scope
  | _ => none

inductive RingEvent
  | leader (scope : String) (id : NodeID) (ok : Bool)
  | term (scope : String) (term : ℕ)
  | watching (scope : String) (channel : ℕ)
  | received (scope : String) (channel : ℕ) (ev : LeaderEvent)

namespace RingElection

def new (localID : NodeID) : RingElection := ⟨localID, [localID], ∅⟩

def ensureScope (e : RingElection) (scope : String) : ElectionScope × RingElection :=
  match e.scopes.lookup scope with
  | some s => (s, e)
  | none =>
    let s := .create (computeLeader scope e.members)
    (s, { e with scopes := e.scopes.insert scope s })

/-- `Leader`, which creates the scope. -/
def leader (e : RingElection) (scope : String) : (NodeID × Bool) × RingElection :=
  let r := e.ensureScope scope
  ((r.1.leader, r.1.leader ≠ ""), r.2)

def term (e : RingElection) (scope : String) : ℕ :=
  match e.scopes.lookup scope with
  | none => 0
  | some s => s.term

/-- `Watch`; a channel is known by its place among the watchers of the scope. -/
def watch (e : RingElection) (scope : String) : ℕ × RingElection :=
  let r := e.ensureScope scope
  (r.1.watchers.length, { r.2 with scopes := r.2.scopes.insert scope r.1.watch })

/-- The end of `OnMembershipChange` and of `SetMembers`: all active scopes again. -/
def recompute (e : RingElection) : RingElection :=
  { e with
    scopes := mapValues (fun scope s => s.setLeader (computeLeader scope e.members)) e.scopes }

/-- `OnMembershipChange` on all active scopes. -/
def onMembershipChange (e : RingElection) (ev : MemberEvent) : RingElection :=
  { e with members := updateMembers e.members ev }.recompute

def membersOf (localID : NodeID) (members : List NodeMeta) : List NodeID :=
  members.foldl (fun ids m => updateMembers ids ⟨.join, m⟩) [localID]

/-- `SetMembers`; the node itself stays a member. -/
def setMembers (e : RingElection) (members : List NodeMeta) : RingElection :=
  { e with members := membersOf e.localID members }.recompute

def receive (e : RingElection) (scope : String) (channel : ℕ) :
    Option (LeaderEvent × RingElection) :=
  match e.scopes.lookup scope with
  | none => none
  | some s =>
    (s.receive channel).map fun r => (r.1, { e with scopes := e.scopes.insert scope r.2 })

def step (e : RingElection) : RingAction → Option (RingElection × List RingEvent)
  | .onMembershipChange ev => some (e.onMembershipChange ev, [])
  | .setMembers members => some (e.setMembers members, [])
  | .leader scope =>
    let r := e.leader scope
    some (r.2, [.leader scope r.1.1 r.1.2])
  | .term scope => some (e, [.term scope (e.term scope)])
  | .watch scope =>
    let r := e.watch scope
    some (r.2, [.watching scope r.1])
  | .receive scope channel =>
    (e.receive scope channel).map fun r => (r.2, [.received scope channel r.1])

/-! ### What the calls do to a scope -/

theorem mem_membersOf {localID id : NodeID} {members : List NodeMeta} :
    id ∈ membersOf localID members ↔ id = localID ∨ id ∈ members.map (·.id) := by
  have hfold : ∀ ids : List NodeID, id ∈ members.foldl
      (fun ids m => updateMembers ids ⟨.join, m⟩) ids ↔ id ∈ ids ∨ id ∈ members.map (·.id) := by
    induction members with
    | nil => simp
    | cons m rest ih =>
      intro ids
      rw [foldl_cons, ih, mem_updateMembers]
      simp [MemberEventType.departs, or_assoc]
  rw [membersOf, hfold, mem_singleton]

theorem lookup_recompute (e : RingElection) (scope : String) : e.recompute.scopes.lookup scope =
      (e.scopes.lookup scope).map fun s => s.setLeader (computeLeader scope e.members) :=
  lookup_mapValues _ _ _

@[simp] theorem members_ensureScope (e : RingElection) (scope : String) :
    (e.ensureScope scope).2.members = e.members := by
  simp only [ensureScope]
  split <;> rfl

@[simp] theorem localID_ensureScope (e : RingElection) (scope : String) :
    (e.ensureScope scope).2.localID = e.localID := by
  simp only [ensureScope]
  split <;> rfl

theorem ensureScope_fst (e : RingElection) (scope : String) : (e.ensureScope scope).1 =
      (e.scopes.lookup scope).getD (.create (computeLeader scope e.members)) := by
  simp only [ensureScope]
  cases e.scopes.lookup scope <;> rfl

theorem lookup_ensureScope (e : RingElection) (scope x : String) :
    (e.ensureScope scope).2.scopes.lookup x =
      if x = scope then some (e.ensureScope scope).1 else e.scopes.lookup x := by
  simp only [ensureScope]
  split
  · next s hs =>
    split_ifs with hx
    · rw [hx, hs]
    · rfl
  · exact lookup_insert_ite _ _ _ _

/-- **One call, seen from a scope**: it leaves the scope alone, creates it, gives it a leader, adds
a watcher, or serves one. -/
inductive ScopeMoves (e : RingElection) (a : RingAction) (e' : RingElection) (scope : String)
    (es : List RingEvent) : Prop
  | same (hsame : e'.scopes.lookup scope = e.scopes.lookup scope)
      (hmem : e.scopes.lookup scope = none ∨ e'.members = e.members)
      (hes : ∀ channel ev, .received scope channel ev ∉ es)
  | created (ha : a = .leader scope) (hnone : e.scopes.lookup scope = none)
      (hnew : e'.scopes.lookup scope = some (.create (computeLeader scope e'.members)))
      (hes : ∀ channel ev, .received scope channel ev ∉ es)
  | recomputed (s : ElectionScope) (hs : e.scopes.lookup scope = some s)
      (hnew : e'.scopes.lookup scope = some (s.setLeader (computeLeader scope e'.members)))
      (hes : es = [])
  | watched (ha : a = .watch scope) (hmem : e'.members = e.members)
      (hnew : e'.scopes.lookup scope = some (e.ensureScope scope).1.watch)
      (hes : ∀ channel ev, .received scope channel ev ∉ es)
  | served (s s' : ElectionScope) (channel : ℕ) (ev : LeaderEvent)
      (hmem : e'.members = e.members) (hs : e.scopes.lookup scope = some s)
      (hserve : s.receive channel = some (ev, s')) (hnew : e'.scopes.lookup scope = some s')
      (hes : es = [.received scope channel ev])

def membersAfter (e : RingElection) : RingAction → List NodeID
  | .onMembershipChange ev => updateMembers e.members ev
  | .setMembers members => membersOf e.localID members
  | _ => e.members

variable {e e' : RingElection} {es : List RingEvent}

variable {a : RingAction}

theorem members_step (h : e.step a = some (e', es)) :
    e'.localID = e.localID ∧ e'.members = e.membersAfter a := by
  cases a with
  | onMembershipChange ev | setMembers members | term scope =>
    cases h
    exact ⟨rfl, rfl⟩
  | leader scope | watch scope =>
    cases h
    exact ⟨localID_ensureScope e scope, members_ensureScope e scope⟩
  | receive scope channel =>
    simp only [step, receive, Option.map_eq_some_iff] at h
    obtain ⟨r, hr, heq⟩ := h
    cases heq
    split at hr
    · cases hr
    · simp only [Option.map_eq_some_iff] at hr
      obtain ⟨-, -, rfl⟩ := hr
      exact ⟨rfl, rfl⟩

theorem scopeMoves_step (h : e.step a = some (e', es)) (scope : String) :
    ScopeMoves e a e' scope es := by
  cases a with
  | onMembershipChange ev | setMembers members =>
    cases h
    cases hs : e.scopes.lookup scope with
    | none =>
      refine .same ?_ (.inl hs) (by simp)
      rw [hs]
      exact (lookup_recompute _ scope).trans (by rw [hs]; rfl)
    | some s =>
      refine .recomputed s hs ?_ rfl
      exact (lookup_recompute _ scope).trans (by rw [hs]; rfl)
  | leader x =>
    cases h
    have hlookup := lookup_ensureScope e x scope
    by_cases hx : scope = x
    · subst hx
      rw [if_pos rfl, ensureScope_fst] at hlookup
      by_cases hs : e.scopes.lookup scope = none
      · refine .created rfl hs (hlookup.trans ?_) (by simp)
        rw [leader, members_ensureScope, hs, Option.getD_none]
      · obtain ⟨s, hs⟩ := Option.ne_none_iff_exists'.mp hs
        refine .same (hlookup.trans ?_) (.inr (members_ensureScope e scope)) (by simp)
        rw [hs]
        rfl
    · rw [if_neg hx] at hlookup
      exact .same hlookup (.inr (members_ensureScope e x)) (by simp)
  | term x =>
    cases h
    exact .same rfl (.inr rfl) (by simp)
  | watch x =>
    cases h
    by_cases hx : scope = x
    · subst hx
      exact .watched rfl (members_ensureScope e scope) (lookup_insert _) (by simp)
    · refine .same ?_ (.inr (members_ensureScope e x)) (by simp)
      exact (lookup_insert_ne hx).trans ((lookup_ensureScope e x scope).trans (if_neg hx))
  | receive x channel =>
    simp only [step, receive, Option.map_eq_some_iff, Prod.mk.injEq] at h
    obtain ⟨⟨ev, e1⟩, hr, rfl, rfl⟩ := h
    split at hr
    · cases hr
    · next s hs =>
      simp only [Option.map_eq_some_iff, Prod.mk.injEq] at hr
      obtain ⟨⟨ev', s'⟩, hserve, rfl, rfl⟩ := hr
      by_cases hx : scope = x
      · subst hx
        exact .served s s' channel ev' rfl hs hserve (lookup_insert _) rfl
      · exact .same (lookup_insert_ne hx) (.inr rfl) (by simp [hx])

/-! ### What a watcher sees -/

def received (scope : String) (channel : ℕ) (tr : List RingEvent) : List LeaderEvent :=
  tr.filterMap fun
    | .received x c ev => if x = scope ∧ c = channel then some ev else none
    | _ => none

def channel (e : RingElection) (scope : String) (channel : ℕ) : List LeaderEvent :=
  match e.scopes.lookup scope with
  | none => []
  | some s => (s.watchers[channel]?).getD []

/-- What a watcher has received, and what it can still receive. -/
def feed (tr : List RingEvent) (e : RingElection) (scope : String) (channel : ℕ) :
    List LeaderEvent :=
  received scope channel tr ++ e.channel scope channel

theorem received_append (scope : String) (channel : ℕ) (tr tr' : List RingEvent) :
    received scope channel (tr ++ tr') = received scope channel tr ++ received scope channel tr' :=
  filterMap_append

variable {scope : String}

variable {channel : ℕ}

theorem received_eq_nil (hes : ∀ channel ev, .received scope channel ev ∉ es) :
    received scope channel es = [] := by
  refine filterMap_eq_nil_iff.mpr fun e he => ?_
  cases e with
  | received x c ev =>
    refine if_neg ?_
    rintro ⟨rfl, rfl⟩
    exact hes c ev he
  | leader | term | watching => rfl

theorem channel_of_lookup (channel : ℕ) (hs : e.scopes.lookup scope = some s) :
    e.channel scope channel = (s.watchers[channel]?).getD [] := by
  simp only [RingElection.channel, hs]

/-- The feed of an open channel belongs to a watcher, and its terms increase up to the scope's at
most. -/
structure Fed (tr : List RingEvent) (e : RingElection) (scope : String) (channel : ℕ) : Prop where
  opened : feed tr e scope channel ≠ [] →
    ∃ s, e.scopes.lookup scope = some s ∧ channel < s.watchers.length
  ordered : (feed tr e scope channel).Pairwise fun a b => a.term < b.term
  bounded : ∀ ev ∈ feed tr e scope channel, ∀ s, e.scopes.lookup scope = some s → ev.term ≤ s.term

variable {tr : List RingEvent}

theorem Fed.same (hfed : Fed tr e scope channel)
    (hfeed : feed (tr ++ es) e' scope channel = feed tr e scope channel)
    (hscope : ∀ s, e.scopes.lookup scope = some s → ∃ s', e'.scopes.lookup scope = some s' ∧
      s.term ≤ s'.term ∧ s.watchers.length ≤ s'.watchers.length) :
    Fed (tr ++ es) e' scope channel where
  opened := by
    intro hne
    rw [hfeed] at hne
    obtain ⟨s, hs, hlt⟩ := hfed.opened hne
    obtain ⟨s', hs', -, hlen⟩ := hscope s hs
    exact ⟨s', hs', by omega⟩
  ordered := by
    rw [hfeed]
    exact hfed.ordered
  bounded := by
    intro ev hev s' hs'
    rw [hfeed] at hev
    obtain ⟨s, hs, -⟩ := hfed.opened (ne_nil_of_mem hev)
    obtain ⟨s1, hs1, hterm, -⟩ := hscope s hs
    obtain rfl : s1 = s' := Option.some.inj (hs1.symm.trans hs')
    have hle := hfed.bounded ev hev s hs
    omega

theorem Fed.snoc {ev : LeaderEvent} (hfed : Fed tr e scope channel)
    (hfeed : feed (tr ++ es) e' scope channel = feed tr e scope channel ++ [ev])
    (hs' : e'.scopes.lookup scope = some s') (hlt : channel < s'.watchers.length)
    (hev : ev.term = s'.term) (hnew : ∀ old ∈ feed tr e scope channel, old.term < s'.term) :
    Fed (tr ++ es) e' scope channel where
  opened := fun _ => ⟨s', hs', hlt⟩
  ordered := by
    rw [hfeed]
    refine pairwise_append.mpr ⟨hfed.ordered, pairwise_singleton _ _, ?_⟩
    intro old hold new hmem
    rw [mem_singleton] at hmem
    rw [hmem, hev]
    exact hnew old hold
  bounded := by
    intro x hx s1 hs1
    obtain rfl : s' = s1 := Option.some.inj (hs'.symm.trans hs1)
    rw [hfeed, mem_append, mem_singleton] at hx
    rcases hx with hx | rfl
    · exact (hnew x hx).le
    · exact hev.le

/-- The feed stays, or the leader that is stored from then on is put at its end. -/
def Grows (tr es : List RingEvent) (e e' : RingElection) (scope : String) (channel : ℕ) : Prop :=
  feed (tr ++ es) e' scope channel = feed tr e scope channel ∨
    ∃ s' ev, e'.scopes.lookup scope = some s' ∧ ev.leader = s'.leader ∧ ev.term = s'.term ∧
      feed (tr ++ es) e' scope channel = feed tr e scope channel ++ [ev]

section
variable {tr es : List RingEvent} {e e' : RingElection} {scope : String} {channel : ℕ}

theorem received_quiet (hes : ∀ channel ev, .received scope channel ev ∉ es) :
    received scope channel (tr ++ es) = received scope channel tr := by
  rw [received_append, received_eq_nil hes, append_nil]

variable (hfed : Fed tr e scope channel)

include hfed

theorem fed_recomputed {newLeader : NodeID} (hs : e.scopes.lookup scope = some s)
    (hnew : e'.scopes.lookup scope = some (s.setLeader newLeader)) :
    Fed (tr ++ []) e' scope channel ∧ Grows tr [] e e' scope channel := by
  have hold := channel_of_lookup channel hs
  have hnow := channel_of_lookup channel hnew
  rw [watchers_setLeader] at hnow
  have hlen := length_watchers_setLeader s newLeader
  have hterm := term_setLeader s newLeader
  have hkeep (hfeed : feed (tr ++ []) e' scope channel = feed tr e scope channel) :
      Fed (tr ++ []) e' scope channel := by
    refine hfed.same hfeed fun s1 hs1 => ⟨_, hnew, ?_, ?_⟩
    · rw [hterm, ← Option.some.inj (hs.symm.trans hs1)]
      split_ifs <;> omega
    · rw [hlen, ← Option.some.inj (hs.symm.trans hs1)]
  -- an event is added unless the leader stays, the channel is full or there is none
  by_cases hadd : newLeader ≠ s.leader ∧ ∃ ch, s.watchers[channel]? = some ch ∧ ch.length < 4
  · obtain ⟨hl, ch, hch, hroom⟩ := hadd
    rw [if_neg hl] at hnow hterm
    have hfeed : feed (tr ++ []) e' scope channel =
        feed tr e scope channel ++ [⟨newLeader, s.leader, s.term + 1⟩] := by
      rw [feed, feed, append_nil, hold, hnow, hch]
      simp [hroom]
    refine ⟨hfed.snoc hfeed hnew ?_ hterm.symm fun old hmem => ?_,
      .inr ⟨_, _, hnew, (s.leader_setLeader newLeader).symm, hterm.symm, hfeed⟩⟩
    · rw [hlen]
      exact (List.getElem?_eq_some_iff.mp hch).1
    · have hle := hfed.bounded old hmem s hs
      omega
  · have hfeed : feed (tr ++ []) e' scope channel = feed tr e scope channel := by
      rw [feed, feed, append_nil, hold, hnow]
      split_ifs with hl
      · rfl
      · cases hch : s.watchers[channel]? with
        | none => rfl
        | some ch =>
          have hfull : ¬ ch.length < 4 := fun hlt => hadd ⟨hl, ch, hch, hlt⟩
          simp [hfull]
    exact ⟨hkeep hfeed, .inl hfeed⟩

theorem fed_watched (hnew : e'.scopes.lookup scope = some (e.ensureScope scope).1.watch)
    (hes : ∀ channel ev, .received scope channel ev ∉ es) :
    Fed (tr ++ es) e' scope channel ∧ Grows tr es e e' scope channel := by
  have hnow := channel_of_lookup channel hnew
  have hs0 := ensureScope_fst e scope
  generalize (e.ensureScope scope).1 = s0 at hnew hnow hs0
  have hold : e.channel scope channel = (s0.watchers[channel]?).getD [] := by
    cases hs : e.scopes.lookup scope with
    | none => simp [RingElection.channel, hs, hs0, create]
    | some s => simp [RingElection.channel, hs, hs0]
  have hscope : ∀ s, e.scopes.lookup scope = some s → s = s0 := by
    intro s hs
    rw [hs0, hs]
    rfl
  have hlen : s0.watch.watchers.length = s0.watchers.length + 1 := by
    simp [ElectionScope.watch]
  rw [watchers_watch] at hnow
  by_cases hfirst : channel = s0.watchers.length ∧ s0.leader ≠ ""
  · obtain ⟨rfl, hlead⟩ := hfirst
    -- the watcher is new, so nothing has come out of its channel
    have hempty : feed tr e scope s0.watchers.length = [] := by
      by_contra hne
      obtain ⟨s, hs, hlt⟩ := hfed.opened hne
      rw [hscope s hs] at hlt
      omega
    have hfeed : feed (tr ++ es) e' scope s0.watchers.length =
        feed tr e scope s0.watchers.length ++ [⟨s0.leader, "", s0.term⟩] := by
      rw [hempty, feed, received_quiet hes, hnow]
      simp only [feed, append_eq_nil_iff] at hempty
      simp [hempty.1, hlead]
    refine ⟨hfed.snoc hfeed hnew (by omega) rfl ?_, .inr ⟨_, _, hnew, rfl, rfl, hfeed⟩⟩
    simp [hempty]
  · have hfeed : feed (tr ++ es) e' scope channel = feed tr e scope channel := by
      rw [feed, feed, received_quiet hes, hold, hnow]
      by_cases hc : channel = s0.watchers.length
      · have hlead : s0.leader = "" := by
          by_contra hlead
          exact hfirst ⟨hc, hlead⟩
        simp [hc, hlead]
      · rw [if_neg hc]
    refine ⟨hfed.same hfeed fun s hs => ⟨s0.watch, hnew, ?_, ?_⟩, .inl hfeed⟩
    · rw [hscope s hs]
      exact le_rfl
    · rw [hscope s hs, hlen]
      omega

theorem fed_served {c : ℕ} {ev : LeaderEvent}
    (hs : e.scopes.lookup scope = some s) (hserve : s.receive c = some (ev, s'))
    (hnew : e'.scopes.lookup scope = some s') :
    Fed (tr ++ [.received scope c ev]) e' scope channel ∧
      Grows tr [.received scope c ev] e e' scope channel := by
  have hold := channel_of_lookup channel hs
  have hnow := channel_of_lookup channel hnew
  simp only [ElectionScope.receive] at hserve
  split at hserve
  · next head rest hch =>
    cases hserve
    -- the event has only moved from the channel to the reader
    have hfeed : feed (tr ++ [.received scope c ev]) e' scope channel =
        feed tr e scope channel := by
      rw [feed, feed, received_append, hold, hnow]
      by_cases hc : c = channel
      · subst hc
        rw [hch]
        simp [received, (List.getElem?_eq_some_iff.mp hch).1]
      · simp [received, hc]
    refine ⟨hfed.same hfeed fun s1 hs1 => ?_, .inl hfeed⟩
    obtain rfl : s = s1 := Option.some.inj (hs.symm.trans hs1)
    exact ⟨_, hnew, le_rfl, by simp⟩
  · cases hserve

theorem fed_step {a : RingAction} (hmoves : ScopeMoves e a e' scope es) :
    Fed (tr ++ es) e' scope channel ∧ Grows tr es e e' scope channel := by
  cases hmoves with
  | same hsame hmem hes =>
    have hfeed : feed (tr ++ es) e' scope channel = feed tr e scope channel := by
      simp only [feed, received_quiet hes, RingElection.channel, hsame]
    exact ⟨hfed.same hfeed fun s hs => ⟨s, hsame.trans hs, le_rfl, le_rfl⟩, .inl hfeed⟩
  | created ha hnone hnew hes =>
    have hfeed : feed (tr ++ es) e' scope channel = feed tr e scope channel := by
      simp only [feed, received_quiet hes, RingElection.channel, hnone, hnew, create]
      simp
    refine ⟨hfed.same hfeed fun s hs => ?_, .inl hfeed⟩
    rw [hnone] at hs
    cases hs
  | recomputed s hs hnew hes =>
    subst hes
    exact fed_recomputed hfed hs hnew
  | watched ha hmem hnew hes => exact fed_watched hfed hnew hes
  | served s s' c ev hmem hs hserve hnew hes =>
    subst hes
    exact fed_served hfed hs hserve hnew

end

/-! ### The law of an election -/

def Within (scopes : Set String) (nodes : Set NodeID) (_ : RingElection) : RingAction → Prop
  | .onMembershipChange ev => ev.member.id ∈ nodes
  | .setMembers members => ∀ m ∈ members, m.id ∈ nodes
  | .leader scope | .term scope | .watch scope | .receive scope _ => scope ∈ scopes

/-- The stored leaders are those of the members, and only the given scopes and nodes
occur. -/
structure Elects (scopes : Set String) (nodes : Set NodeID) (e : RingElection) : Prop where
  localID : e.localID ∈ nodes
  members : ∀ id ∈ e.members, id ∈ nodes
  active : ∀ scope s, e.scopes.lookup scope = some s →
    scope ∈ scopes ∧ s.leader = computeLeader scope e.members

section
variable {scopes : Set String} {nodes : Set NodeID} {e e' : RingElection} {a : RingAction}
  {es tr : List RingEvent} {localID : NodeID}

theorem elects_new (hlocal : localID ∈ nodes) : Elects scopes nodes (new localID) where
  localID := hlocal
  members := by simpa [new] using hlocal
  active := fun scope s hs => nomatch hs

theorem Elects.membersAfter (he : Elects scopes nodes e) (hw : Within scopes nodes e a) :
    ∀ id ∈ e.membersAfter a, id ∈ nodes := by
  intro id hid
  cases a with
  | onMembershipChange ev =>
    rw [RingElection.membersAfter, mem_updateMembers] at hid
    split_ifs at hid
    · exact he.members id hid.1
    · exact hid.elim (he.members id) fun h => h ▸ hw
  | setMembers members =>
    rw [RingElection.membersAfter, mem_membersOf, mem_map] at hid
    rcases hid with rfl | ⟨m, hm, rfl⟩
    · exact he.localID
    · exact hw m hm
  | leader | term | watch | receive => exact he.members id hid

theorem elects_step (hw : Within scopes nodes e a) (h : e.step a = some (e', es))
    (he : Elects scopes nodes e) : Elects scopes nodes e' where
  localID := by
    rw [(members_step h).1]
    exact he.localID
  members := by
    rw [(members_step h).2]
    exact he.membersAfter hw
  active := by
    intro scope s' hs'
    cases scopeMoves_step h scope with
    | same hsame hmem hes =>
      rw [hsame] at hs'
      rcases hmem with hnone | hmem
      · rw [hnone] at hs'
        cases hs'
      · rw [hmem]
        exact he.active scope s' hs'
    | created ha hnone hnew hes =>
      subst ha
      obtain rfl := Option.some.inj (hnew.symm.trans hs')
      exact ⟨hw, rfl⟩
    | recomputed s hs hnew hes =>
      obtain rfl := Option.some.inj (hnew.symm.trans hs')
      exact ⟨(he.active scope s hs).1, s.leader_setLeader _⟩
    | watched ha hmem hnew hes =>
      subst ha
      obtain rfl := Option.some.inj (hnew.symm.trans hs')
      refine ⟨hw, ?_⟩
      rw [hmem, ElectionScope.watch, ensureScope_fst]
      cases hs : e.scopes.lookup scope with
      | none => rfl
      | some s => exact (he.active scope s hs).2
    | served s s1 c ev hmem hs hserve hnew hes =>
      obtain rfl := Option.some.inj (hnew.symm.trans hs')
      rw [hmem, (receive_keeps hserve).1]
      exact he.active scope s hs

theorem term_step (h : e.step a = some (e', es)) {scope : String}
    (hs : e.scopes.lookup scope = some s) : ∃ s', e'.scopes.lookup scope = some s' ∧
      s'.term = if s'.leader = s.leader then s.term else s.term + 1 := by
  cases scopeMoves_step h scope with
  | same hsame hmem hes => exact ⟨s, hsame.trans hs, by simp⟩
  | created ha hnone hnew hes =>
    rw [hnone] at hs
    cases hs
  | recomputed s1 hs1 hnew hes =>
    obtain rfl := Option.some.inj (hs1.symm.trans hs)
    exact ⟨_, hnew, by rw [s1.leader_setLeader, s1.term_setLeader]⟩
  | watched ha hmem hnew hes =>
    rw [ensureScope_fst, hs] at hnew
    exact ⟨_, hnew, by simp [ElectionScope.watch]⟩
  | served s1 s' c ev hmem hs1 hserve hnew hes =>
    obtain rfl := Option.some.inj (hs1.symm.trans hs)
    obtain ⟨hleader, hterm⟩ := receive_keeps hserve
    exact ⟨s', hnew, by rw [hleader, hterm, if_pos rfl]⟩

theorem created_step (h : e.step a = some (e', es)) {scope : String}
    (hnone : e.scopes.lookup scope = none) (hs' : e'.scopes.lookup scope = some s') :
    a.touches = some scope ∧ s'.term = 1 := by
  cases scopeMoves_step h scope with
  | same hsame hmem hes =>
    rw [hsame, hnone] at hs'
    cases hs'
  | created ha _ hnew hes =>
    subst ha
    obtain rfl := Option.some.inj (hnew.symm.trans hs')
    exact ⟨rfl, rfl⟩
  | recomputed s hs hnew hes | served s s1 c ev hmem hs hserve hnew hes =>
    rw [hnone] at hs
    cases hs
  | watched ha hmem hnew hes =>
    subst ha
    rw [ensureScope_fst, hnone] at hnew
    obtain rfl := Option.some.inj (hnew.symm.trans hs')
    exact ⟨rfl, rfl⟩

theorem elects_run (hlocal : localID ∈ nodes)
    (h : Run step (Within scopes nodes) (new localID) tr e) : Elects scopes nodes e :=
  h.invariant_state _ (elects_new hlocal) fun _ _ _ _ he hw hstep => elects_step hw hstep he

theorem fed_run (h : Run step (Within scopes nodes) (new localID) tr e) (scope : String)
    (channel : ℕ) : Fed tr e scope channel ∧ ∀ ev ∈ feed tr e scope channel,
      Run.Passes step (Within scopes nodes) (new localID) tr e fun e₁ =>
        ∃ s, e₁.scopes.lookup scope = some s ∧ s.leader = ev.leader ∧ s.term = ev.term := by
  induction h with
  | refl =>
    refine ⟨⟨fun h => absurd rfl h, .nil, fun ev hev => nomatch hev⟩, fun ev hev => nomatch hev⟩
  | step hrun hw hstep ih =>
    obtain ⟨hfed, hgrows⟩ := fed_step ih.1 (scopeMoves_step hstep scope)
    refine ⟨hfed, fun ev hev => ?_⟩
    rcases hgrows with hfeed | ⟨s', new, hs', hleader, hterm, hfeed⟩
    · rw [hfeed] at hev
      exact (ih.2 ev hev).snoc hw hstep
    · rw [hfeed, mem_append, mem_singleton] at hev
      rcases hev with hev | rfl
      · exact (ih.2 ev hev).snoc hw hstep
      · exact .here (.step hrun hw hstep) ⟨s', hs', hleader.symm, hterm.symm⟩

end

def Leads (scope : String) (members : List NodeID) (leader : NodeID) : Prop :=
  leader ∈ members ∧ ∀ id ∈ members, id ≠ leader → ringHash scope leader < ringHash scope id

/-- The law of one election, after a run of calls that name the given scopes and nodes. -/
structure Lawful (scopes : Set String) (nodes : Set NodeID) (localID : NodeID)
    (tr : List RingEvent) (e : RingElection) : Prop where
  least : ∀ scope s, e.scopes.lookup scope = some s → e.members ≠ [] →
    Leads scope e.members s.leader
  empty : ∀ scope s, e.scopes.lookup scope = some s → "" ∉ e.members →
    (s.leader = "" ↔ e.members = [])
  term : ∀ a e' es, Within scopes nodes e a → e.step a = some (e', es) →
    ∀ scope s, e.scopes.lookup scope = some s → ∃ s', e'.scopes.lookup scope = some s' ∧
      s'.term = if s'.leader = s.leader then s.term else s.term + 1
  join : ∀ ev, ev.type.departs = false → ∀ scope s, e.scopes.lookup scope = some s →
    ∃ s', (e.onMembershipChange ev).scopes.lookup scope = some s' ∧
      (s'.leader = s.leader ∨ s'.leader = ev.member.id)
  depart : ∀ ev, ev.type.departs = true → ∀ scope s, e.scopes.lookup scope = some s →
    ev.member.id ≠ s.leader → (e.onMembershipChange ev).scopes.lookup scope = some s
  agree : ∀ localID' tr' e', localID' ∈ nodes →
    Run step (Within scopes nodes) (new localID') tr' e' →
    (∀ id, id ∈ e.members ↔ id ∈ e'.members) → ∀ scope s s', e.scopes.lookup scope = some s →
      e'.scopes.lookup scope = some s' → s.leader = s'.leader
  ordered : ∀ scope channel, (received scope channel tr).Pairwise fun a b => a.term < b.term
  stored : ∀ scope channel, ∀ ev ∈ received scope channel tr,
    Run.Passes step (Within scopes nodes) (new localID) tr e fun e₁ =>
      ∃ s, e₁.scopes.lookup scope = some s ∧ s.leader = ev.leader ∧ s.term = ev.term

/-- **The law of an election**, for every sequence of calls over scopes and nodes whose
hashes are distinct. Terms are taken not to wrap at `2 ^ 64`. -/
theorem lawful_of_run {scopes : Set String} {nodes : Set NodeID} {localID : NodeID}
    {tr : List RingEvent} {e : RingElection}
    (hdistinct : ∀ scope ∈ scopes, Set.InjOn (ringHash scope) nodes) (hlocal : localID ∈ nodes)
    (h : Run step (Within scopes nodes) (new localID) tr e) : Lawful scopes nodes localID tr e := by
  have he := elects_run hlocal h
  have hinj {scope : String} {s : ElectionScope} (hs : e.scopes.lookup scope = some s) :
      Set.InjOn (ringHash scope) {id | id ∈ e.members} := by
    intro a ha b hb heq
    exact hdistinct scope (he.active scope s hs).1 (he.members a ha) (he.members b hb) heq
  constructor
  case least =>
    intro scope s hs hne
    rw [(he.active scope s hs).2]
    obtain ⟨hmem, hle⟩ := computeLeader_least scope hne
    refine ⟨hmem, fun id hid hother => ?_⟩
    exact UInt64.lt_of_le_of_ne (hle id hid) fun heq => hother (hinj hs hid hmem heq.symm)
  case empty =>
    intro scope s hs hempty
    rw [(he.active scope s hs).2]
    constructor
    · intro hlead
      by_contra hne
      exact hempty (hlead ▸ (computeLeader_least scope hne).1)
    · intro hnil
      rw [hnil, computeLeader_nil]
  case term => exact fun a e' es _ hstep scope s hs => term_step hstep hs
  case join =>
    intro ev hjoin scope s hs
    refine ⟨_, (lookup_recompute _ scope).trans (by rw [hs]; rfl), ?_⟩
    rw [leader_setLeader, (he.active scope s hs).2]
    exact computeLeader_join hjoin
  case depart =>
    intro ev hdep scope s hs hother
    rw [(he.active scope s hs).2] at hother
    have hsame := computeLeader_depart (hinj hs) hdep hother
    refine (lookup_recompute _ scope).trans ?_
    rw [hs, hsame, ← (he.active scope s hs).2]
    simp [setLeader]
  case agree =>
    intro localID' tr' e' hlocal' h' hsame scope s s' hs hs'
    rw [(he.active scope s hs).2, ((elects_run hlocal' h').active scope s' hs').2]
    exact computeLeader_congr (hinj hs) hsame
  case ordered =>
    intro scope channel
    exact (pairwise_append.mp (fed_run h scope channel).1.ordered).1
  case stored =>
    intro scope channel ev hev
    exact (fed_run h scope channel).2 ev (mem_append_left _ hev)

theorem distinct_svc : ∀ scope ∈ ({"svc"} : Set String),
    Set.InjOn (ringHash scope) ({"a", "b"} : Set NodeID) := by
  have hne : ringHash "svc" "a" ≠ ringHash "svc" "b" := by decide +kernel
  rintro scope rfl x (rfl | rfl) y (rfl | rfl) heq
  · rfl
  · exact absurd heq hne
  · exact absurd heq.symm hne
  · rfl

/-- The calls of a node `a` that watches a scope while `b` joins. -/
def joinWhileWatching : List RingAction :=
  [.watch "svc", .onMembershipChange ⟨.join, ⟨"b", "", []⟩⟩, .receive "svc" 0, .receive "svc" 0]

theorem lawful_two_members : ∃ tr e, Lawful {"svc"} {"a", "b"} "a" tr e ∧
      (received "svc" 0 tr).map (fun ev => (ev.leader, ev.term)) = [("a", 1), ("b", 2)] := by
  have hend : (exec step (fun _ a => a ∈ joinWhileWatching) (new "a") joinWhileWatching).map
      (fun r => (received "svc" 0 r.2).map fun ev => (ev.leader, ev.term)) =
        some [("a", 1), ("b", 2)] := by decide +kernel
  obtain ⟨⟨e, tr⟩, hexec, hreceived⟩ := Option.map_eq_some_iff.mp hend
  refine ⟨tr, e, lawful_of_run distinct_svc (by simp) (Run.of_exec ?_ hexec), hreceived⟩
  intro e a ha
  simp only [joinWhileWatching, mem_cons, not_mem_nil, or_false, decide_eq_true_eq] at ha
  rcases ha with rfl | rfl | rfl | rfl <;> simp [Within]

/-- **A leader that looks like none.** A node whose identifier is empty leads a scope alone. -/
theorem leads_as_none :
    ∃ tr e s, Run step (Within {"svc"} {""}) (new "") tr e ∧ e.scopes.lookup "svc" = some s ∧
      s.leader = "" ∧ e.members = [""] := by
  refine ⟨[] ++ [.leader "svc" "" false], ((new "").leader "svc").2, .create "", ?_, rfl, rfl, rfl⟩
  refine Run.step (a := .leader "svc") .refl ?_ rfl
  exact Set.mem_singleton "svc"

end RingElection
end Westcoast.Cluster
