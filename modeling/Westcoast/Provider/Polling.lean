import Westcoast.Lib.Loop
import Westcoast.Provider.History
import Westcoast.Provider.Poller

/-!
# What the poller makes of its polls

`diffMembers` over every sequence of poll results. Its two loops go through maps in any order; what
becomes of a node does not depend on it, and is `Polled`. The misses of an entry are the polls
since the node was last discovered.
-/
namespace Westcoast.Provider

open Lib Cluster List Option PollerPeerState PollerMembers Bool

def PollerPeerState.shown (ps : PollerPeerState) : Option NodeMeta :=
  if ps.alive then some ps.nodeMeta else none

theorem PollerPeerState.shows : Shows nodeMeta shown := by
  intro ps m hm
  exact Option.some.inj (ite_none_right_eq_some.mp hm).2

namespace PollerMembers

def members (ms : PollerMembers) : List NodeMeta := membersOf shown ms

/-- The body of the first loop of `diffMembers`, over what was discovered. -/
def noteSeen (seen : AList fun _ : NodeID => NodeMeta) (r : PollerMembers × List MemberEvent)
    (id : NodeID) : PollerMembers × List MemberEvent :=
  match seen.lookup id with
  | none => r
  | some m => put r id (PollerPeerState.seen (r.1.lookup id) m)

/-- The body of its second loop, over the members. -/
def noteMissing (failureThreshold : ℤ) (seen : AList fun _ : NodeID => NodeMeta)
    (r : PollerMembers × List MemberEvent) (id : NodeID) : PollerMembers × List MemberEvent :=
  match r.1.lookup id with
  | none => r
  | some ps => if (seen.lookup id).isSome then r else put r id (ps.missed failureThreshold)

/-- What the first loop does to an entry and tells; `found` is what was discovered of the node. -/
def seenEntry (found : Option NodeMeta) (existing : Option PollerPeerState) :
    Option PollerPeerState × List MemberEvent :=
  match found with
  | none => (existing, [])
  | some m => (some (seen existing m).1, (seen existing m).2)

def missedEntry (failureThreshold : ℤ) (found : Option NodeMeta)
    (existing : Option PollerPeerState) : Option PollerPeerState × List MemberEvent :=
  match existing with
  | none => (none, [])
  | some ps =>
    if found.isSome then (some ps, [])
    else (some (ps.missed failureThreshold).1, (ps.missed failureThreshold).2)

/-- What a poll does to the entry of a node, and what it tells about it. -/
inductive Polled (th : ℤ) : Option NodeMeta → Option PollerPeerState → Option PollerPeerState →
    List MemberEvent → Prop
  | joined {m : NodeMeta} {existing : Option PollerPeerState}
      (hdead : ∀ ps, existing = some ps → ps.alive = false) :
      Polled th (some m) existing (some ⟨m, true, 0⟩) [⟨.join, m⟩]
  | updated {m : NodeMeta} {ps : PollerPeerState} (halive : ps.alive = true)
      (htags : tagsEqual ps.nodeMeta.tags m.tags = false) :
      Polled th (some m) (some ps) (some ⟨m, true, 0⟩) [⟨.updated, m⟩]
  | found {m : NodeMeta} {ps : PollerPeerState} (halive : ps.alive = true)
      (htags : tagsEqual ps.nodeMeta.tags m.tags = true) :
      Polled th (some m) (some ps) (some { ps with consecutiveMisses := 0 }) []
  | unknown : Polled th none none none []
  | dead {ps : PollerPeerState} (hdead : ps.alive = false) : Polled th none (some ps) (some ps) []
  | missed {ps : PollerPeerState} (halive : ps.alive = true)
      (hth : (ps.consecutiveMisses + 1 : ℕ) < th) :
      Polled th none (some ps)
        (some { ps with consecutiveMisses := ps.consecutiveMisses + 1 }) []
  | failed {ps : PollerPeerState} (halive : ps.alive = true)
      (hth : th ≤ (ps.consecutiveMisses + 1 : ℕ)) :
      Polled th none (some ps)
        (some { ps with consecutiveMisses := ps.consecutiveMisses + 1, alive := false })
        [⟨.failed, ps.nodeMeta⟩]

theorem polled_missedEntry (th : ℤ) (found : Option NodeMeta) (existing : Option PollerPeerState) :
    Polled th found existing (missedEntry th found (seenEntry found existing).1).1
      ((seenEntry found existing).2 ++ (missedEntry th found (seenEntry found existing).1).2) := by
  cases found with
  | some m =>
    simp only [seenEntry, missedEntry, isSome_some, if_true, append_nil]
    cases existing with
    | none => exact .joined nofun
    | some ps =>
      simp only [seen]
      split_ifs with hdead htags
      · refine .joined fun ps' hps' => ?_
        cases hps'
        simpa using hdead
      · exact .updated (by simpa using hdead) (by simpa using htags)
      · exact .found (by simpa using hdead) (by simpa using htags)
  | none =>
    cases existing with
    | none => exact .unknown
    | some ps =>
      simp only [seenEntry, missedEntry, PollerPeerState.missed, isSome_none,
        false_eq_true, if_false, nil_append]
      split_ifs with hdead hth
      · exact .dead (by simpa using hdead)
      · exact .failed (by simpa using hdead) hth
      · exact .missed (by simpa using hdead) (by omega)

section

variable {th : ℤ} {found : Option NodeMeta} {existing entry : Option PollerPeerState}
  {ps : PollerPeerState} {evs : List MemberEvent}

theorem Polled.told (h : Polled th found existing entry evs) :
    Told {.failed} (existing.bind shown) evs
      (entry.bind shown) := by
  cases h with
  | @joined m existing hdead =>
    have hnone : existing.bind shown = none := by
      cases existing with
      | none => rfl
      | some ps => simp [shown, hdead ps rfl]
    rw [hnone]
    exact .joined m
  | updated halive | found halive | dead halive | missed halive =>
    simp only [bind_some, shown, halive, if_true, if_false,
      false_eq_true]
    constructor
  | unknown => exact .nothing none
  | failed halive =>
    simp only [bind_some, shown, halive, if_true]
    exact .departed _ _ rfl

theorem Polled.about {id : NodeID} (h : Polled th found existing entry evs)
    (hfound : ∀ m, found = some m → m.id = id)
    (hexisting : ∀ ps, existing = some ps → ps.nodeMeta.id = id) {e : MemberEvent} (he : e ∈ evs) :
    e.member.id = id := by
  cases h with
  | joined | updated =>
    cases mem_singleton.mp he
    exact hfound _ rfl
  | failed =>
    cases mem_singleton.mp he
    exact hexisting _ rfl
  | found | unknown | dead | missed => cases he

theorem Polled.nodeMeta_eq (h : Polled th found existing (some ps) evs) :
    found = some ps.nodeMeta ∨ ∃ ps₀, existing = some ps₀ ∧ ps.nodeMeta = ps₀.nodeMeta := by
  cases h with
  | joined | updated => exact .inl rfl
  | found | dead | missed | failed => exact .inr ⟨_, rfl, rfl⟩

theorem Polled.misses (h : Polled th found existing (some ps) evs) (halive : ps.alive = true) :
    (∃ m, found = some m ∧ ps.consecutiveMisses = 0) ∨
      found = none ∧ ∃ ps₀, existing = some ps₀ ∧ ps₀.alive = true ∧
        ps.consecutiveMisses = ps₀.consecutiveMisses + 1 ∧ (ps.consecutiveMisses : ℤ) < th := by
  cases h with
  | joined | updated | found => exact .inl ⟨_, rfl, rfl⟩
  | dead hdead =>
    rw [halive] at hdead
    cases hdead
  | missed halive hth => exact .inr ⟨rfl, _, rfl, halive, rfl, hth⟩
  | failed => cases halive

theorem Polled.failed_iff (h : Polled th found existing entry evs) : (∃ e ∈ evs, e.type = .failed) ↔
      found = none ∧ ∃ ps, existing = some ps ∧ ps.alive = true ∧
        th ≤ (ps.consecutiveMisses + 1 : ℕ) := by
  cases h with
  | joined | updated | found | unknown => simp
  | dead hdead => simp [hdead]
  | missed halive hth => simpa [halive] using hth
  | failed halive hth => simpa [halive] using hth

theorem Polled.unique {entry' : Option PollerPeerState} {evs' : List MemberEvent}
    (h : Polled th found existing entry evs) (h' : Polled th found existing entry' evs') :
    entry = entry' ∧ evs = evs' := by
  cases h <;> cases h' <;> simp_all <;> omega

end

section

variable {th : ℤ} {self : NodeID} {seen : AList fun _ : NodeID => NodeMeta} {ms : PollerMembers}
  {order order' : List NodeID}

theorem visits_noteSeen (seen : AList fun _ : NodeID => NodeMeta) :
    Visits (noteSeen seen) fun id => seenEntry (seen.lookup id) := by
  intro r id
  simp only [noteSeen, seenEntry]
  cases seen.lookup id with
  | none => exact .kept
  | some m => exact .put ..

theorem visits_noteMissing (th : ℤ) (seen : AList fun _ : NodeID => NodeMeta) :
    Visits (noteMissing th seen) fun id => missedEntry th (seen.lookup id) := by
  intro r id
  simp only [noteMissing, missedEntry]
  cases hps : r.1.lookup id with
  | none =>
    simp only
    rw [← hps]
    exact .kept
  | some ps =>
    simp only
    split_ifs
    · rw [← hps]
      exact .kept
    · exact .put ..

theorem lookup_discoveredBy (self : NodeID) (current : List NodeMeta) (id : NodeID) :
    (discoveredBy self current).lookup id =
      if id = self then none else (current.filter fun m => m.id = id).getLast? := by
  induction current using List.reverseRecOn with
  | nil => simp [discoveredBy]
  | append_singleton current m ih =>
    have hsnoc : discoveredBy self (current ++ [m]) =
        if m.id = self then discoveredBy self current
        else (discoveredBy self current).insert m.id m := by
      rw [discoveredBy, foldl_append]
      rfl
    rw [hsnoc, filter_append]
    by_cases hid : m.id = id
    · subst hid
      by_cases hself : m.id = self
      · simp [hself, ih]
      · simp [hself]
    · have hnone : ([m].filter fun m => m.id = id) = [] := by simp [hid]
      rw [hnone, append_nil, ← ih]
      split_ifs
      · rfl
      · rw [lookup_insert_ite, if_neg (Ne.symm hid)]

variable {current : List NodeMeta} {id : NodeID}

theorem id_of_discoveredBy {m : NodeMeta} (h : (discoveredBy self current).lookup id = some m) :
    m ∈ current ∧ m.id = id ∧ id ≠ self := by
  rw [lookup_discoveredBy, ite_none_left_eq_some] at h
  have hmem := mem_of_getLast? h.2
  rw [mem_filter, decide_eq_true_eq] at hmem
  exact ⟨hmem.1, hmem.2, h.1⟩

theorem discoveredBy_eq_none :
    (discoveredBy self current).lookup id = none ↔ id = self ∨ ∀ m ∈ current, m.id ≠ id := by
  rw [lookup_discoveredBy]
  split_ifs with hself <;> simp [hself]

structure Orders (seen : AList fun _ : NodeID => NodeMeta) (ms : PollerMembers)
    (order order' : List NodeID) : Prop where
  first : order.Perm seen.keys
  second : order'.Perm (order.foldl (noteSeen seen) (ms, [])).1.keys

theorem polled_noteMissing (h : Orders seen ms order order') (hms : Keyed nodeMeta ms)
    (hseen : ∀ id m, seen.lookup id = some m → m.id = id) (id : NodeID) :
    let r := order'.foldl (noteMissing th seen) (order.foldl (noteSeen seen) (ms, []))
    Polled th (seen.lookup id) (ms.lookup id) (r.1.lookup id) (eventsOf id r.2) := by
  have hskip : ∀ k ∉ order, seenEntry (seen.lookup k) (ms.lookup k) = (ms.lookup k, []) := by
    intro k hk
    rw [lookup_eq_none_of_order h.first hk]
    rfl
  have hfirst := (visits_noteSeen seen).lookup_foldl (nodup_order h.first) (r := (ms, [])) hskip
  have hskip' : ∀ k ∉ order', missedEntry th (seen.lookup k)
      ((order.foldl (noteSeen seen) (ms, [])).1.lookup k) =
        ((order.foldl (noteSeen seen) (ms, [])).1.lookup k, []) := by
    intro k hk
    rw [lookup_eq_none_of_order h.second hk]
    rfl
  simp only [eventsOf]
  rw [(visits_noteMissing th seen).lookup_foldl (nodup_order h.second) hskip',
    (visits_noteMissing th seen).filter_foldl (nodup_order h.second) hskip',
    (visits_noteSeen seen).filter_foldl (nodup_order h.first) hskip, hfirst]
  · exact polled_missedEntry ..
  · intro k e he
    exact (polled_missedEntry th _ _).about (hseen k) (hms k) (mem_append_left _ he)
  · intro k e he
    rw [hfirst] at he
    exact (polled_missedEntry th _ _).about (hseen k) (hms k) (mem_append_right _ he)

theorem foldl_noteSeen (seen : AList fun _ : NodeID => NodeMeta)
    (r : PollerMembers × List MemberEvent) :
    seen.entries.foldl (fun r e => put r e.1 (PollerPeerState.seen (r.1.lookup e.1) e.2)) r =
      seen.keys.foldl (noteSeen seen) r := by
  have hkeys : seen.keys = seen.entries.map (·.1) := rfl
  rw [hkeys, foldl_map]
  refine foldl_ext _ _ _ fun r e he => ?_
  have he' : seen.lookup e.1 = some e.2 := AList.mem_lookup_iff.mpr he
  simp only [noteSeen, he']

end

theorem diffMembers_eq (th : ℤ) (self : NodeID) (ms : PollerMembers) (current : List NodeMeta) :
    ∃ order order', Orders (discoveredBy self current) ms order order' ∧
      diffMembers th self ms current = order'.foldl (noteMissing th (discoveredBy self current))
          (order.foldl (noteSeen (discoveredBy self current)) (ms, [])) := by
  refine ⟨_, _, ⟨List.Perm.refl _, List.Perm.refl _⟩, ?_⟩
  simp only [diffMembers]
  rw [foldl_noteSeen]
  refine ((visits_noteMissing th _).foldl_keys (fun r e he => ?_) (AList.nodupKeys _)
    fun e he => AList.mem_lookup_iff.mpr he).symm
  simp only [noteMissing, he]

end PollerMembers

/-! ## Every sequence of polls -/

/-- What `discover` returned, `none` for an error, and the orders of the loops of `diffMembers`. -/
structure PollAction where
  result : Option (List NodeMeta)
  order : List NodeID
  order' : List NodeID

structure Poll where
  result : Option (List NodeMeta)
  events : List MemberEvent
  deriving DecidableEq

namespace Poller

/-- `poll`; the loops of `diffMembers` go through each key of their maps once. -/
def pollStep (p : Poller) (a : PollAction) : Option (Poller × List Poll) :=
  match a.result with
  | none => some (p, [⟨none, []⟩])
  | some current =>
    let seen := discoveredBy p.self.id current
    let r := a.order.foldl (noteSeen seen) (p.members, [])
    if a.order.isPerm seen.keys && a.order'.isPerm r.1.keys then
      let r := a.order'.foldl (noteMissing p.failureThreshold seen) r
      some ({ p with members := r.1 }, [⟨some current, r.2⟩])
    else none

end Poller

def polledEvents (tr : List Poll) : List MemberEvent := tr.flatMap (·.events)

namespace Poll

def has (id : NodeID) (d : Poll) : Bool :=
  d.result.any fun current => current.any fun m => m.id = id

def lacks (id : NodeID) (d : Poll) : Bool :=
  d.result.any fun current => current.all fun m => m.id ≠ id

end Poll

/-- The successful polls that lack a node, since the last one that had it. -/
def missedPolls (id : NodeID) (tr : List Poll) : ℕ :=
  tr.foldl (fun n d => if d.has id then 0 else if d.lacks id then n + 1 else n) 0

/-- A node fails at the poll that is the `th`-th in a row to lack it, if it was a member. -/
def FailsAtPoll (th : ℤ) (tr : List Poll) : Prop :=
  ∀ before d after, tr = before ++ d :: after → ∀ id,
    (∃ e ∈ d.events, e.type = .failed ∧ e.member.id = id) ↔
      ((replay (polledEvents before)).lookup id).isSome = true ∧ d.lacks id = true ∧
        (missedPolls id (before ++ [d]) : ℤ) = th

/-- What is asked of the polls so far and the members, for a poller with threshold `th` on `own`. -/
structure TracksPolls (th : ℤ) (own : NodeID) (tr : List Poll) (ms : PollerMembers) : Prop
    extends Informs {.failed} own (polledEvents tr) ms.members where
  fails : FailsAtPoll th tr

structure PollsAgree (th : ℤ) (own : NodeID) (tr : List Poll) (ms : PollerMembers) : Prop
    extends Accounts nodeMeta shown {.failed} own
      (polledEvents tr) ms where
  misses : ∀ id ps, ms.lookup id = some ps → ps.alive = true →
    ps.consecutiveMisses = missedPolls id tr ∧ (ps.consecutiveMisses : ℤ) < th

section

variable {th : ℤ} {self id : NodeID} {tr : List Poll} {d : Poll} {ms ms' : PollerMembers}

theorem polledEvents_snoc : polledEvents (tr ++ [d]) = polledEvents tr ++ d.events := by
  simp [polledEvents]

theorem missedPolls_snoc : missedPolls id (tr ++ [d]) =
    if d.has id then 0 else if d.lacks id then missedPolls id tr + 1 else missedPolls id tr := by
  rw [missedPolls, foldl_append]
  rfl

def Diffed (th : ℤ) (own : NodeID) (ms : PollerMembers) (current : List NodeMeta)
    (ms' : PollerMembers) (evs : List MemberEvent) : Prop :=
  ∀ id, PollerMembers.Polled th ((discoveredBy own current).lookup id)
    (ms.lookup id) (ms'.lookup id) (eventsOf id evs)

theorem Poller.diffed_of_pollStep {p p' : Poller} {a : PollAction} {es : List Poll}
    (hkeyed : Keyed nodeMeta p.members) (hs : p.pollStep a = some (p', es)) :
    a.result = none ∧ p' = p ∧ es = [⟨none, []⟩] ∨
      ∃ current evs, a.result = some current ∧ p' = { p with members := p'.members } ∧
        es = [⟨some current, evs⟩] ∧
          Diffed p.failureThreshold p.self.id p.members current p'.members evs := by
  unfold Poller.pollStep at hs
  split at hs
  · next hnone =>
    cases hs
    exact .inl ⟨hnone, rfl, rfl⟩
  · next current hcurrent =>
    simp only [ite_none_right_eq_some, and_eq_true, isPerm_iff] at hs
    obtain ⟨⟨horder, horder'⟩, hs⟩ := hs
    cases hs
    exact .inr ⟨current, _, hcurrent, rfl, rfl,
      polled_noteMissing ⟨horder, horder'⟩ hkeyed fun id m hm =>
        (id_of_discoveredBy hm).2.1⟩

theorem PollsAgree.error (h : PollsAgree th self tr ms) :
    PollsAgree th self (tr ++ [⟨none, []⟩]) ms := by
  have hevs : polledEvents (tr ++ [⟨none, []⟩]) = polledEvents tr := by
    rw [polledEvents_snoc, append_nil]
  have hmisses : ∀ id, missedPolls id (tr ++ [⟨none, []⟩]) = missedPolls id tr := by
    intro id
    rw [missedPolls_snoc]
    rfl
  refine ⟨hevs ▸ h.toAccounts, fun id ps hps halive => ?_⟩
  rw [hmisses]
  exact h.misses id ps hps halive

variable {current : List NodeMeta} {evs : List MemberEvent}

theorem lacks_of_discoveredBy (hid : id ≠ self) (h : (discoveredBy self current).lookup id = none) :
    (⟨some current, evs⟩ : Poll).lacks id = true := by
  have hnone := (discoveredBy_eq_none.mp h).resolve_left hid
  simpa [Poll.lacks] using hnone

theorem has_of_discoveredBy {m : NodeMeta} (h : (discoveredBy self current).lookup id = some m) :
    (⟨some current, evs⟩ : Poll).has id = true := by
  obtain ⟨hmem, hid, -⟩ := id_of_discoveredBy h
  simpa [Poll.has] using ⟨m, hmem, hid⟩

theorem Diffed.keyed (hd : Diffed th self ms current ms' evs)
    (h : Keyed nodeMeta ms) : Keyed nodeMeta ms' := by
  intro id ps hps
  have hp := hd id
  rw [hps] at hp
  rcases hp.nodeMeta_eq with hfound | ⟨ps0, hps0, hmeta⟩
  · exact (id_of_discoveredBy hfound).2.1
  · rw [hmeta]
    exact h id ps0 hps0

theorem Diffed.own (hd : Diffed th self ms current ms' evs) (hself : ms.lookup self = none) :
    ms'.lookup self = none ∧ eventsOf self evs = [] := by
  have hp := hd self
  rw [hself, discoveredBy_eq_none.mpr (.inl rfl)] at hp
  generalize ms'.lookup self = entry at hp ⊢
  generalize eventsOf self evs = new at hp ⊢
  cases hp
  exact ⟨rfl, rfl⟩

theorem PollsAgree.ne_own (h : PollsAgree th self tr ms) {ps : PollerPeerState}
    (hps : ms.lookup id = some ps) : id ≠ self := by
  rintro rfl
  rw [h.unknown] at hps
  cases hps

theorem missedPolls_of_lacks (h : d.lacks id = true) :
    missedPolls id (tr ++ [d]) = missedPolls id tr + 1 := by
  have hhas : d.has id = false := by
    cases hd : d.result <;> simp_all [Poll.has, Poll.lacks]
  rw [missedPolls_snoc, hhas, h, if_neg Bool.false_ne_true, if_pos rfl]

theorem PollsAgree.poll (hth : 1 ≤ th) (h : PollsAgree th self tr ms)
    (hd : Diffed th self ms current ms' evs) :
    PollsAgree th self (tr ++ [⟨some current, evs⟩]) ms' where
  toAccounts := by
    rw [polledEvents_snoc]
    exact h.append (by simp [MemberEventType.departs]) (fun id => (hd id).told) (hd.keyed h.keyed)
      (hd.own h.unknown)
  misses := by
    intro id ps hps halive
    have hp := hd id
    rw [hps] at hp
    rcases hp.misses halive with ⟨m, hm, hzero⟩ | ⟨hnone, ps0, hps0, halive0, hnext, hlt⟩
    · rw [missedPolls_snoc, has_of_discoveredBy hm, if_pos rfl, hzero]
      exact ⟨rfl, by omega⟩
    · refine ⟨?_, hlt⟩
      rw [missedPolls_of_lacks (lacks_of_discoveredBy (h.ne_own hps0) hnone), hnext,
        (h.misses id ps0 hps0 halive0).1]

theorem PollsAgree.live_iff (h : PollsAgree th self tr ms) :
    ((replay (polledEvents tr)).lookup id).isSome = true ↔
      ∃ ps, ms.lookup id = some ps ∧ ps.alive = true := by
  rw [h.recounts.lookup_replay, shownBy]
  cases ms.lookup id with
  | none => simp
  | some ps => cases halive : ps.alive <;> simp [shown, halive]

theorem PollsAgree.failed_iff (h : PollsAgree th self tr ms)
    (hd : Diffed th self ms current ms' evs) (id : NodeID) :
    (∃ e ∈ evs, e.type = .failed ∧ e.member.id = id) ↔
      ((replay (polledEvents tr)).lookup id).isSome = true ∧
        (⟨some current, evs⟩ : Poll).lacks id = true ∧
          (missedPolls id (tr ++ [⟨some current, evs⟩]) : ℤ) = th := by
  rw [← exists_mem_eventsOf, (hd id).failed_iff, h.live_iff]
  constructor
  · rintro ⟨hnone, ps, hps, halive, hfails⟩
    have hlacks : (⟨some current, evs⟩ : Poll).lacks id = true :=
      lacks_of_discoveredBy (h.ne_own hps) hnone
    obtain ⟨hmisses, hlt⟩ := h.misses id ps hps halive
    refine ⟨⟨ps, hps, halive⟩, hlacks, ?_⟩
    rw [missedPolls_of_lacks hlacks]
    omega
  · rintro ⟨⟨ps, hps, halive⟩, hlacks, hreach⟩
    rw [missedPolls_of_lacks hlacks, ← (h.misses id ps hps halive).1] at hreach
    refine ⟨?_, ps, hps, halive, by omega⟩
    refine discoveredBy_eq_none.mpr (.inr ?_)
    simpa [Poll.lacks] using hlacks

end

namespace Poller

def started (failureThreshold eventBufferSize : ℤ) (self : NodeMeta) : Poller :=
  { new failureThreshold eventBufferSize with self := self }

variable {eventBufferSize th : ℤ} {self : NodeMeta} {p : Poller}

theorem agrees_run (hth : 1 ≤ th) {tr : List Poll}
    (hrun : Run pollStep anyStep (started th eventBufferSize self) tr p) :
    p.failureThreshold = th ∧ p.self = self ∧ PollsAgree th self.id tr p.members ∧
      FailsAtPoll th tr := by
  refine hrun.invariant (fun tr p => p.failureThreshold = th ∧ p.self = self ∧
    PollsAgree th self.id tr p.members ∧ FailsAtPoll th tr) ?_ ?_
  · refine ⟨if_neg (by omega), rfl, ⟨accounts_empty, nofun⟩, ?_⟩
    intro before d after h
    simp at h
  · rintro tr p a p' es ⟨hp, hself, hagrees, hpast⟩ - hs
    rcases diffed_of_pollStep hagrees.keyed hs with
      ⟨-, rfl, rfl⟩ | ⟨current, evs, -, hp', rfl, hd⟩
    · exact ⟨hp, hself, hagrees.error, forall_split_snoc hpast (by simp [Poll.lacks])⟩
    · rw [hp, hself] at hd
      exact ⟨by rw [hp', hp], by rw [hp', hself], hagrees.poll hth hd,
        forall_split_snoc hpast (hagrees.failed_iff hd)⟩

/-- **The poller tracks what it polls**, in whatever order the maps are ranged over. A failed poll
changes nothing. -/
theorem tracks_polls (failureThreshold eventBufferSize : ℤ) (self : NodeMeta)
    (hth : 1 ≤ failureThreshold) (tr : List Poll) (p : Poller)
    (hrun : Run pollStep anyStep (started failureThreshold eventBufferSize self) tr p) :
    TracksPolls failureThreshold self.id tr p.members ∧
      ∀ a p' es, a.result = none → p.pollStep a = some (p', es) →
        p' = p ∧ polledEvents es = [] := by
  obtain ⟨-, -, hagrees, hfails⟩ := agrees_run hth hrun
  refine ⟨⟨hagrees.informs shows (Set.mem_singleton _), hfails⟩, ?_⟩
  intro a p' es hnone hs
  simp only [pollStep, hnone] at hs
  cases hs
  exact ⟨rfl, rfl⟩

/-- With threshold two a node joins, is missing, comes back with another tag, and is missing twice.
-/
theorem tracks_polls_return : ∃ tr p, Run pollStep anyStep (started 2 0 ⟨"n1", "", []⟩) tr p ∧
      TracksPolls 2 "n1" tr p.members ∧
      (polledEvents tr).map (·.type) = [.join, .updated, .failed, .join] ∧
      p.members.members = [⟨"n2", "b", []⟩] :=
  Run.of_check_then [⟨some [⟨"n1", "", []⟩, ⟨"n2", "a", []⟩], ["n2"], ["n2"]⟩, ⟨none, [], []⟩,
    ⟨some [], [], ["n2"]⟩, ⟨some [⟨"n2", "a", [("k", "v")]⟩], ["n2"], ["n2"]⟩,
    ⟨some [], [], ["n2"]⟩, ⟨some [], [], ["n2"]⟩,
    ⟨some [⟨"n2", "a", []⟩, ⟨"n2", "b", []⟩], ["n2"], ["n2"]⟩] (by decide +kernel)
    fun tr p hrun hend =>
      ⟨tr, p, hrun, (tracks_polls 2 0 ⟨"n1", "", []⟩ (by decide) tr p hrun).1, hend⟩

theorem pollStep_diffMembers (p : Poller) (current : List NodeMeta) : ∃ a, p.pollStep a = some
      ({ p with members := (p.members.diffMembers p.failureThreshold p.self.id current).1 },
        [⟨some current, (p.members.diffMembers p.failureThreshold p.self.id current).2⟩]) := by
  obtain ⟨order, order', horders, heq⟩ :=
    diffMembers_eq p.failureThreshold p.self.id p.members current
  refine ⟨⟨some current, order, order'⟩, ?_⟩
  simp only [pollStep, heq]
  rw [if_pos]
  simp only [and_eq_true, isPerm_iff]
  exact ⟨horders.first, horders.second⟩

/-- **The order of the maps does not show**: what any poll leaves of a node and tells of it is what
`diffMembers` does. -/
theorem poll_unordered (hth : 1 ≤ th) {tr es : List Poll} {p' : Poller}
    (hrun : Run pollStep anyStep (started th eventBufferSize self) tr p)
    {current : List NodeMeta} (order order' : List NodeID)
    (hs : p.pollStep ⟨some current, order, order'⟩ = some (p', es)) (id : NodeID) :
    let r := p.members.diffMembers p.failureThreshold p.self.id current
    p'.members.lookup id = r.1.lookup id ∧ eventsOf id (polledEvents es) = eventsOf id r.2 := by
  have hkeyed := (agrees_run hth hrun).2.2.1.keyed
  obtain ⟨a, ha⟩ := pollStep_diffMembers p current
  rcases diffed_of_pollStep hkeyed hs with ⟨h, -⟩ | ⟨_, evs, h, -, rfl, hd⟩
  · cases h
  rcases diffed_of_pollStep hkeyed ha with ⟨-, -, h'⟩ | ⟨_, _, -, -, h', hd'⟩
  · cases h'
  cases h
  cases h'
  simpa [polledEvents] using (hd id).unique (hd' id)

theorem poll_unordered_pair : let p := started 1 0 ⟨"a", "", []⟩
    let current : List NodeMeta := [⟨"b", "", []⟩, ⟨"c", "", []⟩]
    ∃ p' es, p.pollStep ⟨some current, ["b", "c"], ["c", "b"]⟩ = some (p', es) ∧
      p'.members.lookup "c" =
        (p.members.diffMembers p.failureThreshold p.self.id current).1.lookup "c" :=
  ⟨_, _, rfl, (poll_unordered le_rfl .refl ["b", "c"] ["c", "b"] rfl "c").1⟩

end Poller

end Westcoast.Provider
