import Westcoast.Lib.Loop
import Westcoast.Provider.History
import Westcoast.Provider.Multicast

/-!
# What the multicast provider makes of the packets

`handleAnnouncement` and `sweep` over every sequence of packets, ticks and clock readings. A sweep
goes through the members in any order. `Noted` is what either does to one node.
-/
namespace Westcoast.Provider

open Lib Cluster List MulticastPeerState MulticastMembers Option

def MulticastPeerState.shown (ps : MulticastPeerState) : Option NodeMeta := some ps.nodeMeta

theorem MulticastPeerState.shows : Shows nodeMeta shown :=
  fun _ _ hm => some.inj hm

/-- A packet and the time it is handled at; or a sweep at a time, with its order of the members. -/
inductive MulticastOp
  | packet (ann : Announcement) (now : ℤ)
  | sweep (now : ℤ) (order : List NodeID)
  deriving DecidableEq

namespace MulticastMembers

def members (ms : MulticastMembers) : List NodeMeta := membersOf shown ms

/-- The body of the loop of `sweep`. -/
def sweepOne (deadTimeout now : ℤ) (r : MulticastMembers × List MemberEvent) (id : NodeID) :
    MulticastMembers × List MemberEvent :=
  match r.1.lookup id with
  | none => r
  | some ps =>
    if deadTimeout < now - ps.lastSeen then (r.1.erase id, r.2 ++ [⟨.failed, ps.nodeMeta⟩]) else r

def sweepEntry (deadTimeout now : ℤ) (existing : Option MulticastPeerState) :
    Option MulticastPeerState × List MemberEvent :=
  match existing with
  | none => (none, [])
  | some ps =>
    if deadTimeout < now - ps.lastSeen then (none, [⟨.failed, ps.nodeMeta⟩]) else (some ps, [])

/-- What an operation on the node `own` does to the entry of the node `id`, and what it tells about
it. -/
inductive Noted (deadTimeout : ℤ) (own id : NodeID) : MulticastOp → Option MulticastPeerState →
    Option MulticastPeerState → List MemberEvent → Prop
  | other {ann : Announcement} {now : ℤ} {existing : Option MulticastPeerState}
      (hother : ¬ (ann.nodeID = id ∧ id ≠ own)) :
      Noted deadTimeout own id (.packet ann now) existing existing []
  | absent {ann : Announcement} {now : ℤ} (hleaving : ann.leaving = true) :
      Noted deadTimeout own id (.packet ann now) none none []
  | left {ann : Announcement} {now : ℤ} {ps : MulticastPeerState} (hleaving : ann.leaving = true) :
      Noted deadTimeout own id (.packet ann now) (some ps) none
        [⟨.leave, ⟨ann.nodeID, ann.addr, ann.tags⟩⟩]
  | joined {ann : Announcement} {now : ℤ} (hid : ann.nodeID = id) (hne : id ≠ own)
      (hleaving : ann.leaving = false) :
      Noted deadTimeout own id (.packet ann now) none
        (some ⟨⟨ann.nodeID, ann.addr, ann.tags⟩, now⟩)
        [⟨.join, ⟨ann.nodeID, ann.addr, ann.tags⟩⟩]
  | updated {ann : Announcement} {now : ℤ} {ps : MulticastPeerState} (hid : ann.nodeID = id)
      (hleaving : ann.leaving = false) (htags : tagsEqual ps.nodeMeta.tags ann.tags = false) :
      Noted deadTimeout own id (.packet ann now) (some ps)
        (some ⟨{ ps.nodeMeta with tags := ann.tags, addr := ann.addr }, now⟩)
        [⟨.updated, { ps.nodeMeta with tags := ann.tags, addr := ann.addr }⟩]
  | heard {ann : Announcement} {now : ℤ} {ps : MulticastPeerState} (hid : ann.nodeID = id)
      (hleaving : ann.leaving = false) (htags : tagsEqual ps.nodeMeta.tags ann.tags = true) :
      Noted deadTimeout own id (.packet ann now) (some ps) (some { ps with lastSeen := now }) []
  | stayed {now : ℤ} {order : List NodeID} {existing : Option MulticastPeerState}
      (hseen : ∀ ps, existing = some ps → now - ps.lastSeen ≤ deadTimeout) :
      Noted deadTimeout own id (.sweep now order) existing existing []
  | failed {now : ℤ} {order : List NodeID} {ps : MulticastPeerState}
      (hdead : deadTimeout < now - ps.lastSeen) :
      Noted deadTimeout own id (.sweep now order) (some ps) none [⟨.failed, ps.nodeMeta⟩]

section

variable {ms : MulticastMembers} {deadTimeout now : ℤ} {ann : Announcement} {order : List NodeID}
  {own : NodeID}

theorem visit_handleAnnouncement (deadTimeout now : ℤ)
    (hms : Keyed nodeMeta ms) (hown : ann.nodeID ≠ own) :
    ∃ w, Visit (ms, []) ann.nodeID (ms.handleAnnouncement ann now) w ∧
      (∀ e ∈ w.2, e.member.id = ann.nodeID) ∧
      Noted deadTimeout own ann.nodeID (.packet ann now) (ms.lookup ann.nodeID) w.1 w.2 := by
  unfold handleAnnouncement
  cases hps : ms.lookup ann.nodeID with
  | none =>
    cases hleaving : ann.leaving with
    | true => exact ⟨_, .kept, nofun, by rw [hps]; exact .absent hleaving⟩
    | false => exact ⟨_, .put _ _, by simp, .joined rfl hown hleaving⟩
  | some ps =>
    have hkey : ps.nodeMeta.id = ann.nodeID := hms _ ps hps
    cases hleaving : ann.leaving with
    | true => exact ⟨_, .removed _, by simp, .left hleaving⟩
    | false =>
      cases htags : tagsEqual ps.nodeMeta.tags ann.tags with
      | true =>
        simp only [htags, Bool.not_true, Bool.false_eq_true, if_false]
        exact ⟨_, .put _ [], by simp, .heard rfl hleaving htags⟩
      | false =>
        simp only [htags, Bool.not_false, Bool.false_eq_true, if_false, if_true]
        exact ⟨_, .put _ _, by simpa using hkey, .updated rfl hleaving htags⟩

theorem noted_handleAnnouncement (hms : Keyed nodeMeta ms) (hown : ann.nodeID ≠ own) (id : NodeID) :
    Noted deadTimeout own id (.packet ann now) (ms.lookup id)
      ((ms.handleAnnouncement ann now).1.lookup id)
      (eventsOf id (ms.handleAnnouncement ann now).2) := by
  obtain ⟨w, hvisit, habout, hnoted⟩ := visit_handleAnnouncement deadTimeout now hms hown
  rw [hvisit.lookup, hvisit.emits, nil_append, eventsOf]
  by_cases hid : id = ann.nodeID
  · subst hid
    rw [if_pos rfl, filter_eq_self.mpr (by simpa using habout)]
    exact hnoted
  · have hnone : w.2.filter (fun e => e.member.id = id) = [] :=
      filter_eq_nil_iff.mpr fun e he => by simpa [habout e he] using Ne.symm hid
    rw [if_neg hid, hnone]
    exact .other fun h => hid h.1.symm

theorem visits_sweepOne (deadTimeout now : ℤ) :
    Visits (sweepOne deadTimeout now) fun _ existing => sweepEntry deadTimeout now existing := by
  intro r id
  unfold sweepOne sweepEntry
  cases hps : r.1.lookup id with
  | none =>
    simp only
    rw [← hps]
    exact .kept
  | some ps =>
    simp only
    split_ifs
    · exact .removed _
    · rw [← hps]
      exact .kept

theorem noted_sweepEntry (existing : Option MulticastPeerState) (id : NodeID) :
    Noted deadTimeout own id (.sweep now order) existing (sweepEntry deadTimeout now existing).1
      (sweepEntry deadTimeout now existing).2 := by
  unfold sweepEntry
  cases existing with
  | none => exact .stayed nofun
  | some ps =>
    simp only
    split_ifs with hdead
    · exact .failed hdead
    · refine .stayed fun ps' hps' => ?_
      cases hps'
      omega

theorem noted_sweepOne (hms : Keyed nodeMeta ms) (h : order.Perm ms.keys) (id : NodeID) :
    let r := order.foldl (sweepOne deadTimeout now) (ms, ([] : List MemberEvent))
    Noted deadTimeout own id (.sweep now order) (ms.lookup id) (r.1.lookup id)
      (eventsOf id r.2) := by
  have hskip : ∀ k ∉ order, sweepEntry deadTimeout now (ms.lookup k) = (ms.lookup k, []) := by
    intro k hk
    rw [lookup_eq_none_of_order h hk]
    rfl
  simp only [eventsOf]
  rw [(visits_sweepOne deadTimeout now).lookup_foldl (nodup_order h) hskip,
    (visits_sweepOne deadTimeout now).filter_foldl (nodup_order h) hskip]
  · exact noted_sweepEntry ..
  · intro k e he
    cases hps : ms.lookup k with
    | none =>
      rw [hps] at he
      cases he
    | some ps =>
      simp only [hps, sweepEntry] at he
      split_ifs at he
      · cases mem_singleton.mp he
        exact hms k ps hps
      · cases he

end

end MulticastMembers

/-! ## Every sequence of packets and sweeps -/

structure Note where
  op : MulticastOp
  events : List MemberEvent
  deriving DecidableEq

namespace MulticastProvider

/-- A packet of another node is handled, or each member is swept once. -/
def trackStep (p : MulticastProvider) (op : MulticastOp) : Option (MulticastProvider × List Note) :=
  match op with
  | .packet ann now =>
    if ann.nodeID = p.self.id then some (p, [⟨op, []⟩])
    else
      let r := p.members.handleAnnouncement ann now
      some ({ p with members := r.1 }, [⟨op, r.2⟩])
  | .sweep now order =>
    if order.isPerm p.members.keys then
      let r := order.foldl (sweepOne p.deadTimeout now) (p.members, [])
      some ({ p with members := r.1 }, [⟨op, r.2⟩])
    else none

end MulticastProvider

def notedEvents (tr : List Note) : List MemberEvent := tr.flatMap (·.events)

/-- The time at which a packet of a node was last handled by which it does not leave. -/
def lastAnnounced (id : NodeID) (tr : List Note) : Option ℤ :=
  tr.foldl (fun last d =>
    match d.op with
    | .packet ann now => if ann.nodeID = id ∧ ann.leaving = false then some now else last
    | .sweep _ _ => last) none

/-- A node fails by a sweep only, and only if its last announcement was too long before. -/
def FailsBySweep (deadTimeout : ℤ) (tr : List Note) : Prop :=
  ∀ before d after, tr = before ++ d :: after → ∀ e ∈ d.events, e.type = .failed →
    ∃ now order t, d.op = .sweep now order ∧ lastAnnounced e.member.id before = some t ∧
      deadTimeout < now - t

/-- After a sweep no member is left whose last announcement was too long before. -/
def Swept (deadTimeout : ℤ) (tr : List Note) (ms : MulticastMembers) : Prop :=
  ∀ before now order evs, tr = before ++ [⟨.sweep now order, evs⟩] → ∀ m ∈ ms.members,
    ∃ t, lastAnnounced m.id before = some t ∧ now - t ≤ deadTimeout

/-- What is asked of the history and the members of a provider on `own` that listens for
announcements. -/
structure TracksAnnouncements (deadTimeout : ℤ) (own : NodeID) (tr : List Note)
    (ms : MulticastMembers) : Prop
    extends Informs {.leave, .failed} own (notedEvents tr) ms.members where
  fails : FailsBySweep deadTimeout tr
  swept : Swept deadTimeout tr ms

structure NotesAgree (own : NodeID) (tr : List Note) (ms : MulticastMembers) : Prop
    extends Accounts nodeMeta shown {.leave, .failed} own
      (notedEvents tr) ms where
  seen : ∀ id ps, ms.lookup id = some ps → lastAnnounced id tr = some ps.lastSeen

def Notes (deadTimeout : ℤ) (own : NodeID) (ms : MulticastMembers) (op : MulticastOp)
    (ms' : MulticastMembers) (evs : List MemberEvent) : Prop :=
  ∀ id, MulticastMembers.Noted deadTimeout own id op (ms.lookup id) (ms'.lookup id)
    (eventsOf id evs)

section

variable {deadTimeout : ℤ} {own id : NodeID} {tr : List Note} {d : Note} {op : MulticastOp}
  {ms ms' : MulticastMembers} {evs : List MemberEvent}

theorem notedEvents_snoc : notedEvents (tr ++ [d]) = notedEvents tr ++ d.events := by
  simp [notedEvents]

theorem lastAnnounced_snoc : lastAnnounced id (tr ++ [d]) = match d.op with
    | .packet ann now =>
      if ann.nodeID = id ∧ ann.leaving = false then some now else lastAnnounced id tr
    | .sweep _ _ => lastAnnounced id tr := by
  rw [lastAnnounced, foldl_append]
  rfl

theorem MulticastProvider.notes_of_trackStep {p p' : MulticastProvider} {es : List Note}
    (hkeyed : Keyed nodeMeta p.members) (hs : p.trackStep op = some (p', es)) :
    ∃ evs, p' = { p with members := p'.members } ∧ es = [⟨op, evs⟩] ∧
      Notes p.deadTimeout p.self.id p.members op p'.members evs := by
  cases op with
  | packet ann now =>
    simp only [MulticastProvider.trackStep] at hs
    split_ifs at hs with hself
    · cases hs
      refine ⟨[], rfl, rfl, fun id => .other ?_⟩
      rintro ⟨rfl, hne⟩
      exact hne hself
    · cases hs
      exact ⟨_, rfl, rfl, noted_handleAnnouncement hkeyed hself⟩
  | sweep now order =>
    simp only [MulticastProvider.trackStep, ite_none_right_eq_some, isPerm_iff] at hs
    obtain ⟨horder, hs⟩ := hs
    cases hs
    exact ⟨_, rfl, rfl, noted_sweepOne hkeyed horder⟩

/-! ### What an operation does to one node -/

section

variable {existing entry : Option MulticastPeerState} {ps : MulticastPeerState}

theorem MulticastMembers.Noted.told (h : Noted deadTimeout own id op existing entry evs) :
    Told {.leave, .failed} (existing.bind shown) evs
      (entry.bind shown) := by
  cases h with
  | other | absent | heard | stayed => exact .nothing _
  | left => exact .departed _ _ (.inl rfl)
  | joined => exact .joined _
  | updated => exact .updated _ _
  | failed => exact .departed _ _ (.inr rfl)

theorem MulticastMembers.Noted.id_eq (h : Noted deadTimeout own id op existing (some ps) evs)
    (hkeyed : ∀ ps₀, existing = some ps₀ → ps₀.nodeMeta.id = id) : ps.nodeMeta.id = id := by
  cases h with
  | other | stayed => exact hkeyed ps rfl
  | joined hid => exact hid
  | @updated _ _ ps₀ | @heard _ _ ps₀ => exact hkeyed ps₀ rfl

theorem MulticastMembers.Noted.seen (h : Noted deadTimeout own id op existing (some ps) evs)
    (hid : id ≠ own) (hop : d.op = op)
    (hseen : ∀ ps₀, existing = some ps₀ → lastAnnounced id tr = some ps₀.lastSeen) :
    lastAnnounced id (tr ++ [d]) = some ps.lastSeen := by
  rw [lastAnnounced_snoc, hop]
  cases h with
  | @other ann _ _ hother =>
    have hne : ¬ (ann.nodeID = id ∧ ann.leaving = false) := fun hmine => hother ⟨hmine.1, hid⟩
    simp only [if_neg hne]
    exact hseen ps rfl
  | joined hann _ hleaving => simp [hann, hleaving]
  | updated hann hleaving | heard hann hleaving => simp [hann, hleaving]
  | stayed => exact hseen ps rfl

theorem MulticastMembers.Noted.of_own (h : Noted deadTimeout own own op none entry evs) :
    entry = none ∧ evs = [] := by
  cases h with
  | other | absent | stayed => exact ⟨rfl, rfl⟩
  | joined _ hne => exact absurd rfl hne

theorem MulticastMembers.Noted.fails (h : Noted deadTimeout own id op existing entry evs)
    {e : MemberEvent} (he : e ∈ evs) (htype : e.type = .failed) :
    ∃ now order ps,
      op = .sweep now order ∧ existing = some ps ∧ deadTimeout < now - ps.lastSeen := by
  cases h with
  | other | absent | heard | stayed => cases he
  | left | joined | updated =>
    cases mem_singleton.mp he
    cases htype
  | failed hdead => exact ⟨_, _, _, rfl, rfl, hdead⟩

end

/-! ### The step -/

theorem Notes.keyed (hn : Notes deadTimeout own ms op ms' evs)
    (h : Keyed nodeMeta ms) : Keyed nodeMeta ms' := by
  intro id ps hps
  have hnode := hn id
  rw [hps] at hnode
  exact hnode.id_eq (h id)

theorem NotesAgree.note (h : NotesAgree own tr ms) (hn : Notes deadTimeout own ms op ms' evs) :
    NotesAgree own (tr ++ [⟨op, evs⟩]) ms' := by
  have hown : ms'.lookup own = none ∧ eventsOf own evs = [] := (h.unknown ▸ hn own).of_own
  refine ⟨?_, ?_⟩
  · rw [notedEvents_snoc]
    exact h.append (by simp [MemberEventType.departs]) (fun id => (hn id).told) (hn.keyed h.keyed)
      hown
  · intro id ps hps
    have hnode := hn id
    rw [hps] at hnode
    refine hnode.seen ?_ rfl (h.seen id)
    rintro rfl
    rw [hown.1] at hps
    cases hps

theorem NotesAgree.fails (h : NotesAgree own tr ms) (hn : Notes deadTimeout own ms op ms' evs)
    {e : MemberEvent} (he : e ∈ evs) (htype : e.type = .failed) :
    ∃ now order t, op = .sweep now order ∧ lastAnnounced e.member.id tr = some t ∧
      deadTimeout < now - t := by
  have hmine : e ∈ eventsOf e.member.id evs := by
    simpa [eventsOf] using he
  obtain ⟨now, order, ps, hop, hps, hdead⟩ := (hn e.member.id).fails hmine htype
  exact ⟨now, order, ps.lastSeen, hop, h.seen _ ps hps, hdead⟩

theorem NotesAgree.swept (h : NotesAgree own tr ms) {now : ℤ} {order : List NodeID}
    (hn : Notes deadTimeout own ms (.sweep now order) ms' evs) {m : NodeMeta}
    (hm : m ∈ ms'.members) : ∃ t, lastAnnounced m.id tr = some t ∧ now - t ≤ deadTimeout := by
  have hnamed := (hn.keyed h.keyed).named shows
  have hshown := hnamed.shownBy_eq_some.mpr ⟨hm, rfl⟩
  obtain ⟨ps, hps, -⟩ := bind_eq_some_iff.mp hshown
  have hnode := hn m.id
  rw [hps] at hnode
  generalize hold : ms.lookup m.id = existing at hnode
  generalize eventsOf m.id evs = new at hnode
  cases hnode with
  | stayed hseen => exact ⟨ps.lastSeen, h.seen _ ps hold, hseen ps rfl⟩

end

namespace MulticastProvider

def startedAs (deadTimeout : ℤ) (self : NodeMeta) : MulticastProvider :=
  { new deadTimeout with self := self, started := true }

variable {deadTimeout : ℤ} {self : NodeMeta} {p : MulticastProvider}

theorem agrees_run {tr : List Note}
    (hrun : Run trackStep anyStep (startedAs deadTimeout self) tr p) :
    p.deadTimeout = (new deadTimeout).deadTimeout ∧ p.self = self ∧
      NotesAgree self.id tr p.members ∧ FailsBySweep p.deadTimeout tr ∧
        Swept p.deadTimeout tr p.members := by
  refine hrun.invariant (fun tr p => p.deadTimeout = (new deadTimeout).deadTimeout ∧
    p.self = self ∧ NotesAgree self.id tr p.members ∧ FailsBySweep p.deadTimeout tr ∧
      Swept p.deadTimeout tr p.members) ?_ ?_
  · refine ⟨rfl, rfl, ⟨accounts_empty, nofun⟩, ?_, ?_⟩
    · intro before d after h
      simp at h
    · intro before now order evs h
      simp at h
  · rintro tr p op p' es ⟨hp, hself, hagrees, hpast, -⟩ - hs
    obtain ⟨evs, hp', rfl, hn⟩ := notes_of_trackStep hagrees.keyed hs
    have htimeout : p'.deadTimeout = p.deadTimeout := by rw [hp']
    rw [hself] at hn
    refine ⟨htimeout.trans hp, by rw [hp', hself], hagrees.note hn, ?_, ?_⟩
    · rw [htimeout]
      exact forall_split_snoc hpast fun e => hagrees.fails hn
    · rw [htimeout]
      intro before now order evs' hsplit m hm
      obtain ⟨rfl, hlast⟩ := append_inj' hsplit rfl
      cases hlast
      exact hagrees.swept hn hm

/-- **The multicast provider tracks the announcements**: whatever packets come, from whom, and
whatever the clock says. -/
theorem tracks_announcements (deadTimeout : ℤ) (self : NodeMeta) (tr : List Note)
    (p : MulticastProvider) (hrun : Run trackStep anyStep (startedAs deadTimeout self) tr p) :
    TracksAnnouncements (new deadTimeout).deadTimeout self.id tr p.members := by
  obtain ⟨htimeout, -, hagrees, hfails, hswept⟩ := agrees_run hrun
  rw [htimeout] at hfails hswept
  exact ⟨hagrees.informs shows (.inl rfl), hfails, hswept⟩

/-- A node joins, is silent and fails, joins with another tag, and leaves; the node's own packet is
ignored. -/
theorem tracks_announcements_return :
    ∃ tr p, Run trackStep anyStep (startedAs 10 ⟨"n1", "", []⟩) tr p ∧
      TracksAnnouncements 10 "n1" tr p.members ∧
      (notedEvents tr).map (·.type) = [.join, .failed, .join, .updated, .leave] ∧
      p.members.members = [] :=
  Run.of_check_then [.packet ⟨"n2", "a", [], false⟩ 1, .packet ⟨"n1", "", [], false⟩ 2,
    .sweep 11 ["n2"], .sweep 12 ["n2"], .packet ⟨"n2", "a", [], false⟩ 13,
    .packet ⟨"n2", "a", [("k", "v")], false⟩ 14, .packet ⟨"n2", "a", [], true⟩ 15]
    (by decide +kernel) fun tr p hrun hend =>
      ⟨tr, p, hrun, tracks_announcements 10 ⟨"n1", "", []⟩ tr p hrun, hend⟩

end MulticastProvider

end Westcoast.Provider
