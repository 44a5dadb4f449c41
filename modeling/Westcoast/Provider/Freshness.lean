import Westcoast.Cluster.Connections
import Westcoast.Provider.Announcing
import Westcoast.Provider.Polling

/-!
# Whether the metadata of a member is fresh

The poller, the multicast provider and the cluster replace the metadata of a member when `tagsEqual`
finds a difference. It counts a missing tag as empty, and it does not look at the address;
`metadata_fresh_iff` says when this is not noticed.
-/
namespace Westcoast.Provider

open Lib Cluster List Option PollerPeerState MulticastProvider Poller

/-! ## Tags as maps -/

def TagMap (tags : List (String × String)) : Prop := (tags.map (·.1)).Nodup

instance tagMapDecidable : DecidablePred TagMap := fun tags =>
  inferInstanceAs (Decidable (tags.map (·.1)).Nodup)

/-- Two lists of tags that are one map. -/
def SameTags (a b : List (String × String)) : Prop := ∀ k, a.lookup k = b.lookup k

def SameMeta (a b : NodeMeta) : Prop := a.id = b.id ∧ a.addr = b.addr ∧ SameTags a.tags b.tags

/-- No empty tag of `a` is missing in `b`. -/
def KeepsEmpty (a b : List (String × String)) : Prop :=
  ∀ t ∈ a, t.2 = "" → (b.lookup t.1).isSome = true

section

variable {a b : List (String × String)}

theorem TagMap.lookup_eq_some (h : TagMap a) {t : String × String} :
    a.lookup t.1 = some t.2 ↔ t ∈ a := by
  induction a with
  | nil => simp
  | cons x xs ih =>
    rw [TagMap, map_cons, nodup_cons] at h
    rw [lookup_cons, mem_cons]
    by_cases hx : t.1 = x.1
    · have hxs : t ∉ xs := by
        intro ht
        exact h.1 (hx ▸ mem_map_of_mem ht)
      simp [hx, hxs, Prod.ext_iff, eq_comm]
    · have hne : t ≠ x := fun heq => hx (heq ▸ rfl)
      have hkey : (t.1 == x.1) = false := by simpa using hx
      rw [hkey]
      simp only [hne, false_or]
      exact ih h.2

theorem TagMap.nodup (h : TagMap a) : a.Nodup := List.Nodup.of_map _ h

theorem SameTags.perm (ha : TagMap a) (hb : TagMap b) (h : SameTags a b) : a.Perm b := by
  rw [perm_ext_iff_of_nodup ha.nodup hb.nodup]
  intro t
  rw [← ha.lookup_eq_some, ← hb.lookup_eq_some, h t.1]

theorem tagsEqual_of_sameTags (ha : TagMap a) (hb : TagMap b) (h : SameTags a b) :
    tagsEqual a b = true := by
  simp only [tagsEqual, Bool.and_eq_true, decide_eq_true_eq, List.all_eq_true]
  refine ⟨(h.perm ha hb).length_eq, ?_⟩
  intro t ht
  rw [← h t.1, ha.lookup_eq_some.mpr ht]
  rfl

/-- Tags that compare as equal are one map, unless an empty tag has gone. -/
theorem sameTags_iff (ha : TagMap a) (hb : TagMap b) (h : tagsEqual a b = true) :
    SameTags a b ↔ KeepsEmpty a b := by
  simp only [tagsEqual, Bool.and_eq_true, decide_eq_true_eq, List.all_eq_true] at h
  obtain ⟨hlen, hall⟩ := h
  constructor
  · intro hsame t ht _
    rw [← hsame t.1, ha.lookup_eq_some.mpr ht]
    rfl
  · intro hkeeps
    have hsub : a ⊆ b := by
      intro t ht
      have hval := hall t ht
      cases hlook : b.lookup t.1 with
      | none =>
        rw [hlook, getD_none] at hval
        have hsome := hkeeps t ht hval.symm
        rw [hlook] at hsome
        cases hsome
      | some v =>
        rw [hlook, getD_some] at hval
        rw [hval] at hlook
        exact hb.lookup_eq_some.mp hlook
    -- as many tags, and all of them there: the lists are permutations of each other
    have hperm : a.Perm b := (subperm_of_subset ha.nodup hsub).perm_of_length_le hlen.ge
    intro k
    cases hk : b.lookup k with
    | none =>
      cases hka : a.lookup k with
      | none => rfl
      | some v =>
        have hmem : (k, v) ∈ a := ha.lookup_eq_some.mp hka
        rw [hb.lookup_eq_some.mpr (hperm.mem_iff.mp hmem)] at hk
        cases hk
    | some v =>
      have hmem : (k, v) ∈ b := hb.lookup_eq_some.mp hk
      exact ha.lookup_eq_some.mpr (hperm.mem_iff.mpr hmem)

theorem sameMeta_refl (m : NodeMeta) : SameMeta m m := ⟨rfl, rfl, fun _ => rfl⟩

end

/-! ## What is stored and what is told -/

/-- What is asked after `m` was received: the node is a member with metadata `m`, and an event tells
what is new. -/
structure Fresh (before after : List NodeMeta) (evs : List MemberEvent) (m : NodeMeta) : Prop where
  listed : ∃ m' ∈ after, m'.id = m.id
  stored : ∀ m' ∈ after, m'.id = m.id → SameMeta m' m
  told : (∀ s ∈ before, ¬ SameMeta s m) → ∃ e ∈ evs, SameMeta e.member m

/-- If its tags compare as equal to those of `m`, the address is the same and no empty tag has gone.
-/
def Noticed (before : List NodeMeta) (m : NodeMeta) : Prop :=
  ∀ s ∈ before, s.id = m.id → tagsEqual s.tags m.tags = true →
    s.addr = m.addr ∧ KeepsEmpty s.tags m.tags

/-- What `m` does to a node: it stays if the tags compare as equal, and else is what was received,
with an event. -/
inductive Takes (m : NodeMeta) : Option NodeMeta → Option NodeMeta → List MemberEvent → Prop
  | kept {s : NodeMeta} (hequal : tagsEqual s.tags m.tags = true) : Takes m (some s) (some s) []
  | taken {before : Option NodeMeta} {m' : NodeMeta} {e : MemberEvent} (hsame : SameMeta m' m)
      (hdiffer : ∀ s, before = some s → tagsEqual s.tags m.tags = false) (he : e.member = m') :
      Takes m before (some m') [e]

section

variable {V : Type} {nodeMeta : V → NodeMeta} {live : V → Option NodeMeta}
  {ms ms' : AList fun _ : NodeID => V} {evs : List MemberEvent} {m : NodeMeta}

/-- Every entry has the identifier it stands under, and its tags are a map. -/
structure Tagged (nodeMeta : V → NodeMeta) (ms : AList fun _ : NodeID => V) : Prop where
  keyed : Keyed nodeMeta ms
  tags : ∀ id v, ms.lookup id = some v → TagMap (nodeMeta v).tags

theorem tagged_empty : Tagged nodeMeta ∅ := ⟨nofun, nofun⟩

theorem Tagged.tagMap (hlive : Shows nodeMeta live) (h : Tagged nodeMeta ms)
    (hm : m ∈ membersOf live ms) : TagMap m.tags := by
  obtain ⟨id, hid⟩ := mem_membersOf.mp hm
  obtain ⟨v, hv, hshown⟩ := bind_eq_some_iff.mp hid
  rw [← hlive v m hshown]
  exact h.tags id v hv

theorem Takes.fresh_iff (hlive : Shows nodeMeta live) (htagged : Tagged nodeMeta ms)
    (hkeyed : Keyed nodeMeta ms') (hmap : TagMap m.tags)
    (h : Takes m (shownBy live ms m.id) (shownBy live ms' m.id) (eventsOf m.id evs)) :
    Fresh (membersOf live ms) (membersOf live ms') evs m ↔ Noticed (membersOf live ms) m := by
  have hms := htagged.keyed.named hlive
  have hms' := hkeyed.named hlive
  generalize hb : shownBy live ms m.id = before at h
  generalize ha : shownBy live ms' m.id = after at h
  generalize he : eventsOf m.id evs = new at h
  cases h with
  | @kept s hequal =>
    obtain ⟨hs, hid⟩ := hms.shownBy_eq_some.mp hb
    have hs' := hms'.shownBy_eq_some.mp ha
    have hsame : SameMeta s m ↔ s.addr = m.addr ∧ KeepsEmpty s.tags m.tags := by
      rw [SameMeta, sameTags_iff (htagged.tagMap hlive hs) hmap hequal]
      exact and_iff_right hid
    have honly : ∀ x ∈ membersOf live ms, x.id = m.id → x = s := by
      intro x hx hxid
      have hshown := hms.shownBy_eq_some.mpr ⟨hx, hxid⟩
      exact some.inj (hshown.symm.trans hb)
    constructor
    · intro hfresh x hx hxid _
      rw [honly x hx hxid]
      exact hsame.mp (hfresh.stored s hs'.1 hid)
    · intro hnoticed
      have hstored := hsame.mpr (hnoticed s hs hid hequal)
      refine ⟨⟨s, hs'.1, hid⟩, ?_, fun hnone => absurd hstored (hnone s hs)⟩
      intro x hx hxid
      have hshown := hms'.shownBy_eq_some.mpr ⟨hx, hxid⟩
      rw [some.inj (hshown.symm.trans ha)]
      exact hstored
  | @taken _ m' e hsame hdiffer hmember =>
    obtain ⟨hm', hid⟩ := hms'.shownBy_eq_some.mp ha
    have hmem : e ∈ evs := by
      have hnew : e ∈ eventsOf m.id evs := by
        rw [he]
        exact mem_singleton_self e
      exact (mem_filter.mp hnew).1
    constructor
    · intro _ s hs hsid hequal
      rw [hdiffer s (hb.symm.trans (hms.shownBy_eq_some.mpr ⟨hs, hsid⟩))] at hequal
      cases hequal
    · intro _
      refine ⟨⟨m', hm', hid⟩, ?_, fun _ => ⟨e, hmem, hmember ▸ hsame⟩⟩
      intro x hx hxid
      have hshown := hms'.shownBy_eq_some.mpr ⟨hx, hxid⟩
      rw [some.inj (hshown.symm.trans ha)]
      exact hsame

end

/-! ## The poller -/

def LatestOf (current : List NodeMeta) (m : NodeMeta) : Prop :=
  (current.filter fun x => x.id = m.id).getLast? = some m

instance latestOfDecidable (current : List NodeMeta) : DecidablePred (LatestOf current) := fun m =>
  inferInstanceAs (Decidable ((current.filter fun x => x.id = m.id).getLast? = some m))

namespace Poller

def WellTagged (_ : Poller) (a : PollAction) : Prop :=
  ∀ current ∈ a.result, ∀ m ∈ current, TagMap m.tags

instance wellTaggedDecidable (p : Poller) : DecidablePred p.WellTagged := fun a =>
  inferInstanceAs (Decidable (∀ current ∈ a.result, ∀ m ∈ current, TagMap m.tags))

variable {th : ℤ} {m : NodeMeta} {evs : List MemberEvent}

theorem takes_polled {existing entry : Option PollerPeerState}
    (h : PollerMembers.Polled th (some m) existing entry evs) :
    Takes m (existing.bind shown) (entry.bind shown) evs := by
  cases h with
  | joined hdead =>
    refine .taken (sameMeta_refl m) (fun s hs => ?_) rfl
    obtain ⟨ps, hps, hshown⟩ := bind_eq_some_iff.mp hs
    simp [shown, hdead ps hps] at hshown
  | updated halive htags =>
    refine .taken (sameMeta_refl m) (fun s hs => ?_) rfl
    rw [← shows _ s hs]
    exact htags
  | found halive htags => simpa [shown, halive] using Takes.kept htags

variable {p p' : Poller} {a : PollAction} {es : List Poll}

theorem tagged_pollStep (h : Tagged nodeMeta p.members) (hg : p.WellTagged a)
    (hs : p.pollStep a = some (p', es)) : Tagged nodeMeta p'.members := by
  rcases diffed_of_pollStep h.keyed hs with ⟨-, rfl, -⟩ | ⟨current, evs, hresult, -, rfl, hd⟩
  · exact h
  · refine ⟨hd.keyed h.keyed, fun id ps hps => ?_⟩
    have hp := hd id
    rw [hps] at hp
    rcases hp.nodeMeta_eq with hfound | ⟨ps0, hps0, hmeta⟩
    · exact hg current hresult _ (PollerMembers.id_of_discoveredBy hfound).1
    · rw [hmeta]
      exact h.tags id ps0 hps0

theorem tagged_run {eventBufferSize : ℤ} {self : NodeMeta} {tr : List Poll}
    (hrun : Run pollStep WellTagged (started th eventBufferSize self) tr p) :
    Tagged nodeMeta p.members ∧ p.self = self := by
  refine hrun.invariant_state
    (fun p => Tagged nodeMeta p.members ∧ p.self = self) ⟨tagged_empty, rfl⟩ ?_
  rintro p a p' es ⟨htagged, hself⟩ hg hs
  refine ⟨tagged_pollStep htagged hg hs, ?_⟩
  rcases diffed_of_pollStep htagged.keyed hs with ⟨-, rfl, -⟩ | ⟨current, evs, -, hp', -, -⟩
  · exact hself
  · rw [hp', hself]

theorem fresh_iff (h : Tagged nodeMeta p.members) (hg : p.WellTagged a)
    {current : List NodeMeta} (hs : p.pollStep a = some (p', [⟨some current, evs⟩]))
    (hm : LatestOf current m) (hne : m.id ≠ p.self.id) :
    Fresh p.members.members p'.members.members evs m ↔ Noticed p.members.members m := by
  rcases diffed_of_pollStep h.keyed hs with ⟨-, -, hes⟩ | ⟨current', evs', hresult, -, hes, hd⟩
  · cases hes
  · cases hes
    have hfound : (PollerMembers.discoveredBy p.self.id current).lookup m.id = some m := by
      rw [PollerMembers.lookup_discoveredBy, if_neg hne]
      exact hm
    have hmem := (PollerMembers.id_of_discoveredBy hfound).1
    exact Takes.fresh_iff shows h (hd.keyed h.keyed) (hg current hresult m hmem)
      (takes_polled (hfound ▸ hd m.id))

end Poller

/-! ## The multicast provider -/

namespace MulticastProvider

def WellTagged (_ : MulticastProvider) (op : MulticastOp) : Prop :=
  ∀ ann now, op = .packet ann now → TagMap ann.tags

instance wellTaggedDecidable (p : MulticastProvider) : DecidablePred p.WellTagged
  | .packet ann _ => decidable_of_iff (TagMap ann.tags)
      ⟨fun h _ _ heq => (MulticastOp.packet.inj heq).1 ▸ h, fun h => h ann _ rfl⟩
  | .sweep _ _ => .isTrue nofun

variable {deadTimeout now : ℤ} {ann : Announcement} {evs : List MemberEvent}

theorem takes_noted {own : NodeID} {existing entry : Option MulticastPeerState}
    (h : MulticastMembers.Noted deadTimeout own ann.nodeID (.packet ann now) existing entry evs)
    (hkeyed : ∀ ps, existing = some ps → ps.nodeMeta.id = ann.nodeID) (hne : ann.nodeID ≠ own)
    (hleaving : ann.leaving = false) :
    Takes ⟨ann.nodeID, ann.addr, ann.tags⟩ (existing.bind MulticastPeerState.shown)
      (entry.bind MulticastPeerState.shown) evs := by
  cases h with
  | other hother => exact absurd ⟨rfl, hne⟩ hother
  | absent hleaves | left hleaves =>
    rw [hleaving] at hleaves
    cases hleaves
  | joined => exact .taken (sameMeta_refl _) nofun rfl
  | @updated _ _ ps _ _ htags =>
    refine .taken ⟨hkeyed ps rfl, rfl, fun _ => rfl⟩ (fun s hs => ?_) rfl
    cases hs
    exact htags
  | heard _ _ htags => exact .kept htags

variable {p p' : MulticastProvider} {op : MulticastOp} {es : List Note}

theorem tagged_trackStep (h : Tagged MulticastPeerState.nodeMeta p.members) (hg : p.WellTagged op)
    (hs : p.trackStep op = some (p', es)) : Tagged MulticastPeerState.nodeMeta p'.members := by
  obtain ⟨evs, -, -, hn⟩ := notes_of_trackStep h.keyed hs
  refine ⟨hn.keyed h.keyed, fun id ps hps => ?_⟩
  have hnode := hn id
  have hold := h.tags id
  rw [hps] at hnode
  generalize p.members.lookup id = existing at hnode hold
  generalize eventsOf id evs = new at hnode
  cases hnode with
  | other | stayed => exact hold ps rfl
  | joined | updated => exact hg _ _ rfl
  | @heard _ _ ps0 => exact hold ps0 rfl

theorem tagged_run {self : NodeMeta} {tr : List Note}
    (hrun : Run trackStep WellTagged (startedAs deadTimeout self) tr p) :
    Tagged MulticastPeerState.nodeMeta p.members ∧ p.self = self := by
  refine hrun.invariant_state (fun p => Tagged MulticastPeerState.nodeMeta p.members ∧
    p.self = self) ⟨tagged_empty, rfl⟩ ?_
  rintro p op p' es ⟨htagged, hself⟩ hg hs
  obtain ⟨evs, hp', -, -⟩ := notes_of_trackStep htagged.keyed hs
  exact ⟨tagged_trackStep htagged hg hs, by rw [hp', hself]⟩

theorem fresh_iff (h : Tagged MulticastPeerState.nodeMeta p.members) (htags : TagMap ann.tags)
    (hs : p.trackStep (.packet ann now) = some (p', [⟨.packet ann now, evs⟩]))
    (hne : ann.nodeID ≠ p.self.id) (hleaving : ann.leaving = false) :
    Fresh p.members.members p'.members.members evs ⟨ann.nodeID, ann.addr, ann.tags⟩ ↔
      Noticed p.members.members ⟨ann.nodeID, ann.addr, ann.tags⟩ := by
  obtain ⟨evs', -, hes, hn⟩ := notes_of_trackStep h.keyed hs
  cases hes
  exact Takes.fresh_iff MulticastPeerState.shows h (hn.keyed h.keyed) htags
    (takes_noted (hn ann.nodeID) (h.keyed _) hne hleaving)

end MulticastProvider

/-! ## The peers of a cluster -/

/-- What is asked of `UpdatePeerMeta` for a known peer: its tags are those received, and
`MemberUpdated` tells another map. -/
structure UpdatesPeer {ε : Type} (s : Connections ε) (existing m : NodeMeta) : Prop where
  stored : ∃ m', (s.updatePeerMeta m).1.peers.lookup m.id = some m' ∧ SameTags m'.tags m.tags
  told : .member ⟨.updated, m⟩ ∈ (s.updatePeerMeta m).2 ↔ ¬ SameTags existing.tags m.tags

theorem updatesPeer_iff {ε : Type} {s : Connections ε} {existing m : NodeMeta}
    (hknown : s.peers.lookup m.id = some existing) (hexisting : TagMap existing.tags)
    (hm : TagMap m.tags) : UpdatesPeer s existing m ↔
      (tagsEqual existing.tags m.tags = true → KeepsEmpty existing.tags m.tags) := by
  cases htags : tagsEqual existing.tags m.tags with
  | true =>
    have hsame : s.updatePeerMeta m = (s, []) := by
      simp [Connections.updatePeerMeta, hknown, htags]
    rw [← sameTags_iff hexisting hm htags]
    constructor
    · intro h _
      obtain ⟨m', hm', htags'⟩ := h.stored
      rw [hsame, hknown] at hm'
      cases hm'
      exact htags'
    · intro h
      have hmaps := h rfl
      refine ⟨⟨existing, by rw [hsame]; exact hknown, hmaps⟩, ?_⟩
      rw [hsame]
      simpa using hmaps
  | false =>
    have hnew : s.updatePeerMeta m =
        ({ s with peers := s.peers.insert m.id m }, [.member ⟨.updated, m⟩]) := by
      simp [Connections.updatePeerMeta, hknown, htags]
    refine ⟨nofun, fun _ => ⟨⟨m, by rw [hnew]; simp, fun _ => rfl⟩, ?_⟩⟩
    rw [hnew]
    refine iff_of_true (mem_singleton_self _) fun hmaps => ?_
    rw [tagsEqual_of_sameTags hexisting hm hmaps] at htags
    cases htags

/-- **When metadata is fresh**, after all polls, packets and sweeps, and in every state of a
cluster. -/
theorem metadata_fresh_iff (ε : Type) :
    (∀ (failureThreshold eventBufferSize : ℤ) (self : NodeMeta) (tr : List Poll) (p p' : Poller)
        (a : PollAction) (current : List NodeMeta) (evs : List MemberEvent) (m : NodeMeta),
      Run pollStep Poller.WellTagged
        (started failureThreshold eventBufferSize self) tr p →
      p.WellTagged a → p.pollStep a = some (p', [⟨some current, evs⟩]) →
      LatestOf current m → m.id ≠ self.id →
      (Fresh p.members.members p'.members.members evs m ↔ Noticed p.members.members m)) ∧
    (∀ (deadTimeout : ℤ) (self : NodeMeta) (tr : List Note) (p p' : MulticastProvider)
        (ann : Announcement) (now : ℤ) (evs : List MemberEvent),
      Run trackStep MulticastProvider.WellTagged
        (startedAs deadTimeout self) tr p →
      TagMap ann.tags →
      p.trackStep (.packet ann now) = some (p', [⟨.packet ann now, evs⟩]) →
      ann.nodeID ≠ self.id → ann.leaving = false →
      (Fresh p.members.members p'.members.members evs ⟨ann.nodeID, ann.addr, ann.tags⟩ ↔
        Noticed p.members.members ⟨ann.nodeID, ann.addr, ann.tags⟩)) ∧
    ∀ (s : Connections ε) (existing m : NodeMeta), s.peers.lookup m.id = some existing →
      TagMap existing.tags → TagMap m.tags →
      (UpdatesPeer s existing m ↔
        (tagsEqual existing.tags m.tags = true → KeepsEmpty existing.tags m.tags)) := by
  refine ⟨?_, ?_, ?_⟩
  · intro th size self tr p p' a current evs m hrun hg hs hm hne
    obtain ⟨htagged, rfl⟩ := tagged_run hrun
    exact fresh_iff htagged hg hs hm hne
  · intro deadTimeout self tr p p' ann now evs hrun htags hs hne hleaving
    obtain ⟨htagged, rfl⟩ := tagged_run hrun
    exact fresh_iff htagged htags hs hne hleaving
  · intro s existing m hknown hexisting hm
    exact updatesPeer_iff hknown hexisting hm

/-- A node that is a member has another tag in the second poll and in the second packet; a peer that
is known without a tag has got one. -/
theorem metadata_fresh_iff_found : let m : NodeMeta := ⟨"n2", "a", [("k", "w")]⟩
    (∃ tr p p' evs, Run pollStep Poller.WellTagged (started 1 0 ⟨"n1", "", []⟩) tr p ∧
      p.members.members = [⟨"n2", "a", [("k", "v")]⟩] ∧
      p.pollStep ⟨some [m], ["n2"], ["n2"]⟩ = some (p', [⟨some [m], evs⟩]) ∧
      Fresh p.members.members p'.members.members evs m) ∧
    (∃ tr p p' evs, Run trackStep MulticastProvider.WellTagged (startedAs 10 ⟨"n1", "", []⟩) tr p ∧
      p.members.members = [⟨"n2", "a", [("k", "v")]⟩] ∧
      p.trackStep (.packet ⟨m.id, m.addr, m.tags, false⟩ 2) =
        some (p', [⟨.packet ⟨m.id, m.addr, m.tags, false⟩ 2, evs⟩]) ∧
      Fresh p.members.members p'.members.members evs m) ∧
    UpdatesPeer (ε := Unit) { Connections.new ⟨"n1", "", []⟩ with
      peers := AList.singleton "n2" ⟨"n2", "a", []⟩ } ⟨"n2", "a", []⟩ ⟨"n2", "a", [("k", "")]⟩ := by
  intro m
  obtain ⟨hpoller, hmulticast, hcluster⟩ := metadata_fresh_iff Unit
  have hnoticed : Noticed [⟨"n2", "a", [("k", "v")]⟩] m := by
    intro s hs
    cases mem_singleton.mp hs
    exact fun _ htags => absurd htags (by decide)
  refine ⟨?_, ?_, ?_⟩
  · obtain ⟨tr, p, hrun, hold, ⟨p', es⟩, hs, hes⟩ : ∃ tr p, Run pollStep Poller.WellTagged
        (started 1 0 ⟨"n1", "", []⟩) tr p ∧ p.members.members = [⟨"n2", "a", [("k", "v")]⟩] ∧
        ∃ r ∈ p.pollStep ⟨some [m], ["n2"], ["n2"]⟩, r.2 = [⟨some [m], [⟨.updated, m⟩]⟩] :=
      Run.of_check [⟨some [⟨"n2", "a", [("k", "v")]⟩], ["n2"], ["n2"]⟩] (by decide +kernel)
    subst hes
    have htagged : p.WellTagged ⟨some [m], ["n2"], ["n2"]⟩ := by
      rintro current hcurrent x hx
      cases hcurrent
      cases mem_singleton.mp hx
      decide
    exact ⟨tr, p, p', _, hrun, hold, hs, (hpoller 1 0 ⟨"n1", "", []⟩ tr p p' _ _ _ m hrun
      htagged hs (by decide) (by decide)).mpr (hold ▸ hnoticed)⟩
  · obtain ⟨tr, p, hrun, hold, ⟨p', es⟩, hs, hes⟩ : ∃ tr p, Run trackStep
        MulticastProvider.WellTagged (startedAs 10 ⟨"n1", "", []⟩) tr p ∧
        p.members.members = [⟨"n2", "a", [("k", "v")]⟩] ∧
        ∃ r ∈ p.trackStep (.packet ⟨m.id, m.addr, m.tags, false⟩ 2),
          r.2 = [⟨.packet ⟨m.id, m.addr, m.tags, false⟩ 2, [⟨.updated, m⟩]⟩] :=
      Run.of_check [.packet ⟨"n2", "a", [("k", "v")], false⟩ 1] (by decide +kernel)
    subst hes
    exact ⟨tr, p, p', _, hrun, hold, hs, (hmulticast 10 ⟨"n1", "", []⟩ tr p p' _ 2 _ hrun
      (by decide) hs (by decide) rfl).mpr (hold ▸ hnoticed)⟩
  · refine (hcluster _ ⟨"n2", "a", []⟩ ⟨"n2", "a", [("k", "")]⟩ ?_ ?_ ?_).mpr ?_
    · decide +kernel
    · decide
    · decide
    · intro htags
      cases htags

/-- Two polls with different addresses; two packets and a peer update with different empty tags. -/
theorem stale_metadata :
    (∃ p tr p' evs, Run pollStep Poller.WellTagged (started 1 0 ⟨"n1", "", []⟩) tr p ∧
      p.pollStep ⟨some [⟨"n2", "b", []⟩], ["n2"], ["n2"]⟩ =
        some (p', [⟨some [⟨"n2", "b", []⟩], evs⟩]) ∧
      ¬ Fresh p.members.members p'.members.members evs ⟨"n2", "b", []⟩) ∧
    (∃ p tr p' evs, Run trackStep MulticastProvider.WellTagged
        (startedAs 10 ⟨"n1", "", []⟩) tr p ∧
      p.trackStep (.packet ⟨"n2", "a", [("y", "")], false⟩ 2) =
        some (p', [⟨.packet ⟨"n2", "a", [("y", "")], false⟩ 2, evs⟩]) ∧
      ¬ Fresh p.members.members p'.members.members evs ⟨"n2", "a", [("y", "")]⟩) ∧
    ¬ UpdatesPeer (ε := Unit) { Connections.new ⟨"n1", "", []⟩ with
      peers := AList.singleton "n2" ⟨"n2", "a", [("x", "")]⟩ } ⟨"n2", "a", [("x", "")]⟩
      ⟨"n2", "a", [("y", "")]⟩ := by
  refine ⟨?_, ?_, ?_⟩
  · obtain ⟨tr, p, hrun, ⟨p', es⟩, hs, hes, hmembers⟩ : ∃ tr p, Run pollStep Poller.WellTagged
        (started 1 0 ⟨"n1", "", []⟩) tr p ∧
        ∃ r ∈ p.pollStep ⟨some [⟨"n2", "b", []⟩], ["n2"], ["n2"]⟩,
          r.2 = [⟨some [⟨"n2", "b", []⟩], []⟩] ∧ r.1.members.members = [⟨"n2", "a", []⟩] :=
      Run.of_check [⟨some [⟨"n2", "a", []⟩], ["n2"], ["n2"]⟩] (by decide +kernel)
    subst hes
    refine ⟨p, tr, p', [], hrun, hs, fun hfresh => ?_⟩
    have hsame := hfresh.stored ⟨"n2", "a", []⟩ (hmembers ▸ mem_singleton_self _) rfl
    exact absurd hsame.2.1 (by decide)
  · obtain ⟨tr, p, hrun, ⟨p', es⟩, hs, hes, hmembers⟩ : ∃ tr p, Run trackStep
        MulticastProvider.WellTagged (startedAs 10 ⟨"n1", "", []⟩) tr p ∧
        ∃ r ∈ p.trackStep (.packet ⟨"n2", "a", [("y", "")], false⟩ 2),
          r.2 = [⟨.packet ⟨"n2", "a", [("y", "")], false⟩ 2, []⟩] ∧
          r.1.members.members = [⟨"n2", "a", [("x", "")]⟩] :=
      Run.of_check [.packet ⟨"n2", "a", [("x", "")], false⟩ 1] (by decide +kernel)
    subst hes
    refine ⟨p, tr, p', [], hrun, hs, fun hfresh => ?_⟩
    have hsame := hfresh.stored ⟨"n2", "a", [("x", "")]⟩ (hmembers ▸ mem_singleton_self _) rfl
    exact absurd (hsame.2.2 "x") (by decide)
  · intro hupdates
    obtain ⟨m', hm', htags⟩ := hupdates.stored
    have hkept : (Connections.updatePeerMeta (ε := Unit) { Connections.new ⟨"n1", "", []⟩ with
        peers := AList.singleton "n2" ⟨"n2", "a", [("x", "")]⟩ }
        ⟨"n2", "a", [("y", "")]⟩).1.peers.lookup "n2" = some ⟨"n2", "a", [("x", "")]⟩ := by
      decide +kernel
    cases hm'.symm.trans hkept
    exact absurd (htags "x") (by decide)

end Westcoast.Provider
