import Westcoast.Lib.Assoc
import Westcoast.Lib.Episodes
import Westcoast.Provider.Core

/-!
# What a provider tells, and what it knows

For each node the events of a provider come in episodes: it joins, is updated any number of times,
and leaves or fails. A reader who applies the events knows the members that the provider has. Both
follow from what its operations tell about a node when they change what is known of it (`Told`).
-/
namespace Westcoast.Provider

open Lib Cluster List

def eventsOf (id : NodeID) (evs : List MemberEvent) : List MemberEvent :=
  evs.filter fun e => e.member.id = id

/-- The members that a reader of the events knows. -/
def replay (evs : List MemberEvent) : AList fun _ : NodeID => NodeMeta :=
  evs.foldl (fun known e =>
    match e.type with
    | .join | .updated => known.insert e.member.id e.member
    | .leave | .failed => known.erase e.member.id) ∅

section

variable {id : NodeID} {evs evs' : List MemberEvent}

theorem exists_mem_eventsOf {P : MemberEvent → Prop} :
    (∃ e ∈ eventsOf id evs, P e) ↔ ∃ e ∈ evs, P e ∧ e.member.id = id := by
  simp only [eventsOf, mem_filter, decide_eq_true_eq]
  exact exists_congr fun e => by tauto

theorem eventsOf_append : eventsOf id (evs ++ evs') = eventsOf id evs ++ eventsOf id evs' :=
  filter_append ..

theorem lookup_replay (id : NodeID) (evs : List MemberEvent) :
    (replay evs).lookup id = (eventsOf id evs).getLast?.bind fun e =>
      if e.type.departs then none else some e.member := by
  induction evs using List.reverseRecOn with
  | nil => rfl
  | append_singleton evs e ih =>
    have hreplay : replay (evs ++ [e]) =
        if e.type.departs then (replay evs).erase e.member.id
        else (replay evs).insert e.member.id e.member := by
      rw [replay, foldl_append]
      cases htype : e.type <;> simp [htype, MemberEventType.departs, replay]
    rw [hreplay, eventsOf_append]
    by_cases hid : e.member.id = id
    · subst hid
      cases hdep : e.type.departs <;> simp [eventsOf, hdep]
    · have hnone : eventsOf id [e] = [] := by simp [eventsOf, hid]
      rw [hnone, append_nil, ← ih]
      cases hdep : e.type.departs <;> simp [Ne.symm hid]

end

/-! ## The members of a map -/

section

variable {V : Type}

/-- The members among the entries of a map; `live` is what an entry shows. -/
def membersOf (live : V → Option NodeMeta) (ms : AList fun _ : NodeID => V) : List NodeMeta :=
  ms.entries.filterMap fun e => live e.2

def shownBy (live : V → Option NodeMeta) (ms : AList fun _ : NodeID => V) (id : NodeID) :
    Option NodeMeta :=
  (ms.lookup id).bind live

/-- A map shows each node under its own identifier. -/
def Named (live : V → Option NodeMeta) (ms : AList fun _ : NodeID => V) : Prop :=
  ∀ id m, shownBy live ms id = some m → m.id = id

variable {live : V → Option NodeMeta} {ms : AList fun _ : NodeID => V}

theorem mem_membersOf {m : NodeMeta} :
    m ∈ membersOf live ms ↔ ∃ id, shownBy live ms id = some m := by
  simp only [membersOf, shownBy, mem_filterMap, Option.bind_eq_some_iff]
  constructor
  · rintro ⟨e, he, hm⟩
    exact ⟨e.1, e.2, AList.mem_lookup_iff.mpr he, hm⟩
  · rintro ⟨id, v, hv, hm⟩
    exact ⟨⟨id, v⟩, AList.mem_lookup_iff.mp hv, hm⟩

theorem Named.shownBy_eq_some (h : Named live ms) {id : NodeID} {m : NodeMeta} :
    shownBy live ms id = some m ↔ m ∈ membersOf live ms ∧ m.id = id := by
  rw [mem_membersOf]
  constructor
  · intro hm
    exact ⟨⟨id, hm⟩, h id m hm⟩
  · rintro ⟨⟨k, hk⟩, hid⟩
    rwa [← hid, h k m hk]

theorem Named.nodup (h : Named live ms) : ((membersOf live ms).map (·.id)).Nodup := by
  have hentry : ∀ e ∈ ms.entries, ∀ m, live e.2 = some m → m.id = e.1 := by
    intro e he m hm
    refine h e.1 m ?_
    rw [shownBy, AList.mem_lookup_iff.mpr he]
    exact hm
  have hsub : ((membersOf live ms).map (·.id)).Sublist ms.entries.keys := by
    unfold membersOf
    generalize ms.entries = l at hentry
    induction l with
    | nil => exact .slnil
    | cons e l ih =>
      have hrest := ih fun e' he' => hentry e' (mem_cons_of_mem e he')
      cases hlive : live e.2 with
      | none =>
        rw [filterMap_cons, hlive, keys_cons]
        exact hrest.cons e.1
      | some m =>
        rw [filterMap_cons, hlive, keys_cons, map_cons,
          hentry e mem_cons_self m hlive]
        exact hrest.cons_cons e.1
  exact hsub.nodup ms.nodupKeys

end

/-! ## What is told and what is known -/

/-- What is told about a node when what is known of it changes; `ends` are the events by which it
departs. -/
inductive Told (ends : Set MemberEventType) :
    Option NodeMeta → List MemberEvent → Option NodeMeta → Prop
  | nothing (known : Option NodeMeta) : Told ends known [] known
  | joined (m : NodeMeta) : Told ends none [⟨.join, m⟩] (some m)
  | updated (m m' : NodeMeta) : Told ends (some m) [⟨.updated, m'⟩] (some m')
  | departed (m m' : NodeMeta) {type : MemberEventType} (htype : type ∈ ends) :
      Told ends (some m) [⟨type, m'⟩] none

/-- The events about a node are episodes, the last one open while something is known, and the last
event tells what. -/
structure Recounted (ends : Set MemberEventType) (evs : List MemberEvent)
    (known : Option NodeMeta) : Prop where
  opened : known.isSome = true → Opened .join {.updated} ends (evs.map (·.type))
  closed : known = none → evs.map (·.type) ∈ episodes .join {.updated} ends
  last : (evs.getLast?.bind fun e => if e.type.departs then none else some e.member) = known

def Recounts (ends : Set MemberEventType) (evs : List MemberEvent)
    (known : NodeID → Option NodeMeta) : Prop :=
  ∀ id, Recounted ends (eventsOf id evs) (known id)

section

variable {ends : Set MemberEventType} {evs new : List MemberEvent}
  {known known' : NodeID → Option NodeMeta}

theorem Recounted.append {k k' : Option NodeMeta} (hends : ∀ t ∈ ends, t.departs = true)
    (h : Recounted ends evs k) (ht : Told ends k new k') : Recounted ends (evs ++ new) k' := by
  cases ht with
  | nothing => rwa [append_nil]
  | joined m =>
    refine ⟨fun _ => ?_, nofun, by simp [MemberEventType.departs]⟩
    rw [map_append]
    exact opened_of_mem_episodes (h.closed rfl)
  | updated m m' =>
    refine ⟨fun _ => ?_, nofun, by simp [MemberEventType.departs]⟩
    rw [map_append]
    exact (h.opened rfl).snoc_more rfl
  | departed m m' htype =>
    refine ⟨nofun, fun _ => ?_, by simp [hends _ htype]⟩
    rw [map_append]
    exact (h.opened rfl).snoc_ends htype

theorem recounts_nil : Recounts ends [] fun _ => none :=
  fun _ => ⟨nofun, fun _ => nil_mem_episodes, rfl⟩

theorem Recounts.append (hends : ∀ t ∈ ends, t.departs = true) (h : Recounts ends evs known)
    (ht : ∀ id, Told ends (known id) (eventsOf id new) (known' id)) :
    Recounts ends (evs ++ new) known' := by
  intro id
  rw [eventsOf_append]
  exact (h id).append hends (ht id)

theorem Recounts.beginning (h : Recounts ends evs known) {t : MemberEventType} (ht : t ∈ ends)
    (id : NodeID) : Beginning .join {.updated} ends ((eventsOf id evs).map (·.type)) := by
  cases hk : known id with
  | none => exact beginning_of_mem_episodes ((h id).closed hk)
  | some m => exact ((h id).opened (by rw [hk]; rfl)).beginning ht

theorem Recounts.lookup_replay (h : Recounts ends evs known) (id : NodeID) :
    (replay evs).lookup id = known id := by
  rw [Provider.lookup_replay, (h id).last]

end

/-! ## A provider that keeps entries -/

/-- What is asked of a provider on the node `own`, of the events so far and its members. -/
structure Informs (ends : Set MemberEventType) (own : NodeID) (evs : List MemberEvent)
    (members : List NodeMeta) : Prop where
  beginning : ∀ id, Beginning .join {.updated} ends ((eventsOf id evs).map (·.type))
  replays : ∀ id m, (replay evs).lookup id = some m ↔ m ∈ members ∧ m.id = id
  nodup : (members.map (·.id)).Nodup
  others : (∀ m ∈ members, m.id ≠ own) ∧ ∀ e ∈ evs, e.member.id ≠ own

section

variable {V : Type}

def Keyed (nodeMeta : V → NodeMeta) (ms : AList fun _ : NodeID => V) : Prop :=
  ∀ id v, ms.lookup id = some v → (nodeMeta v).id = id

/-- An entry that shows something shows the metadata it has. -/
def Shows (nodeMeta : V → NodeMeta) (live : V → Option NodeMeta) : Prop :=
  ∀ v m, live v = some m → nodeMeta v = m

structure Accounts (nodeMeta : V → NodeMeta) (live : V → Option NodeMeta)
    (ends : Set MemberEventType) (own : NodeID) (evs : List MemberEvent)
    (ms : AList fun _ : NodeID => V) : Prop where
  recounts : Recounts ends evs (shownBy live ms)
  keyed : Keyed nodeMeta ms
  unknown : ms.lookup own = none
  silent : eventsOf own evs = []

variable {nodeMeta : V → NodeMeta} {live : V → Option NodeMeta} {ends : Set MemberEventType}
  {own : NodeID} {evs new : List MemberEvent} {ms ms' : AList fun _ : NodeID => V}

theorem Keyed.named (hlive : Shows nodeMeta live) (h : Keyed nodeMeta ms) : Named live ms := by
  intro id m hm
  obtain ⟨v, hv, hshown⟩ := Option.bind_eq_some_iff.mp hm
  rw [← hlive v m hshown]
  exact h id v hv

theorem accounts_empty : Accounts nodeMeta live ends own [] ∅ := ⟨recounts_nil, nofun, rfl, rfl⟩

theorem Accounts.append (hends : ∀ t ∈ ends, t.departs = true)
    (h : Accounts nodeMeta live ends own evs ms)
    (ht : ∀ id, Told ends (shownBy live ms id) (eventsOf id new) (shownBy live ms' id))
    (hkeyed : Keyed nodeMeta ms') (hown : ms'.lookup own = none ∧ eventsOf own new = []) :
    Accounts nodeMeta live ends own (evs ++ new) ms' where
  recounts := h.recounts.append hends ht
  keyed := hkeyed
  unknown := hown.1
  silent := by
    rw [eventsOf_append, h.silent, hown.2]
    rfl

theorem Accounts.informs (hlive : Shows nodeMeta live) (h : Accounts nodeMeta live ends own evs ms)
    {t : MemberEventType} (ht : t ∈ ends) : Informs ends own evs (membersOf live ms) where
  beginning := h.recounts.beginning ht
  replays id m := by
    rw [h.recounts.lookup_replay]
    exact (h.keyed.named hlive).shownBy_eq_some
  nodup := (h.keyed.named hlive).nodup
  others := by
    constructor
    · rintro m hm rfl
      have hshown := (h.keyed.named hlive).shownBy_eq_some.mpr ⟨hm, rfl⟩
      rw [shownBy, h.unknown] at hshown
      cases hshown
    · intro e he hid
      have hnone := filter_eq_nil_iff.mp h.silent e he
      simp [hid] at hnone

end

end Westcoast.Provider
