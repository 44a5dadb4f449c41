import Westcoast.Cluster.Leadership
import Westcoast.Lib.Machine

/-!
# A graceful departure

The owner of a singleton leaves. `gainLeadership` starts the singleton only when the previous leader
is presumed gone, and a node that left is not. The callback, which tells the election, the manager
and the registry, and the watch loop are two goroutines: a `Departure` has them apart, and
`departure_activates_iff` says when no order of theirs leaves the singleton idle.
-/
namespace Westcoast.Cluster

open Lib List Option

variable {σ : Type}

namespace Node

/-- The node leads the scope of a singleton without placement. -/
structure Leads (n : Node σ) (s : SingletonState σ) : Prop where
  singleton : n.singleton = some s
  placement : s.spec.placement = none
  self : n.self.id ≠ ""
  leader : ∃ e, n.scope = some e ∧ e.leader = n.self.id

/-- The node leads, and it has the singleton or waits for it in the current term. -/
def Engaged (n : Node σ) (s : SingletonState σ) : Prop :=
  n.Leads s ∧ (s.phase = .active ∨ s.phase = .activating ∧ s.term = n.term)

variable {n : Node σ} {s : SingletonState σ}

namespace Leads
variable (h : n.Leads s)
include h

theorem consult : n.consult s.spec = n := by
  obtain ⟨e, he, -⟩ := h.leader
  have hscope : (n.consult s.spec).scope = n.scope := by
    simp [Node.consult, ensureScope, h.placement, he]
  calc
    n.consult s.spec = { n with scope := (n.consult s.spec).scope } := rfl
    _ = n := by rw [hscope]

theorem leads : n.leads s.spec = true := by
  obtain ⟨e, he, hl⟩ := h.leader
  simp [Node.leads, isLeader, h.placement, he, hl, h.self]

theorem frame {m : Node σ} (hs : m.singleton = n.singleton) (hself : m.self = n.self)
    (hscope : m.scope = n.scope) : m.Leads s :=
  ⟨hs.trans h.singleton, h.placement, hself ▸ h.self, by rw [hscope, hself]; exact h.leader⟩

theorem see (ev : LeaderEvent) (w : ℕ) (evs : List LeaderEvent) :
    ((n.setWatcherEvents w evs).seeLeader ev).Leads s := by
  obtain ⟨e, he, hlead⟩ := h.leader
  refine ⟨h.singleton, h.placement, h.self, { e with watchers := e.watchers.set w evs }, ?_, hlead⟩
  simp [setWatcherEvents, seeLeader, he]

theorem engaged_activate {s' : SingletonState σ} (hspec : s'.spec = s.spec) (t : ℕ) :
    (n.activate s' t).Engaged { s' with phase := .active, term := t } :=
  ⟨⟨rfl, hspec ▸ h.placement, h.self, h.leader⟩, .inl rfl⟩

theorem engaged_beginHandoff : ∃ s', (n.beginHandoff s n.term).Engaged s' :=
  ⟨_, ⟨rfl, h.placement, h.self, h.leader⟩, .inr ⟨rfl, rfl⟩⟩

/-- A pass takes an idle singleton over if the owner is presumed gone or a rebalance is asked for;
else nothing happens. -/
theorem reconcile_of_idle (hidle : s.phase = .idle) :
    (n.presumedGone n.findPrevLeader = true ∨ s.rebalancing = true) ∧
      (∃ s', n.reconcile.Engaged s') ∨
    (n.presumedGone n.findPrevLeader = false ∧ s.rebalancing = false) ∧ n.reconcile = n := by
  have hgain : n.gaining = some (n, s) := by
    simp [gaining, h.singleton, hidle, h.consult, h.leads]
  rw [reconcile_of_gaining hgain]
  rcases gainLeadership_cases n s n.term with
    ⟨hnow, s', hspec, -, hact⟩ | ⟨hnow, hr, hstay⟩ | ⟨-, hr, hbegin⟩
  · simp only [startsNow, Bool.or_eq_true, Bool.and_eq_true] at hnow
    rw [hact]
    exact .inl ⟨hnow.imp_right And.left, _, h.engaged_activate hspec _⟩
  · refine .inr ⟨⟨(Bool.or_eq_false_iff.mp hnow).1, hr⟩, ?_⟩
    rw [hstay, ← h.singleton]
  · rw [hbegin]
    exact .inl ⟨.inr hr, h.engaged_beginHandoff⟩

/-- The owner is known not to be gone. -/
theorem reconcile_of_known (hidle : s.phase = .idle) (hr : s.rebalancing = false)
    (hg : n.presumedGone n.findPrevLeader = false) : n.reconcile = n := by
  rcases h.reconcile_of_idle hidle with ⟨hgone | hr', -⟩ | ⟨-, hsame⟩
  · simp [hg] at hgone
  · simp [hr] at hr'
  · exact hsame

end Leads

theorem Engaged.reconcile (h : n.Engaged s) : n.reconcile = n := by
  simp only [Node.reconcile, h.1.singleton]
  rcases h.2 with hp | ⟨hp, ht⟩
  · simp [hp, h.1.consult]
  · simp [hp, h.1.consult, h.1.leads, ht]

theorem Engaged.frame {m : Node σ} (h : n.Engaged s) (hs : m.singleton = n.singleton)
    (hself : m.self = n.self) (hscope : m.scope = n.scope) : m.Engaged s := by
  have hterm : m.term = n.term := by rw [term, term, hscope]
  exact ⟨h.1.frame hs hself hscope, hterm ▸ h.2⟩

theorem Engaged.see (h : n.Engaged s) (ev : LeaderEvent) (w : ℕ) (evs : List LeaderEvent) :
    ((n.setWatcherEvents w evs).seeLeader ev).Engaged s := by
  have hterm : ((n.setWatcherEvents w evs).seeLeader ev).term = n.term := by
    cases hscope : n.scope <;> simp [term, setWatcherEvents, seeLeader, hscope]
  exact ⟨h.1.see ev w evs, hterm ▸ h.2⟩

theorem Engaged.phase (h : n.Engaged s) : n.phase ≠ .idle := by
  rw [phase_of_singleton h.1.singleton]
  rcases h.2 with hp | ⟨hp, -⟩ <;> simp [hp]

/-- Presumed gone once the failures older than five minutes are forgotten. -/
def gone (now : ℕ) (n : Node σ) (owner : NodeID) : Bool :=
  (n.noteFailed ⟨.leave, ⟨owner, "", []⟩⟩ now).presumedGone owner

/-! ### The goroutines -/

/-- The events in the channels of the watch loops. -/
def channels (n : Node σ) : List (List LeaderEvent) := n.scope.elim [] (·.watchers)

theorem watcherEvents_eq (n : Node σ) (w : ℕ) : n.watcherEvents w = n.channels[w]?.getD [] := by
  simp only [watcherEvents, channels]
  cases n.scope <;> rfl

theorem channels_see (n : Node σ) (w : ℕ) (ev : LeaderEvent) (evs : List LeaderEvent) :
    ((n.setWatcherEvents w evs).seeLeader ev).channels = n.channels.set w evs := by
  simp only [channels, setWatcherEvents, seeLeader]
  cases n.scope <;> rfl

theorem watcherEvents_see {w : ℕ} {ev : LeaderEvent} {evs : List LeaderEvent}
    (h : n.watcherEvents w = ev :: evs) (v : ℕ) :
    ((n.setWatcherEvents w evs).seeLeader ev).watcherEvents v =
      if w = v then evs else n.watcherEvents v := by
  rw [watcherEvents_eq] at h
  have hlt : w < n.channels.length := by
    by_contra hlt
    simp [getElem?_eq_none (not_lt.mp hlt)] at h
  simp only [watcherEvents_eq, channels_see, getElem?_set, hlt]
  split_ifs <;> rfl

theorem length_channels_see {w : ℕ} {ev : LeaderEvent} {evs : List LeaderEvent}
    (h : n.watcherEvents w = ev :: evs) :
    ((n.setWatcherEvents w evs).seeLeader ev).channels.flatten.length <
      n.channels.flatten.length := by
  rw [watcherEvents_eq] at h
  rw [channels_see]
  generalize n.channels = l at h ⊢
  induction l generalizing w with
  | nil => simp at h
  | cons c l ih =>
    cases w with
    | zero => simp_all
    | succ w => simpa using ih (by simpa using h)

theorem findPrevLeader_see (n : Node σ) (w : ℕ) (ev : LeaderEvent) (evs : List LeaderEvent) :
    ((n.setWatcherEvents w evs).seeLeader ev).findPrevLeader =
      if ev.prevLeader ≠ "" then ev.prevLeader else n.findPrevLeader := by
  by_cases h : ev.prevLeader = "" <;> simp [findPrevLeader, seeLeader, setWatcherEvents, h]

end Node

/-- The events in the channels once the node leads: those pending and, unless it led before or the
channel is full, one that names the leader before. -/
def ElectionScope.told (e : ElectionScope) (self : NodeID) : List (List LeaderEvent) :=
  e.watchers.map fun evs =>
    if self ≠ e.leader ∧ evs.length < 4 then evs ++ [⟨self, e.leader, e.term + 1⟩] else evs

theorem ElectionScope.watchers_told (e : ElectionScope) (self : NodeID) :
    (e.setLeader self).watchers = e.told self := by
  simp only [setLeader, told]
  split_ifs with h
  · simp [h]
  · simp [h, notifyWatchers]

/-- What the callback has told: the election, the manager (before and after its pass), all. -/
inductive CallbackPc
  | elected
  | noted
  | reconciled
  | done
  deriving DecidableEq

/-- The pass of the callback is still to come. -/
def CallbackPc.early : CallbackPc → Bool
  | .elected | .noted => true
  | .reconciled | .done => false

/-- A node that is told of a departure. -/
structure Departure (σ : Type) where
  node : Node σ
  pc : CallbackPc

inductive DepartureAction
  | callback
  | watch (w : ℕ)

namespace Departure

open Node

section
variable (member : NodeMeta) (now : ℕ)

/-- The election has been told. -/
def start (n : Node σ) : Departure σ := ⟨n.updateElection ⟨.leave, member⟩, .elected⟩

/-- The callback goes on, or a watch loop takes an event. Its turn is one step: what the callback
does after the loop has noted the previous leader, it may as well do before. -/
def step (x : Departure σ) : DepartureAction → Option (Departure σ × List Unit)
  | .callback =>
    match x.pc with
    | .elected => some (⟨x.node.noteFailed ⟨.leave, member⟩ now, .noted⟩, [])
    | .noted => some (⟨x.node.reconcile, .reconciled⟩, [])
    | .reconciled =>
      some (⟨{ x.node with registry := x.node.registry.onMembershipChange ⟨.leave, member⟩ },
        .done⟩, [])
    | .done => none
  | .watch w =>
    match x.node.watcherEvents w with
    | [] => none
    | ev :: evs => some (⟨(x.node.setWatcherEvents w evs).onLeaderEvent ev, x.pc⟩, [])

/-- All goroutines are done with the event. -/
def Finished (x : Departure σ) : Prop := x.pc = .done ∧ ∀ evs ∈ x.node.channels, evs = []

instance (x : Departure σ) : Decidable x.Finished := inferInstanceAs (Decidable (_ ∧ _))

/-- A pass is still to come. -/
def Passes (x : Departure σ) : Prop := x.pc.early = true ∨ ∃ w, x.node.watcherEvents w ≠ []

/-- No order leaves the singleton idle: a rebalance is asked for, an event names a leader presumed
gone, or the owner is presumed gone and no watch loop looks elsewhere first. -/
inductive Certain (s : SingletonState σ) (x : Departure σ) : Prop
  | asked (hr : s.rebalancing = true) (hpass : x.Passes)
  | named {w : ℕ} {ev : LeaderEvent} (hev : ev ∈ x.node.watcherEvents w)
      (hne : ev.prevLeader ≠ "") (hgone : x.node.gone now ev.prevLeader = true)
  | known (hgone : x.node.gone now x.node.findPrevLeader = true) (hpass : x.Passes)
      (hheads : ∀ w, ∀ ev ∈ (x.node.watcherEvents w).head?, ev.prevLeader = "")

end

variable {member : NodeMeta} {now : ℕ} {n : Node σ} {s : SingletonState σ} {x x' : Departure σ}

theorem finished_iff : x.Finished ↔ x.pc = .done ∧ ∀ w, x.node.watcherEvents w = [] := by
  refine and_congr_right fun _ => ?_
  simp only [watcherEvents_eq]
  constructor
  · intro h w
    cases hw : x.node.channels[w]? with
    | none => rfl
    | some evs => exact h evs (mem_of_getElem? hw)
  · intro h evs hevs
    obtain ⟨w, hw⟩ := mem_iff_getElem?.mp hevs
    simpa [hw] using h w

theorem presumedGone_of_gone {owner : NodeID} (h : n.gone now owner = true) :
    n.presumedGone owner = true := by
  simp only [gone, presumedGone, isRecentlyFailed, noteFailed, Bool.or_eq_true] at h ⊢
  refine h.imp_right fun hany => ?_
  obtain ⟨f, hf, hid⟩ := any_eq_true.mp hany
  exact any_eq_true.mpr ⟨f, mem_of_mem_filter hf, hid⟩

theorem gone_noteFailed (n : Node σ) (owner : NodeID) :
    (n.noteFailed ⟨.leave, member⟩ now).gone now owner = n.gone now owner := by
  simp [gone, presumedGone, isRecentlyFailed, noteFailed, List.filter_filter]

/-- Without the bindings of the member, the owner is the same or unknown. -/
theorem gone_cleanup (h : n.gone now n.findPrevLeader = true) :
    n.gone now { n with registry := n.registry.onMembershipChange ⟨.leave, member⟩ }.findPrevLeader
      = true := by
  have hnone : n.gone now "" = true := by simp [gone, presumedGone]
  simp only [findPrevLeader] at h ⊢
  split_ifs at h ⊢ with hprev
  · exact h
  · rw [DistributedRegistry.lookup_onMembershipChange]
    cases hlook : n.registry.lookup n.name with
    | none => exact hnone
    | some pid =>
      rw [hlook] at h
      by_cases hpid : (!(MemberEventType.leave.departs && decide (pid.ns = member.id))) = true
      · simpa only [filter_some, hpid, if_true] using h
      · simpa only [filter_some, hpid, Bool.false_eq_true, if_false] using hnone

/-! ### Every order -/

theorem certain_noted : Certain now s ⟨n.noteFailed ⟨.leave, member⟩ now, .noted⟩ ↔
    Certain now s ⟨n, .elected⟩ := by
  have hgone : ∀ owner, (n.noteFailed ⟨.leave, member⟩ now).gone now owner = n.gone now owner :=
    gone_noteFailed n
  constructor
  · rintro (⟨hr, -⟩ | ⟨hev, hne, hg⟩ | ⟨hg, -, hheads⟩)
    · exact .asked hr (.inl rfl)
    · exact .named hev hne (hgone _ ▸ hg)
    · exact .known (hgone _ ▸ hg) (.inl rfl) hheads
  · rintro (⟨hr, -⟩ | ⟨hev, hne, hg⟩ | ⟨hg, -, hheads⟩)
    · exact .asked hr (.inl rfl)
    · exact .named hev hne ((hgone _).trans hg)
    · exact .known ((hgone _).trans hg) (.inl rfl) hheads

/-- The singleton is taken over, or certain to be. -/
def Sure (now : ℕ) (s : SingletonState σ) (x : Departure σ) : Prop :=
  (∃ s', x.node.Engaged s') ∨ x.node.Leads s ∧ Certain now s x

theorem sure_step (hidle : s.phase = .idle) {a : DepartureAction} {es : List Unit}
    (h : Sure now s x) (hs : x.step member now a = some (x', es)) : Sure now s x' := by
  obtain ⟨node, pc⟩ := x
  rcases h with ⟨s', he⟩ | ⟨hl, hc⟩
  · -- nothing changes for a node that has the singleton
    refine .inl ⟨s', ?_⟩
    cases a with
    | callback =>
      cases pc <;> cases hs
      · exact he.frame rfl rfl rfl
      · exact he.reconcile.symm ▸ he
      · exact he.frame rfl rfl rfl
    | watch w =>
      simp only [step] at hs
      split at hs <;> cases hs
      next ev evs hevs =>
      rw [onLeaderEvent, (he.see ev w evs).reconcile]
      exact he.see ev w evs
  · cases a with
    | callback =>
      cases pc <;> cases hs
      · exact .inr ⟨hl.frame rfl rfl rfl, certain_noted.mpr hc⟩
      · rcases hl.reconcile_of_idle hidle with ⟨-, hengaged⟩ | ⟨⟨hgone, hr⟩, hsame⟩
        · exact .inl hengaged
        · refine .inr ⟨hsame.symm ▸ hl, ?_⟩
          rw [hsame]
          cases hc with
          | asked hr' => simp [hr] at hr'
          | named hev hne hg => exact .named hev hne hg
          | known hg => simp [presumedGone_of_gone hg] at hgone
      · refine .inr ⟨hl.frame rfl rfl rfl, ?_⟩
        cases hc with
        | asked hr hpass => exact .asked hr hpass
        | named hev hne hg => exact .named hev hne hg
        | known hg hpass hheads => exact .known (gone_cleanup hg) hpass hheads
    | watch w =>
      simp only [step] at hs
      split at hs <;> cases hs
      next ev evs hevs =>
      have hlsee := hl.see ev w evs
      rcases hlsee.reconcile_of_idle hidle with ⟨-, hengaged⟩ | ⟨⟨hgone, hr⟩, hsame⟩
      · exact .inl hengaged
      · rw [onLeaderEvent, hsame]
        refine .inr ⟨hlsee, ?_⟩
        rw [findPrevLeader_see] at hgone
        cases hc with
        | asked hr' => simp [hr] at hr'
        | @named v ev' hev hne hg =>
          have hstay := watcherEvents_see hevs v
          split_ifs at hstay with hv
          · subst hv
            rcases mem_cons.mp (hevs ▸ hev) with rfl | hmem
            · rw [if_pos hne] at hgone
              exact absurd (presumedGone_of_gone hg) (Bool.eq_false_iff.mp hgone)
            · exact .named (hstay.symm ▸ hmem) hne hg
          · exact .named (hstay.symm ▸ hev) hne hg
        | known hg _ hheads =>
          rw [if_neg (not_not.mpr (hheads w ev (by simp [hevs])))] at hgone
          exact absurd (presumedGone_of_gone hg) (Bool.eq_false_iff.mp hgone)

/-! ### The worst order -/

/-- What is left to do. -/
def rest (x : Departure σ) : ℕ :=
  x.node.channels.flatten.length +
    match x.pc with
    | .elected => 3
    | .noted => 2
    | .reconciled => 1
    | .done => 0

/-- It is not certain that the singleton is taken over, and nobody is presumed gone for a failure
that the callback is still to forget. -/
structure Idles (now : ℕ) (s : SingletonState σ) (x : Departure σ) : Prop where
  idle : s.phase = .idle
  leads : x.node.Leads s
  uncertain : ¬ Certain now s x
  noted : x.pc ≠ .elected → ∀ owner, x.node.presumedGone owner = x.node.gone now owner

/-- A step after which less is left to do and nothing more is certain. -/
def Goes (member : NodeMeta) (now : ℕ) (s : SingletonState σ) (x : Departure σ) : Prop :=
  ∃ a x', x.step member now a = some (x', []) ∧ x'.rest < x.rest ∧ Idles now s x'

namespace Idles
variable (h : Idles now s x)
include h

theorem rebalancing (hpass : x.Passes) : s.rebalancing = false :=
  Bool.eq_false_iff.mpr fun hr => h.uncertain (.asked hr hpass)

theorem watch (hpc : x.pc ≠ .elected) {w : ℕ} {ev : LeaderEvent} {evs : List LeaderEvent}
    (hevs : x.node.watcherEvents w = ev :: evs)
    (hok : ev.prevLeader = "" → x.node.gone now x.node.findPrevLeader = false) :
    Goes member now s x := by
  have hmem : ev ∈ x.node.watcherEvents w := hevs ▸ mem_cons_self
  have hr := h.rebalancing (.inr ⟨w, ne_nil_of_mem hmem⟩)
  have hg : x.node.gone now ((x.node.setWatcherEvents w evs).seeLeader ev).findPrevLeader =
      false := by
    rw [findPrevLeader_see]
    split_ifs with hempty
    · exact Bool.eq_false_iff.mpr fun hg => h.uncertain (.named hmem hempty hg)
    · exact hok (not_not.mp hempty)
  have hsee := h.leads.see ev w evs
  have hsame := hsee.reconcile_of_known h.idle hr ((h.noted hpc _).trans hg)
  refine ⟨.watch w, ⟨(x.node.setWatcherEvents w evs).seeLeader ev, x.pc⟩,
    by simp [step, hevs, onLeaderEvent, hsame],
    Nat.add_lt_add_right (length_channels_see hevs) _, h.idle, hsee, ?_, h.noted⟩
  rintro (⟨hr', -⟩ | @⟨v, ev', hev, hne, hg'⟩ | ⟨hg', -⟩)
  · simp [hr] at hr'
  · refine h.uncertain (.named (w := v) ?_ hne hg')
    rw [watcherEvents_see hevs] at hev
    split_ifs at hev with hv
    · exact hv ▸ hevs ▸ mem_cons_of_mem _ hev
    · exact hev
  · exact absurd hg' (Bool.eq_false_iff.mp hg)

theorem callback_elected (hpc : x.pc = .elected) : Goes member now s x := by
  obtain ⟨node, pc⟩ := x
  subst hpc
  refine ⟨.callback, _, rfl, by simp [rest, channels, noteFailed], h.idle,
    h.leads.frame rfl rfl rfl, fun hc => h.uncertain (certain_noted.mp hc), fun _ owner => ?_⟩
  simp [gone, presumedGone, isRecentlyFailed, noteFailed, List.filter_filter]

theorem callback_noted (hpc : x.pc = .noted)
    (hg : x.node.gone now x.node.findPrevLeader = false) : Goes member now s x := by
  obtain ⟨node, pc⟩ := x
  subst hpc
  have hr := h.rebalancing (.inl rfl)
  have hnoted := h.noted (by simp)
  have hsame := h.leads.reconcile_of_known h.idle hr ((hnoted _).trans hg)
  refine ⟨.callback, ⟨node, .reconciled⟩, by simp [step, hsame], by simp [rest], h.idle, h.leads,
    ?_, fun _ => hnoted⟩
  rintro (⟨hr', -⟩ | ⟨hev, hne, hg'⟩ | ⟨hg', -⟩)
  · simp [hr] at hr'
  · exact h.uncertain (.named hev hne hg')
  · simp [hg] at hg'

/-- Without events the registry may be told, after which no pass comes. -/
theorem finish (hearly : x.pc.early = false) (hempty : ∀ w, x.node.watcherEvents w = []) :
    x.Finished ∨ Goes member now s x := by
  obtain ⟨node, pc⟩ := x
  cases pc with
  | elected | noted => cases hearly
  | reconciled =>
    refine .inr ⟨.callback, _, rfl, by simp [rest, channels], h.idle, h.leads.frame rfl rfl rfl, ?_,
      fun _ => h.noted (by simp)⟩
    have hno (w) : watcherEvents { node with
        registry := node.registry.onMembershipChange ⟨.leave, member⟩ } w = [] := hempty w
    rintro (⟨-, hpass⟩ | ⟨hev, -⟩ | ⟨-, hpass, -⟩)
    · simp [Passes, CallbackPc.early, hno] at hpass
    · simp [hno] at hev
    · simp [Passes, CallbackPc.early, hno] at hpass
  | done => exact .inl (finished_iff.mpr ⟨rfl, hempty⟩)

/-- The failures are looked at first and the registry last, and each pass comes where it does no
harm. -/
theorem next : x.Finished ∨ Goes member now s x := by
  by_cases hpc : x.pc = .elected
  · exact .inr (h.callback_elected hpc)
  cases hg : x.node.gone now x.node.findPrevLeader with
  | true =>
    -- the owner is presumed gone: a watch loop has to look elsewhere first
    by_cases hheads : ∀ w, ∀ ev ∈ (x.node.watcherEvents w).head?, ev.prevLeader = ""
    · have hno : ¬ x.Passes := fun hpass => h.uncertain (.known hg hpass hheads)
      simp only [Passes, not_or, not_exists, not_not, Bool.not_eq_true] at hno
      exact h.finish hno.1 hno.2
    · push Not at hheads
      obtain ⟨w, ev, hev, hne⟩ := hheads
      obtain ⟨evs, hevs⟩ := head?_eq_some_iff.mp hev
      exact .inr (h.watch hpc hevs fun hempty => absurd hempty hne)
  | false =>
    cases hearly : x.pc.early with
    | true =>
      have hnoted : x.pc = .noted := by cases hx : x.pc <;> simp_all [CallbackPc.early]
      exact .inr (h.callback_noted hnoted hg)
    | false =>
      by_cases hempty : ∀ w, x.node.watcherEvents w = []
      · exact h.finish hearly hempty
      · push Not at hempty
        obtain ⟨w, hw⟩ := hempty
        obtain ⟨ev, evs, hevs⟩ := exists_cons_of_ne_nil hw
        exact .inr (h.watch hpc hevs fun _ => hg)

theorem exists_finished : ∃ tr x',
    Run (step member now) anyStep x tr x' ∧ x'.Finished ∧ x'.node.phase = .idle := by
  induction hrest : x.rest using Nat.strong_induction_on generalizing x with
  | _ k ih =>
  rcases (h.next : x.Finished ∨ Goes member now s x) with hfin | ⟨a, x1, hs, hlt, h1⟩
  · exact ⟨[], x, .refl, hfin, (phase_of_singleton h.leads.singleton).trans h.idle⟩
  · obtain ⟨tr, x', hrun, hend⟩ := ih _ (hrest ▸ hlt) h1 rfl
    have hfirst : Run (step member now) anyStep x ([] ++ []) x1 := .step .refl trivial hs
    exact ⟨_, x', hfirst.trans hrun, hend⟩

end Idles

end Departure

namespace Node

/-- `b` joins `a`, which `events` may have happened to, and learns at its start that `a` runs the
singleton. -/
def besideOwner (events : List (NodeAction ℕ)) : List (NodeAction ℕ) :=
  let a : NodeMeta := ⟨"a", "", []⟩
  .memberEvent ⟨.join, a⟩ 0 :: events ++
    [.register ⟨0, true, none, none⟩, .start, .receive ⟨"a", "b", .discoverResponse true⟩ none,
      .finishStart, .watchEvent 0]

end Node
end Westcoast.Cluster
