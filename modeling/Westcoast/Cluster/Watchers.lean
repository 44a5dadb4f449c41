import Westcoast.Cluster.RingElection

/-!
# What a slow watcher ends with

An event for which a watcher's channel has no room is dropped, and the next one is sent when the
leader changes again. So a watcher that was slow at the last change is left with the leader before
it.
-/
namespace Westcoast.Cluster.RingElection

open Lib List Option

/-- There is room in the channel if the members after the call elect another leader than the scope
has. -/
def Roomy (scope : String) (channel : ℕ) (e : RingElection) (a : RingAction) : Prop :=
  ∀ s ∈ e.scopes.lookup scope, computeLeader scope (e.membersAfter a) ≠ s.leader →
    (e.channel scope channel).length < 4

instance roomyDecidable (scope : String) (channel : ℕ) (e : RingElection) (a : RingAction) :
    Decidable (Roomy scope channel e a) :=
  inferInstanceAs (Decidable (∀ s ∈ e.scopes.lookup scope, _))

def Current (tr : List RingEvent) (e : RingElection) (scope : String) (channel : ℕ) : Prop :=
  ∀ ev ∈ (feed tr e scope channel).getLast?, ∀ s, e.scopes.lookup scope = some s →
    ev.leader = s.leader

variable {tr es : List RingEvent} {e e' : RingElection} {scope : String} {channel : ℕ}

/-- A feed that stays as it is has the leader that stays, if there is room for another one. -/
theorem leader_of_feed_same {a : RingAction} {s s' : ElectionScope}
    (hmoves : ScopeMoves e a e' scope es) (hmem : e'.members = e.membersAfter a)
    (hroom : Roomy scope channel e a)
    (hfeed : feed (tr ++ es) e' scope channel = feed tr e scope channel)
    (hs : e.scopes.lookup scope = some s) (hlt : channel < s.watchers.length)
    (hs' : e'.scopes.lookup scope = some s') : s'.leader = s.leader := by
  cases hmoves with
  | same hsame =>
    rw [hsame, hs] at hs'
    rw [some.inj hs']
  | created ha hnone =>
    rw [hs] at hnone
    cases hnone
  | recomputed s0 hs0 hnew hes =>
    by_contra hne
    subst hes
    obtain rfl : s0 = s := some.inj (hs0.symm.trans hs)
    obtain rfl := some.inj (hnew.symm.trans hs')
    have hlen := congrArg List.length hfeed
    have hch := getElem?_eq_getElem hlt
    rw [s0.leader_setLeader] at hne
    have hroom := hroom s0 hs0 (hmem ▸ hne)
    rw [channel_of_lookup channel hs, hch, getD_some] at hroom
    simp only [feed, append_nil, channel_of_lookup channel hs, channel_of_lookup channel hnew,
      ElectionScope.watchers_setLeader, hch, if_neg hne, map_some, getD_some,
      if_pos hroom, length_append, length_singleton] at hlen
    omega
  | watched ha hmem hnew =>
    obtain rfl := some.inj (hnew.symm.trans hs')
    have hfst := ensureScope_fst e scope
    rw [hs, getD_some] at hfst
    rw [hfst]
    rfl
  | served s0 s1 c ev hmem hs0 hserve hnew =>
    obtain rfl : s0 = s := some.inj (hs0.symm.trans hs)
    obtain rfl : s1 = s' := some.inj (hnew.symm.trans hs')
    exact (ElectionScope.receive_keeps hserve).1

theorem current_step {a : RingAction} (hfed : Fed tr e scope channel)
    (hcurrent : Current tr e scope channel) (hroom : Roomy scope channel e a)
    (hstep : e.step a = some (e', es)) :
    Fed (tr ++ es) e' scope channel ∧ Current (tr ++ es) e' scope channel := by
  have hmoves := scopeMoves_step hstep scope
  obtain ⟨hfed', hgrows⟩ := fed_step hfed hmoves
  refine ⟨hfed', fun ev hev s' hs' => ?_⟩
  rcases hgrows with hfeed | ⟨s1, ev1, hs1, hleader, -, hfeed⟩
  · rw [hfeed] at hev
    obtain ⟨s, hs, hlt⟩ := hfed.opened (ne_nil_of_mem (mem_of_getLast? hev))
    rw [hcurrent ev hev s hs]
    exact (leader_of_feed_same hmoves (members_step hstep).2 hroom hfeed hs hlt hs').symm
  · -- the new event has the leader
    rw [hfeed, getLast?_concat, mem_some_iff] at hev
    rw [← hev, hleader, some.inj (hs1.symm.trans hs')]

/-- **A watcher converges**, if every change finds room in its channel: the last event has the
leader `Leader` returns. -/
theorem watcher_converges {localID : NodeID} {ev : LeaderEvent}
    (hrun : Run step (Roomy scope channel) (new localID) tr e)
    (hdrained : e.channel scope channel = [])
    (hlast : (received scope channel tr).getLast? = some ev) :
    ev.leader = (e.leader scope).1.1 := by
  obtain ⟨hfed, hcurrent⟩ : Fed tr e scope channel ∧ Current tr e scope channel := by
    refine hrun.invariant (fun tr e => Fed tr e scope channel ∧ Current tr e scope channel) ?_
      fun _ _ _ _ _ h hroom hstep => current_step h.1 h.2 hroom hstep
    exact ⟨⟨fun h => absurd rfl h, .nil, fun ev hev => nomatch hev⟩, fun ev hev => nomatch hev⟩
  have hfeed : feed tr e scope channel = received scope channel tr := by
    rw [feed, hdrained, append_nil]
  rw [← hfeed] at hlast
  obtain ⟨s, hs, -⟩ := hfed.opened (ne_nil_of_mem (mem_of_getLast? hlast))
  rw [hcurrent ev hlast s hs, leader, ensureScope_fst, hs, getD_some]

def joinB : RingAction := .onMembershipChange ⟨.join, ⟨"b", "", []⟩⟩

def leaveB : RingAction := .onMembershipChange ⟨.leave, ⟨"b", "", []⟩⟩

theorem watcher_converges_joined :
    ∃ tr e ev, Run step (Roomy "svc" 0) (new "a") tr e ∧ e.channel "svc" 0 = [] ∧
      (received "svc" 0 tr).getLast? = some ev ∧ ev.leader = (e.leader "svc").1.1 := by
  obtain ⟨tr, e, hrun, hdrained, hlast⟩ : ∃ tr e, Run step (Roomy "svc" 0) (new "a") tr e ∧
      e.channel "svc" 0 = [] ∧ (received "svc" 0 tr).getLast? = some ⟨"b", "a", 2⟩ :=
    Run.of_check [.watch "svc", joinB, .receive "svc" 0, .receive "svc" 0] (by decide +kernel)
  exact ⟨tr, e, _, hrun, hdrained, hlast, watcher_converges hrun hdrained hlast⟩

/-- The fifth event of a watcher that sleeps is dropped, and no other one comes. -/
theorem slow_watcher_misled : ∃ tr e, Run step anyStep (new "a") tr e ∧ e.channel "svc" 0 = [] ∧
      (received "svc" 0 tr).getLast? = some ⟨"b", "a", 4⟩ ∧ (e.leader "svc").1.1 = "a" :=
  Run.of_check [.watch "svc", joinB, leaveB, joinB, leaveB, .receive "svc" 0, .receive "svc" 0,
    .receive "svc" 0, .receive "svc" 0] (by decide +kernel)

end Westcoast.Cluster.RingElection
