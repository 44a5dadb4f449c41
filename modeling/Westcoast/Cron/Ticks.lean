import Westcoast.Cron.Singleton

/-!
# Where the ticks go

A goroutine sends its ticks with `Send` of its own runtime, to the actor ID of the subscriber alone.
So a tick reaches the subscriber exactly if they are on one node (`tick_reaches_iff`); otherwise an
actor with the same ID gets it.
-/
namespace Westcoast

open Lib List CronBrokerService Option

/-- The node of the actor that an identifier addresses, as a node with a transport sends to
it. -/
def PID.home (p : PID) (node : String) : String := if p.isRemote node then p.ns else node

/-- A message to this actor of this node is one to the actor of the identifier. -/
def Reaches (node actorID : String) (p : PID) : Prop := p.home node = node ∧ p.actorID = actorID

namespace CronCluster

variable {π β : Type} {parse : String → Option CronSchedule} {codec : CronCodec π β}
  {placement : Option (Cluster.NodeMeta → Bool)}

variable {s s' : CronCluster π β} {node : String}

theorem loop_of_set {g : ℕ} {l l' : CronLoop π} (hl : s.loop node g = some l)
    (h : s'.services node = { s.services node with loops := (s.services node).loops.set g l' })
    (g' : ℕ) : s'.loop node g' = if g' = g then some l' else s.loop node g' := by
  have hlt : g < (s.services node).loops.length := (List.getElem?_eq_some_iff.mp hl).1
  simp only [loop, h, getElem?_set]
  by_cases hg : g' = g
  · rw [if_pos hg, if_pos hg.symm, if_pos hlt]
  · rw [if_neg hg, if_neg (Ne.symm hg)]

/-- What a step does to the goroutines of a node: their subscriptions and the events about them. -/
structure Continues (s s' : CronCluster π β) (es : List (CronEvent π)) (node : String) :
    Prop where
  old : ∀ g (l : CronLoop π), s.loop node g = some l →
    ∃ l' : CronLoop π, s'.loop node g = some l' ∧ l'.sub = l.sub
  new : ∀ g (l' : CronLoop π), s'.loop node g = some l' → s.loop node g = none →
    l'.sub.actorID = l'.sub.subscriber.actorID ∧
      .service node (.subscribed g l'.sub.subscriber) ∈ es
  subscribed : ∀ g p, .service node (.subscribed g p) ∈ es →
    ∃ l : CronLoop π, s'.loop node g = some l ∧ l.sub.subscriber = p
  ticked : ∀ g id tick, .ticked node g id tick ∈ es →
    ∃ l : CronLoop π, s'.loop node g = some l ∧ l.sub.actorID = id

theorem continues_handled {state : CronState π} (hu : Unrestored codec s)
    (hrunning : s.running = some (node, state)) (ask : Option AskRequestContext)
    (command : CronCommand π)
    (hservice : s'.services node = ((s.services node).handler parse state ask command).1) :
    Continues s s' (((s.services node).handler parse state ask command).2.2.map (.service node))
      node := by
  have hprogress := progress_handler parse (s.services node) state ask command
  rw [← hservice] at hprogress
  have hmem : ∀ e, CronEvent.service node e ∈
      ((s.services node).handler parse state ask command).2.2.map (.service node) ↔
        e ∈ ((s.services node).handler parse state ask command).2.2 := by simp
  -- the state is not one to restore from, so no goroutine is started for an entry
  have hrestored : ∀ g entry,
      .restored g entry ∉ ((s.services node).handler parse state ask command).2.2 := by
    intro g entry
    simp only [handler, hu.restoreOnce hrunning, nil_append]
    exact not_restored_dispatch parse _ ask command g entry
  refine ⟨fun g l hl => ?_, fun g l' hl' hnone => ?_, fun g p he => ?_, by simp⟩
  · obtain ⟨l', hl', hsub, -⟩ := hprogress.old g l hl
    exact ⟨l', hl', hsub⟩
  · obtain ⟨-, hactor, hstarted⟩ := hprogress.new g l' hl' hnone
    refine ⟨hactor, (hmem _).mpr ?_⟩
    rcases hstarted with hstarted | ⟨entry, he⟩
    · exact hstarted
    · exact absurd he (hrestored g entry)
  · exact (hprogress.fresh g p ((hmem _).mp he)).2

variable {es : List (CronEvent π)}

theorem continues_set {g : ℕ} {l l' : CronLoop π} (hl : s.loop node g = some l)
    (h : s'.services node = { s.services node with loops := (s.services node).loops.set g l' })
    (hsub : l'.sub = l.sub) (hes : ∀ e, .service node e ∉ es)
    (hticked : ∀ g' id tick, .ticked node g' id tick ∈ es → g' = g ∧ id = l'.sub.actorID) :
    Continues s s' es node := by
  have hloop := loop_of_set hl h
  refine ⟨fun g1 l1 hl1 => ?_, fun g1 l1 hl1 hnone => ?_, fun g1 p he => absurd he (hes _),
    fun g1 id tick he => ?_⟩
  · rw [hloop]
    by_cases hg : g1 = g
    · rw [if_pos hg]
      rw [hg, hl, some.injEq] at hl1
      exact ⟨l', rfl, hl1 ▸ hsub⟩
    · rw [if_neg hg]
      exact ⟨l1, hl1, rfl⟩
  · rw [hloop] at hl1
    split_ifs at hl1 with hg
    · rw [hg, hl] at hnone
      cases hnone
    · rw [hnone] at hl1
      cases hl1
  · obtain ⟨hg, hid⟩ := hticked g1 id tick he
    rw [hloop, if_pos hg]
    exact ⟨l', rfl, hid.symm⟩

theorem continues_step {a : CronAction π} (hu : Unrestored codec s)
    (h : s.step parse codec (cronSpec π placement) a = some (s', es)) (node : String) :
    Continues s s' es node := by
  cases moves_step h node with
  | same hloops hsubs hflag hquiet hsilent =>
    have hsame : ∀ g, s'.loop node g = s.loop node g := fun g => by rw [loop, loop, hloops]
    refine ⟨fun g l hl => ⟨l, by rw [hsame, hl], rfl⟩, fun g l' hl' hnone => ?_,
      fun g p he => absurd he (hquiet _), fun g id tick he => absurd he (hsilent g id tick)⟩
    rw [hsame, hnone] at hl'
    cases hl'
  | handled state ask command ha hrunning hservice hstate hes =>
    rw [hes]
    exact continues_handled hu hrunning ask command hservice
  | advanced g l l' hl hmove hservice hes =>
    have hsub : l'.sub = l.sub := by
      rcases hmove with harm | hwake | hquit
      · exact (CronLoop.arm_eq_some harm).1
      · exact (CronLoop.wake_eq_some hwake).1
      · exact (CronLoop.quit_eq_some hquit).1
    subst hes
    exact continues_set hl hservice hsub (fun _ he => nomatch he) fun _ _ _ he => nomatch he
  | fired g l l' tick hl hfire hservice hes =>
    obtain ⟨next, -, -, rfl⟩ := CronLoop.fire_eq_some hfire
    subst hes
    refine continues_set hl hservice rfl (by simp) fun g' id tick' he => ?_
    cases mem_singleton.mp he
    exact ⟨rfl, rfl⟩

/-- Each goroutine was started for a subscriber and sends its ticks to that actor ID. -/
structure Backed (tr : List (CronEvent π)) (s : CronCluster π β) (node : String) : Prop where
  loops : ∀ g (l : CronLoop π), s.loop node g = some l → l.sub.actorID = l.sub.subscriber.actorID ∧
      .service node (.subscribed g l.sub.subscriber) ∈ tr
  subscribed : ∀ g p, .service node (.subscribed g p) ∈ tr →
    ∃ l : CronLoop π, s.loop node g = some l ∧ l.sub.subscriber = p
  ticked : ∀ g id tick, .ticked node g id tick ∈ tr →
    ∃ l : CronLoop π, s.loop node g = some l ∧ l.sub.actorID = id

theorem Backed.snoc {tr : List (CronEvent π)} (hb : Backed tr s node)
    (hc : Continues s s' es node) : Backed (tr ++ es) s' node where
  loops g l' hl' := by
    cases hl : s.loop node g with
    | none =>
      obtain ⟨hactor, hmem⟩ := hc.new g l' hl' hl
      exact ⟨hactor, mem_append_right _ hmem⟩
    | some l =>
      obtain ⟨l1, hl1, hsub⟩ := hc.old g l hl
      rw [hl', some.injEq] at hl1
      rw [hl1, hsub]
      obtain ⟨hactor, hmem⟩ := hb.loops g l hl
      exact ⟨hactor, mem_append_left _ hmem⟩
  subscribed g p hmem := by
    rcases mem_append.mp hmem with hmem | hmem
    · obtain ⟨l, hl, hp⟩ := hb.subscribed g p hmem
      obtain ⟨l', hl', hsub⟩ := hc.old g l hl
      exact ⟨l', hl', by rw [hsub, hp]⟩
    · exact hc.subscribed g p hmem
  ticked g id tick hmem := by
    rcases mem_append.mp hmem with hmem | hmem
    · obtain ⟨l, hl, hid⟩ := hb.ticked g id tick hmem
      obtain ⟨l', hl', hsub⟩ := hc.old g l hl
      exact ⟨l', hl', by rw [hsub, hid]⟩
    · exact hc.ticked g id tick hmem

variable {cronID : String} {tr : List (CronEvent π)} {s : CronCluster π β}

theorem backed_of_run
    (hrun : Run (step parse codec (cronSpec π placement)) anyStep (new cronID) tr s)
    (node : String) : Backed tr s node := by
  have hboth : Unrestored codec s ∧ Backed tr s node := by
    refine Run.invariant (fun tr s => Unrestored codec s ∧ Backed tr s node) ?_ ?_ hrun
    · exact ⟨unrestored_new, fun _ _ h => (nomatch h), fun _ _ h => (nomatch h),
        fun _ _ _ h => nomatch h⟩
    · rintro tr s a s' es ⟨hu, hb⟩ - h
      exact ⟨hu.step h, hb.snoc (continues_step hu h node)⟩
  exact hboth.2

/-- **Where the ticks go.** Each tick is one of a subscription with one subscriber, and is sent to
the subscriber's actor exactly if that is on the node of the service. -/
theorem tick_reaches_iff
    (hrun : Run (step parse codec (cronSpec π placement)) anyStep (new cronID) tr s)
    {node actorID : String} {g : ℕ} {tick : CronTickMessage π}
    (htick : .ticked node g actorID tick ∈ tr) :
    ∃ p, (∀ p', .service node (.subscribed g p') ∈ tr ↔ p' = p) ∧
      (Reaches node actorID p ↔ p.home node = node) := by
  have hb := backed_of_run hrun node
  obtain ⟨l, hl, hid⟩ := hb.ticked g actorID tick htick
  obtain ⟨hactor, hmem⟩ := hb.loops g l hl
  refine ⟨l.sub.subscriber, fun p' => ⟨fun hmem' => ?_, fun heq => heq ▸ hmem⟩, ?_⟩
  · obtain ⟨l', hl', hp⟩ := hb.subscribed g p' hmem'
    rw [hl, some.injEq] at hl'
    rw [← hp, hl']
  · constructor
    · exact fun h => h.1
    · exact fun h => ⟨h, by rw [← hactor, hid]⟩

/-- The subscription of an actor on this node, and the first tick of it. -/
def firstTick (node : String) (subscriber : PID) : List (CronAction ℕ) :=
  [.activate node false,
    .message node (some request) (.subscribe subscriber "@every 1s" 7 "t"), .arm node 0,
    .elapse 1, .wake node 0, .fire node 0]

def tickOfA : CronTickMessage ℕ := ⟨⟨"cron-c-1", "@every 1s", "a"⟩, 7, 1, "t"⟩

/-- The tick of a subscriber on the node of the service. -/
theorem tick_reaches_own_node : ∃ (tr : List (CronEvent ℕ)) (s : CronCluster ℕ (CronState ℕ)),
      Run plainStep anyStep (new "c") tr s ∧ .ticked "n1" 0 "a" tickOfA ∈ tr ∧
        .service "n1" (.subscribed 0 ⟨"n1", "a", 1⟩) ∈ tr ∧
        Reaches "n1" "a" ⟨"n1", "a", 1⟩ := by
  obtain ⟨tr, s, hrun, htick, hsub⟩ : ∃ tr s, Run plainStep anyStep (new "c") tr s ∧
      .ticked "n1" 0 "a" tickOfA ∈ tr ∧ .service "n1" (.subscribed 0 ⟨"n1", "a", 1⟩) ∈ tr :=
    Run.of_check (firstTick "n1" ⟨"n1", "a", 1⟩) (by decide +kernel)
  obtain ⟨p, honly, hreaches⟩ := tick_reaches_iff hrun htick
  have hp := (honly _).mp hsub
  refine ⟨tr, s, hrun, htick, hsub, ?_⟩
  rw [hp, hreaches, ← hp]
  decide +kernel

/-- The subscriber is on another node: the tick goes to the actor with its ID on the cron actor's
node. -/
theorem tick_to_namesake : ∃ (tr : List (CronEvent ℕ)) (s : CronCluster ℕ (CronState ℕ)),
      Run plainStep anyStep (new "c") tr s ∧ .service "n1" (.subscribed 0 ⟨"n2", "a", 1⟩) ∈ tr ∧
        .ticked "n1" 0 "a" tickOfA ∈ tr ∧ PID.home ⟨"n2", "a", 1⟩ "n1" = "n2" ∧
        ¬ Reaches "n1" "a" ⟨"n2", "a", 1⟩ := by
  obtain ⟨tr, s, hrun, hsub, htick, hhome⟩ : ∃ tr s, Run plainStep anyStep (new "c") tr s ∧
      .service "n1" (.subscribed 0 ⟨"n2", "a", 1⟩) ∈ tr ∧ .ticked "n1" 0 "a" tickOfA ∈ tr ∧
      PID.home ⟨"n2", "a", 1⟩ "n1" = "n2" :=
    Run.of_check (firstTick "n1" ⟨"n2", "a", 1⟩) (by decide +kernel)
  refine ⟨tr, s, hrun, hsub, htick, hhome, fun hreaches => ?_⟩
  exact absurd (hhome.symm.trans hreaches.1) (by decide +kernel)

end CronCluster
end Westcoast
