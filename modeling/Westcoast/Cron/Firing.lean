import Westcoast.Cron.Ticks

/-!
# Ticks after a stop

A stop of the cron actor does not cancel the contexts of its goroutines. After it none of them sends
another tick exactly if each was at rest (`mayTick_iff`), and where every stop is like this no two
nodes send a tick for the same time (`Alone`). All nodes read one clock.
-/
namespace Westcoast

open Lib List Option CronLoop

namespace CronCluster

variable {π β : Type} {parse : String → Option CronSchedule} {codec : CronCodec π β}
  {spec : Cluster.SingletonSpec (CronState π)}

/-! ### One step, seen from a goroutine -/

variable {s s' : CronCluster π β} {a : CronAction π} {es tr : List (CronEvent π)}

theorem now_step (h : s.step parse codec spec a = some (s', es)) : s.now ≤ s'.now := by
  cases turn_of_step h with
  | elapse d => exact Nat.le_add_right s.now d
  | activate | message | capture | stop | notified | advanced | fired => exact Nat.le_refl _

inductive LoopStep (s s' : CronCluster π β) (node : String) (g : ℕ) (l' : CronLoop π) : Prop
  /-- It has not moved, and may have been cancelled. -/
  | kept (l : CronLoop π) (hl : s.loop node g = some l) (hsub : l'.sub = l.sub)
      (hphase : l'.phase = l.phase) (hcancelled : l.cancelled = true → l'.cancelled = true)
  | begun (hnone : s.loop node g = none) (hphase : l'.phase = .top) (state : CronState π)
      (hrunning : s.running = some (node, state))
  | advanced (l : CronLoop π) (hl : s.loop node g = some l)
      (hmove : l.arm s.now = some l' ∨ l.wake s.now = some l' ∨ l.quit = some l')
  | fired (l : CronLoop π) (tick : CronTickMessage π) (hl : s.loop node g = some l)
      (hfire : l.fire = some (tick, l'))

variable {node : String} {g next t : ℕ} {l l' : CronLoop π}

variable {g' : ℕ} {l₁ : CronLoop π}

theorem loopStep_of_set (hl : s.loop node g = some l)
    (h : s'.services node = { s.services node with loops := (s.services node).loops.set g l₁ })
    (hl' : s'.loop node g' = some l') (hstep : LoopStep s s' node g l₁) :
    LoopStep s s' node g' l' := by
  rw [loop_of_set hl h] at hl'
  split_ifs at hl' with hg
  · cases hl'
    rw [hg]
    exact hstep
  · exact .kept l' hl' rfl rfl id

theorem loopStep_step (h : s.step parse codec spec a = some (s', es))
    (hl' : s'.loop node g = some l') : LoopStep s s' node g l' := by
  cases moves_step h node with
  | same hloops hsubs hflag hquiet hsilent =>
    rw [loop, hloops] at hl'
    exact .kept l' hl' rfl rfl id
  | handled state ask command ha hrunning hservice hstate hes =>
    have hprogress := CronBrokerService.progress_handler parse (s.services node) state ask command
    rw [← hservice] at hprogress
    cases hl : s.loop node g with
    | none => exact .begun hl (hprogress.new g l' hl' hl).1 state hrunning
    | some l =>
      obtain ⟨l₁, hl1, hsub, hphase, hcancelled⟩ := hprogress.old g l hl
      have heq : l' = l₁ := Option.some.inj (hl'.symm.trans hl1)
      subst heq
      exact .kept l hl hsub hphase hcancelled
  | advanced g1 l l₁ hl hmove hservice hes =>
    exact loopStep_of_set hl hservice hl' (.advanced l hl hmove)
  | fired g1 l l₁ tick hl hfire hservice hes =>
    exact loopStep_of_set hl hservice hl' (.fired l tick hl hfire)

theorem exists_loop_of_set (hl : s.loop node g = some l)
    (h : s'.services node = { s.services node with loops := (s.services node).loops.set g l' })
    (hl₁ : s.loop node g' = some l₁) : ∃ l₁', s'.loop node g' = some l₁' := by
  rw [loop_of_set hl h]
  split_ifs
  · exact ⟨l', rfl⟩
  · exact ⟨l₁, hl₁⟩

theorem loop_isSome_step (h : s.step parse codec spec a = some (s', es))
    (hl : s.loop node g = some l) : ∃ l', s'.loop node g = some l' := by
  cases moves_step h node with
  | same hloops hsubs hflag hquiet hsilent => exact ⟨l, by rw [loop, hloops]; exact hl⟩
  | handled state ask command ha hrunning hservice hstate hes =>
    have hprogress := CronBrokerService.progress_handler parse (s.services node) state ask command
    rw [← hservice] at hprogress
    obtain ⟨l', hl', -⟩ := hprogress.old g l hl
    exact ⟨l', hl'⟩
  | advanced g1 l₁ l1' hl1 hmove hservice hes | fired g1 l₁ l1' tick hl1 hfire hservice hes =>
    exact exists_loop_of_set hl1 hservice hl

variable {actorID : String} {tick : CronTickMessage π}

theorem ticked_step (h : s.step parse codec spec a = some (s', es))
    (hmem : .ticked node g actorID tick ∈ es) :
    ∃ l l', s.loop node g = some l ∧ l.fire = some (tick, l') ∧
      es = [.ticked node g actorID tick] := by
  cases moves_step h node with
  | same hloops hsubs hflag hquiet hsilent => exact absurd hmem (hsilent g actorID tick)
  | handled state ask command ha hrunning hservice hstate hes =>
    rw [hes] at hmem
    simp at hmem
  | advanced g1 l l' hl hmove hservice hes =>
    rw [hes] at hmem
    cases hmem
  | fired g1 l l' tick' hl hfire hservice hes =>
    rw [hes] at hmem
    cases mem_singleton.mp hmem
    exact ⟨l, l', hl, hfire, hes⟩

/-! ### Goroutines at rest -/

theorem atRest_step (h : s.step parse codec spec a = some (s', es))
    (hl' : s'.loop node g = some l') (hrest : ∀ l, s.loop node g = some l → l.AtRest s.now)
    (hidle : s.loop node g = none → ∀ state, s.running ≠ some (node, state)) :
    l'.AtRest s'.now := by
  refine CronLoop.AtRest.later ?_ (now_step h)
  cases loopStep_step h hl' with
  | kept l hl hsub hphase hcancelled => exact (hrest l hl).cancelled hsub hphase hcancelled
  | begun hnone hphase state hrunning => exact absurd hrunning (hidle hnone state)
  | advanced l hl hmove =>
    rcases hmove with harm | hwake | hquit
    · exact (hrest l hl).arm harm
    · exact (hrest l hl).wake hwake
    · exact atRest_of_ended (quit_eq_some hquit).2 s.now
  | fired l tick hl hfire => exact absurd (hrest l hl) (not_atRest_of_fire hfire s.now)

variable (parse codec spec) in
/-- A run may go on with a tick of this goroutine. -/
def MayTick (s : CronCluster π β) (node : String) (g : ℕ) : Prop :=
  ∃ tr s', Run (step parse codec spec) anyStep s tr s' ∧
    ∃ actorID tick, .ticked node g actorID tick ∈ tr

theorem not_mayTick_of_atRest (hl : s.loop node g = some l) (hrest : l.AtRest s.now) :
    ¬ MayTick parse codec spec s node g := by
  rintro ⟨tr, s', hrun, actorID, tick, hmem⟩
  have hinv := hrun.invariant
    (fun tr s' => (∃ l', s'.loop node g = some l' ∧ l'.AtRest s'.now) ∧
      ∀ actorID tick, .ticked node g actorID tick ∉ tr) ⟨⟨l, hl, hrest⟩, by simp⟩ ?_
  · exact hinv.2 actorID tick hmem
  · rintro tr s1 a s2 es ⟨⟨l₁, hl1, hrest1⟩, hnone⟩ - h
    have hrest' : ∀ l, s1.loop node g = some l → l.AtRest s1.now := by
      intro l hl
      rw [hl1, some.injEq] at hl
      exact hl ▸ hrest1
    obtain ⟨l2, hl2⟩ := loop_isSome_step h hl1
    refine ⟨⟨l2, hl2, atRest_step h hl2 hrest' ?_⟩, fun actorID tick hmem => ?_⟩
    · intro hno
      rw [hl1] at hno
      cases hno
    · rcases mem_append.mp hmem with hold | hnew
      · exact hnone actorID tick hold
      · obtain ⟨l3, l3', hl3, hfire, -⟩ := ticked_step h hnew
        exact not_atRest_of_fire hfire s1.now (hrest' l3 hl3)

theorem MayTick.of_step {s₁ : CronCluster π β} (h : s.step parse codec spec a = some (s₁, es))
    (hmay : MayTick parse codec spec s₁ node g) : MayTick parse codec spec s node g := by
  obtain ⟨tr, s', hrun, actorID, tick, hmem⟩ := hmay
  have hfirst : Run (step parse codec spec) anyStep s ([] ++ es) s₁ := .step .refl trivial h
  exact ⟨_, s', hfirst.trans hrun, actorID, tick, mem_append_right _ hmem⟩

section
variable (hl : s.loop node g = some l)
include hl

theorem loop_setLoop (l' : CronLoop π) : (s.setLoop node g l').loop node g = some l' := by
  have h : (s.setLoop node g l').services node =
      { s.services node with loops := (s.services node).loops.set g l' } := by
    simp [setLoop, setService]
  rw [loop_of_set hl h, if_pos rfl]

theorem mayTick_of_due (hphase : l.phase = .due next) : MayTick parse codec spec s node g := by
  have hfire : l.fire = some (l.tick next, { l with phase := .top }) := by
    simp [fire, hphase]
  have h : s.step parse codec spec (.fire node g) = some (s.setLoop node g { l with phase := .top },
        [.ticked node g l.sub.actorID (l.tick next)]) := by
    simp [step, hl, hfire]
  exact ⟨_, _, .step .refl trivial h, l.sub.actorID, l.tick next, by simp⟩

theorem mayTick_of_waiting (hphase : l.phase = .waiting next) (hcancelled : l.cancelled = false) :
    MayTick parse codec spec s node g := by
  -- the timer fires, at the latest after as long as it was set to
  let s1 : CronCluster π β := { s with now := s.now + next }
  have helapse : s.step parse codec spec (.elapse next) = some (s1, []) := rfl
  have hl1 : s1.loop node g = some l := hl
  have hwake : l.wake s1.now = some { l with phase := .due next } := by
    simp [wake, hphase, hcancelled, s1]
  have h : s1.step parse codec spec (.wake node g) =
      some (s1.setLoop node g { l with phase := .due next }, []) := by
    simp [step, hl1, hwake]
  exact .of_step helapse (.of_step h (mayTick_of_due (loop_setLoop hl1 _) rfl))

theorem mayTick_of_top (hphase : l.phase = .top) (hcancelled : l.cancelled = false)
    (ht : s.now ≤ t) (hnext : l.sub.schedule.next t = some next) :
    MayTick parse codec spec s node g := by
  let s1 : CronCluster π β := { s with now := t }
  have helapse : s.step parse codec spec (.elapse (t - s.now)) = some (s1, []) := by
    simp only [step, Nat.add_sub_cancel' ht, s1]
  have hl1 : s1.loop node g = some l := hl
  have harm : l.arm s1.now = some { l with phase := .waiting next } := by
    simp [arm, hphase, hcancelled, s1, hnext]
  have h : s1.step parse codec spec (.arm node g) =
      some (s1.setLoop node g { l with phase := .waiting next }, []) := by
    simp [step, hl1, harm]
  exact .of_step helapse (.of_step h (mayTick_of_waiting (loop_setLoop hl1 _) rfl hcancelled))

theorem mayTick_iff : MayTick parse codec spec s node g ↔ ¬ l.AtRest s.now := by
  constructor
  · exact fun hmay hrest => not_mayTick_of_atRest hl hrest hmay
  · intro hrest
    cases hphase : l.phase with
    | ended => simp [CronLoop.AtRest, hphase] at hrest
    | due next => exact mayTick_of_due hl hphase
    | waiting next =>
      simp only [CronLoop.AtRest, hphase, Bool.not_eq_true] at hrest
      exact mayTick_of_waiting hl hphase hrest
    | top =>
      simp only [CronLoop.AtRest, hphase, not_or, Bool.not_eq_true, not_forall] at hrest
      obtain ⟨hcancelled, t, ht, hnext⟩ := hrest
      obtain ⟨next, hnext⟩ := ne_none_iff_exists'.mp hnext
      exact mayTick_of_top hl hphase hcancelled ht hnext

end

/-! ### Runs whose stops find the goroutines at rest -/

/-- The actor is stopped only while all goroutines of its service are at rest. -/
def stopsAtRest (s : CronCluster π β) (a : CronAction π) : Prop :=
  ∀ node, a = .stop node ∨ a = .capture node → ∀ l ∈ (s.services node).loops, l.AtRest s.now

/-- Only the actor's node has goroutines not at rest, and they are ahead of all ticks of the other
nodes. -/
structure Alone (tr : List (CronEvent π)) (s : CronCluster π β) : Prop where
  idle : ∀ node, (∀ state, s.running ≠ some (node, state)) →
    ∀ g (l : CronLoop π), s.loop node g = some l → l.AtRest s.now
  past : ∀ node g actorID tick, .ticked node g actorID tick ∈ tr → tick.firedAt ≤ s.now
  due : ∀ node g (l : CronLoop π) t, s.loop node g = some l → l.phase = .due t → t ≤ s.now
  ahead : ∀ node g (l : CronLoop π) t, s.loop node g = some l →
    l.phase = .waiting t ∨ l.phase = .due t → ¬ l.AtRest s.now →
      ∀ node' g' actorID tick, .ticked node' g' actorID tick ∈ tr → node' ≠ node → tick.firedAt < t
  distinct : ∀ node g actorID tick node' g' actorID' tick',
    .ticked node g actorID tick ∈ tr → .ticked node' g' actorID' tick' ∈ tr →
      tick.firedAt = tick'.firedAt → node = node'

theorem alone_new (cronID : String) : Alone [] (new cronID : CronCluster π β) where
  idle _ _ _ _ hl := nomatch hl
  past _ _ _ _ hmem := nomatch hmem
  due _ _ _ _ hl := nomatch hl
  ahead _ _ _ _ hl := nomatch hl
  distinct _ _ _ _ _ _ _ _ hmem := nomatch hmem

section

variable (h : s.step parse codec spec a = some (s', es))

include h

theorem idle_or_halted (hidle : ∀ state, s'.running ≠ some (node, state)) :
    (∀ state, s.running ≠ some (node, state)) ∨
      (a = .stop node ∨ a = .capture node) ∧ s'.services = s.services ∧ s'.now = s.now := by
  cases shift_step h with
  | kept hrunning hflight hflag =>
    rw [hrunning] at hidle
    exact .inl hidle
  | handled node' state state' hrunning hrunning' hflight hflag =>
    refine .inl fun state1 hrun => ?_
    rw [hrunning] at hrun
    cases hrun
    exact hidle state' hrunning'
  | activated node' handoffState hnone hdecoded hrunning' hflight =>
    refine .inl fun state1 hrun => ?_
    rw [hnone] at hrun
    cases hrun
  | halted node' state ha hrunning hrunning' hservices hnow hflight =>
    by_cases hnode : node = node'
    · subst hnode
      exact .inr ⟨ha, hservices, hnow⟩
    · refine .inl fun state1 hrun => ?_
      rw [hrunning] at hrun
      cases hrun
      exact hnode rfl

theorem Alone.idle_step (ha : Alone tr s) (hguard : stopsAtRest s a)
    (hidle : ∀ state, s'.running ≠ some (node, state)) (hl' : s'.loop node g = some l') :
    l'.AtRest s'.now := by
  rcases idle_or_halted h hidle with hbefore | ⟨hstop, hservices, hnow⟩
  · exact atRest_step h hl' (fun l hl => ha.idle node hbefore g l hl) fun _ => hbefore
  · rw [loop, hservices] at hl'
    rw [hnow]
    exact hguard node hstop l' (mem_of_getElem? hl')

theorem armed_step (hl' : s'.loop node g = some l')
    (hphase : l'.phase = .waiting t ∨ l'.phase = .due t) (hrest : ¬ l'.AtRest s'.now) :
    s.now < t ∨ ∃ l, s.loop node g = some l ∧ (l.phase = .waiting t ∨ l.phase = .due t) ∧
      ¬ l.AtRest s.now := by
  cases loopStep_step h hl' with
  | kept l hl hsub hphase' hcancelled =>
    rw [hphase'] at hphase
    refine .inr ⟨l, hl, hphase, fun hl_rest => hrest ?_⟩
    exact (hl_rest.cancelled hsub hphase' hcancelled).later (now_step h)
  | begun hnone htop state hrunning => simp [htop] at hphase
  | advanced l hl hmove =>
    rcases hmove with harm | hwake | hquit
    · obtain ⟨-, -, hended | ⟨next, hwaiting, -, hnext⟩⟩ := arm_eq_some harm
      · simp [hended] at hphase
      · have ht : next = t := by simpa [hwaiting] using hphase
        exact .inl (ht ▸ l.sub.schedule.later s.now next hnext)
    · obtain ⟨-, next, hwaiting, -, hended | ⟨hdue, hcancelled⟩⟩ := wake_eq_some hwake
      · simp [hended] at hphase
      · have ht : next = t := by simpa [hdue] using hphase
        exact .inr ⟨l, hl, .inl (ht ▸ hwaiting), by simp [CronLoop.AtRest, hwaiting, hcancelled]⟩
    · simp [(quit_eq_some hquit).2] at hphase
  | fired l tick hl hfire =>
    obtain ⟨next, -, -, rfl⟩ := fire_eq_some hfire
    simp at hphase

theorem due_step (hl' : s'.loop node g = some l') (hphase : l'.phase = .due t)
    (hdue : ∀ l : CronLoop π, s.loop node g = some l → l.phase = .due t → t ≤ s.now) :
    t ≤ s'.now := by
  refine Nat.le_trans ?_ (now_step h)
  cases loopStep_step h hl' with
  | kept l hl hsub hphase' hcancelled => exact hdue l hl (hphase' ▸ hphase)
  | begun hnone htop state hrunning => simp [htop] at hphase
  | advanced l hl hmove =>
    rcases hmove with harm | hwake | hquit
    · obtain ⟨-, -, hended | ⟨next, hwaiting, -⟩⟩ := arm_eq_some harm
      · simp [hended] at hphase
      · simp [hwaiting] at hphase
    · obtain ⟨-, next, -, hle, hended | ⟨hdue', -⟩⟩ := wake_eq_some hwake
      · simp [hended] at hphase
      · have ht : next = t := by simpa [hdue'] using hphase
        exact ht ▸ hle
    · simp [(quit_eq_some hquit).2] at hphase
  | fired l tick hl hfire =>
    obtain ⟨next, -, -, rfl⟩ := fire_eq_some hfire
    simp at hphase

theorem Alone.ticked_step (ha : Alone tr s) (hmem : .ticked node g actorID tick ∈ es) :
    (∃ state, s.running = some (node, state)) ∧ tick.firedAt ≤ s.now ∧
      es = [.ticked node g actorID tick] ∧
      ∀ node' g' actorID' tick', .ticked node' g' actorID' tick' ∈ tr → node' ≠ node →
        tick'.firedAt < tick.firedAt := by
  obtain ⟨l, l', hl, hfire, hes⟩ := CronCluster.ticked_step h hmem
  have hrest := not_atRest_of_fire hfire s.now
  obtain ⟨next, hdue, rfl, -⟩ := fire_eq_some hfire
  refine ⟨?_, ha.due node g l next hl hdue, hes, ha.ahead node g l next hl (.inr hdue) hrest⟩
  by_contra hno
  exact hrest (ha.idle node (fun state hrun => hno ⟨state, hrun⟩) g l hl)

theorem Alone.step (ha : Alone tr s) (hguard : stopsAtRest s a) : Alone (tr ++ es) s' where
  idle node hidle g l' hl' := ha.idle_step h hguard hidle hl'
  past node g actorID tick hmem := by
    rcases mem_append.mp hmem with hold | hnew
    · exact (ha.past node g actorID tick hold).trans (now_step h)
    · exact (ha.ticked_step h hnew).2.1.trans (now_step h)
  due node g l' t hl' hphase := due_step h hl' hphase fun l hl => ha.due node g l t hl
  ahead node g l' t hl' hphase hrest node' g' actorID tick hmem hne := by
    rcases mem_append.mp hmem with hold | hnew
    · rcases armed_step h hl' hphase hrest with hlater | ⟨l, hl, hphase', hrest'⟩
      · exact (ha.past node' g' actorID tick hold).trans_lt hlater
      · exact ha.ahead node g l t hl hphase' hrest' node' g' actorID tick hold hne
    · -- the actor runs on the node that sends, so the goroutines of this one are at rest
      obtain ⟨⟨state, hrunning⟩, -⟩ := ha.ticked_step h hnew
      have hidle : ∀ state', s.running ≠ some (node, state') := by
        intro state' hrun
        rw [hrunning] at hrun
        cases hrun
        exact hne rfl
      exact absurd (atRest_step h hl' (fun l hl => ha.idle node hidle g l hl) fun _ => hidle) hrest
  distinct node g actorID tick node' g' actorID' tick' hmem hmem' hsame := by
    by_contra hne
    rcases mem_append.mp hmem with hold | hnew
    · rcases mem_append.mp hmem' with hold' | hnew'
      · exact hne (ha.distinct _ _ _ _ _ _ _ _ hold hold' hsame)
      · have hlt := (ha.ticked_step h hnew').2.2.2 _ _ _ _ hold hne
        omega
    · obtain ⟨-, -, hes, hbefore⟩ := ha.ticked_step h hnew
      rcases mem_append.mp hmem' with hold' | hnew'
      · have hlt := hbefore _ _ _ _ hold' (Ne.symm hne)
        omega
      · rw [hes] at hnew'
        cases mem_singleton.mp hnew'
        exact hne rfl

theorem services_halted (hstop : a = .stop node ∨ a = .capture node) :
    s'.services = s.services ∧ s'.now = s.now := by
  cases turn_of_step h with
  | capture | stop => exact ⟨rfl, rfl⟩
  | elapse | activate | message | notified | fired => simp at hstop
  | advanced node g l l' ha => rcases ha with rfl | rfl | rfl <;> simp at hstop

end

/-- The actor is stopped only while all subscriptions of its service are cancelled. -/
def stopsCancelled (s : CronCluster ℕ (CronState ℕ)) : CronAction ℕ → Bool
  | .stop node | .capture node =>
    (s.services node).loops.all fun l => l.cancelled && decide (l.phase = .top)
  | _ => true

theorem stopsAtRest_of_stopsCancelled {s : CronCluster ℕ (CronState ℕ)} {a : CronAction ℕ}
    (h : stopsCancelled s a = true) : stopsAtRest s a := by
  rintro node (rfl | rfl) l hl
  all_goals
    simp only [stopsCancelled, List.all_eq_true, Bool.and_eq_true, decide_eq_true_eq] at h
    simp [CronLoop.AtRest, h l hl]

end CronCluster
end Westcoast
