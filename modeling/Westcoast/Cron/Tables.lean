import Westcoast.Cron.Singleton
import Westcoast.Lib.SetMap

/-!
# The subscription tables of a cron service

`subs` and `byActor` hold the same subscriptions as long as no reference is given out twice. The
counter of the references is not handed off, so a service counts up to the references of restored
entries and gives them out again; and `byActor` goes by the actor ID alone.
-/
namespace Westcoast.CronBrokerService

open Lib List Option CronBrokerService

variable {π : Type}

/-- A turn of the loop of `restoreFromHandoff`, or a message after it. -/
inductive TableAction (π : Type)
  | restore (entry : CronHandoffEntry π)
  | command (ask : Option AskRequestContext) (command : CronCommand π)

section
variable (parse : String → Option CronSchedule) (P : PID → Prop) (cs : CronBrokerService π)

def step : TableAction π → Option (CronBrokerService π × List (CronServiceEvent π))
  | .restore entry => some (restoreEntry parse (cs, []) entry)
  | .command ask command => some (cs.dispatch parse ask command)

/-- The reference of the `n`-th subscription. -/
def refID (n : ℕ) : String := "cron-" ++ cs.cronID ++ "-" ++ n.repr

/-- The subscriptions that were ever made, in the order of their goroutines. -/
def started : List (CronSubscription π) := cs.loops.map (·.sub)

/-- All subscribers have a property, and no subscription of the service has had the reference that
is restored, or drawn for a new subscription. -/
def Tidy : TableAction π → Prop
  | .restore entry => P ⟨cs.nodeID, entry.actorID, 1⟩ ∧ entry.refID ∉ cs.started.map (·.ref.id)
  | .command (some _) (.subscribe subscriber _ _ _) =>
    P subscriber ∧ cs.refID (cs.seq + 1) ∉ cs.started.map (·.ref.id)
  | .command _ _ => True

/-- What holds of the subscriptions, whatever `byActor` is. -/
structure Sound : Prop where
  nodup : (cs.started.map (·.ref.id)).Nodup
  entered : ∀ r sub, cs.subs.lookup r = some sub → sub.ref.id = r ∧
    sub.actorID = sub.subscriber.actorID ∧ P sub.subscriber ∧ cs.started[sub.cancel]? = some sub
  running : ∀ (g : ℕ) (l : CronLoop π), cs.loops[g]? = some l → l.cancelled = false →
    cs.subs.lookup l.sub.ref.id = some l.sub ∧ l.sub.cancel = g

structure Consistent : Prop extends Sound P cs where
  indexed : ∀ a r, r ∈ cs.refsOf a ↔ ∃ sub, cs.subs.lookup r = some sub ∧ sub.actorID = a

end

variable {parse : String → Option CronSchedule} {P : PID → Prop} {cs : CronBrokerService π}

/-! ### A subscription is made -/

theorem mem_refsOf_start {ref : CronRef} {subscriber : PID} {schedule : CronSchedule} {payload : π}
    {tag a r : String} : r ∈ (cs.start ref subscriber schedule payload tag).refsOf a ↔
      a = subscriber.actorID ∧ r = ref.id ∨ r ∈ cs.refsOf a :=
  mem_members_addTo

theorem Consistent.start (h : Consistent P cs) {ref : CronRef} {subscriber : PID}
    (hP : P subscriber) (hnew : ref.id ∉ cs.started.map (·.ref.id)) (schedule : CronSchedule)
    (payload : π) (tag : String) : Consistent P (cs.start ref subscriber schedule payload tag) := by
  have hfree : cs.subs.lookup ref.id = none := by
    refine eq_none_iff_forall_ne_some.mpr fun sub hsub => ?_
    obtain ⟨hid, -, -, hstarted⟩ := h.entered _ sub hsub
    exact hnew (hid ▸ mem_map_of_mem (mem_of_getElem? hstarted))
  have hstarted : (cs.start ref subscriber schedule payload tag).started = cs.started ++
      [⟨ref, subscriber, subscriber.actorID, schedule, payload, tag,
        (cs.monitors.add ⟨subscriber.ns, cs.cronID, 1⟩ subscriber).1, cs.loops.length⟩] := by
    simp [started, CronBrokerService.start]
  have hlength : cs.loops.length = cs.started.length := by simp [started]
  refine ⟨⟨?_, fun r sub hsub => ?_, fun g l hl hlive => ?_⟩, fun a r => ?_⟩
  · rw [hstarted, map_append, map_singleton, ← concat_eq_append]
    exact h.nodup.concat hnew
  · simp only [CronBrokerService.start, lookup_insert_ite] at hsub
    rw [hstarted]
    split_ifs at hsub with hr
    · cases hsub
      exact ⟨hr.symm, rfl, hP, by rw [hlength, getElem?_concat_length]⟩
    · obtain ⟨hid, hactor, hp, hold⟩ := h.entered r sub hsub
      refine ⟨hid, hactor, hp, ?_⟩
      rw [List.getElem?_append_left (List.getElem?_eq_some_iff.mp hold).1, hold]
  · simp only [CronBrokerService.start, getElem?_append] at hl ⊢
    split_ifs at hl with hlt
    · obtain ⟨hold, hcancel⟩ := h.running g l hl hlive
      refine ⟨?_, hcancel⟩
      rw [AList.lookup_insert_ne, hold]
      exact fun hid => by rw [hid, hfree] at hold; cases hold
    · obtain ⟨hg, rfl⟩ : g - cs.loops.length = 0 ∧ _ = l := by
        simpa [getElem?_singleton] using hl
      exact ⟨AList.lookup_insert _, show cs.loops.length = g by omega⟩
  · rw [mem_refsOf_start, h.indexed]
    simp only [CronBrokerService.start, lookup_insert_ite]
    by_cases hr : r = ref.id
    · subst hr
      rw [hfree, if_pos rfl]
      simp [eq_comm]
    · simp [hr]

/-! ### Subscriptions are removed -/

theorem started_cancelLoop (cs : CronBrokerService π) (loop : ℕ) :
    (cs.cancelLoop loop).started = cs.started := by
  refine ext_getElem? fun g => ?_
  simp only [started, cancelLoop, getElem?_map, getElem?_modify]
  cases cs.loops[g]? <;> simp [apply_ite]

theorem subs_dropRef (cs : CronBrokerService π) (r : String) :
    (cs.dropRef r).subs = cs.subs.erase r := by
  unfold dropRef
  split
  · next hnone => rw [erase_eq_self.mpr hnone]
  · rfl

theorem Sound.dropRef (h : Sound P cs) (r : String) : Sound P (cs.dropRef r) := by
  unfold CronBrokerService.dropRef
  split
  · exact h
  next sub hsub =>
    have hstarted := cs.started_cancelLoop sub.cancel
    refine ⟨hstarted ▸ h.nodup, fun r' sub' hsub' => ?_, fun g l hl hlive => ?_⟩
    · simp only [lookup_erase_ite] at hsub'
      split_ifs at hsub'
      exact hstarted ▸ h.entered r' sub' hsub'
    · simp only [cancelLoop, List.getElem?_modify, Option.map_eq_map, Option.map_eq_some_iff] at hl
      obtain ⟨l0, hl, heq⟩ := hl
      by_cases hg : sub.cancel = g
      · rw [if_pos hg] at heq
        simp [← heq] at hlive
      · rw [if_neg hg] at heq
        subst heq
        obtain ⟨hold, hcancel⟩ := h.running g l0 hl hlive
        refine ⟨?_, hcancel⟩
        rw [lookup_erase_ite, if_neg, hold]
        intro hid
        rw [hid, hsub] at hold
        cases hold
        exact hg hcancel

theorem removeRef_eq (cs : CronBrokerService π) (r : String) : ∃ monitors byActor,
      cs.removeRef r = { cs.dropRef r with monitors := monitors, byActor := byActor } := by
  unfold removeRef dropRef
  split
  · exact ⟨_, _, rfl⟩
  · exact ⟨_, _, rfl⟩

theorem subs_removeRef (cs : CronBrokerService π) (r : String) :
    (cs.removeRef r).subs = cs.subs.erase r := by
  obtain ⟨monitors, byActor, heq⟩ := cs.removeRef_eq r
  rw [heq]
  exact cs.subs_dropRef r

theorem lookup_foldl {f : CronBrokerService π → String → CronBrokerService π}
    (hf : ∀ cs r, (f cs r).subs = cs.subs.erase r) (refs : List String)
    (cs : CronBrokerService π) (r : String) :
    (refs.foldl f cs).subs.lookup r = if r ∈ refs then none else cs.subs.lookup r := by
  have hsubs : (refs.foldl f cs).subs = refs.foldl (fun m r => m.erase r) cs.subs :=
    (foldl_hom subs fun cs r => (hf cs r).symm).symm
  rw [hsubs]
  simpa using lookup_foldl_erase id refs cs.subs r

theorem mem_refsOf_removeLocked {sub : CronSubscription π} {r r' a : String} :
    r' ∈ (cs.removeLocked r sub).refsOf a ↔ r' ∈ cs.refsOf a ∧ ¬ (a = sub.actorID ∧ r' = r) := by
  have hdrop : (cs.removeLocked r sub).byActor = dropFrom cs.byActor sub.actorID r := by
    cases hb : cs.byActor.lookup sub.actorID <;> simp [removeLocked, cancelLoop, dropFrom, hb]
  rw [refsOf, hdrop]
  exact mem_members_dropFrom

section

variable (h : Consistent P cs)

include h

theorem Consistent.removeRef (r : String) : Consistent P (cs.removeRef r) := by
  obtain ⟨monitors, byActor, heq⟩ := cs.removeRef_eq r
  have hdrop := h.toSound.dropRef r
  refine ⟨?_, fun a r' => ?_⟩
  · rw [heq]
    exact ⟨hdrop.nodup, hdrop.entered, hdrop.running⟩
  · rw [subs_removeRef, lookup_erase_ite]
    unfold CronBrokerService.removeRef
    split
    · next hnone =>
      rw [h.indexed]
      by_cases hr : r' = r
      · subst hr
        simp [hnone]
      · rw [if_neg hr]
    · next sub hsub =>
      rw [mem_refsOf_removeLocked, h.indexed]
      by_cases hr : r' = r
      · subst hr
        simp [hsub, eq_comm]
      · simp [hr]

theorem Consistent.actorID_of_mem {a r : String} {sub : CronSubscription π}
    (hmem : r ∈ cs.refsOf a) (hsub : cs.subs.lookup r = some sub) : sub.actorID = a := by
  obtain ⟨sub', hsub', ha⟩ := (h.indexed a r).mp hmem
  rw [hsub] at hsub'
  cases hsub'
  exact ha

theorem Consistent.handleDown (down : DownMessage) : Consistent P (cs.handleDown down) := by
  have hsound : Sound P ((cs.refsOf down.target.actorID).foldl dropRef cs) :=
    foldlRecOn _ _ h.toSound fun _ hs r _ => hs.dropRef r
  have hsame : ((cs.refsOf down.target.actorID).foldl dropRef cs).byActor =
      cs.byActor := by
    refine foldlRecOn (motive := fun cs' : CronBrokerService π => cs'.byActor = cs.byActor)
      _ _ rfl fun cs' hs r _ => ?_
    unfold dropRef
    split <;> exact hs
  refine ⟨⟨hsound.nodup, hsound.entered, hsound.running⟩, fun a r => ?_⟩
  have hlookup : (cs.handleDown down).subs.lookup r =
      if r ∈ cs.refsOf down.target.actorID then none else cs.subs.lookup r :=
    lookup_foldl subs_dropRef _ cs r
  have hrefs : r ∈ (cs.handleDown down).refsOf a ↔ a ≠ down.target.actorID ∧ r ∈ cs.refsOf a := by
    have hindex : (cs.handleDown down).byActor = cs.byActor.erase down.target.actorID :=
      congrArg (AList.erase _) hsame
    rw [refsOf, hindex, lookup_erase_ite]
    split_ifs with ha <;> simp [ha, refsOf]
  rw [hrefs, hlookup, h.indexed]
  constructor
  · rintro ⟨ha, sub, hsub, rfl⟩
    refine ⟨sub, ?_, rfl⟩
    rw [if_neg, hsub]
    exact fun hmem => ha (h.actorID_of_mem hmem hsub)
  · rintro ⟨sub, hsub, rfl⟩
    split_ifs at hsub with hmem
    exact ⟨fun ha => hmem ((h.indexed _ r).mpr ⟨sub, hsub, ha⟩), sub, hsub, rfl⟩

/-! ### All steps -/

theorem Consistent.step {a : TableAction π} {es : List (CronServiceEvent π)}
    {cs' : CronBrokerService π} (ht : cs.Tidy P a)
    (hs : cs.step parse a = some (cs', es)) : Consistent P cs' := by
  cases a with
  | restore entry =>
    obtain ⟨hP, hnew⟩ := ht
    obtain rfl : (restoreEntry parse (cs, []) entry).1 = cs' :=
      congrArg Prod.fst (some.inj hs)
    unfold restoreEntry
    split
    · exact h
    · exact h.start hP hnew _ _ _
  | command ask command =>
    obtain rfl : (cs.dispatch parse ask command).1 = cs' := congrArg Prod.fst (some.inj hs)
    cases command with
    | subscribe subscriber schedule payload tag =>
      cases ask with
      | none => exact h
      | some ask =>
        obtain ⟨hP, hnew⟩ := ht
        simp only [dispatch, handleSubscribe]
        split
        · exact h
        · next sched hsched =>
          -- the number is drawn first
          have hdrawn : Consistent P { cs with seq := cs.seq + 1 } :=
            ⟨⟨h.nodup, h.entered, h.running⟩, h.indexed⟩
          exact hdrawn.start hP hnew _ _ _
    | unsubscribe subscriber r =>
      cases ask with
      | none => exact h
      | some ask =>
        have hremoved := h.removeRef r
        simp only [dispatch, handleUnsubscribe]
        unfold CronBrokerService.removeRef at hremoved
        split at hremoved <;> next hsub => simpa only [hsub] using hremoved
    | unsubscribeAll subscriber =>
      cases ask with
      | none => exact h
      | some ask => exact foldlRecOn _ _ h fun _ hs r _ => hs.removeRef r
    | list subscriber | other =>
      cases ask with
      | none => exact h
      | some ask => exact h
    | down message => exact h.handleDown message

end

theorem consistent_of_run {nodeID cronID : String} {tr : List (CronServiceEvent π)}
    (hrun : Run (step parse) (Tidy P) (new nodeID cronID) tr cs) : Consistent P cs := by
  refine hrun.invariant_state (Consistent P) ?_ fun _ _ _ _ h ht hs => h.step ht hs
  refine ⟨⟨nodup_nil, ?_, ?_⟩, ?_⟩ <;> simp [new, started, refsOf]

/-- The subscription was made for the namespace and the actor ID of an identifier. -/
def MadeFor (p : PID) (sub : CronSubscription π) : Prop :=
  sub.subscriber.ns = p.ns ∧ sub.subscriber.actorID = p.actorID

/-- **The tables are consistent**, if the references restored and drawn are new, and an actor ID is
used in one namespace: they are inverse, no reference has two subscriptions, a goroutine that is not
cancelled has its entry, and the subscriptions of an identifier are those made for it.
Numbers do not wrap. -/
theorem tables_consistent (home : String → String) {nodeID cronID : String}
    {tr : List (CronServiceEvent π)} (hrun : Run (step parse)
      (Tidy fun p => p.ns = home p.actorID) (new nodeID cronID) tr cs) :
    (∀ a r, r ∈ cs.refsOf a ↔ ∃ sub, cs.subs.lookup r = some sub ∧ sub.actorID = a) ∧
    (cs.started.map (·.ref.id)).Nodup ∧
    (∀ (g : ℕ) (l : CronLoop π), cs.loops[g]? = some l → l.cancelled = false →
      cs.subs.lookup l.sub.ref.id = some l.sub ∧ l.sub.cancel = g) ∧
    ∀ ask p, p.ns = home p.actorID →
      (∃ refs, cs.handleList ask p =
          [.replied ask { operation := .list, result := .listSuccess, refs := refs }] ∧
        ∀ ref, ref ∈ refs ↔ ∃ r sub, cs.subs.lookup r = some sub ∧ MadeFor p sub ∧ sub.ref = ref) ∧
      ∀ r sub, (cs.handleUnsubscribeAll ask p).1.subs.lookup r = some sub ↔
        cs.subs.lookup r = some sub ∧ ¬ MadeFor p sub := by
  have h := consistent_of_run hrun
  refine ⟨h.indexed, h.nodup, h.running, fun ask p hp => ?_⟩
  have hmade : ∀ r sub, cs.subs.lookup r = some sub →
      (MadeFor p sub ↔ r ∈ cs.refsOf p.actorID) := by
    intro r sub hsub
    obtain ⟨-, hactor, hns, -⟩ := h.entered r sub hsub
    constructor
    · rintro ⟨-, ha⟩
      exact (h.indexed _ r).mpr ⟨sub, hsub, hactor.trans ha⟩
    · intro hmem
      have ha := hactor.symm.trans (h.actorID_of_mem hmem hsub)
      exact ⟨by rw [hns, ha, hp], ha⟩
  refine ⟨⟨_, rfl, fun ref => ?_⟩, fun r sub => ?_⟩
  · simp only [mem_filterMap, map_eq_some_iff]
    constructor
    · rintro ⟨r, hr, sub, hsub, rfl⟩
      exact ⟨r, sub, hsub, (hmade r sub hsub).mpr hr, rfl⟩
    · rintro ⟨r, sub, hsub, hfor, rfl⟩
      exact ⟨r, (hmade r sub hsub).mp hfor, sub, hsub, rfl⟩
  · have hleft : (cs.handleUnsubscribeAll ask p).1.subs.lookup r =
        if r ∈ cs.refsOf p.actorID then none else cs.subs.lookup r :=
      lookup_foldl subs_removeRef _ cs r
    rw [hleft, and_comm, and_congr_left fun hsub => not_congr (hmade r sub hsub)]
    split_ifs with hr <;> simp [hr]

open CronCluster (everySecond request)

def restoreA (refID : String) : TableAction ℕ := .restore ⟨refID, "a", "@every 1s", "t", 7⟩

def subscribeB : TableAction ℕ :=
  .command (some request) (.subscribe ⟨"n1", "b", 1⟩ "@every 1s" 7 "t")

/-- The old service has given `cron-c-1` and `cron-c-2` out and hands the second off. -/
theorem tables_consistent_restored : ∃ (tr : List (CronServiceEvent ℕ)) (cs : CronBrokerService ℕ),
    Run (step everySecond) (Tidy fun p => p.ns = "n1") (new "n1" "c") tr cs ∧
      "cron-c-2" ∈ cs.refsOf "a" ∧ "cron-c-1" ∈ cs.refsOf "b" ∧
      (cs.started.map (·.ref.id)).Nodup ∧ ∀ sub,
        (cs.handleUnsubscribeAll request ⟨"n1", "a", 2⟩).1.subs.lookup "cron-c-2" ≠ some sub := by
  have hrun : Run (step everySecond) (Tidy fun p => p.ns = "n1") (new "n1" "c") _ _ :=
    .step (a := subscribeB) (.step (a := restoreA "cron-c-2") .refl ⟨rfl, by decide⟩ rfl)
      ⟨rfl, by decide +kernel⟩ rfl
  obtain ⟨-, hnodup, -, hfor⟩ := tables_consistent (fun _ => "n1") hrun
  refine ⟨_, _, hrun, by decide +kernel, by decide +kernel, hnodup, fun sub hsub => ?_⟩
  obtain ⟨hlookup, hnot⟩ := ((hfor request ⟨"n1", "a", 2⟩ rfl).2 "cron-c-2" sub).mp hsub
  cases hlookup
  exact hnot ⟨rfl, rfl⟩

/-- The new service counts from 1 again and gives the restored reference out: the goroutine of the
first subscription runs on without an entry, and who unsubscribes from another node removes the
other. -/
theorem restored_reference_given_again :
    ∃ (tr : List (CronServiceEvent ℕ)) (cs : CronBrokerService ℕ),
      Run (step everySecond) anyStep (new "n1" "c") tr cs ∧
      (cs.started.map (·.ref.id) = ["cron-c-1", "cron-c-1"] ∧ "cron-c-1" ∈ cs.refsOf "a" ∧
        (cs.subs.lookup "cron-c-1").map (fun sub => (sub.actorID, sub.cancel)) = some ("b", 1) ∧
        cs.loops.map (·.cancelled) = [false, false] ∧
        ((cs.handleUnsubscribeAll request ⟨"n2", "b", 1⟩).1.subs.lookup "cron-c-1").isNone) :=
  Run.of_check [restoreA "cron-c-1", subscribeB] (by decide +kernel)

end Westcoast.CronBrokerService
