import Mathlib.Data.List.Perm.Basic
import Westcoast.Actor.Monitors

/-!
# Each monitor fires at most once

`drain` hands the monitors of an actor ID to the goroutine that has stopped the actor, which sends
their messages without the mutex: in any order, from `sending`. The map forgets a drained slice
(`drain_forgets`), so slices are lists here.
-/
namespace Westcoast

open Lib List

/-- The monitors of a runtime, and those whose messages are still to be sent. -/
structure Watch where
  manager : MonitorManager
  sending : List MonitorEntry

inductive WatchAction
  | monitor (watcher target : PID)
  | demonitor (ref : MonitorRef)
  | drain (actorID : String)
  | send (k : ℕ)

inductive WatchEvent
  | monitored (ref : MonitorRef)
  /-- `Demonitor` returned. -/
  | demonitored (ref : MonitorRef)
  | drained (entries : List MonitorEntry)
  /-- A `DownMessage` is sent. -/
  | down (entry : MonitorEntry)

namespace Watch

def new : Watch := ⟨.new, []⟩

def step (s : Watch) : WatchAction → Option (Watch × List WatchEvent)
  | .monitor watcher target =>
    some ({ s with manager := (s.manager.add watcher target).2 },
      [.monitored (s.manager.add watcher target).1])
  | .demonitor ref => some ({ s with manager := (s.manager.remove ref).2 }, [.demonitored ref])
  | .drain actorID =>
    some (⟨(s.manager.drain actorID).2, s.sending ++ (s.manager.drain actorID).1⟩,
      [.drained (s.manager.drain actorID).1])
  | .send k => s.sending[k]?.map fun e => ({ s with sending := s.sending.eraseIdx k }, [.down e])

/-- References come from `Monitor`. -/
def Known (s : Watch) : WatchAction → Prop
  | .demonitor ref => ref.id ≤ s.manager.table.seq
  | _ => True

instance knownDecidable (s : Watch) (a : WatchAction) : Decidable (s.Known a) := by
  cases a <;> unfold Known <;> infer_instance

def downs (tr : List WatchEvent) : List ℕ :=
  tr.filterMap fun
    | .down e => some e.ref.id
    | _ => none

/-- The references for which a message was or will be sent. -/
def fired (tr : List WatchEvent) (s : Watch) : List ℕ := downs tr ++ s.sending.map (·.ref.id)

/-- The reference was given out, and has no monitor any more. -/
def Spent (s : Watch) (n : ℕ) : Prop :=
  n ≤ s.manager.table.seq ∧ s.manager.table.byRef.lookup n = none

/-- Nothing is drained that was cancelled before. -/
def Respects (pre : List WatchEvent) : WatchEvent → Prop
  | .drained entries => ∀ ref, .demonitored ref ∈ pre → ref.id ∉ entries.map (·.ref.id)
  | _ => True

structure Fired (tr : List WatchEvent) (s : Watch) : Prop where
  nodup : (fired tr s).Nodup
  spent : ∀ n ∈ fired tr s, s.Spent n
  cancelled : ∀ ref, .demonitored ref ∈ tr → s.Spent ref.id
  respects : ∀ pre e post, tr = pre ++ e :: post → Respects pre e

variable {tr : List WatchEvent} {s s' : Watch}

theorem Fired.snoc {e : WatchEvent} (h : Fired tr s) (hkeep : ∀ n, s.Spent n → s'.Spent n)
    (hnodup : (fired (tr ++ [e]) s').Nodup)
    (hfired : ∀ n ∈ fired (tr ++ [e]) s', n ∈ fired tr s ∨ s'.Spent n)
    (hcancel : ∀ ref, e = .demonitored ref → s'.Spent ref.id) (hrespects : Respects tr e) :
    Fired (tr ++ [e]) s' where
  nodup := hnodup
  spent n hn := (hfired n hn).elim (fun hold => hkeep n (h.spent n hold)) id
  cancelled ref hmem := by
    rcases mem_append.mp hmem with hold | hnew
    · exact hkeep _ (h.cancelled ref hold)
    · exact hcancel ref (mem_singleton.mp hnew).symm
  respects := forall_split_snoc h.respects hrespects

theorem Fired.step {a : WatchAction} {es : List WatchEvent} (h : Fired tr s) (hknown : s.Known a)
    (hs : s.step a = some (s', es)) : Fired (tr ++ es) s' := by
  cases a with
  | monitor watcher target =>
    cases hs
    have hsame : ∀ ref, fired (tr ++ [.monitored ref])
        { s with manager := (s.manager.add watcher target).2 } = fired tr s := by
      simp [fired, downs]
    refine h.snoc (fun n hn => ⟨Nat.le_succ_of_le hn.1, ?_⟩) (hsame _ ▸ h.nodup)
      (fun n hn => .inl (hsame _ ▸ hn)) (fun _ he => by cases he) trivial
    have hne : n ≠ s.manager.table.seq + 1 := by
      have := hn.1
      omega
    exact (MonitorTable.lookup_add _ _ _ n).trans ((if_neg hne).trans hn.2)
  | demonitor ref =>
    cases hs
    have hsame : fired (tr ++ [.demonitored ref]) { s with manager := (s.manager.remove ref).2 } =
        fired tr s := by simp [fired, downs]
    have hspent : ∀ n, n = ref.id ∨ s.Spent n →
        Spent { s with manager := (s.manager.remove ref).2 } n := by
      rintro n (rfl | hn)
      · refine ⟨hknown.trans (s.manager.seq_remove ref).ge, ?_⟩
        exact (MonitorTable.lookup_remove _ _ _).trans (if_pos rfl)
      · refine ⟨hn.1.trans (s.manager.seq_remove ref).ge, ?_⟩
        refine (MonitorTable.lookup_remove _ _ _).trans ?_
        rw [hn.2, ite_self]
    refine h.snoc (fun n hn => hspent n (.inr hn)) (hsame ▸ h.nodup)
      (fun n hn => .inl (hsame ▸ hn)) (fun _ he => ?_) trivial
    cases he
    exact hspent _ (.inl rfl)
  | drain actorID =>
    cases hs
    have hactive : ∀ e ∈ (s.manager.drain actorID).1, ¬ s.Spent e.ref.id := fun e he hspent => by
      have hlook := ((s.manager.indexed.listed actorID e).mp he).1
      rw [hspent.2] at hlook
      cases hlook
    have hfired : ∀ entries, fired (tr ++ [.drained entries])
        ⟨(s.manager.drain actorID).2, s.sending ++ (s.manager.drain actorID).1⟩ =
          fired tr s ++ (s.manager.drain actorID).1.map (·.ref.id) := by simp [fired, downs]
    refine h.snoc (fun n hn => ⟨hn.1, Option.eq_none_iff_forall_ne_some.mpr fun e he => ?_⟩) ?_
      (fun n hn => ?_) (fun _ he => by cases he) fun ref hmem hin => ?_
    · obtain ⟨hold, -⟩ := (s.manager.indexed.lookup_drain actorID n e).mp he
      rw [hn.2] at hold
      cases hold
    · rw [hfired, nodup_append]
      refine ⟨h.nodup, s.manager.indexed.nodup actorID, fun n hn m hm heq => ?_⟩
      obtain ⟨e, he, rfl⟩ := mem_map.mp hm
      exact hactive e he (heq ▸ h.spent n hn)
    · rw [hfired, mem_append] at hn
      refine hn.imp_right fun hn => ?_
      obtain ⟨e, he, rfl⟩ := mem_map.mp hn
      have hlook := ((s.manager.indexed.listed actorID e).mp he).1
      exact ⟨(s.manager.indexed.keyed _ _ hlook).2, (s.manager.drain_forgets actorID).2 e he⟩
    · obtain ⟨e, he, heq⟩ := mem_map.mp hin
      exact hactive e he (heq ▸ h.cancelled ref hmem)
  | send k =>
    obtain ⟨e, hk, heq⟩ := Option.map_eq_some_iff.mp hs
    cases heq
    obtain ⟨hlt, rfl⟩ := List.getElem?_eq_some_iff.mp hk
    have hperm : (fired (tr ++ [.down s.sending[k]])
        { s with sending := s.sending.eraseIdx k }).Perm (fired tr s) := by
      have hmove := (getElem_cons_eraseIdx_perm hlt).map (·.ref.id)
      simpa [fired, downs] using hmove.append_left (downs tr)
    exact h.snoc (fun _ => id) (hperm.nodup_iff.mpr h.nodup)
      (fun n hn => .inl (hperm.mem_iff.mp hn)) (fun _ he => by cases he) trivial

theorem fired_of_run (hrun : Run step Known new tr s) : Fired tr s := by
  refine hrun.invariant Fired ?_ fun _ _ _ _ _ h hknown hs => h.step hknown hs
  exact ⟨nodup_nil, by simp [fired, downs, new], by simp, by simp⟩

theorem watching_remove (mm : MonitorManager) (ref : MonitorRef) (id : String) :
    ((mm.remove ref).2.table.watching id).Perm
      ((mm.table.watching id).filter fun e => e.ref.id ≠ ref.id) := by
  have hnodup : ∀ mm : MonitorManager, (mm.table.watching id).Nodup := fun mm => mm.nodup_drain id
  refine (perm_ext_iff_of_nodup (hnodup _) ((hnodup mm).filter _)).mpr fun e => ?_
  have hlookup := mm.table.lookup_remove ref e.ref.id
  rw [(mm.remove ref).2.indexed.listed, mem_filter, mm.indexed.listed]
  by_cases hne : e.ref.id = ref.id <;> simp_all [MonitorManager.remove]

end Watch
end Westcoast
