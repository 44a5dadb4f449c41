import Westcoast.Actor.Delivery
import Mathlib.Algebra.Order.Group.Multiset
import Mathlib.Tactic.Abel

/-!
# One outcome for every processed message

`Instance.ids` collects the identifier of every message the instance knows of: on its way, queued,
in the goroutine's hands or recorded. A step moves identifiers between these places or adds a fresh
one. The step after a call records one outcome for each message.
-/
namespace Westcoast

open Lib List ProcessingOutcome Mailbox Pc

variable {σ π : Type}

def CallResult.isOk : CallResult σ → Bool
  | .ok _ => true
  | .error | .panic => false

def Event.return? : Event σ π → Option (Call π × Bool)
  | .returned call result => some (call, result.isOk)
  | _ => none

def Event.settled? : Event σ π → Option (Call π × Bool)
  | .applied call _ => some (call, true)
  | .decided call _ => some (call, false)
  | _ => none

/-- The calls that came back, with whether they succeeded, in order. -/
def returns (tr : List (Event σ π)) : List (Call π × Bool) := tr.filterMap Event.return?

/-- The calls whose result was applied or decided on, in order. -/
def settled (tr : List (Event σ π)) : List (Call π × Bool) := tr.filterMap Event.settled?

/-- The call that came back but is neither applied nor decided on yet. -/
def Pc.unsettled : Pc σ π → List (Call π × Bool)
  | .succeeded call _ _ => [(call, true)]
  | .failed call _ => [(call, false)]
  | _ => []

theorem Pc.unsettled_resume (rest : List (Message π)) : (resume rest : Pc σ π).unsettled = [] := by
  cases rest <;> rfl

theorem Pc.unsettled_after (es : List Effect) (k : Cont π) :
    (after es k : Pc σ π).unsettled = [] := by
  cases es with
  | cons e es => rfl
  | nil =>
    cases k with
    | resume rest => exact unsettled_resume rest
    | _ => rfl

/-- The messages the goroutine has dequeued and not recorded an outcome for. -/
def Pc.held : Pc σ π → List (Message π)
  | .calling call rest | .succeeded call _ rest | .failed call rest => call.msgs ++ rest
  | pc => pc.inHand

theorem Pc.held_resume (rest : List (Message π)) : (resume rest : Pc σ π).held = rest := by
  cases rest <;> rfl

theorem Pc.held_after (es : List Effect) (k : Cont π) : (after es k : Pc σ π).held = k.inHand := by
  cases es with
  | cons e es => rfl
  | nil =>
    cases k with
    | resume rest => exact held_resume rest
    | _ => rfl

namespace Instance

def ids (s : Instance σ π) : Multiset ℕ :=
  (s.sends.map Message.id : Multiset ℕ) + (s.mailbox.toList.map Message.id : Multiset ℕ) +
    (s.pc.held.map Message.id : Multiset ℕ) +
    (s.outcomes.map messageID : Multiset ℕ)

/-- No identifier occurs twice and none is still to be drawn. -/
structure Fresh (s : Instance σ π) : Prop where
  nodup : s.ids.Nodup
  le_seq : ∀ i ∈ s.ids, i ≤ s.msgSeq

variable {s s' : Instance σ π}

theorem Fresh.same (h : Fresh s) (hids : s'.ids = s.ids) (hseq : s.msgSeq ≤ s'.msgSeq) :
    Fresh s' where
  nodup := by rw [hids]; exact h.nodup
  le_seq := by
    intro i hi
    rw [hids] at hi
    exact le_trans (h.le_seq i hi) hseq

theorem Fresh.draw (h : Fresh s) (hids : s'.ids = (s.msgSeq + 1) ::ₘ s.ids)
    (hseq : s'.msgSeq = s.msgSeq + 1) : Fresh s' where
  nodup := by
    rw [hids, Multiset.nodup_cons]
    refine ⟨?_, h.nodup⟩
    intro hmem
    have hle := h.le_seq _ hmem
    omega
  le_seq := by
    intro i hi
    rw [hids, Multiset.mem_cons] at hi
    rcases hi with rfl | hi
    · omega
    · have hle := h.le_seq i hi
      omega

theorem ids_eq_of_moved (hsends : s'.sends = s.sends)
    (hmoved : (s'.pc.held ++ s'.mailbox.toList) = (s.pc.held ++ s.mailbox.toList))
    (hout : s'.outcomes = s.outcomes) : s'.ids = s.ids := by
  have hmap := congrArg (fun l => ((l.map Message.id : List ℕ) : Multiset ℕ)) hmoved
  simp only [map_append, ← Multiset.coe_add] at hmap
  rw [add_comm] at hmap
  simp only [ids, hsends, hout, add_assoc]
  rw [← add_assoc (s'.mailbox.toList.map Message.id : Multiset ℕ), hmap]
  abel

variable {call : Call π}

variable {out : Message π → ProcessingOutcome}

theorem ids_eq_of_recorded {rest : List (Message π)} (hout : ∀ msg, (out msg).messageID = msg.id)
    (hsends : s'.sends = s.sends) (hmail : s'.mailbox = s.mailbox)
    (hheld : s.pc.held = call.msgs ++ rest) (hheld' : s'.pc.held = rest)
    (houts : s'.outcomes = s.outcomes ++ call.msgs.map out) : s'.ids = s.ids := by
  have hids : (call.msgs.map out).map messageID = call.msgs.map Message.id := by
    rw [map_map]
    exact map_congr_left (fun msg _ => hout msg)
  simp only [ids, hsends, hmail, hheld, hheld', houts, map_append, hids, ← Multiset.coe_add]
  abel

variable {msg : Message π}

theorem ids_eq_cons_erase {sends : List (Message π)} {i : ℕ} (hi : sends[i]? = some msg) :
    ((sends.map Message.id : List ℕ) : Multiset ℕ) =
      msg.id ::ₘ ((sends.eraseIdx i).map Message.id : List ℕ) := by
  obtain ⟨hlt, rfl⟩ := List.getElem?_eq_some_iff.mp hi
  have hperm := (getElem_cons_eraseIdx_perm hlt).map Message.id
  exact (Multiset.coe_eq_coe.mpr hperm).symm

/-- Identifiers are fresh, every call that came back is settled or about to be, and a settled one
has recorded its messages. -/
structure Journal (tr : List (Event σ π)) (s : Instance σ π) : Prop where
  fresh : Fresh s
  settles : returns tr = settled tr ++ s.pc.unsettled
  recorded : ∀ call ok, (call, ok) ∈ settled tr → ∀ msg ∈ call.msgs,
    ∃ o ∈ s.outcomes, o.messageID = msg.id ∧ (o.result = .delivered ↔ ok = true)

variable {es tr : List (Event σ π)}

theorem Journal.quiet (h : Journal tr s) (hfresh : Fresh s') (hout : s.outcomes <+: s'.outcomes)
    (hset : settled es = []) (hun : s'.pc.unsettled = s.pc.unsettled ++ returns es) :
    Journal (tr ++ es) s' where
  fresh := hfresh
  settles := by
    have hs := h.settles
    simp only [returns, settled, filterMap_append] at hs hset hun ⊢
    rw [hset, hun, hs, append_nil, append_assoc]
  recorded := by
    intro call ok hmem msg hmsg
    simp only [settled, filterMap_append] at hmem hset
    rw [hset, append_nil] at hmem
    obtain ⟨o, ho, hid⟩ := h.recorded call ok hmem msg hmsg
    exact ⟨o, hout.subset ho, hid⟩

variable {ok : Bool}

theorem Journal.settle {e : Event σ π} (h : Journal tr s) (hfresh : Fresh s')
    (hret : e.return? = none) (hset : e.settled? = some (call, ok))
    (hun : s.pc.unsettled = [(call, ok)]) (hun' : s'.pc.unsettled = [])
    (houts : s'.outcomes = s.outcomes ++ call.msgs.map out)
    (hid : ∀ msg, (out msg).messageID = msg.id)
    (hresult : ∀ msg, (out msg).result = .delivered ↔ ok = true) : Journal (tr ++ [e]) s' where
  fresh := hfresh
  settles := by
    have hs := h.settles
    simp only [returns, settled, filterMap_append, filterMap_cons, filterMap_nil,
      hret, hset, append_nil] at hs ⊢
    rw [hs, hun, hun', append_nil]
  recorded := by
    intro call' ok' hmem msg hmsg
    simp only [settled, filterMap_append, filterMap_cons, filterMap_nil, hset,
      mem_append, mem_singleton, Prod.mk.injEq] at hmem
    rw [houts]
    rcases hmem with hmem | ⟨rfl, rfl⟩
    · obtain ⟨o, ho, hid'⟩ := h.recorded call' ok' hmem msg hmsg
      exact ⟨o, mem_append_left _ ho, hid'⟩
    · exact ⟨out msg, mem_append_right _ (mem_map_of_mem hmsg), hid msg, hresult msg⟩

theorem Journal.outcome (h : Journal tr s) (hret : (call, ok) ∈ returns tr)
    (hun : (call, ok) ∉ s.pc.unsettled) (hmsg : msg ∈ call.msgs) :
    (s.outcomes.map messageID).count msg.id = 1 ∧
      ∃ o ∈ s.outcomes, o.messageID = msg.id ∧ (o.result = .delivered ↔ ok = true) := by
  rw [h.settles] at hret
  have hset : (call, ok) ∈ settled tr := (mem_append.mp hret).resolve_right hun
  obtain ⟨o, ho, hid, hres⟩ := h.recorded call ok hset msg hmsg
  have hnodup : (s.outcomes.map messageID).Nodup :=
    Multiset.coe_nodup.mp (Multiset.nodup_add.mp h.fresh.nodup).2.1
  have hmem : msg.id ∈ s.outcomes.map messageID := by
    rw [← hid]
    exact mem_map_of_mem ho
  exact ⟨count_eq_one_of_mem hnodup hmem, o, ho, hid, hres⟩

variable [Inhabited π]

variable {a : Action σ π}

/-- A step only moves identifiers, or adds the one it draws. -/
theorem fresh_step (h : Fresh s) (hs : Steps s a s' es) : Fresh s' := by
  cases hs with
  | dequeueBatch cfg hpc hcfg =>
    have happ := dequeueBatch_append s.mailbox cfg.maxSize
    refine h.same (ids_eq_of_moved rfl ?_ rfl) le_rfl
    by_cases hempty : (s.mailbox.dequeueBatch cfg.maxSize).1.isEmpty
    · rw [isEmpty_iff.mp hempty, nil_append] at happ
      simp only [hempty, hpc]
      exact happ
    · simp only [hempty, hpc]
      exact happ
  | dequeueEmpty cfg hpc hd =>
    rw [dequeue_fst, head?_eq_none_iff] at hd
    refine h.same (ids_eq_of_moved rfl ?_ rfl) le_rfl
    simp only [hpc, toList_dequeue, hd]
    rfl
  | dequeueOne cfg msg hpc hd =>
    rw [dequeue_fst, head?_eq_some_iff] at hd
    obtain ⟨rest, hd⟩ := hd
    refine h.same (ids_eq_of_moved rfl ?_ rfl) le_rfl
    simp only [hpc, toList_dequeue, hd]
    rfl
  | callBatch msgs limit hpc =>
    refine h.same (ids_eq_of_moved rfl ?_ rfl) le_rfl
    rw [hpc]
    exact congrArg (· ++ _) (append_nil msgs)
  | fallback msgs limit hpc =>
    refine h.same (ids_eq_of_moved rfl ?_ rfl) le_rfl
    rw [hpc, held_resume]
    rfl
  | apply call next rest hpc =>
    exact h.same (ids_eq_of_recorded (fun _ => rfl) rfl rfl (by rw [hpc]; rfl)
      (held_resume rest) rfl) le_rfl
  | decideRestart call rest hpc | decideStop call rest d hpc hd =>
    exact h.same (ids_eq_of_recorded (fun _ => rfl) rfl rfl (by rw [hpc]; rfl) rfl rfl) le_rfl
  | effect e es k hpc =>
    have hmail := toList_runEffect s e
    have hmoved : ({ s.runEffect e with pc := .after es k } : Instance σ π).ids = s.ids := by
      refine ids_eq_of_moved ?_ ?_ ?_
      · cases e <;> rfl
      · simp only [hmail, hpc, held_after]
        rfl
      · cases e <;> rfl
    refine h.same hmoved ?_
    cases e <;> exact le_rfl
  | sendStopped payload hst | send payload hst =>
    refine h.draw ?_ rfl
    simp only [ids, map_append, ← Multiset.coe_add, map_cons, map_nil,
      Multiset.coe_singleton, ← Multiset.singleton_add]
    abel
  | enqueueAccepted i msg hi hr =>
    refine h.same ?_ le_rfl
    simp only [ids, ids_eq_cons_erase hi, toList_enqueue _ _ hr, map_append,
      ← Multiset.coe_add, map_cons, map_nil, Multiset.coe_singleton,
      ← Multiset.singleton_add]
    abel
  | refused _ i msg result code hi ha =>
    refine h.same ?_ le_rfl
    simp only [ids, ids_eq_cons_erase hi, map_append, ← Multiset.coe_add, map_cons,
      map_nil, Multiset.coe_singleton, ← Multiset.singleton_add]
    abel
  | drawID => exact h.same rfl (Nat.le_succ _)
  | started hpc | startHookFailed hpc | selectDone hpc | selectNotify hpc | readBatch hpc
  | callOne _ _ hpc | callOk _ _ _ hpc | callFailed _ _ _ hpc | rehookOk _ hpc
  | rehookFailed _ hpc =>
    refine h.same (ids_eq_of_moved rfl ?_ rfl) le_rfl
    rw [hpc]
    rfl
  | stop | stopCheck | stopStore | stopCapture | stopHook | stopStored | stopCancel | stopClose
  | configure =>
    exact h.same rfl le_rfl

theorem journal_step (h : Journal tr s) (hs : Steps s a s' es) : Journal (tr ++ es) s' := by
  have hfresh := fresh_step h.fresh hs
  cases hs with
  | apply call next rest hpc =>
    exact h.settle hfresh rfl rfl (by rw [hpc]; rfl) (unsettled_resume rest) rfl
      (fun _ => rfl) (fun _ => by simp)
  | decideRestart call rest hpc | decideStop call rest d hpc hd =>
    exact h.settle hfresh rfl rfl (by rw [hpc]; rfl) rfl rfl (fun _ => rfl) (fun _ => by simp)
  | callFailed call rest result hpc hr =>
    refine h.quiet hfresh (prefix_refl _) rfl ?_
    rw [hpc]
    cases result with
    | ok next => exact absurd rfl (hr next)
    | error => rfl
    | panic => rfl
  | dequeueBatch cfg hpc hcfg =>
    refine h.quiet hfresh (prefix_refl _) rfl ?_
    rw [hpc]
    by_cases hempty : (s.mailbox.dequeueBatch cfg.maxSize).1.isEmpty
    · simp only [hempty]; rfl
    · simp only [hempty]; rfl
  | fallback msgs limit hpc =>
    exact h.quiet hfresh (prefix_refl _) rfl (by rw [hpc]; exact unsettled_resume msgs)
  | effect e es k hpc =>
    have hout : (s.runEffect e).outcomes = s.outcomes := by cases e <;> rfl
    refine h.quiet hfresh ?_ rfl (by rw [hpc]; exact unsettled_after es k)
    simp only [hout]
    exact prefix_refl _
  | sendStopped payload hst | refused _ i msg result code hi ha =>
    exact h.quiet hfresh (prefix_append _ _) rfl (append_nil _).symm
  | started hpc | startHookFailed hpc | selectDone hpc | selectNotify hpc | readBatch hpc
  | dequeueEmpty _ hpc | dequeueOne _ _ hpc | callBatch _ _ hpc | callOne _ _ hpc | callOk _ _ _ hpc
  | rehookOk _ hpc | rehookFailed _ hpc =>
    exact h.quiet hfresh (prefix_refl _) rfl (by rw [hpc]; rfl)
  | stop | stopCheck | stopStore | stopCapture | stopHook | stopStored | stopCancel | stopClose
  | send | enqueueAccepted | drawID | configure =>
    exact h.quiet hfresh (prefix_refl _) rfl (append_nil _).symm

theorem journal_run {guard : Instance σ π → Action σ π → Prop} {init : σ} {capacity : ℤ}
    {batch : BatchConfig} (h : Run step guard (new init capacity batch) tr s) : Journal tr s := by
  refine h.invariant Journal ⟨?_, rfl, by simp [settled]⟩
    (fun _ _ _ _ _ hi _ hs => journal_step hi (steps_of_step hs))
  have hempty : (new init capacity batch : Instance σ π).ids = 0 := by
    simp [ids, new, Mailbox.new, toList, held, inHand]
  constructor
  · rw [hempty]; exact Multiset.nodup_zero
  · rw [hempty]; simp

end Instance

end Westcoast
