import Westcoast.Actor.Delivery

/-!
# No lost wakeup

The notification channel holds one token. `Enqueue` offers it when the queue was empty, both
dequeues when messages remain, and only the `select` of `runActor` takes it. So `Watched`: the
mailbox is `Armed` or a dequeue comes next.
-/
namespace Westcoast

open Lib List Mailbox

universe u

namespace Mailbox
variable {α : Type u}

/-- Empty, or with the token in the notification channel. -/
def Armed (m : Mailbox α) : Prop := m.toList = [] ∨ m.notify = true

theorem armed_of_depth {m : Mailbox α} (h : m.depth = 0) : m.Armed := by
  left
  rw [← length_eq_zero_iff, length_toList, h]

theorem Armed.close {m : Mailbox α} (h : m.Armed) : m.close.Armed := h

variable [Inhabited α]

theorem armed_new (capacity : ℤ) : (new capacity : Mailbox α).Armed := by
  left
  simp [new, toList]

theorem Armed.enqueue {m : Mailbox α} (h : m.Armed) (msg : α) : (m.enqueue msg).2.Armed := by
  unfold Mailbox.enqueue
  split_ifs with hclosed hfull
  · exact h
  · exact h
  · right
    rcases h with hnil | hnotify
    · have hdepth : m.depth = 0 := by rw [← length_toList, hnil, length_nil]
      simp [hdepth]
    · simp [hnotify]

theorem armed_release (m : Mailbox α) (n : ℕ) (h : n ≤ m.depth) : (m.release n h).Armed := by
  unfold release
  simp only
  split_ifs
  · left
    simp [toList]
  · right
    rfl
  · right
    rfl

theorem armed_dequeue (m : Mailbox α) : m.dequeue.2.Armed := by
  unfold dequeue
  split_ifs with hdepth
  · exact armed_of_depth hdepth
  · exact armed_release m 1 (by omega)

theorem armed_dequeueBatch (m : Mailbox α) (limit : ℤ) : (m.dequeueBatch limit).2.Armed := by
  unfold dequeueBatch
  simp only
  split_ifs with hdepth hlimit
  · exact armed_of_depth hdepth
  · exact armed_release m _ (Nat.min_le_right _ _)
  · exact armed_release m _ (Nat.min_le_right _ _)

end Mailbox

variable {σ π : Type}

/-- The next access of the goroutine to the mailbox is a dequeue. -/
def Pc.BeforeDequeue : Pc σ π → Prop
  | .draining | .dequeuing _ => True
  | _ => False

def Action.isGoroutine : Action σ π → Bool
  | .hookReturns _ | .selectDone | .selectNotify | .readBatch | .dequeue | .enter
  | .callReturns _ | .apply | .decide _ | .effect => true
  | .stop _ | .stopStep _ | .send _ | .enqueue _ | .routeReject _ _ | .drawID
  | .configureBatching _ _ | .disableBatching => false

namespace Instance

/-- The mailbox is armed, unless the goroutine is about to dequeue anyway. -/
def Watched (s : Instance σ π) : Prop := s.mailbox.Armed ∨ s.pc.BeforeDequeue

variable {s s' : Instance σ π}

theorem Watched.armed (h : Watched s) (hpc : ¬ s.pc.BeforeDequeue) : s.mailbox.Armed :=
  h.resolve_right hpc

theorem armed_runEffect (h : s.mailbox.Armed) (e : Effect) : (s.runEffect e).mailbox.Armed := by
  cases e with
  | closeMailbox => exact h.close
  | _ => exact h

variable [Inhabited π]

theorem watched_new (initialState : σ) (capacity : ℤ) (batch : BatchConfig) :
    Watched (new initialState capacity batch : Instance σ π) :=
  .inl (armed_new capacity)

variable {a : Action σ π} {es : List (Event σ π)}

theorem watched_step (h : Watched s) (hs : Steps s a s' es) : Watched s' := by
  cases hs with
  -- the one step that may disarm the mailbox leads to a dequeue
  | selectNotify hpc hn => exact .inr trivial
  | readBatch hpc => exact .inr trivial
  | dequeueBatch cfg hpc hcfg => exact .inl (armed_dequeueBatch _ _)
  | dequeueEmpty cfg hpc hd => exact .inl (armed_dequeue _)
  | dequeueOne cfg msg hpc hd => exact .inl (armed_dequeue _)
  | enqueueAccepted i msg hi hr => exact h.imp_left fun harmed => harmed.enqueue msg
  | stopClose i c hi hpc => exact h.imp_left Mailbox.Armed.close
  | effect e es k hpc =>
    exact .inl (armed_runEffect (h.armed (by rw [hpc]; exact id)) e)
  | started hpc | startHookFailed hpc | selectDone hpc hc | fallback msgs limit hpc
  | callBatch msgs limit hpc | callOne msg rest hpc | callOk call rest next hpc
  | callFailed call rest result hpc hr | apply call next rest hpc | decideRestart call rest hpc
  | decideStop call rest d hpc hd | rehookOk rest hpc | rehookFailed rest hpc =>
    exact .inl (h.armed (by rw [hpc]; exact id))
  | stop | stopCheck | stopStore | stopCapture | stopHook | stopStored | stopCancel
  | sendStopped | send | refused | drawID | configure => exact h

theorem watched_run {initialState : σ} {capacity : ℤ} {batch : BatchConfig}
    {tr : List (Event σ π)} (h : Run step anyStep (new initialState capacity batch) tr s) :
    Watched s :=
  h.invariant_state Watched (watched_new initialState capacity batch)
    (fun _ _ _ _ hw _ hs => watched_step hw (steps_of_step hs))

/-! ### Draining -/

abbrev OwnRun (s : Instance σ π) (tr : List (Event σ π)) (s' : Instance σ π) : Prop :=
  Run step (fun _ a => a.isGoroutine = true) s tr s'

theorem OwnRun.single (ha : a.isGoroutine = true) (hs : step s a = some (s', es)) :
    OwnRun s es s' := by
  have hrun : OwnRun s ([] ++ es) s' := .step .refl ha hs
  simpa using hrun

open OwnRun (single)

theorem exists_call_run (s : Instance σ π) (call : Call π) (rest : List (Message π))
    (hpc : s.pc = .calling call rest) :
    ∃ tr s', OwnRun s tr s' ∧ s'.pc = .resume rest ∧ s'.mailbox = s.mailbox ∧ handed tr = [] := by
  have hreturn : step s (.callReturns (.ok s.state.value)) =
      some ({ s with pc := .succeeded call s.state.value rest },
        [.returned call (.ok s.state.value)]) := by
    simp only [step, goroutineStep, hpc]
  have happly := single (a := .apply) rfl
    (show step { s with pc := .succeeded call s.state.value rest } .apply = some (_, _) from rfl)
  exact ⟨_, _, (single rfl hreturn).trans happly, rfl, rfl, rfl⟩

theorem exists_resume_run (rest : List (Message π)) (s : Instance σ π) (hpc : s.pc = .resume rest) :
    ∃ tr s', OwnRun s tr s' ∧ s'.pc = .draining ∧ s'.mailbox = s.mailbox ∧ handed tr = rest := by
  induction rest generalizing s with
  | nil => exact ⟨[], s, .refl, hpc, rfl, rfl⟩
  | cons msg rest ih =>
    have henter : step s .enter = some ({ s with pc := .calling ⟨[msg], none⟩ rest },
        [.called ⟨[msg], none⟩ s.state.value]) := by
      simp only [step, goroutineStep, hpc, Pc.resume, startCall]
    obtain ⟨tr, s1, hcall, hpc1, hbox1, hnone⟩ := exists_call_run
      { s with pc := .calling ⟨[msg], none⟩ rest } ⟨[msg], none⟩ rest rfl
    obtain ⟨tr', s2, hloop, hpc2, hbox2, hrest⟩ := ih s1 hpc1
    refine ⟨_, s2, ((single rfl henter).trans hcall).trans hloop, hpc2, hbox2.trans hbox1, ?_⟩
    simp [handed_append, handed, hnone, hrest]

theorem exists_batch_run (s : Instance σ π) (msgs : List (Message π)) (limit : ℤ)
    (hpc : s.pc = .batch msgs limit) :
    ∃ tr s', OwnRun s tr s' ∧ s'.pc = .draining ∧ s'.mailbox = s.mailbox ∧ handed tr = msgs := by
  by_cases hcfg : (!s.batch.enabled || !s.batch.receiver) = true
  · have henter : step s .enter = some ({ s with pc := .resume msgs }, []) := by
      simp [step, goroutineStep, hpc, hcfg]
    obtain ⟨tr, s1, hloop, hpc1, hbox1, hmsgs⟩ :=
      exists_resume_run msgs { s with pc := .resume msgs } rfl
    exact ⟨_, s1, (single rfl henter).trans hloop, hpc1, hbox1, hmsgs⟩
  · have henter : step s .enter = some ({ s with pc := .calling ⟨msgs, some limit⟩ [] },
        [.called ⟨msgs, some limit⟩ s.state.value]) := by
      simp [step, goroutineStep, hpc, hcfg, startCall]
    obtain ⟨tr, s1, hcall, hpc1, hbox1, hnone⟩ := exists_call_run
      { s with pc := .calling ⟨msgs, some limit⟩ [] } ⟨msgs, some limit⟩ [] rfl
    refine ⟨_, s1, (single rfl henter).trans hcall, hpc1, hbox1, ?_⟩
    simp [handed, hnone]

/-- One turn of the drain loop hands some of the oldest messages over; the rest are still queued. -/
theorem exists_turn_run (s : Instance σ π) (hpc : s.pc = .draining) (hq : s.mailbox.toList ≠ []) :
    ∃ tr s', OwnRun s tr s' ∧ s'.pc = .draining ∧ handed tr ≠ [] ∧
      handed tr ++ s'.mailbox.toList = s.mailbox.toList := by
  have hread : step s .readBatch = some ({ s with pc := .dequeuing s.batch }, []) := by
    simp only [step, goroutineStep, hpc]
  by_cases hcfg : (s.batch.enabled && decide (s.batch.maxSize > 1)) = true
  · have hne : (s.mailbox.dequeueBatch s.batch.maxSize).1 ≠ [] := by
      rw [dequeueBatch_fst, Ne, take_eq_nil_iff]
      simp only [hq, or_false]
      omega
    have hdequeue : step { s with pc := .dequeuing s.batch } .dequeue = some ({ s with
          mailbox := (s.mailbox.dequeueBatch s.batch.maxSize).2
          pc := .batch (s.mailbox.dequeueBatch s.batch.maxSize).1 s.batch.maxSize }, []) := by
      simp [step, goroutineStep, drainStep, hcfg, hne]
    obtain ⟨tr, s1, hbatch, hpc1, hbox1, hmsgs⟩ := exists_batch_run
      { s with
        mailbox := (s.mailbox.dequeueBatch s.batch.maxSize).2
        pc := .batch (s.mailbox.dequeueBatch s.batch.maxSize).1 s.batch.maxSize } _ _ rfl
    refine ⟨_, s1, ((single rfl hread).trans (single rfl hdequeue)).trans hbatch,
      hpc1, by simpa [hmsgs] using hne, ?_⟩
    simpa [hmsgs, hbox1] using dequeueBatch_append s.mailbox s.batch.maxSize
  · obtain ⟨msg, rest, hlist⟩ := exists_cons_of_ne_nil hq
    have hmsg : s.mailbox.dequeue.1 = some msg := by
      rw [dequeue_fst, hlist, head?_cons]
    have hdequeue : step { s with pc := .dequeuing s.batch } .dequeue =
        some ({ s with mailbox := s.mailbox.dequeue.2, pc := .message msg [] }, []) := by
      simp only [step, goroutineStep, drainStep, hcfg, if_false, Bool.false_eq_true]
      rw [← Prod.eta s.mailbox.dequeue, hmsg]
    obtain ⟨tr, s1, hloop, hpc1, hbox1, hmsgs⟩ := exists_resume_run [msg]
      { s with mailbox := s.mailbox.dequeue.2, pc := .message msg [] } rfl
    refine ⟨_, s1, ((single rfl hread).trans (single rfl hdequeue)).trans hloop,
      hpc1, by simp [hmsgs], ?_⟩
    simp [hmsgs, hbox1, hlist]

theorem exists_idle_run (s : Instance σ π) (hpc : s.pc = .draining) (hnil : s.mailbox.toList = []) :
    ∃ s', OwnRun s [] s' ∧ s'.pc = .selecting ∧ s'.mailbox.toList = [] := by
  have hread : step s .readBatch = some ({ s with pc := .dequeuing s.batch }, []) := by
    simp only [step, goroutineStep, hpc]
  refine ⟨drainStep { s with pc := .dequeuing s.batch } s.batch,
    (single rfl hread).trans (single (a := .dequeue) rfl rfl), ?_⟩
  have hbatch : (s.mailbox.dequeueBatch s.batch.maxSize).1 = [] := by
    rw [dequeueBatch_fst, hnil, take_nil]
  have hone : s.mailbox.dequeue = (none, s.mailbox.dequeue.2) := by
    refine Prod.ext ?_ rfl
    rw [dequeue_fst, hnil, head?_nil]
  unfold drainStep
  split_ifs
  · simp [hbatch, hnil]
  · rw [hone]
    simp [hnil]

theorem exists_drain_run (s : Instance σ π) (hpc : s.pc = .draining) :
    ∃ tr s', OwnRun s tr s' ∧ s'.pc = .selecting ∧ s'.mailbox.toList = [] ∧
      handed tr = s.mailbox.toList := by
  -- every turn of the loop shortens the queue
  induction hn : s.mailbox.toList.length using Nat.strong_induction_on generalizing s with
  | _ n ih =>
    by_cases hq : s.mailbox.toList = []
    · obtain ⟨s', hidle, hpc', hnil'⟩ := exists_idle_run s hpc hq
      exact ⟨[], s', hidle, hpc', hnil', hq.symm⟩
    · obtain ⟨tr, s1, hturn, hpc1, hsome, hsplit⟩ := exists_turn_run s hpc hq
      have hshorter : s1.mailbox.toList.length < n := by
        have hlen := congrArg List.length hsplit
        have hpos := length_pos_iff.mpr hsome
        rw [length_append, hn] at hlen
        omega
      obtain ⟨tr', s', hdrain, hpc', hnil', hrest⟩ := ih _ hshorter s1 hpc1 rfl
      refine ⟨tr ++ tr', s', hturn.trans hdrain, hpc', hnil', ?_⟩
      rw [handed_append, hrest, hsplit]

theorem isSome_step_selecting (hpc : s.pc = .selecting) (hc : s.canceled = false)
    (hn : s.mailbox.notify = true) (ha : a.isGoroutine = true) :
    (s.step a).isSome = true ↔ a = .selectNotify := by
  cases a with
  | stop | stopStep | send | enqueue | routeReject | drawID | configureBatching
  | disableBatching => cases ha
  | _ => simp [step, goroutineStep, hpc, hc, hn]

/-- **No lost wakeup.** When the goroutine waits over a non-empty queue the token is in the channel;
unless the actor is cancelled, its own steps then hand every queued message to user code. -/
theorem no_lost_wakeup {initialState : σ} {capacity : ℤ} {batch : BatchConfig}
    {tr : List (Event σ π)} {s : Instance σ π}
    (h : Run step anyStep (new initialState capacity batch) tr s) (hpc : s.pc = .selecting)
    (hq : s.mailbox.depth ≠ 0) : s.mailbox.notify = true ∧ (s.canceled = false →
        ∀ a, a.isGoroutine = true → ((s.step a).isSome = true ↔ a = .selectNotify)) ∧
      ∃ tr' s', Run step (fun _ a => a.isGoroutine = true) s tr' s' ∧ s'.pc = .selecting ∧
        s'.mailbox.toList = [] ∧ handed tr' = s.mailbox.toList := by
  have hne : s.mailbox.toList ≠ [] := by
    rw [Ne, ← length_eq_zero_iff, length_toList]
    exact hq
  have harmed : s.mailbox.Armed := (watched_run h).armed (by rw [hpc]; exact id)
  have hn : s.mailbox.notify = true := harmed.resolve_left hne
  refine ⟨hn, fun hc a ha => isSome_step_selecting hpc hc hn ha, ?_⟩
  have hwake : step s .selectNotify = some
      ({ s with mailbox := { s.mailbox with notify := false }, pc := .draining }, []) := by
    simp [step, goroutineStep, hpc, hn]
  obtain ⟨tr', s', hdrain, hpc', hnil', hall⟩ := exists_drain_run
    { s with mailbox := { s.mailbox with notify := false }, pc := .draining } rfl
  exact ⟨tr', s', (single rfl hwake).trans hdrain, hpc', hnil', hall⟩

/-- A message is taken as a batch, batching is switched off, and a second message finds the
goroutine waiting. -/
def wakeupActions : List (Action ℕ ℕ) :=
  [.hookReturns true, .effect, .send 7, .enqueue 0, .selectNotify, .configureBatching 2 true,
    .readBatch, .dequeue, .enter, .callReturns (.ok 1), .apply, .disableBatching, .readBatch,
    .dequeue, .send 8, .enqueue 0]

theorem no_lost_wakeup_toggle :
    ∃ tr s, Run step anyStep (new 0 4 {} : Instance ℕ ℕ) tr s ∧ s.pc = .selecting ∧
      s.mailbox.toList = [⟨2, 8⟩] ∧ s.mailbox.notify = true := by
  have hrun := Run.of_exec_any step (new 0 4 {} : Instance ℕ ℕ) wakeupActions rfl
  exact ⟨_, _, hrun, rfl, rfl, (no_lost_wakeup hrun rfl (by decide)).1⟩

end Instance

end Westcoast
