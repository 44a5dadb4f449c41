import Westcoast.Actor.Delivery

/-!
# When `Stopped` is final

`Stopped` is stored by the goroutine itself, by `Stop` and by `StopAndCapture`, which do not
coordinate. A stopped instance that is `Quiet` stays so, unless a call that was in flight fails and
the supervisor restarts the actor.
-/
namespace Westcoast

open Lib List Mailbox

variable {σ π : Type}

/-- The goroutine is on its way out: it dequeues no more. -/
def Pc.leaving : Pc σ π → Bool
  | .exited | .effects _ .exit => true
  | _ => false

/-- A shared write that leaves the status alone or at `Stopped`. -/
def Effect.keepsStopped : Effect → Bool
  | .setStatus status => status = .stopped
  | _ => true

def Cont.quiet : Cont π → Bool
  | .select | .exit => true
  | .resume rest => rest.isEmpty
  | .rehook _ => false

/-- The goroutine runs no start hook, holds no message to hand over and is not about to store a
status. -/
def Pc.quiet : Pc σ π → Bool
  | .selecting | .draining | .dequeuing _ | .exited => true
  | .calling _ rest | .succeeded _ _ rest | .failed _ rest => rest.isEmpty
  | .effects es k => es.all Effect.keepsStopped && k.quiet
  | .starting | .batch _ _ | .message _ _ | .rehook _ => false

variable {es : List Effect} {k : Cont π} {e : Effect}

theorem Pc.leaving_after (h : (Pc.effects (e :: es) k : Pc σ π).leaving = true) :
    (Pc.after es k : Pc σ π).leaving = true := by
  cases k with
  | exit => cases es <;> rfl
  | _ => exact absurd h (by simp [Pc.leaving])

theorem Pc.quiet_after (h : (Pc.effects (e :: es) k : Pc σ π).quiet = true) :
    e.keepsStopped = true ∧ (Pc.after es k : Pc σ π).quiet = true := by
  simp only [Pc.quiet, all_cons, Bool.and_eq_true] at h
  obtain ⟨⟨he, hes⟩, hk⟩ := h
  refine ⟨he, ?_⟩
  cases es with
  | cons e es =>
    simp [Pc.after, Pc.quiet, hes, hk]
  | nil =>
    cases k with
    | rehook rest => exact absurd hk (by simp [Cont.quiet])
    | resume rest =>
      obtain rfl := isEmpty_iff.mp hk
      rfl
    | _ => rfl

namespace Instance

/-- Nothing is pending that would start a call or store another status. -/
structure Quiet (s : Instance σ π) : Prop where
  pc : s.pc.quiet = true
  drained : s.pc.leaving = true ∨ s.mailbox.toList = [] ∧ (s.mailbox.closed = true ∨ s.sends = [])
  noStore : ∀ c ∈ s.stops, c.pc ≠ .store

def isQuiet (s : Instance σ π) : Bool :=
  s.pc.quiet &&
    (s.pc.leaving || (s.mailbox.toList.isEmpty && (s.mailbox.closed || s.sends.isEmpty))) &&
    s.stops.all fun c => c.pc ≠ .store

variable {s s' : Instance σ π}

theorem quiet_of_isQuiet (h : s.isQuiet = true) : Quiet s := by
  simp only [isQuiet, Bool.and_eq_true, Bool.or_eq_true, List.isEmpty_iff, List.all_eq_true,
    decide_eq_true_eq] at h
  obtain ⟨⟨hpc, hdrained⟩, hstops⟩ := h
  exact ⟨hpc, hdrained, hstops⟩

def storesStopped (s : Instance σ π) : Action σ π → Bool
  | .effect =>
    match s.pc with
    | .effects (.setStatus .stopped :: _) _ => true
    | _ => false
  | .stopStep i => s.stops[i]?.any fun c => c.pc = .storeStopped
  | _ => false

/-- `Stopped` is stored in a quiet instance only, and a stopped actor is not
restarted. -/
def orderlyStop (s : Instance σ π) (a : Action σ π) : Bool :=
  match a with
  | .decide .restart => s.status ≠ .stopped
  | a => s.status = .stopped || !s.storesStopped a || s.isQuiet

def StoppedQuiet (s : Instance σ π) : Prop := s.status = .stopped → Quiet s

variable {i : ℕ}

theorem noStore_set {stops : List (StopCall σ)} {c' : StopCall σ} (h : ∀ c ∈ stops, c.pc ≠ .store)
    (hc : c'.pc ≠ .store) : ∀ c ∈ stops.set i c', c.pc ≠ .store := by
  intro c hmem
  rcases mem_or_eq_of_mem_set hmem with hmem | rfl
  · exact h c hmem
  · exact hc

theorem Quiet.setStop (h : Quiet s) {c : StopCall σ} (hc : c.pc ≠ .store) :
    Quiet { s with stops := s.stops.set i c } :=
  ⟨h.pc, h.drained, noStore_set h.noStore hc⟩

theorem Quiet.mailbox_empty (h : Quiet s) (hl : s.pc.leaving = false) : s.mailbox.toList = [] := by
  rcases h.drained with hleave | ⟨hempty, -⟩
  · rw [hl] at hleave
    cases hleave
  · exact hempty

theorem Quiet.move (h : Quiet s) (hpc : s'.pc.quiet = true)
    (hleave : s.pc.leaving = true → s'.pc.leaving = true)
    (hmail : s'.mailbox.toList = s.mailbox.toList)
    (hclosed : s'.mailbox.closed = s.mailbox.closed) (hsends : s'.sends = s.sends)
    (hstops : s'.stops = s.stops) : Quiet s' where
  pc := hpc
  drained := by
    rw [hmail, hclosed, hsends]
    exact h.drained.imp_left hleave
  noStore := by rw [hstops]; exact h.noStore

theorem Quiet.close (h : Quiet s) : Quiet { s with mailbox := s.mailbox.close } where
  pc := h.pc
  drained := h.drained.imp_right fun hd => ⟨hd.1, .inl rfl⟩
  noStore := h.noStore

theorem Quiet.effect {e : Effect} {es : List Effect} {k : Cont π} (h : Quiet s)
    (hpc : s.pc = .effects (e :: es) k) :
    e.keepsStopped = true ∧ Quiet { s.runEffect e with pc := .after es k } := by
  have hq := h.pc
  rw [hpc] at hq
  obtain ⟨he, hafter⟩ := Pc.quiet_after hq
  have hleave : s.pc.leaving = true → (Pc.after es k : Pc σ π).leaving = true := by
    rw [hpc]
    exact Pc.leaving_after
  refine ⟨he, ?_⟩
  cases e with
  | closeMailbox => exact h.close.move hafter hleave rfl rfl rfl rfl
  | _ => exact h.move hafter hleave rfl rfl rfl rfl

variable [Inhabited π]

variable {es : List (Event σ π)} {a : Action σ π}

/-- What a step does to a quiet stopped instance: it stays so, and starts no call. -/
theorem quiet_step (hq : Quiet s) (hst : s.status = .stopped) (hg : s.orderlyStop a = true)
    (hs : Steps s a s' es) :
    Quiet s' ∧ s'.status = .stopped ∧ ∀ call cur, .called call cur ∉ es := by
  have hpcq := hq.pc
  cases hs with
  | started hpc | callBatch _ _ hpc | callOne _ _ hpc | fallback _ _ hpc | rehookOk _ hpc
  | rehookFailed _ hpc | startHookFailed hpc =>
    rw [hpc] at hpcq
    cases hpcq
  | selectDone hpc hc =>
    refine ⟨hq.move rfl ?_ rfl rfl rfl rfl, hst, by simp⟩
    intro _
    rfl
  | selectNotify hpc hn | readBatch hpc =>
    exact ⟨hq.move rfl (by rw [hpc]; intro h; cases h) rfl rfl rfl rfl, hst, by simp⟩
  | dequeueBatch cfg hpc hcfg =>
    have hempty := hq.mailbox_empty (by rw [hpc]; rfl)
    have hnone : (s.mailbox.dequeueBatch cfg.maxSize).1 = [] := by
      rw [dequeueBatch_fst, hempty, take_nil]
    refine ⟨hq.move ?_ (by rw [hpc]; intro h; cases h) ?_ ?_ rfl rfl, hst, by simp⟩
    · simp only [hnone]
      rfl
    · rw [toList_dequeueBatch, hempty, drop_nil]
    · exact closed_dequeueBatch s.mailbox cfg.maxSize
  | dequeueEmpty cfg hpc hd =>
    have hempty := hq.mailbox_empty (by rw [hpc]; rfl)
    refine ⟨hq.move rfl (by rw [hpc]; intro h; cases h) ?_ ?_ rfl rfl, hst, by simp⟩
    · rw [toList_dequeue, hempty, tail_nil]
    · exact closed_dequeue s.mailbox
  | dequeueOne cfg msg hpc hd =>
    have hempty := hq.mailbox_empty (by rw [hpc]; rfl)
    rw [dequeue_fst, hempty] at hd
    cases hd
  | callOk call rest next hpc | callFailed call rest result hpc hr =>
    rw [hpc] at hpcq
    exact ⟨hq.move hpcq (by rw [hpc]; intro h; cases h) rfl rfl rfl rfl, hst, by simp⟩
  | apply call next rest hpc | decideStop call rest d hpc hd =>
    rw [hpc] at hpcq
    obtain rfl := isEmpty_iff.mp hpcq
    exact ⟨hq.move rfl (by rw [hpc]; intro h; cases h) rfl rfl rfl rfl, hst, by simp⟩
  | decideRestart call rest hpc =>
    simp [orderlyStop, hst] at hg
  | effect e es k hpc =>
    obtain ⟨he, hq'⟩ := hq.effect hpc
    refine ⟨hq', ?_, by simp⟩
    cases e with
    | setStatus status => exact of_decide_eq_true he
    | _ => exact hst
  | stop capture =>
    refine ⟨⟨hq.pc, hq.drained, ?_⟩, hst, by simp⟩
    intro c hmem
    rcases mem_append.mp hmem with hmem | hmem
    · exact hq.noStore c hmem
    · rw [mem_singleton.mp hmem]
      simp
  | stopCheck i c hi hpc =>
    exact ⟨hq.setStop (by simp [hst]), hst, by simp⟩
  | stopStore i c hi hpc => exact absurd hpc (hq.noStore c (mem_of_getElem? hi))
  | stopCapture i c hi hpc | stopHook i c hi hpc => exact ⟨hq.setStop (by simp), hst, by simp⟩
  | stopStored i c hi hpc =>
    have hq' := hq.setStop (i := i) (c := { c with pc := .cancel }) (by simp)
    exact ⟨hq'.move hq.pc id rfl rfl rfl rfl, rfl, by simp⟩
  | stopCancel i c hi hpc =>
    have hq' := hq.setStop (i := i) (c := { c with pc := .closeMailbox }) (by simp)
    exact ⟨hq'.move hq.pc id rfl rfl rfl rfl, hst, by simp⟩
  | stopClose i c hi hpc => exact ⟨hq.close.setStop (by simp), hst, by simp⟩
  | sendStopped payload hst' | drawID | configure _ batch ha =>
    exact ⟨hq.move hq.pc id rfl rfl rfl rfl, hst, by simp⟩
  | send payload hne => exact absurd hst hne
  | enqueueAccepted i msg hi hr =>
    refine ⟨⟨hq.pc, ?_, hq.noStore⟩, hst, by simp⟩
    rcases hq.drained with hleave | ⟨-, hclosed | hsends⟩
    · exact .inl hleave
    · exact absurd hr (enqueue_closed hclosed msg)
    · rw [hsends] at hi
      cases hi
  | refused _ i msg result code hi ha =>
    refine ⟨⟨hq.pc, ?_, hq.noStore⟩, hst, by simp⟩
    refine hq.drained.imp_right fun hd => ⟨hd.1, hd.2.imp_right ?_⟩
    intro hsends
    rw [hsends] at hi
    cases hi

theorem stoppedQuiet_step (h : StoppedQuiet s) (hg : s.orderlyStop a = true)
    (hs : Steps s a s' es) : StoppedQuiet s' := by
  by_cases hst : s.status = .stopped
  · intro _
    exact (quiet_step (h hst) hst hg hs).1
  · -- Only the two stores of `Stopped` can make the status so.
    intro hst'
    cases hs with
    | effect e es k hpc =>
      cases e with
      | setStatus status =>
        obtain rfl : status = .stopped := hst'
        have hq : Quiet s := by
          refine quiet_of_isQuiet ?_
          simpa [orderlyStop, hst, storesStopped, hpc] using hg
        exact (hq.effect hpc).2
      | _ => exact absurd hst' hst
    | stopStored i c hi hpc =>
      have hq : Quiet s := by
        refine quiet_of_isQuiet ?_
        simpa [orderlyStop, hst, storesStopped, hi, hpc] using hg
      have hq' := hq.setStop (i := i) (c := { c with pc := .cancel }) (by simp)
      exact hq'.move hq.pc id rfl rfl rfl rfl
    | stopStore i c hi hpc => cases hst'
    | _ => exact absurd hst' hst

/-- **`Stopped` is final in an orderly run.** After it has been reached no call is
started and no other status is stored. -/
theorem stopped_absorbing {init : σ} {capacity : ℤ} {batch : BatchConfig}
    {tr₁ tr₂ : List (Event σ π)} {s₁ s₂ : Instance σ π}
    (h₁ : Run step (fun s a => s.orderlyStop a) (new init capacity batch) tr₁ s₁)
    (hst : s₁.status = .stopped) (h₂ : Run step (fun s a => s.orderlyStop a) s₁ tr₂ s₂) :
    s₂.status = .stopped ∧ ∀ call cur, .called call cur ∉ tr₂ := by
  have hq : StoppedQuiet s₁ := by
    refine h₁.invariant_state StoppedQuiet ?_
      (fun _ _ _ _ hi hg hs => stoppedQuiet_step hi hg (steps_of_step hs))
    intro hnew
    cases hnew
  have hinv : Quiet s₂ ∧ s₂.status = .stopped ∧ ∀ call cur, .called call cur ∉ tr₂ := by
    refine h₂.invariant
      (fun tr s => Quiet s ∧ s.status = .stopped ∧ ∀ call cur, .called call cur ∉ tr)
      ⟨hq hst, hst, by simp⟩ ?_
    rintro tr s a s' es ⟨hqs, hsts, hno⟩ hg hstep
    obtain ⟨hq', hst', hno'⟩ := quiet_step hqs hsts hg (steps_of_step hstep)
    refine ⟨hq', hst', ?_⟩
    intro call cur hmem
    rcases mem_append.mp hmem with hmem | hmem
    · exact hno call cur hmem
    · exact hno' call cur hmem
  exact hinv.2

/-- One message fails and the supervisor stops the actor: status, context and mailbox are all
written. -/
def stopByDecision : List (Action ℕ ℕ) :=
  [.hookReturns true, .effect, .send 7, .enqueue 0, .selectNotify, .readBatch, .dequeue, .enter,
    .callReturns .error, .decide .stop, .effect, .effect, .effect]

def stopWithBacklog : List (Action ℕ ℕ) :=
  [.hookReturns true, .effect, .send 7, .send 8, .enqueue 0, .enqueue 0, .selectNotify,
    .readBatch, .dequeue, .enter, .callReturns .error, .decide .stop, .effect, .effect, .effect]

theorem stopped_absorbing_by_decision : ∃ tr₁ tr₂ s₁ s₂,
      Run step (fun s a => s.orderlyStop a) (new 0 4 {} : Instance ℕ ℕ) tr₁ s₁ ∧
        s₁.status = .stopped ∧ Run step (fun s a => s.orderlyStop a) s₁ tr₂ s₂ ∧
        s₂.pc.leaving = true ∧ s₂.status = .stopped := by
  have h1 : ∃ r, exec step orderlyStop (new 0 4 {} : Instance ℕ ℕ) stopByDecision = some r ∧
      r.1.status = .stopped ∧
      ∃ r', exec step orderlyStop r.1 [.send 9, .readBatch, .dequeue, .selectDone, .effect] =
        some r' ∧ r'.1.pc.leaving = true :=
    ⟨_, rfl, rfl, _, rfl, rfl⟩
  obtain ⟨⟨s₁, tr₁⟩, h1, hst, ⟨s₂, tr₂⟩, h2, hleave⟩ := h1
  have hrun1 := Run.of_exec (fun _ _ h => h) h1
  have hrun2 := Run.of_exec (fun _ _ h => h) h2
  exact ⟨tr₁, tr₂, s₁, s₂, hrun1, hst, hrun2, hleave, (stopped_absorbing hrun1 hst hrun2).1⟩

/-- A message queued behind the fatal one is still handled, after the mailbox was closed. -/
theorem stopped_still_calls : ∃ tr₁ tr₂ s₁ s₂, Run step anyStep (new 0 4 {} : Instance ℕ ℕ) tr₁ s₁ ∧
      s₁.status = .stopped ∧ s₁.canceled = true ∧ s₁.mailbox.closed = true ∧
      Run step anyStep s₁ tr₂ s₂ ∧ tr₂ = [.called ⟨[⟨2, 8⟩], none⟩ 0] := by
  have hrun := Run.of_exec_any step (new 0 4 {} : Instance ℕ ℕ) stopWithBacklog rfl
  exact ⟨_, _, _, _, hrun, rfl, rfl, rfl,
    Run.of_exec_any step _ [.readBatch, .dequeue, .enter] rfl, rfl⟩

end Instance

end Westcoast
