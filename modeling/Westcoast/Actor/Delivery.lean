import Westcoast.Actor.Steps

/-!
# Every accepted message is handed over once, in order

What user code has been given is a prefix of what the mailbox accepted; the rest is what the
goroutine has dequeued and not handed over, and then the live part of the mailbox.
-/
namespace Westcoast

open Lib List Pc Mailbox

variable {σ π : Type}

def accepted : List (Event σ π) → List (Message π)
  | [] => []
  | .accepted msg :: tr => msg :: accepted tr
  | _ :: tr => accepted tr

def handed : List (Event σ π) → List (Message π)
  | [] => []
  | .called call _ :: tr => call.msgs ++ handed tr
  | _ :: tr => handed tr

theorem accepted_append (tr tr' : List (Event σ π)) :
    accepted (tr ++ tr') = accepted tr ++ accepted tr' := by
  induction tr with
  | nil => rfl
  | cons e tr ih => cases e <;> simp [accepted, ih]

theorem handed_append (tr tr' : List (Event σ π)) :
    handed (tr ++ tr') = handed tr ++ handed tr' := by
  induction tr with
  | nil => rfl
  | cons e tr ih => cases e <;> simp [handed, ih]

def Cont.inHand : Cont π → List (Message π)
  | .select | .exit => []
  | .rehook rest | .resume rest => rest

/-- The messages the goroutine has dequeued but not handed to user code yet. -/
def Pc.inHand : Pc σ π → List (Message π)
  | .batch msgs _ => msgs
  | .message msg rest => msg :: rest
  | .calling _ rest | .succeeded _ _ rest | .failed _ rest | .rehook rest => rest
  | .effects _ k => k.inHand
  | .starting | .selecting | .draining | .dequeuing _ | .exited => []

section
variable (call : Call π) (next : σ) (msg : Message π) (msgs rest : List (Message π)) (limit : ℤ)

@[simp] theorem Pc.inHand_batch : (batch msgs limit : Pc σ π).inHand = msgs := rfl
@[simp] theorem Pc.inHand_message : (message msg rest : Pc σ π).inHand = msg :: rest := rfl
@[simp] theorem Pc.inHand_calling : (calling call rest : Pc σ π).inHand = rest := rfl
@[simp] theorem Pc.inHand_succeeded : (succeeded call next rest).inHand = rest := rfl
@[simp] theorem Pc.inHand_failed : (failed call rest : Pc σ π).inHand = rest := rfl
@[simp] theorem Pc.inHand_rehook : (rehook rest : Pc σ π).inHand = rest := rfl
@[simp] theorem Pc.inHand_starting : (starting : Pc σ π).inHand = [] := rfl
@[simp] theorem Pc.inHand_selecting : (selecting : Pc σ π).inHand = [] := rfl
@[simp] theorem Pc.inHand_draining : (draining : Pc σ π).inHand = [] := rfl
@[simp] theorem Pc.inHand_dequeuing (cfg : BatchConfig) :
    (dequeuing cfg : Pc σ π).inHand = [] := rfl
@[simp] theorem Pc.inHand_effects (es : List Effect) (k : Cont π) :
    (effects es k : Pc σ π).inHand = k.inHand := rfl

end

@[simp] theorem Pc.inHand_resume (rest : List (Message π)) :
    (resume rest : Pc σ π).inHand = rest := by
  cases rest <;> rfl

@[simp] theorem Cont.inHand_pc (k : Cont π) : (k.pc : Pc σ π).inHand = k.inHand := by
  cases k with
  | resume rest => exact inHand_resume rest
  | _ => rfl

@[simp] theorem Pc.inHand_after (es : List Effect) (k : Cont π) :
    (after es k : Pc σ π).inHand = k.inHand := by
  cases es with
  | nil => exact Cont.inHand_pc k
  | cons e es => rfl

theorem Pc.resume_ne_batch (rest msgs : List (Message π)) (limit : ℤ) :
    (resume rest : Pc σ π) ≠ .batch msgs limit := by
  cases rest <;> simp [resume]

theorem Pc.after_ne_batch (es : List Effect) (k : Cont π) (msgs : List (Message π)) (limit : ℤ) :
    (after es k : Pc σ π) ≠ .batch msgs limit := by
  cases es with
  | cons e es => simp [after]
  | nil =>
    cases k with
    | resume rest => exact resume_ne_batch rest msgs limit
    | _ => simp [after, Cont.pc]

namespace Instance

@[simp] theorem toList_runEffect (s : Instance σ π) (e : Effect) :
    (s.runEffect e).mailbox.toList = s.mailbox.toList := by
  cases e <;> rfl

/-- Where the accepted messages are, and how long a dequeued batch can be. -/
structure Delivery (tr : List (Event σ π)) (s : Instance σ π) : Prop where
  split : accepted tr = handed tr ++ (s.pc.inHand ++ s.mailbox.toList)
  batch_le : ∀ msgs limit, s.pc = .batch msgs limit → (msgs.length : ℤ) ≤ limit
  calls_le : ∀ call state, .called call state ∈ tr → ∀ limit, call.limit = some limit →
    (call.msgs.length : ℤ) ≤ limit

variable {tr : List (Event σ π)} {s s' : Instance σ π}

theorem Delivery.quiet (h : Delivery tr s)
    (hsplit : s'.pc.inHand ++ s'.mailbox.toList = s.pc.inHand ++ s.mailbox.toList)
    (hbatch : ∀ msgs limit, s'.pc = .batch msgs limit → (msgs.length : ℤ) ≤ limit) :
    Delivery (tr ++ []) s' := by
  rw [append_nil]
  exact ⟨by rw [hsplit]; exact h.split, hbatch, h.calls_le⟩

theorem Delivery.silent {e : Event σ π} (h : Delivery tr s) (hacc : accepted [e] = [])
    (hcall : handed [e] = []) (hne : ∀ call state, e ≠ .called call state)
    (hsplit : s'.pc.inHand ++ s'.mailbox.toList = s.pc.inHand ++ s.mailbox.toList)
    (hbatch : ∀ msgs limit, s'.pc = .batch msgs limit → (msgs.length : ℤ) ≤ limit) :
    Delivery (tr ++ [e]) s' where
  split := by
    rw [accepted_append, handed_append, hacc, hcall, hsplit, append_nil, append_nil]
    exact h.split
  batch_le := hbatch
  calls_le := by
    intro call state hmem
    rcases mem_append.mp hmem with hmem | hmem
    · exact h.calls_le call state hmem
    · exact absurd (mem_singleton.mp hmem).symm (hne call state)

theorem Delivery.call {call : Call π} {state : σ} (h : Delivery tr s)
    (hsplit : call.msgs ++ (s'.pc.inHand ++ s'.mailbox.toList) = s.pc.inHand ++ s.mailbox.toList)
    (hbatch : ∀ msgs limit, s'.pc ≠ .batch msgs limit)
    (hle : ∀ limit, call.limit = some limit → (call.msgs.length : ℤ) ≤ limit) :
    Delivery (tr ++ [.called call state]) s' where
  split := by
    rw [accepted_append, handed_append]
    simp only [accepted, handed, append_nil, append_assoc]
    rw [hsplit]
    exact h.split
  batch_le := by intro msgs limit hpc; exact absurd hpc (hbatch msgs limit)
  calls_le := by
    intro call' state' hmem
    rcases mem_append.mp hmem with hmem | hmem
    · exact h.calls_le call' state' hmem
    · obtain ⟨rfl, rfl⟩ := Event.called.inj (mem_singleton.mp hmem)
      exact hle

variable [Inhabited π]

theorem delivery_new (initialState : σ) (capacity : ℤ) (batch : BatchConfig) :
    Delivery [] (new initialState capacity batch : Instance σ π) where
  split := by simp [accepted, handed, new, Mailbox.new, toList]
  batch_le := by simp [new]
  calls_le := by simp

theorem dequeueBatch_append (m : Mailbox (Message π)) (limit : ℤ) :
    (m.dequeueBatch limit).1 ++ (m.dequeueBatch limit).2.toList = m.toList := by
  rw [dequeueBatch_fst, toList_dequeueBatch, take_append_drop]

theorem length_dequeueBatch_le (m : Mailbox (Message π)) {limit : ℤ} (h : 1 < limit) :
    ((m.dequeueBatch limit).1.length : ℤ) ≤ limit := by
  rw [dequeueBatch_fst, length_take]
  omega

theorem delivery_step {a : Action σ π} {es : List (Event σ π)} (h : Delivery tr s)
    (hs : Steps s a s' es) : Delivery (tr ++ es) s' := by
  cases hs with
  | dequeueBatch cfg hpc hcfg =>
    have happ := dequeueBatch_append s.mailbox cfg.maxSize
    by_cases hempty : (s.mailbox.dequeueBatch cfg.maxSize).1.isEmpty
    · have hnil := isEmpty_iff.mp hempty
      rw [hnil, nil_append] at happ
      exact h.quiet (by simp [hempty, hpc, happ]) (by simp [hempty])
    · refine h.quiet (by simpa [hempty, hpc] using happ) ?_
      intro msgs limit heq
      simp only [hempty, Bool.false_eq_true, if_false, batch.injEq] at heq
      obtain ⟨rfl, rfl⟩ := heq
      exact length_dequeueBatch_le _ (by simpa using (Bool.and_eq_true_iff.mp hcfg).2)
  | dequeueEmpty cfg hpc hd =>
    rw [dequeue_fst, head?_eq_none_iff] at hd
    exact h.quiet (by simp [hpc, hd]) (by simp)
  | dequeueOne cfg msg hpc hd =>
    rw [dequeue_fst, head?_eq_some_iff] at hd
    obtain ⟨rest, hd⟩ := hd
    exact h.quiet (by simp [hpc, hd]) (by simp)
  | callBatch msgs limit hpc =>
    refine h.call (by simp [hpc]) (by simp) ?_
    intro limit' hl
    obtain rfl : limit = limit' := by simpa using hl
    exact h.batch_le msgs limit hpc
  | callOne msg rest hpc => exact h.call (by simp [hpc]) (by simp) (by simp)
  | callOk call rest next hpc | callFailed call rest result hpc hr =>
    exact h.silent rfl rfl (by simp) (by simp [hpc]) (by simp)
  | apply call next rest hpc =>
    exact h.silent rfl rfl (by simp) (by simp [hpc])
      (by intro msgs limit heq; exact absurd heq (resume_ne_batch _ _ _))
  | decideRestart call rest hpc | decideStop call rest d hpc hd =>
    exact h.silent rfl rfl (by simp) (by simp [hpc, Cont.inHand]) (by simp)
  | fallback msgs limit hpc =>
    exact h.quiet (by simp [hpc])
      (by intro msgs limit heq; exact absurd heq (resume_ne_batch _ _ _))
  | effect e es k hpc =>
    exact h.quiet (by simp [hpc])
      (by intro msgs limit heq; exact absurd heq (after_ne_batch _ _ _ _))
  | started hpc | startHookFailed hpc | selectDone hpc hc | rehookOk rest hpc
  | rehookFailed rest hpc => exact h.quiet (by simp [hpc, Cont.inHand]) (by simp)
  | selectNotify hpc hn => exact h.quiet (by simp [hpc, toList]) (by simp)
  | readBatch hpc => exact h.quiet (by simp [hpc]) (by simp)
  | stopCapture i c hi hpc => exact h.silent rfl rfl (by simp) rfl h.batch_le
  | enqueueAccepted i msg hi hr =>
    refine ⟨?_, h.batch_le, ?_⟩
    · rw [accepted_append, handed_append, toList_enqueue _ _ hr]
      simp [accepted, handed, h.split]
    · intro call state hmem
      rcases mem_append.mp hmem with hmem | hmem
      · exact h.calls_le call state hmem
      · simp at hmem
  | stop | stopCheck | stopStore | stopHook | stopStored | stopCancel | stopClose | sendStopped
  | send | refused | drawID | configure =>
    exact h.quiet rfl h.batch_le

/-- **Exactly once, in order.** What user code was given is a prefix of what the mailbox accepted,
in batches of at most the `MaxSize` that was read. -/
theorem handed_prefix_accepted {initialState : σ} {capacity : ℤ} {batch : BatchConfig}
    {tr : List (Event σ π)} {s : Instance σ π}
    (h : Run step anyStep (new initialState capacity batch) tr s) : handed tr <+: accepted tr ∧
      ∀ call state, .called call state ∈ tr → ∀ limit, call.limit = some limit →
        (call.msgs.length : ℤ) ≤ limit := by
  have hinv : Delivery tr s :=
    h.invariant Delivery (delivery_new initialState capacity batch)
      (fun tr s a s' es hi _ hs => delivery_step hi (steps_of_step hs))
  exact ⟨⟨_, hinv.split.symm⟩, hinv.calls_le⟩

/-- A batch of two fails; batching is switched off before the restart finishes, and the third goes
to the handler. -/
def toggleActions : List (Action ℕ ℕ) :=
  [.hookReturns true, .effect, .send 7, .send 8, .send 9, .enqueue 0, .enqueue 0, .enqueue 0,
    .selectNotify, .readBatch, .dequeue, .enter, .callReturns .panic, .decide .restart,
    .disableBatching, .effect, .effect, .hookReturns true, .effect, .readBatch, .dequeue, .enter]

theorem handed_prefix_accepted_toggle :
    ∃ tr s, Run step anyStep (new 0 4 ⟨true, 2, true⟩ : Instance ℕ ℕ) tr s ∧
      handed tr = [⟨1, 7⟩, ⟨2, 8⟩, ⟨3, 9⟩] ∧ handed tr <+: accepted tr := by
  have hrun := Run.of_exec_any step (new 0 4 ⟨true, 2, true⟩ : Instance ℕ ℕ) toggleActions rfl
  exact ⟨_, _, hrun, rfl, (handed_prefix_accepted hrun).1⟩

end Instance

end Westcoast
