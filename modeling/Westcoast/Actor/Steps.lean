import Westcoast.Actor.Instance

/-!
# What a step of an instance can do

`Steps` lists the steps of the machine, with the guard of each and the state it leaves.
`steps_of_step` inverts the step function into that list once; every invariant is then a case
analysis over `Steps`.
-/
namespace Westcoast

open Lib Option

variable {σ π : Type} [Inhabited π]

namespace Instance

/-- The steps of an instance, one constructor per branch of the source. -/
inductive Steps (s : Instance σ π) :
    Action σ π → Instance σ π → List (Event σ π) → Prop
  | started (hpc : s.pc = .starting) :
      Steps s (.hookReturns true) { s with pc := .effects [.setStatus .running] .select } []
  | startHookFailed (hpc : s.pc = .starting) :
      Steps s (.hookReturns false) { s with pc := .effects startFailed .exit } []
  | selectDone (hpc : s.pc = .selecting) (hc : s.canceled = true) :
      Steps s .selectDone { s with pc := .effects [.setStatus .stopped] .exit } []
  | selectNotify (hpc : s.pc = .selecting) (hn : s.mailbox.notify = true) : Steps s .selectNotify
        { s with mailbox := { s.mailbox with notify := false }, pc := .draining } []
  | readBatch (hpc : s.pc = .draining) : Steps s .readBatch { s with pc := .dequeuing s.batch } []
  | dequeueBatch (cfg : BatchConfig) (hpc : s.pc = .dequeuing cfg)
      (hcfg : (cfg.enabled && decide (cfg.maxSize > 1)) = true) :
      Steps s .dequeue
        { s with
          mailbox := (s.mailbox.dequeueBatch cfg.maxSize).2
          pc := if (s.mailbox.dequeueBatch cfg.maxSize).1.isEmpty then .selecting
            else .batch (s.mailbox.dequeueBatch cfg.maxSize).1 cfg.maxSize } []
  | dequeueEmpty (cfg : BatchConfig) (hpc : s.pc = .dequeuing cfg)
      (hd : s.mailbox.dequeue.1 = none) :
      Steps s .dequeue { s with mailbox := s.mailbox.dequeue.2, pc := .selecting } []
  | dequeueOne (cfg : BatchConfig) (msg : Message π) (hpc : s.pc = .dequeuing cfg)
      (hd : s.mailbox.dequeue.1 = some msg) :
      Steps s .dequeue { s with mailbox := s.mailbox.dequeue.2, pc := .message msg [] } []
  | fallback (msgs : List (Message π)) (limit : ℤ) (hpc : s.pc = .batch msgs limit) :
      Steps s .enter { s with pc := .resume msgs } []
  | callBatch (msgs : List (Message π)) (limit : ℤ) (hpc : s.pc = .batch msgs limit) :
      Steps s .enter { s with pc := .calling ⟨msgs, some limit⟩ [] }
        [.called ⟨msgs, some limit⟩ s.state.value]
  | callOne (msg : Message π) (rest : List (Message π)) (hpc : s.pc = .message msg rest) :
      Steps s .enter { s with pc := .calling ⟨[msg], none⟩ rest }
        [.called ⟨[msg], none⟩ s.state.value]
  | callOk (call : Call π) (rest : List (Message π)) (next : σ) (hpc : s.pc = .calling call rest) :
      Steps s (.callReturns (.ok next)) { s with pc := .succeeded call next rest }
        [.returned call (.ok next)]
  | callFailed (call : Call π) (rest : List (Message π)) (result : CallResult σ)
      (hpc : s.pc = .calling call rest) (hr : ∀ next, result ≠ .ok next) :
      Steps s (.callReturns result) { s with pc := .failed call rest } [.returned call result]
  | apply (call : Call π) (next : σ) (rest : List (Message π))
      (hpc : s.pc = .succeeded call next rest) :
      Steps s .apply
        { s with
          state := s.state.apply next
          outcomes := s.outcomes ++
            call.msgs.map fun msg => { messageID := msg.id, result := .delivered }
          pc := .resume rest } [.applied call next]
  | decideRestart (call : Call π) (rest : List (Message π)) (hpc : s.pc = .failed call rest) :
      Steps s (.decide .restart)
        { s with
          outcomes := s.outcomes ++ call.msgs.map fun msg =>
            { messageID := msg.id, result := .failed, supervisionDecision := some .restart,
              supervisionIteration := s.restarts, errorCode := errorCode call }
          lastDecision := some .restart
          restarts := s.restarts + 1
          pc := .effects beginRestart (.rehook rest) } [.decided call .restart]
  | decideStop (call : Call π) (rest : List (Message π)) (d : SupervisionDecision)
      (hpc : s.pc = .failed call rest) (hd : d ≠ .restart) :
      Steps s (.decide d)
        { s with
          outcomes := s.outcomes ++ call.msgs.map fun msg =>
            { messageID := msg.id, result := .failed, supervisionDecision := some d,
              supervisionIteration := s.restarts, errorCode := errorCode call }
          lastDecision := some d
          pc := .effects terminate (.resume rest) } [.decided call d]
  | effect (e : Effect) (es : List Effect) (k : Cont π) (hpc : s.pc = .effects (e :: es) k) :
      Steps s .effect { s.runEffect e with pc := .after es k } []
  | rehookOk (rest : List (Message π)) (hpc : s.pc = .rehook rest) : Steps s (.hookReturns true)
        { s with pc := .effects [.setStatus .running] (.resume rest) } []
  | rehookFailed (rest : List (Message π)) (hpc : s.pc = .rehook rest) :
      Steps s (.hookReturns false) { s with pc := .effects terminate (.resume rest) } []
  | stop (capture : Bool) :
      Steps s (.stop capture) { s with stops := s.stops ++ [⟨capture, .check, none⟩] } []
  | stopCheck (i : ℕ) (c : StopCall σ) (hi : s.stops[i]? = some c) (hpc : c.pc = .check) :
      Steps s (.stopStep i)
        { s with
          stops := s.stops.set i
            { c with pc := if s.status = .stopped then .returned .already else .store } } []
  | stopStore (i : ℕ) (c : StopCall σ) (hi : s.stops[i]? = some c) (hpc : c.pc = .store) :
      Steps s (.stopStep i)
        { s with
          status := .stopping
          stops := s.stops.set i { c with pc := if c.capture then .capture else .hook } } []
  | stopCapture (i : ℕ) (c : StopCall σ) (hi : s.stops[i]? = some c) (hpc : c.pc = .capture) :
      Steps s (.stopStep i)
        { s with stops := s.stops.set i { c with pc := .hook, captured := some s.state.value } }
        [.captured i s.state.value]
  | stopHook (i : ℕ) (c : StopCall σ) (hi : s.stops[i]? = some c) (hpc : c.pc = .hook) :
      Steps s (.stopStep i) { s with stops := s.stops.set i { c with pc := .storeStopped } } []
  | stopStored (i : ℕ) (c : StopCall σ) (hi : s.stops[i]? = some c) (hpc : c.pc = .storeStopped) :
      Steps s (.stopStep i)
        { s with status := .stopped, stops := s.stops.set i { c with pc := .cancel } } []
  | stopCancel (i : ℕ) (c : StopCall σ) (hi : s.stops[i]? = some c) (hpc : c.pc = .cancel) :
      Steps s (.stopStep i)
        { s with canceled := true, stops := s.stops.set i { c with pc := .closeMailbox } } []
  | stopClose (i : ℕ) (c : StopCall σ) (hi : s.stops[i]? = some c) (hpc : c.pc = .closeMailbox) :
      Steps s (.stopStep i)
        { s with
          mailbox := s.mailbox.close
          stops := s.stops.set i { c with pc := .returned .stopped } } []
  | sendStopped (payload : π) (hs : s.status = .stopped) : Steps s (.send payload)
        { s with
          msgSeq := s.msgSeq + 1
          outcomes := s.outcomes ++
            [{ messageID := s.msgSeq + 1, result := .rejectedStop,
               errorCode := "rejected_stopped" }] } []
  | send (payload : π) (hs : s.status ≠ .stopped) : Steps s (.send payload)
        { s with
          msgSeq := s.msgSeq + 1
          sends := s.sends ++ [⟨s.msgSeq + 1, payload⟩] } []
  | enqueueAccepted (i : ℕ) (msg : Message π) (hi : s.sends[i]? = some msg)
      (hr : (s.mailbox.enqueue msg).1 = .accepted) :
      Steps s (.enqueue i)
        { s with sends := s.sends.eraseIdx i, mailbox := (s.mailbox.enqueue msg).2 }
        [.accepted msg]
  | refused (a : Action σ π) (i : ℕ) (msg : Message π) (result : ProcessingResult)
      (code : String) (hi : s.sends[i]? = some msg)
      (ha : a = .enqueue i ∨ ∃ mismatch, a = .routeReject i mismatch) :
      Steps s a
        { s with
          sends := s.sends.eraseIdx i
          outcomes := s.outcomes ++
            [{ messageID := msg.id, result := result, errorCode := code }] } []
  | drawID : Steps s .drawID { s with msgSeq := s.msgSeq + 1 } []
  | configure (a : Action σ π) (batch : BatchConfig)
      (ha : a = .disableBatching ∨ ∃ maxSize receiver, a = .configureBatching maxSize receiver) :
      Steps s a { s with batch := batch } []

variable {s s' : Instance σ π} {a : Action σ π} {es : List (Event σ π)}

theorem events_step (hs : Steps s a s' es) : es = [] ∨ ∃ e, es = [e] := by
  cases hs <;> simp

theorem steps_drain {cfg : BatchConfig} (hpc : s.pc = .dequeuing cfg) :
    Steps s .dequeue (s.drainStep cfg) [] := by
  unfold drainStep
  by_cases hcfg : (cfg.enabled && decide (cfg.maxSize > 1)) = true
  · rw [if_pos hcfg]
    exact .dequeueBatch cfg hpc hcfg
  · rw [if_neg hcfg]
    cases hd : s.mailbox.dequeue with
    | mk msg mailbox =>
      have h1 : s.mailbox.dequeue.1 = msg := by rw [hd]
      have h2 : s.mailbox.dequeue.2 = mailbox := by rw [hd]
      cases msg with
      | none => simpa only [h2] using Steps.dequeueEmpty cfg hpc h1
      | some msg => simpa only [h2] using Steps.dequeueOne cfg msg hpc h1

theorem steps_enqueue {i : ℕ} {msg : Message π} (hi : s.sends[i]? = some msg) :
    Steps s (.enqueue i) ({ s with sends := s.sends.eraseIdx i }.enqueueStep msg).1
      ({ s with sends := s.sends.eraseIdx i }.enqueueStep msg).2 := by
  have hkeep := Mailbox.enqueue_refused s.mailbox msg
  have hacc := Steps.enqueueAccepted (s := s) i msg hi
  unfold enqueueStep
  simp only
  cases hd : s.mailbox.enqueue msg with
  | mk result mailbox =>
    rw [hd] at hkeep hacc
    cases result with
    | accepted => simpa only using hacc rfl
    | rejectedFull | _ =>
      have hm : mailbox = s.mailbox := hkeep (by simp)
      subst hm
      exact .refused _ i msg _ _ hi (.inl rfl)

theorem steps_goroutine (h : s.goroutineStep s.pc a = some (s', es)) : Steps s a s' es := by
  generalize hpc : s.pc = pc at h
  unfold goroutineStep at h
  split at h
  · cases h; exact .started hpc
  · cases h; exact .startHookFailed hpc
  · split at h
    · next hc => cases h; exact .selectDone hpc hc
    · cases h
  · split at h
    · next hn => cases h; exact .selectNotify hpc hn
    · cases h
  · cases h; exact .readBatch hpc
  · cases h; exact steps_drain hpc
  · split at h
    · cases h; exact .fallback _ _ hpc
    · cases h; exact .callBatch _ _ hpc
  · cases h; exact .callOne _ _ hpc
  · next call rest result =>
    cases result with
    | ok next => cases h; exact .callOk _ _ next hpc
    | error | panic => cases h; exact .callFailed _ _ _ hpc (by simp)
  · cases h; exact .apply _ _ _ hpc
  · next call rest decision =>
    cases decision with
    | restart => cases h; exact .decideRestart _ _ hpc
    | stop | escalate | other name => cases h; exact .decideStop _ _ _ hpc (by simp)
  · cases h; exact .effect _ _ _ hpc
  · cases h; exact .rehookOk _ hpc
  · cases h; exact .rehookFailed _ hpc
  · cases h

theorem steps_stop {i : ℕ} {c : StopCall σ} (hi : s.stops[i]? = some c)
    (h : s.stopStep i c = some (s', es)) : Steps s (.stopStep i) s' es := by
  unfold stopStep at h
  simp only at h
  split at h
  · next hpc => cases h; exact .stopCheck i c hi hpc
  · next hpc => cases h; exact .stopStore i c hi hpc
  · next hpc => cases h; exact .stopCapture i c hi hpc
  · next hpc => cases h; exact .stopHook i c hi hpc
  · next hpc => cases h; exact .stopStored i c hi hpc
  · next hpc => cases h; exact .stopCancel i c hi hpc
  · next hpc => cases h; exact .stopClose i c hi hpc
  · cases h

theorem steps_of_step (h : s.step a = some (s', es)) : Steps s a s' es := by
  cases a with
  | stop capture => cases h; exact .stop capture
  | stopStep i =>
    simp only [step, bind_eq_some_iff] at h
    obtain ⟨c, hi, h⟩ := h
    exact steps_stop hi h
  | send payload =>
    simp only [step] at h
    split at h
    · next hs => cases h; exact .sendStopped payload hs
    · next hs => cases h; exact .send payload hs
  | enqueue i =>
    simp only [step, map_eq_some_iff] at h
    obtain ⟨msg, hi, h⟩ := h
    have := steps_enqueue hi
    rw [h] at this
    exact this
  | routeReject i mismatch =>
    simp only [step, map_eq_some_iff] at h
    obtain ⟨msg, hi, h⟩ := h
    cases mismatch <;> cases h <;> exact .refused _ i msg _ _ hi (.inr ⟨_, rfl⟩)
  | drawID => cases h; exact .drawID
  | configureBatching maxSize receiver =>
    simp only [step] at h
    split at h
    · cases h; exact .configure _ s.batch (.inr ⟨_, _, rfl⟩)
    · cases h; exact .configure _ _ (.inr ⟨_, _, rfl⟩)
  | disableBatching => cases h; exact .configure _ _ (.inl rfl)
  | _ => exact steps_goroutine h

end Instance

end Westcoast
