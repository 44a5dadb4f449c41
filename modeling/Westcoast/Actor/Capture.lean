import Westcoast.Actor.Stopping

/-!
# When the captured state is final

`StopAndCapture` reads the state right after storing `Stopping`, at which the goroutine never looks.
The snapshot is final when the goroutine is `settled` and the mailbox empty at the read, and no
message is accepted afterwards.
-/
namespace Westcoast

open Lib List Option Bool

variable {σ π : Type}

/-- No call is in flight, no message is still to be handed over, and the state is not about to be
reset. -/
def Pc.settled : Pc σ π → Bool
  | .starting | .selecting | .draining | .dequeuing _ | .exited => true
  | .batch _ _ | .message _ _ | .calling _ _ | .succeeded _ _ _ | .failed _ _ => false
  | .effects es k => !es.contains .resetState && k.inHand.isEmpty
  | .rehook rest => rest.isEmpty

theorem Pc.settled_after {es : List Effect} {k : Cont π} {e : Effect}
    (h : (Pc.effects (e :: es) k : Pc σ π).settled = true) :
    e ≠ .resetState ∧ (Pc.after es k : Pc σ π).settled = true := by
  simp only [Pc.settled, and_eq_true, not_eq_true', contains_cons,
    or_eq_false_iff] at h
  obtain ⟨⟨he, hes⟩, hk⟩ := h
  refine ⟨?_, ?_⟩
  · rintro rfl
    cases he
  · cases es with
    | cons e es =>
      simp only [Pc.after, Pc.settled, hes, hk, Bool.not_false, Bool.and_self]
    | nil =>
      cases k with
      | resume rest =>
        obtain rfl := isEmpty_iff.mp hk
        rfl
      | rehook rest => exact hk
      | _ => rfl

/-- The program points of a stop call past the read of `StopAndCapture`. -/
def StopPc.pastCapture : StopPc → Bool
  | .hook | .storeStopped | .cancel | .closeMailbox | .returned .stopped => true
  | _ => false

theorem forall_getElem?_set {α : Type} {l : List α} {i : ℕ} {x : α} {P : ℕ → α → Prop}
    (h : ∀ j y, l[j]? = some y → P j y) (hx : P i x) : ∀ j y, (l.set i x)[j]? = some y → P j y := by
  intro j y hj
  by_cases hij : i = j
  · subst hij
    have hmem : i < (l.set i x).length := (List.getElem?_eq_some_iff.mp hj).1
    rw [length_set] at hmem
    rw [getElem?_set_self hmem] at hj
    cases hj
    exact hx
  · rw [getElem?_set_ne hij] at hj
    exact h j y hj

namespace Instance

/-- The goroutine has nothing left to process. -/
def idle (s : Instance σ π) : Bool :=
  s.pc.settled && (s.pc.leaving || s.mailbox.toList.isEmpty)

/-- The state is read in an idle instance only, and then no message is accepted that the goroutine
could still dequeue. -/
def undisturbedCapture (s : Instance σ π) : Action σ π → Bool
  | .stopStep i => !(s.stops[i]?.any fun c => c.pc = .capture) || s.idle
  | .enqueue _ => !(s.stops.any fun c => c.captured.isSome) || s.mailbox.closed || s.pc.leaving
  | _ => true

/-- From the snapshot on the state is the one that was read, and stays so. -/
structure Final (v : σ) (s : Instance σ π) : Prop where
  state : s.state.value = v
  settled : s.pc.settled = true
  drained : s.pc.leaving = true ∨ s.mailbox.toList = []
  captured : ∃ c ∈ s.stops, c.captured.isSome = true

variable {v : σ} {s s' : Instance σ π}

theorem Final.mailbox_empty (h : Final v s) (hl : s.pc.leaving = false) :
    s.mailbox.toList = [] := by
  rcases h.drained with hleave | hempty
  · rw [hl] at hleave
    cases hleave
  · exact hempty

theorem Final.move (h : Final v s) (hstate : s'.state = s.state) (hpc : s'.pc.settled = true)
    (hleave : s.pc.leaving = true → s'.pc.leaving = true)
    (hmail : s'.mailbox.toList = s.mailbox.toList)
    (hcap : (∃ c ∈ s.stops, c.captured.isSome = true) → ∃ c ∈ s'.stops, c.captured.isSome = true) :
    Final v s' where
  state := by rw [hstate]; exact h.state
  settled := hpc
  drained := by rw [hmail]; exact h.drained.imp_left hleave
  captured := hcap h.captured

variable {i : ℕ} {c : StopCall σ}

theorem captured_set {stops : List (StopCall σ)} {c' : StopCall σ} (hi : stops[i]? = some c)
    (hc : c.captured.isSome = true → c'.captured.isSome = true)
    (h : ∃ d ∈ stops, d.captured.isSome = true) :
    ∃ d ∈ stops.set i c', d.captured.isSome = true := by
  obtain ⟨d, hd, hsome⟩ := h
  obtain ⟨j, hj⟩ := mem_iff_getElem?.mp hd
  have hlt := (List.getElem?_eq_some_iff.mp hi).1
  by_cases hij : i = j
  · subst hij
    obtain rfl : c = d := some.inj (hi.symm.trans hj)
    exact ⟨c', mem_iff_getElem?.mpr ⟨i, getElem?_set_self hlt⟩, hc hsome⟩
  · refine ⟨d, mem_iff_getElem?.mpr ⟨j, ?_⟩, hsome⟩
    rw [getElem?_set_ne hij]
    exact hj

theorem final_capture (hi : s.stops[i]? = some c) (hpc : c.pc = .capture)
    (hg : s.undisturbedCapture (.stopStep i) = true) : Final s.state.value
      { s with
        stops := s.stops.set i { c with pc := .hook, captured := some s.state.value } } := by
  simp only [undisturbedCapture, hi, any_some, hpc, decide_true, Bool.not_true,
    Bool.false_or, idle, Bool.and_eq_true, Bool.or_eq_true, List.isEmpty_iff] at hg
  have hlt := (List.getElem?_eq_some_iff.mp hi).1
  exact ⟨rfl, hg.1, hg.2, { c with pc := .hook, captured := some s.state.value },
    mem_iff_getElem?.mpr ⟨i, getElem?_set_self hlt⟩, rfl⟩

/-- What stop call `i` holds: a snapshot that was read, and one at all once it is past the read. -/
structure StopHolds (tr : List (Event σ π)) (i : ℕ) (c : StopCall σ) : Prop where
  read : ∀ v, c.captured = some v → .captured i v ∈ tr
  past : c.capture = true → c.pc.pastCapture = true → c.captured.isSome = true

variable {tr es : List (Event σ π)}

theorem StopHolds.mono {c' : StopCall σ} (h : StopHolds tr i c) (es : List (Event σ π))
    (hcap : c'.capture = c.capture) (hv : c'.captured = c.captured)
    (hpast : c'.pc.pastCapture = true → c.capture = false ∨ c.pc.pastCapture = true) :
    StopHolds (tr ++ es) i c' where
  read := by
    intro v hc
    rw [hv] at hc
    exact mem_append_left _ (h.read v hc)
  past := by
    intro hc hp
    rw [hcap] at hc
    rw [hv]
    rcases hpast hp with hno | hp'
    · rw [hno] at hc
      cases hc
    · exact h.past hc hp'

variable [Inhabited π]

variable {a : Action σ π}

/-- What a step does to a final instance: it stays so, and applies no result. -/
theorem final_step (h : Final v s) (hg : s.undisturbedCapture a = true) (hs : Steps s a s' es) :
    Final v s' ∧ ∀ call next, .applied call next ∉ es := by
  have hset := h.settled
  cases hs with
  | callBatch _ _ hpc | callOne _ _ hpc | fallback _ _ hpc | callOk _ _ _ hpc | callFailed _ _ _ hpc
  | apply _ _ _ hpc | decideRestart _ _ hpc | decideStop _ _ _ hpc =>
    rw [hpc] at hset
    cases hset
  | started hpc | selectNotify hpc | readBatch hpc =>
    exact ⟨h.move rfl rfl (by rw [hpc]; intro hl; cases hl) rfl id, by simp⟩
  | startHookFailed hpc | selectDone hpc =>
    refine ⟨h.move rfl rfl ?_ rfl id, by simp⟩
    intro _
    rfl
  | dequeueBatch cfg hpc hcfg =>
    have hempty := h.mailbox_empty (by rw [hpc]; rfl)
    have hnone : (s.mailbox.dequeueBatch cfg.maxSize).1 = [] := by
      rw [Mailbox.dequeueBatch_fst, hempty, take_nil]
    refine ⟨h.move rfl ?_ (by rw [hpc]; intro hl; cases hl) ?_ id, by simp⟩
    · simp only [hnone]
      rfl
    · rw [Mailbox.toList_dequeueBatch, hempty, drop_nil]
  | dequeueEmpty cfg hpc hd =>
    have hempty := h.mailbox_empty (by rw [hpc]; rfl)
    refine ⟨h.move rfl rfl (by rw [hpc]; intro hl; cases hl) ?_ id, by simp⟩
    rw [Mailbox.toList_dequeue, hempty, tail_nil]
  | dequeueOne cfg msg hpc hd =>
    have hempty := h.mailbox_empty (by rw [hpc]; rfl)
    rw [Mailbox.dequeue_fst, hempty] at hd
    cases hd
  | effect e es k hpc =>
    rw [hpc] at hset
    obtain ⟨he, hafter⟩ := Pc.settled_after hset
    have hleave : s.pc.leaving = true → (Pc.after es k : Pc σ π).leaving = true := by
      rw [hpc]
      exact Pc.leaving_after
    refine ⟨?_, by simp⟩
    cases e with
    | resetState => exact absurd rfl he
    | _ => exact h.move rfl hafter hleave rfl id
  | rehookOk rest hpc | rehookFailed rest hpc =>
    rw [hpc] at hset
    obtain rfl := isEmpty_iff.mp hset
    exact ⟨h.move rfl rfl (by rw [hpc]; intro hl; cases hl) rfl id, by simp⟩
  | stop capture =>
    obtain ⟨c, hc, hsome⟩ := h.captured
    exact ⟨⟨h.state, h.settled, h.drained, c, mem_append_left _ hc, hsome⟩, by simp⟩
  | stopCapture i c hi hpc =>
    exact ⟨h.move rfl h.settled id rfl (captured_set hi fun _ => rfl), by simp⟩
  | stopCheck i c hi | stopStore i c hi | stopHook i c hi | stopStored i c hi | stopCancel i c hi
  | stopClose i c hi =>
    exact ⟨h.move rfl h.settled id rfl (captured_set hi id), by simp⟩
  | enqueueAccepted i msg hi hr =>
    refine ⟨⟨h.state, h.settled, .inl ?_, h.captured⟩, by simp⟩
    have hany : (s.stops.any fun c => c.captured.isSome) = true := any_eq_true.mpr h.captured
    simp only [undisturbedCapture, hany, Bool.not_true, Bool.false_or, Bool.or_eq_true] at hg
    rcases hg with hclosed | hleave
    · exact absurd hr (Mailbox.enqueue_closed hclosed msg)
    · exact hleave
  | sendStopped | send | refused | drawID | configure =>
    exact ⟨h.move rfl h.settled id rfl id, by simp⟩

/-- Every snapshot read so far is final: no result was applied after it. -/
def Snapshots (tr : List (Event σ π)) (s : Instance σ π) : Prop :=
  ∀ pre i v post, tr = pre ++ .captured i v :: post →
    Final v s ∧ ∀ call next, .applied call next ∉ post

theorem snapshots_step (h : Snapshots tr s) (hg : s.undisturbedCapture a = true)
    (hs : Steps s a s' es) : Snapshots (tr ++ es) s' := by
  -- A step emits at most one event, which either is the new snapshot or follows the old ones.
  have hold : ∀ pre i v post, tr = pre ++ .captured i v :: post →
      Final v s' ∧ ∀ call next, .applied call next ∉ post ++ es := by
    intro pre i v post htr
    obtain ⟨hfinal, hpost⟩ := h pre i v post htr
    obtain ⟨hfinal', hes⟩ := final_step hfinal hg hs
    refine ⟨hfinal', ?_⟩
    intro call next hmem
    rcases mem_append.mp hmem with hmem | hmem
    · exact hpost call next hmem
    · exact hes call next hmem
  have hnew : ∀ i v, es = [.captured i v] → Final v s' := by
    intro i v heq
    cases hs with
    | stopCapture j c hj hpc =>
      cases heq
      exact final_capture hj hpc hg
    | _ => cases heq
  intro pre i v post heq
  rcases events_step hs with rfl | ⟨e, rfl⟩
  · rw [append_nil] at heq
    simpa using hold pre i v post heq
  · rcases append_singleton_eq_append_cons heq with ⟨-, rfl, rfl⟩ | ⟨post', rfl, htr⟩
    · exact ⟨hnew i v rfl, by simp⟩
    · exact hold pre i v post' htr

theorem stopHolds_step (h : ∀ i c, s.stops[i]? = some c → StopHolds tr i c) (hs : Steps s a s' es) :
    ∀ i c, s'.stops[i]? = some c → StopHolds (tr ++ es) i c := by
  have hkeep : ∀ i c, s.stops[i]? = some c → StopHolds (tr ++ es) i c := by
    intro i c hi
    exact (h i c hi).mono es rfl rfl .inr
  cases hs with
  | stop capture =>
    intro i c hi
    rcases lt_or_ge i s.stops.length with hlt | hge
    · rw [getElem?_append_left hlt] at hi
      exact hkeep i c hi
    · rw [getElem?_append_right hge] at hi
      obtain rfl := mem_singleton.mp (mem_of_getElem? hi)
      exact ⟨by simp, by simp [StopPc.pastCapture]⟩
  | stopCheck i c hi hpc =>
    refine forall_getElem?_set hkeep ((h i c hi).mono _ rfl rfl ?_)
    intro hp
    simp only at hp
    split_ifs at hp <;> cases hp
  | stopStore i c hi hpc =>
    refine forall_getElem?_set hkeep ((h i c hi).mono _ rfl rfl ?_)
    intro hp
    by_cases hcap : c.capture = true
    · simp only [hcap, if_true] at hp
      cases hp
    · exact .inl (eq_false_iff.mpr hcap)
  | stopCapture i c hi hpc =>
    refine forall_getElem?_set hkeep ⟨?_, ?_⟩
    · intro v hv
      cases hv
      exact mem_append_right _ (mem_singleton.mpr rfl)
    · intro _ _
      rfl
  | stopHook i c hi hpc | stopStored i c hi hpc | stopCancel i c hi hpc
  | stopClose i c hi hpc =>
    refine forall_getElem?_set hkeep ((h i c hi).mono _ rfl rfl ?_)
    intro _
    rw [hpc]
    exact .inr rfl
  | effect e es k hpc =>
    have hstops : (s.runEffect e).stops = s.stops := by cases e <;> rfl
    simp only [hstops]
    exact hkeep
  | _ => exact hkeep

/-- **An undisturbed capture is final.** The snapshot of a `StopAndCapture` that has returned
`StopStopped` is the state of the instance, at the return and ever after. -/
theorem capture_final {init : σ} {capacity : ℤ} {batch : BatchConfig} {tr : List (Event σ π)}
    {s : Instance σ π}
    (h : Run step (fun s a => s.undisturbedCapture a) (new init capacity batch) tr s) {i : ℕ}
    {c : StopCall σ} (hi : s.stops[i]? = some c) (hcap : c.capture = true)
    (hret : c.pc = .returned .stopped) :
    ∃ v, c.captured = some v ∧ s.state.value = v ∧ ∃ pre post, tr = pre ++ .captured i v :: post ∧
        ∀ call next, .applied call next ∉ post := by
  have hholds : ∀ i c, s.stops[i]? = some c → StopHolds tr i c :=
    h.invariant (fun tr s => ∀ i c, s.stops[i]? = some c → StopHolds tr i c) (by simp [new])
      (fun _ _ _ _ _ hi _ hs => stopHolds_step hi (steps_of_step hs))
  have hsnap : Snapshots tr s :=
    h.invariant Snapshots (by simp [Snapshots])
      (fun _ _ _ _ _ hi hg hs => snapshots_step hi hg (steps_of_step hs))
  have hsome := (hholds i c hi).past hcap (by rw [hret]; rfl)
  obtain ⟨v, hv⟩ := isSome_iff_exists.mp hsome
  obtain ⟨pre, post, htr⟩ := append_of_mem ((hholds i c hi).read v hv)
  obtain ⟨hfinal, hpost⟩ := hsnap pre i v post htr
  exact ⟨v, hv, hfinal.state, pre, post, htr, hpost⟩

/-- One message is processed, and `StopAndCapture` runs to its end. -/
def captureWhenIdle : List (Action ℕ ℕ) :=
  [.hookReturns true, .effect, .send 7, .enqueue 0, .selectNotify, .readBatch, .dequeue, .enter,
    .callReturns (.ok 5), .apply, .readBatch, .dequeue, .stop true] ++
    replicate 7 (.stopStep 0)

/-- `StopAndCapture` reads the state while the handler runs, and returns after its result was
applied. -/
def captureInFlight : List (Action ℕ ℕ) :=
  [.hookReturns true, .effect, .send 7, .enqueue 0, .selectNotify, .readBatch, .dequeue, .enter,
    .stop true, .stopStep 0, .stopStep 0, .stopStep 0, .callReturns (.ok 5), .apply] ++
    replicate 4 (.stopStep 0)

theorem capture_final_when_idle :
    ∃ tr s, Run step (fun s a => s.undisturbedCapture a) (new 0 4 {} : Instance ℕ ℕ) tr s ∧
      s.stops = [⟨true, .returned .stopped, some 5⟩] ∧ s.state.value = 5 := by
  have hexec : ∃ r, exec step undisturbedCapture (new 0 4 {} : Instance ℕ ℕ) captureWhenIdle =
      some r ∧ r.1.stops = [⟨true, .returned .stopped, some 5⟩] := ⟨_, rfl, rfl⟩
  obtain ⟨⟨s, tr⟩, hexec, hstops⟩ := hexec
  have hrun := Run.of_exec (fun _ _ h => h) hexec
  obtain ⟨v, hv, hstate, -⟩ := capture_final hrun (i := 0) (by rw [hstops]; rfl) rfl rfl
  obtain rfl : 5 = v := some.inj hv
  exact ⟨tr, s, hrun, hstops, hstate⟩

/-- The snapshot returned is `0`, and the state is `5`. -/
theorem capture_loses_result : ∃ tr s, Run step anyStep (new 0 4 {} : Instance ℕ ℕ) tr s ∧
      s.stops = [⟨true, .returned .stopped, some 0⟩] ∧ s.state.value = 5 ∧
      ∃ pre post, tr = pre ++ .captured 0 0 :: post ∧ .applied ⟨[⟨1, 7⟩], none⟩ 5 ∈ post := by
  have hrun := Run.of_exec_any step (new 0 4 {} : Instance ℕ ℕ) captureInFlight rfl
  exact ⟨_, _, hrun, rfl, rfl, [.accepted ⟨1, 7⟩, .called ⟨[⟨1, 7⟩], none⟩ 0],
    [.returned ⟨[⟨1, 7⟩], none⟩ (.ok 5), .applied ⟨[⟨1, 7⟩], none⟩ 5], rfl, by simp⟩

end Instance

end Westcoast
