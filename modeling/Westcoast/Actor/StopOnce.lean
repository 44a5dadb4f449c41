import Westcoast.Actor.Steps

/-!
# Whether an actor is stopped once

`Stop` reads the status and stores `Stopping` in two steps, so two calls can both find the actor
running and run its stop hook. `stopped_once` excludes overlapping calls and a goroutine that
overwrites the status.
-/
namespace Westcoast

open Lib List StopCall

variable {σ π : Type}

/-- The call is between its check and its store of `Stopped`. -/
def StopCall.working (c : StopCall σ) : Bool :=
  match c.pc with
  | .store | .capture | .hook | .storeStopped => true
  | _ => false

def StopCall.ended (c : StopCall σ) : Bool :=
  match c.pc with
  | .cancel | .closeMailbox | .returned .stopped => true
  | _ => false

def StopCall.hooked (c : StopCall σ) : Bool :=
  c.ended || c.pc = .hook || c.pc = .storeStopped

def Pc.stores : Pc σ π → Option ActorStatus
  | .effects (.setStatus status :: _) _ => some status
  | _ => none

theorem countP_set {α : Type} {l : List α} {i : ℕ} {x : α} (p : α → Bool) (hi : l[i]? = some x)
    (y : α) : (l.set i y).countP p + (p x).toNat = l.countP p + (p y).toNat := by
  obtain ⟨hlt, rfl⟩ := List.getElem?_eq_some_iff.mp hi
  have hpos : p l[i] = true → 0 < l.countP p := fun hp =>
    countP_pos_iff.mpr ⟨_, getElem_mem hlt, hp⟩
  rw [List.countP_set hlt]
  cases hx : p l[i] <;> cases hy : p y <;> simp_all

theorem countP_hooked_le (l : List (StopCall σ)) :
    l.countP (·.hooked) ≤ l.countP (·.working) + l.countP (·.ended) := by
  induction l with
  | nil => simp
  | cons c l ih =>
    have hhead : c.hooked = true → c.working = true ∨ c.ended = true := by
      cases hpc : c.pc <;> simp [hooked, working, ended, hpc]
    simp only [countP_cons]
    split_ifs <;> first | omega | simp_all

namespace Instance

/-- No call reads the status while another is at work, and the goroutine overwrites nothing a call
stored. -/
def Orderly (s : Instance σ π) : Action σ π → Prop
  | .stopStep i => (s.stops[i]?.any fun c => c.pc = .check) = true → s.stops.countP (·.working) = 0
  | .effect => 0 < s.stops.countP (·.ended) → ∀ status ∈ s.pc.stores, status = .stopped
  | _ => True

instance orderlyDecidable (s : Instance σ π) (a : Action σ π) : Decidable (s.Orderly a) := by
  cases a <;> unfold Orderly <;> infer_instance

/-- At most one call has found the actor not stopped, and what it has stored is there. -/
structure Once (s : Instance σ π) : Prop where
  one : s.stops.countP (·.working) + s.stops.countP (·.ended) ≤ 1
  stopped : 0 < s.stops.countP (·.ended) → s.status = .stopped
  result : ∀ c ∈ s.stops, c.pc ≠ .returned .notFound

variable {s s' : Instance σ π} {i : ℕ} {c : StopCall σ}

theorem Once.of_eq (h : s.Once) (hstops : s'.stops = s.stops) (hstatus : s'.status = s.status) :
    s'.Once := by
  obtain ⟨hone, hstopped, hresult⟩ := h
  rw [← hstops] at hone hstopped hresult
  rw [← hstatus] at hstopped
  exact ⟨hone, hstopped, hresult⟩

theorem Once.set (h : s.Once) {c' : StopCall σ} (hi : s.stops[i]? = some c)
    (hs : s'.stops = s.stops.set i c') (hresult : c'.pc ≠ .returned .notFound)
    (hone : c'.working.toNat + c'.ended.toNat ≤ c.working.toNat + c.ended.toNat ∨
      s.stops.countP (·.working) + s.stops.countP (·.ended) = 0)
    (hstatus : s'.status = .stopped ∨
      c'.ended = c.ended ∧ (c.working = true ∨ s'.status = s.status)) : s'.Once := by
  have hworking := countP_set (·.working) hi c'
  have hended := countP_set (·.ended) hi c'
  have hle := h.one
  refine ⟨?_, fun hpos => ?_, fun c1 hmem => ?_⟩
  · have hbit : c'.working.toNat + c'.ended.toNat ≤ 1 := by
      cases hpc : c'.pc <;> simp [working, ended, hpc]
      split <;> simp
    rw [hs]
    omega
  · rcases hstatus with hst | ⟨hsame, hwork | hst⟩
    · exact hst
    · have hpos' : 0 < s.stops.countP (·.working) :=
        countP_pos_iff.mpr ⟨c, mem_of_getElem? hi, hwork⟩
      rw [hs] at hpos
      rw [hsame] at hended
      omega
    · rw [hst]
      rw [hs] at hpos
      rw [hsame] at hended
      exact h.stopped (by omega)
  · rw [hs] at hmem
    rcases mem_or_eq_of_mem_set hmem with hold | rfl
    · exact h.result c1 hold
    · exact hresult

variable [Inhabited π]

theorem Once.step {a : Action σ π} {es : List (Event σ π)} (h : s.Once) (ho : s.Orderly a)
    (hs : s.step a = some (s', es)) : s'.Once := by
  cases steps_of_step hs with
  | effect e es k hpc =>
    cases e with
    | setStatus status =>
      exact ⟨h.one, fun hpos => ho hpos status (by rw [hpc]; rfl), h.result⟩
    | resetState | cancel | closeMailbox => exact h.of_eq rfl rfl
  | stop capture =>
    refine ⟨?_, fun hpos => h.stopped ?_, fun c hmem => ?_⟩
    · simpa [working, ended] using h.one
    · simpa [working, ended] using hpos
    · rcases mem_append.mp hmem with hold | hnew
      · exact h.result c hold
      · rw [mem_singleton.mp hnew]
        simp
  | stopCheck i c hi hpc =>
    have hidle := ho (by simp [hi, hpc])
    by_cases hst : s.status = .stopped
    · refine h.set hi rfl ?_ ?_ (.inl hst) <;> simp [hst, working, ended]
    · have hnone := mt h.stopped hst
      refine h.set hi rfl (by simp [hst]) (.inr (by omega)) (.inr ⟨?_, .inr rfl⟩)
      simp [ended, hst, hpc]
  | stopStore i c hi hpc =>
    refine h.set hi rfl ?_ ?_ (.inr ?_) <;> cases hcap : c.capture <;>
      simp [ended, working, hpc]
  | stopCapture i c hi hpc | stopHook i c hi hpc | stopStored i c hi hpc | stopCancel i c hi hpc
  | stopClose i c hi hpc =>
    refine h.set hi rfl ?_ ?_ ?_ <;> simp [ended, working, hpc]
  | _ => exact h.of_eq rfl rfl

/-- **One call stops the actor**, if calls do not overlap and the goroutine leaves a stored
`Stopped` alone: one stop hook, one `StopStopped`, and `StopAlready` for the others. -/
theorem stopped_once {initialState : σ} {capacity : ℤ} {batch : BatchConfig} {tr : List (Event σ π)}
    (hrun : Run step Orderly (new initialState capacity batch : Instance σ π) tr s) :
    s.stops.countP (·.hooked) ≤ 1 ∧ s.stops.countP (·.pc = .returned .stopped) ≤ 1 ∧
      ∀ c ∈ s.stops, ∀ r, c.pc = .returned r → r = .stopped ∨ r = .already := by
  have honce : s.Once := hrun.invariant_state Once
    ⟨Nat.zero_le _, fun hpos => absurd hpos (by simp [new]), by simp [new]⟩
    fun _ _ _ _ h ho hs => h.step ho hs
  have hle := honce.one
  have hhooked := countP_hooked_le s.stops
  have hreturned : s.stops.countP (·.pc = .returned .stopped) ≤ s.stops.countP (·.hooked) := by
    refine countP_mono_left fun c _ hc => ?_
    simp_all [hooked, ended]
  refine ⟨by omega, by omega, fun c hc r hr => ?_⟩
  cases r with
  | stopped => exact .inl rfl
  | already => exact .inr rfl
  | notFound => exact absurd hr (honce.result c hc)

def stopTwice : List (Action ℕ ℕ) :=
  [.hookReturns true, .effect, .stop false, .stopStep 0, .stopStep 0, .stopStep 0, .stopStep 0,
    .stopStep 0, .stopStep 0, .stop true, .stopStep 1]

theorem stopped_once_twice : ∃ tr s, Run step Orderly (new 0 4 {} : Instance ℕ ℕ) tr s ∧
    s.stops.map (·.pc) = [.returned .stopped, .returned .already] ∧ s.stops.countP (·.hooked) ≤ 1 :=
  Run.of_check_then stopTwice (by decide +kernel) fun tr s hrun hpcs =>
    ⟨tr, s, hrun, hpcs, (stopped_once hrun).1⟩

/-- Both calls find the actor running. -/
theorem two_calls_stop_actor : ∃ tr s, Run step anyStep (new 0 4 {} : Instance ℕ ℕ) tr s ∧
    s.stops.map (·.pc) = [.returned .stopped, .returned .stopped] ∧ s.stops.countP (·.hooked) = 2 :=
  Run.of_check [.hookReturns true, .effect, .stop false, .stop false, .stopStep 0, .stopStep 1,
    .stopStep 0, .stopStep 0, .stopStep 0, .stopStep 0, .stopStep 0, .stopStep 1, .stopStep 1,
    .stopStep 1, .stopStep 1, .stopStep 1] (by decide +kernel)

end Instance
end Westcoast
