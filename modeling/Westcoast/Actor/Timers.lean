import Westcoast.Actor.PID
import Westcoast.Lib.Machine

/-!
# Timers

`timers.go`. The goroutine of a timer waits in a `select` for its tick and for its context. If both
are ready either may be taken; unlike `runSchedule` it does not look at its context again.
-/
namespace Westcoast

open Lib List Option

/-- What a timer sends to an identifier or a name, once or at every tick. -/
structure TimerSpec (π : Type) where
  target : PID ⊕ String
  payload : π
  interval : Bool
  duration : ℤ

section
variable {π : Type} (target : PID) (name : String) (payload : π) (duration : ℤ)

def sendAfter : TimerSpec π := ⟨.inl target, payload, false, duration⟩
def sendInterval : TimerSpec π := ⟨.inl target, payload, true, duration⟩
def sendAfterName : TimerSpec π := ⟨.inr name, payload, false, duration⟩
def sendIntervalName : TimerSpec π := ⟨.inr name, payload, true, duration⟩

end

/-- The goroutine has no timer yet, is at its `select`, has returned, or is in `NewTicker` with a
duration that is not positive. -/
inductive TimerPc
  | spawned
  | selecting
  | returned
  | panicked
  deriving DecidableEq

/-- `expiry` is the time of the next tick, and `tick` says whether one is in the channel. -/
structure Timer where
  now : ℤ := 0
  pc : TimerPc := .spawned
  expiry : Option ℤ := none
  tick : Bool := false
  canceled : Bool := false

inductive TimerAction
  | elapse (d : ℕ)
  | makeTimer
  | expire
  | cancel
  | takeTick
  | takeDone

/-- A call of `SendPID` or `SendName`; `late` if `Cancel` had returned before the `select`. -/
structure TimerSent (π : Type) where
  target : PID ⊕ String
  payload : π
  late : Bool
  deriving DecidableEq

namespace Timer

variable {π : Type} (spec : TimerSpec π)

def step (t : Timer) : TimerAction → Option (Timer × List (TimerSent π))
  | .elapse d => some ({ t with now := t.now + d }, [])
  | .makeTimer =>
    if t.pc = .spawned then
      some (if spec.interval ∧ spec.duration ≤ 0 then { t with pc := .panicked }
        else { t with pc := .selecting, expiry := some (t.now + spec.duration) }, [])
    else none
  | .expire =>
    t.expiry.bind fun e =>
      if t.pc = .selecting ∧ e ≤ t.now then
        -- a ticker drops a tick for which its channel has no room
        let next := e + spec.duration * (1 + (t.now - e) / spec.duration)
        some ({ t with tick := true, expiry := if spec.interval then some next else none }, [])
      else none
  | .cancel => some ({ t with canceled := true }, [])
  | .takeTick =>
    if t.pc = .selecting ∧ t.tick then
      some ({ t with tick := false, pc := if spec.interval then .selecting else .returned },
        [⟨spec.target, spec.payload, t.canceled⟩])
    else none
  | .takeDone =>
    if t.pc = .selecting ∧ t.canceled then some ({ t with pc := .returned }, []) else none

/-- No tick is ready when `Cancel` is called, and none comes before the goroutine has returned. -/
def prompt (t : Timer) : TimerAction → Bool
  | .cancel => !t.tick
  | .expire => !t.canceled
  | _ => true

variable {spec} {t t' : Timer} {tr es : List (TimerSent π)} {a : TimerAction}

theorem punctual_step (h : t.canceled = true → t.tick = false) (hp : t.prompt a = true)
    (hs : t.step spec a = some (t', es)) :
    (t'.canceled = true → t'.tick = false) ∧ ∀ e ∈ es, e.late = false := by
  cases a with
  | elapse d =>
    cases hs
    exact ⟨h, by simp⟩
  | makeTimer =>
    obtain ⟨-, hs⟩ := ite_none_right_eq_some.mp hs
    cases hs
    split_ifs <;> exact ⟨h, by simp⟩
  | expire =>
    obtain ⟨e, -, hs⟩ := bind_eq_some_iff.mp hs
    obtain ⟨-, hs⟩ := ite_none_right_eq_some.mp hs
    cases hs
    have hopen : t.canceled = false := by simpa [prompt] using hp
    exact ⟨by simp [hopen], by simp⟩
  | cancel =>
    cases hs
    exact ⟨fun _ => by simpa [prompt] using hp, by simp⟩
  | takeTick =>
    obtain ⟨⟨-, htick⟩, hs⟩ := ite_none_right_eq_some.mp hs
    cases hs
    have hopen : t.canceled = false := by
      by_contra hc
      simp [h (by simpa using hc)] at htick
    exact ⟨fun _ => rfl, by simp [hopen]⟩
  | takeDone =>
    obtain ⟨-, hs⟩ := ite_none_right_eq_some.mp hs
    cases hs
    exact ⟨h, by simp⟩

/-- **When a cancelled timer is silent**: if no tick is ready between `Cancel` and the return of the
goroutine. A tick that is ready then may be sent. -/
theorem canceled_never_fires (h : Run (step spec) (fun t a => t.prompt a = true) {} tr t) :
    (∀ e ∈ tr, e.late = false) ∧
      ∀ a t' es, t.step spec a = some (t', es) → t.prompt a = false → t'.pc = .selecting →
        ∃ t'', t'.step spec .takeTick = some (t'', [⟨spec.target, spec.payload, t'.canceled⟩]) := by
  have hinv : (t.canceled = true → t.tick = false) ∧ ∀ e ∈ tr, e.late = false := by
    refine h.invariant (fun tr t => (t.canceled = true → t.tick = false) ∧ ∀ e ∈ tr, e.late = false)
      (by simp) ?_
    intro tr t a t' es hsilent hp hs
    obtain ⟨hquiet, hes⟩ := punctual_step hsilent.1 hp hs
    exact ⟨hquiet, fun e he => (mem_append.mp he).elim (hsilent.2 e) (hes e)⟩
  refine ⟨hinv.2, fun a t' es hs hp hpc => ?_⟩
  have htick : t'.tick = true := by
    cases a with
    | cancel =>
      cases hs
      simpa [prompt] using hp
    | expire =>
      obtain ⟨e, -, hs⟩ := bind_eq_some_iff.mp hs
      obtain ⟨-, hs⟩ := ite_none_right_eq_some.mp hs
      cases hs
      rfl
    | _ => cases hp
  exact ⟨_, if_pos ⟨hpc, htick⟩⟩

/-- A ticker sends once and is cancelled before the next tick. -/
theorem canceled_in_time : ∃ tr t, Run (step (sendInterval ⟨"n", "a", 1⟩ 7 5))
    (fun t a => t.prompt a = true) {} tr t ∧ (∀ e ∈ tr, e.late = false) ∧
      tr.length = 1 ∧ t.pc = .returned :=
  Run.of_check_then [.makeTimer, .elapse 5, .expire, .takeTick, .cancel, .elapse 9, .takeDone]
    (by decide) fun tr t hrun hend => ⟨tr, t, hrun, (canceled_never_fires hrun).1, hend⟩

/-- `Cancel` returns when the delay has passed, and the `select` takes the tick. -/
theorem canceled_fires : (∃ tr t, Run (step (sendAfter ⟨"n", "a", 1⟩ 7 5)) anyStep {} tr t ∧
      tr = [⟨.inl ⟨"n", "a", 1⟩, 7, true⟩]) ∧
    ∃ tr t, Run (step (sendIntervalName "a" 7 5)) anyStep {} tr t ∧ tr = [⟨.inr "a", 7, true⟩] :=
  ⟨Run.of_check [.makeTimer, .elapse 5, .expire, .cancel, .takeTick] (by decide),
    Run.of_check [.makeTimer, .elapse 5, .expire, .cancel, .takeTick] (by decide)⟩

end Timer
end Westcoast
