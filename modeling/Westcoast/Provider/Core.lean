import Westcoast.Cluster.Election
import Westcoast.Lib.Channel
import Westcoast.Lib.Machine

/-!
# What providers share

`FixedProvider` and `Poller` are started and stopped in the same way. `Stop` cancels the context of
the last `Start` and closes the channel of events, but does not wait for the goroutine. The channel
is made with the provider, so a provider that is started again has a closed one.
-/
namespace Westcoast.Provider

open Lib Cluster Bool

/-- The errors of `Start` and `Stop`; `setup` is one of the network. -/
inductive ProviderError
  | alreadyStarted
  | notStarted
  | setup
  deriving DecidableEq

/-- A call returns, an event goes to the channel, or the channel is closed a second time. -/
inductive ProviderEvent
  | returned (err : Option ProviderError)
  | emitted (outcome : Offer MemberEvent)
  | closeOfClosed
  deriving DecidableEq

def Safe (tr : List ProviderEvent) : Prop := ∀ ev, .emitted (.panicked ev) ∉ tr

/-- `tagsEqual`: a tag that is missing counts as empty. -/
def tagsEqual (a b : List (String × String)) : Bool :=
  a.length = b.length && a.all fun t => (b.lookup t.1).getD "" = t.2

structure ProviderLoop (π : Type) where
  cancelled : Bool
  pc : π

/-- `cancel` is the number of the loop that the next `Stop` cancels. After a panic the process is
gone. -/
structure ProviderCore (π : Type) where
  started : Bool
  cancel : ℕ
  loops : List (ProviderLoop π)
  eventCh : Chan MemberEvent
  droppedEvents : ℕ
  crashed : Bool

namespace ProviderCore

variable {π : Type}

def new (cap : ℕ) : ProviderCore π := ⟨false, 0, [], .make cap, 0, false⟩

/-- The part of `Start` that providers share. -/
def start (c : ProviderCore π) (first : π) : ProviderCore π × List ProviderEvent :=
  if c.started then (c, [.returned (some .alreadyStarted)])
  else
    ({ c with started := true, cancel := c.loops.length, loops := c.loops ++ [⟨false, first⟩] },
      [.returned none])

/-- The part of `Stop` that providers share. A second close panics. -/
def stop (c : ProviderCore π) : ProviderCore π × List ProviderEvent :=
  if !c.started then (c, [.returned (some .notStarted)])
  else
    let c' := { c with
      started := false
      loops := c.loops.modify c.cancel fun l => { l with cancelled := true } }
    if c.eventCh.closed then ({ c' with crashed := true }, [.closeOfClosed])
    else ({ c' with eventCh := { c.eventCh with closed := true } }, [.returned none])

/-- `emit`, for each event of a locked section. -/
def emit (c : ProviderCore π) (evs : List MemberEvent) : ProviderCore π × List ProviderEvent :=
  let r := c.eventCh.offerAll evs
  ({ c with
      eventCh := r.1
      droppedEvents := c.droppedEvents + r.2.countP Offer.isDropped
      crashed := c.crashed || r.2.any Offer.isPanicked },
    r.2.map .emitted)

def goto (c : ProviderCore π) (i : ℕ) (pc : π) : ProviderCore π :=
  { c with loops := c.loops.modify i fun l => { l with pc } }

def receive (c : ProviderCore π) : ProviderCore π := { c with eventCh := c.eventCh.receive }

/-- Once the channel is closed, the loops are cancelled and none is at work. -/
structure Quiet (busy : π → Prop) (c : ProviderCore π) : Prop where
  idle : c.started = false → ∀ (i : ℕ) l, c.loops[i]? = some l → l.cancelled = true
  others : ∀ (i : ℕ) l, c.loops[i]? = some l → i ≠ c.cancel → l.cancelled = true
  closed : c.eventCh.closed = true →
    c.started = false ∧ ∀ (i : ℕ) l, c.loops[i]? = some l → ¬ busy l.pc

section

variable {busy : π → Prop} {c : ProviderCore π} {first pc : π} {i : ℕ} {l : ProviderLoop π}

theorem quiet_new (busy : π → Prop) (cap : ℕ) : Quiet busy (new cap) where
  idle := by simp [new]
  others := by simp [new]
  closed := by simp [new]

section
variable (h : Quiet busy c)
include h

theorem Quiet.start (hopen : c.started = false → c.eventCh.closed = false) :
    Quiet busy (c.start first).1 := by
  unfold ProviderCore.start
  split_ifs with hstarted
  · exact h
  · rw [not_eq_true] at hstarted
    refine ⟨nofun, fun i l hi hne => ?_, fun hclosed => ?_⟩
    · rw [List.getElem?_append] at hi
      split_ifs at hi with hlt
      · exact h.idle hstarted i l hi
      · rw [List.getElem?_singleton] at hi
        split_ifs at hi with hzero
        exact absurd (by dsimp only; omega) hne
    · rw [hopen hstarted] at hclosed
      cases hclosed

theorem Quiet.stop (hidle : c.started = true → ∀ (i : ℕ) l, c.loops[i]? = some l → ¬ busy l.pc) :
    Quiet busy c.stop.1 := by
  unfold ProviderCore.stop
  -- whichever way the channel was, only the loops matter
  have hloops : ∀ (j : ℕ) l,
      (c.loops.modify c.cancel fun l => { l with cancelled := true })[j]? = some l →
        l.cancelled = true ∧ (c.started = true → ¬ busy l.pc) := by
    intro j l hj
    rw [List.getElem?_modify] at hj
    obtain ⟨l0, hl0, rfl⟩ := Option.map_eq_some_iff.mp hj
    split_ifs with hcancel
    · exact ⟨rfl, fun hs => hidle hs j l0 hl0⟩
    · exact ⟨h.others j l0 hl0 (Ne.symm hcancel), fun hs => hidle hs j l0 hl0⟩
  by_cases hs : c.started = true
  · simp only [hs, Bool.not_true, Bool.false_eq_true, if_false]
    split_ifs with hclosed
    all_goals
      exact ⟨fun _ j l hj => (hloops j l hj).1, fun j l hj _ => (hloops j l hj).1,
        fun _ => ⟨rfl, fun j l hj => (hloops j l hj).2 hs⟩⟩
  · rw [not_eq_true] at hs
    simpa [hs] using h

theorem Quiet.emit (evs : List MemberEvent) : Quiet busy (c.emit evs).1 where
  idle := h.idle
  others := h.others
  closed hclosed := h.closed ((Chan.closed_offerAll _ _).symm.trans hclosed)

theorem Quiet.receive : Quiet busy c.receive := ⟨h.idle, h.others, h.closed⟩

theorem Quiet.goto (hpc : ∀ l, c.loops[i]? = some l → busy pc → l.cancelled = false ∨ busy l.pc) :
    Quiet busy (c.goto i pc) := by
  have hloops : ∀ (j : ℕ) l, (c.goto i pc).loops[j]? = some l →
      ∃ l0, c.loops[j]? = some l0 ∧ l.cancelled = l0.cancelled ∧
        (busy l.pc → busy l0.pc ∨ l0.cancelled = false) := by
    intro j l hj
    unfold ProviderCore.goto at hj
    rw [List.getElem?_modify] at hj
    obtain ⟨l0, hl0, rfl⟩ := Option.map_eq_some_iff.mp hj
    refine ⟨l0, hl0, ?_⟩
    split_ifs with hij
    · subst hij
      exact ⟨rfl, fun hbusy => (hpc l0 hl0 hbusy).symm⟩
    · exact ⟨rfl, .inl⟩
  refine ⟨fun hs j l hj => ?_, fun j l hj hne => ?_, fun hclosed => ?_⟩
  · obtain ⟨l0, hl0, hc, -⟩ := hloops j l hj
    rw [hc]
    exact h.idle hs j l0 hl0
  · obtain ⟨l0, hl0, hc, -⟩ := hloops j l hj
    rw [hc]
    exact h.others j l0 hl0 hne
  · obtain ⟨hs, hquiet⟩ := h.closed hclosed
    refine ⟨hs, fun j l hj hbusy => ?_⟩
    obtain ⟨l0, hl0, -, hold⟩ := hloops j l hj
    rcases hold hbusy with hbusy0 | hlive
    · exact hquiet j l0 hl0 hbusy0
    · rw [h.idle hs j l0 hl0] at hlive
      cases hlive

theorem Quiet.open_of_busy (hi : c.loops[i]? = some l) (hbusy : busy l.pc) :
    c.eventCh.closed = false := by
  by_contra hclosed
  rw [not_eq_false] at hclosed
  exact (h.closed hclosed).2 i l hi hbusy

end

theorem safe_start (c : ProviderCore π) (first : π) : Safe (c.start first).2 := by
  intro ev
  unfold ProviderCore.start
  split_ifs <;> simp

theorem safe_stop (c : ProviderCore π) : Safe c.stop.2 := by
  intro ev
  unfold ProviderCore.stop
  dsimp only
  split_ifs <;> simp

theorem safe_emit {evs : List MemberEvent} (h : c.eventCh.closed = false ∨ evs = []) :
    Safe (c.emit evs).2 := by
  intro ev hmem
  obtain ⟨outcome, houtcome, heq⟩ := List.mem_map.mp hmem
  cases heq
  rcases h with hopen | rfl
  · exact Chan.not_panicked_of_open hopen evs ev houtcome
  · cases houtcome

end

end ProviderCore

theorem safe_nil : Safe [] := fun _ => List.not_mem_nil

theorem safe_of_step {S A : Type} {step : S → A → Option (S × List ProviderEvent)}
    {guard : S → A → Prop} {I : S → Prop} {s₀ s : S} {tr : List ProviderEvent} (hinit : I s₀)
    (hstep : ∀ {s a s' es}, I s → guard s a → step s a = some (s', es) → I s' ∧ Safe es)
    (hrun : Run step guard s₀ tr s) : Safe tr := by
  have hinv := hrun.invariant (fun tr s => I s ∧ Safe tr) ⟨hinit, safe_nil⟩ ?_
  · exact hinv.2
  · intro tr s a s' es h hg hs
    obtain ⟨hkept, hes⟩ := hstep h.1 hg hs
    exact ⟨hkept, fun ev hmem => (List.mem_append.mp hmem).elim (h.2 ev) (hes ev)⟩

end Westcoast.Provider
