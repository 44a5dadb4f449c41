import Westcoast.Provider.Fixed
import Westcoast.Provider.Multicast
import Westcoast.Provider.Poller

/-!
# The channel of events after `Stop`

All three providers make their channel of events once and close it in `Stop`, while a probe, a poll
or an announcement may still be at work. What each needs for its sends to be safe is its `Orderly`.
-/
namespace Westcoast.Provider

open Lib Cluster
open MulticastProvider (step safe_run)

/-- The events of an orderly run of one of the providers, with any configuration. -/
inductive OrderlyRun : List ProviderEvent → Prop
  | fixed (seeds : List NodeMeta) (failureThreshold : ℤ) (probe : Bool) {tr : List ProviderEvent}
      {p : FixedProvider} (hrun : Run FixedProvider.step FixedProvider.Orderly
        (.new seeds failureThreshold probe) tr p) : OrderlyRun tr
  | poller (failureThreshold eventBufferSize : ℤ) {tr : List ProviderEvent} {p : Poller}
      (hrun : Run Poller.step Poller.Orderly (.new failureThreshold eventBufferSize) tr p) :
      OrderlyRun tr
  | multicast (deadTimeout : ℤ) {tr : List ProviderEvent} {p : MulticastProvider}
      (hrun : Run step MulticastProvider.Orderly (.new deadTimeout) tr p) :
      OrderlyRun tr

/-- **No send on a closed channel**, in every orderly run. -/
theorem never_sent_on_closed {tr : List ProviderEvent} (hrun : OrderlyRun tr) : Safe tr := by
  cases hrun with
  | fixed seeds failureThreshold probe hrun => exact FixedProvider.safe_run hrun
  | poller failureThreshold eventBufferSize hrun => exact Poller.safe_run hrun
  | multicast deadTimeout hrun => exact safe_run hrun

def demoSelf : NodeMeta := ⟨"n1", "10.0.0.1:7946", []⟩

def demoPeer : NodeMeta := ⟨"n2", "10.0.0.2:7946", []⟩

def demoAnnouncement : Announcement := ⟨"n2", "10.0.0.2:7946", [], false⟩

/-- A provider is stopped between two probes, while `discover` runs, and while an announcement waits
for the lock. -/
theorem never_sent_on_closed_late :
    (∃ tr p, Run FixedProvider.step FixedProvider.Orderly (.new [demoPeer] 3 true) tr p ∧
      p.core.eventCh.closed = true ∧ .emitted (.sent ⟨.join, demoPeer⟩) ∈ tr ∧ Safe tr) ∧
    (∃ tr p, Run Poller.step Poller.Orderly (.new 3 0) tr p ∧
      p.core.eventCh.closed = true ∧ .emitted (.sent ⟨.join, demoPeer⟩) ∈ tr ∧ Safe tr) ∧
    ∃ tr p, Run step MulticastProvider.Orderly (.new 0) tr p ∧
      p.eventCh.closed = true ∧ p.members.keys = ["n2"] ∧ Safe tr := by
  refine ⟨?_, ?_, ?_⟩
  · obtain ⟨tr, p, hrun, hclosed, hsent⟩ : ∃ tr p,
        Run FixedProvider.step FixedProvider.Orderly (.new [demoPeer] 3 true) tr p ∧
        p.core.eventCh.closed = true ∧ .emitted (.sent ⟨.join, demoPeer⟩) ∈ tr :=
      Run.of_check [.start demoSelf, .snapshot 0, .next 0, .answer 0 true, .handle 0, .stop,
        .next 0, .tick 0, .snapshot 0, .next 0, .quit 0] (by decide +kernel)
    exact ⟨tr, p, hrun, hclosed, hsent, never_sent_on_closed (.fixed _ _ _ hrun)⟩
  · obtain ⟨tr, p, hrun, hclosed, hsent⟩ : ∃ tr p, Run Poller.step Poller.Orderly (.new 3 0) tr p ∧
        p.core.eventCh.closed = true ∧ .emitted (.sent ⟨.join, demoPeer⟩) ∈ tr :=
      Run.of_check [.start demoSelf, .poll 0, .answer 0 (some [demoPeer]), .diff 0, .tick 0,
        .poll 0, .stop, .answer 0 none, .quit 0] (by decide +kernel)
    exact ⟨tr, p, hrun, hclosed, hsent, never_sent_on_closed (.poller _ _ hrun)⟩
  · obtain ⟨tr, p, hrun, hclosed, hkeys⟩ : ∃ tr p,
        Run step MulticastProvider.Orderly (.new 0) tr p ∧
        p.eventCh.closed = true ∧ p.members.keys = ["n2"] :=
      Run.of_check [.start demoSelf .ok, .read 0, .arrive 0 (.packet demoAnnouncement),
        .compare 0, .stop, .stopper 0 true, .stopper 0 true, .stopper 0 true, .stopper 0 true,
        .handle 0 0, .check] (by decide +kernel)
    exact ⟨tr, p, hrun, hclosed, hkeys, never_sent_on_closed (.multicast _ hrun)⟩

/-- Each provider sends on its closed channel: when `Stop` overtakes a probe, poll or announcement,
or after a second `Start`. -/
theorem sent_on_closed : (∃ p, Run FixedProvider.step anyStep (.new [demoPeer] 3 true)
      [.returned none, .returned none, .emitted (.panicked ⟨.join, demoPeer⟩)] p) ∧
    (∃ p, Run FixedProvider.step anyStep (.new [demoPeer] 3 true)
      [.returned none, .returned none, .returned none, .emitted (.panicked ⟨.join, demoPeer⟩)] p) ∧
    (∃ p, Run Poller.step anyStep (.new 3 0)
      [.returned none, .returned none, .emitted (.panicked ⟨.join, demoPeer⟩)] p) ∧
    (∃ p, Run step anyStep (.new 0)
      [.returned none, .returned none, .emitted (.panicked ⟨.join, demoPeer⟩)] p) ∧
    ∃ p, Run step anyStep (.new 0)
      [.returned none, .returned none, .returned none,
        .emitted (.panicked ⟨.join, demoPeer⟩)] p := by
  have hany {S A : Type} (s : S) (a : A) (_ : true = true) : anyStep s a := trivial
  refine ⟨?_, ?_, ?_, ?_, ?_⟩
  · exact Run.of_events hany [.start demoSelf, .snapshot 0, .next 0, .stop, .answer 0 true,
      .handle 0] (by decide +kernel)
  · exact Run.of_events hany [.start demoSelf, .stop, .start demoSelf, .snapshot 1, .next 1,
      .answer 1 true, .handle 1] (by decide +kernel)
  · exact Run.of_events hany [.start demoSelf, .poll 0, .stop, .answer 0 (some [demoPeer]),
      .diff 0] (by decide +kernel)
  · exact Run.of_events hany [.start demoSelf .ok, .read 0,
      .arrive 0 (.packet demoAnnouncement), .compare 0, .stop, .stopper 0 true, .handle 0 0,
      .check, .stopper 0 true, .stopper 0 true, .stopper 0 true, .send false]
      (by decide +kernel)
  · exact Run.of_events hany [.start demoSelf .ok, .stop, .stopper 0 true, .stopper 0 true,
      .stopper 0 true, .stopper 0 true, .start demoSelf .ok, .read 1,
      .arrive 1 (.packet demoAnnouncement), .compare 1, .handle 1 0, .check, .send false]
      (by decide +kernel)

end Westcoast.Provider
