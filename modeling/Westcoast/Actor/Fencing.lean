import Westcoast.Actor.Fences

/-!
# Generation fencing

`IssuePID` registers generation `1`, so it takes the generation of a restarted or removed actor
back, and a restart or removal touches only the identifier last issued (`issue_revives_stale`).
Where operations meet `keepsFences` no superseded identifier delivers.
-/
namespace Westcoast

open Lib Option

namespace Runtime

variable {π : Type}

/-! ### Sending -/

section
variable [Inhabited π]

theorem sendResolved_fenced {rt : Runtime π} {pid : PID} (hf : Fenced rt pid) (payload : Option π) :
    (rt.sendResolved pid payload).1 ≠ .delivered ∧
      (rt.sendResolved pid payload).2.registry = rt.registry := by
  rcases sendResolved_cases rt pid payload with ⟨heq, hout⟩ | ⟨hacc, heq, hout⟩
  · exact ⟨hout, by rw [heq]⟩
  · -- The resolver accepts it, so its actor is stopped.
    simp only [InMemoryPIDResolver.accepts, any_eq_true, Bool.and_eq_true,
      decide_eq_true_eq] at hacc
    obtain ⟨e, he, hst, hgen⟩ := hacc
    rcases hf e he hgen.symm with hst' | ⟨a, ha, hstatus⟩
    · exact absurd hst' hst
    · have hsend := send_stopped ha hstatus payload
      exact ⟨fun hd => hsend.1 (hout hd), by rw [heq]; exact hsend.2⟩

theorem sendPID_fenced {rt : Runtime π} {pid : PID} (hf : Fenced rt pid)
    (hlocal : rt.remoteSend = none ∨ pid.isRemote rt.nodeID = false) (payload : Option π) :
    (rt.sendPID pid payload).1 ≠ .delivered ∧
      (rt.sendPID pid payload).2.registry = rt.registry := by
  have hcounted : Fenced { rt with msgSeq := rt.msgSeq + 1 } pid := hf
  have hresolved := sendResolved_fenced hcounted payload
  simp only [sendPID]
  split_ifs with hask hremote
  · exact ⟨by simp, rfl⟩
  · rcases hlocal with hnone | hhere
    · simp only [hnone]
      rw [hnone] at hresolved
      exact hresolved
    · rw [hhere] at hremote
      cases hremote
  · exact hresolved

end

/-! ### Runs -/

variable {rt : Runtime π} {h : List RuntimeEvent} {id : String}

theorem Fences.registerEntry {pid : PID} (hf : Fences rt h)
    (hpid : rt.actorPID.lookup id = some pid) (name : String) :
    (∀ pid', (rt.registerEntry name id pid).1 = .ok pid' →
        Fences (rt.registerEntry name id pid).2 (h ++ [.returned pid'])) ∧
      Fences (rt.registerEntry name id pid).2 h := by
  obtain ⟨names, heq⟩ := rt.exists_names_registerEntry name id pid
  have hf' : Fences (rt.registerEntry name id pid).2 h := by
    rw [heq]
    exact ⟨⟨hf.consistent.entry, hf.consistent.distinct⟩, hf.le, hf.fenced⟩
  refine ⟨?_, hf'⟩
  intro pid' hpid'
  obtain rfl := (registerEntry_ok (Prod.ext hpid' rfl)).1
  refine hf'.returned ?_
  intro e he
  obtain ⟨state, hstate⟩ := hf.consistent.entry id pid' hpid
  rw [heq, hstate] at he
  obtain rfl := some.inj he
  exact le_rfl

theorem Fences.registerName (hf : Fences rt h) (id name ns : String)
    (hmay : (rt.pidInNamespace id (if ns = "" then "default" else ns)).isSome = true ∨
      rt.mayIssue h id (rt.pidToIssue (if ns = "" then "default" else ns) id) = true) :
    (∀ pid, (rt.registerName id name ns).1 = .ok pid →
        Fences (rt.registerName id name ns).2 (h ++ [.returned pid])) ∧
      Fences (rt.registerName id name ns).2 h := by
  simp only [Runtime.registerName]
  generalize (if ns = "" then "default" else ns) = ns at hmay ⊢
  split_ifs with hreg
  · exact ⟨by simp, hf⟩
  cases hpid : rt.pidInNamespace id ns with
  | some pid =>
    have hl : rt.actorPID.lookup id = some pid := (filter_eq_some_iff.mp hpid).1
    exact hf.registerEntry hl name
  | none =>
    rw [hpid] at hmay
    simp only
    cases hissue : rt.issuePID ns id with
    | error e => exact ⟨by simp, hf⟩
    | ok r =>
      obtain ⟨pid, rt1⟩ := r
      obtain ⟨rfl, rfl⟩ := issuePID_ok hissue
      have hmay' := hmay.resolve_left (by simp)
      exact (hf.register rfl hmay').registerEntry (AList.lookup_insert _) name

variable {rt' : Runtime π} {hookOk : Bool}

theorem Fences.createActor [Inhabited π] (hf : Fences rt h) {nilHandler : Bool} {capacity : ℤ}
    (hc : rt.createActor id nilHandler capacity hookOk = .ok rt') : Fences rt' h := by
  simp only [Runtime.createActor] at hc
  split_ifs at hc with hid hnil hdup hhook
  all_goals
    obtain rfl := Except.ok.inj hc
    refine hf.registry rfl rfl ?_
    intro id' a ha hst
    have hne : id' ≠ id := by
      rintro rfl
      rw [ha] at hdup
      exact hdup rfl
    exact ⟨a, by simp only [lookup_insert_ite, if_neg hne]; exact ha, hst⟩

theorem Fences.processMessage (hf : Fences rt h) (a : ActorEntry π) {decision : SupervisionDecision}
    (hlast : decision = .restart → hookOk = true → rt.onlyLastIssued h id = true) :
    Fences (rt.processMessage id a (.failed decision hookOk)) (h ++ [.superseded id]) := by
  cases decision with
  | restart =>
    simp only [Runtime.processMessage]
    by_cases hhook : hookOk = true
    · rw [if_pos hhook]
      exact hf.restart (hlast rfl hhook) _
    · rw [if_neg hhook]
      exact (hf.bump id).terminate id _
  | _ => exact hf.terminate id a

theorem fences_new (nodeID : String) (remoteSend : Option (PID → PIDDeliveryOutcome)) :
    Fences (new nodeID remoteSend : Runtime π) [] := by
  refine ⟨⟨?_, ?_⟩, ?_, ?_⟩
  · intro id r hl
    cases hl
  · intro id id' r r' hl
    cases hl
  · intro q hq
    cases hq
  · intro q hq
    cases hq

variable [Inhabited π]

theorem fences_step {es : List RuntimeEvent} {a : RuntimeAction π} (hf : Fences rt h)
    (hg : keepsFences (rt, h) a = true) (hs : rt.step a = some (rt', es)) :
    Fences rt' (h ++ es) := by
  have hnil : Fences rt (h ++ []) := by rw [List.append_nil]; exact hf
  cases a with
  | createActor id nilHandler capacity hookOk =>
    simp only [step] at hs
    split at hs
    · next rt1 hc =>
      cases hs
      rw [List.append_nil]
      exact hf.createActor hc
    · cases hs
      exact hnil
  | issuePID ns id =>
    simp only [step] at hs
    split at hs
    · next pid rt1 hissue =>
      cases hs
      obtain ⟨rfl, rfl⟩ := issuePID_ok hissue
      refine (hf.register rfl hg).returned ?_
      intro e he
      simp only [InMemoryPIDResolver.register, lookup_insert_ite, if_pos] at he
      obtain rfl := some.inj he
      exact le_rfl
    · cases hs
      exact hnil
  | registerName id name ns =>
    obtain ⟨hok, herr⟩ := hf.registerName id name ns (Bool.or_eq_true_iff.mp hg)
    simp only [step] at hs
    split at hs
    · next pid rt1 hreg =>
      cases hs
      rw [hreg] at hok
      exact hok pid rfl
    · next e rt1 hreg =>
      cases hs
      rw [hreg] at herr
      rw [List.append_nil]
      exact herr
  | process id result =>
    simp only [step] at hs
    split at hs
    · cases hs
    · next a ha =>
      split at hs
      · cases hs
      · next msg mailbox hd =>
        cases hs
        cases result with
        | ok =>
          rw [if_pos rfl, List.append_nil]
          have hclosed : mailbox.closed = a.mailbox.closed := by
            rw [← Mailbox.closed_dequeue a.mailbox, hd]
          exact hf.sameBooks (.insert ha _ (by simp only [ActorEntry.standing, hclosed]))
        | failed decision hookOk =>
          rw [if_neg (by simp)]
          refine hf.processMessage _ ?_
          rintro rfl rfl
          exact hg
  | stop id =>
    rcases stop_cases rt id with ⟨hne, heq⟩ | ⟨a, heq⟩
    · simp only [step, heq] at hs
      cases hs
      exact hnil
    · simp only [step, heq] at hs
      cases hs
      exact (hf.markStopped id).terminate id a
  | removeActor id =>
    simp only [step] at hs
    split at hs
    · next rt1 hrm =>
      cases hs
      exact hf.remove hg hrm
    · cases hs
      exact hnil
  | send id payload =>
    cases hs
    rw [List.append_nil]
    exact hf.sameBooks (sameBooks_send rt id payload)
  | sendPID pid payload =>
    cases hs
    rw [List.append_nil]
    exact hf.sameBooks (sameBooks_sendPID rt pid payload)
  | setGatewayMode mode | setGatewayAvailability available =>
    cases hs
    rw [List.append_nil]
    exact hf.registry rfl rfl fun _ a ha hst => ⟨a, ha, hst⟩

/-- **Fenced runs.** If all operations keep the fences, an identifier returned before a restart,
stop or removal of its actor delivers nothing. Generations are taken not to wrap at `2 ^ 64`. -/
theorem superseded_never_delivered {nodeID : String}
    {remoteSend : Option (PID → PIDDeliveryOutcome)} {tr h : List RuntimeEvent} {rt : Runtime π}
    (hrun : Run (withHistory step) (fun x a => keepsFences x a) (new nodeID remoteSend, []) tr
      (rt, h))
    {p : PID} (hp : supersededIn p h = true)
    (hlocal : rt.remoteSend = none ∨ p.isRemote rt.nodeID = false) (payload : Option π) :
    (rt.sendPID p payload).1 ≠ .delivered ∧ (rt.sendPID p payload).2.registry = rt.registry := by
  have hf : Fences (rt, h).1 (rt, h).2 := by
    refine hrun.invariant_state (fun x => Fences x.1 x.2) (fences_new nodeID remoteSend) ?_
    intro x a x' es hf hg hs
    obtain ⟨hstep, hhist⟩ := withHistory_eq_some hs
    rw [hhist]
    exact fences_step hf hg hstep
  exact sendPID_fenced (hf.fenced p hp) hlocal payload

/-- An actor gets an identifier, fails once and is restarted. -/
def restartOnce : List (RuntimeAction ℕ) :=
  [.createActor "a" false 4 true, .issuePID "n" "a", .send "a" (some 7),
    .process "a" (.failed .restart true)]

theorem superseded_never_delivered_restart :
    ∃ tr h rt, Run (withHistory step) (fun x a => keepsFences x a)
        ((new "" none, []) : Runtime ℕ × List RuntimeEvent) tr (rt, h) ∧
      h = [.returned ⟨"n", "a", 1⟩, .superseded "a"] ∧
      (rt.sendPID ⟨"n", "a", 2⟩ (some 8)).1 = .delivered ∧
      (rt.sendPID ⟨"n", "a", 1⟩ (some 8)).1 ≠ .delivered := by
  have hrun := Run.of_exec (fun _ _ h => h) (rfl : exec (withHistory step) keepsFences
    ((new "" none, []) : Runtime ℕ × List RuntimeEvent) restartOnce = some _)
  exact ⟨_, _, _, hrun, rfl, rfl,
    (superseded_never_delivered hrun (by decide) (.inl rfl) (some 8)).1⟩

/-- Issuing again after the restart takes the generation back, and the old identifier delivers. -/
theorem issue_revives_stale : ∃ tr h rt, Run (withHistory step) anyStep
        ((new "" none, []) : Runtime ℕ × List RuntimeEvent) tr (rt, h) ∧
      supersededIn ⟨"n", "a", 1⟩ h = true ∧
      (rt.sendPID ⟨"n", "a", 1⟩ (some 8)).1 = .delivered ∧
      ((rt.sendPID ⟨"n", "a", 1⟩ (some 8)).2.registry.lookup "a").map
        (fun a => a.mailbox.toList) = some [⟨3, 8⟩] := by
  obtain ⟨tr, ⟨rt, h⟩, hrun, hend⟩ : ∃ tr x, Run (withHistory step) anyStep
      ((new "" none, []) : Runtime ℕ × List RuntimeEvent) tr x ∧
      supersededIn ⟨"n", "a", 1⟩ x.2 = true ∧
      (x.1.sendPID ⟨"n", "a", 1⟩ (some 8)).1 = .delivered ∧
      ((x.1.sendPID ⟨"n", "a", 1⟩ (some 8)).2.registry.lookup "a").map
        (fun a => a.mailbox.toList) = some [⟨3, 8⟩] :=
    Run.of_check (restartOnce ++ [.issuePID "n" "a"]) (by decide +kernel)
  exact ⟨tr, h, rt, hrun, hend⟩

end Runtime

end Westcoast
