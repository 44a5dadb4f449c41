import Westcoast.Actor.Operations

/-!
# Names across restarts

`RegisterName` stores a copy of the identifier, and a restart writes the next generation to the
resolver and to the identifiers last issued, but not to the names. An operation with `keepsNames`
changes no generation under a name (`name_survives`).
-/
namespace Westcoast

open Lib InMemoryPIDResolver

variable {π : Type}

namespace Runtime

def isRunning (rt : Runtime π) (id : String) : Bool :=
  (rt.registry.lookup id).any fun a => a.status = .running

/-- The generation of the identifier is the resolver's current one. -/
def isCurrent (rt : Runtime π) (pid : PID) : Bool :=
  (rt.resolver.resolve pid).any fun e => e.currentGeneration = pid.generation

/-- A check of the names that running actors hold under a key of the resolver. -/
def namesUnder (rt : Runtime π) (key : String) (ok : String × PID → Bool) : Bool :=
  rt.names.entries.all fun e => !(e.2.2.key = key && rt.isRunning e.2.1) || ok e.2

/-- `IssuePID` resets no generation under a name. -/
def issuesFirst (rt : Runtime π) (ns id : String) : Bool :=
  match rt.issuePID ns id with
  | .ok (pid, _) => rt.namesUnder pid.key fun e => e.2.generation = 1
  | .error _ => true

/-- The operation changes no generation under the name of a running actor: a restart finds no name
under the identifier it renews, an identifier is issued where the names under its key are of the
first generation, and a name is registered under a current identifier. -/
def keepsNames (rt : Runtime π) : RuntimeAction π → Bool
  | .process id (.failed .restart hookOk) =>
    match rt.actorPID.lookup id with
    | none => true
    | some pid => rt.namesUnder pid.key fun e => e.1 = id && !hookOk
  | .issuePID ns id => rt.issuesFirst ns id
  | .registerName id name ns =>
    match rt.pidInNamespace id (namespaceFor ns) with
    | none => rt.issuesFirst (namespaceFor ns) id
    | some pid => !(rt.registerEntry name id pid).1.isOk || !rt.isRunning id || rt.isCurrent pid
  | _ => true

/-- A failed message is answered by a restart, and nothing else ends or removes an actor. -/
def restartsOnly (rt : Runtime π) : RuntimeAction π → Bool
  | .process id .ok | .process id (.failed .restart _) => rt.isRunning id
  | .process .. | .stop _ | .removeActor _ => false
  | _ => true

variable {rt rt' : Runtime π}

theorem namesUnder_iff {key : String} {ok : String × PID → Bool} :
    rt.namesUnder key ok = true ↔ ∀ name id pid, rt.names.lookup name = some (id, pid) →
      pid.key = key → rt.isRunning id = true → ok (id, pid) = true := by
  simp only [namesUnder, all_entries_iff, Bool.or_eq_true, Bool.not_eq_true', Bool.and_eq_false_iff,
    decide_eq_false_iff_not, Prod.forall, or_assoc]
  refine forall_congr' fun name => forall_congr' fun id => forall_congr' fun pid => ?_
  refine imp_congr_right fun _ => ?_
  cases rt.isRunning id <;> by_cases hk : pid.key = key <;> simp [hk]

theorem SameBooks.isRunning (h : SameBooks rt rt') (id : String) :
    rt'.isRunning id = rt.isRunning id := by
  have hstanding : ∀ r : Runtime π, r.isRunning id =
      ((r.registry.lookup id).map (·.standing)).any fun s => s.1 = .running := by
    intro r
    cases hr : r.registry.lookup id with
    | none => simp [Runtime.isRunning, hr]
    | some a => simp [Runtime.isRunning, hr, ActorEntry.standing]
  rw [hstanding, hstanding, h.standing]

/-- The holders of all names exist, and those of a running actor are current. -/
structure NamesCurrent (rt : Runtime π) : Prop where
  remoteSend : rt.remoteSend = none
  holder : ∀ name id pid, rt.names.lookup name = some (id, pid) →
    (rt.registry.lookup id).isSome = true
  current : ∀ name id pid, rt.names.lookup name = some (id, pid) → rt.isRunning id = true →
    rt.isCurrent pid = true

variable (hc : rt.NamesCurrent)

include hc

theorem NamesCurrent.mono (hsend : rt'.remoteSend = rt.remoteSend)
    (hreg : ∀ id, (rt.registry.lookup id).isSome = true → (rt'.registry.lookup id).isSome = true)
    (hold : ∀ name id pid, rt'.names.lookup name = some (id, pid) →
      rt.names.lookup name = some (id, pid) ∧ (rt'.isRunning id = true → rt.isRunning id = true ∧
          (rt.isCurrent pid = true → rt'.isCurrent pid = true))) :
    rt'.NamesCurrent where
  remoteSend := hsend.trans hc.remoteSend
  holder := by
    intro name id pid hname
    exact hreg id (hc.holder name id pid (hold name id pid hname).1)
  current := by
    intro name id pid hname hrun
    obtain ⟨hbefore, hcur⟩ := (hold name id pid hname).2 hrun
    exact hcur (hc.current name id pid (hold name id pid hname).1 hbefore)

theorem NamesCurrent.keep (hsame : SameBooks rt rt') : rt'.NamesCurrent := by
  refine hc.mono hsame.remoteSend (fun id hid => ?_) (fun name id pid hname => ?_)
  · have hst := congrArg Option.isSome (hsame.standing id)
    rw [Option.isSome_map, Option.isSome_map] at hst
    exact hst.trans hid
  · rw [hsame.names] at hname
    have hcur : rt'.isCurrent pid = rt.isCurrent pid := by
      simp only [isCurrent, resolve, hsame.byKey]
    rw [hsame.isRunning, hcur]
    exact ⟨hname, fun hrun => ⟨hrun, fun h => h⟩⟩

theorem NamesCurrent.unregister (name : String) : (rt.unregisterName name).2.NamesCurrent := by
  simp only [unregisterName]
  split
  · exact hc
  · refine hc.mono rfl (fun _ hid => hid) (fun name' id pid hname' => ?_)
    simp only [lookup_erase_ite] at hname'
    split_ifs at hname' with hne
    exact ⟨hname', fun hrun => ⟨hrun, fun h => h⟩⟩

variable {id : String}

theorem NamesCurrent.create (hnew : rt.registry.lookup id = none)
    (a : ActorEntry π) : NamesCurrent { rt with registry := rt.registry.insert id a } := by
  refine hc.mono rfl (fun id' hid' => ?_) (fun name id' pid hname => ⟨hname, fun hrun => ?_⟩)
  · simp only [lookup_insert_ite]
    split_ifs
    · rfl
    · exact hid'
  · have hne : id' ≠ id := by
      rintro rfl
      have hheld := hc.holder name id' pid hname
      rw [hnew] at hheld
      cases hheld
    simp only [isRunning, lookup_insert_ite, if_neg hne] at hrun
    exact ⟨hrun, fun h => h⟩

omit hc in
theorem isCurrent_issued (rt : Runtime π) (id : String) (pid q : PID) :
    (rt.issued id pid).isCurrent q =
      if q.key = pid.key then decide (pid.generation = q.generation) else rt.isCurrent q := by
  simp only [isCurrent, Runtime.issued, resolve, register,
    lookup_insert_ite]
  split_ifs <;> rfl

theorem NamesCurrent.issue {ns : String} {pid : PID}
    (hissue : rt.issuePID ns id = .ok (pid, rt')) (hfirst : rt.issuesFirst ns id = true) :
    rt'.NamesCurrent := by
  simp only [issuesFirst, hissue, namesUnder_iff, decide_eq_true_eq] at hfirst
  obtain ⟨-, hpid, rfl⟩ := issuePID_spec hissue
  have hgen : pid.generation = 1 := by rw [hpid]; rfl
  refine hc.mono rfl (fun _ hid => hid) (fun name id' q hname => ⟨hname, fun hrun => ⟨hrun, ?_⟩⟩)
  intro hcur
  rw [isCurrent_issued]
  split_ifs with hk
  · rw [hgen, hfirst name id' q hname hk hrun, decide_eq_true_eq]
  · exact hcur

theorem NamesCurrent.register {name : String} {pid : PID}
    (hreg : (rt.registry.lookup id).isSome = true)
    (hpid : (rt.registerEntry name id pid).1.isOk = true → rt.isRunning id = true →
      rt.isCurrent pid = true) : (rt.registerEntry name id pid).2.NamesCurrent := by
  simp only [registerEntry] at hpid ⊢
  split_ifs at hpid ⊢ with hname hdup
  · exact hc
  · exact hc
  · have hnew : ∀ name' id' q, (rt.names.insert name (id, pid)).lookup name' = some (id', q) →
        (id' = id ∧ q = pid) ∨ rt.names.lookup name' = some (id', q) := by
      intro name' id' q hn
      rw [lookup_insert_ite] at hn
      split_ifs at hn
      · cases hn
        exact .inl ⟨rfl, rfl⟩
      · exact .inr hn
    refine ⟨hc.remoteSend, fun name' id' q hn => ?_, fun name' id' q hn hrun => ?_⟩
    · rcases hnew name' id' q hn with ⟨rfl, -⟩ | hold
      · exact hreg
      · exact hc.holder name' id' q hold
    · rcases hnew name' id' q hn with ⟨rfl, rfl⟩ | hold
      · exact hpid rfl hrun
      · exact hc.current name' id' q hold hrun

omit hc in
theorem isCurrent_bumpPID {q : PID} (hne : ∀ p, rt.actorPID.lookup id = some p → q.key ≠ p.key) :
    (rt.bumpPID id).isCurrent q = rt.isCurrent q := by
  cases hp : rt.actorPID.lookup id with
  | none => rw [bumpPID_none hp]
  | some p =>
    rw [bumpPID_some_eq hp]
    simp only [isCurrent, resolve, lookup_insert_ite, if_neg (hne p hp)]

/-- A restart renews an identifier that no name of a running actor has. -/
theorem NamesCurrent.restart (hrun : rt.isRunning id = true) {hookOk : Bool}
    (hkeep : rt.keepsNames (.process id (.failed .restart hookOk)) = true) {a : ActorEntry π}
    (hbump : rt'.resolver = (rt.bumpPID id).resolver ∧ rt'.remoteSend = rt.remoteSend ∧
      rt'.registry = rt.registry.insert id a)
    (hnames : ∀ name id' pid, rt'.names.lookup name = some (id', pid) →
      rt.names.lookup name = some (id', pid) ∧ (hookOk = false → id' ≠ id)) : rt'.NamesCurrent := by
  obtain ⟨hres, hsend, hreg⟩ := hbump
  refine hc.mono hsend (fun id' hid' => ?_) (fun name id' q hname => ?_)
  · rw [hreg, lookup_insert_ite]
    split_ifs
    · rfl
    · exact hid'
  · obtain ⟨hold, hnot⟩ := hnames name id' q hname
    refine ⟨hold, fun hrun' => ?_⟩
    have hbefore : rt.isRunning id' = true := by
      by_cases hid : id' = id
      · rw [hid]
        exact hrun
      · simpa only [isRunning, hreg, lookup_insert_ite, if_neg hid] using hrun'
    refine ⟨hbefore, fun hcur => ?_⟩
    have hkey : ∀ p, rt.actorPID.lookup id = some p → q.key ≠ p.key := by
      intro p hp hk
      simp only [keepsNames, hp, namesUnder_iff, Bool.and_eq_true, decide_eq_true_eq,
        Bool.not_eq_true'] at hkeep
      obtain ⟨hid, hfail⟩ := hkeep name id' q hold hk hbefore
      exact hnot hfail hid
    have hsame : rt'.isCurrent q = (rt.bumpPID id).isCurrent q := by
      simp only [isCurrent, hres]
    rw [hsame, isCurrent_bumpPID hkey]
    exact hcur

theorem NamesCurrent.failed (hrun : rt.isRunning id = true) (hookOk : Bool)
    (hkeep : rt.keepsNames (.process id (.failed .restart hookOk)) = true) (a : ActorEntry π) :
    (rt.processMessage id a (.failed .restart hookOk)).NamesCurrent := by
  obtain ⟨hnames, hsend, -⟩ := rt.bumpPID_keeps id
  cases hookOk with
  | true =>
    refine hc.restart hrun hkeep
      ⟨rfl, hsend, congrArg (AList.insert id _) (registry_bumpPID rt id)⟩ ?_
    intro name id' pid hname
    have hsame : (rt.bumpPID id).names.lookup name = some (id', pid) := hname
    rw [hnames] at hsame
    exact ⟨hsame, fun h => nomatch h⟩
  | false =>
    refine hc.restart hrun hkeep
      ⟨rfl, hsend, congrArg (AList.insert id _) (registry_bumpPID rt id)⟩ ?_
    intro name id' pid hname
    have hclean : (cleanupRegistry (rt.bumpPID id).names id).lookup name = some (id', pid) := hname
    rw [hnames, lookup_cleanupRegistry, Option.filter_eq_some_iff] at hclean
    exact ⟨hclean.1, fun _ => of_decide_eq_true hclean.2⟩

theorem NamesCurrent.step {op : RuntimeAction π}
    (hop : rt.restartsOnly op = true) (hkeep : rt.keepsNames op = true) (hdoes : rt.Does op rt') :
    rt'.NamesCurrent := by
  cases hdoes with
  | keeps hsame => exact hc.keep hsame
  | creates hnew => exact hc.create hnew _
  | issues hissue => exact hc.issue hissue hkeep
  | registers hreg hpid =>
    cases hpid with
    | found hfound =>
      simp only [keepsNames, hfound, Bool.or_eq_true, Bool.not_eq_true'] at hkeep
      refine hc.register hreg fun hok hrun => ?_
      rcases hkeep with (hno | hstopped) | hcur
      · rw [hno] at hok
        cases hok
      · rw [hstopped] at hrun
        cases hrun
      · exact hcur
    | issued hnone hissue =>
      simp only [keepsNames, hnone] at hkeep
      have hafter := hc.issue hissue hkeep
      obtain ⟨hreg', -, rfl⟩ := issuePID_spec hissue
      refine hafter.register hreg' fun _ _ => ?_
      rw [isCurrent_issued, if_pos rfl, decide_eq_true_eq]
  | @fails id a a' decision hookOk _ _ =>
    cases decision with
    | restart => exact hc.failed hop hookOk hkeep a'
    | stop | escalate | other name => cases hop
  | stops _ | removes _ _ => cases hop

end Runtime

theorem AskTable.routeAskReply_not_stale (t : AskTable π) (pid : PID) (reply : Reply π) :
    (t.routeAskReply pid reply).1 ≠ .rejectedStaleGeneration := by
  have hmatch : ∀ o t', t.matchReply pid reply = (.error o, t') → o ≠ .rejectedStaleGeneration := by
    intro o t' h
    simp only [matchReply] at h
    cases hkey : t.askReply.lookup pid.key with
    | none =>
      simp only [hkey, Prod.mk.injEq, Except.error.injEq] at h
      rw [← h.1]
      split_ifs <;> simp
    | some requestID =>
      simp only [hkey] at h
      split_ifs at h
      · cases h
        simp
      · split at h <;> cases h
        simp
  simp only [routeAskReply]
  split
  · next o t' h => exact hmatch o t' h
  · simp only [offer]
    split <;> simp

namespace Host

/-- The operation is one of those in question. -/
def restartsOnly (h : Host π) : HostAction π → Bool
  | .runtime op => h.toRuntime.restartsOnly op
  | _ => true

/-- The operation is one of those in question, and keeps the names of running actors
current. -/
def keepsNames (h : Host π) : HostAction π → Bool
  | .runtime op => h.toRuntime.restartsOnly op && h.toRuntime.keepsNames op
  | _ => true

variable [Inhabited π] [Payload π] [ReplyPayload π]

theorem namesCurrent_of_run {nodeID : String} {randSrc : ℕ → ℕ} {tr : List RuntimeEvent}
    {h : Host π}
    (hrun : Run step (fun h a => h.keepsNames a = true) (.new nodeID none none none randSrc) tr h) :
    h.toRuntime.NamesCurrent := by
  refine hrun.invariant_state (fun h => h.toRuntime.NamesCurrent) ?_ ?_
  · refine ⟨rfl, fun _ _ _ hname => ?_, fun _ _ _ hname => ?_⟩ <;> cases hname
  · intro h a h' es hc hkeep hstep
    cases does_of_step hstep with
    | runtime hdoes =>
      simp only [keepsNames, Bool.and_eq_true] at hkeep
      exact hc.step hkeep.1 hkeep.2 hdoes
    | unregisters => exact hc.unregister _
    | keeps hsame => exact hc.keep hsame

theorem sendPID_not_stale {h h' : Host π} {pid : PID} {payload : Option π} {fuel : ℕ}
    {outcome : PIDDeliveryOutcome} (hsend : h.remoteSend = none)
    (hcur : h.toRuntime.isCurrent pid = true)
    (hsent : h.sendPID pid payload fuel = some (outcome, h')) :
    outcome ≠ .rejectedStaleGeneration := by
  have htransport : h.transport h.remoteSend pid = none := by
    rw [hsend, transport, ite_self]
  simp only [sendPID, htransport] at hsent
  split_ifs at hsent
  · cases hsent
    exact h.asks.routeAskReply_not_stale pid _
  · rcases sendResolved_cases hsent with ⟨hreason, -⟩ | ⟨-, result, -, rfl⟩
    · rintro rfl
      simp only [Runtime.isCurrent, Option.any_eq_true] at hcur
      obtain ⟨e, he, hgen⟩ := hcur
      have he' : h.drawID.resolver.resolve pid = some e := he
      simp only [refusal, he'] at hreason
      split_ifs at hreason with hst hstale <;> cases hreason
      exact hstale (of_decide_eq_true hgen).symm
    · split_ifs <;> simp

/-- **A name survives the restarts** if no generation changes under a name: while its actor runs,
the name leads to the current generation. -/
theorem name_survives {nodeID : String} {randSrc : ℕ → ℕ} {tr : List RuntimeEvent} {h : Host π}
    (hrun : Run step (fun h a => h.keepsNames a = true) (.new nodeID none none none randSrc) tr h)
    {name id : String} {pid : PID} (hname : h.names.lookup name = some (id, pid))
    (hid : h.toRuntime.isRunning id = true) :
    h.lookupName name = some pid ∧ h.toRuntime.isCurrent pid = true ∧
      ∀ payload fuel outcome h', h.sendName name payload fuel = some (outcome, h') →
        outcome ≠ .rejectedStaleGeneration := by
  have hc := namesCurrent_of_run hrun
  have hlookup : h.lookupName name = some pid := by
    simp only [lookupName, Runtime.lookupName, hname]
  have hcur := hc.current name id pid hname hid
  refine ⟨hlookup, hcur, fun payload fuel outcome h' hsent => ?_⟩
  simp only [sendName, hlookup] at hsent
  exact sendPID_not_stale hc.remoteSend hcur hsent

/-- The actor has a name in one namespace and its last identifier, which alone is renewed, in
another. -/
theorem name_survives_elsewhere : ∃ (h : Host String) (tr : List RuntimeEvent),
      Run step (fun h a => h.keepsNames a = true) (.new "" none none none fun _ => 0) tr h ∧
        (h.registry.lookup "a").map (·.restarts) = some 1 ∧
        h.lookupName "svc" = some ⟨"default", "a", 1⟩ ∧
        h.toRuntime.isCurrent ⟨"default", "a", 1⟩ = true := by
  obtain ⟨tr, h, hrun, hrestarts, hname, hid⟩ : ∃ tr, ∃ h : Host String,
      Run step (fun h a => h.keepsNames a = true) (.new "" none none none fun _ => 0) tr h ∧
      (h.registry.lookup "a").map (·.restarts) = some 1 ∧
      h.names.lookup "svc" = some ("a", ⟨"default", "a", 1⟩) ∧
      h.toRuntime.isRunning "a" = true :=
    Run.of_check [.runtime (.createActor "a" false 4 true), .runtime (.registerName "a" "svc" ""),
      .runtime (.issuePID "n" "a"), .deliverLocal "a" (some "x") none 1,
      .runtime (.process "a" (.failed .restart true))] (by decide +kernel)
  obtain ⟨hlookup, hcur, -⟩ := name_survives hrun hname hid
  exact ⟨h, tr, hrun, hrestarts, hlookup, hcur⟩

/-- After a restart the name leads to the generation before it, and what is sent to the name is
rejected as stale. -/
theorem restart_makes_name_stale : ∃ (h : Host String) (tr : List RuntimeEvent),
      Run step (fun h a => h.restartsOnly a = true) (.new "" none none none fun _ => 0) tr h ∧
        h.toRuntime.isRunning "a" = true ∧ h.names.lookup "svc" = some ("a", ⟨"default", "a", 1⟩) ∧
        h.lookupName "svc" = some ⟨"default", "a", 1⟩ ∧
        (h.resolver.resolve ⟨"default", "a", 1⟩).map (·.currentGeneration) = some 2 ∧
        (h.sendName "svc" (some "x") 1).map (·.1) = some .rejectedStaleGeneration :=
  Run.of_check_then [.runtime (.createActor "a" false 4 true),
    .runtime (.registerName "a" "svc" ""), .deliverLocal "a" (some "x") none 1,
    .runtime (.process "a" (.failed .restart true))]
    (by decide +kernel) fun tr h hrun hend => ⟨h, tr, hrun, hend⟩

end Host
end Westcoast
