import Westcoast.Actor.Operations

/-!
# Sending to an identifier just issued

`SendPID` decides by the namespace alone whether an identifier belongs to this node: with a
transport only the node's own does. The namespaces of ask replies are taken for reply addresses
before that.
-/
namespace Westcoast

open Lib

variable {π : Type}

namespace Runtime

/-- An actor never restarted: its mailbox is open while it runs, and the identifier issued last is
its own. -/
structure Pristine (rt : Runtime π) : Prop where
  unissued : ∀ id, rt.registry.lookup id = none → rt.actorPID.lookup id = none
  opened : ∀ id a, rt.registry.lookup id = some a → a.restarts = 0 → a.status = .running →
    a.mailbox.closed = false
  own : ∀ id a pid, rt.registry.lookup id = some a → a.restarts = 0 →
    rt.actorPID.lookup id = some pid → pid.actorID = id

variable {rt rt' : Runtime π}

theorem Pristine.keep (hp : rt.Pristine) (hsame : SameBooks rt rt') : rt'.Pristine := by
  have hback : ∀ id a', rt'.registry.lookup id = some a' →
      ∃ a, rt.registry.lookup id = some a ∧ a.standing = a'.standing := by
    intro id a' ha'
    have hst := hsame.standing id
    rw [ha', Option.map_some, eq_comm, Option.map_eq_some_iff] at hst
    exact hst
  refine ⟨fun id hnone => ?_, fun id a' ha' hfirst hst => ?_, fun id a' pid ha' hfirst hpid => ?_⟩
  · rw [hsame.actorPID]
    have hst := hsame.standing id
    rw [hnone, Option.map_none, eq_comm, Option.map_eq_none_iff] at hst
    exact hp.unissued id hst
  · obtain ⟨a, ha, heq⟩ := hback id a' ha'
    simp only [ActorEntry.standing, Prod.mk.injEq] at heq
    rw [← heq.2.2]
    exact hp.opened id a ha (heq.2.1.trans hfirst) (heq.1.trans hst)
  · obtain ⟨a, ha, heq⟩ := hback id a' ha'
    simp only [ActorEntry.standing, Prod.mk.injEq] at heq
    rw [hsame.actorPID] at hpid
    exact hp.own id a pid ha (heq.2.1.trans hfirst) hpid

variable {id : String}

theorem Pristine.issued (hp : rt.Pristine) {ns : String} {pid : PID}
    (hissue : rt.issuePID ns id = .ok (pid, rt')) : rt'.Pristine := by
  obtain ⟨hreg, rfl, rfl⟩ := issuePID_spec hissue
  refine ⟨fun id' hnone => ?_, hp.opened, fun id' a pid ha hfirst hpid => ?_⟩
  · simp only [Runtime.issued, lookup_insert_ite] at hnone ⊢
    split_ifs with hid
    · rw [← hid, hnone] at hreg
      cases hreg
    · exact hp.unissued id' hnone
  · simp only [Runtime.issued, lookup_insert_ite] at hpid
    split_ifs at hpid with hid
    · cases hpid
      exact hid.symm
    · exact hp.own id' a pid ha hfirst hpid

variable {a : ActorEntry π}

theorem Pristine.insert (hp : rt.Pristine) (hreg : rt'.registry = rt.registry.insert id a)
    (hpid : ∀ id', id' ≠ id → rt'.actorPID.lookup id' = rt.actorPID.lookup id')
    (hopen : a.restarts = 0 → a.status = .running → a.mailbox.closed = false)
    (hown : ∀ pid, a.restarts = 0 → rt'.actorPID.lookup id = some pid → pid.actorID = id) :
    rt'.Pristine := by
  refine ⟨fun id' hnone => ?_, fun id' b hb hfirst hst => ?_, fun id' b pid hb hfirst hlast => ?_⟩
  · rw [hreg, lookup_insert_ite] at hnone
    split_ifs at hnone with hid
    rw [hpid id' hid]
    exact hp.unissued id' hnone
  · rw [hreg, lookup_insert_ite] at hb
    split_ifs at hb with hid
    · cases hb
      exact hopen hfirst hst
    · exact hp.opened id' b hb hfirst hst
  · rw [hreg, lookup_insert_ite] at hb
    split_ifs at hb with hid
    · cases hb
      subst hid
      exact hown pid hfirst hlast
    · rw [hpid id' hid] at hlast
      exact hp.own id' b pid hb hfirst hlast

theorem Pristine.terminate (hp : rt.Pristine) {a' : ActorEntry π}
    (ha : rt.registry.lookup id = some a) (hrestarts : a'.restarts = a.restarts) :
    (rt.terminate id a').Pristine :=
  hp.insert rfl (fun _ _ => rfl) (fun _ hst => nomatch hst)
    fun pid hfirst hlast => hp.own id a pid ha (hrestarts.symm.trans hfirst) hlast

theorem actorPID_bumpPID_ne {id' : String} (hne : id' ≠ id) :
    (rt.bumpPID id).actorPID.lookup id' = rt.actorPID.lookup id' := by
  cases hp : rt.actorPID.lookup id with
  | none => rw [bumpPID_none hp]
  | some p =>
    rw [bumpPID_some_eq hp]
    exact AList.lookup_insert_ne hne

variable (hp : rt.Pristine)
include hp

theorem Pristine.restarted {n : ℕ} (hcount : a.restarts = n + 1)
    (hreg : rt'.registry = (rt.bumpPID id).registry.insert id a)
    (hpid : rt'.actorPID = (rt.bumpPID id).actorPID) : rt'.Pristine := by
  have hlater : a.restarts ≠ 0 := by rw [hcount]; exact Nat.succ_ne_zero n
  refine hp.insert (hreg.trans (congrArg (AList.insert id a) (registry_bumpPID rt id)))
    (fun id' hne => ?_) (fun hfirst => absurd hfirst hlater) fun _ hfirst => absurd hfirst hlater
  rw [hpid]
  exact actorPID_bumpPID_ne hne

theorem Pristine.failed {a' : ActorEntry π} (ha : rt.registry.lookup id = some a)
    (hst : a'.standing = a.standing) (decision : SupervisionDecision) (hookOk : Bool) :
    (rt.processMessage id a' (.failed decision hookOk)).Pristine := by
  have hrestarts : a'.restarts = a.restarts := congrArg (fun s => s.2.1) hst
  cases decision with
  | restart =>
    cases hookOk with
    | true | false => exact hp.restarted rfl rfl rfl
  | stop | escalate | other name => exact hp.terminate ha hrestarts

theorem Pristine.remove (id : String) (resolver : InMemoryPIDResolver) : Pristine { rt with
      registry := rt.registry.erase id
      actorPID := rt.actorPID.erase id
      resolver := resolver } := by
  have herased : ∀ id' a, (rt.registry.erase id).lookup id' = some a →
      id' ≠ id ∧ rt.registry.lookup id' = some a := by
    intro id' a ha
    rw [lookup_erase_ite] at ha
    split_ifs at ha with hid
    exact ⟨hid, ha⟩
  refine ⟨fun id' hnone => ?_, fun id' a ha => ?_, fun id' a pid ha hfirst hlast => ?_⟩
  · simp only [lookup_erase_ite] at hnone ⊢
    split_ifs with hid
    · rfl
    · exact hp.unissued id' (by rwa [if_neg hid] at hnone)
  · exact hp.opened id' a (herased id' a ha).2
  · obtain ⟨hne, ha'⟩ := herased id' a ha
    simp only [lookup_erase_ite, if_neg hne] at hlast
    exact hp.own id' a pid ha' hfirst hlast

theorem Pristine.registerEntry (name id : String) (pid : PID) :
    (rt.registerEntry name id pid).2.Pristine := by
  simp only [Runtime.registerEntry]
  split_ifs
  · exact hp
  · exact hp
  · exact ⟨hp.unissued, hp.opened, hp.own⟩

theorem Pristine.step {op : RuntimeAction π} (hdoes : rt.Does op rt') : rt'.Pristine := by
  cases hdoes with
  | keeps hsame => exact hp.keep hsame
  | @creates id _ _ _ a hnew hfirst hopen =>
    refine hp.insert rfl (fun _ _ => rfl) (fun _ => hopen) (fun pid _ hlast => ?_)
    rw [hp.unissued id hnew] at hlast
    cases hlast
  | issues hissue => exact hp.issued hissue
  | registers _ hpid =>
    cases hpid with
    | found _ => exact hp.registerEntry _ _ _
    | issued _ hissue => exact (hp.issued hissue).registerEntry _ _ _
  | fails ha hst => exact hp.failed ha hst _ _
  | @stops id a ha =>
    have hmarked : Pristine { rt with resolver := rt.markStopped id } :=
      ⟨hp.unissued, hp.opened, hp.own⟩
    exact hmarked.terminate ha rfl
  | removes _ _ => exact hp.remove _ _

end Runtime

namespace Host

variable {h : Host π}

theorem pristine_of_run [Inhabited π] [Payload π] [ReplyPayload π] {nodeID : String}
    {remoteSend remoteAsk : Option (PID → PIDDeliveryOutcome)}
    {clusterLookup : Option (String → Option PID)} {randSrc : ℕ → ℕ} {tr : List RuntimeEvent}
    (hrun : Run step anyStep (.new nodeID remoteSend remoteAsk clusterLookup randSrc) tr h) :
    h.toRuntime.Pristine := by
  refine hrun.invariant_state (fun h => h.toRuntime.Pristine) ?_ ?_
  · refine ⟨fun _ _ => rfl, fun _ _ ha => ?_, fun _ _ _ ha => ?_⟩ <;> cases ha
  · intro h a h' es hp _ hstep
    cases does_of_step hstep with
    | runtime hdoes => exact hp.step hdoes
    | unregisters =>
      simp only [after, Runtime.unregisterName]
      split
      · exact hp
      · exact ⟨hp.unissued, hp.opened, hp.own⟩
    | keeps hsame => exact hp.keep hsame

/-- What the operations on identifiers and names leave alone. -/
structure OnlyNames (rt rt' : Runtime (Request π)) : Prop where
  nodeID : rt'.nodeID = rt.nodeID
  remoteSend : rt'.remoteSend = rt.remoteSend
  registry : rt'.registry = rt.registry

theorem onlyNames_issued (rt : Runtime (Request π)) (id : String) (pid : PID) :
    OnlyNames rt (rt.issued id pid) := ⟨rfl, rfl, rfl⟩

theorem refusal_issued (hdirect : h.resolver.mode = .localDirect) (id : String) (pid : PID) :
    (h.after (h.issued id pid)).refusal pid = none := by
  simp [refusal, after, Runtime.issued, InMemoryPIDResolver.resolve,
    InMemoryPIDResolver.register, hdirect]

variable [Payload π]

/-- Whether `SendPID` looks for the identifier here. -/
def keepsHere (h : Host π) (pid : PID) : Bool :=
  !askReplyHere h.nodeID pid && (h.transport h.remoteSend pid).isNone

variable {a : ActorEntry (Request π)}

theorem takes_iff {id : String} (ha : h.registry.lookup id = some a) (hrun : a.status = .running)
    (hroom : a.mailbox.depth < a.mailbox.max) (hroutes : h.routing.lookup id = none) (p : π) :
    h.takes id p = true ↔ h.routers.lookup id = none ∧ a.mailbox.closed = false := by
  simp [takes, admits, ha, hrun, hroom, routeMatch, TypeRoutingRegistry.resolve, hroutes,
    RouteMatch.admits]

variable [Inhabited π] [ReplyPayload π]

/-- `SendPID` puts the message into the mailbox of the actor and says so. -/
def Delivers (h : Host π) (pid : PID) (p : π) : Prop :=
  ∃ fuel h' n, h.sendPID pid (some p) fuel = some (.delivered, h') ∧
    h'.messages pid.actorID = h.messages pid.actorID ++ [⟨n, ⟨p, none⟩⟩]

theorem delivers_iff (h : Host π) (pid : PID) (p : π) : h.Delivers pid p ↔
      askReplyHere h.nodeID pid = false ∧ h.transport h.remoteSend pid = none ∧
        h.refusal pid = none ∧ h.takes pid.actorID p = true := by
  constructor
  · rintro ⟨fuel, h', n, hsend, hmsgs⟩
    have hchanged : h'.messages pid.actorID ≠ h.messages pid.actorID := by
      rw [hmsgs]
      simp
    simp only [sendPID] at hsend
    split_ifs at hsend with hask
    · obtain ⟨-, rfl⟩ := Prod.mk.inj (Option.some.inj hsend)
      exact absurd rfl hchanged
    · cases htr : h.transport h.remoteSend pid with
      | some remoteSend =>
        simp only [htr] at hsend
        obtain ⟨-, rfl⟩ := Prod.mk.inj (Option.some.inj hsend)
        exact absurd rfl hchanged
      | none =>
        simp only [htr] at hsend
        rcases sendResolved_cases hsend with ⟨-, rfl⟩ | ⟨href, result, hsent, -⟩
        · exact absurd rfl hchanged
        · refine ⟨by simpa using hask, rfl, href, ?_⟩
          by_contra htakes
          have hdraw : h.drawID.takes pid.actorID p = false := by simpa using htakes
          have hsame := messages_of_not_takes hdraw hsent
          exact hchanged hsame
  · rintro ⟨hask, htr, href, htakes⟩
    have hdraw : h.drawID.takes pid.actorID p = true := by simpa using htakes
    obtain ⟨h', hsent, hmsgs⟩ := messages_of_takes hdraw none 0
    refine ⟨0 + 1, h', h.drawID.msgSeq + 1, ?_, hmsgs⟩
    simp only [sendPID, hask, htr, sendResolved, refusal_drawID, href, send, hsent]
    rfl

/-- `SendName` puts the message into the mailbox of the actor and says so. -/
def DeliversName (h : Host π) (name id : String) (p : π) : Prop :=
  ∃ fuel h' n, h.sendName name (some p) fuel = some (.delivered, h') ∧
    h'.messages id = h.messages id ++ [⟨n, ⟨p, none⟩⟩]

theorem deliversName_iff {name : String} {pid : PID} (hname : h.lookupName name = some pid)
    (p : π) : h.DeliversName name pid.actorID p ↔ h.Delivers pid p := by
  simp only [DeliversName, Delivers, sendName, hname]

theorem delivers_after_iff {rt : Runtime (Request π)} (hrt : OnlyNames h.toRuntime rt) (pid : PID)
    (ha : h.registry.lookup pid.actorID = some a) (hst : a.status = .running)
    (hopen : a.mailbox.closed = false) (hroom : a.mailbox.depth < a.mailbox.max)
    (hroutes : h.routing.lookup pid.actorID = none) (p : π) :
    (h.after rt).Delivers pid p ↔ h.keepsHere pid = true ∧ h.routers.lookup pid.actorID = none ∧
        (h.after rt).refusal pid = none := by
  have ha' : (h.after rt).registry.lookup pid.actorID = some a := by
    rw [← ha]
    exact congrArg (fun registry => registry.lookup pid.actorID) hrt.registry
  have hnode : (h.after rt).nodeID = h.nodeID := hrt.nodeID
  have hsend : (h.after rt).remoteSend = h.remoteSend := hrt.remoteSend
  have htakes := takes_iff ha' hst hroom hroutes p
  rw [delivers_iff, htakes]
  simp only [keepsHere, transport, hnode, hsend, hopen, Bool.and_eq_true, Bool.not_eq_true',
    Option.isNone_iff_eq_none, and_true, and_assoc]
  exact and_congr_right fun _ => and_congr_right fun _ => and_comm

/-- **Which identifiers and names reach their actor.** For a running actor that was never restarted,
with room and without type routes: those just issued reach it exactly if `SendPID` looks for the
identifier here and the actor is no router; and one that `RegisterName` found must be accepted by
the resolver. -/
theorem issued_delivers_iff {nodeID : String}
    {remoteSend remoteAsk : Option (PID → PIDDeliveryOutcome)}
    {clusterLookup : Option (String → Option PID)} {randSrc : ℕ → ℕ} {tr : List RuntimeEvent}
    {h : Host π}
    (hrun : Run step anyStep (.new nodeID remoteSend remoteAsk clusterLookup randSrc) tr h)
    {id : String} {a : ActorEntry (Request π)} (ha : h.registry.lookup id = some a)
    (hst : a.status = .running) (hfirst : a.restarts = 0)
    (hroom : a.mailbox.depth < a.mailbox.max) (hroutes : h.routing.lookup id = none)
    (hdirect : h.resolver.mode = .localDirect) (p : π) :
    (∀ ns pid rt, h.issuePID ns id = .ok (pid, rt) → ((h.after rt).Delivers pid p ↔
        h.keepsHere pid = true ∧ h.routers.lookup id = none)) ∧
    ∀ name ns pid rt, h.registerName id name ns = (.ok pid, rt) →
      ((h.after rt).DeliversName name id p ↔ h.keepsHere pid = true ∧ h.routers.lookup id = none ∧
          ∀ found, h.pidInNamespace id (Runtime.namespaceFor ns) = some found →
            h.refusal found = none) := by
  have hbooks := pristine_of_run hrun
  have hopen := hbooks.opened id a ha hfirst hst
  refine ⟨fun ns pid rt hissue => ?_, fun name ns pid rt hreg => ?_⟩
  · obtain ⟨-, rfl, rfl⟩ := Runtime.issuePID_spec hissue
    have hnone := refusal_issued hdirect id (h.pidToIssue ns id)
    rw [delivers_after_iff (onlyNames_issued h.toRuntime id _) _ ha hst hopen hroom hroutes p]
    exact and_congr_right fun _ => and_iff_left hnone
  · rcases Runtime.registerName_cases h.toRuntime id name ns with
      ⟨e, herr⟩ | ⟨pid', rt1, -, hpid, heq⟩
    · rw [herr] at hreg
      cases hreg
    · rw [heq] at hreg
      obtain ⟨rfl, -, hrt⟩ := Runtime.registerEntry_ok hreg
      have hname : (h.after rt).lookupName name = some pid := by
        simp [lookupName, Runtime.lookupName, after, hrt]
      cases hpid with
      | found hfound =>
        -- the identifier issued before is used again
        obtain ⟨hlast, -⟩ := Option.filter_eq_some_iff.mp hfound
        obtain rfl := hbooks.own id a pid ha hfirst hlast
        have honly : OnlyNames h.toRuntime rt := by
          rw [hrt]
          exact ⟨rfl, rfl, rfl⟩
        have hsame : (h.after rt).refusal pid = h.refusal pid := by
          rw [hrt]
          rfl
        rw [deliversName_iff hname, delivers_after_iff honly pid ha hst hopen hroom hroutes p,
          hsame, hfound]
        refine and_congr_right fun _ => and_congr_right fun _ => ⟨?_, fun hall => hall pid rfl⟩
        intro hnone found hf
        cases hf
        exact hnone
      | issued hnew hissue =>
        obtain ⟨-, rfl, rfl⟩ := Runtime.issuePID_spec hissue
        have honly : OnlyNames h.toRuntime rt := by
          rw [hrt]
          exact ⟨rfl, rfl, rfl⟩
        have hnone : (h.after rt).refusal (h.pidToIssue (Runtime.namespaceFor ns) id) = none := by
          rw [hrt]
          exact refusal_issued hdirect id _
        have hiff := (deliversName_iff hname p).trans
          (delivers_after_iff honly _ ha hst hopen hroom hroutes p)
        refine hiff.trans (and_congr_right fun _ => and_congr_right fun _ => ?_)
        rw [hnew]
        exact ⟨fun _ _ hf => (nomatch hf), fun _ => hnone⟩

/-- A clustered runtime whose transport finds no other node, with one actor. -/
def clustered : Host String := .new "n1" (some fun _ => .unresolved) none none fun _ => 0

theorem clustered_actor :
    ∃ (h : Host String) (tr : List RuntimeEvent) (a : ActorEntry (Request String)),
      Run step anyStep clustered tr h ∧ h.registry.lookup "a" = some a ∧ a.status = .running ∧
        a.restarts = 0 ∧ a.mailbox.depth < a.mailbox.max ∧ h.routing.lookup "a" = none ∧
        h.resolver.mode = .localDirect ∧ h.routers.lookup "a" = none ∧ h.nodeID = "n1" ∧
        h.remoteSend.isSome = true ∧ h.actorPID.lookup "a" = none ∧
        h.names.lookup "svc" = none := by
  obtain ⟨tr, h, hrun, ha, hroutes, hdirect, hrouter, hnode, hsend, hpid, hname⟩ :
      ∃ tr h, Run step anyStep clustered tr h ∧ (h.registry.lookup "a").any (fun a =>
          a.status = .running ∧ a.restarts = 0 ∧ a.mailbox.depth < a.mailbox.max) = true ∧
        h.routing.lookup "a" = none ∧ h.resolver.mode = .localDirect ∧
        h.routers.lookup "a" = none ∧ h.nodeID = "n1" ∧ h.remoteSend.isSome = true ∧
        h.actorPID.lookup "a" = none ∧ h.names.lookup "svc" = none :=
    Run.of_check [.runtime (.createActor "a" false 4 true)] (by decide +kernel)
  obtain ⟨a, ha, hst, hfirst, hroom⟩ := exists_of_any ha
  exact ⟨h, tr, a, hrun, ha, hst, hfirst, hroom, hroutes, hdirect, hrouter, hnode, hsend, hpid,
    hname⟩

/-- In the node's own namespace, which is the default of `IssuePID`, the actor is reached. -/
theorem issued_delivers_own_namespace :
    ∃ (h : Host String) (tr : List RuntimeEvent) (pid : PID) (rt : Runtime (Request String)),
      Run step anyStep clustered tr h ∧ h.issuePID "" "a" = .ok (pid, rt) ∧
        (h.after rt).Delivers pid "x" := by
  obtain ⟨h, tr, a, hrun, ha, hst, hfirst, hroom, hroutes, hdirect, hrouter, hnode, -⟩ :=
    clustered_actor
  have hpid : h.pidToIssue "" "a" = ⟨"n1", "a", 1⟩ := by
    simp [Runtime.pidToIssue, hnode]
  have hissue : h.issuePID "" "a" = .ok (⟨"n1", "a", 1⟩, h.issued "a" ⟨"n1", "a", 1⟩) := by
    simp [Runtime.issuePID, ha, hpid, PID.validate, Runtime.issued]
  have hhere : h.keepsHere ⟨"n1", "a", 1⟩ = true := by
    rw [keepsHere, transport_self hnode.symm, hnode]
    decide +kernel
  refine ⟨h, tr, _, _, hrun, hissue, ?_⟩
  exact ((issued_delivers_iff hrun ha hst hfirst hroom hroutes hdirect "x").1 _ _ _ hissue).mpr
    ⟨hhere, hrouter⟩

/-- The default namespace of `RegisterName` is another one, so the name counts as one of an actor
elsewhere. -/
theorem default_namespace_is_sent_away :
    ∃ (h : Host String) (tr : List RuntimeEvent) (a : ActorEntry (Request String)) (pid : PID)
      (rt : Runtime (Request String)),
      Run step anyStep clustered tr h ∧ h.registry.lookup "a" = some a ∧ a.status = .running ∧
        a.restarts = 0 ∧ a.mailbox.depth < a.mailbox.max ∧ h.routing.lookup "a" = none ∧
        h.resolver.mode = .localDirect ∧ h.registerName "a" "svc" "" = (.ok pid, rt) ∧
        ¬ (h.after rt).DeliversName "svc" "a" "x" := by
  obtain ⟨h, tr, a, hrun, ha, hst, hfirst, hroom, hroutes, hdirect, -, hnode, hsend, hlast, hnew⟩ :=
    clustered_actor
  have hvalid : validRegistryName "svc" = true := by decide +kernel
  have hreg : h.registerName "a" "svc" "" =
      (.ok ⟨"default", "a", 1⟩, { h.issued "a" ⟨"default", "a", 1⟩ with
        names := h.names.insert "svc" ("a", ⟨"default", "a", 1⟩) }) := by
    simp [Runtime.registerName, ha, Runtime.pidInNamespace, hlast, Runtime.issuePID,
      Runtime.pidToIssue, PID.validate, Runtime.registerEntry, hvalid, hnew, Runtime.issued]
  refine ⟨h, tr, a, _, _, hrun, ha, hst, hfirst, hroom, hroutes, hdirect, hreg, ?_⟩
  have hname : (h.after { h.issued "a" ⟨"default", "a", 1⟩ with
      names := h.names.insert "svc" ("a", ⟨"default", "a", 1⟩) }).lookupName "svc" =
      some ⟨"default", "a", 1⟩ := by
    simp [lookupName, Runtime.lookupName, after]
  rw [deliversName_iff hname, delivers_iff]
  rintro ⟨-, htransport, -⟩
  have hremote : PID.isRemote ⟨"default", "a", 1⟩ h.nodeID = true := by
    rw [hnode]
    decide +kernel
  have hfound : (h.transport h.remoteSend ⟨"default", "a", 1⟩).isSome = true := by
    rw [transport, if_pos hremote]
    exact hsend
  have hnone : h.transport h.remoteSend ⟨"default", "a", 1⟩ = none := htransport
  rw [hnone] at hfound
  cases hfound

end Host
end Westcoast
