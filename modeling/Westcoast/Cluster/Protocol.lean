import Westcoast.Cluster.Handoff
import Westcoast.Lib.Machine

/-!
# A cluster of nodes

Any number of nodes with one singleton name without placement; a node that crashed may be booted
again under its ID. All nodes process one sequence of membership events, each at its own pace. The
environment keeps to what the protocol counts on: a node is reported as failed only after it
crashed, a message to a live node is neither refused nor lost, and nothing times out.
-/
namespace Westcoast.Cluster

open Lib Option List

variable {σ : Type}

/-- A node that was booted, and how many of the membership events it has processed. -/
structure Host (σ : Type) where
  node : Node σ
  live : Bool
  processed : ℕ

/-- The cluster: its nodes, the sequence of membership events, the messages in flight, and the node
on which the singleton was started last, unless it was booted again since. -/
structure State (σ : Type) where
  hosts : AList (fun _ : NodeID => Host σ)
  log : List MemberEvent
  flight : List (Envelope σ)
  lastStart : NodeID

inductive Action (σ : Type)
  | boot (self : NodeMeta)
  | crash (id : NodeID)
  | emit (ev : MemberEvent)
  | lose (i : ℕ)
  | process (id : NodeID) (now : ℕ)
  | deliver (i : ℕ) (captured : Option σ)
  | act (id : NodeID) (a : NodeAction σ)

/-- A step of one node, and what is in flight without the message the action takes. -/
structure Turn (σ : Type) where
  id : NodeID
  host : Host σ
  action : NodeAction σ
  flight : List (Envelope σ)

namespace State

def empty : State σ := ⟨∅, [], [], ""⟩

def liveHost (c : State σ) (id : NodeID) : Option (Host σ) := (c.hosts.lookup id).filter (·.live)

def node? (c : State σ) (id : NodeID) : Option (Node σ) := (c.liveHost id).map (·.node)

def mayEmit (c : State σ) (ev : MemberEvent) : Bool :=
  match c.hosts.lookup ev.member.id with
  | none => false
  | some h =>
    match ev.type with
    | .join | .updated => h.live
    | .leave => true
    | .failed => !h.live

/-- A request is refused only if its target is not live or the sender is cancelled; a context is
done only if cancelled. -/
def admits (c : State σ) (n : Node σ) : NodeAction σ → Bool
  | .memberEvent _ _ | .receive _ _ => false
  | .register spec => spec.placement.isNone
  | .handoffSend id ok =>
    ok || match n.handoffs.find? (·.id = id) with
      | none => false
      | some h => (c.node? h.prevLeader).isNone || h.canceled
  | .handoffEnd id ctxDone =>
    !ctxDone || match n.handoffs.find? (·.id = id) with
      | none => false
      | some h => h.canceled
  | .deactivationEnd id => n.deactivations.any fun d => d.id = id && d.canceled
  | _ => true

/-- The node step that an action of the cluster stands for. -/
def turn (c : State σ) : Action σ → Option (Turn σ)
  | .process id now =>
    (c.liveHost id).bind fun h =>
      c.log[h.processed]?.map fun ev =>
        ⟨id, { h with processed := h.processed + 1 }, .memberEvent ev now, c.flight⟩
  | .deliver i captured =>
    c.flight[i]?.bind fun env =>
      (c.liveHost env.target).map fun h =>
        ⟨env.target, h, .receive env captured, c.flight.eraseIdx i⟩
  | .act id a =>
    (c.liveHost id).bind fun h => if c.admits h.node a then some ⟨id, h, a, c.flight⟩ else none
  | _ => none

def update (c : State σ) (t : Turn σ) (n : Node σ) (sent : List (Envelope σ)) : State σ :=
  { c with
    hosts := c.hosts.insert t.id { t.host with node := n }
    flight := t.flight ++ sent
    lastStart := if n.phase.runs && !t.host.node.phase.runs then t.id else c.lastStart }

/-- A node boots, as one that never had the singleton. -/
def booted (c : State σ) (name : String) (self : NodeMeta) : State σ :=
  { c with
    hosts := c.hosts.insert self.id ⟨.new name self, true, 0⟩
    lastStart := if c.lastStart = self.id then "" else c.lastStart }

/-- The machine of the cluster; its events are the messages sent. -/
def step (name : String) (c : State σ) (a : Action σ) : Option (State σ × List (Envelope σ)) :=
  match a with
  | .boot self =>
    if self.id = "" || (c.node? self.id).isSome then none else some (c.booted name self, [])
  | .crash id =>
    (c.liveHost id).map fun h =>
      ({ c with hosts := c.hosts.insert id { h with live := false } }, [])
  | .emit ev => if c.mayEmit ev then some ({ c with log := c.log ++ [ev] }, []) else none
  | .lose i =>
    c.flight[i]?.bind fun env =>
      if (c.node? env.target).isSome then none
      else some ({ c with flight := c.flight.eraseIdx i }, [])
  | a =>
    (c.turn a).bind fun t =>
      (t.host.node.step t.action).map fun r => (c.update t r.1 r.2, r.2)

/-! ### What a step changes -/

theorem node?_insert (c : State σ) (id id' : NodeID) (h : Host σ) :
    ({ c with hosts := c.hosts.insert id h } : State σ).node? id' =
      if id' = id then (if h.live then some h.node else none) else c.node? id' := by
  simp only [node?, liveHost, lookup_insert_ite]
  split_ifs with hid hl
  · simp [filter_some, hl]
  · simp [filter_some, hl]
  · rfl

variable {c c' : State σ} {id : NodeID}

theorem node?_of_liveHost {h : Host σ} (hl : c.liveHost id = some h) :
    c.node? id = some h.node ∧ h.live = true := by
  refine ⟨by simp [node?, hl], ?_⟩
  simp only [liveHost, filter_eq_some_iff] at hl
  exact hl.2

/-- A turn belongs to a live node, and takes at most the message it receives. -/
structure Turns (c : State σ) (t : Turn σ) : Prop where
  node : c.node? t.id = some t.host.node
  live : t.host.live = true
  flight : ∀ env ∈ t.flight, env ∈ c.flight
  received : ∀ env captured, t.action = .receive env captured → env ∈ c.flight ∧ env.target = t.id
  placement : ∀ spec, t.action = .register spec → spec.placement = none
  send : ∀ id h, t.action = .handoffSend id false →
    t.host.node.handoffs.find? (·.id = id) = some h →
    c.node? h.prevLeader = none ∨ h.canceled = true
  done : ∀ id h, t.action = .handoffEnd id true → t.host.node.handoffs.find? (·.id = id) = some h →
    h.canceled = true

variable {a : Action σ}

theorem turns_of_turn {t : Turn σ} (h : c.turn a = some t) : c.Turns t := by
  cases a with
  | process id now =>
    simp only [turn, bind_eq_some_iff, map_eq_some_iff] at h
    obtain ⟨host, hhost, ev, -, rfl⟩ := h
    obtain ⟨hnode, hlive⟩ := node?_of_liveHost hhost
    exact ⟨hnode, hlive, fun _ henv => henv, by simp, by simp, by simp, by simp⟩
  | deliver i captured =>
    simp only [turn, bind_eq_some_iff, map_eq_some_iff] at h
    obtain ⟨env, henv, host, hhost, rfl⟩ := h
    obtain ⟨hnode, hlive⟩ := node?_of_liveHost hhost
    refine ⟨hnode, hlive, fun _ => mem_of_mem_eraseIdx, ?_, by simp, by simp, by simp⟩
    intro env' captured' heq
    cases heq
    exact ⟨mem_of_getElem? henv, rfl⟩
  | act id a =>
    simp only [turn, bind_eq_some_iff, ite_none_right_eq_some] at h
    obtain ⟨host, hhost, hadmits, ht⟩ := h
    cases ht
    obtain ⟨hnode, hlive⟩ := node?_of_liveHost hhost
    refine ⟨hnode, hlive, fun _ henv => henv, ?_, ?_, ?_, ?_⟩
    · intro env captured heq
      cases heq
      simp [admits] at hadmits
    · intro spec heq
      cases heq
      simpa [admits] using hadmits
    · intro gid g heq hfind
      cases heq
      simpa [admits, hfind] using hadmits
    · intro gid g heq hfind
      cases heq
      simpa [admits, hfind] using hadmits
  | _ => cases h

inductive Happens (name : String) (c : State σ) : Action σ → State σ → Prop
  | boots {self : NodeMeta} : self.id ≠ "" → Happens name c (.boot self) (c.booted name self)
  | crashes {id : NodeID} {h : Host σ} :
      Happens name c (.crash id) { c with hosts := c.hosts.insert id { h with live := false } }
  | emits {ev : MemberEvent} : Happens name c (.emit ev) { c with log := c.log ++ [ev] }
  | loses {i : ℕ} : Happens name c (.lose i) { c with flight := c.flight.eraseIdx i }
  | moves {a : Action σ} {t : Turn σ} {n : Node σ} {sent : List (Envelope σ)} :
      c.turn a = some t → t.host.node.step t.action = some (n, sent) →
        Happens name c a (c.update t n sent)

variable {name : String}

theorem happens_of_step {es : List (Envelope σ)} (h : c.step name a = some (c', es)) :
    c.Happens name a c' := by
  have hmoves : (c.turn a).bind (fun t =>
      (t.host.node.step t.action).map fun r => (c.update t r.1 r.2, r.2)) = some (c', es) →
        c.Happens name a c' := by
    intro hbind
    simp only [bind_eq_some_iff, map_eq_some_iff] at hbind
    obtain ⟨t, ht, ⟨n, sent⟩, hstep, hr⟩ := hbind
    cases hr
    exact .moves ht hstep
  cases a with
  | boot self =>
    simp only [step] at h
    split_ifs at h with hb
    cases h
    simp only [Bool.or_eq_true, decide_eq_true_eq, not_or] at hb
    exact .boots hb.1
  | crash id =>
    simp only [step, map_eq_some_iff] at h
    obtain ⟨host, -, hr⟩ := h
    cases hr
    exact .crashes
  | emit ev =>
    simp only [step] at h
    split_ifs at h
    cases h
    exact .emits
  | lose i =>
    simp only [step, bind_eq_some_iff] at h
    obtain ⟨env, -, hr⟩ := h
    split_ifs at hr
    cases hr
    exact .loses
  | process id now | deliver i captured | act id a => exact hmoves h

def Becomes (c c' : State σ) (id : NodeID) (n' : Node σ) : Prop :=
  ∀ id', c'.node? id' = if id' = id then some n' else c.node? id'

theorem Becomes.cases {n' : Node σ} (h : Becomes c c' id n') {id' : NodeID} {m : Node σ}
    (hm : c'.node? id' = some m) : id' = id ∧ m = n' ∨ id' ≠ id ∧ c.node? id' = some m := by
  rw [h id'] at hm
  split_ifs at hm with hid
  · cases hm
    exact .inl ⟨hid, rfl⟩
  · exact .inr ⟨hid, hm⟩

theorem becomes_update {t : Turn σ} (hlive : t.host.live = true) (n : Node σ)
    (sent : List (Envelope σ)) : Becomes c (c.update t n sent) t.id n := by
  intro id'
  refine (c.node?_insert t.id id' { t.host with node := n }).trans ?_
  simp [hlive]

end State
end Westcoast.Cluster
