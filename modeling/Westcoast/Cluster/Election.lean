import Mathlib.Tactic.Common

/-!
# Members and the hash-ring election

`node.go`, `membership.go` and `election_ring.go`. The leader of a scope is the member with the
lowest FNV-1a hash of the scope and its identifier; the term counts the changes. The channel of a
watcher holds four events and drops what does not fit. The empty identifier stands for "no node".
Between members of equal hash, which the source leaves to the order of a map, the earlier one wins
here.
-/
namespace Westcoast.Cluster

abbrev NodeID := String

structure NodeMeta where
  id : NodeID
  addr : String
  tags : List (String × String)
  deriving DecidableEq

inductive MemberEventType
  | join
  | leave
  | failed
  | updated
  deriving DecidableEq

def MemberEventType.departs : MemberEventType → Bool
  | .leave | .failed => true
  | .join | .updated => false

structure MemberEvent where
  type : MemberEventType
  member : NodeMeta
  deriving DecidableEq

structure LeaderEvent where
  leader : NodeID
  prevLeader : NodeID
  term : ℕ
  deriving DecidableEq

def fnv64a (bytes : List UInt8) : UInt64 :=
  bytes.foldl (fun h b => (h ^^^ b.toUInt64) * 1099511628211) 14695981039346656037

def ringHash (scope : String) (id : NodeID) : UInt64 :=
  fnv64a (scope.toByteArray.data.toList ++ 0 :: id.toByteArray.data.toList)

/-- `computeLeader`: the candidate with the lowest hash. -/
def computeLeader (scope : String) : List NodeID → NodeID
  | [] => ""
  | id :: ids =>
    ids.foldl (fun best id => if ringHash scope id < ringHash scope best then id else best) id

def updateMembers (members : List NodeID) (ev : MemberEvent) : List NodeID :=
  if ev.type.departs then members.filter (· ≠ ev.member.id)
  else if ev.member.id ∈ members then members
  else members ++ [ev.member.id]

/-- The state of one scope; a watcher is the contents of its channel. -/
structure ElectionScope where
  leader : NodeID
  term : ℕ
  watchers : List (List LeaderEvent)

namespace ElectionScope

def create (leader : NodeID) : ElectionScope := ⟨leader, 1, []⟩

/-- `notifyWatchersLocked`: a full channel drops the event. -/
def notifyWatchers (e : ElectionScope) (ev : LeaderEvent) : ElectionScope :=
  { e with watchers := e.watchers.map fun ch => if ch.length < 4 then ch ++ [ev] else ch }

/-- What `OnMembershipChange` does to an active scope, given its new leader. -/
def setLeader (e : ElectionScope) (newLeader : NodeID) : ElectionScope :=
  if newLeader = e.leader then e
  else
    { e with leader := newLeader, term := e.term + 1 }.notifyWatchers
      ⟨newLeader, e.leader, e.term + 1⟩

/-- `Watch`: a new channel, with the current leader in it if there is one. -/
def watch (e : ElectionScope) : ElectionScope :=
  { e with watchers := e.watchers ++ [if e.leader = "" then [] else [⟨e.leader, "", e.term⟩]] }

@[simp] theorem leader_setLeader (e : ElectionScope) (newLeader : NodeID) :
    (e.setLeader newLeader).leader = newLeader := by
  simp only [setLeader]
  split_ifs with h
  · exact h.symm
  · rfl

theorem term_setLeader (e : ElectionScope) (newLeader : NodeID) :
    (e.setLeader newLeader).term = if newLeader = e.leader then e.term else e.term + 1 := by
  simp only [setLeader]
  split_ifs with h <;> rfl

end ElectionScope
end Westcoast.Cluster
