import Westcoast.Lib.Slice
import Westcoast.Lib.Object
import Westcoast.Actor.Types

/-!
# The actor mailbox

`mailbox.go`: a slice with a moving head index, a one-place notification channel and a close flag.
`Dequeue` and `DequeueBatch` share their tail, `release`. `BoundedQueue` is what the mailbox is for;
every operation commutes with `Mailbox.abs`, which forgets the head index and the dead slots.
-/
namespace Westcoast

open Lib List Nat

universe u

/-- A bounded queue: the cells from `head` on are live, at most `max`. `notify` is the token in the
notification channel. -/
structure Mailbox (α : Type u) where
  queue : Slice α
  head : ℕ
  max : ℕ
  notify : Bool
  closed : Bool
  head_le : head ≤ queue.len
  depth_le : queue.len - head ≤ max

namespace Mailbox
variable {α : Type u}

def toList (m : Mailbox α) : List α := m.queue.toList.drop m.head

def depth (m : Mailbox α) : ℕ := m.queue.len - m.head

variable (m : Mailbox α)

@[simp] theorem length_toList : m.toList.length = m.depth := by
  simp [toList, depth]

def close (m : Mailbox α) : Mailbox α := { m with closed := true }

def effectiveCapacity (capacity : ℤ) : ℕ := if capacity ≤ 0 then 16 else capacity.toNat

variable [Inhabited α]

/-- `NewMailbox`: at most 16 cells are reserved up front. -/
def new (capacity : ℤ) : Mailbox α where
  queue := Slice.make default (min (effectiveCapacity capacity) 16)
  head := 0
  max := effectiveCapacity capacity
  notify := false
  closed := false
  head_le := zero_le _
  depth_le := by simp

/-- `Enqueue`: refused when closed or full, else appended; the token is offered only to an empty
queue. -/
def enqueue (m : Mailbox α) (msg : α) : SubmitResult × Mailbox α :=
  if m.closed then (.rejectedStop, m)
  else if h : m.depth ≥ m.max then (.rejectedFull, m)
  else
    (.accepted, { m with
        queue := m.queue.append default msg
        notify := m.notify || decide (m.depth = 0)
        head_le := by have := m.head_le; simp; omega
        depth_le := by simp only [depth] at h; simp; omega })

/-- The tail of both dequeues: zero `n` slots, advance the head, drop a dead prefix that is
everything or long, offer the token if messages remain. -/
def release (m : Mailbox α) (n : ℕ) (h : n ≤ m.depth) : Mailbox α :=
  have hd : m.head + n ≤ m.queue.len := by
    have := m.head_le
    simp only [depth] at h
    omega
  have hmax := m.depth_le
  let queue := m.queue.clear default m.head n
  let head := m.head + n
  if _h1 : head ≥ queue.len then
    { m with
      queue := queue.reslice 0 (zero_le _)
      head := 0
      head_le := zero_le _
      depth_le := by simp }
  else if head > 64 ∧ head * 2 ≥ queue.len then
    { m with
      queue := (queue.slide head).reslice (queue.len - head) (by simp [queue])
      head := 0
      notify := true
      head_le := zero_le _
      depth_le := by simp [queue, head]; omega }
  else
    { m with
      queue := queue
      head := head
      notify := true
      head_le := by simpa [queue] using hd
      depth_le := by simp [queue, head]; omega }

/-- `Dequeue`: the head message, or nothing when the queue is empty. -/
def dequeue (m : Mailbox α) : Option α × Mailbox α :=
  if h : m.depth = 0 then (none, m)
  else (m.queue.toList[m.head]?, m.release 1 (by omega))

/-- `DequeueBatch`: up to `limit` messages, at least one when there is one. -/
def dequeueBatch (m : Mailbox α) (limit : ℤ) : List α × Mailbox α :=
  let limit := if limit ≤ 0 then 1 else limit.toNat
  if m.depth = 0 then ([], m)
  else
    let n := min limit m.depth
    ((m.queue.toList.drop m.head).take n, m.release n (min_le_right _ _))

@[simp] theorem closed_release (n : ℕ) (h : n ≤ m.depth) : (m.release n h).closed = m.closed := by
  unfold release
  simp only
  split_ifs <;> rfl

@[simp] theorem max_release (n : ℕ) (h : n ≤ m.depth) : (m.release n h).max = m.max := by
  unfold release
  simp only
  split_ifs <;> rfl

@[simp] theorem toList_release (n : ℕ) (h : n ≤ m.depth) :
    (m.release n h).toList = m.toList.drop n := by
  have hclear : (m.queue.clear default m.head n).toList.drop (m.head + n) = m.toList.drop n := by
    rw [Slice.drop_toList_clear, toList, drop_drop]
  unfold release
  simp only
  split_ifs with hall hslide
  · have hempty : m.toList.drop n = [] := by
      rw [← hclear]
      exact drop_eq_nil_of_le (by simpa using hall)
    rw [hempty]
    simp [toList]
  · rw [← hclear, ← Slice.take_toList_slide]
    simp [toList]
  · exact hclear

end Mailbox

/-! ## The abstract queue -/

/-- At most `max` messages in arrival order, and a close flag. -/
structure BoundedQueue (α : Type u) where
  items : List α
  max : ℕ
  closed : Bool
  length_le : items.length ≤ max

namespace BoundedQueue
variable {α : Type u}

/-- The open empty queue. -/
def new (max : ℕ) : BoundedQueue α := ⟨[], max, false, zero_le _⟩

/-- Refused as stopped when closed, else as full when at the bound, else appended. -/
def enqueue (q : BoundedQueue α) (msg : α) : SubmitResult × BoundedQueue α :=
  if q.closed then (.rejectedStop, q)
  else if h : q.items.length = q.max then (.rejectedFull, q)
  else
    (.accepted,
      { q with items := q.items ++ [msg], length_le := by have := q.length_le; simp; omega })

def dequeue (q : BoundedQueue α) : Option α × BoundedQueue α :=
  (q.items.head?,
    { q with items := q.items.tail, length_le := by have := q.length_le; simp; omega })

/-- `n` dequeues in a row, cut off when the queue is empty. -/
def dequeues : ℕ → BoundedQueue α → List α × BoundedQueue α
  | 0, q => ([], q)
  | n + 1, q =>
    match q.dequeue with
    | (none, q') => ([], q')
    | (some msg, q') => (msg :: (dequeues n q').1, (dequeues n q').2)

def dequeueBatch (q : BoundedQueue α) (limit : ℤ) : List α × BoundedQueue α :=
  q.dequeues (Max.max limit 1).toNat

def close (q : BoundedQueue α) : BoundedQueue α := { q with closed := true }

@[ext] theorem ext {p q : BoundedQueue α} (hi : p.items = q.items) (hm : p.max = q.max)
    (hc : p.closed = q.closed) : p = q := by
  cases p; cases q
  congr

theorem dequeues_eq (n : ℕ) (q : BoundedQueue α) :
    (q.dequeues n).1 = q.items.take n ∧ (q.dequeues n).2.items = q.items.drop n ∧
      (q.dequeues n).2.max = q.max ∧ (q.dequeues n).2.closed = q.closed := by
  induction n generalizing q with
  | zero => simp [dequeues]
  | succ n ih =>
    cases hq : q.items with
    | nil => simp [dequeues, dequeue, hq]
    | cons msg rest =>
      obtain ⟨hout, hitems, hmax, hclosed⟩ := ih q.dequeue.2
      simp only [dequeue, hq, tail_cons] at hout hitems hmax hclosed
      simp [dequeues, dequeue, hq, hout, hitems, hmax, hclosed]

end BoundedQueue

/-! ## Refinement -/

inductive MailboxOp (α : Type u)
  | enqueue (msg : α)
  | dequeue
  | dequeueBatch (limit : ℤ)
  | depth
  | close

inductive MailboxResult (α : Type u)
  | submit (result : SubmitResult)
  | message (msg : Option α)
  | batch (msgs : List α)
  | depth (n : ℕ)
  | done

def Mailbox.step {α : Type u} [Inhabited α] (m : Mailbox α) :
    MailboxOp α → MailboxResult α × Mailbox α
  | .enqueue msg => ((.submit (m.enqueue msg).1), (m.enqueue msg).2)
  | .dequeue => (.message m.dequeue.1, m.dequeue.2)
  | .dequeueBatch limit => (.batch (m.dequeueBatch limit).1, (m.dequeueBatch limit).2)
  | .depth => (.depth m.depth, m)
  | .close => (.done, m.close)

def BoundedQueue.step {α : Type u} (q : BoundedQueue α) :
    MailboxOp α → MailboxResult α × BoundedQueue α
  | .enqueue msg => ((.submit (q.enqueue msg).1), (q.enqueue msg).2)
  | .dequeue => (.message q.dequeue.1, q.dequeue.2)
  | .dequeueBatch limit => (.batch (q.dequeueBatch limit).1, (q.dequeueBatch limit).2)
  | .depth => (.depth q.items.length, q)
  | .close => (.done, q.close)

namespace Mailbox
variable {α : Type u}

def abs (m : Mailbox α) : BoundedQueue α where
  items := m.toList
  max := m.max
  closed := m.closed
  length_le := m.length_toList.trans_le m.depth_le

variable [Inhabited α]

@[simp] theorem abs_new (capacity : ℤ) :
    (new capacity : Mailbox α).abs = BoundedQueue.new (effectiveCapacity capacity) := by
  apply BoundedQueue.ext <;> simp [abs, new, toList, BoundedQueue.new]

variable (m : Mailbox α)

theorem abs_enqueue (msg : α) : (m.enqueue msg).1 = (m.abs.enqueue msg).1 ∧
      (m.enqueue msg).2.abs = (m.abs.enqueue msg).2 := by
  have hfull : m.depth ≥ m.max ↔ m.toList.length = m.max := by
    have := m.depth_le
    simp only [length_toList, depth] at *
    omega
  by_cases hc : m.closed
  · simp [enqueue, BoundedQueue.enqueue, abs, hc]
  by_cases hf : m.depth ≥ m.max
  · have hf' := hfull.mp hf
    simp [enqueue, BoundedQueue.enqueue, abs, hc, hf, hf']
  have hf' := mt hfull.mpr hf
  have happ : m.toList ++ [msg] = (m.queue.append default msg).toList.drop m.head := by
    rw [Slice.toList_append, drop_append_of_le_length (by simpa using m.head_le), toList]
  simp only [enqueue, BoundedQueue.enqueue, abs, hc, hf, hf', dite_false, if_false,
    Bool.false_eq_true, true_and]
  apply BoundedQueue.ext
  · exact happ.symm
  · rfl
  · rfl

theorem abs_dequeue : m.dequeue.1 = m.abs.dequeue.1 ∧ m.dequeue.2.abs = m.abs.dequeue.2 := by
  by_cases h : m.depth = 0
  · have hnil : m.toList = [] := length_eq_zero_iff.mp (by simpa using h)
    refine ⟨by simp [dequeue, BoundedQueue.dequeue, abs, h, hnil], ?_⟩
    apply BoundedQueue.ext <;> simp [dequeue, BoundedQueue.dequeue, abs, h, hnil]
  · refine ⟨by simp [dequeue, BoundedQueue.dequeue, abs, h, toList, head?_drop], ?_⟩
    apply BoundedQueue.ext <;>
      simp [dequeue, BoundedQueue.dequeue, abs, h, drop_one]

theorem abs_dequeueBatch (limit : ℤ) : (m.dequeueBatch limit).1 = (m.abs.dequeueBatch limit).1 ∧
      (m.dequeueBatch limit).2.abs = (m.abs.dequeueBatch limit).2 := by
  have hlimit : (if limit ≤ 0 then 1 else limit.toNat) = (Max.max limit 1).toNat := by
    split_ifs <;> omega
  obtain ⟨hout, hitems, hmax, hclosed⟩ := BoundedQueue.dequeues_eq (Max.max limit 1).toNat m.abs
  by_cases h : m.depth = 0
  · have hnil : m.abs.items = [] := length_eq_zero_iff.mp (by simpa [abs] using h)
    simp only [dequeueBatch, h, if_true, BoundedQueue.dequeueBatch, hout]
    refine ⟨by simp [hnil], ?_⟩
    apply BoundedQueue.ext
    · simp [hitems, hnil]
    · exact hmax.symm
    · exact hclosed.symm
  · simp only [dequeueBatch, h, if_false, BoundedQueue.dequeueBatch, hlimit]
    refine ⟨?_, ?_⟩
    · rw [hout]
      change m.toList.take _ = m.toList.take _
      rw [take_eq_take_iff, length_toList]
      omega
    · apply BoundedQueue.ext
      · rw [hitems]
        change (m.release _ _).toList = m.toList.drop _
        rw [toList_release, drop_eq_drop_iff, length_toList]
        omega
      · simpa [abs] using hmax.symm
      · simpa [abs] using hclosed.symm

/-! ### The live messages under each operation -/

theorem dequeue_fst : m.dequeue.1 = m.toList.head? := (abs_dequeue m).1

@[simp] theorem toList_dequeue : m.dequeue.2.toList = m.toList.tail :=
  congrArg BoundedQueue.items (abs_dequeue m).2

theorem dequeueBatch_fst (limit : ℤ) :
    (m.dequeueBatch limit).1 = m.toList.take (Max.max limit 1).toNat := by
  rw [(abs_dequeueBatch m limit).1]
  exact (BoundedQueue.dequeues_eq _ m.abs).1

@[simp] theorem toList_dequeueBatch (limit : ℤ) :
    (m.dequeueBatch limit).2.toList = m.toList.drop (Max.max limit 1).toNat := by
  have h := congrArg BoundedQueue.items (abs_dequeueBatch m limit).2
  exact h.trans (BoundedQueue.dequeues_eq _ m.abs).2.1

theorem closed_dequeue : m.dequeue.2.closed = m.closed :=
  congrArg BoundedQueue.closed (abs_dequeue m).2

theorem closed_dequeueBatch (limit : ℤ) : (m.dequeueBatch limit).2.closed = m.closed := by
  have h := congrArg BoundedQueue.closed (abs_dequeueBatch m limit).2
  exact h.trans (BoundedQueue.dequeues_eq _ m.abs).2.2.2

theorem enqueue_closed {m : Mailbox α} (h : m.closed = true) (msg : α) :
    (m.enqueue msg).1 ≠ .accepted := by
  simp [enqueue, h]

theorem enqueue_accepted_iff (msg : α) :
    (m.enqueue msg).1 = .accepted ↔ m.closed = false ∧ m.depth < m.max := by
  unfold enqueue
  split_ifs with hclosed hfull
  · simp [hclosed]
  · simp [hfull]
  · simp only [true_iff]
    exact ⟨by simpa using hclosed, by omega⟩

theorem enqueue_refused (msg : α) (h : (m.enqueue msg).1 ≠ .accepted) : (m.enqueue msg).2 = m := by
  unfold enqueue at h ⊢
  split_ifs at h ⊢
  · rfl
  · rfl
  · exact absurd rfl h

theorem closed_enqueue (msg : α) : (m.enqueue msg).2.closed = m.closed := by
  unfold enqueue
  split_ifs <;> rfl

theorem toList_enqueue (msg : α) (h : (m.enqueue msg).1 = .accepted) :
    (m.enqueue msg).2.toList = m.toList ++ [msg] := by
  have hitems := congrArg BoundedQueue.items (abs_enqueue m msg).2
  rw [(abs_enqueue m msg).1] at h
  change (m.enqueue msg).2.toList = _ at hitems
  rw [hitems]
  simp only [BoundedQueue.enqueue] at h ⊢
  split_ifs at h ⊢
  rfl

theorem step_abs (op : MailboxOp α) :
    (m.step op).1 = (m.abs.step op).1 ∧ (m.step op).2.abs = (m.abs.step op).2 := by
  cases op with
  | enqueue msg => simpa [step, BoundedQueue.step] using abs_enqueue m msg
  | dequeue => simpa [step, BoundedQueue.step] using abs_dequeue m
  | dequeueBatch limit => simpa [step, BoundedQueue.step] using abs_dequeueBatch m limit
  | depth => simp [step, BoundedQueue.step, abs]
  | close => exact ⟨rfl, rfl⟩

/-- **The mailbox is a bounded FIFO with a close flag**, for every sequence of operations. -/
theorem refines_boundedQueue (capacity : ℤ) (ops : List (MailboxOp α)) :
    outputs step (new capacity : Mailbox α) ops = outputs BoundedQueue.step
          (BoundedQueue.new (if capacity ≤ 0 then 16 else capacity.toNat)) ops ∧
      (after step (new capacity : Mailbox α) ops).abs = after BoundedQueue.step
          (BoundedQueue.new (if capacity ≤ 0 then 16 else capacity.toNat)) ops := by
  have hnew : (new capacity : Mailbox α).abs =
      BoundedQueue.new (if capacity ≤ 0 then 16 else capacity.toNat) := abs_new capacity
  have hsim : ∀ (m : Mailbox α) (q : BoundedQueue α) (op : MailboxOp α), m.abs = q →
      (m.step op).1 = (q.step op).1 ∧ (m.step op).2.abs = (q.step op).2 := by
    rintro m q op rfl
    exact step_abs m op
  refine ⟨?_, ?_⟩
  · exact outputs_eq_of_simulation hsim ops _ _ hnew
  · exact after_rel_of_simulation (fun m q op h => (hsim m q op h).2) ops _ _ hnew

end Mailbox

end Westcoast
