import Mathlib.Data.List.Basic

/-!
# Channels that can be closed

A channel with a buffer, and sends that do not wait: a value is put into the buffer if there is
room, and else it is dropped. A send on a closed channel panics, also in a `select` with a
default, because the send can proceed there.
-/
namespace Westcoast.Lib

structure Chan (α : Type) where
  buf : List α
  cap : ℕ
  closed : Bool

inductive Offer (α : Type)
  | sent (a : α)
  | dropped (a : α)
  | panicked (a : α)
  deriving DecidableEq

namespace Offer

variable {α : Type}

def isDropped : Offer α → Bool
  | .dropped _ => true
  | _ => false

def isPanicked : Offer α → Bool
  | .panicked _ => true
  | _ => false

end Offer

namespace Chan

variable {α : Type}

def make (cap : ℕ) : Chan α := ⟨[], cap, false⟩

def offer (ch : Chan α) (a : α) : Chan α × Offer α :=
  if ch.closed then (ch, .panicked a)
  else if ch.buf.length < ch.cap then ({ ch with buf := ch.buf ++ [a] }, .sent a)
  else (ch, .dropped a)

/-- Sends one after the other, until one panics. -/
def offerAll (ch : Chan α) : List α → Chan α × List (Offer α)
  | [] => (ch, [])
  | a :: as =>
    if ch.closed then (ch, [.panicked a])
    else
      let r := (ch.offer a).1.offerAll as
      (r.1, (ch.offer a).2 :: r.2)

def receive (ch : Chan α) : Chan α := { ch with buf := ch.buf.tail }

@[simp]
theorem closed_make (cap : ℕ) : (make cap : Chan α).closed = false := rfl

@[simp]
theorem closed_offer (ch : Chan α) (a : α) : (ch.offer a).1.closed = ch.closed := by
  unfold offer
  split_ifs <;> rfl

@[simp]
theorem closed_offerAll (ch : Chan α) (as : List α) : (ch.offerAll as).1.closed = ch.closed := by
  induction as generalizing ch with
  | nil => rfl
  | cons a as ih =>
    unfold offerAll
    split_ifs with hclosed
    · rfl
    · exact (ih _).trans (closed_offer ch a)

theorem offer_of_open {ch : Chan α} (hopen : ch.closed = false) (a b : α) :
    (ch.offer a).2 ≠ .panicked b := by
  simp only [offer, hopen, Bool.false_eq_true, if_false]
  split_ifs <;> simp

/-- Nothing panics on a channel that is open. -/
theorem not_panicked_of_open {ch : Chan α} (hopen : ch.closed = false) (as : List α) (b : α) :
    .panicked b ∉ (ch.offerAll as).2 := by
  induction as generalizing ch with
  | nil => exact List.not_mem_nil
  | cons a as ih =>
    simp only [offerAll, hopen, Bool.false_eq_true, if_false, List.mem_cons, not_or]
    exact ⟨fun heq => offer_of_open hopen a b heq.symm, ih ((closed_offer ch a).trans hopen)⟩

end Chan

end Westcoast.Lib
