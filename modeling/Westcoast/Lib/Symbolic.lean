import Mathlib.Data.Set.Basic
import Mathlib.Tactic.Common

/-!
# Messages under perfect cryptography

Messages are built from atoms and keys by pairing and by message authentication codes. `Derives S t`
is what can be had of `S` by taking pairs apart, by pairing, and by making a code with a key that is
had; `Parts` is what can be had without making anything.
-/
namespace Westcoast.Lib

inductive Term (α κ : Type) where
  | atom (a : α)
  | key (k : κ)
  | pair (t u : Term α κ)
  | mac (k : κ) (body : Term α κ)
  deriving DecidableEq

namespace Term

variable {α κ : Type} {S S' : Set (Term α κ)} {t u : Term α κ} {k : κ} {a : α}

/-- What one who knows the messages of `S` can have. -/
inductive Derives (S : Set (Term α κ)) : Term α κ → Prop
  | known {t : Term α κ} (h : t ∈ S) : Derives S t
  | fst {t u : Term α κ} (h : Derives S (.pair t u)) : Derives S t
  | snd {t u : Term α κ} (h : Derives S (.pair t u)) : Derives S u
  | pair {t u : Term α κ} (ht : Derives S t) (hu : Derives S u) : Derives S (.pair t u)
  | mac {k : κ} {body : Term α κ} (hk : Derives S (.key k)) (hbody : Derives S body) :
      Derives S (.mac k body)

def parts : Term α κ → List (Term α κ)
  | .pair t u => .pair t u :: (parts t ++ parts u)
  | .atom a => [.atom a]
  | .key k => [.key k]
  | .mac k body => [.mac k body]

def Parts (S : Set (Term α κ)) (t : Term α κ) : Prop := ∃ u ∈ S, t ∈ u.parts

theorem self_mem_parts (t : Term α κ) : t ∈ t.parts := by
  cases t <;> simp [parts]

theorem parts_trans {v : Term α κ} (ht : t ∈ u.parts) (hu : u ∈ v.parts) : t ∈ v.parts := by
  induction v with
  | atom | key | mac =>
    simp only [parts, List.mem_singleton] at hu
    rw [hu] at ht
    exact ht
  | pair v1 v2 ih1 ih2 =>
    simp only [parts, List.mem_cons, List.mem_append] at hu ⊢
    rcases hu with rfl | hu | hu
    · simpa [parts] using ht
    · exact .inr (.inl (ih1 hu))
    · exact .inr (.inr (ih2 hu))

theorem Parts.fst (h : Parts S (.pair t u)) : Parts S t := by
  obtain ⟨v, hv, hmem⟩ := h
  refine ⟨v, hv, parts_trans (u := .pair t u) ?_ hmem⟩
  simp [parts, self_mem_parts]

theorem Parts.snd (h : Parts S (.pair t u)) : Parts S u := by
  obtain ⟨v, hv, hmem⟩ := h
  refine ⟨v, hv, parts_trans (u := .pair t u) ?_ hmem⟩
  simp [parts, self_mem_parts]

theorem derives_of_mem_parts (h : Derives S u) (ht : t ∈ u.parts) : Derives S t := by
  induction u with
  | atom | key | mac =>
    simp only [parts, List.mem_singleton] at ht
    rw [ht]
    exact h
  | pair u1 u2 ih1 ih2 =>
    simp only [parts, List.mem_cons, List.mem_append] at ht
    rcases ht with rfl | ht | ht
    · exact h
    · exact ih1 h.fst ht
    · exact ih2 h.snd ht

theorem Parts.derives (h : Parts S t) : Derives S t := by
  obtain ⟨u, hu, hmem⟩ := h
  exact derives_of_mem_parts (.known hu) hmem

/-- What is made from parts. -/
inductive Synth (S : Set (Term α κ)) : Term α κ → Prop
  | part {t : Term α κ} (h : Parts S t) : Synth S t
  | pair {t u : Term α κ} (ht : Synth S t) (hu : Synth S u) : Synth S (.pair t u)
  | mac {k : κ} {body : Term α κ} (hk : Parts S (.key k)) (hbody : Synth S body) :
      Synth S (.mac k body)

/-- Nothing is gained by taking apart what was made. -/
theorem Derives.synth (h : Derives S t) : Synth S t := by
  induction h with
  | @known t hmem => exact .part ⟨t, hmem, self_mem_parts t⟩
  | fst _ ih =>
    cases ih with
    | part hpart => exact .part hpart.fst
    | pair ht _ => exact ht
  | snd _ ih =>
    cases ih with
    | part hpart => exact .part hpart.snd
    | pair _ hu => exact hu
  | pair _ _ iht ihu => exact .pair iht ihu
  | mac _ _ ihk ihbody =>
    cases ihk with
    | part hk => exact .mac hk ihbody

theorem derives_key_iff : Derives S (.key k) ↔ Parts S (.key k) := by
  refine ⟨fun h => ?_, Parts.derives⟩
  cases h.synth with
  | part hpart => exact hpart

theorem derives_atom_iff : Derives S (.atom a) ↔ Parts S (.atom a) := by
  refine ⟨fun h => ?_, Parts.derives⟩
  cases h.synth with
  | part hpart => exact hpart

/-- **No forgery.** A code under a key that was not given away stands in what is known. -/
theorem Derives.not_forged (hk : ¬ Parts S (.key k)) (h : Derives S (.mac k t)) :
    Parts S (.mac k t) := by
  cases h.synth with
  | part hpart => exact hpart
  | mac hkey _ => exact absurd hkey hk

end Term
end Westcoast.Lib
