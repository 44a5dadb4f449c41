import Mathlib.Computability.Language

/-!
# Words that come in episodes

An episode begins with one certain letter, goes on with letters of one kind and ends with a letter
of another. A word of whole episodes is in `episodes`; one whose last episode may go on is `Opened`.
-/
namespace Westcoast.Lib

open Computability

variable {α : Type} {first a : α} {more ends : Set α} {w : List α}

/-- The words of one letter of a set. -/
def letters (s : Set α) : Language α := {w | ∃ a ∈ s, w = [a]}

/-- One episode: it begins with `first`, goes on with `more` and ends with one of `ends`. -/
def episode (first : α) (more ends : Set α) : Language α :=
  {[first]} * (letters more)∗ * letters ends

def episodes (first : α) (more ends : Set α) : Language α := (episode first more ends)∗

/-- The beginning of a word of episodes. -/
def Beginning (first : α) (more ends : Set α) (w : List α) : Prop :=
  ∃ rest, w ++ rest ∈ episodes first more ends

/-- Whole episodes, and one that has begun and may go on. -/
def Opened (first : α) (more ends : Set α) (w : List α) : Prop :=
  ∃ u ∈ episodes first more ends, ∃ v ∈ (letters more)∗, w = u ++ first :: v

theorem append_mem_kstar {l : Language α} {u v : List α} (hu : u ∈ l∗) (hv : v ∈ l) : u ++ v ∈ l∗ :=
  Set.mem_of_mem_of_subset (Language.append_mem_mul hu hv) (kstar_mul_le_kstar (a := l))

theorem nil_mem_episodes : [] ∈ episodes first more ends := Language.nil_mem_kstar _

theorem opened_of_mem_episodes (hw : w ∈ episodes first more ends) :
    Opened first more ends (w ++ [first]) :=
  ⟨w, hw, [], Language.nil_mem_kstar _, rfl⟩

theorem Opened.snoc_more (h : Opened first more ends w) (ha : a ∈ more) :
    Opened first more ends (w ++ [a]) := by
  obtain ⟨u, hu, v, hv, rfl⟩ := h
  refine ⟨u, hu, v ++ [a], ?_, by simp⟩
  exact append_mem_kstar hv ⟨a, ha, rfl⟩

theorem Opened.snoc_ends (h : Opened first more ends w) (ha : a ∈ ends) :
    w ++ [a] ∈ episodes first more ends := by
  obtain ⟨u, hu, v, hv, rfl⟩ := h
  have hepisode : first :: v ++ [a] ∈ episode first more ends :=
    Language.append_mem_mul (Language.append_mem_mul (Set.mem_singleton [first]) hv) ⟨a, ha, rfl⟩
  have hall := append_mem_kstar hu hepisode
  rw [← List.append_assoc] at hall
  exact hall

theorem beginning_of_mem_episodes (hw : w ∈ episodes first more ends) :
    Beginning first more ends w :=
  ⟨[], by rwa [List.append_nil]⟩

theorem Opened.beginning (h : Opened first more ends w) (ha : a ∈ ends) :
    Beginning first more ends w :=
  ⟨[a], h.snoc_ends ha⟩

end Westcoast.Lib
