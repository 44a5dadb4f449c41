import Westcoast.Lib.Assoc

/-!
# Maps of sets

A map whose values are finite sets, with the operations that add and remove one member and that drop
a whole key, described by `has`: whether the set of a key has a member.
-/
namespace Westcoast.Lib

variable {K V : Type} [DecidableEq K] [DecidableEq V]

structure SetMap (K V : Type) [DecidableEq K] [DecidableEq V] where
  sets : AList (fun _ : K => AList (fun _ : V => Unit))

namespace SetMap

def empty : SetMap K V := ⟨∅⟩

/-- The set of a key, which is empty for a key that is not there. -/
def get (m : SetMap K V) (k : K) : AList (fun _ : V => Unit) := (m.sets.lookup k).getD ∅

def hasKey (m : SetMap K V) (k : K) : Bool := (m.sets.lookup k).isSome

def elements (m : SetMap K V) (k : K) : List V := (m.get k).keys

def has (m : SetMap K V) (k : K) (v : V) : Bool := ((m.get k).lookup v).isSome

def add (m : SetMap K V) (k : K) (v : V) : SetMap K V :=
  ⟨m.sets.insert k ((m.get k).insert v ())⟩

def remove (m : SetMap K V) (k : K) (v : V) : SetMap K V :=
  ⟨m.sets.insert k ((m.get k).erase v)⟩

def removeKey (m : SetMap K V) (k : K) : SetMap K V := ⟨m.sets.erase k⟩

@[simp] theorem has_empty (k : K) (v : V) : (empty : SetMap K V).has k v = false := rfl

theorem mem_elements {m : SetMap K V} {k : K} {v : V} : v ∈ m.elements k ↔ m.has k v = true := by
  rw [elements, has, AList.lookup_isSome]
  exact AList.mem_keys.symm

theorem has_add (m : SetMap K V) (k k' : K) (v v' : V) :
    (m.add k v).has k' v' = true ↔ (k' = k ∧ v' = v) ∨ m.has k' v' = true := by
  simp only [has, get, add, lookup_insert_ite]
  by_cases hk : k' = k
  · subst hk
    rw [if_pos rfl, Option.getD_some, lookup_insert_ite]
    by_cases hv : v' = v <;> simp [hv]
  · simp [hk]

theorem has_remove (m : SetMap K V) (k k' : K) (v v' : V) :
    (m.remove k v).has k' v' = true ↔ m.has k' v' = true ∧ ¬ (k' = k ∧ v' = v) := by
  simp only [has, get, remove, lookup_insert_ite]
  by_cases hk : k' = k
  · subst hk
    rw [if_pos rfl, Option.getD_some, lookup_erase_ite]
    by_cases hv : v' = v <;> simp [hv]
  · simp [hk]

theorem has_removeKey (m : SetMap K V) (k k' : K) (v' : V) :
    (m.removeKey k).has k' v' = true ↔ m.has k' v' = true ∧ k' ≠ k := by
  simp only [has, get, removeKey, lookup_erase_ite]
  by_cases hk : k' = k <;> simp [hk]

/-- One member is removed from the sets of many keys. -/
theorem has_foldl_remove {ι : Type} (key : ι → K) (v v' : V) (l : List ι) (m : SetMap K V)
    (k' : K) : (l.foldl (fun m x => m.remove (key x) v) m).has k' v' = true ↔
      m.has k' v' = true ∧ ¬ (k' ∈ l.map key ∧ v' = v) := by
  induction l generalizing m with
  | nil => simp
  | cons x xs ih =>
    rw [List.foldl_cons, ih, has_remove, List.map_cons, List.mem_cons]
    tauto

end SetMap

/-! ### Maps without empty sets -/

variable (m : AList (fun _ : K => AList (fun _ : V => Unit))) (k k' : K) (v v' : V)

def members : List V := ((m.lookup k).getD ∅).keys

def addTo : AList (fun _ : K => AList (fun _ : V => Unit)) :=
  m.insert k (((m.lookup k).getD ∅).insert v ())

/-- A set goes with its last member. -/
def dropFrom : AList (fun _ : K => AList (fun _ : V => Unit)) :=
  match m.lookup k with
  | none => m
  | some s => if (s.erase v).keys = [] then m.erase k else m.insert k (s.erase v)

def NoneEmpty : Prop := ∀ k s, m.lookup k = some s → s.keys ≠ []

variable {m k k' v v'}

theorem mem_members_addTo : v' ∈ members (addTo m k v) k' ↔
    k' = k ∧ v' = v ∨ v' ∈ members m k' := by
  simp only [members, addTo, lookup_insert_ite]
  split_ifs with hk
  · rw [← AList.mem_keys, Option.getD_some, AList.mem_insert, AList.mem_keys, hk]
    simp
  · simp [hk]

theorem mem_members_dropFrom : v' ∈ members (dropFrom m k v) k' ↔
    v' ∈ members m k' ∧ ¬ (k' = k ∧ v' = v) := by
  simp only [members, dropFrom]
  cases hs : m.lookup k with
  | none =>
    have hne : v' ∈ ((m.lookup k').getD ∅).keys → k' ≠ k := by
      rintro hmem rfl
      simp [hs] at hmem
    exact ⟨fun h => ⟨h, fun heq => hne h heq.1⟩, fun h => h.1⟩
  | some s =>
    by_cases hk : k' = k
    · subst hk
      have hkeys : v' ∈ (s.erase v).keys ↔ v' ∈ s.keys ∧ ¬ v' = v := by
        rw [← AList.mem_keys, AList.mem_erase, AList.mem_keys, and_comm]
      dsimp only
      split_ifs with hempty
      · simp [hs, ← hkeys, hempty]
      · rw [AList.lookup_insert, Option.getD_some, hkeys]
        simp [hs]
    · dsimp only
      split_ifs <;> simp [hk]

omit [DecidableEq V] in
theorem NoneEmpty.erase (h : NoneEmpty m) (k : K) : NoneEmpty (m.erase k) := by
  intro k' s hs
  rw [lookup_erase_ite] at hs
  split_ifs at hs
  exact h k' s hs

omit [DecidableEq V] in
theorem NoneEmpty.insert (h : NoneEmpty m) {s : AList (fun _ : V => Unit)} (hs : s.keys ≠ [])
    (k : K) : NoneEmpty (m.insert k s) := by
  intro k' s' hs'
  rw [lookup_insert_ite] at hs'
  split_ifs at hs'
  · cases hs'
    exact hs
  · exact h k' s' hs'

theorem NoneEmpty.addTo (h : NoneEmpty m) (k : K) (v : V) : NoneEmpty (addTo m k v) :=
  h.insert (List.ne_nil_of_mem (AList.mem_keys.mp ((AList.mem_insert _).mpr (.inl rfl)))) k

theorem NoneEmpty.dropFrom (h : NoneEmpty m) (k : K) (v : V) : NoneEmpty (dropFrom m k v) := by
  unfold Lib.dropFrom
  split
  · exact h
  · split_ifs with hempty
    · exact h.erase k
    · exact h.insert hempty k

end Westcoast.Lib
