import Westcoast.Actor.Runtime
import Westcoast.Lib.SetMap

/-!
# The local table of names

`namedRegistry` of `registry.go`: the entries by name, and the names of each actor.
-/
namespace Westcoast

open Lib List

structure RegistryEntry where
  name : String
  actorID : String
  pid : PID
  updated : ℕ

structure NameTable where
  byName : AList (fun _ : String => RegistryEntry)
  byActor : AList (fun _ : String => AList (fun _ : String => Unit))

namespace NameTable

def register (r : NameTable) (now : ℕ) (name actorID : String) (pid : PID) :
    Except RuntimeError RegistryEntry × NameTable :=
  if !validRegistryName name then (.error (.registryNameInvalid name), r)
  else if (r.byName.lookup name).isSome then (.error .registryDuplicateName, r)
  else
    let entry : RegistryEntry := ⟨name, actorID, pid, now⟩
    (.ok entry, ⟨r.byName.insert name entry, addTo r.byActor actorID name⟩)

def unregister (r : NameTable) (name : String) : Option RegistryEntry × NameTable :=
  match r.byName.lookup name with
  | none => (none, r)
  | some entry => (some entry, ⟨r.byName.erase name, dropFrom r.byActor entry.actorID name⟩)

/-- A turn of the loop of `unregisterByActor`. -/
def takeName (out : List RegistryEntry × AList (fun _ : String => RegistryEntry)) (name : String) :
    List RegistryEntry × AList (fun _ : String => RegistryEntry) :=
  match out.2.lookup name with
  | none => out
  | some entry => (out.1 ++ [entry], out.2.erase name)

def unregisterByActor (r : NameTable) (actorID : String) : List RegistryEntry × NameTable :=
  match r.byActor.lookup actorID with
  | none => ([], r)
  | some names =>
    let out := names.keys.foldl takeName ([], r.byName)
    (out.1, ⟨out.2, r.byActor.erase actorID⟩)

inductive Action
  | register (now : ℕ) (name actorID : String) (pid : PID)
  | unregister (name : String)
  | unregisterByActor (actorID : String)

def apply (r : NameTable) : Action → NameTable
  | .register now name actorID pid => (r.register now name actorID pid).2
  | .unregister name => (r.unregister name).2
  | .unregisterByActor actorID => (r.unregisterByActor actorID).2

/-- The second map is the inverse of the first, without empty sets. -/
structure Exact (r : NameTable) : Prop where
  named : ∀ name e, r.byName.lookup name = some e → e.name = name
  inverse : ∀ a name, name ∈ members r.byActor a ↔
    ∃ e, r.byName.lookup name = some e ∧ e.actorID = a
  noneEmpty : NoneEmpty r.byActor

variable {r : NameTable}

theorem foldl_takeName {names : List String} (hnodup : names.Nodup) (out : List RegistryEntry)
    (m : AList (fun _ : String => RegistryEntry)) : names.foldl takeName (out, m) =
      (out ++ names.filterMap m.lookup, names.foldl (fun m name => m.erase name) m) := by
  induction names generalizing out m with
  | nil => simp
  | cons name names ih =>
    obtain ⟨hnot, hnodup⟩ := nodup_cons.mp hnodup
    rw [foldl_cons, foldl_cons, filterMap_cons, takeName]
    cases he : m.lookup name with
    | none =>
      rw [ih hnodup, erase_eq_self.mpr he]
    | some e =>
      have hrest : names.filterMap (m.erase name).lookup = names.filterMap m.lookup := by
        refine filterMap_congr fun name' hmem => ?_
        rw [lookup_erase_ite, if_neg]
        rintro rfl
        exact hnot hmem
      dsimp only
      rw [ih hnodup, hrest, append_assoc]
      rfl

theorem Exact.unregisterByActor (h : r.Exact) (a : String) :
    (r.unregisterByActor a).1 = (members r.byActor a).filterMap r.byName.lookup ∧
    (∀ name, (r.unregisterByActor a).2.byName.lookup name =
      (r.byName.lookup name).filter (·.actorID ≠ a)) ∧
    (r.unregisterByActor a).2.byActor = r.byActor.erase a := by
  have hspec : r.unregisterByActor a =
      ((members r.byActor a).filterMap r.byName.lookup,
        ⟨(members r.byActor a).foldl (fun m name => m.erase name) r.byName,
          r.byActor.erase a⟩) := by
    unfold NameTable.unregisterByActor members
    cases hs : r.byActor.lookup a with
    | none => simp [erase_eq_self.mpr hs]
    | some names => simp [foldl_takeName names.keys_nodup]
  rw [hspec]
  refine ⟨rfl, fun name => ?_, rfl⟩
  have hgone := lookup_foldl_erase id (members r.byActor a) r.byName name
  simp only [id_eq, map_id_fun, h.inverse] at hgone
  rw [hgone]
  cases hname : r.byName.lookup name with
  | none => simp
  | some e => by_cases ha : e.actorID = a <;> simp [ha, Option.filter_some]

theorem Exact.apply (h : r.Exact) (a : Action) : (r.apply a).Exact := by
  cases a with
  | register now name actorID pid =>
    simp only [NameTable.apply, register]
    split_ifs with hvalid hbound
    · exact h
    · exact h
    · refine ⟨fun name' e he => ?_, fun a name' => ?_, h.noneEmpty.addTo _ _⟩
      · rw [lookup_insert_ite] at he
        split_ifs at he with hname
        · cases he
          exact hname.symm
        · exact h.named name' e he
      · rw [mem_members_addTo, h.inverse, lookup_insert_ite]
        rw [Option.not_isSome_iff_eq_none] at hbound
        by_cases hname : name' = name
        · subst hname
          simp [hbound, eq_comm]
        · simp [hname]
  | unregister name =>
    simp only [NameTable.apply, unregister]
    cases he : r.byName.lookup name with
    | none => exact h
    | some e =>
      refine ⟨fun name' e' he' => ?_, fun a name' => ?_, h.noneEmpty.dropFrom _ _⟩
      · rw [lookup_erase_ite] at he'
        split_ifs at he'
        exact h.named name' e' he'
      · rw [mem_members_dropFrom, h.inverse, lookup_erase_ite]
        by_cases hname : name' = name
        · subst hname
          simp [he, eq_comm]
        · simp [hname]
  | unregisterByActor actorID =>
    obtain ⟨-, hnames, hactors⟩ := h.unregisterByActor actorID
    refine ⟨fun name e he => ?_, fun a name => ?_, hactors ▸ h.noneEmpty.erase _⟩
    · rw [NameTable.apply, hnames] at he
      exact h.named name e (Option.filter_eq_some_iff.mp he).1
    · simp only [NameTable.apply, hnames, hactors, Option.filter_eq_some_iff]
      by_cases ha : a = actorID
      · subst ha
        simp [members]
      · have hsame : members (r.byActor.erase actorID) a = members r.byActor a := by
          rw [members, lookup_erase_ite, if_neg ha]
          rfl
        rw [hsame, h.inverse]
        refine exists_congr fun e => and_congr_left ?_
        rintro rfl
        simp [ha]

/-- What a table answers, and what it is left with. -/
structure Correct (r : NameTable) : Prop extends Exact r where
  single : ∀ a b name, name ∈ members r.byActor a → name ∈ members r.byActor b → a = b
  registers : ∀ now name a pid, (∃ e, (r.register now name a pid).1 = .ok e) ↔
    validRegistryName name = true ∧ r.byName.lookup name = none
  binds : ∀ now name a pid e, (r.register now name a pid).1 = .ok e → e = ⟨name, a, pid, now⟩ ∧
    ∀ name', (r.register now name a pid).2.byName.lookup name' =
      if name' = name then some e else r.byName.lookup name'
  refuses : ∀ now name a pid err, (r.register now name a pid).1 = .error err →
    (r.register now name a pid).2 = r
  unbinds : ∀ name, (r.unregister name).1 = r.byName.lookup name ∧
    ∀ name', (r.unregister name).2.byName.lookup name' =
      if name' = name then none else r.byName.lookup name'
  once : ∀ a, ((r.unregisterByActor a).1.map (·.name)).Nodup
  returned : ∀ a e, e ∈ (r.unregisterByActor a).1 ↔
    r.byName.lookup e.name = some e ∧ e.actorID = a
  removed : ∀ a name, (r.unregisterByActor a).2.byName.lookup name =
    (r.byName.lookup name).filter (·.actorID ≠ a)

/-- **The name table is a partial function with its exact inverse**, after every sequence of
operations. -/
theorem name_table_exact (actions : List Action) : (actions.foldl apply ⟨∅, ∅⟩).Correct := by
  have h : (actions.foldl apply ⟨∅, ∅⟩).Exact := by
    refine foldlRecOn _ _ ⟨?_, ?_, ?_⟩ fun _ h a _ => h.apply a <;> simp [members, NoneEmpty]
  generalize actions.foldl apply ⟨∅, ∅⟩ = r at h
  refine ⟨h, fun a b name ha hb => ?_, fun now name a pid => ?_, fun now name a pid e he => ?_,
    fun now name a pid err herr => ?_, fun name => ?_, fun a => ?_, fun a e => ?_,
    fun a => (h.unregisterByActor a).2.1⟩
  · obtain ⟨e, he, rfl⟩ := (h.inverse a name).mp ha
    obtain ⟨e', he', rfl⟩ := (h.inverse b name).mp hb
    rw [he] at he'
    cases he'
    rfl
  · unfold register
    cases validRegistryName name <;> cases r.byName.lookup name <;> simp
  · unfold register at he ⊢
    split_ifs at he ⊢
    cases he
    exact ⟨rfl, fun name' => lookup_insert_ite ..⟩
  · unfold register at herr ⊢
    split_ifs at herr ⊢ <;> rfl
  · unfold unregister
    cases hname : r.byName.lookup name with
    | none =>
      refine ⟨rfl, fun name' => ?_⟩
      split_ifs with heq
      · rw [heq, hname]
      · rfl
    | some e => exact ⟨rfl, fun name' => lookup_erase_ite ..⟩
  · rw [(h.unregisterByActor a).1, map_filterMap]
    refine (AList.keys_nodup _).filterMap fun name name' n hn hn' => ?_
    obtain ⟨e, he, rfl⟩ := Option.map_eq_some_iff.mp hn
    obtain ⟨e', he', heq⟩ := Option.map_eq_some_iff.mp hn'
    rw [← h.named _ _ he, ← h.named _ _ he', heq]
  · rw [(h.unregisterByActor a).1, mem_filterMap]
    constructor
    · rintro ⟨name, hname, he⟩
      obtain ⟨e', he', ha⟩ := (h.inverse a name).mp hname
      rw [he] at he'
      cases he'
      exact ⟨by rw [h.named _ _ he, he], ha⟩
    · rintro ⟨he, ha⟩
      exact ⟨e.name, (h.inverse a _).mpr ⟨e, he, ha⟩, he⟩

variable {π : Type} {rt : Runtime π}

/-- The names of a runtime are those of the table. -/
def Holds (r : NameTable) (names : NamedRegistry) : Prop :=
  ∀ name, names.lookup name = (r.byName.lookup name).map fun e => (e.actorID, e.pid)

def applyTo (rt : Runtime π) : Action → Runtime π
  | .register _ name id pid => (rt.registerEntry name id pid).2
  | .unregister name => (rt.unregisterName name).2
  | .unregisterByActor id => { rt with names := Runtime.cleanupRegistry rt.names id }

theorem Holds.apply (h : r.Holds rt.names) (hr : r.Exact) (a : Action) :
    (r.apply a).Holds (applyTo rt a).names := by
  intro n
  cases a with
  | register now name id pid =>
    simp only [applyTo, NameTable.apply, register, Runtime.registerEntry, h name,
      Option.isSome_map]
    split_ifs
    · exact h n
    · exact h n
    · simp only [lookup_insert_ite]
      split_ifs
      · rfl
      · exact h n
  | unregister name =>
    simp only [applyTo, NameTable.apply, unregister, Runtime.unregisterName, h name]
    cases r.byName.lookup name with
    | none => exact h n
    | some e =>
      simp only [Option.map_some, lookup_erase_ite]
      split_ifs
      · rfl
      · exact h n
  | unregisterByActor id =>
    rw [NameTable.apply, (hr.unregisterByActor id).2.1]
    refine (lookup_eraseWhere (fun e : String × PID => e.1 = id) rt.names n).trans ?_
    rw [h n, Option.filter_map]
    simp [Function.comp_def]

theorem Holds.foldl (h : r.Holds rt.names) (hr : r.Exact) (actions : List Action) :
    (actions.foldl NameTable.apply r).Holds (actions.foldl applyTo rt).names := by
  induction actions generalizing r rt with
  | nil => exact h
  | cons a actions ih => exact ih (h.apply hr a) (hr.apply a)

/-- **One map of names stands for the two of the source**, after the same operations on a runtime
without names. -/
theorem names_refined (rt : Runtime π) (actions : List Action) :
    (actions.foldl apply ⟨∅, ∅⟩).Holds (actions.foldl applyTo { rt with names := ∅ }).names :=
  Holds.foldl (fun _ => rfl) ⟨by simp, by simp [members], by simp [NoneEmpty]⟩ actions

end NameTable
end Westcoast
