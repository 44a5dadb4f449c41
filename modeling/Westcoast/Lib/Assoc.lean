import Mathlib.Data.List.AList

/-!
# Looking up in an updated association list

`AList` with a constant value type models a map of a program. The rules below give the
lookup of an updated map at every key at once.
-/
namespace Westcoast.Lib

open List AList

variable {K V : Type} [DecidableEq K]

theorem lookup_insert_ite (m : AList (fun _ : K => V)) (k k' : K) (v : V) :
    (m.insert k v).lookup k' = if k' = k then some v else m.lookup k' := by
  by_cases h : k' = k
  · subst h
    rw [if_pos rfl, lookup_insert]
  · rw [if_neg h, lookup_insert_ne h]

theorem lookup_erase_ite (m : AList (fun _ : K => V)) (k k' : K) :
    (m.erase k).lookup k' = if k' = k then none else m.lookup k' := by
  by_cases h : k' = k
  · subst h
    rw [if_pos rfl, lookup_erase]
  · rw [if_neg h, lookup_erase_ne h]

theorem lookup_union_or (m m' : AList (fun _ : K => V)) (k : K) :
    (m ∪ m').lookup k = (m.lookup k).or (m'.lookup k) := by
  cases hk : m.lookup k with
  | none => rw [lookup_union_right (lookup_eq_none.mp hk), Option.none_or]
  | some v =>
    have hmem : k ∈ m := lookup_isSome.mp (by rw [hk]; rfl)
    rw [lookup_union_left hmem, hk, Option.some_or]

variable {m : AList (fun _ : K => V)}

/-- A check of every entry is one of every lookup. -/
theorem all_entries_iff {ok : (Sigma fun _ : K => V) → Bool} :
    m.entries.all ok = true ↔ ∀ k v, m.lookup k = some v → ok ⟨k, v⟩ = true := by
  rw [all_eq_true]
  constructor
  · intro hall k v hv
    exact hall ⟨k, v⟩ (mem_lookup_iff.mp hv)
  · rintro hall ⟨k, v⟩ hmem
    exact hall k v (mem_lookup_iff.mpr hmem)

def mapValues (f : K → V → V) (m : AList (fun _ : K => V)) : AList (fun _ : K => V) :=
  ⟨m.entries.map (.map id f), m.nodupKeys.map₂ f _⟩

theorem lookup_mapValues (f : K → V → V) (m : AList (fun _ : K => V)) (k : K) :
    (mapValues f m).lookup k = (m.lookup k).map (f k) :=
  dlookup_map₂ k

variable {ι : Type}

theorem lookup_foldl_erase (key : ι → K) (l : List ι) (m : AList (fun _ : K => V)) (k : K) :
    (l.foldl (fun m e => m.erase (key e)) m).lookup k =
      if k ∈ l.map key then none else m.lookup k := by
  induction l generalizing m with
  | nil => simp
  | cons x xs ih =>
    rw [foldl_cons, ih, lookup_erase_ite]
    by_cases hx : k = key x <;> by_cases hxs : k ∈ xs.map key <;> simp [hx, hxs]

def eraseWhere (p : V → Bool) (m : AList (fun _ : K => V)) : AList (fun _ : K => V) :=
  (m.entries.filter fun e => p e.2).foldl (fun m e => m.erase e.1) m

theorem lookup_eraseWhere (p : V → Bool) (m : AList (fun _ : K => V)) (k : K) :
    (eraseWhere p m).lookup k = (m.lookup k).filter fun v => !p v := by
  rw [eraseWhere, lookup_foldl_erase (fun e : Sigma fun _ : K => V => e.1)]
  have hmem : k ∈ (m.entries.filter fun e => p e.2).map (fun e => e.1) ↔
      ∃ v, m.lookup k = some v ∧ p v = true := by
    simp only [mem_map, mem_filter]
    constructor
    · rintro ⟨⟨k', v⟩, ⟨hv, hp⟩, rfl⟩
      exact ⟨v, mem_lookup_iff.mpr hv, hp⟩
    · rintro ⟨v, hv, hp⟩
      exact ⟨⟨k, v⟩, ⟨mem_lookup_iff.mp hv, hp⟩, rfl⟩
  rw [if_congr hmem rfl rfl]
  cases m.lookup k with
  | none => simp
  | some v => cases hp : p v <;> simp [hp, Option.filter_some]

theorem eraseWhere_eq_self {p : V → Bool} :
    eraseWhere p m = m ↔ ∀ k v, m.lookup k = some v → p v = false := by
  constructor
  · intro heq k v hv
    have hlookup := lookup_eraseWhere p m k
    rw [heq, hv] at hlookup
    cases hp : p v with
    | false => rfl
    | true => simp [hp, Option.filter_some] at hlookup
  · intro h
    have hnil : (m.entries.filter fun e => p e.2) = [] := by
      rw [filter_eq_nil_iff]
      rintro ⟨k, v⟩ hmem
      rw [h k v (mem_lookup_iff.mpr hmem)]
      exact Bool.false_ne_true
    rw [eraseWhere, hnil, foldl_nil]

variable {k : K}

theorem erase_eq_self : m.erase k = m ↔ m.lookup k = none := by
  constructor
  · intro heq
    rw [← heq]
    exact lookup_erase _ _
  · intro h
    have hmem : k ∉ m.keys := by
      rw [lookup_eq_none] at h
      exact h
    exact ext (kerase_of_notMem_keys hmem)

/-- The entry with a key is taken out of a list that has each key once. -/
theorem mem_eraseP_of_nodup {key : ι → K} {l : List ι} (hnodup : (l.map key).Nodup) {x : ι} :
    x ∈ l.eraseP (fun e => key e = k) ↔ x ∈ l ∧ key x ≠ k := by
  induction l with
  | nil => simp
  | cons y ys ih =>
    rw [map_cons, nodup_cons] at hnodup
    by_cases hy : key y = k
    · rw [eraseP_cons_of_pos (by simpa using hy), mem_cons]
      constructor
      · intro hx
        refine ⟨.inr hx, fun hk => hnodup.1 ?_⟩
        rw [hy, ← hk]
        exact mem_map_of_mem hx
      · rintro ⟨rfl | hx, hk⟩
        · exact absurd hy hk
        · exact hx
    · rw [eraseP_cons_of_neg (by simpa using hy), mem_cons, mem_cons, ih hnodup.2]
      constructor
      · rintro (rfl | hx)
        · exact ⟨.inl rfl, hy⟩
        · exact ⟨.inr hx.1, hx.2⟩
      · rintro ⟨rfl | hx, hk⟩
        · exact .inl rfl
        · exact .inr ⟨hx, hk⟩

theorem lookup_foldl_insert {key : V → K} {l : List V} (hnodup : (l.map key).Nodup)
    (m : AList (fun _ : K => V)) (k : K) (v : V) :
    (l.foldl (fun m v => m.insert (key v) v) m).lookup k = some v ↔
      v ∈ l ∧ key v = k ∨ k ∉ l.map key ∧ m.lookup k = some v := by
  induction l generalizing m with
  | nil => simp
  | cons x xs ih =>
    rw [map_cons, nodup_cons] at hnodup
    rw [foldl_cons, ih hnodup.2, lookup_insert_ite, map_cons, mem_cons,
      mem_cons]
    by_cases hk : k = key x
    · subst hk
      simp only [hnodup.1, not_false_eq_true, true_and, if_true, Option.some.injEq,
        not_true_eq_false, false_and, or_false]
      constructor
      · rintro (⟨hv, hkey⟩ | rfl)
        · exact ⟨.inr hv, hkey⟩
        · exact ⟨.inl rfl, rfl⟩
      · rintro ⟨rfl | hv, hkey⟩
        · exact .inr rfl
        · exact .inl ⟨hv, hkey⟩
    · simp only [hk, if_false, false_or]
      refine or_congr_left (and_congr_left fun hkey => ⟨.inr, ?_⟩)
      rintro (rfl | hv)
      · exact absurd hkey.symm hk
      · exact hv

/-- A loop over distinct keys whose body works on its own key's part works on each part once. -/
theorem view_foldl {S : Type} {f : S → K → S} (view : S → K → V) (work : K → V → V) (P : S → Prop)
    (hkeep : ∀ s k, P s → P (f s k))
    (hview : ∀ s k k', P s → view (f s k) k' = if k' = k then work k (view s k) else view s k')
    {ks : List K} (hnodup : ks.Nodup) {s : S} (hs : P s) (k : K) :
    view (ks.foldl f s) k = if k ∈ ks then work k (view s k) else view s k := by
  induction ks generalizing s with
  | nil => simp
  | cons x xs ih =>
    rw [nodup_cons] at hnodup
    rw [foldl_cons, ih hnodup.2 (hkeep s x hs), hview s x k hs]
    by_cases hk : k = x
    · subst hk
      simp [hnodup.1]
    · simp [hk]

end Westcoast.Lib
