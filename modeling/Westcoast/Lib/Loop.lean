import Westcoast.Lib.Assoc

/-!
# Loops over the entries of a map

A loop goes through some keys of a map, in whatever order. Its body works on the entry of the key it
is at and on no other, and emits what it has to say. If no key comes twice, the loop leaves every
entry worked on once, in whatever order.
-/
namespace Westcoast.Lib

open List

variable {K V E : Type} [DecidableEq K]

section

variable {m : AList (fun _ : K => V)} {order : List K}

/-- A loop over all keys of a map comes to all that have an entry. -/
theorem lookup_eq_none_of_order (h : order.Perm m.keys) {k : K} (hk : k ∉ order) :
    m.lookup k = none := by
  rw [h.mem_iff] at hk
  exact AList.lookup_eq_none.mpr hk

omit [DecidableEq K] in
theorem nodup_order (h : order.Perm m.keys) : order.Nodup := h.nodup_iff.mpr m.nodupKeys

end

/-- What a loop body does at a key `k`: it keeps, sets or removes the entry, and emits. -/
inductive Visit (r : AList (fun _ : K => V) × List E) (k : K) :
    AList (fun _ : K => V) × List E → Option V × List E → Prop
  | kept : Visit r k r (r.1.lookup k, [])
  | put (v : V) (es : List E) : Visit r k (r.1.insert k v, r.2 ++ es) (some v, es)
  | removed (es : List E) : Visit r k (r.1.erase k, r.2 ++ es) (none, es)

variable {r r' : AList (fun _ : K => V) × List E} {k : K} {w : Option V × List E}

theorem Visit.lookup (h : Visit r k r' w) (k' : K) :
    r'.1.lookup k' = if k' = k then w.1 else r.1.lookup k' := by
  cases h with
  | kept =>
    split_ifs with hk
    · rw [hk]
    · rfl
  | put v es => exact lookup_insert_ite ..
  | removed es => exact lookup_erase_ite ..

theorem Visit.emits (h : Visit r k r' w) : r'.2 = r.2 ++ w.2 := by
  cases h with
  | kept => exact (append_nil _).symm
  | put v es | removed es => rfl

/-- A loop body does `work` on the entry of its key, and nothing else. -/
def Visits (body : AList (fun _ : K => V) × List E → K → AList (fun _ : K => V) × List E)
    (work : K → Option V → Option V × List E) : Prop :=
  ∀ r k, Visit r k (body r k) (work k (r.1.lookup k))

namespace Visits

variable {body : AList (fun _ : K => V) × List E → K → AList (fun _ : K => V) × List E}
  {work : K → Option V → Option V × List E} {ks : List K} {r : AList (fun _ : K => V) × List E}

variable (h : Visits body work)
include h

/-- The loop works on every entry, if there is no work at the keys it does not come to. -/
theorem lookup_foldl (hnodup : ks.Nodup)
    (hskip : ∀ k ∉ ks, work k (r.1.lookup k) = (r.1.lookup k, [])) (k : K) :
    (ks.foldl body r).1.lookup k = (work k (r.1.lookup k)).1 := by
  have hview := view_foldl (fun r k => r.1.lookup k) (fun k v => (work k v).1) (fun _ => True)
    (fun _ _ _ => trivial) (fun r k k' _ => (h r k).lookup k') hnodup (s := r) trivial k
  refine hview.trans ?_
  split_ifs with hk
  · rfl
  · rw [hskip k hk]

theorem emits_foldl (hnodup : ks.Nodup) :
    (ks.foldl body r).2 = r.2 ++ ks.flatMap fun k => (work k (r.1.lookup k)).2 := by
  induction ks generalizing r with
  | nil => simp
  | cons x xs ih =>
    rw [nodup_cons] at hnodup
    have hrest : (xs.flatMap fun k => (work k ((body r x).1.lookup k)).2) =
        xs.flatMap fun k => (work k (r.1.lookup k)).2 := by
      refine flatMap_congr fun k hk => ?_
      have hne : k ≠ x := by
        rintro rfl
        exact hnodup.1 hk
      rw [(h r x).lookup, if_neg hne]
    rw [foldl_cons, ih hnodup.2, (h r x).emits, hrest, flatMap_cons, append_assoc]

/-- What was emitted about a key, if the work on a key emits only what is about it. -/
theorem filter_foldl (hnodup : ks.Nodup)
    (hskip : ∀ k ∉ ks, work k (r.1.lookup k) = (r.1.lookup k, [])) {about : E → K}
    (habout : ∀ k, ∀ e ∈ (work k (r.1.lookup k)).2, about e = k) (k : K) :
    (ks.foldl body r).2.filter (fun e => about e = k) =
      r.2.filter (fun e => about e = k) ++ (work k (r.1.lookup k)).2 := by
  rw [h.emits_foldl hnodup, filter_append]
  congr 1
  have hmine : (work k (r.1.lookup k)).2 = if k ∈ ks then (work k (r.1.lookup k)).2 else [] := by
    split_ifs with hk
    · rfl
    · rw [hskip k hk]
  rw [hmine]
  clear hmine hskip
  induction ks with
  | nil => rfl
  | cons x xs ih =>
    rw [nodup_cons] at hnodup
    rw [flatMap_cons, filter_append, ih hnodup.2]
    by_cases hkx : k = x
    · subst hkx
      rw [if_neg hnodup.1, if_pos mem_cons_self, append_nil, filter_eq_self]
      intro e he
      simpa using habout k e he
    · have hnone : (work x (r.1.lookup x)).2.filter (fun e => about e = k) = [] := by
        rw [filter_eq_nil_iff]
        intro e he
        simpa [habout x e he] using Ne.symm hkx
      rw [hnone, nil_append]
      simp [hkx]

/-- A loop over the keys of some entries may as well read the entries. -/
theorem foldl_keys
    {body' : AList (fun _ : K => V) × List E → (Σ _ : K, V) → AList (fun _ : K => V) × List E}
    (hbody : ∀ r e, r.1.lookup e.1 = some e.2 → body r e.1 = body' r e) {l : List (Σ _ : K, V)}
    (hnodup : (l.map (·.1)).Nodup) (hl : ∀ e ∈ l, r.1.lookup e.1 = some e.2) :
    (l.map (·.1)).foldl body r = l.foldl body' r := by
  induction l generalizing r with
  | nil => rfl
  | cons e l ih =>
    rw [map_cons, nodup_cons] at hnodup
    rw [map_cons, foldl_cons, foldl_cons, ← hbody r e (hl e mem_cons_self)]
    refine ih hnodup.2 fun e' he' => ?_
    have hne : e'.1 ≠ e.1 := fun heq => hnodup.1 (heq ▸ mem_map_of_mem he')
    rw [(h r e.1).lookup, if_neg hne]
    exact hl e' (mem_cons_of_mem e he')

end Visits
end Westcoast.Lib
