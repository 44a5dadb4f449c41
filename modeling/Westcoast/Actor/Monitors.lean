import Westcoast.Actor.Terminal

/-!
# Monitors

`monitorManager` keeps each monitor twice: under its reference, and in the list of the actor ID it
watches. A `MonitorManager` is such a pair of maps that agree. The lists go by the actor ID of the
target alone, so `drain` returns the monitors of every actor of that ID, on whatever node
(`mem_drain`).
-/
namespace Westcoast

open Lib List Option

structure MonitorRef where
  id : ℕ
  deriving DecidableEq

structure DownMessage where
  ref : MonitorRef
  target : PID
  reason : String
  deriving DecidableEq

structure MonitorEntry where
  ref : MonitorRef
  watcher : PID
  target : PID

/-- `monitorManager`: monitors by target and by reference. -/
structure MonitorTable where
  seq : ℕ
  byTarget : AList (fun _ : String => List MonitorEntry)
  byRef : AList (fun _ : ℕ => MonitorEntry)

namespace MonitorTable

def watching (t : MonitorTable) (actorID : String) : List MonitorEntry :=
  (t.byTarget.lookup actorID).getD []

def new : MonitorTable := ⟨0, ∅, ∅⟩

def entry (t : MonitorTable) (watcher target : PID) : MonitorEntry :=
  ⟨⟨t.seq + 1⟩, watcher, target⟩

/-- `add`; a reference is a number that is not used again. -/
def add (t : MonitorTable) (watcher target : PID) : MonitorTable where
  seq := t.seq + 1
  byTarget := t.byTarget.insert target.actorID
    (t.watching target.actorID ++ [t.entry watcher target])
  byRef := t.byRef.insert (t.seq + 1) (t.entry watcher target)

/-- `remove`, for a monitor that exists. -/
def removeEntry (t : MonitorTable) (ref : MonitorRef) (entry : MonitorEntry) : MonitorTable :=
  let rest := (t.watching entry.target.actorID).eraseP fun e => e.ref.id = ref.id
  { t with
    byTarget :=
      if rest = [] then t.byTarget.erase entry.target.actorID
      else t.byTarget.insert entry.target.actorID rest
    byRef := t.byRef.erase ref.id }

/-- `remove`, with whether there was something to remove. -/
def remove (t : MonitorTable) (ref : MonitorRef) : Bool × MonitorTable :=
  match t.byRef.lookup ref.id with
  | none => (false, t)
  | some entry => (true, t.removeEntry ref entry)

/-- `drain` without its result, which is `watching`. -/
def drain (t : MonitorTable) (targetActorID : String) : MonitorTable :=
  { t with
    byTarget := t.byTarget.erase targetActorID
    byRef := (t.watching targetActorID).foldl (fun m e => m.erase e.ref.id) t.byRef }

/-- The two maps hold the same monitors. -/
structure Indexed (t : MonitorTable) : Prop where
  listed : ∀ id e, e ∈ t.watching id ↔ t.byRef.lookup e.ref.id = some e ∧ e.target.actorID = id
  keyed : ∀ n e, t.byRef.lookup n = some e → e.ref.id = n ∧ n ≤ t.seq
  nodup : ∀ id, ((t.watching id).map (·.ref.id)).Nodup

theorem watching_add (t : MonitorTable) (watcher target : PID) (id : String) :
    (t.add watcher target).watching id =
      if id = target.actorID then t.watching id ++ [t.entry watcher target]
      else t.watching id := by
  simp only [add, watching, lookup_insert_ite]
  by_cases hid : id = target.actorID
  · rw [if_pos hid, if_pos hid, hid, getD_some]
  · rw [if_neg hid, if_neg hid]

theorem watching_removeEntry (t : MonitorTable) (ref : MonitorRef) (entry : MonitorEntry)
    (id : String) : (t.removeEntry ref entry).watching id =
      if id = entry.target.actorID then (t.watching id).eraseP fun e => e.ref.id = ref.id
      else t.watching id := by
  simp only [removeEntry]
  by_cases hid : id = entry.target.actorID
  · subst hid
    rw [if_pos rfl]
    by_cases hrest : ((t.watching entry.target.actorID).eraseP fun e => e.ref.id = ref.id) = []
    · rw [if_pos hrest, hrest]
      simp [watching]
    · rw [if_neg hrest]
      simp [watching]
  · rw [if_neg hid]
    split_ifs <;> simp [watching, hid]

theorem watching_drain (t : MonitorTable) (targetActorID id : String) :
    (t.drain targetActorID).watching id = if id = targetActorID then [] else t.watching id := by
  simp only [drain, watching, lookup_erase_ite]
  split_ifs <;> rfl

theorem lookup_add (t : MonitorTable) (watcher target : PID) (n : ℕ) :
    (t.add watcher target).byRef.lookup n =
      if n = t.seq + 1 then some (t.entry watcher target) else t.byRef.lookup n :=
  lookup_insert_ite _ _ _ _

theorem lookup_removeEntry (t : MonitorTable) (ref : MonitorRef) (entry : MonitorEntry) (n : ℕ) :
    (t.removeEntry ref entry).byRef.lookup n =
      if n = ref.id then none else t.byRef.lookup n :=
  lookup_erase_ite _ _ _

theorem lookup_remove (t : MonitorTable) (ref : MonitorRef) (n : ℕ) :
    (t.remove ref).2.byRef.lookup n = if n = ref.id then none else t.byRef.lookup n := by
  simp only [remove]
  cases hentry : t.byRef.lookup ref.id with
  | some entry => exact lookup_removeEntry t ref entry n
  | none =>
    by_cases hn : n = ref.id
    · rw [if_pos hn, hn, hentry]
    · rw [if_neg hn]

namespace Indexed

variable {t : MonitorTable}

theorem new : Indexed .new where
  listed id e := by simp [MonitorTable.new, watching]
  keyed n e h := by simp [MonitorTable.new] at h
  nodup id := by simp [MonitorTable.new, watching]

variable (h : t.Indexed)
include h

theorem fresh : t.byRef.lookup (t.seq + 1) = none := by
  cases hn : t.byRef.lookup (t.seq + 1) with
  | none => rfl
  | some e => exact absurd (h.keyed _ _ hn).2 (by omega)

theorem ref_ne {id : String} {e : MonitorEntry} (he : e ∈ t.watching id) :
    e.ref.id ≠ t.seq + 1 := by
  intro hid
  have hlook := ((h.listed id e).mp he).1
  rw [hid, h.fresh] at hlook
  cases hlook

theorem add (watcher target : PID) : (t.add watcher target).Indexed where
  listed id e := by
    rw [watching_add, lookup_add]
    by_cases hid : id = target.actorID
    · rw [if_pos hid, mem_append, mem_singleton]
      constructor
      · rintro (he | rfl)
        · rw [if_neg (h.ref_ne he)]
          exact (h.listed id e).mp he
        · exact ⟨if_pos rfl, hid.symm⟩
      · rintro ⟨hlook, htarget⟩
        split_ifs at hlook
        · exact .inr (Option.some.inj hlook).symm
        · exact .inl ((h.listed id e).mpr ⟨hlook, htarget⟩)
    · rw [if_neg hid, h.listed]
      constructor
      · rintro ⟨hlook, htarget⟩
        rw [if_neg (h.ref_ne ((h.listed id e).mpr ⟨hlook, htarget⟩))]
        exact ⟨hlook, htarget⟩
      · rintro ⟨hlook, htarget⟩
        split_ifs at hlook
        · cases hlook
          exact absurd htarget.symm hid
        · exact ⟨hlook, htarget⟩
  keyed n e hlook := by
    rw [lookup_add] at hlook
    split_ifs at hlook with hn
    · cases hlook
      exact ⟨hn.symm, hn.le⟩
    · obtain ⟨href, hle⟩ := h.keyed n e hlook
      exact ⟨href, Nat.le_succ_of_le hle⟩
  nodup id := by
    rw [watching_add]
    split_ifs
    · rw [map_append, nodup_append]
      refine ⟨h.nodup id, by simp, ?_⟩
      intro n hn m hm
      obtain ⟨e, he, rfl⟩ := mem_map.mp hn
      rw [map_singleton, mem_singleton] at hm
      rw [hm]
      exact h.ref_ne he
    · exact h.nodup id

theorem removeEntry {ref : MonitorRef} {entry : MonitorEntry}
    (hentry : t.byRef.lookup ref.id = some entry) : (t.removeEntry ref entry).Indexed where
  listed id e := by
    rw [watching_removeEntry, lookup_removeEntry]
    by_cases hid : id = entry.target.actorID
    · rw [if_pos hid, mem_eraseP_of_nodup (h.nodup id), h.listed]
      constructor
      · rintro ⟨⟨hlook, htarget⟩, hne⟩
        rw [if_neg hne]
        exact ⟨hlook, htarget⟩
      · rintro ⟨hlook, htarget⟩
        split_ifs at hlook with hne
        exact ⟨⟨hlook, htarget⟩, hne⟩
    · rw [if_neg hid, h.listed]
      constructor
      · rintro ⟨hlook, htarget⟩
        -- the removed entry is in another list
        have hne : e.ref.id ≠ ref.id := by
          intro hsame
          rw [hsame, hentry, some.injEq] at hlook
          rw [hlook] at hid
          exact hid htarget.symm
        rw [if_neg hne]
        exact ⟨hlook, htarget⟩
      · rintro ⟨hlook, htarget⟩
        split_ifs at hlook
        exact ⟨hlook, htarget⟩
  keyed n e hlook := by
    rw [lookup_removeEntry] at hlook
    split_ifs at hlook
    exact h.keyed n e hlook
  nodup id := by
    rw [watching_removeEntry]
    split_ifs
    · exact (h.nodup id).sublist (eraseP_sublist.map _)
    · exact h.nodup id

theorem remove (ref : MonitorRef) : (t.remove ref).2.Indexed := by
  simp only [MonitorTable.remove]
  split
  · exact h
  · next entry hentry => exact h.removeEntry hentry

theorem lookup_drain (targetActorID : String) (n : ℕ) (e : MonitorEntry) :
    (t.drain targetActorID).byRef.lookup n = some e ↔
      t.byRef.lookup n = some e ∧ e.target.actorID ≠ targetActorID := by
  simp only [MonitorTable.drain]
  rw [lookup_foldl_erase (fun e : MonitorEntry => e.ref.id)]
  constructor
  · intro hlook
    split_ifs at hlook with hmem
    refine ⟨hlook, fun htarget => hmem (mem_map.mpr ⟨e, ?_, (h.keyed n e hlook).1⟩)⟩
    rw [h.listed, (h.keyed n e hlook).1]
    exact ⟨hlook, htarget⟩
  · rintro ⟨hlook, hother⟩
    rw [if_neg]
    · exact hlook
    · intro hmem
      obtain ⟨e', he', rfl⟩ := mem_map.mp hmem
      obtain ⟨hlook', htarget⟩ := (h.listed _ _).mp he'
      rw [hlook, some.injEq] at hlook'
      exact hother (hlook' ▸ htarget)

theorem drain (targetActorID : String) : (t.drain targetActorID).Indexed where
  listed id e := by
    rw [watching_drain, h.lookup_drain]
    by_cases hid : id = targetActorID
    · rw [if_pos hid]
      refine iff_of_false not_mem_nil ?_
      rintro ⟨⟨-, hother⟩, htarget⟩
      exact hother (htarget.trans hid)
    · rw [if_neg hid, h.listed]
      constructor
      · rintro ⟨hlook, htarget⟩
        exact ⟨⟨hlook, fun hdrained => hid (htarget.symm.trans hdrained)⟩, htarget⟩
      · rintro ⟨⟨hlook, -⟩, htarget⟩
        exact ⟨hlook, htarget⟩
  keyed n e hlook := h.keyed n e ((h.lookup_drain targetActorID n e).mp hlook).1
  nodup id := by
    rw [watching_drain]
    split_ifs
    · exact nodup_nil
    · exact h.nodup id

end Indexed
end MonitorTable

structure MonitorManager where
  table : MonitorTable
  indexed : table.Indexed

namespace MonitorManager

def new : MonitorManager := ⟨.new, .new⟩

def add (mm : MonitorManager) (watcher target : PID) : MonitorRef × MonitorManager :=
  (⟨mm.table.seq + 1⟩, ⟨mm.table.add watcher target, mm.indexed.add watcher target⟩)

def remove (mm : MonitorManager) (ref : MonitorRef) : Bool × MonitorManager :=
  ((mm.table.remove ref).1, ⟨(mm.table.remove ref).2, mm.indexed.remove ref⟩)

def drain (mm : MonitorManager) (targetActorID : String) : List MonitorEntry × MonitorManager :=
  (mm.table.watching targetActorID, ⟨mm.table.drain targetActorID, mm.indexed.drain targetActorID⟩)

def active (mm : MonitorManager) (ref : MonitorRef) (watcher target : PID) : Prop :=
  mm.table.byRef.lookup ref.id = some ⟨ref, watcher, target⟩

variable (mm : MonitorManager) (ref : MonitorRef) (watcher target : PID)

theorem not_active_new : ¬ new.active ref watcher target := by
  simp [active, new, MonitorTable.new]

theorem active_le {mm : MonitorManager} {ref : MonitorRef} {watcher target : PID}
    (h : mm.active ref watcher target) : ref.id ≤ mm.table.seq := (mm.indexed.keyed _ _ h).2

theorem active_add (watcher' target' : PID) :
    (mm.add watcher' target').2.active ref watcher target ↔ mm.active ref watcher target ∨
        ref = (mm.add watcher' target').1 ∧ watcher = watcher' ∧ target = target' := by
  simp only [active, add, MonitorTable.lookup_add]
  by_cases href : ref.id = mm.table.seq + 1
  · have hno : mm.table.byRef.lookup ref.id = none := by rw [href, mm.indexed.fresh]
    have heq : ref = ⟨mm.table.seq + 1⟩ := by rw [← href]
    rw [if_pos href, hno]
    simp [MonitorTable.entry, heq, eq_comm]
  · have hne : ref ≠ ⟨mm.table.seq + 1⟩ := fun heq => href (by rw [heq])
    rw [if_neg href]
    simp [hne]

theorem active_remove (ref' : MonitorRef) :
    (mm.remove ref').2.active ref watcher target ↔ mm.active ref watcher target ∧ ref ≠ ref' := by
  simp only [active, remove, MonitorTable.lookup_remove]
  by_cases href : ref.id = ref'.id
  · have heq : ref = ref' := by
      cases ref
      cases ref'
      simpa using href
    simp [heq]
  · have hne : ref ≠ ref' := fun heq => href (by rw [heq])
    simp [href, hne]

theorem not_active_of_remove {mm : MonitorManager} {ref : MonitorRef}
    (h : (mm.remove ref).1 = false) : ¬ mm.active ref watcher target := by
  intro hactive
  simp only [active] at hactive
  simp only [remove, MonitorTable.remove, hactive] at h
  cases h

theorem seq_remove (ref : MonitorRef) : (mm.remove ref).2.table.seq = mm.table.seq := by
  simp only [remove, MonitorTable.remove]
  split <;> rfl

theorem le_of_remove {mm : MonitorManager} {ref : MonitorRef} (h : (mm.remove ref).1 = true) :
    ref.id ≤ mm.table.seq := by
  cases hentry : mm.table.byRef.lookup ref.id with
  | none =>
    simp only [remove, MonitorTable.remove, hentry] at h
    cases h
  | some entry => exact (mm.indexed.keyed _ _ hentry).2

theorem active_drain (id : String) : (mm.drain id).2.active ref watcher target ↔
      mm.active ref watcher target ∧ target.actorID ≠ id :=
  mm.indexed.lookup_drain id _ _

theorem mem_drain (id : String) : ⟨ref, watcher, target⟩ ∈ (mm.drain id).1 ↔
      mm.active ref watcher target ∧ target.actorID = id :=
  mm.indexed.listed id _

theorem nodup_drain (id : String) : (mm.drain id).1.Nodup := (mm.indexed.nodup id).of_map _

/-- After `drain` the map has no slice for the actor ID, and no reference in the one it returned
leads there: what `add` and `remove` write from now on is another slice. -/
theorem drain_forgets (id : String) : (mm.drain id).2.table.byTarget.lookup id = none ∧
    ∀ e ∈ (mm.drain id).1, (mm.drain id).2.table.byRef.lookup e.ref.id = none := by
  refine ⟨AList.lookup_erase _ _, fun e he => eq_none_iff_forall_ne_some.mpr fun e' he' => ?_⟩
  obtain ⟨hlook, htarget⟩ := (mm.indexed.listed id e).mp he
  obtain ⟨hold, hother⟩ := (mm.indexed.lookup_drain id e.ref.id e').mp he'
  rw [hlook] at hold
  cases hold
  exact hother htarget

end MonitorManager

structure MonitoredRuntime (π : Type) extends Runtime π where
  monitors : MonitorManager

namespace MonitoredRuntime

variable {π : Type}

/-- The runtime after an operation that leaves the monitors alone. -/
def after (r : MonitoredRuntime π) (rt : Runtime π) : MonitoredRuntime π :=
  { r with toRuntime := rt }

def monitor (r : MonitoredRuntime π) (watcher target : PID) : MonitorRef × MonitoredRuntime π :=
  let added := r.monitors.add watcher target
  (added.1, { r with monitors := added.2 })

/-- `Demonitor`, with whether there was such a monitor. -/
def demonitor (r : MonitoredRuntime π) (ref : MonitorRef) : Bool × MonitoredRuntime π :=
  let removed := r.monitors.remove ref
  (removed.1, { r with monitors := removed.2 })

variable [Inhabited π] (down : DownMessage → π)

def downFor (reason : String) (entry : MonitorEntry) : PID × DownMessage :=
  (entry.watcher, ⟨entry.ref, entry.target, reason⟩)

/-- `notifyMonitors`, with the messages it sends; `down` makes a payload of them. -/
def notifyMonitors (r : MonitoredRuntime π) (actorID reason : String) :
    List (PID × DownMessage) × MonitoredRuntime π :=
  let drained := r.monitors.drain actorID
  let sent := drained.1.map (downFor reason)
  (sent, {
    toRuntime := sent.foldl (fun rt m => (rt.sendPID m.1 (some (down m.2))).2) r.toRuntime
    monitors := drained.2 })

/-- A terminal path. `cleanupRegistryForActor`, its last act, notifies the monitors, except where
the first start hook fails. -/
def endsBy (r : MonitoredRuntime π) (id : String) (path : TerminalPath) :
    Option (List (PID × DownMessage) × MonitoredRuntime π) :=
  (r.toRuntime.endsBy id path).map fun rt =>
    if path = .startHook then ([], r.after rt)
    else (r.after rt).notifyMonitors down id "stopped"

variable {down : DownMessage → π} {r r' : MonitoredRuntime π} {id : String} {path : TerminalPath}
  {sent : List (PID × DownMessage)}

variable (h : r.endsBy down id path = some (sent, r'))
include h

theorem mem_endsBy (watcher target : PID) (ref : MonitorRef) :
    (∃ reason, (watcher, ⟨ref, target, reason⟩) ∈ sent) ↔
      r.monitors.active ref watcher target ∧ target.actorID = id ∧ path ≠ .startHook := by
  simp only [endsBy, map_eq_some_iff] at h
  obtain ⟨rt, -, heq⟩ := h
  by_cases hpath : path = .startHook
  · rw [if_pos hpath] at heq
    cases heq
    simp [hpath]
  · rw [if_neg hpath] at heq
    cases heq
    have hmem := r.monitors.mem_drain ref watcher target id
    constructor
    · rintro ⟨reason, hm⟩
      obtain ⟨⟨ref', watcher', target'⟩, he, heq⟩ := mem_map.mp hm
      cases heq
      obtain ⟨hactive, hid⟩ := hmem.mp he
      exact ⟨hactive, hid, hpath⟩
    · rintro ⟨hactive, hid, -⟩
      exact ⟨"stopped", mem_map.mpr ⟨_, hmem.mpr ⟨hactive, hid⟩, rfl⟩⟩

theorem nodup_endsBy : sent.Nodup := by
  simp only [endsBy, map_eq_some_iff] at h
  obtain ⟨rt, -, heq⟩ := h
  split_ifs at heq
  · cases heq
    exact nodup_nil
  · cases heq
    refine (r.monitors.nodup_drain id).map ?_
    rintro ⟨ref, watcher, target⟩ ⟨ref', watcher', target'⟩ heq
    cases heq
    rfl

theorem seq_endsBy : r'.monitors.table.seq = r.monitors.table.seq := by
  simp only [endsBy, map_eq_some_iff] at h
  obtain ⟨rt, -, heq⟩ := h
  split_ifs at heq
  · cases heq
    rfl
  · cases heq
    rfl

theorem active_endsBy (ref : MonitorRef) (watcher target : PID) :
    r'.monitors.active ref watcher target ↔ r.monitors.active ref watcher target ∧
        ¬ ∃ reason, (watcher, ⟨ref, target, reason⟩) ∈ sent := by
  rw [mem_endsBy h]
  simp only [endsBy, map_eq_some_iff] at h
  obtain ⟨rt, -, heq⟩ := h
  by_cases hpath : path = .startHook
  · rw [if_pos hpath] at heq
    cases heq
    simp [hpath, after]
  · rw [if_neg hpath] at heq
    cases heq
    refine (r.monitors.active_drain ref watcher target id).trans ?_
    constructor
    · rintro ⟨hactive, hother⟩
      exact ⟨hactive, fun hsent => hother hsent.2.1⟩
    · rintro ⟨hactive, hnot⟩
      exact ⟨hactive, fun hid => hnot ⟨hactive, hid, hpath⟩⟩

end MonitoredRuntime
end Westcoast
