import Westcoast.Actor.Host
import Westcoast.Cluster.ClusterRouter
import Westcoast.Lib.Walk

/-!
# Preferences of a service group

`applyPreferences` puts the workers with the highest combined score in front, and then the strategy
takes the place that its counter, random number or hash leads to, counted over all workers.
-/
namespace Westcoast.Cluster

open Lib List

namespace ClusterRouter

variable {π : Type} [Payload π]

/-- What the strategy goes by: the counter, the random number, the hash of the key, or zero. -/
def ticket (r : ClusterRouter) (serviceName : String) (random : ℕ) (payload : Option π) : ℕ :=
  match r.routers.lookup serviceName with
  | none => 0
  | some state =>
    match state.strategy with
    | .known .roundRobin => state.rrNext.toNat
    | .known .random => random
    | .known .consistentKey =>
      match payload.bind Payload.hashKey with
      | some key => (fnv32a key.toByteArray.data.toList).toNat
      | none => 0
    | .unknown _ => 0

/-- The divisor of that number: the number `n` of the workers, for a hash cut to 32 bits. -/
def divisor (r : ClusterRouter) (serviceName : String) (payload : Option π) (n : ℕ) : ℕ :=
  match r.routers.lookup serviceName with
  | some ⟨.known .consistentKey, _, _, _⟩ =>
    if (payload.bind Payload.hashKey).isSome then n % 2 ^ 32 else n
  | _ => n

/-- No worker among `members` has a higher score than this one. -/
def isTop (r : ClusterRouter) (serviceName : String) (callPrefs : List NodeRanker)
    (members : List PID) (pid : PID) : Bool :=
  members.all fun w =>
    decide (r.score serviceName callPrefs w ≤ r.score serviceName callPrefs pid)

/-! ## The place the strategy takes -/

theorem selectWorker_fst (r : ClusterRouter) (serviceName : String) {members : List PID}
    (hne : members ≠ []) (random : ℕ) (payload : Option π) :
    (r.selectWorker serviceName members random payload).1 =
      if r.divisor serviceName payload members.length = 0 then none
      else members[r.ticket serviceName random payload %
        r.divisor serviceName payload members.length]? := by
  have hlen : members.length ≠ 0 := by simpa using hne
  cases h : r.routers.lookup serviceName with
  | none => simp [selectWorker, divisor, ticket, h, hlen]
  | some state =>
    obtain ⟨strategy, rrNext, filter, preference⟩ := state
    simp only [selectWorker, divisor, ticket, h]
    cases strategy with
    | unknown name => simp [hlen]
    | known strategy =>
      cases strategy with
      | roundRobin | random => simp [hlen]
      | consistentKey =>
        cases payload.bind Payload.hashKey with
        | none => simp [hlen]
        | some key =>
          simp only [Option.isSome_some, if_true]
          split_ifs <;> rfl

theorem divisor_le (r : ClusterRouter) (serviceName : String) (payload : Option π) (n : ℕ) :
    r.divisor serviceName payload n ≤ n := by
  rw [divisor]
  split
  · split_ifs
    · exact Nat.mod_le n _
    · exact le_refl n
  · exact le_refl n

theorem applyPreferences_perm (r : ClusterRouter) (serviceName : String) (pids : List PID)
    (callPrefs : List NodeRanker) : (r.applyPreferences serviceName pids callPrefs).Perm pids := by
  rw [applyPreferences]
  split_ifs
  · exact .refl pids
  · exact perm_insertionSort _ pids

variable {r : ClusterRouter} {serviceName : String} {callPrefs : List NodeRanker}

theorem score_const
    (h : ((r.staticPreference serviceName).isNone && callPrefs.isEmpty || r.cluster.isNone) =
      true) (pid pid' : PID) :
    r.score serviceName callPrefs pid = r.score serviceName callPrefs pid' := by
  simp only [Bool.or_eq_true, Bool.and_eq_true, Option.isNone_iff_eq_none, List.isEmpty_iff] at h
  rcases h with ⟨hpreference, rfl⟩ | hcluster
  · simp [score, hpreference]
  · have hmap : r.nodeMetaMap = ∅ := by rw [nodeMetaMap, hcluster]
    simp [score, hmap]

theorem applyPreferences_sorted (r : ClusterRouter) (serviceName : String) (pids : List PID)
    (callPrefs : List NodeRanker) :
    (r.applyPreferences serviceName pids callPrefs).Pairwise fun a b =>
      (r.score serviceName callPrefs b).toInt ≤ (r.score serviceName callPrefs a).toInt := by
  rw [applyPreferences]
  split_ifs with h
  · exact pairwise_of_forall fun a b => by rw [score_const h b a]
  · exact pairwise_insertionSort _ pids

theorem route_eq_worker_iff {sort : SortSlice} (hne : r.members sort serviceName ≠ [])
    {random : ℕ} {payload : Option π} {pid : PID} :
    (r.route sort serviceName callPrefs random payload).1 = .worker pid ↔
      r.divisor serviceName payload (r.members sort serviceName).length ≠ 0 ∧
        (r.applyPreferences serviceName (r.members sort serviceName) callPrefs)[
          r.ticket serviceName random payload %
            r.divisor serviceName payload (r.members sort serviceName).length]? = some pid := by
  have hperm := r.applyPreferences_perm serviceName (r.members sort serviceName) callPrefs
  have hselected := selectWorker_fst r serviceName
    (mt (fun hnil => nil_perm.mp (hnil ▸ hperm)) hne) random payload
  rw [hperm.length_eq] at hselected
  rw [route, if_neg (by simpa using hne)]
  split
  · next heq =>
    rw [heq] at hselected
    simp only [reduceCtorEq, false_iff, not_and]
    intro hdivisor
    rw [if_neg hdivisor] at hselected
    rw [← hselected]
    exact fun h => by cases h
  · next heq =>
    rw [heq] at hselected
    split_ifs at hselected with hdivisor
    rw [← hselected]
    simp [hdivisor]

theorem pairwise_isTop (r : ClusterRouter) (serviceName : String) (callPrefs : List NodeRanker)
    (members : List PID) : (r.applyPreferences serviceName members callPrefs).Pairwise fun a b =>
      r.isTop serviceName callPrefs members b = true →
        r.isTop serviceName callPrefs members a = true := by
  refine (r.applyPreferences_sorted serviceName members callPrefs).imp ?_
  intro a b hab hb
  simp only [isTop, all_eq_true, decide_eq_true_eq] at hb ⊢
  exact fun w hw => Int64.le_trans (hb w hw) (Int64.le_iff_toInt_le.mpr hab)

/-- A preference is honoured iff the number the strategy goes by leads to a place of the workers
with the highest score. -/
theorem preference_honoured_iff (r : ClusterRouter) (sort : SortSlice) (serviceName : String)
    (callPrefs : List NodeRanker) (random : ℕ) (payload : Option π)
    (hne : r.members sort serviceName ≠ []) :
    (∀ pid, (r.route sort serviceName callPrefs random payload).1 = .worker pid →
      ∀ w, r.Eligible serviceName w →
        r.score serviceName callPrefs w ≤ r.score serviceName callPrefs pid) ↔
    (r.divisor serviceName payload (r.members sort serviceName).length = 0 ∨
      r.ticket serviceName random payload %
          r.divisor serviceName payload (r.members sort serviceName).length <
        (r.members sort serviceName).countP
          (r.isTop serviceName callPrefs (r.members sort serviceName))) := by
  have htop : ∀ pid, (∀ w, r.Eligible serviceName w →
      r.score serviceName callPrefs w ≤ r.score serviceName callPrefs pid) ↔
        r.isTop serviceName callPrefs (r.members sort serviceName) pid = true := by
    intro pid
    simp [isTop, mem_members]
  simp only [htop, route_eq_worker_iff hne]
  have hperm := r.applyPreferences_perm serviceName (r.members sort serviceName) callPrefs
  by_cases hdivisor : r.divisor serviceName payload (r.members sort serviceName).length = 0
  · simp [hdivisor]
  · -- the place is one of the list, and what stands there is the worker
    have hplace : r.ticket serviceName random payload %
        r.divisor serviceName payload (r.members sort serviceName).length <
          (r.applyPreferences serviceName (r.members sort serviceName) callPrefs).length := by
      rw [hperm.length_eq]
      exact (Nat.mod_lt _ (Nat.pos_of_ne_zero hdivisor)).trans_le
        (r.divisor_le serviceName payload _)
    have hget := getElem?_eq_getElem hplace
    rw [← hperm.countP_eq, lt_countP_iff (r.pairwise_isTop serviceName callPrefs _) hget]
    simp [hget, hdivisor]

/-- A service with workers in two zones, before its first message. -/
def twoZones : ClusterRouter :=
  { registry := ((∅ : AList _).insert "svcgroup:api:n1:w" ⟨"n1", "w", 1⟩).insert
      "svcgroup:api:n2:w" ⟨"n2", "w", 1⟩
    cluster := some ⟨⟨"n1", "a1", [("az", "a")]⟩, [⟨"n2", "a2", [("az", "b")]⟩]⟩
    routers := (∅ : AList _).insert "api" ⟨.known .roundRobin, 0, none, none⟩ }

/-- The first message goes to the nearest worker. -/
theorem preference_honoured_first : twoZones.members .insertion "api" ≠ [] ∧
    ∀ pid, (twoZones.route .insertion "api" [nearest [("az", "a")]] 0 (some "m")).1 = .worker pid →
      ∀ w, twoZones.Eligible "api" w → twoZones.score "api" [nearest [("az", "a")]] w ≤
          twoZones.score "api" [nearest [("az", "a")]] pid := by
  have hne : twoZones.members .insertion "api" ≠ [] := by decide +kernel
  refine ⟨hne, (preference_honoured_iff twoZones .insertion "api" _ 0 (some "m") hne).mpr ?_⟩
  right
  decide +kernel

/-- The second message, with the same preference, goes to the worker in the other zone. -/
theorem second_goes_away :
    let r := (twoZones.route .insertion "api" [nearest [("az", "a")]] 0 (some "m")).2
    let far : PID := ⟨"n2", "w", 1⟩
    let near : PID := ⟨"n1", "w", 1⟩
    (r.route .insertion "api" [nearest [("az", "a")]] 0 (some "m")).1 = .worker far ∧
    r.Eligible "api" near ∧
    r.score "api" [nearest [("az", "a")]] far < r.score "api" [nearest [("az", "a")]] near := by
  intro r far near
  have hmem : near ∈ r.members .insertion "api" := by decide +kernel
  exact ⟨by decide +kernel, mem_members.mp hmem, by decide +kernel⟩

end ClusterRouter

end Westcoast.Cluster
