import Westcoast.Actor.RoundRobin
import Westcoast.Lib.Recurrence

/-!
# Sends that never return

A router passes a message on by another call of `sendWithAskContext`. A trap is a set of routers
that pass a message on only to each other. Without one every send ends: the routers that an infinite
sequence of calls visits again and again are a trap.
-/
namespace Westcoast

open Lib Filter List Option RouterState

def RouterState.config (router : RouterState) : RouterStrategy × List String :=
  (router.strategy, router.workers)

def keyWorker (key : String) (workers : List String) : Option String :=
  workers[(fnv32a key.toByteArray.data.toList).toNat % workers.length]?

section Selection
variable {π : Type} [Payload π]

/-- The router may pass the payload on into the set: all workers its counter leads to, one if
random, or the key's. -/
def RouterState.KeepsIn (router : RouterState) (p : π) (S : Set String) : Prop :=
  match router.strategy with
  | .roundRobin => router.workers ≠ [] ∧ ∀ w ∈ router.workers.take (2 ^ 64), w ∈ S
  | .random => ∃ w ∈ router.workers, w ∈ S
  | .consistentKey => ∃ key, Payload.hashKey p = some key ∧ key ≠ "" ∧
      ∃ w ∈ S, keyWorker key router.workers = some w

theorem RouterState.keepsIn_congr {r r' : RouterState} (h : r.config = r'.config) (p : π)
    (S : Set String) : r.KeepsIn p S ↔ r'.KeepsIn p S := by
  obtain ⟨hstrategy, hworkers⟩ := Prod.mk.inj h
  simp only [KeepsIn, hstrategy, hworkers]

variable {router : RouterState}

theorem RouterState.workers_ne_nil {random : ℕ} {p : π} {w : String}
    (h : router.selectWorker random p = .ok w) : router.workers ≠ [] := by
  intro hnil
  simp [selectWorker, hnil] at h

theorem RouterState.selectWorker_random {workers : List String} (hworkers : workers ≠ [])
    (rrNext : UInt64) (random : ℕ) (p : π) :
    selectWorker ⟨.random, workers, rrNext⟩ random p = .ok (turn workers "" random) := by
  cases workers with
  | nil => exact absurd rfl hworkers
  | cons first rest => exact congrArg Except.ok (turn_congr hworkers first "" random)

theorem RouterState.selectWorker_key {workers : List String} {rrNext : UInt64} {random : ℕ}
    {p : π} {w : String} :
    selectWorker ⟨.consistentKey, workers, rrNext⟩ random p = .ok w ↔
      ∃ key, Payload.hashKey p = some key ∧ key ≠ "" ∧ keyWorker key workers = some w := by
  cases workers with
  | nil => simp [selectWorker, keyWorker]
  | cons first rest =>
    cases hkey : Payload.hashKey p with
    | none => simp [selectWorker, hkey]
    | some key =>
      by_cases hempty : key = ""
      · simp [selectWorker, hkey, hempty]
      · let worker := turn (first :: rest) first (fnv32a key.toByteArray.data.toList).toNat
        have hselect : selectWorker ⟨.consistentKey, first :: rest, rrNext⟩ random p =
            .ok worker := by
          simp only [selectWorker, hkey, if_neg hempty]
          rfl
        have hworker : keyWorker key (first :: rest) = some worker :=
          getElem?_turn (cons_ne_nil first rest) first _
        simp [hselect, hworker, hempty]

theorem RouterState.selectWorker_congr (h : router.strategy ≠ .random) (random random' : ℕ)
    (p : π) : router.selectWorker random p = router.selectWorker random' p := by
  obtain ⟨strategy, workers, rrNext⟩ := router
  cases workers with
  | nil => rfl
  | cons first rest =>
    cases strategy with
    | random => exact absurd rfl h
    | roundRobin => rfl
    | consistentKey => rfl

@[simp] theorem RouterState.config_advance (router : RouterState) :
    router.advance.config = router.config := by
  rw [advance]
  split_ifs <;> rfl

end Selection

namespace Host

variable {π : Type}

/-- The actors are the same, and the routers up to their counters. -/
structure SameRouters (h h' : Host π) : Prop where
  registry : h'.registry = h.registry
  configs : ∀ x, (h'.routers.lookup x).map config =
    (h.routers.lookup x).map config

namespace SameRouters

theorem refl (h : Host π) : SameRouters h h := ⟨rfl, fun _ => rfl⟩

theorem symm {h h' : Host π} (hs : SameRouters h h') : SameRouters h' h :=
  ⟨hs.registry.symm, fun x => (hs.configs x).symm⟩

theorem trans {h₁ h₂ h₃ : Host π} (h₁₂ : SameRouters h₁ h₂) (h₂₃ : SameRouters h₂ h₃) :
    SameRouters h₁ h₃ :=
  ⟨h₂₃.registry.trans h₁₂.registry, fun x => (h₂₃.configs x).trans (h₁₂.configs x)⟩

theorem lookup {h h' : Host π} (hs : SameRouters h h') {x : String}
    (hr : h.routers.lookup x = some router) :
    ∃ router', h'.routers.lookup x = some router' ∧ router'.config = router.config := by
  have hconfig := hs.configs x
  rw [hr, map_some, map_eq_some_iff] at hconfig
  exact hconfig

end SameRouters

variable {h : Host π} {id x : String}

theorem lookup_passOn (x : String) : (h.drawID.drawID.advance id router).routers.lookup x =
      if x = id then some router.advance else h.routers.lookup x := by
  rw [← lookup_insert_ite]
  rfl

def visited (f : ℕ → Host π × String) : Set String := {x | ∃ᶠ k in atTop, (f k).2 = x}

theorem visited_of_next {f : ℕ → Host π × String} {w : String}
    (h : ∃ᶠ k in atTop, (f k).2 = x ∧ (f (k + 1)).2 = w) : w ∈ visited f :=
  frequently_of_succ (h.mono fun _ hk => hk.2)

variable [Payload π]

/-- Routers that are running actors and pass the payload on only to each other. -/
structure Trap (h : Host π) (p : π) (S : Set String) : Prop where
  nonempty : S.Nonempty
  keeps : ∀ x ∈ S, ∃ router a, h.routers.lookup x = some router ∧
    h.registry.lookup x = some a ∧ a.status ≠ .stopped ∧ router.KeepsIn p S

/-! ## One call and the next -/

/-- The call of `sendWithAskContext` that a call makes, if any: the host and the addressed actor. -/
def passOn (h : Host π) (id : String) (p : π) (random : ℕ) : Option (Host π × String) :=
  match h.routers.lookup id, h.registry.lookup id with
  | some router, some a =>
    if a.status = .stopped then none
    else
      match router.selectWorker random p with
      | .error _ => none
      | .ok worker => some (h.drawID.drawID.advance id router, worker)
  | _, _ => none

/-- The same with the random number that comes next. -/
def nextCall (p : π) (x : Host π × String) : Option (Host π × String) :=
  x.1.passOn x.2 p (x.1.randSrc x.1.randNext)

variable {p : π} {random : ℕ}

theorem passOn_eq_some {x : Host π × String} : h.passOn id p random = some x ↔
      ∃ router a, h.routers.lookup id = some router ∧ h.registry.lookup id = some a ∧
        a.status ≠ .stopped ∧ router.selectWorker random p = .ok x.2 ∧
          x.1 = h.drawID.drawID.advance id router := by
  simp only [passOn]
  cases hr : h.routers.lookup id with
  | none => simp
  | some router =>
    cases ha : h.registry.lookup id with
    | none => simp
    | some a =>
      by_cases hst : a.status = .stopped
      · simp [hst]
      · cases hsel : router.selectWorker random p with
        | error reason => simp [hst, hsel]
        | ok worker =>
          simp only [if_neg hst, hsel, some.injEq]
          constructor
          · rintro rfl
            exact ⟨router, a, rfl, rfl, hst, hsel, rfl⟩
          · rintro ⟨router', a', rfl, rfl, -, hsel', hhost⟩
            rw [hsel, Except.ok.injEq] at hsel'
            exact Prod.ext hhost.symm hsel'

theorem fuelLoop_send [Inhabited π] (p : π) (ask : Option AskRequestContext) :
    FuelLoop (fun (x : Host π × String) fuel => x.1.sendWithAskContext x.2 (some p) ask fuel)
      (nextCall p) := by
  refine ⟨fun _ => rfl, fun ⟨h, id⟩ fuel hnext => ?_, fun ⟨h, id⟩ x' fuel hnext => ?_⟩
  · simp only [nextCall, passOn] at hnext
    simp only [sendWithAskContext]
    cases hr : h.routers.lookup id with
    | none => rfl
    | some router =>
      cases ha : h.registry.lookup id with
      | none => rfl
      | some a =>
        by_cases hst : a.status = .stopped
        · simp [hst]
        · cases hsel : router.selectWorker (h.randSrc h.randNext) p with
          | error reason => simp [hst, hsel]
          | ok worker => simp [hr, ha, hst, hsel] at hnext
  · obtain ⟨router, a, hr, ha, hst, hsel, hhost⟩ := passOn_eq_some.mp hnext
    simp only [sendWithAskContext, hr, ha, if_neg hst, hsel, hhost]

variable {S : Set String}

theorem SameRouters.trap {h' : Host π} (hs : SameRouters h h') (htrap : h.Trap p S) :
    h'.Trap p S := by
  refine ⟨htrap.nonempty, fun x hx => ?_⟩
  obtain ⟨router, a, hr, ha, hst, hkeeps⟩ := htrap.keeps x hx
  obtain ⟨router', hr', hconfig⟩ := hs.lookup hr
  exact ⟨router', a, hr', by rw [hs.registry, ha], hst,
    (keepsIn_congr hconfig p S).mpr hkeeps⟩

theorem sameRouters_passOn {x : Host π × String} (hpass : h.passOn id p random = some x) :
    SameRouters h x.1 := by
  obtain ⟨router, a, hr, -, -, -, hhost⟩ := passOn_eq_some.mp hpass
  rw [hhost]
  refine ⟨rfl, fun y => ?_⟩
  rw [lookup_passOn]
  split_ifs with hy
  · rw [hy, hr, map_some, map_some, config_advance]
  · rfl

/-! ## An infinite sequence of calls visits a trap -/

section Endless

variable {p : π} {f : ℕ → Host π × String} (hf : ∀ k, nextCall p (f k) = some (f (k + 1)))
include hf

theorem sameRouters_calls (k : ℕ) : SameRouters (f 0).1 (f k).1 := by
  induction k with
  | zero => exact .refl _
  | succ k ih => exact ih.trans (sameRouters_passOn (hf k))

theorem call_router (k : ℕ) : ∃ router a, (f k).1.routers.lookup (f k).2 = some router ∧
      (f 0).1.registry.lookup (f k).2 = some a ∧ a.status ≠ .stopped ∧
      router.selectWorker ((f k).1.randSrc (f k).1.randNext) p = .ok (f (k + 1)).2 := by
  obtain ⟨router, a, hr, ha, hst, hsel, -⟩ := passOn_eq_some.mp (hf k)
  exact ⟨router, a, hr, by rw [← (sameRouters_calls hf k).registry, ha], hst, hsel⟩

theorem call_select {k : ℕ} (hr : (f 0).1.routers.lookup (f k).2 = some router) :
    ∃ rrNext, (f k).1.routers.lookup (f k).2 = some { router with rrNext := rrNext } ∧
      { router with rrNext := rrNext }.selectWorker ((f k).1.randSrc (f k).1.randNext) p =
        .ok (f (k + 1)).2 := by
  obtain ⟨⟨strategy, workers, rrNext⟩, a, hlookup, -, -, hsel⟩ := call_router hf k
  obtain ⟨router', hr', hconfig⟩ := (sameRouters_calls hf k).lookup hr
  rw [hlookup, some.injEq] at hr'
  subst hr'
  obtain ⟨rfl, rfl⟩ := Prod.mk.inj hconfig
  exact ⟨rrNext, hlookup, hsel⟩

theorem call_counter {x : String} (hr : (f 0).1.routers.lookup x = some router)
    (hstrategy : router.strategy = .roundRobin) (hworkers : router.workers ≠ []) (k : ℕ) :
    (((f (k + 1)).1.routers.lookup x).elim 0 rrNext : UInt64) =
      if (f k).2 = x then ((f k).1.routers.lookup x).elim 0 rrNext + 1
      else ((f k).1.routers.lookup x).elim 0 rrNext := by
  obtain ⟨router', a, hlookup, -, -, -, hhost⟩ := passOn_eq_some.mp (hf k)
  rw [hhost, lookup_passOn]
  by_cases hx : (f k).2 = x
  · obtain ⟨router'', hr'', hconfig⟩ := (sameRouters_calls hf k).lookup hr
    rw [hx] at hlookup
    rw [hlookup, some.injEq] at hr''
    subst hr''
    obtain ⟨hstrategy', hworkers'⟩ := Prod.mk.inj hconfig
    rw [if_pos hx.symm, if_pos hx, hlookup, elim_some, elim_some,
      RouterState.advance, if_pos ⟨hstrategy'.trans hstrategy, hworkers' ▸ hworkers⟩]
  · rw [if_neg (Ne.symm hx), if_neg hx]

theorem keepsIn_visited {x : String} (hx : x ∈ visited f)
    (hr : (f 0).1.routers.lookup x = some router) : router.KeepsIn p (visited f) := by
  obtain ⟨strategy, workers, rrNext0⟩ := router
  have hselect : ∀ k, (f k).2 = x → ∃ rrNext,
      (f k).1.routers.lookup x = some ⟨strategy, workers, rrNext⟩ ∧
        selectWorker ⟨strategy, workers, rrNext⟩
          ((f k).1.randSrc (f k).1.randNext) p = .ok (f (k + 1)).2 := by
    rintro k rfl
    exact call_select hf hr
  have hworkers : workers ≠ [] := by
    obtain ⟨k, hk⟩ := hx.exists
    obtain ⟨rrNext, -, hsel⟩ := hselect k hk
    have hne := workers_ne_nil hsel
    exact hne
  cases strategy with
  | roundRobin =>
    refine ⟨hworkers, fun w hw => ?_⟩
    obtain ⟨i, hi⟩ := mem_iff_getElem?.mp hw
    rw [getElem?_take, ite_none_right_eq_some] at hi
    obtain ⟨hlt, hi⟩ := hi
    have hlen : i < workers.length := (List.getElem?_eq_some_iff.mp hi).1
    -- the calls at which the counter is `i` select this worker
    let c (k : ℕ) : UInt64 := ((f k).1.routers.lookup x).elim 0 rrNext
    have hcounter : ∀ k, c (k + 1) = if (f k).2 = x then c k + 1 else c k :=
      call_counter hf hr rfl hworkers
    refine visited_of_next (x := x) ((frequently_counter hx hcounter (.ofNat i)).mono ?_)
    rintro k ⟨hk, hc⟩
    obtain ⟨rrNext, hlookup, hsel⟩ := hselect k hk
    have hnext : rrNext = UInt64.ofNat i := by simpa [c, hlookup] using hc
    rw [Dispatching.selectWorker_roundRobin hworkers, Except.ok.injEq, hnext,
      UInt64.toNat_ofNat_of_lt' hlt] at hsel
    have hturn := getElem?_turn hworkers "" i
    rw [Nat.mod_eq_of_lt hlen, hi, some.injEq, hsel] at hturn
    exact ⟨hk, hturn.symm⟩
  | random =>
    have hmem : ∀ k, (f k).2 = x → (f (k + 1)).2 ∈ workers := by
      intro k hk
      obtain ⟨rrNext, -, hsel⟩ := hselect k hk
      rw [selectWorker_random hworkers, Except.ok.injEq] at hsel
      rw [← hsel]
      exact turn_mem hworkers "" _
    obtain ⟨w, hw, hfrequent⟩ := exists_frequently_eq hx hmem
    exact ⟨w, hw, visited_of_next hfrequent⟩
  | consistentKey =>
    have hkey : ∀ k, (f k).2 = x → ∃ key, Payload.hashKey p = some key ∧ key ≠ "" ∧
        keyWorker key workers = some (f (k + 1)).2 := by
      intro k hk
      obtain ⟨rrNext, -, hsel⟩ := hselect k hk
      exact selectWorker_key.mp hsel
    obtain ⟨k, hk⟩ := hx.exists
    obtain ⟨key, hhash, hne, hworker⟩ := hkey k hk
    have hsame : ∀ j, (f j).2 = x → (f (j + 1)).2 = (f (k + 1)).2 := by
      intro j hj
      obtain ⟨key', hhash', -, hworker'⟩ := hkey j hj
      rw [hhash, some.injEq] at hhash'
      rw [← hhash', hworker, some.injEq] at hworker'
      exact hworker'.symm
    exact ⟨key, hhash, hne, (f (k + 1)).2,
      visited_of_next (hx.mono fun j hj => ⟨hj, hsame j hj⟩), hworker⟩

theorem trap_visited : (f 0).1.Trap p (visited f) := by
  have hkeys : ∀ k, True → (f k).2 ∈ (f 0).1.routers.keys := by
    intro k _
    obtain ⟨router, a, hr, -⟩ := call_router hf k
    obtain ⟨router', hr', -⟩ := (sameRouters_calls hf k).symm.lookup hr
    rw [← AList.mem_keys, ← AList.lookup_isSome, hr']
    rfl
  refine ⟨?_, fun x hx => ?_⟩
  · obtain ⟨x, -, hx⟩ := exists_frequently_eq (Frequently.of_forall fun _ => trivial) hkeys
    exact ⟨x, hx.mono fun _ hk => hk.2⟩
  · obtain ⟨k, rfl⟩ := hx.exists
    obtain ⟨router, a, hr, ha, hst, -⟩ := call_router hf k
    obtain ⟨router', hr', -⟩ := (sameRouters_calls hf k).symm.lookup hr
    exact ⟨router', a, hr', ha, hst, keepsIn_visited hf hx hr'⟩

end Endless

/-! ## A trap holds a message -/

theorem Trap.passOn (htrap : h.Trap p S) (hx : x ∈ S) :
    ∃ random y, h.passOn x p random = some y ∧ y.2 ∈ S := by
  obtain ⟨⟨strategy, workers, rrNext⟩, a, hr, ha, hst, hkeeps⟩ := htrap.keeps x hx
  have hpass : ∀ random w, selectWorker ⟨strategy, workers, rrNext⟩ random p = .ok w →
      w ∈ S → ∃ random y, h.passOn x p random = some y ∧ y.2 ∈ S := fun random w hsel hw =>
    ⟨random, (_, w), passOn_eq_some.mpr ⟨_, a, hr, ha, hst, hsel, rfl⟩, hw⟩
  cases strategy with
  | roundRobin =>
    obtain ⟨hworkers, hall⟩ := hkeeps
    refine hpass 0 _ (Dispatching.selectWorker_roundRobin hworkers rrNext 0 p) (hall _ ?_)
    have hlt : rrNext.toNat % workers.length < 2 ^ 64 := (Nat.mod_le _ _).trans_lt rrNext.toNat_lt
    refine mem_iff_getElem?.mpr ⟨rrNext.toNat % workers.length, ?_⟩
    rw [getElem?_take, if_pos hlt, getElem?_turn hworkers]
  | random =>
    obtain ⟨w, hw, hS⟩ := hkeeps
    obtain ⟨i, hi⟩ := mem_iff_getElem?.mp hw
    have hlen : i < workers.length := (List.getElem?_eq_some_iff.mp hi).1
    have hturn := getElem?_turn (ne_nil_of_mem hw) "" i
    rw [Nat.mod_eq_of_lt hlen, hi, some.injEq] at hturn
    refine hpass i _ (selectWorker_random (ne_nil_of_mem hw) rrNext i p) ?_
    rwa [← hturn]
  | consistentKey =>
    obtain ⟨key, hhash, hne, w, hS, hworker⟩ := hkeeps
    exact hpass 0 w (selectWorker_key.mpr ⟨key, hhash, hne, hworker⟩) hS

def Draws (y : Host π × String) : Prop :=
  ∃ router, y.1.routers.lookup y.2 = some router ∧ router.strategy = .random

variable {y : Host π × String}

omit [Payload π] in
theorem not_draws (h : ¬ Draws y) (hr : y.1.routers.lookup y.2 = some router) :
    router.strategy ≠ .random :=
  fun hstrategy => h ⟨router, hr, hstrategy⟩

theorem randNext_passOn {y' : Host π × String} [Decidable (Draws y)]
    (hpass : y.1.passOn y.2 p random = some y') :
    y'.1.randNext = if Draws y then y.1.randNext + 1 else y.1.randNext := by
  obtain ⟨router, a, hr, -, -, hsel, hhost⟩ := passOn_eq_some.mp hpass
  have hworkers := workers_ne_nil hsel
  rw [hhost]
  split_ifs with hdraws
  · obtain ⟨router', hr', hstrategy⟩ := hdraws
    rw [hr, some.injEq] at hr'
    exact if_pos ⟨hr' ▸ hstrategy, hworkers⟩
  · exact if_neg fun hrandom => not_draws hdraws hr hrandom.1

theorem nextCall_withSource {y' : Host π × String} {src : ℕ → ℕ}
    (hpass : y.1.passOn y.2 p random = some y') (hsrc : Draws y → src y.1.randNext = random) :
    nextCall p ({ y.1 with randSrc := src }, y.2) = some ({ y'.1 with randSrc := src }, y'.2) := by
  obtain ⟨router, a, hr, ha, hst, hsel, hhost⟩ := passOn_eq_some.mp hpass
  refine passOn_eq_some.mpr ⟨router, a, hr, ha, hst, ?_, by rw [hhost]; rfl⟩
  rw [← hsel]
  by_cases hdraws : Draws y
  · exact congrArg (router.selectWorker · p) (hsrc hdraws)
  · exact selectWorker_congr (not_draws hdraws hr) _ _ p

theorem Trap.exists_calls (htrap : h.Trap p S) (hx : x ∈ S) :
    ∃ (src : ℕ → ℕ) (f : ℕ → Host π × String),
      f 0 = ({ h with randSrc := src }, x) ∧ ∀ k, nextCall p (f k) = some (f (k + 1)) := by
  classical
  let Caught := { y : Host π × String // y.1.Trap p S ∧ y.2 ∈ S }
  have hnext : ∀ y : Caught, ∃ (random : ℕ) (y' : Caught),
      y.1.1.passOn y.1.2 p random = some y'.1 := by
    rintro ⟨y, hy, hin⟩
    obtain ⟨random, y', hpass, hin'⟩ := hy.passOn hin
    exact ⟨random, ⟨y', (sameRouters_passOn hpass).trap hy, hin'⟩, hpass⟩
  choose random next hpass using hnext
  let f (k : ℕ) : Caught := next^[k] ⟨(h, x), htrap, hx⟩
  have hf : ∀ k, (f k).1.1.passOn (f k).1.2 p (random (f k)) = some (f (k + 1)).1 := by
    intro k
    rw [hpass]
    exact congrArg (fun y => some y.1) (Function.iterate_succ_apply' next k _).symm
  let drawn (k : ℕ) : ℕ := (f k).1.1.randNext
  have hdrawn : ∀ k, drawn (k + 1) = if Draws (f k).1 then drawn k + 1 else drawn k :=
    fun k => randNext_passOn (hf k)
  obtain ⟨src, hsrc⟩ := exists_source hdrawn fun k => random (f k)
  exact ⟨src, fun k => ({ (f k).1.1 with randSrc := src }, (f k).1.2), rfl,
    fun k => nextCall_withSource (hf k) (hsrc k)⟩

/-! ## Termination -/

section Termination
variable [Inhabited π]

theorem exists_fuel {h : Host π} (hno : ∀ p S, ¬ h.Trap p S) (id : String) (payload : Option π)
    (ask : Option AskRequestContext) :
    ∃ fuel, (h.sendWithAskContext id payload ask fuel).isSome = true := by
  cases payload with
  | none => exact ⟨1, rfl⟩
  | some p =>
    by_contra hnever
    have hnone : ∀ fuel, h.sendWithAskContext id (some p) ask fuel = none := by
      intro fuel
      by_contra hsome
      exact hnever ⟨fuel, isSome_iff_ne_none.mpr hsome⟩
    obtain ⟨f, hzero, hf⟩ := (fuelLoop_send p ask).exists_calls (s := (h, id)) hnone
    have htrap := trap_visited hf
    rw [hzero] at htrap
    exact hno p _ htrap

/-- Every `Send`, `Route` and `Ask` ends, whatever the random numbers, iff no set of running routers
passes some message on only among itself. -/
theorem dispatch_ends_iff (h : Host π) :
    (∀ (src : ℕ → ℕ) (id : String) (payload : Option π) (evict : ℕ),
      (∃ fuel, ({ h with randSrc := src }.send id payload fuel).isSome = true) ∧
        ∃ fuel, ({ h with randSrc := src }.ask id payload evict fuel).isSome = true) ↔
    ¬ ∃ (p : π) (S : Set String), h.Trap p S := by
  constructor
  · rintro hends ⟨p, S, htrap⟩
    obtain ⟨x, hx⟩ := htrap.nonempty
    obtain ⟨src, f, hzero, hf⟩ := htrap.exists_calls hx
    obtain ⟨⟨fuel, hfuel⟩, -⟩ := hends src x (some p) 0
    have hnone := (fuelLoop_send p none).eq_none hf fuel 0
    rw [hzero] at hnone
    rw [send, hnone] at hfuel
    cases hfuel
  · intro hno src id payload evict
    have hnone : ∀ p S, ¬ { h with randSrc := src }.Trap p S := fun p S htrap =>
      hno ⟨p, S, htrap.nonempty, htrap.keeps⟩
    have hasking : ∀ p S, ¬ ({ h with randSrc := src }.asking id).Trap p S := fun p S htrap =>
      hno ⟨p, S, htrap.nonempty, htrap.keeps⟩
    refine ⟨exists_fuel hnone id payload none, ?_⟩
    obtain ⟨fuel, hfuel⟩ := exists_fuel hasking id payload
      (some ⟨(h.asks.newAskRequest h.nodeID id).1.requestID,
        (h.asks.newAskRequest h.nodeID id).1.replyTo⟩)
    exact ⟨fuel, by rw [ask, submitAsk, isSome_map]; exact hfuel⟩

end Termination

/-- An actor `r` that is configured as a router with itself as its worker. -/
theorem send_to_itself : ∃ (rt : Runtime (Request String)) (h : Host String),
    (Runtime.new "n1" none).createActor "r" false 1 true = .ok rt ∧
    { (Host.new "n1" none none none fun _ => 0 : Host String) with toRuntime := rt }.configureRouter
      "r" .roundRobin ["r"] = .ok h ∧
    ¬ ∃ fuel, (h.send "r" (some "m") fuel).isSome = true := by
  have hloop : ∀ fuel (h : Host String) rrNext a,
      h.routers.lookup "r" = some ⟨.roundRobin, ["r"], rrNext⟩ → h.registry.lookup "r" = some a →
        a.status ≠ .stopped → h.sendWithAskContext "r" (some "m") none fuel = none := by
    intro fuel
    induction fuel with
    | zero => exact fun _ _ _ _ _ _ => rfl
    | succ fuel ih =>
      intro h rrNext a hr ha hst
      have hsel : selectWorker ⟨.roundRobin, ["r"], rrNext⟩
          (h.randSrc h.randNext) "m" = .ok "r" := by
        rw [Dispatching.selectWorker_roundRobin (cons_ne_nil "r" []), turn,
          length_singleton, Nat.mod_one]
        rfl
      have hnext : nextCall "m" (h, "r") = some (h.drawID.drawID.advance "r"
          ⟨.roundRobin, ["r"], rrNext⟩, "r") :=
        passOn_eq_some.mpr ⟨_, a, hr, ha, hst, hsel, rfl⟩
      refine ((fuelLoop_send "m" none).calls _ _ fuel hnext).trans ?_
      exact ih _ (rrNext + 1) a (by rw [lookup_passOn, if_pos rfl]; rfl) ha hst
  refine ⟨_, _, rfl, rfl, ?_⟩
  rintro ⟨fuel, hfuel⟩
  rw [send, hloop fuel _ 0 ⟨.running, .new 1, 0⟩ rfl rfl (by decide)] at hfuel
  cases hfuel

end Host

end Westcoast
