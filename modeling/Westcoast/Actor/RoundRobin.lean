import Westcoast.Actor.Host
import Westcoast.Lib.Turns
import Westcoast.Lib.Walk

/-!
# Routers under concurrent dispatches

A dispatch copies the strategy and the workers of its router (`routerState`) and later, outside the
lock, takes a value of the counter and selects (`selectRoutedWorker`), while `ConfigureRouter` may
change the router. A send of `Host` is a run of `Dispatching` (`Host.run_dispatching`).
-/
namespace Westcoast

open Lib List RouterState AList

/-- What `routerState` has returned to a call in flight. -/
structure RouterCall where
  routerID : String
  strategy : RouterStrategy
  workers : List String

/-- The routers, with the calls between `routerState` and `selectRoutedWorker`. -/
structure Dispatching where
  routers : AList (fun _ : String => RouterState)
  calls : List RouterCall

/-- A selection: the counter value that the call found, and the worker. -/
structure Selection where
  routerID : String
  ticket : ℕ
  worker : String
  deriving DecidableEq

/-- `leave` is a call whose router turns out to be no actor, or a stopped one. -/
inductive DispatchAction (π : Type)
  | configureRouter (routerID : String) (strategy : RouterStrategy) (workers : List String)
  | routerState (routerID : String)
  | selectRoutedWorker (i : ℕ) (random : ℕ) (payload : π)
  | leave (i : ℕ)

namespace Dispatching

variable {π : Type} [Payload π]

/-- `selectRoutedWorker` with what the call has copied and the counter as it is now. -/
def select (s : Dispatching) (c : RouterCall) (router : RouterState) (random : ℕ) (payload : π) :
    Dispatching × List Selection :=
  let copy : RouterState := ⟨c.strategy, c.workers, router.rrNext⟩
  ({ s with
      routers := s.routers.insert c.routerID { router with rrNext := copy.advance.rrNext } },
    match copy.selectWorker random payload with
    | .error _ => []
    | .ok worker => [⟨c.routerID, router.rrNext.toNat, worker⟩])

def step (s : Dispatching) : DispatchAction π → Option (Dispatching × List Selection)
  | .configureRouter routerID strategy workers =>
    some ({ s with routers := s.routers.insert routerID (.configure strategy workers) }, [])
  | .routerState routerID =>
    match s.routers.lookup routerID with
    | none => none
    | some router =>
      some ({ s with calls := s.calls ++ [⟨routerID, router.strategy, router.workers⟩] }, [])
  | .selectRoutedWorker i random payload =>
    match s.calls[i]? with
    | none => none
    | some c =>
      match s.routers.lookup c.routerID with
      | none => none
      | some router =>
        some ({ s with calls := s.calls.eraseIdx i }.select c router random payload)
  | .leave i => some ({ s with calls := s.calls.eraseIdx i }, [])

def Keeps (routerID : String) (_ : Dispatching) : DispatchAction π → Prop
  | .configureRouter id _ _ => id ≠ routerID
  | _ => True

instance keepsDecidable (routerID : String) (s : Dispatching) (a : DispatchAction π) :
    Decidable (Keeps routerID s a) := by
  cases a <;> unfold Keeps <;> infer_instance

/-- The selections of one router, in the order in which they were made. -/
def selectionsOf (routerID : String) (tr : List Selection) : List Selection :=
  tr.filter (·.routerID = routerID)

/-- **Fairness** of the selections among `workers`: any that take as many consecutive counter values
as there are workers select each once, and altogether the workers are selected equally often. -/
structure Fair (workers : List String) (chosen : List Selection) : Prop where
  distinct : workers.Nodup
  tickets : chosen.map (·.ticket) = List.range chosen.length
  round : ∀ (k : ℕ) (ds : List Selection), (∀ d ∈ ds, d ∈ chosen) →
    (ds.map (·.ticket)).Perm (List.range' k workers.length) → (ds.map (·.worker)).Perm workers
  spread : ∀ w ∈ workers, (chosen.map (·.worker)).count w = chosen.length / workers.length ∨
      (chosen.map (·.worker)).count w = chosen.length ⌈/⌉ workers.length

/-! ## The counter -/

variable {workers : List String}

theorem selectWorker_roundRobin (hworkers : workers ≠ []) (rrNext : UInt64) (random : ℕ)
    (payload : π) : selectWorker ⟨.roundRobin, workers, rrNext⟩ random payload =
      .ok (turn workers "" rrNext.toNat) := by
  cases workers with
  | nil => exact absurd rfl hworkers
  | cons first rest => exact congrArg Except.ok (turn_congr hworkers first "" _)

def selectionAt (routerID : String) (workers : List String) (t : ℕ) : Selection :=
  ⟨routerID, (UInt64.ofNat t).toNat, turn workers "" (UInt64.ofNat t).toNat⟩

/-- The router has its workers, every call has copied them, and the selections used the counter
values from zero on. -/
structure Counted (routerID : String) (workers : List String) (tr : List Selection)
    (s : Dispatching) : Prop where
  router : s.routers.lookup routerID =
    some ⟨.roundRobin, workers, UInt64.ofNat (selectionsOf routerID tr).length⟩
  copies : ∀ c ∈ s.calls, c.routerID = routerID → c.strategy = .roundRobin ∧ c.workers = workers
  selections : selectionsOf routerID tr =
    (List.range (selectionsOf routerID tr).length).map (selectionAt routerID workers)

variable {routerID : String} {tr : List Selection} {s : Dispatching}

variable {es : List Selection} {s' : Dispatching}

theorem Counted.of_unchanged (h : Counted routerID workers tr s)
    (hes : selectionsOf routerID es = [])
    (hrouter : s'.routers.lookup routerID = s.routers.lookup routerID)
    (hcopies : ∀ c ∈ s'.calls, c.routerID = routerID →
      c.strategy = .roundRobin ∧ c.workers = workers) : Counted routerID workers (tr ++ es) s' := by
  have hsame : selectionsOf routerID (tr ++ es) = selectionsOf routerID tr := by
    rw [selectionsOf, filter_append]
    exact (congrArg _ hes).trans (append_nil _)
  refine ⟨?_, hcopies, ?_⟩
  · rw [hrouter, hsame, h.router]
  · rw [hsame]
    exact h.selections

variable {router : RouterState}

theorem Counted.select (h : Counted routerID workers tr s) (hworkers : workers ≠ [])
    {c : RouterCall} (hc : c ∈ s.calls) (hid : c.routerID = routerID) (i : ℕ)
    (hrouter : s.routers.lookup c.routerID = some router) (random : ℕ) (payload : π) :
    let r := { s with calls := s.calls.eraseIdx i }.select c router random payload
    Counted routerID workers (tr ++ r.2) r.1 := by
  obtain ⟨hstrategy, hcopy⟩ := h.copies c hc hid
  rw [hid, h.router, Option.some.injEq] at hrouter
  set m := (selectionsOf routerID tr).length with hm
  subst hrouter
  have hselected : (Dispatching.select { s with calls := s.calls.eraseIdx i } c
      ⟨.roundRobin, workers, UInt64.ofNat m⟩ random payload).2 =
        [selectionAt routerID workers m] := by
    simp only [Dispatching.select, hstrategy, hcopy, selectWorker_roundRobin hworkers, hid,
      selectionAt]
  have happend : selectionsOf routerID (tr ++ [selectionAt routerID workers m]) =
      selectionsOf routerID tr ++ [selectionAt routerID workers m] := by
    simp [selectionsOf, selectionAt]
  intro r
  rw [show r.2 = [selectionAt routerID workers m] from hselected]
  refine ⟨?_, ?_, ?_⟩
  · rw [happend, length_append, length_singleton]
    simp only [r, Dispatching.select, hid, lookup_insert, hstrategy, hcopy,
      advance, hworkers, ne_eq, not_false_eq_true, and_self, if_true, ← hm]
    rw [UInt64.ofNat_add]
    rfl
  · intro c' hc'
    exact h.copies c' (mem_of_mem_eraseIdx hc')
  · rw [happend, length_append, length_singleton, range_succ, map_append,
      ← h.selections]
    rfl

theorem Counted.step {a : DispatchAction π} (h : Counted routerID workers tr s)
    (hworkers : workers ≠ []) (hkeeps : Keeps routerID s a) (hstep : s.step a = some (s', es)) :
    Counted routerID workers (tr ++ es) s' := by
  cases a with
  | configureRouter id strategy ws =>
    obtain ⟨rfl, rfl⟩ := Prod.mk.inj (Option.some.inj hstep)
    refine h.of_unchanged rfl ?_ h.copies
    exact lookup_insert_ne (Ne.symm hkeeps)
  | routerState id =>
    simp only [Dispatching.step] at hstep
    split at hstep
    · cases hstep
    · next router hlookup =>
      obtain ⟨rfl, rfl⟩ := Prod.mk.inj (Option.some.inj hstep)
      refine h.of_unchanged rfl rfl ?_
      intro c hc hid
      rcases mem_append.mp hc with hc | hc
      · exact h.copies c hc hid
      · obtain rfl := mem_singleton.mp hc
        obtain rfl : id = routerID := hid
        rw [h.router, Option.some.injEq] at hlookup
        subst hlookup
        exact ⟨rfl, rfl⟩
  | selectRoutedWorker i random payload =>
    simp only [Dispatching.step] at hstep
    split at hstep
    · cases hstep
    · next c hc =>
      split at hstep
      · cases hstep
      · next router hlookup =>
        have hmem : c ∈ s.calls := mem_of_getElem? hc
        have hr := Option.some.inj hstep
        by_cases hid : c.routerID = routerID
        · have hcounted := h.select hworkers hmem hid i hlookup random payload
          rw [hr] at hcounted
          exact hcounted
        · obtain ⟨rfl, rfl⟩ := Prod.mk.inj hr
          refine h.of_unchanged ?_ ?_ ?_
          · split
            · rfl
            · simp [selectionsOf, hid]
          · exact lookup_insert_ne (Ne.symm hid)
          · exact fun c' hc' => h.copies c' (mem_of_mem_eraseIdx hc')
  | leave i =>
    obtain ⟨rfl, rfl⟩ := Prod.mk.inj (Option.some.inj hstep)
    exact h.of_unchanged rfl rfl fun c hc => h.copies c (mem_of_mem_eraseIdx hc)

theorem fair_of_counted {chosen : List Selection} (hworkers : workers ≠ []) (hnodup : workers.Nodup)
    (hchosen : chosen = (List.range chosen.length).map (selectionAt routerID workers))
    (hlt : chosen.length < 2 ^ 64) : Fair workers chosen := by
  have hticket : ∀ t < chosen.length, (UInt64.ofNat t).toNat = t :=
    fun t ht => UInt64.toNat_ofNat_of_lt' (ht.trans hlt)
  have hworker : ∀ d ∈ chosen, d.worker = turn workers "" d.ticket := by
    intro d hd
    rw [hchosen] at hd
    obtain ⟨t, -, rfl⟩ := mem_map.mp hd
    rfl
  refine ⟨hnodup, ?_, ?_, ?_⟩
  · conv_lhs => rw [hchosen]
    rw [map_map]
    conv_rhs => rw [← map_id (List.range chosen.length)]
    exact map_congr_left fun t ht => hticket t (mem_range.mp ht)
  · intro k ds hds hperm
    have heq : ds.map (·.worker) = (ds.map (·.ticket)).map (turn workers "") := by
      rw [map_map]
      exact map_congr_left fun d hd => hworker d (hds d hd)
    rw [heq]
    exact perm_turns hworkers "" hperm
  · intro w hw
    have heq : chosen.map (·.worker) = (List.range chosen.length).map (turn workers "") := by
      conv_lhs => rw [hchosen]
      rw [map_map]
      refine map_congr_left fun t ht => ?_
      exact congrArg (turn workers "") (hticket t (mem_range.mp ht))
    rw [heq]
    exact count_turns_floor_or_ceil hnodup hw "" chosen.length

/-- Round-robin is fair under concurrency: a router that is not reconfigured selects fairly in fewer
than `2 ^ 64` selections. -/
theorem roundRobin_fair {routerID : String} {workers : List String} {s₀ s : Dispatching}
    {tr : List Selection}
    (hconfigured : s₀.routers.lookup routerID = some (.configure .roundRobin workers))
    (hcalls : ∀ c ∈ s₀.calls, c.routerID ≠ routerID)
    (hworkers : (configure .roundRobin workers).workers ≠ [])
    (hrun : Run (step (π := π)) (Keeps routerID) s₀ tr s)
    (hlt : (selectionsOf routerID tr).length < 2 ^ 64) :
    Fair (configure .roundRobin workers).workers (selectionsOf routerID tr) := by
  have hinit : Counted routerID (configure .roundRobin workers).workers [] s₀ :=
    ⟨hconfigured, fun c hc hid => absurd hid (hcalls c hc), rfl⟩
  have hcounted := hrun.invariant
    (fun tr s => Counted routerID (configure .roundRobin workers).workers tr s) hinit
    fun _ _ _ _ _ hcounted hkeeps hstep => hcounted.step hworkers hkeeps hstep
  exact fair_of_counted hworkers (nodup_eraseDups _) hcounted.selections hlt

/-- A router of `a`, `b` and one of them again, with two overlapping dispatches: the one that looks
first selects second. -/
theorem roundRobin_fair_overlap : ∃ tr s, Run (step (π := String)) (Keeps "r")
      ⟨(∅ : AList _).insert "r" (.configure .roundRobin ["a", "", "b", "a"]), []⟩ tr s ∧
    tr = [⟨"r", 0, "a"⟩, ⟨"r", 1, "b"⟩] ∧ Fair ["a", "b"] (selectionsOf "r" tr) := by
  obtain ⟨tr, s, hrun, rfl⟩ : ∃ tr s, Run (step (π := String)) (Keeps "r")
      ⟨(∅ : AList _).insert "r" (.configure .roundRobin ["a", "", "b", "a"]), []⟩ tr s ∧
      tr = [⟨"r", 0, "a"⟩, ⟨"r", 1, "b"⟩] :=
    Run.of_check [.routerState "r", .routerState "r", .selectRoutedWorker 1 0 "m",
      .selectRoutedWorker 0 0 "m"] (by decide +kernel)
  refine ⟨_, s, hrun, rfl, ?_⟩
  exact roundRobin_fair (lookup_insert _) (fun _ hc => absurd hc not_mem_nil)
    (by decide) hrun (by decide)

theorem run_dispatch [Inhabited π] {routers : AList (fun _ : String => RouterState)}
    (h : routers.lookup routerID = some router) {calls : List RouterCall} :
    ∃ tr, Run (step (π := π)) anyStep ⟨routers, calls⟩ tr
      ⟨routers.insert routerID router.advance, calls⟩ := by
  let c : RouterCall := ⟨routerID, router.strategy, router.workers⟩
  have hlook : step (π := π) ⟨routers, calls⟩ (.routerState routerID) =
      some (⟨routers, calls ++ [c]⟩, []) := by
    simp only [step, h, c]
  have hcall : (calls ++ [c])[calls.length]? = some c := getElem?_concat_length
  have hcalls : (calls ++ [c]).eraseIdx calls.length = calls := by
    rw [eraseIdx_append_of_length_le (le_refl _)]
    simp
  have hadvance : { router with rrNext := router.advance.rrNext } = router.advance := by
    rw [advance]
    split_ifs <;> rfl
  have hselect : step ⟨routers, calls ++ [c]⟩
      (.selectRoutedWorker calls.length 0 (default : π)) =
        some (Dispatching.select ⟨routers, calls⟩ c router 0 (default : π)) := by
    simp only [step, hcall, h, hcalls, c]
  have hend : (Dispatching.select ⟨routers, calls⟩ c router 0 (default : π)).1 =
      ⟨routers.insert routerID router.advance, calls⟩ := by
    simp only [Dispatching.select, c, hadvance]
  rw [← hend]
  exact ⟨_, .step (.step .refl trivial hlook) trivial hselect⟩

end Dispatching

theorem Host.run_dispatching {π : Type} [Payload π] [Inhabited π] {payload : Option π}
    {ask : Option AskRequestContext} {fuel : ℕ} {h h' : Host π} {id : String}
    {result : SubmitResult}
    (hsend : h.sendWithAskContext id payload ask fuel = some (result, h'))
    (calls : List RouterCall) :
    ∃ tr, Run (Dispatching.step (π := π)) anyStep ⟨h.routers, calls⟩ tr ⟨h'.routers, calls⟩ := by
  let R (h h' : Host π) : Prop :=
    ∃ tr, Run (Dispatching.step (π := π)) anyStep ⟨h.routers, calls⟩ tr ⟨h'.routers, calls⟩
  refine sendWithAskContext_rel (R := R) ?_ ?_ ?_ ?_ fuel hsend
  · rintro h1 h2 h3 ⟨tr, hrun⟩ ⟨tr', hrun'⟩
    exact ⟨tr ++ tr', hrun.trans hrun'⟩
  · exact fun h => ⟨[], .refl⟩
  · exact fun h id router hrouter => Dispatching.run_dispatch hrouter
  · intro h id p ask _
    refine ⟨[], ?_⟩
    rw [(delivered h id p ask).routers]
    exact .refl

end Westcoast
