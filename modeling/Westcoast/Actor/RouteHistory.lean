import Mathlib.Data.List.Induction
import Westcoast.Actor.Operations

/-!
# Type routes by their history

What `resolve` answers for an actor is read off the registrations that were made for it (`answer`).
-/
namespace Westcoast

open Lib List TypeRoutingRegistry

/-- A call of `RegisterTypeRoute` for a type and a version, or of `RegisterFallbackRoute`. -/
structure RouteCall where
  actorID : String
  route : Option (String × String)
  handlerKey : String

/-- A handler key for a type and a version, or for everything else. -/
abbrev RouteRule := Option (String × String) × String

/-- The key that was registered last. -/
def latest (rules : List RouteRule) (what : Option (String × String)) : Option String :=
  (rules.reverse.find? (·.1 = what)).map (·.2)

def answer (rules : List RouteRule) (typeName schemaVersion : String) : RouteResolution :=
  if rules = [] then { routeMatch := .noRules }
  else
    match latest rules (some (typeName, orDefault schemaVersion defaultSchemaVersion)) with
    | some key => { routeMatch := .exact, handlerKey := key }
    | none =>
      if rules.any fun r => r.1.any (·.1 = typeName) then { routeMatch := .versionMismatch }
      else
        match latest rules none with
        | some key => { routeMatch := .fallback, handlerKey := key }
        | none => { routeMatch := .unsupportedType }

/-! ### The rules of one actor -/

def ActorRoutes.enter (ar : ActorRoutes) : RouteRule → ActorRoutes
  | (some (t, v), key) => { ar with
      exact := ar.exact.insert (t, v) key
      versions := ar.versions.insert t (((ar.versions.lookup t).getD []).insert v) }
  | (none, key) => { ar with fallback := some key }

/-- The maps of an actor say what was registered last. -/
structure Reflects (ar : ActorRoutes) (rules : List RouteRule) : Prop where
  exact : ∀ key, ar.exact.lookup key = latest rules (some key)
  versions : ∀ t v, v ∈ (ar.versions.lookup t).getD [] ↔ (ar.exact.lookup (t, v)).isSome = true
  fallback : ar.fallback = latest rules none

section
variable {rules : List RouteRule} {what : Option (String × String)}

theorem latest_append (r : RouteRule) :
    latest (rules ++ [r]) what = if r.1 = what then some r.2 else latest rules what := by
  simp only [latest, reverse_append, reverse_singleton, singleton_append, find?_cons]
  by_cases hr : r.1 = what <;> simp [hr]

theorem isSome_latest : (latest rules what).isSome = true ↔ ∃ r ∈ rules, r.1 = what := by
  simp [latest]

namespace Reflects

variable {ar : ActorRoutes}

theorem enter (h : Reflects ar rules) (r : RouteRule) : Reflects (ar.enter r) (rules ++ [r]) := by
  obtain ⟨_ | ⟨t, v⟩, key⟩ := r <;> refine ⟨fun key' => ?_, fun t' v' => ?_, ?_⟩ <;>
    simp only [ActorRoutes.enter, lookup_insert_ite, latest_append, h.exact, h.fallback]
  · simp
  · rw [h.versions, h.exact]
  · simp
  · simp [eq_comm]
  · rw [← h.exact]
    by_cases ht : t' = t
    · subst ht
      by_cases hv : v' = v <;> simp [hv, h.versions]
    · simp [ht, h.versions]
  · simp

theorem foldl_enter (rules : List RouteRule) :
    Reflects (rules.foldl ActorRoutes.enter ⟨∅, ∅, none⟩) rules := by
  induction rules using reverseRecOn with
  | nil => constructor <;> simp [latest]
  | append_singleton rules r ih =>
    rw [foldl_append]
    exact ih.enter r

theorem noRules_iff (h : Reflects ar rules) :
    (ar.exact.keys.isEmpty && ar.fallback.isNone) = true ↔ rules = [] := by
  have hkeys : ar.exact.keys = [] ↔ ∀ key, latest rules (some key) = none := by
    simp [eq_nil_iff_forall_not_mem, ← AList.mem_keys, ← h.exact, AList.lookup_eq_none]
  have hrules : rules = [] ↔ ∀ what, latest rules what = none := by
    simp [eq_nil_iff_forall_not_mem, ← Option.not_isSome_iff_eq_none, isSome_latest]
  rw [Bool.and_eq_true, List.isEmpty_iff, Option.isNone_iff_eq_none, hkeys, h.fallback, hrules,
    Option.forall, and_comm]

theorem versions_iff (h : Reflects ar rules) (t : String) :
    (!((ar.versions.lookup t).getD []).isEmpty) = rules.any fun r => r.1.any (·.1 = t) := by
  rw [Bool.eq_iff_iff, Bool.not_eq_true', isEmpty_eq_false_iff_exists_mem]
  simp only [h.versions, h.exact, isSome_latest, any_eq_true, Option.any_eq_true]
  constructor
  · rintro ⟨v, r, hr, hwhat⟩
    exact ⟨r, hr, _, hwhat, by simp⟩
  · rintro ⟨r, hr, ⟨t', v⟩, hwhat, ht⟩
    obtain rfl : t' = t := by simpa using ht
    exact ⟨v, r, hr, hwhat⟩

theorem resolve {routing : TypeRoutingRegistry} {id : String}
    (h : Reflects (routing.ensure id) rules) (typeName schemaVersion : String) :
    routing.resolve id typeName schemaVersion = answer rules typeName schemaVersion := by
  unfold TypeRoutingRegistry.resolve answer
  simp only [← h.exact, ← h.fallback, ← h.versions_iff, ← h.noRules_iff]
  cases hid : routing.lookup id with
  | none => simp [ensure, hid]
  | some ar =>
    rw [ensure, hid]
    rfl

end Reflects
end

/-! ### The calls -/

namespace RouteCall

variable {π : Type} (h : Host π)

def make (c : RouteCall) : Host π :=
  match c.route with
  | some (t, v) => h.orSame (h.registerTypeRoute c.actorID t v c.handlerKey)
  | none => h.orSame (h.registerFallbackRoute c.actorID c.handlerKey)

/-- What the call registers for an actor, if it is for this one and that exists; the empty type
has no rules. -/
def rule? (id : String) (c : RouteCall) : Option RouteRule :=
  if c.actorID = id ∧ (h.registry.lookup id).isSome ∧ c.route.all (·.1 ≠ "") then
    some (c.route.map fun r => (r.1, orDefault r.2 defaultSchemaVersion),
      orDefault c.handlerKey defaultHandlerKey)
  else none

theorem make_spec (c : RouteCall) (id : String) :
    (make h c).registry = h.registry ∧ (make h c).routing.ensure id =
      (rule? h id c).elim (h.routing.ensure id) (h.routing.ensure id).enter := by
  obtain ⟨a, route, key⟩ := c
  have hinsert : ∀ ar, ensure (h.routing.insert a ar) id =
      if a = id then ar else h.routing.ensure id := by
    intro ar
    simp only [ensure, lookup_insert_ite, eq_comm]
    split_ifs <;> rfl
  cases hreg : h.registry.lookup a with
  | none =>
    have hnone : rule? h id ⟨a, route, key⟩ = none := by
      refine if_neg ?_
      rintro ⟨rfl, hsome, -⟩
      simp [hreg] at hsome
    rcases route with _ | ⟨t, v⟩ <;>
      simp [make, Host.registerTypeRoute, Host.registerFallbackRoute, hreg, hnone, Host.orSame]
  | some actor =>
    rcases route with _ | ⟨t, v⟩
    · refine ⟨by simp [make, Host.registerFallbackRoute, hreg, Host.orSame], ?_⟩
      simp only [make, Host.registerFallbackRoute, hreg, Host.orSame, registerFallback, rule?]
      by_cases hid : a = id
      · subst hid
        simp [hinsert, hreg, ActorRoutes.enter]
      · simp [hinsert, hid]
    · refine ⟨by simp [make, Host.registerTypeRoute, hreg, Host.orSame], ?_⟩
      simp only [make, Host.registerTypeRoute, hreg, Host.orSame, registerExact, rule?]
      by_cases ht : t = ""
      · simp [ht]
      by_cases hid : a = id
      · subst hid
        simp [hinsert, hreg, ht, ActorRoutes.enter]
      · simp [hinsert, hid, ht]

theorem ensure_foldl (calls : List RouteCall) (id : String) :
    (calls.foldl make h).routing.ensure id =
      (calls.filterMap (rule? h id)).foldl ActorRoutes.enter (h.routing.ensure id) := by
  induction calls generalizing h with
  | nil => rfl
  | cons c calls ih =>
    obtain ⟨hregistry, hensure⟩ := make_spec h c id
    have hsame : rule? (make h c) id = rule? h id := by
      unfold rule?
      rw [hregistry]
    rw [foldl_cons, ih, hensure, hsame, filterMap_cons]
    cases rule? h id c <;> rfl

end RouteCall

/-- **Type routes are resolved by the history of their registrations**, of which only those for the
actor in question count. -/
theorem resolve_eq_answer {π : Type} (h : Host π) (calls : List RouteCall)
    (id typeName schemaVersion : String) :
    (calls.foldl RouteCall.make { h with routing := ∅ }).routing.resolve id typeName schemaVersion =
      answer (calls.filterMap (RouteCall.rule? h id)) typeName schemaVersion := by
  refine Reflects.resolve ?_ typeName schemaVersion
  rw [RouteCall.ensure_foldl]
  exact Reflects.foldl_enter _

end Westcoast
