import Westcoast.Actor.Operations

/-!
# Fences around superseded identifiers

An identifier is superseded when it was returned before a restart, stop or removal of its actor.
`Fences`: the resolver refuses it, or its actor is stopped. `keepsFences` is the condition on an
operation under which this is kept.
-/
namespace Westcoast

open Lib List InMemoryPIDResolver Bool

def returnedIn (h : List RuntimeEvent) : List PID :=
  h.filterMap fun
    | .returned pid => some pid
    | .superseded _ => none

/-- Whether an identifier was returned and its actor restarted, stopped or removed
later. -/
def supersededIn (p : PID) : List RuntimeEvent → Bool
  | [] => false
  | e :: h => (decide (e = .returned p) && h.contains (.superseded p.actorID)) || supersededIn p h

variable {p : PID} {h : List RuntimeEvent}

theorem mem_returnedIn : p ∈ returnedIn h ↔ .returned p ∈ h := by
  simp only [returnedIn, mem_filterMap]
  constructor
  · rintro ⟨e, he, hp⟩
    cases e with
    | returned q =>
      obtain rfl := Option.some.inj hp
      exact he
    | superseded id => cases hp
  · intro hp
    exact ⟨_, hp, rfl⟩

theorem returnedIn_of_supersededIn (hp : supersededIn p h = true) : p ∈ returnedIn h := by
  rw [mem_returnedIn]
  induction h with
  | nil => cases hp
  | cons e h ih =>
    simp only [supersededIn, or_eq_true, and_eq_true, decide_eq_true_eq] at hp
    rcases hp with ⟨rfl, -⟩ | hp
    · exact mem_cons_self
    · exact mem_cons_of_mem e (ih hp)

theorem supersededIn_append_singleton {e : RuntimeEvent} (hp : supersededIn p (h ++ [e]) = true) :
    supersededIn p h = true ∨ (e = .superseded p.actorID ∧ p ∈ returnedIn h) := by
  rw [mem_returnedIn]
  induction h with
  | nil => simp [supersededIn] at hp
  | cons e' h ih =>
    simp only [cons_append, supersededIn, or_eq_true, and_eq_true,
      decide_eq_true_eq, contains_iff_mem, mem_append, mem_singleton] at hp ⊢
    rcases hp with ⟨rfl, hmem | rfl⟩ | hp
    · exact .inl (.inl ⟨rfl, hmem⟩)
    · exact .inr ⟨rfl, mem_cons_self⟩
    · rcases ih hp with hp | ⟨he, hmem⟩
      · exact .inl (.inr hp)
      · exact .inr ⟨he, mem_cons_of_mem e' hmem⟩

namespace Runtime

variable {π : Type}

/-- Issuing `pid` for `id` revives no superseded identifier, takes back no generation and no other
actor's key. -/
def mayIssue (rt : Runtime π) (h : List RuntimeEvent) (id : String) (pid : PID) : Bool :=
  (returnedIn h).all (fun q =>
      decide (q.key = pid.key → supersededIn q h = false ∧ q.generation = 1)) &&
    rt.actorPID.entries.all fun e => decide (e.2.key = pid.key → e.1 = id)

/-- The identifiers of `id` that are current share the key of the one last issued. -/
def onlyLastIssued (rt : Runtime π) (h : List RuntimeEvent) (id : String) : Bool :=
  (returnedIn h).all fun q =>
    decide (q.actorID = id → rt.resolver.accepts q = true →
      (rt.actorPID.lookup id).any (fun pid => pid.key = q.key) = true)

/-- The operations that keep every superseded identifier out. -/
def keepsFences (x : Runtime π × List RuntimeEvent) : RuntimeAction π → Bool
  | .issuePID ns id => x.1.mayIssue x.2 id (x.1.pidToIssue ns id)
  | .registerName id _ ns =>
    let ns := if ns = "" then "default" else ns
    (x.1.pidInNamespace id ns).isSome || x.1.mayIssue x.2 id (x.1.pidToIssue ns id)
  | .process id (.failed .restart true) => x.1.onlyLastIssued x.2 id
  | .removeActor id => x.1.onlyLastIssued x.2 id
  | _ => true

/-- Every identifier last issued is current in the resolver, and no two actors share
a key. -/
structure Consistent (rt : Runtime π) : Prop where
  entry : ∀ id r, rt.actorPID.lookup id = some r →
    ∃ state, rt.resolver.byKey.lookup r.key = some ⟨r, state, r.generation⟩
  distinct : ∀ id id' r r', rt.actorPID.lookup id = some r → rt.actorPID.lookup id' = some r' →
    r.key = r'.key → id = id'

/-- An identifier that is not accepted, or whose actor is stopped. -/
def Fenced (rt : Runtime π) (q : PID) : Prop :=
  ∀ e, rt.resolver.byKey.lookup q.key = some e → e.currentGeneration = q.generation →
    e.routeState = .stopped ∨ ∃ a, rt.registry.lookup q.actorID = some a ∧ a.status = .stopped

structure Fences (rt : Runtime π) (h : List RuntimeEvent) : Prop where
  consistent : Consistent rt
  le : ∀ q ∈ returnedIn h, ∀ e, rt.resolver.byKey.lookup q.key = some e →
    q.generation ≤ e.currentGeneration
  fenced : ∀ q, supersededIn q h = true → Fenced rt q

variable {rt rt' : Runtime π} {h : List RuntimeEvent}

theorem Fences.registry (hf : Fences rt h) (hpid : rt'.actorPID = rt.actorPID)
    (hres : rt'.resolver.byKey = rt.resolver.byKey)
    (hreg : ∀ id a, rt.registry.lookup id = some a → a.status = .stopped →
      ∃ a', rt'.registry.lookup id = some a' ∧ a'.status = .stopped) : Fences rt' h where
  consistent := by
    constructor
    · rw [hpid, hres]
      exact hf.consistent.entry
    · rw [hpid]
      exact hf.consistent.distinct
  le := by rw [hres]; exact hf.le
  fenced := by
    intro q hq e he hgen
    rw [hres] at he
    rcases hf.fenced q hq e he hgen with hst | ⟨a, ha, hst⟩
    · exact .inl hst
    · exact .inr (hreg _ a ha hst)

theorem Fences.sameBooks (hf : Fences rt h) (hs : SameBooks rt rt') : Fences rt' h := by
  refine hf.registry hs.actorPID hs.byKey ?_
  intro id a ha hst
  have hid := hs.standing id
  rw [ha, Option.map_some, Option.map_eq_some_iff] at hid
  obtain ⟨a', ha', hstanding⟩ := hid
  exact ⟨a', ha', (congrArg Prod.fst hstanding).trans hst⟩

variable {id : String}

theorem fences_supersede (hcons : Consistent rt')
    (hle : ∀ q ∈ returnedIn h, ∀ e, rt'.resolver.byKey.lookup q.key = some e →
      q.generation ≤ e.currentGeneration) (hold : ∀ q, supersededIn q h = true → Fenced rt' q)
    (hnew : ∀ q ∈ returnedIn h, q.actorID = id → Fenced rt' q) :
    Fences rt' (h ++ [.superseded id]) where
  consistent := hcons
  le := by
    intro q hq
    rw [mem_returnedIn] at hq
    rcases mem_append.mp hq with hq | hq
    · exact hle q (mem_returnedIn.mpr hq)
    · simp at hq
  fenced := by
    intro q hq
    rcases supersededIn_append_singleton hq with hq | ⟨he, hret⟩
    · exact hold q hq
    · exact hnew q hret (RuntimeEvent.superseded.inj he).symm

theorem Fences.returned {pid : PID} (hf : Fences rt h)
    (hle : ∀ e, rt.resolver.byKey.lookup pid.key = some e → pid.generation ≤ e.currentGeneration) :
    Fences rt (h ++ [.returned pid]) where
  consistent := hf.consistent
  le := by
    intro q hq
    rw [mem_returnedIn] at hq
    rcases mem_append.mp hq with hq | hq
    · exact hf.le q (mem_returnedIn.mpr hq)
    · obtain rfl := RuntimeEvent.returned.inj (mem_singleton.mp hq)
      exact hle
  fenced := by
    intro q hq
    rcases supersededIn_append_singleton hq with hq | ⟨he, -⟩
    · exact hf.fenced q hq
    · cases he

variable {q r : PID}

theorem Fences.le_lastIssued (hf : Fences rt h) (hr : rt.actorPID.lookup id = some r)
    (hq : q ∈ returnedIn h) (hk : q.key = r.key) : q.generation ≤ r.generation := by
  obtain ⟨state, hstate⟩ := hf.consistent.entry id r hr
  exact hf.le q hq ⟨r, state, r.generation⟩ (by rw [hk]; exact hstate)

/-- **Replacing one entry.** `r` is issued last for `id`, under a key no other actor has. It must be
no older than what was returned under the key, and marked stopped if superseded. -/
theorem Fences.replace {state : PIDRouteState} (hf : Fences rt h) (id : String) (r : PID)
    (hpid : ∀ id', rt'.actorPID.lookup id' = if id' = id then some r else rt.actorPID.lookup id')
    (hres : ∀ k, rt'.resolver.byKey.lookup k =
      if k = r.key then some ⟨r, state, r.generation⟩ else rt.resolver.byKey.lookup k)
    (hreg : rt'.registry = rt.registry)
    (halone : ∀ id' r', rt.actorPID.lookup id' = some r' → r'.key = r.key → id' = id)
    (hle : ∀ q ∈ returnedIn h, q.key = r.key → q.generation ≤ r.generation)
    (hstop : ∀ q, supersededIn q h = true → q.key = r.key → q.generation = r.generation →
      state = .stopped) : Fences rt' h := by
  refine ⟨⟨?_, ?_⟩, ?_, ?_⟩
  · intro id' r' hl
    rw [hpid] at hl
    rw [hres]
    by_cases hid : id' = id
    · rw [if_pos hid] at hl
      obtain rfl := Option.some.inj hl
      exact ⟨state, if_pos rfl⟩
    · rw [if_neg hid] at hl
      rw [if_neg fun hk => hid (halone id' r' hl hk)]
      exact hf.consistent.entry id' r' hl
  · intro id1 id2 r1 r2 h1 h2 hk
    rw [hpid] at h1 h2
    by_cases hid1 : id1 = id <;> by_cases hid2 : id2 = id
    · rw [hid1, hid2]
    · rw [if_pos hid1] at h1
      rw [if_neg hid2] at h2
      obtain rfl := Option.some.inj h1
      exact absurd (halone id2 r2 h2 hk.symm) hid2
    · rw [if_neg hid1] at h1
      rw [if_pos hid2] at h2
      obtain rfl := Option.some.inj h2
      exact absurd (halone id1 r1 h1 hk) hid1
    · rw [if_neg hid1] at h1
      rw [if_neg hid2] at h2
      exact hf.consistent.distinct id1 id2 r1 r2 h1 h2 hk
  · intro q hq e he
    rw [hres] at he
    by_cases hk : q.key = r.key
    · rw [if_pos hk] at he
      obtain rfl := Option.some.inj he
      exact hle q hq hk
    · rw [if_neg hk] at he
      exact hf.le q hq e he
  · intro q hq e he hgen
    rw [hres] at he
    rw [hreg]
    by_cases hk : q.key = r.key
    · rw [if_pos hk] at he
      obtain rfl := Option.some.inj he
      exact .inl (hstop q hq hk hgen.symm)
    · rw [if_neg hk] at he
      exact hf.fenced q hq e he hgen

/-! ### Issuing -/

theorem Fences.register {pid : PID} (hf : Fences rt h) (hgen : pid.generation = 1)
    (hmay : rt.mayIssue h id pid = true) : Fences { rt with
      resolver := rt.resolver.register pid
      actorPID := rt.actorPID.insert id pid } h := by
  simp only [mayIssue, and_eq_true, all_eq_true, decide_eq_true_eq] at hmay
  obtain ⟨hret, hother⟩ := hmay
  refine hf.replace id pid (fun id' => lookup_insert_ite ..) (fun k => lookup_insert_ite ..) rfl
    ?_ ?_ ?_
  · intro id' r' hl
    exact hother ⟨id', r'⟩ (AList.mem_lookup_iff.mp hl)
  · intro q hq hk
    rw [(hret q hq hk).2, hgen]
  · intro q hq hk
    have hsup := (hret q (returnedIn_of_supersededIn hq) hk).1
    rw [hq] at hsup
    cases hsup

/-! ### Restarting, stopping, removing -/

def Blocked (rt : Runtime π) (q : PID) : Prop :=
  ∀ e, rt.resolver.byKey.lookup q.key = some e → e.currentGeneration = q.generation →
    e.routeState = .stopped

theorem blocked_or_lastIssued (hlast : rt.onlyLastIssued h id = true) (hq : q ∈ returnedIn h)
    (hid : q.actorID = id) :
    Blocked rt q ∨ ∃ r, rt.actorPID.lookup id = some r ∧ r.key = q.key := by
  simp only [onlyLastIssued, all_eq_true, decide_eq_true_eq] at hlast
  by_cases hacc : rt.resolver.accepts q = true
  · have hany := hlast q hq hid hacc
    rw [Option.any_eq_true] at hany
    obtain ⟨r, hr, hk⟩ := hany
    exact .inr ⟨r, hr, of_decide_eq_true hk⟩
  · left
    intro e he hgen
    by_contra hst
    refine hacc ?_
    simp [accepts, resolve, he, hst, hgen]

theorem bumpPID_some (hc : Consistent rt) (hr : rt.actorPID.lookup id = some r) :
    (rt.bumpPID id).actorPID = rt.actorPID.insert id { r with generation := r.generation + 1 } ∧
      ∀ k, (rt.bumpPID id).resolver.byKey.lookup k =
        if k = r.key then
          some ⟨{ r with generation := r.generation + 1 }, .reachable, r.generation + 1⟩
        else rt.resolver.byKey.lookup k := by
  obtain ⟨state, hstate⟩ := hc.entry id r hr
  have hentry : rt.resolver.resolve r = some ⟨r, state, r.generation⟩ := hstate
  rw [bumpPID_some_eq hr, hentry]
  refine ⟨rfl, fun k => ?_⟩
  simp only [lookup_insert_ite, Option.getD_some]
  by_cases hk : k = r.key
  · rw [if_pos hk, if_pos hk]
  · rw [if_neg hk, if_neg hk, if_neg hk]

section
variable (hf : Fences rt h)
include hf

theorem Fences.bump (id : String) : Fences (rt.bumpPID id) h := by
  cases hr : rt.actorPID.lookup id with
  | none =>
    rw [bumpPID_none hr]
    exact hf
  | some r =>
    obtain ⟨hpid, hres⟩ := bumpPID_some hf.consistent hr
    refine hf.replace id { r with generation := r.generation + 1 } ?_ hres
      (registry_bumpPID rt id) ?_ ?_ ?_
    · intro id'
      rw [hpid, lookup_insert_ite]
    · intro id' r' hl hk
      exact hf.consistent.distinct id' id r' r hl hr hk
    · intro q hq hk
      exact Nat.le_succ_of_le (hf.le_lastIssued hr hq hk)
    · intro q hq hk hgen
      have hle := hf.le_lastIssued hr (returnedIn_of_supersededIn hq) hk
      simp only at hgen
      omega

theorem blocked_bump (hlast : rt.onlyLastIssued h id = true) (hq : q ∈ returnedIn h)
    (hid : q.actorID = id) : Blocked (rt.bumpPID id) q := by
  cases hr : rt.actorPID.lookup id with
  | none =>
    rw [bumpPID_none hr]
    rcases blocked_or_lastIssued hlast hq hid with hb | ⟨r, hl, -⟩
    · exact hb
    · rw [hr] at hl
      cases hl
  | some r =>
    obtain ⟨-, hres⟩ := bumpPID_some hf.consistent hr
    intro e he heq
    rw [hres] at he
    by_cases hk : q.key = r.key
    · rw [if_pos hk] at he
      obtain rfl := Option.some.inj he
      have hle := hf.le_lastIssued hr hq hk
      simp only at heq
      omega
    · rw [if_neg hk] at he
      rcases blocked_or_lastIssued hlast hq hid with hb | ⟨r', hl, hk'⟩
      · exact hb e he heq
      · obtain rfl : r = r' := Option.some.inj (hr.symm.trans hl)
        exact absurd hk'.symm hk

theorem Fences.terminate (id : String) (a : ActorEntry π) :
    Fences (rt.terminate id a) (h ++ [.superseded id]) := by
  have hf' : Fences (rt.terminate id a) h := by
    refine hf.registry rfl rfl ?_
    intro id' a' hl hst
    simp only [Runtime.terminate, lookup_insert_ite]
    by_cases hid : id' = id
    · exact ⟨_, if_pos hid, rfl⟩
    · exact ⟨a', by rw [if_neg hid]; exact hl, hst⟩
  refine fences_supersede hf'.consistent hf'.le hf'.fenced ?_
  intro q _ hid e _ _
  right
  rw [hid]
  exact ⟨_, AList.lookup_insert _, rfl⟩

theorem Fences.restart (hlast : rt.onlyLastIssued h id = true) (a : ActorEntry π) :
    Fences { rt.bumpPID id with registry := (rt.bumpPID id).registry.insert id a }
      (h ++ [.superseded id]) := by
  have hbump := hf.bump id
  refine fences_supersede ⟨hbump.consistent.entry, hbump.consistent.distinct⟩ hbump.le ?_ ?_
  · intro q hq e he heq
    by_cases hid : q.actorID = id
    · exact .inl (blocked_bump hf hlast (returnedIn_of_supersededIn hq) hid e he heq)
    · rcases hbump.fenced q hq e he heq with hst | hst
      · exact .inl hst
      · right
        simp only [lookup_insert_ite, if_neg hid]
        exact hst
  · intro q hq hid e he heq
    exact .inl (blocked_bump hf hlast hq hid e he heq)

theorem Fences.setStopped (hr : rt.actorPID.lookup id = some r) :
    Fences { rt with resolver := rt.resolver.setState r .stopped } h := by
  obtain ⟨state, hstate⟩ := hf.consistent.entry id r hr
  have hres : ∀ k, (rt.resolver.setState r .stopped).byKey.lookup k =
      if k = r.key then some ⟨r, .stopped, r.generation⟩ else rt.resolver.byKey.lookup k := by
    intro k
    simp [setState, resolve, hstate, lookup_insert_ite]
  refine hf.replace id r ?_ hres rfl ?_ (fun q hq => hf.le_lastIssued hr hq) fun _ _ _ _ => rfl
  · intro id'
    by_cases hid : id' = id
    · rw [if_pos hid, hid, hr]
    · rw [if_neg hid]
  · intro id' r' hl hk
    exact hf.consistent.distinct id' id r' r hl hr hk

theorem Fences.markStopped (id : String) : Fences { rt with resolver := rt.markStopped id } h := by
  cases hr : rt.actorPID.lookup id with
  | none =>
    simp only [Runtime.markStopped, hr]
    exact hf
  | some r =>
    simp only [Runtime.markStopped, hr]
    exact hf.setStopped hr

end

theorem Fences.remove (hf : Fences rt h) (hlast : rt.onlyLastIssued h id = true)
    (hrm : rt.removeActor id = .ok rt') : Fences rt' (h ++ [.superseded id]) := by
  simp only [removeActor] at hrm
  split at hrm
  · cases hrm
  split_ifs at hrm with hst
  obtain rfl := Except.ok.inj hrm
  -- An entry that is still there was there before, under a key that was not removed.
  have hkept : ∀ (k : String) (e : PIDResolverEntry), (rt.releasePID id).byKey.lookup k = some e →
      rt.resolver.byKey.lookup k = some e ∧ ¬ ∃ r, rt.actorPID.lookup id = some r ∧ r.key = k := by
    intro k e he
    rw [lookup_releasePID] at he
    by_cases hk : ∃ r, rt.actorPID.lookup id = some r ∧ r.key = k
    · rw [if_pos hk] at he
      cases he
    · rw [if_neg hk] at he
      exact ⟨he, hk⟩
  have hblocked : ∀ q ∈ returnedIn h, q.actorID = id → ∀ e,
      rt.resolver.byKey.lookup q.key = some e →
      (¬ ∃ r, rt.actorPID.lookup id = some r ∧ r.key = q.key) →
      e.currentGeneration = q.generation → e.routeState = .stopped := by
    intro q hq hid e he hk heq
    rcases blocked_or_lastIssued hlast hq hid with hb | hl
    · exact hb e he heq
    · exact absurd hl hk
  refine fences_supersede ⟨?_, ?_⟩ ?_ ?_ ?_
  · intro id' r' hl
    simp only [lookup_erase_ite] at hl
    split_ifs at hl with hid
    have hk : ¬ ∃ r, rt.actorPID.lookup id = some r ∧ r.key = r'.key := by
      rintro ⟨r, hr, hk⟩
      exact hid (hf.consistent.distinct id' id r' r hl hr hk.symm)
    simp only [lookup_releasePID, if_neg hk]
    exact hf.consistent.entry id' r' hl
  · intro id1 id2 r1 r2 h1 h2 hk
    simp only [lookup_erase_ite] at h1 h2
    split_ifs at h1 with hid1
    split_ifs at h2 with hid2
    exact hf.consistent.distinct id1 id2 r1 r2 h1 h2 hk
  · intro q hq e he
    exact hf.le q hq e (hkept _ e he).1
  · intro q hq e he heq
    obtain ⟨he, hk⟩ := hkept _ e he
    by_cases hid : q.actorID = id
    · exact .inl (hblocked q (returnedIn_of_supersededIn hq) hid e he hk heq)
    · rcases hf.fenced q hq e he heq with hst' | hst'
      · exact .inl hst'
      · right
        simp only [lookup_erase_ite, if_neg hid]
        exact hst'
  · intro q hq hid e he heq
    obtain ⟨he, hk⟩ := hkept _ e he
    exact .inl (hblocked q hq hid e he hk heq)

end Runtime

end Westcoast
