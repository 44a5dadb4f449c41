import Westcoast.Actor.Runtime

/-!
# What `EnsureBrokerActor` and `EnsureCronActor` establish

Both look the service up in a map, create the actor if it is not there, and then enter the service.
`CronHandler` enters a service without an actor, so an entry does not mean that the actor exists; a
call that is late to create the actor but comes before the entry returns an error.
-/
namespace Westcoast

open Lib List Option

structure EnsureService where
  defaultID : String
  capacity : ℤ
  default_ne : defaultID ≠ ""

def brokerService : EnsureService := ⟨"__native_pubsub_broker", 65536, by decide⟩

def cronService : EnsureService := ⟨"__native_cron_timer", 65536, by decide⟩

/-- The actor ID that is meant by the one a caller gives. -/
def EnsureService.actorID (svc : EnsureService) (requested : String) : String :=
  if requested = "" then svc.defaultID else requested

inductive EnsurePc
  /-- About to look the service up. -/
  | check
  /-- About to call `CreateActor`. -/
  | create
  /-- About to look again, since there is such an actor. -/
  | recheck
  /-- About to enter the service. -/
  | store
  | returned (err : Option RuntimeError)
  deriving DecidableEq

def EnsurePc.active : EnsurePc → Bool
  | .returned _ => false
  | _ => true

/-- A runtime, whether the service is in the map, and the calls. -/
structure Ensuring (π : Type) where
  rt : Runtime π
  cached : Bool
  calls : List EnsurePc

inductive EnsureAction (π : Type)
  | ensure
  | callStep (i : ℕ)
  | cronHandler
  | runtime (op : RuntimeAction π)

/-- A call returns, and whether there is an actor that is not stopped. -/
inductive EnsureEvent
  | returned (err : Option RuntimeError) (alive : Bool)
  deriving DecidableEq

variable {π : Type}

namespace Ensuring

section
variable [Inhabited π] (svc : EnsureService) (id : String) (s : Ensuring π)

def alive : Bool := (s.rt.registry.lookup id).any (·.status ≠ .stopped)

/-- The actor does not exist, or is not stopped. -/
def unstopped : Bool := (s.rt.registry.lookup id).all (·.status ≠ .stopped)

/-- The ID is used by an actor that no call has created. -/
def unrelated : Bool :=
  (s.rt.registry.lookup id).isSome && !s.cached && !s.calls.contains .store

def put (i : ℕ) (pc : EnsurePc) : Ensuring π := { s with calls := s.calls.set i pc }

def finish (i : ℕ) (err : Option RuntimeError) : Ensuring π × List EnsureEvent :=
  (s.put i (.returned err), [.returned err (s.alive id)])

/-- A step of a call of `EnsureBrokerActor` or `EnsureCronActor`. -/
def callStep (i : ℕ) : EnsurePc → Option (Ensuring π × List EnsureEvent)
  | .check => some (if s.cached then s.finish id i none else (s.put i .create, []))
  | .create =>
    match s.rt.createActor id false svc.capacity true with
    | .ok rt => some ({ s with rt := rt }.put i .store, [])
    | .error e =>
      some (if e = .duplicateActorID then (s.put i .recheck, []) else s.finish id i (some e))
  | .recheck => some (s.finish id i (if s.cached then none else some .duplicateActorID))
  | .store => some ({ s with cached := true }.finish id i none)
  | .returned _ => none

def step : EnsureAction π → Option (Ensuring π × List EnsureEvent)
  | .ensure => some ({ s with calls := s.calls ++ [.check] }, [])
  | .callStep i => s.calls[i]?.bind (s.callStep svc id i)
  | .cronHandler => some ({ s with cached := true }, [])
  | .runtime op => (s.rt.step op).map fun r => ({ s with rt := r.1 }, [])

/-- The ID has no unrelated actor, nothing stops or removes the actor beside a call, and no call
looks again before the one that has created the actor has entered the service. -/
def Orderly : EnsureAction π → Prop
  | .callStep i => s.unrelated id = false ∧ ∀ pc ∈ s.calls[i]?,
      (pc = .check → s.cached = true → s.alive id = true) ∧ (pc = .recheck → .store ∉ s.calls)
  | .runtime op => ∀ r ∈ s.rt.step op, (∃ pc ∈ s.calls, pc.active = true) →
      (s.unstopped id = true → unstopped id { s with rt := r.1 } = true) ∧
      (s.alive id = true → alive id { s with rt := r.1 } = true)
  | _ => True

instance orderlyDecidable (a : EnsureAction π) : Decidable (s.Orderly id a) := by
  cases a <;> unfold Orderly <;> infer_instance

end

structure Relies (id : String) (s : Ensuring π) (pc : EnsurePc) : Prop where
  create : pc = .create → s.unstopped id = true
  recheck : pc = .recheck → s.alive id = true ∧ (s.cached = true ∨ .store ∈ s.calls)
  store : pc = .store → s.alive id = true

variable {id : String} {s s' : Ensuring π} {pc : EnsurePc}

theorem alive_of_unstopped (h : s.unstopped id = true)
    (hsome : (s.rt.registry.lookup id).isSome = true) : s.alive id = true := by
  obtain ⟨a, ha⟩ := isSome_iff_exists.mp hsome
  simpa [alive, unstopped, ha] using h

theorem Relies.mono (h : Relies id s pc) (hun : s.unstopped id = true → s'.unstopped id = true)
    (halive : s.alive id = true → s'.alive id = true)
    (hstore : s.cached = true ∨ .store ∈ s.calls → s'.cached = true ∨ .store ∈ s'.calls) :
    Relies id s' pc where
  create hpc := hun (h.create hpc)
  recheck hpc := (h.recheck hpc).imp halive hstore
  store hpc := halive (h.store hpc)

theorem Relies.of_returned (err : Option RuntimeError) : Relies id s (.returned err) :=
  ⟨nofun, nofun, nofun⟩

theorem relies_put {s₁ : Ensuring π} {i : ℕ} {pc' : EnsurePc} (h : ∀ c ∈ s.calls, Relies id s c)
    (hi : s.calls[i]? = some pc) (hcalls : s₁.calls = s.calls)
    (hun : s.unstopped id = true → s₁.unstopped id = true)
    (halive : s.alive id = true → s₁.alive id = true)
    (hcached : s.cached = true ∨ pc = .store → s₁.cached = true)
    (hnew : (s.cached = true ∨ .store ∈ s.calls →
      s₁.cached = true ∨ .store ∈ (s₁.put i pc').calls) → Relies id (s₁.put i pc') pc') :
    ∀ c ∈ (s₁.put i pc').calls, Relies id (s₁.put i pc') c := by
  have hstore : s.cached = true ∨ .store ∈ s.calls →
      s₁.cached = true ∨ .store ∈ (s₁.put i pc').calls := by
    rintro (hold | hmem)
    · exact .inl (hcached (.inl hold))
    · obtain ⟨j, hj⟩ := mem_iff_getElem?.mp hmem
      by_cases hji : j = i
      · rw [hji, hi] at hj
        exact .inl (hcached (.inr (some.inj hj)))
      · refine .inr (mem_iff_getElem?.mpr ⟨j, ?_⟩)
        rw [put, hcalls, getElem?_set_ne (Ne.symm hji), hj]
  intro c hc
  rw [put, hcalls] at hc
  rcases mem_or_eq_of_mem_set hc with hold | rfl
  · exact (h c hold).mono hun halive hstore
  · exact hnew hstore

variable [Inhabited π] {svc : EnsureService} {es : List EnsureEvent}

theorem relies_callStep {i : ℕ} (hid : id ≠ "") (h : ∀ c ∈ s.calls, Relies id s c)
    (ho : s.Orderly id (.callStep i)) (hi : s.calls[i]? = some pc)
    (hs : s.callStep svc id i pc = some (s', es)) :
    (∀ c ∈ s'.calls, Relies id s' c) ∧ ∀ ev ∈ es, ev = .returned none true := by
  obtain ⟨hrelated, hpc⟩ := ho
  obtain ⟨hcheck, hrecheck⟩ := hpc pc hi
  have hown := h pc (mem_of_getElem? hi)
  have hrelated : (s.rt.registry.lookup id).isSome = true → s.cached = true ∨ .store ∈ s.calls := by
    intro hsome
    by_cases hcached : s.cached = true
    · exact .inl hcached
    · exact .inr (by simpa [unrelated, hsome, hcached] using hrelated)
  cases pc with
  | check =>
    by_cases hcached : s.cached = true
    · rw [callStep, if_pos hcached] at hs
      cases hs
      refine ⟨relies_put h hi rfl (fun h => h) (fun h => h) (by simp) fun _ => .of_returned _, ?_⟩
      simp [hcheck rfl hcached]
    · rw [callStep, if_neg hcached] at hs
      cases hs
      refine ⟨relies_put h hi rfl (fun h => h) (fun h => h) (by simp)
        fun _ => ⟨fun _ => ?_, nofun, nofun⟩, by simp⟩
      -- an actor with this ID was created by a call that has still to enter the service
      cases ha : s.rt.registry.lookup id with
      | none => simp [unstopped, put, ha]
      | some a =>
        have hstore := (hrelated (by rw [ha]; rfl)).resolve_left hcached
        simpa [unstopped, alive, put, ha] using (h _ hstore).store rfl
  | create =>
    cases ha : s.rt.registry.lookup id with
    | none =>
      have hcreate : s.rt.createActor id false svc.capacity true = .ok { s.rt with
          registry := s.rt.registry.insert id ⟨.running, .new svc.capacity, 0⟩ } := by
        simp [Runtime.createActor, hid, ha]
      rw [callStep, hcreate] at hs
      cases hs
      refine ⟨relies_put h hi rfl ?_ ?_ (by simp) fun _ => ⟨nofun, nofun, fun _ => ?_⟩, by simp⟩ <;>
        simp [unstopped, alive, put]
    | some a =>
      have hcreate : s.rt.createActor id false svc.capacity true = .error .duplicateActorID := by
        simp [Runtime.createActor, hid, ha]
      rw [callStep, hcreate] at hs
      cases hs
      refine ⟨relies_put h hi rfl (fun h => h) (fun h => h) (by simp)
        fun hstore => ⟨nofun, fun _ => ⟨?_, ?_⟩, nofun⟩, by simp⟩
      · exact alive_of_unstopped (s := s) (hown.create rfl) (by rw [ha]; rfl)
      · exact hstore (hrelated (by rw [ha]; rfl))
  | recheck =>
    obtain ⟨halive, hentered⟩ := hown.recheck rfl
    have hcached := hentered.resolve_right (hrecheck rfl)
    rw [callStep, if_pos hcached] at hs
    cases hs
    refine ⟨relies_put h hi rfl (fun h => h) (fun h => h) (by simp) fun _ => .of_returned _, ?_⟩
    simp [halive]
  | store =>
    cases hs
    refine ⟨relies_put h hi rfl (fun h => h) (fun h => h) (by simp) fun _ => .of_returned _, ?_⟩
    have halive : alive id { s with cached := true } = true := hown.store rfl
    simp [halive]
  | returned err => cases hs

theorem relies_step {a : EnsureAction π} (hid : id ≠ "") (h : ∀ c ∈ s.calls, Relies id s c)
    (ho : s.Orderly id a) (hs : s.step svc id a = some (s', es)) :
    (∀ c ∈ s'.calls, Relies id s' c) ∧ ∀ ev ∈ es, ev = .returned none true := by
  cases a with
  | ensure =>
    cases hs
    refine ⟨fun c hc => ?_, by simp⟩
    rcases mem_append.mp hc with hold | hnew
    · exact (h c hold).mono (fun h => h) (fun h => h) (Or.imp_right (mem_append_left _))
    · rw [mem_singleton.mp hnew]
      exact ⟨nofun, nofun, nofun⟩
  | callStep i =>
    obtain ⟨pc, hi, hs⟩ := bind_eq_some_iff.mp hs
    exact relies_callStep hid h ho hi hs
  | cronHandler =>
    cases hs
    exact ⟨fun c hc => (h c hc).mono (fun h => h) (fun h => h) fun _ => .inl rfl, by simp⟩
  | runtime op =>
    obtain ⟨r, hr, heq⟩ := map_eq_some_iff.mp hs
    cases heq
    refine ⟨fun c hc => ?_, by simp⟩
    cases hactive : c.active with
    | true =>
      obtain ⟨hun, halive⟩ := ho r hr ⟨c, hc, hactive⟩
      exact (h c hc).mono hun halive fun h => h
    | false =>
      cases c with
      | returned err => exact .of_returned err
      | check | create | recheck | store => cases hactive

/-- **Every call returns an actor that is not stopped**, however the calls interleave, if an entry
in the map stands for such an actor and no call looks again before the service is entered. -/
theorem ensure_establishes {requested : String} {rt : Runtime π} {cached : Bool}
    {tr : List EnsureEvent} (hrun : Run (step svc (svc.actorID requested))
      (Orderly (svc.actorID requested)) ⟨rt, cached, []⟩ tr s) :
    ∀ err alive, .returned err alive ∈ tr → err = none ∧ alive = true := by
  have hid : svc.actorID requested ≠ "" := by
    rw [EnsureService.actorID]
    split_ifs with hempty
    · exact svc.default_ne
    · exact hempty
  have hall := hrun.invariant (fun tr s => (∀ c ∈ s.calls, Relies (svc.actorID requested) s c) ∧
      ∀ ev ∈ tr, ev = .returned none true) ⟨by simp, by simp⟩ ?_
  · intro err alive hmem
    obtain ⟨rfl, rfl⟩ := EnsureEvent.returned.inj (hall.2 _ hmem)
    exact ⟨rfl, rfl⟩
  · intro tr s a s' es h ho hs
    obtain ⟨hrelies, hes⟩ := relies_step hid h.1 ho hs
    exact ⟨hrelies, fun ev hev => (mem_append.mp hev).elim (h.2 ev) (hes ev)⟩

/-- Two calls at the same time; the second one waits until the service is entered. -/
theorem ensure_establishes_both :
    ∃ tr s, Run (step cronService (cronService.actorID "")) (Orderly (cronService.actorID ""))
        (⟨.new "n1" none, false, []⟩ : Ensuring String) tr s ∧
      tr = [.returned none true, .returned none true] ∧
      ∀ err alive, .returned err alive ∈ tr → err = none ∧ alive = true :=
  Run.of_check_then [.ensure, .ensure, .callStep 0, .callStep 1, .callStep 0, .callStep 1,
    .callStep 0, .callStep 1] (by decide +kernel) fun tr s hrun htr =>
    ⟨tr, s, hrun, htr, ensure_establishes hrun⟩

/-- The broker is stopped and removed, and the next call finds it in the map. -/
theorem removed_broker_ensured : ∃ tr s, Run (step brokerService "b") anyStep
        (⟨.new "n1" none, false, []⟩ : Ensuring String) tr s ∧
      tr = [.returned none true, .returned none false] ∧ s.rt.registry.lookup "b" = none := by
  obtain ⟨tr, s, hrun, htr, hgone⟩ : ∃ tr s, Run (step brokerService "b") anyStep
        (⟨.new "n1" none, false, []⟩ : Ensuring String) tr s ∧
      tr = [.returned none true, .returned none false] ∧
      (s.rt.registry.lookup "b").isNone = true :=
    Run.of_check [.ensure, .callStep 0, .callStep 0, .callStep 0, .runtime (.stop "b"),
      .runtime (.removeActor "b"), .ensure, .callStep 1] (by decide +kernel)
  exact ⟨tr, s, hrun, htr, isNone_iff_eq_none.mp hgone⟩

end Ensuring
end Westcoast
