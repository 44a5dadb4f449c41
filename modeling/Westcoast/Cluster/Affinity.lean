import Westcoast.Cluster.ClusterRouter
import Westcoast.Lib.Walk

/-!
# Key affinity across the cluster

With consistent keys and no preferences a service group routes by the hash of the key and the sorted
list of its workers, which nodes with the same registrations have in common.
-/
namespace Westcoast.Cluster.ClusterRouter

open Lib List AList

variable {π : Type} [Payload π]

def DistinctKeys (r : ClusterRouter) (serviceName : String) : Prop :=
  ∀ name name' pid pid', r.registry.lookup name = some pid → r.registry.lookup name' = some pid' →
    inGroup serviceName name = true → inGroup serviceName name' = true → pid.key = pid'.key →
      name = name'

/-- The service is configured for consistent keys, with a filter or without, and without a
preference. -/
def ByKey (r : ClusterRouter) (serviceName : String) (filter : Option NodeMatcher) : Prop :=
  ∃ rrNext, r.routers.lookup serviceName = some ⟨.known .consistentKey, rrNext, filter, none⟩

/-! ## One list of members -/

variable {r a b : ClusterRouter} {serviceName : String}

theorem nodup_collected (h : r.DistinctKeys serviceName) :
    ((r.collected serviceName).map PID.key).Nodup := by
  rw [collected, map_map]
  refine List.Nodup.map_on ?_ (r.registry.nodupKeys.nodup.filter _)
  rintro ⟨name, pid⟩ he ⟨name', pid'⟩ he' hkey
  obtain ⟨hmem, hin⟩ := mem_filter.mp he
  obtain ⟨hmem', hin'⟩ := mem_filter.mp he'
  have hlookup : r.registry.lookup name = some pid := mem_lookup_iff.mpr hmem
  have hlookup' : r.registry.lookup name' = some pid' := mem_lookup_iff.mpr hmem'
  obtain rfl := h name name' pid pid' hlookup hlookup' hin hin' hkey
  rw [hlookup, Option.some.injEq] at hlookup'
  rw [hlookup']

theorem nodup_members (h : r.DistinctKeys serviceName) (sort : SortSlice) :
    ((r.members sort serviceName).map PID.key).Nodup := by
  refine ((r.members_perm sort serviceName).map PID.key).nodup_iff.mpr ?_
  exact (nodup_collected h).sublist (filter_sublist.map PID.key)

theorem members_eq (ha : a.DistinctKeys serviceName) (hb : b.DistinctKeys serviceName)
    (hsame : ∀ pid, a.Eligible serviceName pid ↔ b.Eligible serviceName pid)
    (sortA sortB : SortSlice) : a.members sortA serviceName = b.members sortB serviceName := by
  have hkeys := nodup_members ha sortA
  refine eq_of_sorted_perm ?_ (sortA.sorted _) (sortB.sorted _) ?_
  · exact fun p hp q hq heq => inj_on_of_nodup_map hkeys hp hq heq
  · refine (perm_ext_iff_of_nodup hkeys.of_map (nodup_members hb sortB).of_map).mpr ?_
    intro pid
    rw [mem_members, mem_members, hsame]

theorem eligible_iff (hregistry : ∀ name, a.registry.lookup name = b.registry.lookup name)
    (hmeta : ∀ id, a.nodeMetaMap.lookup id = b.nodeMetaMap.lookup id)
    (hfilter : a.staticFilter serviceName = b.staticFilter serviceName) (pid : PID) :
    a.Eligible serviceName pid ↔ b.Eligible serviceName pid := by
  simp only [Eligible, passes, hregistry, hmeta, hfilter]

theorem DistinctKeys.congr (ha : a.DistinctKeys serviceName)
    (hregistry : ∀ name, a.registry.lookup name = b.registry.lookup name) :
    b.DistinctKeys serviceName := by
  intro name name' pid pid' hname hname'
  rw [← hregistry] at hname hname'
  exact ha name name' pid pid' hname hname'

variable {filter : Option NodeMatcher}

theorem ByKey.staticFilter (h : r.ByKey serviceName filter) :
    r.staticFilter serviceName = if r.cluster.isSome then filter else none := by
  obtain ⟨rrNext, h⟩ := h
  rw [ClusterRouter.staticFilter, h]
  cases r.cluster <;> rfl

/-! ## The route of a key -/

def keyRoute (key : String) (members : List PID) : Route :=
  if members.isEmpty then .noWorkers
  else if members.length % 2 ^ 32 = 0 then .panics
  else
    match members[(fnv32a key.toByteArray.data.toList).toNat % (members.length % 2 ^ 32)]? with
    | none => .panics
    | some pid => .worker pid

variable {key : String}

theorem route_eq_keyRoute (h : r.ByKey serviceName filter) {payload : π}
    (hkey : Payload.hashKey payload = some key) (sort : SortSlice) (random : ℕ) :
    (r.route sort serviceName [] random (some payload)).1 =
      keyRoute key (r.members sort serviceName) := by
  obtain ⟨rrNext, h⟩ := h
  have hprefs : r.applyPreferences serviceName (r.members sort serviceName) [] =
      r.members sort serviceName := by
    simp [applyPreferences, staticPreference, h]
  rw [route, hprefs, selectWorker, h, keyRoute]
  simp only [Option.bind_some, hkey]
  split_ifs
  · rfl
  · rfl
  · generalize (r.members sort serviceName)[
      (fnv32a key.toByteArray.data.toList).toNat %
        ((r.members sort serviceName).length % 2 ^ 32)]? = selected
    cases selected <;> rfl

variable {members : List PID}

theorem keyRoute_mem {pid : PID} (h : keyRoute key members = .worker pid) : pid ∈ members := by
  rw [keyRoute] at h
  split_ifs at h
  split at h
  · cases h
  · next heq =>
    cases h
    exact mem_of_getElem? heq

theorem keyRoute_worker (key : String) (hne : members ≠ []) (hlt : members.length < 2 ^ 32) :
    ∃ pid, keyRoute key members = .worker pid := by
  have hpos : 0 < members.length := length_pos_iff.mpr hne
  have hindex := Nat.mod_lt (fnv32a key.toByteArray.data.toList).toNat hpos
  refine ⟨members[(fnv32a key.toByteArray.data.toList).toNat % members.length], ?_⟩
  rw [keyRoute, Nat.mod_eq_of_lt hlt, if_neg (by simpa using hne), if_neg (by omega),
    getElem?_eq_getElem hindex]

/-- Cluster-wide key affinity. Two nodes with the same bindings, filter and metadata route a key to
the same eligible worker, if there is one (and fewer than the hash has values). -/
theorem key_affinity {a b : ClusterRouter} {serviceName key : String}
    {filter : Option NodeMatcher} {payload : π}
    (hregistry : ∀ name, a.registry.lookup name = b.registry.lookup name)
    (hkeys : a.DistinctKeys serviceName) (hcluster : a.cluster.isSome = b.cluster.isSome)
    (hmeta : ∀ id, a.nodeMetaMap.lookup id = b.nodeMetaMap.lookup id)
    (ha : a.ByKey serviceName filter) (hb : b.ByKey serviceName filter)
    (hkey : Payload.hashKey payload = some key) (sortA sortB : SortSlice) (randA randB : ℕ) :
    let routed := (a.route sortA serviceName [] randA (some payload)).1
    (b.route sortB serviceName [] randB (some payload)).1 = routed ∧
    (∀ pid, routed = .worker pid → a.Eligible serviceName pid ∧
      ∀ matcher, filter = some matcher → a.cluster.isSome = true →
        ∃ nodeMeta, a.nodeMetaMap.lookup pid.ns = some nodeMeta ∧ matcher nodeMeta = true) ∧
    (0 < (a.members sortA serviceName).length → (a.members sortA serviceName).length < 2 ^ 32 →
      ∃ pid, routed = .worker pid) ∧
    ∀ (c : ClusterRouter) (filter' : Option NodeMatcher) (sortC : SortSlice) (randC : ℕ)
      (payload' : π), c.ByKey serviceName filter' → c.DistinctKeys serviceName →
        Payload.hashKey payload' = some key →
        (∀ pid, c.Eligible serviceName pid ↔ a.Eligible serviceName pid) →
          (c.route sortC serviceName [] randC (some payload')).1 = routed := by
  intro routed
  have hrouted : routed = keyRoute key (a.members sortA serviceName) :=
    route_eq_keyRoute ha hkey sortA randA
  have hother : ∀ (c : ClusterRouter) (filter' : Option NodeMatcher) (sortC : SortSlice)
      (randC : ℕ) (payload' : π), c.ByKey serviceName filter' → c.DistinctKeys serviceName →
        Payload.hashKey payload' = some key →
        (∀ pid, c.Eligible serviceName pid ↔ a.Eligible serviceName pid) →
          (c.route sortC serviceName [] randC (some payload')).1 = routed := by
    intro c filter' sortC randC payload' hc hckeys hkey' hsame
    rw [hrouted, route_eq_keyRoute hc hkey', members_eq hckeys hkeys hsame sortC sortA]
  refine ⟨?_, ?_, ?_, hother⟩
  · refine hother b filter sortB randB payload hb (hkeys.congr hregistry) hkey fun pid => ?_
    refine (eligible_iff hregistry hmeta ?_ pid).symm
    rw [ha.staticFilter, hb.staticFilter, hcluster]
  · intro pid hpid
    have heligible : a.Eligible serviceName pid :=
      mem_members.mp (keyRoute_mem (hrouted.symm.trans hpid))
    refine ⟨heligible, ?_⟩
    rintro matcher rfl hsome
    refine passes_filter ?_ heligible.2
    rw [ha.staticFilter, if_pos hsome]
  · intro hpos hlt
    rw [hrouted]
    exact keyRoute_worker key (length_pos_iff.mp hpos) hlt

structure KeyMessage where
  key : String

instance keyMessagePayload : Payload KeyMessage :=
  ⟨fun _ => "KeyMessage", fun _ => none, fun m => some m.key⟩

def twoWorkers : List (String × PID) :=
  [("svcgroup:svc:n1:w", ⟨"n1", "w", 1⟩), ("svcgroup:svc:n2:w", ⟨"n2", "w", 1⟩)]

def onlyGpu : NodeMatcher := fun nodeMeta => nodeMeta.tags.lookup "gpu" = some "1"

/-- A router of a service that asks for consistent keys, and for a tag. -/
def gpuRouter (bindings : List (String × PID)) (self : NodeMeta) (members : List NodeMeta) :
    ClusterRouter :=
  { registry := bindings.foldl (fun registry e => registry.insert e.1 e.2) ∅
    cluster := some ⟨self, members⟩
    routers := (∅ : AList _).insert "svc" ⟨.known .consistentKey, 0, some onlyGpu, none⟩ }

/-- The nodes `n1` and `n2` have met the registrations in different orders. -/
theorem key_affinity_two_nodes : let n1 : NodeMeta := ⟨"n1", "a1", [("gpu", "1")]⟩
    let n2 : NodeMeta := ⟨"n2", "a2", [("gpu", "1")]⟩
    ∃ pid,
      ((gpuRouter twoWorkers n1 [n2]).route .insertion "svc" [] 0 (some (KeyMessage.mk "k"))).1 =
        .worker pid ∧
      ((gpuRouter twoWorkers.reverse n2 [n1]).route .insertion "svc" [] 1
        (some (KeyMessage.mk "k"))).1 = .worker pid := by
  intro n1 n2
  have hlookup : ∀ name, (gpuRouter twoWorkers n1 [n2]).registry.lookup name =
      if name = "svcgroup:svc:n2:w" then some ⟨"n2", "w", 1⟩
      else if name = "svcgroup:svc:n1:w" then some ⟨"n1", "w", 1⟩ else none := by
    intro name
    simp only [gpuRouter, twoWorkers, foldl_cons, foldl_nil, lookup_insert_ite]
    rfl
  have hlookup' : ∀ name, (gpuRouter twoWorkers.reverse n2 [n1]).registry.lookup name =
      if name = "svcgroup:svc:n1:w" then some ⟨"n1", "w", 1⟩
      else if name = "svcgroup:svc:n2:w" then some ⟨"n2", "w", 1⟩ else none := by
    intro name
    simp only [gpuRouter, twoWorkers, reverse_cons, reverse_nil, nil_append,
      cons_append, foldl_cons, foldl_nil, lookup_insert_ite]
    rfl
  have hrouted := @key_affinity KeyMessage _ (gpuRouter twoWorkers n1 [n2])
    (gpuRouter twoWorkers.reverse n2 [n1]) "svc" "k" (some onlyGpu) ⟨"k"⟩ ?_ ?_ rfl ?_
    ⟨0, lookup_insert _⟩ ⟨0, lookup_insert _⟩ rfl .insertion .insertion 0 1
  · obtain ⟨hsame, -, hsome, -⟩ := hrouted
    obtain ⟨pid, hpid⟩ := hsome (by decide +kernel) (by decide +kernel)
    exact ⟨pid, hpid, hsame.trans hpid⟩
  · intro name
    rw [hlookup, hlookup']
    split_ifs with h2 h1
    · exact absurd (h2.symm.trans h1) (by decide)
    all_goals rfl
  · intro name name' pid pid' h h' _ _ hkey
    rw [hlookup] at h h'
    split_ifs at h h' <;> cases h <;> cases h'
    · simp_all
    · exact absurd hkey (by decide)
    · exact absurd hkey (by decide)
    · simp_all
  · intro id
    simp only [gpuRouter, nodeMetaMap, foldl_cons, foldl_nil, lookup_insert_ite, n1, n2]
    split_ifs with h2 h1
    · exact absurd (h2.symm.trans h1) (by decide)
    all_goals rfl

end Westcoast.Cluster.ClusterRouter
