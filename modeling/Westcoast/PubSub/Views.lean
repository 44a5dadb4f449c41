import Westcoast.PubSub.Interest

/-!
# The two views of the route map

The patterns of a node and the nodes of a pattern are written by the adapters in pairs, and a
departure is cleaned up by a walk over the first. They stay inverse.
-/
namespace Westcoast.RouteMap

open Lib Interest

/-- What the adapters do to the map; the node of a notification is the adapter's own. -/
inductive Action
  | notifySubscribe (node topic : String)
  | notifyUnsubscribe (node topic : String)
  | onMembershipChange (type : Cluster.MemberEventType) (member : String)

def Action.notifies (node : String) : Action → Prop
  | .notifySubscribe n _ | .notifyUnsubscribe n _ => n = node
  | .onMembershipChange .. => False

def apply (routes : RouteMap) : Action → RouteMap
  | .notifySubscribe node topic => Westcoast.notifySubscribe routes node topic
  | .notifyUnsubscribe node topic => Westcoast.notifyUnsubscribe routes node topic
  | .onMembershipChange type member => Westcoast.onMembershipChange routes type member

def Inverse (routes : RouteMap) : Prop := ∀ node topic,
  routes.has (routeNodeKey node) topic = true ↔ routes.has (routeTopicKey topic) node = true

theorem routeNodeKey_inj {n n' : String} : routeNodeKey n = routeNodeKey n' ↔ n = n' :=
  String.append_right_inj _

theorem routeNodeKey_ne_routeTopicKey (node topic : String) :
    routeNodeKey node ≠ routeTopicKey topic := (routeTopicKey_ne_routeNodeKey topic node).symm

variable {routes : RouteMap} {type : Cluster.MemberEventType}

/-- The walk over the patterns of a departed node finds every pattern that has it. -/
theorem Inverse.has_departed (h : Inverse routes) (hdeparts : type.departs = true)
    (member node topic : String) :
    ((onMembershipChange routes type member).has (routeNodeKey node) topic = true ↔
        routes.has (routeNodeKey node) topic = true ∧ node ≠ member) ∧
      ((onMembershipChange routes type member).has (routeTopicKey topic) node = true ↔
        routes.has (routeTopicKey topic) node = true ∧ node ≠ member) := by
  by_cases hkey : routes.hasKey (routeNodeKey member) = true
  · have hmem : routeTopicKey topic ∈ (routes.elements (routeNodeKey member)).map routeTopicKey ↔
        routes.has (routeTopicKey topic) member = true := by
      simp [routeTopicKey_inj, SetMap.mem_elements, h member topic]
    simp only [onMembershipChange, hdeparts, hkey, Bool.and_self, if_true, SetMap.has_removeKey,
      SetMap.has_foldl_remove, hmem, ne_eq, routeNodeKey_inj, routeTopicKey_ne_routeNodeKey]
    constructor
    · simp [routeTopicKey_ne_routeNodeKey]
    · by_cases hnode : node = member <;> simp [hnode]
  · have hnone : ∀ t, routes.has (routeNodeKey member) t = false := by
      intro t
      simp only [SetMap.hasKey, Option.not_isSome_iff_eq_none] at hkey
      simp [SetMap.has, SetMap.get, hkey]
    have hsame : onMembershipChange routes type member = routes := by
      simp [onMembershipChange, hkey]
    have hother : routes.has (routeNodeKey node) topic = true → node ≠ member := by
      rintro hhas rfl
      simp [hnone] at hhas
    rw [hsame, ← h node topic]
    exact ⟨(and_iff_left_of_imp hother).symm, (and_iff_left_of_imp hother).symm⟩

theorem Inverse.apply (h : Inverse routes) (a : Action) : Inverse (routes.apply a) := by
  intro node topic
  cases a with
  | notifySubscribe n t =>
    simp only [RouteMap.apply, has_notifySubscribe, ← h node topic]
    simp [notifySubscribe, SetMap.has_add, routeNodeKey_inj, routeNodeKey_ne_routeTopicKey,
      and_comm]
  | notifyUnsubscribe n t =>
    simp only [RouteMap.apply, has_notifyUnsubscribe, ← h node topic]
    simp [notifyUnsubscribe, SetMap.has_remove, routeNodeKey_inj, routeNodeKey_ne_routeTopicKey,
      imp_not_comm]
  | onMembershipChange type member =>
    by_cases hdeparts : type.departs = true
    · obtain ⟨hnode, htopic⟩ := h.has_departed hdeparts member node topic
      simp only [RouteMap.apply, hnode, htopic, h node topic]
    · simpa [RouteMap.apply, onMembershipChange, hdeparts] using h node topic

theorem absent_apply {node : String} {a : Action} (ha : ¬ a.notifies node)
    (h : ∀ topic, routes.has (routeTopicKey topic) node = false) (topic : String) :
    (routes.apply a).has (routeTopicKey topic) node = false := by
  rw [← Bool.not_eq_true]
  intro hhas
  have hbefore : routes.has (routeTopicKey topic) node = true := by
    cases a with
    | notifySubscribe n t =>
      rcases (has_notifySubscribe ..).mp hhas with ⟨-, rfl⟩ | hold
      · exact absurd rfl ha
      · exact hold
    | notifyUnsubscribe n t => exact ((has_notifyUnsubscribe ..).mp hhas).1
    | onMembershipChange type member => exact has_of_onMembershipChange hhas
  rw [h topic] at hbefore
  cases hbefore

/-- **The views are inverse** after every sequence of notifications and membership changes, and
after the departure of a node nothing is sent to it until it notifies again. -/
theorem views_inverse (before : List Action) : Inverse (before.foldl apply .empty) ∧
    ∀ (type : Cluster.MemberEventType) (member : String) (later : List Action),
      type.departs = true → (∀ a ∈ later, ¬ a.notifies member) →
      ∀ {π β : Type} (codec : RoutedCodec π β) (localID topic publisherNode : String) (payload : π)
        (envs : List (RoutedEnvelope β)),
        broadcast codec ((.onMembershipChange type member :: later).foldl apply
          (before.foldl apply .empty)) localID topic payload publisherNode = some envs →
        ∀ env ∈ envs, env.targetNode ≠ member := by
  have hinverse : Inverse (before.foldl apply .empty) :=
    List.foldlRecOn _ _ (by intro node topic; simp) fun _ h a _ => h.apply a
  refine ⟨hinverse, ?_⟩
  intro type member later hdeparts hquiet π β codec localID topic publisherNode payload envs hsend
    env henv htarget
  have habsent : ∀ topic, ((.onMembershipChange type member :: later).foldl apply
      (before.foldl apply .empty)).has (routeTopicKey topic) member = false := by
    rw [List.foldl_cons]
    refine List.foldlRecOn (motive := fun routes : RouteMap =>
      ∀ topic, routes.has (routeTopicKey topic) member = false) _ _ (fun topic => ?_)
      fun _ h a ha => absent_apply (hquiet a ha) h
    rw [← Bool.not_eq_true]
    exact fun hhas => ((hinverse.has_departed hdeparts member member topic).2.mp hhas).2 rfl
  have hhas := ((target_broadcast hsend member).mp ⟨env, henv, htarget⟩).1
  rw [habsent topic] at hhas
  cases hhas

end Westcoast.RouteMap
