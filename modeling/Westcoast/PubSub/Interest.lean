import Westcoast.Cluster.Election
import Westcoast.Lib.SetMap
import Westcoast.PubSub.Broker

/-!
# Routing publications by interest

`pubsub_adapter_crdt.go`: each node tells the others, in a replicated map of sets, which patterns it
has subscribers for. The map is taken as converged. It is looked up at the text of the topic, so a
wildcard is not found (`Interest.reaches_iff`), and it is written at the first and the last
subscriber of a pattern and when a node departs, so what goes at a departure is not there again when
the node comes back.
-/
namespace Westcoast

open Lib Option SetMap Broker Function

/-- `node:` with the ID of a node: the patterns it has subscribers for. -/
def routeNodeKey (node : String) : String := "node:" ++ node

/-- `topic:` with a pattern: the nodes that have subscribers for it. -/
def routeTopicKey (topic : String) : String := "topic:" ++ topic

theorem routeTopicKey_inj {t t' : String} : routeTopicKey t = routeTopicKey t' ↔ t = t' :=
  String.append_right_inj _

theorem routeTopicKey_ne_routeNodeKey (t node : String) : routeTopicKey t ≠ routeNodeKey node := by
  intro h
  have hlist := congrArg String.toList h
  simp only [routeTopicKey, routeNodeKey, String.toList_append] at hlist
  cases hlist

abbrev RouteMap := SetMap String String

def notifySubscribe (routes : RouteMap) (localID topic : String) : RouteMap :=
  (routes.add (routeNodeKey localID) topic).add (routeTopicKey topic) localID

def notifyUnsubscribe (routes : RouteMap) (localID topic : String) : RouteMap :=
  (routes.remove (routeNodeKey localID) topic).remove (routeTopicKey topic) localID

/-- `OnMembershipChange`: a node that departs is in no route. -/
def onMembershipChange (routes : RouteMap) (type : Cluster.MemberEventType) (node : String) :
    RouteMap :=
  if type.departs && routes.hasKey (routeNodeKey node) then
    ((routes.elements (routeNodeKey node)).foldl
      (fun m topic => m.remove (routeTopicKey topic) node) routes).removeKey (routeNodeKey node)
  else routes

structure PubsubRoutedMsg (β : Type) where
  topic : String
  payload : β
  publisherNode : String

structure RoutedEnvelope (β : Type) where
  senderNode : String
  targetNode : String
  typeName : String
  payload : β
  deriving DecidableEq

/-- What the adapter encodes; the codec may refuse. -/
structure RoutedCodec (π β : Type) where
  encodePayload : π → Option β
  encodeMsg : PubsubRoutedMsg β → Option β

/-- `Broadcast`: the envelopes it sends, or none at all if it returns an error. -/
def broadcast {π β : Type} (codec : RoutedCodec π β) (routes : RouteMap) (localID topic : String)
    (payload : π) (publisherNode : String) : Option (List (RoutedEnvelope β)) := do
  let payloadBytes ← codec.encodePayload payload
  let encoded ← codec.encodeMsg ⟨topic, payloadBytes, publisherNode⟩
  if !routes.hasKey (routeTopicKey topic) then
    return []
  return ((routes.elements (routeTopicKey topic)).filter (· ≠ localID)).map fun node =>
    ⟨localID, node, "__pubsub_routed", encoded⟩

theorem target_broadcast {π β : Type} {codec : RoutedCodec π β} {routes : RouteMap}
    {localID topic publisherNode : String} {payload : π} {envs : List (RoutedEnvelope β)}
    (h : broadcast codec routes localID topic payload publisherNode = some envs) (node : String) :
    (∃ env ∈ envs, env.targetNode = node) ↔
      routes.has (routeTopicKey topic) node = true ∧ node ≠ localID := by
  simp only [broadcast, bind_eq_bind, bind_eq_some_iff] at h
  obtain ⟨payloadBytes, -, encoded, -, h⟩ := h
  by_cases hkey : routes.hasKey (routeTopicKey topic) = true
  · simp only [hkey, Bool.not_true, Bool.false_eq_true, if_false, pure_def,
      some.injEq] at h
    rw [← h, ← mem_elements]
    simp
  · have hempty : routes.has (routeTopicKey topic) node = false := by
      simp only [hasKey, Bool.not_eq_true, isSome_eq_false_iff,
        isNone_iff_eq_none] at hkey
      simp [SetMap.has, SetMap.get, hkey]
    simp only [hkey, Bool.not_false, if_true, pure_def, some.injEq] at h
    rw [← h, hempty]
    simp

/-! ### The map and the brokers -/

/-- The nodes with their brokers, the map they share, and who is a member. -/
structure Interest where
  brokers : String → Broker
  routes : RouteMap
  members : String → Bool

inductive InterestAction (π : Type)
  | command (node : String) (cmd : BrokerCommand π) (ask : Option AskRequestContext)
  /-- A node leaves or fails, or joins (again). -/
  | depart (member : String)
  | join (member : String)
  /-- A node's adapter handles a membership event. -/
  | handle (node : String) (type : Cluster.MemberEventType) (member : String)

namespace Interest

variable {π : Type}

def new (members : String → Bool) : Interest := ⟨fun _ => .new, .empty, members⟩

/-- What a broker's event tells the adapter of its node. -/
def notify (node : String) (routes : RouteMap) : BrokerEvent π → RouteMap
  | .onSubscribe pattern => notifySubscribe routes node pattern
  | .onUnsubscribe pattern => notifyUnsubscribe routes node pattern
  | _ => routes

def step (s : Interest) : InterestAction π → Option (Interest × List (BrokerEvent π))
  | .command node cmd ask =>
    let r := (s.brokers node).handler cmd ask
    some ({ s with
      brokers := update s.brokers node r.1
      routes := r.2.foldl (notify node) s.routes }, r.2)
  | .depart member => some ({ s with members := update s.members member false }, [])
  | .join member => some ({ s with members := update s.members member true }, [])
  | .handle _ type member =>
    some ({ s with routes := onMembershipChange s.routes type member }, [])

def holds (s : Interest) (node pattern : String) : Prop :=
  ((s.brokers node).byPattern.lookup pattern).isSome = true

def Interested (s : Interest) (node : String) (topic : AcceptedTopic) : Prop :=
  ∃ pattern, s.holds node pattern ∧ Matches (splitDots pattern) topic.segments

/-- The map has the node for exactly the patterns it has subscribers for. -/
def Registered (s : Interest) (node : String) : Prop :=
  ∀ pattern, s.routes.has (routeTopicKey pattern) node = true ↔ s.holds node pattern

/-- A departing node is no member or has no subscribers, and the map has a joining one for the
patterns of its subscribers. -/
def Fits (s : Interest) : InterestAction π → Prop
  | .join member => s.Registered member
  | .handle _ type member =>
    type.departs = true → s.members member = true → ∀ pattern, ¬ s.holds member pattern
  | .command .. | .depart .. => True

/-! ### What one operation does to the map -/

variable (routes : RouteMap) (localID topic pattern node : String)

theorem has_notifySubscribe :
    (notifySubscribe routes localID topic).has (routeTopicKey pattern) node = true ↔
      (pattern = topic ∧ node = localID) ∨ routes.has (routeTopicKey pattern) node = true := by
  rw [notifySubscribe, has_add, has_add, routeTopicKey_inj]
  simp [routeTopicKey_ne_routeNodeKey]

theorem has_notifyUnsubscribe :
    (notifyUnsubscribe routes localID topic).has (routeTopicKey pattern) node = true ↔
      routes.has (routeTopicKey pattern) node = true ∧ ¬ (pattern = topic ∧ node = localID) := by
  rw [notifyUnsubscribe, has_remove, has_remove, routeTopicKey_inj]
  simp [routeTopicKey_ne_routeNodeKey]

theorem has_onMembershipChange (type : Cluster.MemberEventType) (member pattern node : String)
    (hother : node ≠ member) :
    (onMembershipChange routes type member).has (routeTopicKey pattern) node =
      routes.has (routeTopicKey pattern) node := by
  rw [Bool.eq_iff_iff, onMembershipChange]
  split_ifs
  · rw [has_removeKey, has_foldl_remove]
    simp [hother, routeTopicKey_ne_routeNodeKey]
  · rfl

variable {type : Cluster.MemberEventType} {member : String}

theorem has_of_onMembershipChange {routes : RouteMap} {pattern node : String}
    (h : (onMembershipChange routes type member).has (routeTopicKey pattern) node = true) :
    routes.has (routeTopicKey pattern) node = true := by
  rw [onMembershipChange] at h
  split_ifs at h
  · rw [has_removeKey, has_foldl_remove] at h
    exact h.1.1
  · exact h

variable {es : List (BrokerEvent π)}

theorem notify_quiet (hes : es.all (fun e => !tells e) = true) (node : String)
    (routes : RouteMap) : es.foldl (notify node) routes = routes := by
  refine List.foldlRecOn (motive := (· = routes)) es _ rfl ?_
  rintro _ rfl e he
  have hquiet := List.all_eq_true.mp hes e he
  cases e with
  | onSubscribe | onUnsubscribe => cases hquiet
  | emitted | replied | dispatched | broadcast => rfl

/-! ### What one command does to a broker -/

variable {b : Broker}

theorem firstForPattern_iff (h : b.Indexed) (p : TopicPattern) (pid : PID) :
    b.firstForPattern p pid = true ↔ b.byPattern.lookup p.raw = none := by
  simp only [firstForPattern, stored, Bool.and_eq_true, isNone_iff_eq_none,
    decide_eq_true_eq]
  cases hsubs : b.byPattern.lookup p.raw with
  | none => simp [AList.insert, List.kinsert]
  | some subs =>
    -- a pattern in the table has a subscriber already
    have hne := h.patterns p.raw subs hsubs
    simp only [bind_some, getD_some, reduceCtorEq, iff_false, not_and]
    intro hnew hone
    rw [AList.insert_of_notMem (AList.lookup_eq_none.mp hnew)] at hone
    simp only [List.length_cons, Nat.add_eq_right, List.length_eq_zero_iff] at hone
    exact hne hone

theorem lookup_byPattern_subscribe (b : Broker) (p : TopicPattern) (pid : PID) (pattern : String) :
    ((b.subscribe p pid).byPattern.lookup pattern).isSome = true ↔
      pattern = p.raw ∨ (b.byPattern.lookup pattern).isSome = true := by
  simp only [subscribe, lookup_insert_ite]
  by_cases hp : pattern = p.raw <;> simp [hp]

theorem foldl_notify_report {before : List (BrokerEvent π)} {result : BrokerOutcomeType}
    (operation : BrokerOperation) (pattern reason : String) (pid : PID) (ask : AskRequestContext)
    (node : String) (routes : RouteMap) :
    (before ++ report operation pattern pid ask result reason).foldl (notify node) routes =
      before.foldl (notify node) routes := by
  rw [List.foldl_append]
  rfl

/-- A broker and the map after a command, compared with those before. -/
structure Follows (b b' : Broker) (node : String) (routes routes' : RouteMap) : Prop where
  indexed : b'.Indexed
  others : ∀ pattern k, k ≠ node →
    routes'.has (routeTopicKey pattern) k = routes.has (routeTopicKey pattern) k
  own : ∀ pattern, (routes.has (routeTopicKey pattern) node = true ↔
      (b.byPattern.lookup pattern).isSome = true) →
    (routes'.has (routeTopicKey pattern) node = true ↔ (b'.byPattern.lookup pattern).isSome = true)

theorem follows_subscribe (hindexed : b.Indexed) {raw : String} {p : TopicPattern}
    (hp : parseTopicPattern raw = .ok p) (pid : PID) (node : String) (routes : RouteMap) :
    Follows b (b.subscribe p pid) node routes
      (if b.firstForPattern p pid then notifySubscribe routes node p.raw else routes) := by
  refine ⟨hindexed.subscribe hp pid, fun pattern k hk => ?_, fun pattern hown => ?_⟩
  · split_ifs
    · rw [Bool.eq_iff_iff, has_notifySubscribe]
      simp [hk]
    · rfl
  · rw [lookup_byPattern_subscribe, ← hown]
    by_cases hfirst : b.firstForPattern p pid = true
    · rw [if_pos hfirst, has_notifySubscribe]
      simp
    · rw [if_neg hfirst]
      -- the pattern has a subscriber already, so the map has the node for it
      rw [firstForPattern_iff hindexed] at hfirst
      refine ⟨.inr, ?_⟩
      rintro (rfl | hhas)
      · exact hown.mpr (ne_none_iff_isSome.mp hfirst)
      · exact hhas

theorem follows_unsubscribe (hindexed : b.Indexed) (p : TopicPattern) (key : String)
    (hstored : (b.stored p.raw key).isSome = true) (node : String) (routes : RouteMap) :
    Follows b (b.unsubscribe p key) node routes
      (if (b.remaining p key).entries = [] then notifyUnsubscribe routes node p.raw
        else routes) := by
  refine ⟨hindexed.unsubscribe p key, fun pattern k hk => ?_, fun pattern hown => ?_⟩
  · split_ifs
    · rw [Bool.eq_iff_iff, has_notifyUnsubscribe]
      simp [hk]
    · rfl
  · rw [lookup_byPattern_unsubscribe]
    have hthere : (b.byPattern.lookup p.raw).isSome = true := by
      obtain ⟨pid, hpid⟩ := isSome_iff_exists.mp hstored
      obtain ⟨subs, hsubs, -⟩ := bind_eq_some_iff.mp hpid
      rw [hsubs]
      rfl
    by_cases hlast : (b.remaining p key).entries = []
    · rw [if_pos hlast, has_notifyUnsubscribe, hown]
      by_cases hpattern : pattern = p.raw
      · simp [hpattern, hlast]
      · simp [hpattern]
    · rw [if_neg hlast, hown]
      by_cases hpattern : pattern = p.raw
      · subst hpattern
        simp [hlast, hthere]
      · simp [hpattern]

theorem follows_handler (hindexed : b.Indexed) (cmd : BrokerCommand π)
    (ask : Option AskRequestContext) (node : String) (routes : RouteMap) :
    Follows b (b.handler cmd ask).1 node routes
      ((b.handler cmd ask).2.foldl (notify node) routes) := by
  have hstep : b.step (cmd, ask) = some ((b.handler cmd ask).1, (b.handler cmd ask).2) := rfl
  cases effect_step hstep with
  | none hb hes =>
    rw [hb, notify_quiet hes]
    exact ⟨hindexed, fun _ _ _ => rfl, fun _ hown => hown⟩
  | subscribed pid raw p ask' hmsg hp hb hes =>
    rw [hb, hes, foldl_notify_report]
    have hfollows := follows_subscribe hindexed hp pid node routes
    split_ifs at hfollows ⊢ <;> exact hfollows
  | unsubscribed pid raw p ask' hmsg hp hstored hb hes =>
    rw [hb, hes, foldl_notify_report]
    have hfollows := follows_unsubscribe hindexed p pid.key hstored node routes
    split_ifs at hfollows ⊢ <;> exact hfollows

/-! ### Runs -/

/-- The tables of the brokers are in order, and the map has every member for the patterns it
has subscribers for. -/
structure Routed (s : Interest) : Prop where
  indexed : ∀ node, (s.brokers node).Indexed
  registered : ∀ node, s.members node = true → s.Registered node

theorem routed_new (members : String → Bool) : (new members).Routed where
  indexed _ := indexed_new
  registered _ _ _ := by simp [new, holds, Broker.new]

variable {s : Interest}

theorem Routed.command (hr : s.Routed) (node : String) (cmd : BrokerCommand π)
    (ask : Option AskRequestContext) : Routed { s with
      brokers := update s.brokers node ((s.brokers node).handler cmd ask).1
      routes := ((s.brokers node).handler cmd ask).2.foldl (notify node) s.routes } := by
  have hfollows := follows_handler (hr.indexed node) cmd ask node s.routes
  refine ⟨fun k => ?_, fun k hk pattern => ?_⟩
  · by_cases hnode : k = node
    · subst hnode
      simp only [update_self]
      exact hfollows.indexed
    · simp only [update_of_ne hnode]
      exact hr.indexed k
  · by_cases hnode : k = node
    · subst hnode
      simp only [holds, update_self]
      exact hfollows.own pattern (hr.registered k hk pattern)
    · simp only [holds, update_of_ne hnode, hfollows.others pattern k hnode]
      exact hr.registered k hk pattern

theorem Routed.handle (hr : s.Routed)
    (hfits : type.departs = true → s.members member = true → ∀ pattern, ¬ s.holds member pattern) :
    Routed { s with routes := onMembershipChange s.routes type member } := by
  refine ⟨hr.indexed, fun k hk pattern => ?_⟩
  by_cases hmember : k = member
  · subst hmember
    by_cases hdeparts : type.departs = true
    · -- a member without subscribers is in no set, before and after
      refine iff_of_false (fun hhas => ?_) (hfits hdeparts hk pattern)
      exact hfits hdeparts hk pattern
        ((hr.registered k hk pattern).mp (has_of_onMembershipChange hhas))
    · simp only [onMembershipChange, hdeparts, Bool.false_and, Bool.false_eq_true, if_false]
      exact hr.registered k hk pattern
  · simp only [has_onMembershipChange _ type member pattern k hmember]
    exact hr.registered k hk pattern

theorem Routed.step {s' : Interest} {a : InterestAction π} (hr : s.Routed) (hfits : s.Fits a)
    (h : s.step a = some (s', es)) : s'.Routed := by
  cases a with
  | command node cmd ask =>
    cases h
    exact hr.command node cmd ask
  | depart member =>
    cases h
    refine ⟨hr.indexed, fun k hk => hr.registered k ?_⟩
    by_cases hk' : k = member
    · simp [hk'] at hk
    · simpa [hk'] using hk
  | join member =>
    cases h
    refine ⟨hr.indexed, fun k hk => ?_⟩
    by_cases hk' : k = member
    · rw [hk']
      exact hfits
    · exact hr.registered k (by simpa [hk'] using hk)
  | handle node type member =>
    cases h
    exact hr.handle hfits

/-- **Whom a broadcast reaches.** If membership events fit, a topic is sent to each other member
with a subscriber whose pattern matches, exactly if each of them has a subscriber for the topic
itself. -/
theorem reaches_iff {members : String → Bool} {tr : List (BrokerEvent π)} {s : Interest}
    (hrun : Run step Fits (new members) tr s) {β : Type} {codec : RoutedCodec π β}
    {node publisherNode : String} (topic : AcceptedTopic) {payload : π}
    {envs : List (RoutedEnvelope β)}
    (hsent : broadcast codec s.routes node topic.raw payload publisherNode = some envs) :
    (∀ k, k ≠ node → s.members k = true → s.Interested k topic → ∃ env ∈ envs, env.targetNode = k) ↔
    ∀ k, k ≠ node → s.members k = true → s.Interested k topic → s.holds k topic.raw := by
  have hrouted : s.Routed :=
    hrun.invariant_state Routed (routed_new members) fun _ _ _ _ hr hfits h => hr.step hfits h
  have htarget : ∀ k, k ≠ node → s.members k = true →
      ((∃ env ∈ envs, env.targetNode = k) ↔ s.holds k topic.raw) := by
    intro k hne hk
    rw [target_broadcast hsent, hrouted.registered k hk topic.raw]
    simp [hne]
  constructor
  · intro hreaches k hne hk hint
    exact (htarget k hne hk).mp (hreaches k hne hk hint)
  · intro hholds k hne hk hint
    exact (htarget k hne hk).mpr (hholds k hne hk hint)

def twoMembers (node : String) : Bool := node = "n1" || node = "n2"

def payloadCodec : RoutedCodec ℕ ℕ := ⟨some, fun msg => some msg.payload⟩

def topicAB : AcceptedTopic := ⟨"a.b", ["a", "b"], by decide +kernel⟩

def subscribeOnSecond (pattern : String) : InterestAction ℕ :=
  .command "n2" (.subscribe ⟨"n2", "w", 1⟩ pattern)
    (some ⟨"ask-1", ⟨"__ask_reply@n2", "ask-1", 1⟩⟩)

/-- A publication on the first node reaches a subscriber for its topic on the second. -/
theorem reaches_literal_pattern :
    ∃ (es : List (BrokerEvent ℕ)) (s : Interest) (envs : List (RoutedEnvelope ℕ)),
      Run step Fits (new twoMembers) es s ∧
        broadcast payloadCodec s.routes "n1" "a.b" 7 "n1" = some envs ∧
        s.Interested "n2" topicAB ∧
        ∀ k, k ≠ "n1" → s.members k = true → s.Interested k topicAB →
          ∃ env ∈ envs, env.targetNode = k := by
  have hend : (step (new twoMembers) (subscribeOnSecond "a.b")).bind
      (fun r => (broadcast payloadCodec r.1.routes "n1" "a.b" 7 "n1").map fun _ =>
        ((r.1.brokers "n2").byPattern.lookup "a.b").isSome) = some true := by
    decide +kernel
  obtain ⟨⟨s, es⟩, hstep, hend⟩ := bind_eq_some_iff.mp hend
  obtain ⟨envs, hsent, hholds⟩ := map_eq_some_iff.mp hend
  have hmembers : s.members = twoMembers := by
    cases hstep
    rfl
  have hfits : (new twoMembers).Fits (subscribeOnSecond "a.b") := trivial
  have hrun : Run step Fits (new twoMembers) ([] ++ es) s := .step .refl hfits hstep
  refine ⟨_, s, envs, hrun, hsent, ⟨"a.b", hholds, ?_⟩, ?_⟩
  · have hsplit : splitDots "a.b" = ["a", "b"] := by decide +kernel
    rw [hsplit]
    simp [Matches, topicAB]
  · refine (reaches_iff hrun topicAB hsent).mpr fun k hne hk _ => ?_
    rw [hmembers, twoMembers] at hk
    have hsecond : k = "n2" := by simpa [hne] using hk
    rw [hsecond]
    exact hholds

/-- The second node has a subscriber for `a.#`. A publication on `a.b`, which this matches,
is sent to nobody. -/
theorem wildcard_not_reached : ∃ (es : List (BrokerEvent ℕ)) (s : Interest),
      Run step Fits (new twoMembers) es s ∧ s.members "n2" = true ∧ s.Interested "n2" topicAB ∧
        broadcast payloadCodec s.routes "n1" "a.b" 7 "n1" = some [] := by
  have hend : (step (new twoMembers) (subscribeOnSecond "a.#")).map (fun r =>
      (r.1.members "n2", ((r.1.brokers "n2").byPattern.lookup "a.#").isSome,
        broadcast payloadCodec r.1.routes "n1" "a.b" 7 "n1")) = some (true, true, some []) := by
    decide +kernel
  obtain ⟨⟨s, es⟩, hstep, hend⟩ := map_eq_some_iff.mp hend
  simp only [Prod.mk.injEq] at hend
  obtain ⟨hmember, hholds, hsent⟩ := hend
  have hfits : (new twoMembers).Fits (subscribeOnSecond "a.#") := trivial
  have hrun : Run step Fits (new twoMembers) ([] ++ es) s := .step .refl hfits hstep
  refine ⟨_, s, hrun, hmember, ⟨"a.#", hholds, ?_⟩, hsent⟩
  have hsplit : splitDots "a.#" = ["a", "#"] := by decide +kernel
  rw [hsplit]
  simp [Matches, topicAB]

end Interest
end Westcoast
