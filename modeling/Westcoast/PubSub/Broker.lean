import Mathlib.Data.Finset.Basic
import Westcoast.Actor.Ask
import Westcoast.Lib.Machine
import Westcoast.PubSub.Trie

/-!
# The broker

`pubsub_broker.go`. The broker keeps its subscriptions by pattern, by subscriber, and in a trie;
unsubscribing makes the trie anew. The keys of the subscribers leave the generation out, so the trie
may keep an identifier that the table by pattern has replaced (`trie_keeps_generation`). What the
broker sends, reports or asks of the cluster layer are events; that of the goroutine that sends a
publication is `dispatched`.
-/
namespace Westcoast

open Lib List Option

inductive BrokerOperation
  | subscribe
  | unsubscribe
  | publish

inductive BrokerOutcomeType
  | subscribeSuccess
  | unsubscribeSuccess
  | publishSuccess
  | invalidCommand
  | invalidPattern
  | invalidTopic
  | notFoundNoop
  deriving DecidableEq

/-- `BrokerCommandAck`; the source never sets its count of matches. -/
structure BrokerCommandAck where
  operation : BrokerOperation
  result : BrokerOutcomeType
  topicPattern : String
  reasonCode : String

/-- The messages of the broker; `other` is a payload it does not know. -/
inductive BrokerCommand (π : Type)
  | subscribe (subscriber : PID) (pattern : String)
  | unsubscribe (subscriber : PID) (pattern : String)
  | publish (topic : String) (payload : π) (publisherActorID : String)
  | remotePublish (topic : String) (payload : π) (publisherActorID : String)
  | other
  deriving DecidableEq

inductive BrokerEvent (π : Type)
  /-- `emitBroker` -/
  | emitted (operation : BrokerOperation) (topicPattern : String) (subscriber : PID)
      (result : BrokerOutcomeType) (reason : String)
  /-- `replyAsk` -/
  | replied (ask : AskRequestContext) (ack : BrokerCommandAck)
  /-- `pubsubOnSubscribe` and `pubsubOnUnsubscribe` -/
  | onSubscribe (pattern : String)
  | onUnsubscribe (pattern : String)
  /-- The targets of a publication. -/
  | dispatched (topic : String) (payload : π) (publisherActorID : String) (targets : List PID)
  /-- `pubsubBroadcast` -/
  | broadcast (topic : String) (payload : π)

/-- `pubsubBrokerService`: a trie and the tables it is rebuilt from. -/
structure Broker where
  trie : TrieNode
  byPattern : AList (fun _ : String => Subscribers)
  bySubscriber : AList (fun _ : String => Finset String)

namespace Broker

def new : Broker := ⟨.new, ∅, ∅⟩

def insertEntries (segs : List String) (trie : TrieNode) (entries : List (Σ _ : String, PID)) :
    TrieNode :=
  entries.foldl (fun trie e => trie.insert e.2 segs) trie

/-- One round of the loop of `rebuildTrieLocked`. -/
def insertPattern (trie : TrieNode) (e : Σ _ : String, Subscribers) : TrieNode :=
  match parseTopicPattern e.1 with
  | .error _ => trie
  | .ok p => insertEntries p.segments trie e.2.entries

/-- `rebuildTrieLocked`, from the table of patterns. -/
def rebuildTrie (byPattern : AList (fun _ : String => Subscribers)) : TrieNode :=
  byPattern.entries.foldl insertPattern .new

def stored (b : Broker) (pattern key : String) : Option PID :=
  (b.byPattern.lookup pattern).bind fun subs => subs.lookup key

/-- The part of `handleSubscribe` under the mutex. The trie keeps the first identifier. -/
def subscribe (b : Broker) (p : TopicPattern) (pid : PID) : Broker where
  trie := if (b.stored p.raw pid.key).isSome then b.trie else b.trie.insert pid p.segments
  byPattern := b.byPattern.insert p.raw
    (((b.byPattern.lookup p.raw).getD ∅).insert pid.key pid)
  bySubscriber := b.bySubscriber.insert pid.key
    (insert p.raw ((b.bySubscriber.lookup pid.key).getD ∅))

/-- Whether the pattern gets its first subscriber. -/
def firstForPattern (b : Broker) (p : TopicPattern) (pid : PID) : Bool :=
  (b.stored p.raw pid.key).isNone &&
    (((b.byPattern.lookup p.raw).getD ∅).insert pid.key pid).entries.length = 1

/-- The map of the pattern without the subscriber. -/
def remaining (b : Broker) (p : TopicPattern) (key : String) : Subscribers :=
  ((b.byPattern.lookup p.raw).getD ∅).erase key

/-- The part of `handleUnsubscribe` under the mutex, for a subscription that exists. -/
def unsubscribe (b : Broker) (p : TopicPattern) (key : String) : Broker :=
  let byPattern :=
    if (b.remaining p key).entries = [] then b.byPattern.erase p.raw
    else b.byPattern.insert p.raw (b.remaining p key)
  let patterns := ((b.bySubscriber.lookup key).getD ∅).erase p.raw
  let bySubscriber :=
    if patterns = ∅ then b.bySubscriber.erase key else b.bySubscriber.insert key patterns
  ⟨rebuildTrie byPattern, byPattern, bySubscriber⟩

variable {π : Type}

def report (operation : BrokerOperation) (pattern : String) (pid : PID) (ask : AskRequestContext)
    (result : BrokerOutcomeType) (reason : String) : List (BrokerEvent π) :=
  [.emitted operation pattern pid result reason, .replied ask ⟨operation, result, pattern, reason⟩]

def handleSubscribe (b : Broker) (pid : PID) (pattern : String) :
    Option AskRequestContext → Broker × List (BrokerEvent π)
  | none => (b, [.emitted .subscribe pattern pid .invalidCommand "pubsub_invalid_command"])
  | some ask =>
    match parseTopicPattern pattern with
    | .error _ =>
      (b, report .subscribe pattern pid ask .invalidPattern "pubsub_invalid_pattern")
    | .ok p =>
      (b.subscribe p pid, (if b.firstForPattern p pid then [.onSubscribe p.raw] else []) ++
        report .subscribe p.raw pid ask .subscribeSuccess "")

/-- `handleUnsubscribe`. With nothing to remove it is a no-op. -/
def handleUnsubscribe (b : Broker) (pid : PID) (pattern : String) :
    Option AskRequestContext → Broker × List (BrokerEvent π)
  | none => (b, [.emitted .unsubscribe pattern pid .invalidCommand "pubsub_invalid_command"])
  | some ask =>
    match parseTopicPattern pattern with
    | .error _ =>
      (b, report .unsubscribe pattern pid ask .invalidPattern "pubsub_invalid_pattern")
    | .ok p =>
      if (b.stored p.raw pid.key).isSome then
        (b.unsubscribe p pid.key,
          (if (b.remaining p pid.key).entries = [] then [.onUnsubscribe p.raw] else []) ++
            report .unsubscribe p.raw pid ask .unsubscribeSuccess "")
      else (b, report .unsubscribe p.raw pid ask .notFoundNoop "")

/-- `handlePublish`, with `dispatchPublish` up to the start of its goroutine. -/
def handlePublish (b : Broker) (topic : String) (payload : π) (publisherActorID : String)
    (isRemote : Bool) : List (BrokerEvent π) :=
  match parsePublishTopic topic with
  | .error _ => [.emitted .publish topic default .invalidTopic "pubsub_invalid_topic"]
  | .ok segs =>
    let targets := matchTopic b.trie segs
    (if targets = [] then [.emitted .publish topic default .publishSuccess ""]
      else [.dispatched topic payload publisherActorID targets]) ++
    if isRemote then [] else [.broadcast topic payload]

def handler (b : Broker) (cmd : BrokerCommand π) (ask : Option AskRequestContext) :
    Broker × List (BrokerEvent π) :=
  match cmd with
  | .subscribe pid pattern => b.handleSubscribe pid pattern ask
  | .unsubscribe pid pattern => b.handleUnsubscribe pid pattern ask
  | .publish topic payload publisher => (b, b.handlePublish topic payload publisher false)
  | .remotePublish topic payload publisher => (b, b.handlePublish topic payload publisher true)
  | .other =>
    (b, .emitted .publish "" default .invalidCommand "pubsub_invalid_command" ::
      ask.toList.map fun ask =>
        .replied ask ⟨.publish, .invalidCommand, "", "pubsub_invalid_command"⟩)

def step (b : Broker) (msg : BrokerCommand π × Option AskRequestContext) :
    Option (Broker × List (BrokerEvent π)) :=
  some (b.handler msg.1 msg.2)

/-! ### The table by pattern -/

variable {raw key pattern : String} {p : TopicPattern}

theorem parse_ok (h : parseTopicPattern raw = .ok p) :
    p = ⟨raw, splitDots raw⟩ ∧ splitDots raw ≠ [] ∧ TailOnly (splitDots raw) := by
  obtain ⟨-, hcheck, rfl⟩ := parseTopicPattern_eq_ok.mp h
  exact ⟨rfl, splitDots_ne_nil _, tailOnly_of_checkPattern hcheck⟩

theorem stored_subscribe (b : Broker) (p : TopicPattern) (pid : PID) (pattern key : String) :
    (b.subscribe p pid).stored pattern key =
      if pattern = p.raw ∧ key = pid.key then some pid else b.stored pattern key := by
  simp only [stored, subscribe, lookup_insert_ite]
  by_cases hpattern : pattern = p.raw
  · subst hpattern
    simp only [if_true, bind_some, lookup_insert_ite, true_and]
    split_ifs
    · rfl
    · cases b.byPattern.lookup p.raw <;> simp
  · simp [hpattern]

theorem lookup_byPattern_unsubscribe (b : Broker) (p : TopicPattern) (k pattern : String) :
    (b.unsubscribe p k).byPattern.lookup pattern =
      if pattern = p.raw then
        if (b.remaining p k).entries = [] then none else some (b.remaining p k)
      else b.byPattern.lookup pattern := by
  simp only [unsubscribe]
  by_cases hempty : (b.remaining p k).entries = []
  · simp only [if_pos hempty, lookup_erase_ite]
  · simp only [if_neg hempty, lookup_insert_ite]

theorem lookup_bySubscriber_unsubscribe (b : Broker) (p : TopicPattern) (k key : String) :
    (b.unsubscribe p k).bySubscriber.lookup key =
      if key = k then
        if ((b.bySubscriber.lookup k).getD ∅).erase p.raw = ∅ then none
        else some (((b.bySubscriber.lookup k).getD ∅).erase p.raw)
      else b.bySubscriber.lookup key := by
  simp only [unsubscribe]
  by_cases hempty : ((b.bySubscriber.lookup k).getD ∅).erase p.raw = ∅
  · simp only [if_pos hempty, lookup_erase_ite]
  · simp only [if_neg hempty, lookup_insert_ite]

theorem stored_unsubscribe (b : Broker) (p : TopicPattern) (k pattern key : String) :
    (b.unsubscribe p k).stored pattern key =
      if pattern = p.raw ∧ key = k then none else b.stored pattern key := by
  have hremaining : (b.remaining p k).lookup key =
      if key = k then none else b.stored p.raw key := by
    simp only [remaining, stored, lookup_erase_ite]
    cases b.byPattern.lookup p.raw <;> simp
  by_cases hpattern : pattern = p.raw
  · subst hpattern
    rw [stored, lookup_byPattern_unsubscribe, if_pos rfl]
    simp only [true_and, ← hremaining]
    split_ifs with hempty
    · have hnil : b.remaining p k = ∅ := AList.ext hempty
      simp [hnil]
    · rfl
  · rw [stored, lookup_byPattern_unsubscribe, if_neg hpattern, if_neg (by simp [hpattern]), stored]

/-- What the tables have in common, whatever the trie is. -/
structure Indexed (b : Broker) : Prop where
  keyed : ∀ pattern key pid, b.stored pattern key = some pid → pid.key = key
  accepted : ∀ pattern key pid, b.stored pattern key = some pid →
    parseTopicPattern pattern = .ok ⟨pattern, splitDots pattern⟩
  inverse : ∀ pattern key, (b.stored pattern key).isSome = true ↔
    ∃ patterns, b.bySubscriber.lookup key = some patterns ∧ pattern ∈ patterns
  patterns : ∀ pattern subs, b.byPattern.lookup pattern = some subs → subs.entries ≠ []
  subscribers : ∀ key patterns, b.bySubscriber.lookup key = some patterns → patterns ≠ ∅

theorem indexed_new : Indexed new where
  keyed := by simp [stored, new]
  accepted := by simp [stored, new]
  inverse := by simp [stored, new]
  patterns := by simp [new]
  subscribers := by simp [new]

variable {b b' : Broker}

theorem Indexed.subscribe (h : b.Indexed) (hp : parseTopicPattern raw = .ok p) (pid : PID) :
    (b.subscribe p pid).Indexed := by
  obtain ⟨rfl, -⟩ := parse_ok hp
  constructor
  case keyed =>
    intro pattern key q hq
    rw [stored_subscribe] at hq
    split_ifs at hq with hhere
    · rw [← some.inj hq, hhere.2]
    · exact h.keyed pattern key q hq
  case accepted =>
    intro pattern key q hq
    rw [stored_subscribe] at hq
    split_ifs at hq with hhere
    · rw [hhere.1]
      exact hp
    · exact h.accepted pattern key q hq
  case inverse =>
    intro pattern key
    rw [stored_subscribe]
    simp only [Broker.subscribe, lookup_insert_ite]
    by_cases hkey : key = pid.key
    · subst hkey
      by_cases hpattern : pattern = raw
      · simp [hpattern]
      · rw [if_neg (by simp [hpattern]), h.inverse]
        cases b.bySubscriber.lookup pid.key <;> simp [hpattern]
    · rw [if_neg (by simp [hkey]), if_neg hkey]
      exact h.inverse pattern key
  case patterns =>
    intro pattern subs hsubs
    simp only [Broker.subscribe, lookup_insert_ite] at hsubs
    split_ifs at hsubs
    · rw [← some.inj hsubs]
      exact cons_ne_nil _ _
    · exact h.patterns pattern subs hsubs
  case subscribers =>
    intro key patterns hpatterns
    simp only [Broker.subscribe, lookup_insert_ite] at hpatterns
    split_ifs at hpatterns
    · rw [← some.inj hpatterns]
      exact Finset.insert_ne_empty _ _
    · exact h.subscribers key patterns hpatterns

theorem Indexed.unsubscribe (h : b.Indexed) (p : TopicPattern) (k : String) :
    (b.unsubscribe p k).Indexed := by
  constructor
  case keyed =>
    intro pattern key q hq
    rw [stored_unsubscribe] at hq
    split_ifs at hq
    exact h.keyed pattern key q hq
  case accepted =>
    intro pattern key q hq
    rw [stored_unsubscribe] at hq
    split_ifs at hq
    exact h.accepted pattern key q hq
  case inverse =>
    intro pattern key
    have hold : (∃ patterns, b.bySubscriber.lookup key = some patterns ∧ pattern ∈ patterns) ↔
        pattern ∈ (b.bySubscriber.lookup key).getD ∅ := by
      cases b.bySubscriber.lookup key <;> simp
    have hnew : (∃ patterns, (b.unsubscribe p k).bySubscriber.lookup key = some patterns ∧
        pattern ∈ patterns) ↔
          if key = k then pattern ≠ p.raw ∧ pattern ∈ (b.bySubscriber.lookup key).getD ∅
          else pattern ∈ (b.bySubscriber.lookup key).getD ∅ := by
      by_cases hkey : key = k
      · subst hkey
        rw [if_pos rfl, ← Finset.mem_erase, lookup_bySubscriber_unsubscribe, if_pos rfl]
        split_ifs with hempty
        · simp [hempty]
        · simp
      · rw [if_neg hkey, ← hold, lookup_bySubscriber_unsubscribe, if_neg hkey]
    rw [stored_unsubscribe, hnew, ← hold, ← h.inverse]
    by_cases hkey : key = k <;> by_cases hpattern : pattern = p.raw <;> simp [hkey, hpattern]
  case patterns =>
    intro pattern subs hsubs
    rw [lookup_byPattern_unsubscribe] at hsubs
    split_ifs at hsubs with hpattern hempty
    · rw [← some.inj hsubs]
      exact hempty
    · exact h.patterns pattern subs hsubs
  case subscribers =>
    intro key patterns hpatterns
    rw [lookup_bySubscriber_unsubscribe] at hpatterns
    split_ifs at hpatterns with hkey hempty
    · rw [← some.inj hpatterns]
      exact hempty
    · exact h.subscribers key patterns hpatterns

/-! ### The trie -/

/-- The trie records what the table holds, but for the patterns that end in `+`. -/
structure Records (trie : TrieNode) (stored : String → String → Option PID) : Prop where
  own : ∀ pattern key, TailOnly (splitDots pattern) → trie.recorded key (splitDots pattern) =
      if (splitDots pattern).getLast? = some "+" then none else stored pattern key
  rest : ∀ key segs, TailOnly segs → (∀ pattern, splitDots pattern ≠ segs) →
    trie.recorded key segs = none

variable {trie trie' : TrieNode} {stored : String → String → Option PID}

theorem Records.agree {stored' : String → String → Option PID} (h : Records trie stored)
    (h' : Records trie' stored') (hkey : ∀ pattern, stored pattern key = stored' pattern key)
    (segs : List String) (htail : TailOnly segs) :
    trie.recorded key segs = trie'.recorded key segs := by
  by_cases hsegs : ∃ pattern, splitDots pattern = segs
  · obtain ⟨pattern, rfl⟩ := hsegs
    rw [h.own pattern key htail, h'.own pattern key htail, hkey]
  · have hno : ∀ pattern, splitDots pattern ≠ segs := fun pattern hp => hsegs ⟨pattern, hp⟩
    rw [h.rest key segs htail hno, h'.rest key segs htail hno]

theorem Records.update {stored' : String → String → Option PID} (h : Records trie stored)
    {k : String} {v : Option PID} (hstored : ∀ pattern key,
      stored' pattern key = if pattern = raw ∧ key = k then v else stored pattern key)
    (htrie : ∀ key segs, TailOnly segs → trie'.recorded key segs =
      if segs = splitDots raw ∧ (splitDots raw).getLast? ≠ some "+" ∧ key = k then v
      else trie.recorded key segs) :
    Records trie' stored' where
  own := by
    intro pattern key htail
    rw [htrie key _ htail, hstored, h.own pattern key htail]
    by_cases hpattern : pattern = raw
    · subst hpattern
      by_cases hplus : (splitDots pattern).getLast? = some "+" <;>
        by_cases hkey : key = k <;> simp [hplus, hkey]
    · have hsegs : splitDots pattern ≠ splitDots raw :=
        fun heq => hpattern (splitDots_injective heq)
      simp [hpattern, hsegs]
  rest := by
    intro key segs htail hno
    rw [htrie key segs htail, if_neg fun hhere => hno raw hhere.1.symm]
    exact h.rest key segs htail hno

theorem records_new : Records .new fun _ _ => none where
  own := by simp
  rest := by simp

/-- A rebuilt trie is made of the subscriptions of the table with a pattern that parses. -/
theorem exists_rebuildTrie (byPattern : AList fun _ : String => Subscribers) :
    ∃ subs : List (AcceptedPattern × PID), rebuildTrie byPattern = insertAll subs ∧
      ∀ x : AcceptedPattern × PID, x ∈ subs ↔ ∃ m : Subscribers,
        ⟨x.1.pattern.raw, m⟩ ∈ byPattern.entries ∧ ∃ key, ⟨key, x.2⟩ ∈ m.entries := by
  rw [rebuildTrie]
  induction byPattern.entries using List.reverseRecOn with
  | nil => exact ⟨[], rfl, by simp⟩
  | append_singleton entries e ih =>
    obtain ⟨subs, htrie, hmem⟩ := ih
    rw [foldl_append, foldl_cons, foldl_nil, htrie, Broker.insertPattern]
    cases hparse : parseTopicPattern e.1 with
    | error err =>
      refine ⟨subs, rfl, fun x => (hmem x).trans ?_⟩
      have hother (m) : ⟨x.1.pattern.raw, m⟩ ≠ e := by
        rintro rfl
        rw [x.1.accepted] at hparse
        cases hparse
      simp [hother]
    | ok p =>
      have hraw : p.raw = e.1 := congrArg TopicPattern.raw (parse_ok hparse).1
      refine ⟨subs ++ e.2.entries.map fun s => (⟨p, hraw ▸ hparse⟩, s.2), ?_, fun x => ?_⟩
      · rw [insertAll, insertAll, foldl_append, foldl_map]
        rfl
      · obtain ⟨⟨q, hq⟩, pid⟩ := x
        have hsame : p = q ↔ q.raw = e.1 := by
          refine ⟨fun heq => heq ▸ hraw, fun heq => ?_⟩
          rw [heq, hparse] at hq
          exact Except.ok.inj hq
        have hm (m) : (⟨q.raw, m⟩ : Σ _ : String, Subscribers) = e ↔ q.raw = e.1 ∧ m = e.2 := by
          rw [Sigma.ext_iff, heq_iff_eq]
        simp [hmem, hsame, hm, or_and_right, exists_or, and_assoc, and_comm (b := q.raw = e.1)]

/-- **A rebuilt trie records the table.** -/
theorem Indexed.rebuild (h : b.Indexed) : Records (rebuildTrie b.byPattern) b.stored := by
  obtain ⟨subs, htrie, hmem⟩ := exists_rebuildTrie b.byPattern
  rw [htrie]
  have hstored (x : AcceptedPattern × PID) :
      x ∈ subs ↔ b.stored x.1.pattern.raw x.2.key = some x.2 := by
    simp only [hmem, ← AList.mem_lookup_iff, stored, bind_eq_some_iff]
    refine exists_congr fun m => and_congr_right fun hm => ⟨?_, fun hkey => ⟨_, hkey⟩⟩
    rintro ⟨key, hkey⟩
    rw [h.keyed _ key x.2 (by rw [stored, hm]; exact hkey)]
    exact hkey
  constructor
  case own =>
    intro pattern key htail
    obtain ⟨hsome, hnone⟩ := @recorded_insertAll subs key _ htail
    cases hrec : (insertAll subs).recorded key (splitDots pattern) with
    | some pid =>
      obtain ⟨x, hx, rfl, hsegs, hlast, rfl⟩ := hsome pid hrec
      rw [x.1.segments_eq] at hsegs hlast
      rw [hsegs, if_neg hlast, splitDots_injective hsegs, (hstored x).mp hx]
    | none =>
      split_ifs with hlast
      · rfl
      · cases hold : b.stored pattern key with
        | none => rfl
        | some pid =>
          obtain rfl := h.keyed pattern key pid hold
          have hparse := h.accepted pattern pid.key pid hold
          have hx := (hstored (⟨⟨pattern, splitDots pattern⟩, hparse⟩, pid)).mpr hold
          rw [isSome_iff_ne_none, hrec] at hnone
          exact absurd rfl (hnone ⟨_, hx, rfl, hlast, rfl⟩)
  case rest =>
    intro key segs htail hno
    cases hrec : (insertAll subs).recorded key segs with
    | none => rfl
    | some pid =>
      obtain ⟨x, -, -, hsegs, -⟩ := (recorded_insertAll htail).1 pid hrec
      exact absurd (hsegs.trans x.1.segments_eq).symm (hno _)

/-! ### Runs -/

/-- The event tells of a change of the table. -/
def tells : BrokerEvent π → Bool
  | .emitted _ _ _ result _ => result = .subscribeSuccess || result = .unsubscribeSuccess
  | .onSubscribe _ | .onUnsubscribe _ => true
  | .replied _ _ | .dispatched _ _ _ _ | .broadcast _ _ => false

/-- A command that is accepted changes one entry of the table; the others change
nothing. -/
inductive Effect (b : Broker) (msg : BrokerCommand π × Option AskRequestContext) (b' : Broker)
    (es : List (BrokerEvent π)) : Prop
  | none (hb : b' = b) (hes : es.all (fun e => !tells e) = true)
  | subscribed (pid : PID) (raw : String) (p : TopicPattern) (ask : AskRequestContext)
      (hmsg : msg = (.subscribe pid raw, some ask)) (hp : parseTopicPattern raw = .ok p)
      (hb : b' = b.subscribe p pid)
      (hes : es = (if b.firstForPattern p pid then [.onSubscribe p.raw] else []) ++
        report .subscribe p.raw pid ask .subscribeSuccess "")
  | unsubscribed (pid : PID) (raw : String) (p : TopicPattern) (ask : AskRequestContext)
      (hmsg : msg = (.unsubscribe pid raw, some ask)) (hp : parseTopicPattern raw = .ok p)
      (hstored : (b.stored p.raw pid.key).isSome = true) (hb : b' = b.unsubscribe p pid.key)
      (hes : es = (if (b.remaining p pid.key).entries = [] then [.onUnsubscribe p.raw] else []) ++
        report .unsubscribe p.raw pid ask .unsubscribeSuccess "")

theorem tells_handlePublish (b : Broker) (topic : String) (payload : π) (publisher : String)
    (isRemote : Bool) :
    (b.handlePublish topic payload publisher isRemote).all (fun e => !tells e) = true := by
  simp only [handlePublish]
  split
  · rfl
  · rw [all_append]
    cases isRemote <;> split_ifs <;> rfl

variable {msg : BrokerCommand π × Option AskRequestContext} {es tr : List (BrokerEvent π)}

theorem effect_step (h : b.step msg = some (b', es)) : Effect b msg b' es := by
  obtain ⟨cmd, ask⟩ := msg
  simp only [step, some.injEq] at h
  cases cmd with
  | subscribe pid pattern =>
    cases ask with
    | none =>
      cases h
      exact .none rfl rfl
    | some ask =>
      simp only [handler, handleSubscribe] at h
      split at h
      · cases h
        exact .none rfl rfl
      · next p hp =>
        cases h
        exact .subscribed pid pattern p ask rfl hp rfl rfl
  | unsubscribe pid pattern =>
    cases ask with
    | none =>
      cases h
      exact .none rfl rfl
    | some ask =>
      simp only [handler, handleUnsubscribe] at h
      split at h
      · cases h
        exact .none rfl rfl
      · next p hp =>
        by_cases hstored : (b.stored p.raw pid.key).isSome = true
        · rw [if_pos hstored] at h
          cases h
          exact .unsubscribed pid pattern p ask rfl hp hstored rfl rfl
        · rw [if_neg hstored] at h
          cases h
          exact .none rfl rfl
  | publish topic payload publisher | remotePublish topic payload publisher =>
    cases h
    exact .none rfl (tells_handlePublish b topic payload publisher _)
  | other =>
    cases h
    exact .none rfl (by cases ask <;> rfl)

/-- What the reports say about an entry of the table. -/
def retell (pattern key : String) (before : Option PID) : BrokerEvent π → Option PID
  | .emitted .subscribe raw pid .subscribeSuccess _ =>
    if raw = pattern ∧ pid.key = key then some pid else before
  | .emitted .unsubscribe raw pid .unsubscribeSuccess _ =>
    if raw = pattern ∧ pid.key = key then none else before
  | _ => before

/-- The identifier of the latest subscription that was accepted and not undone. -/
def latest (pattern key : String) (tr : List (BrokerEvent π)) : Option PID :=
  tr.foldl (retell pattern key) none

/-- The table has what was accepted last, the two tables are inverse, without empty maps, and the
trie matches like one made from the table. -/
structure Sound (tr : List (BrokerEvent π)) (b : Broker) : Prop where
  inverse : ∀ pattern key, (b.stored pattern key).isSome = true ↔
    ∃ patterns, b.bySubscriber.lookup key = some patterns ∧ pattern ∈ patterns
  patterns : ∀ pattern subs, b.byPattern.lookup pattern = some subs → subs.entries ≠ []
  subscribers : ∀ key patterns, b.bySubscriber.lookup key = some patterns → patterns ≠ ∅
  latest : ∀ pattern key, b.stored pattern key = latest pattern key tr
  matching : ∀ topic : AcceptedTopic,
    (matchTopic b.trie topic.segments).Perm (matchTopic (rebuildTrie b.byPattern) topic.segments)

/-- A subscription is renewed with the same identifier, unless the trie does not record its pattern.
-/
def renewsSame (b : Broker) : BrokerCommand π × Option AskRequestContext → Bool
  | (.subscribe pid raw, some _) =>
    (b.stored raw pid.key).all fun old => old = pid || (splitDots raw).getLast? = some "+"
  | _ => true

theorem retell_of_not_tells {before : Option PID} {e : BrokerEvent π} (he : tells e = false) :
    retell pattern key before e = before := by
  cases e with
  | emitted op raw pid result reason => cases op <;> cases result <;> first | rfl | cases he
  | replied | dispatched | broadcast => rfl
  | onSubscribe | onUnsubscribe => cases he

theorem latest_quiet (hes : es.all (fun e => !tells e) = true) :
    latest pattern key (tr ++ es) = latest pattern key tr := by
  rw [latest, foldl_append, ← latest]
  refine foldlRecOn (motive := (· = latest pattern key tr)) es _ rfl ?_
  rintro _ rfl e he
  exact retell_of_not_tells (by simpa using all_eq_true.mp hes e he)

theorem latest_subscribed (pattern key : String) (tr : List (BrokerEvent π)) (raw : String)
    (pid : PID) (ask : AskRequestContext) (first : Bool) :
    latest pattern key (tr ++ ((if first then [.onSubscribe raw] else []) ++
      report .subscribe raw pid ask .subscribeSuccess "")) =
        if pattern = raw ∧ key = pid.key then some pid else latest pattern key tr := by
  rw [latest, foldl_append, ← latest]
  cases first <;> simp [report, retell, eq_comm]

theorem latest_unsubscribed (pattern key : String) (tr : List (BrokerEvent π)) (raw : String)
    (pid : PID) (ask : AskRequestContext) (last : Prop) [Decidable last] :
    latest pattern key (tr ++ ((if last then [.onUnsubscribe raw] else []) ++
      report .unsubscribe raw pid ask .unsubscribeSuccess "")) =
        if pattern = raw ∧ key = pid.key then none else latest pattern key tr := by
  rw [latest, foldl_append, ← latest]
  by_cases hlast : last <;> simp [hlast, report, retell, eq_comm]

structure Kept (tr : List (BrokerEvent π)) (b : Broker) : Prop where
  indexed : b.Indexed
  records : Records b.trie b.stored
  latest : ∀ pattern key, b.stored pattern key = latest pattern key tr

theorem kept_step (hsame : renewsSame b msg = true) (hstep : b.step msg = some (b', es))
    (h : Kept tr b) : Kept (tr ++ es) b' := by
  cases effect_step hstep with
  | none hb hes =>
    subst hb
    refine ⟨h.indexed, h.records, fun pattern key => ?_⟩
    rw [latest_quiet hes]
    exact h.latest pattern key
  | subscribed pid raw p ask hmsg hp hb hes =>
    subst hmsg hb hes
    have hindexed := h.indexed.subscribe hp pid
    obtain ⟨rfl, hne, htail⟩ := parse_ok hp
    refine ⟨hindexed, ?_, fun pattern key => ?_⟩
    · refine h.records.update (v := some pid) (stored_subscribe b _ pid) fun key segs hsegs => ?_
      simp only [Broker.subscribe]
      cases hold : b.stored raw pid.key with
      | none =>
        simp only [isSome_none, Bool.false_eq_true, if_false]
        exact TrieNode.recorded_insert _ _ (splitDots raw) segs b.trie hne htail hsegs
      | some old =>
        -- the trie is left alone, so it has to record the identifier already
        simp only [isSome_some, if_true]
        split_ifs with hhere
        · obtain ⟨rfl, hplus, rfl⟩ := hhere
          simp only [renewsSame, hold, all_some, Bool.or_eq_true, decide_eq_true_eq,
            hplus, or_false] at hsame
          rw [h.records.own raw pid.key htail, if_neg hplus, hold, hsame]
        · rfl
    · rw [stored_subscribe, latest_subscribed, h.latest]
  | unsubscribed pid raw p ask hmsg hp hstored hb hes =>
    subst hmsg hb hes
    have hindexed := h.indexed.unsubscribe p pid.key
    refine ⟨hindexed, hindexed.rebuild, fun pattern key => ?_⟩
    rw [stored_unsubscribe, latest_unsubscribed, h.latest]

theorem kept_new : Kept ([] : List (BrokerEvent π)) new :=
  ⟨indexed_new, records_new, fun _ _ => rfl⟩

/-- **The broker has no memory of its own.** If renewals keep the identifier, what was accepted last
determines tables and trie. -/
theorem sound_of_run {tr : List (BrokerEvent π)} {b : Broker}
    (h : Run step (fun b msg => renewsSame b msg = true) new tr b) : Sound tr b := by
  have hkept : Kept tr b :=
    h.invariant Kept kept_new fun _ _ _ _ _ hk hsame hstep => kept_step hsame hstep hk
  refine ⟨hkept.indexed.inverse, hkept.indexed.patterns, hkept.indexed.subscribers,
    hkept.latest, ?_⟩
  exact matchTopic_perm fun key => hkept.records.agree hkept.indexed.rebuild fun _ => rfl

def subscribeW (generation : ℕ) (pattern : String) :
    BrokerCommand String × Option AskRequestContext :=
  (.subscribe ⟨"n", "w", generation⟩ pattern, some ⟨"ask-1", ⟨"__ask_reply", "ask-1", 1⟩⟩)

/-- Three patterns, one of them subscribed to twice and one given up again. -/
theorem sound_renewed : ∃ (tr : List (BrokerEvent String)) (b : Broker), Sound tr b ∧
      b.stored "a.b" "n:w" = some ⟨"n", "w", 1⟩ ∧
      b.stored "a.#" "n:w" = some ⟨"n", "w", 2⟩ ∧ b.stored "c" "n:w" = none :=
  Run.of_check_then [subscribeW 1 "a.b", subscribeW 1 "a.b", subscribeW 1 "c", subscribeW 2 "a.#",
      (.unsubscribe ⟨"n", "w", 2⟩ "c", (subscribeW 2 "c").2)] (by decide +kernel)
    fun tr b hrun hstored => ⟨tr, b, sound_of_run hrun, hstored⟩

/-- **The trie keeps the old generation** when an actor subscribes again after a restart, and
publications go to it. -/
theorem trie_keeps_generation :
    ∃ (tr : List (BrokerEvent String)) (b : Broker), Run step anyStep new tr b ∧
      b.stored "a.b" "n:w" = some ⟨"n", "w", 2⟩ ∧
      matchTopic b.trie ["a", "b"] = [⟨"n", "w", 1⟩] ∧
      matchTopic (rebuildTrie b.byPattern) ["a", "b"] = [⟨"n", "w", 2⟩] := by
  exact Run.of_check [subscribeW 1 "a.b", subscribeW 2 "a.b"] (by decide +kernel)

end Broker
end Westcoast
