import Westcoast.PubSub.Broker

/-!
# Identifiers that share a key

The resolver and the broker keep their entries under `Key`, which puts a colon between the namespace
and the actor ID. Either may have colons of its own, so two actors can have one key
(`undisturbed_iff`).
-/
namespace Westcoast

open Lib AList

inductive ResolverOp
  | register
  | setState (state : PIDRouteState)
  | bumpGeneration
  | remove

/-- The operation on an identifier, in the generation it has then. -/
def InMemoryPIDResolver.apply (p : PID) (r : InMemoryPIDResolver) (op : ℕ × ResolverOp) :
    InMemoryPIDResolver :=
  let pid := { p with generation := op.1 }
  match op.2 with
  | .register => r.register pid
  | .setState state => r.setState pid state
  | .bumpGeneration => ((r.bumpGeneration pid).map (·.2)).getD r
  | .remove => r.remove pid

variable {π : Type}

/-- A command to subscribe or unsubscribe an identifier, in whatever generation. -/
def BrokerCommand.IsFor (p : PID) : BrokerCommand π → Prop
  | .subscribe pid _ | .unsubscribe pid _ => pid = { p with generation := pid.generation }
  | _ => False

variable {p q : PID}

theorem resolve_apply (hkey : p.key ≠ q.key) (r : InMemoryPIDResolver) (op : ℕ × ResolverOp) :
    (r.apply p op).resolve q = r.resolve q := by
  obtain ⟨generation, op⟩ := op
  have hne : q.key ≠ PID.key { p with generation := generation } := hkey.symm
  cases op with
  | register | setState state => exact lookup_insert_ne hne
  | remove => exact lookup_erase_ne hne
  | bumpGeneration =>
    simp only [InMemoryPIDResolver.apply, InMemoryPIDResolver.bumpGeneration, Option.map_map]
    cases r.resolve { p with generation := generation } with
    | none => rfl
    | some entry => exact lookup_insert_ne hne

namespace Broker

/-- The identifier under the key that a publication on the topic goes to. -/
def delivered (trie : TrieNode) (topic : AcceptedTopic) (key : String) : Option PID :=
  (TrieNode.walk topic.segments (some trie) ∅).lookup key

/-- The subscriptions under the key: in both tables, and where publications go. -/
structure SameSubscriptions (key : String) (b b' : Broker) : Prop where
  stored : ∀ pattern, b'.stored pattern key = b.stored pattern key
  patterns : b'.bySubscriber.lookup key = b.bySubscriber.lookup key
  delivered : ∀ topic, delivered b'.trie topic key = delivered b.trie topic key

/-- The trie sends publications to what the table by pattern has under the key. It does not if the
key was subscribed again in another generation and the trie has not been made anew since. -/
def UpToDate (key : String) (b : Broker) : Prop :=
  ∀ topic, delivered b.trie topic key = delivered (rebuildTrie b.byPattern) topic key

variable {b b' : Broker} {key : String}

theorem delivered_congr {trie trie' : TrieNode}
    (h : ∀ segs, TailOnly segs → trie.recorded key segs = trie'.recorded key segs)
    (topic : AcceptedTopic) : delivered trie topic key = delivered trie' topic key :=
  lookup_matched_congr h topic

theorem delivered_rebuild (hb : b.Indexed) (hb' : b'.Indexed)
    (h : ∀ pattern, b'.stored pattern key = b.stored pattern key) (topic : AcceptedTopic) :
    delivered (rebuildTrie b'.byPattern) topic key =
      delivered (rebuildTrie b.byPattern) topic key :=
  delivered_congr (hb'.rebuild.agree hb.rebuild h) topic

theorem Indexed.step {msg : BrokerCommand π × Option AskRequestContext} {es : List (BrokerEvent π)}
    (h : b.Indexed) (hstep : b.step msg = some (b', es)) : b'.Indexed := by
  cases effect_step hstep with
  | none hb => exact hb ▸ h
  | subscribed pid raw pattern ask hmsg hp hb => exact hb ▸ h.subscribe hp pid
  | unsubscribed pid raw pattern ask hmsg hp hstored hb => exact hb ▸ h.unsubscribe pattern pid.key

theorem sameSubscriptions_step (hkey : p.key ≠ q.key) (hb : b.Indexed) (hq : b.UpToDate q.key)
    {msg : BrokerCommand π × Option AskRequestContext} {es : List (BrokerEvent π)}
    (hfor : msg.1.IsFor p) (hstep : b.step msg = some (b', es)) :
    SameSubscriptions q.key b b' ∧ b'.UpToDate q.key := by
  have hne : ∀ {pid : PID}, pid = { p with generation := pid.generation } → q.key ≠ pid.key :=
    fun hpid heq => hkey (heq.trans (congrArg PID.key hpid)).symm
  have hb' := hb.step hstep
  cases effect_step hstep with
  | none hsame =>
    subst hsame
    exact ⟨⟨fun _ => rfl, rfl, fun _ => rfl⟩, hq⟩
  | subscribed pid raw pattern ask hmsg hp hsubscribe =>
    subst hmsg hsubscribe
    obtain ⟨rfl, hsegs, htail⟩ := parse_ok hp
    have hstored : ∀ pattern, (b.subscribe ⟨raw, splitDots raw⟩ pid).stored pattern q.key =
        b.stored pattern q.key :=
      fun _ => by rw [stored_subscribe, if_neg fun h => hne hfor h.2]
    have htrie : ∀ topic, delivered (b.subscribe ⟨raw, splitDots raw⟩ pid).trie topic q.key =
        delivered b.trie topic q.key := by
      refine delivered_congr fun segs hsegs' => ?_
      simp only [subscribe]
      split_ifs
      · rfl
      · rw [TrieNode.recorded_insert _ _ _ _ _ hsegs htail hsegs', if_neg fun h => hne hfor h.2.2]
    refine ⟨⟨hstored, lookup_insert_ne (hne hfor), htrie⟩, fun topic => ?_⟩
    rw [htrie, hq, delivered_rebuild hb hb' hstored]
  | unsubscribed pid raw pattern ask hmsg hp hhas hunsubscribe =>
    subst hmsg hunsubscribe
    have hstored : ∀ raw, (b.unsubscribe pattern pid.key).stored raw q.key = b.stored raw q.key :=
      fun _ => by rw [stored_unsubscribe, if_neg fun h => hne hfor h.2]
    refine ⟨⟨hstored, by rw [lookup_bySubscriber_unsubscribe, if_neg (hne hfor)], fun topic => ?_⟩,
      fun topic => rfl⟩
    -- the trie has been made anew
    exact (delivered_rebuild hb hb' hstored topic).trans (hq topic).symm

theorem sameSubscriptions_run (hkey : p.key ≠ q.key) (hb : b.Indexed) (hq : b.UpToDate q.key)
    {tr : List (BrokerEvent π)} (hrun : Run step (fun _ msg => msg.1.IsFor p) b tr b') :
    SameSubscriptions q.key b b' := by
  refine (hrun.invariant_state (fun b' => b'.Indexed ∧ b'.UpToDate q.key ∧
    SameSubscriptions q.key b b') ⟨hb, hq, fun _ => rfl, rfl, fun _ => rfl⟩ ?_).2.2
  rintro b1 msg b2 es ⟨hb1, hq1, h⟩ hfor hstep
  obtain ⟨h', hq2⟩ := sameSubscriptions_step hkey hb1 hq1 hfor hstep
  exact ⟨hb1.step hstep, hq2, fun pattern => (h'.stored pattern).trans (h.stored pattern),
    h'.patterns.trans h.patterns, fun topic => (h'.delivered topic).trans (h.delivered topic)⟩

/-- When the other identifier subscribes and unsubscribes, the trie is made anew. -/
theorem upToDate_of_same (hb : b.Indexed) (h : ∀ (b' : Broker) (tr : List (BrokerEvent π)),
      Run step (fun _ msg => msg.1.IsFor p) b tr b' → SameSubscriptions q.key b b') :
    b.UpToDate q.key := by
  let pattern : TopicPattern := ⟨"x", splitDots "x"⟩
  let b' := b.subscribe pattern p
  let ask : AskRequestContext := ⟨"", p⟩
  have hp : parseTopicPattern "x" = .ok pattern := by decide
  have hstored : (b'.stored "x" p.key).isSome = true := by
    rw [stored_subscribe, if_pos ⟨rfl, rfl⟩]
    rfl
  have hfirst : (b.step (π := π) (.subscribe p "x", some ask)).map (·.1) = some b' := by
    simp only [step, handler, handleSubscribe, hp, Option.map_some, b']
  have hsecond : (b'.step (π := π) (.unsubscribe p "x", some ask)).map (·.1) =
      some (b'.unsubscribe pattern p.key) := by
    simp only [step, handler, handleUnsubscribe, hp, pattern, hstored, if_true, Option.map_some]
  obtain ⟨⟨_, es⟩, hfirst, rfl⟩ := Option.map_eq_some_iff.mp hfirst
  obtain ⟨⟨_, es'⟩, hsecond, rfl⟩ := Option.map_eq_some_iff.mp hsecond
  have hfor : BrokerCommand.IsFor (π := π) p (.subscribe p "x") := rfl
  have hsame := h _ _ (.step (.step .refl hfor hfirst) hfor hsecond)
  have hb2 := (hb.step hfirst).step hsecond
  intro topic
  rw [← delivered_rebuild hb hb2 hsame.stored, ← hsame.delivered]
  rfl

end Broker

/-- Whatever is done with the first identifier, the entry of the second in the resolver and its
subscriptions with the broker stay. -/
def Undisturbed (π : Type) (p q : PID) (b : Broker) : Prop :=
  (∀ (r : InMemoryPIDResolver) (ops : List (ℕ × ResolverOp)),
    (ops.foldl (InMemoryPIDResolver.apply p) r).resolve q = r.resolve q) ∧
  ∀ (b' : Broker) (tr : List (BrokerEvent π)),
    Run Broker.step (fun _ msg => msg.1.IsFor p) b tr b' → Broker.SameSubscriptions q.key b b'

/-- An identifier is undisturbed by another one, exactly if their keys differ and its publications
go to what the broker's table has. -/
theorem undisturbed_iff {b : Broker} {tr : List (BrokerEvent π)}
    (hrun : Run Broker.step anyStep .new tr b) (p q : PID) :
    Undisturbed π p q b ↔ p.key ≠ q.key ∧ b.UpToDate q.key := by
  have hb : b.Indexed := hrun.invariant_state _ Broker.indexed_new fun _ _ _ _ h _ => h.step
  constructor
  · rintro ⟨hresolver, hbroker⟩
    have hkey : p.key ≠ q.key := by
      intro hkey
      have hsame := hresolver .new [(1, .register)]
      have hentry : (InMemoryPIDResolver.new.apply p (1, .register)).resolve q =
          some ⟨{ p with generation := 1 }, .reachable, 1⟩ := by
        rw [InMemoryPIDResolver.resolve, ← hkey]
        exact lookup_insert InMemoryPIDResolver.new.byKey
      rw [List.foldl_cons, List.foldl_nil, hentry] at hsame
      cases hsame
    exact ⟨hkey, Broker.upToDate_of_same hb hbroker⟩
  · rintro ⟨hkey, hq⟩
    refine ⟨fun r ops => ?_, fun b' tr hrun => Broker.sameSubscriptions_run hkey hb hq hrun⟩
    induction ops generalizing r with
    | nil => rfl
    | cons op ops ih => rw [List.foldl_cons, ih, resolve_apply hkey]

/-- One subscriber, and another actor of its node. -/
theorem undisturbed_iff_neighbours : ∃ (b : Broker) (tr : List (BrokerEvent String)),
    Run Broker.step anyStep .new tr b ∧ (b.stored "a.b" "n:w").isSome = true ∧
      (Undisturbed String ⟨"n", "v", 1⟩ ⟨"n", "w", 1⟩ b ↔
        (⟨"n", "v", 1⟩ : PID).key ≠ "n:w" ∧ b.UpToDate "n:w") :=
  Run.of_check_then [Broker.subscribeW 1 "a.b"] (by decide +kernel) fun tr b hrun hstored =>
    ⟨b, tr, hrun, hstored, undisturbed_iff hrun _ _⟩

/-- An actor `b:c` of `a` and an actor `c` of `a:b`: removing the one removes the other. -/
theorem colon_shared_key : ∃ p q : PID, p.validate = .ok () ∧ q.validate = .ok () ∧
      (p.ns, p.actorID) ≠ (q.ns, q.actorID) ∧ ¬ Undisturbed String p q .new := by
  refine ⟨⟨"a:b", "c", 1⟩, ⟨"a", "b:c", 1⟩, rfl, rfl, by decide, fun h => ?_⟩
  have hsame := h.1 (InMemoryPIDResolver.new.register ⟨"a", "b:c", 1⟩) [(1, .remove)]
  revert hsame
  decide

end Westcoast
