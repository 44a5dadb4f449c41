import Westcoast.PubSub.Trie

/-!
# Topics as patterns

The two parsers of `pubsub_pattern.go` check their segments separately. A topic is a pattern without
wildcards, and as a pattern it matches itself alone.
-/
namespace Westcoast

open List

theorem intercalate_splitDots (raw : String) : ".".intercalate (splitDots raw) = raw := by
  refine String.toList_injective ?_
  rw [String.toList_intercalate, splitDots, map_map]
  simp [Function.comp_def]

theorem matches_iff_of_plain {segs : List String} (h : Plain segs) (topic : List String) :
    Matches segs topic ↔ segs = topic := by
  induction segs generalizing topic with
  | nil => simp [Matches, eq_comm]
  | cons seg rest ih =>
    obtain ⟨hhash, hplus⟩ := h seg mem_cons_self
    have hrest : Plain rest := fun s hs => h s (mem_cons_of_mem _ hs)
    cases topic with
    | nil => simp [Matches, hhash]
    | cons t ts => simp [Matches, hhash, hplus, ih hrest]

theorem matchTopic_single (p : AcceptedPattern) (hplain : Plain p.pattern.segments) (pid : PID)
    (topic : AcceptedTopic) : matchTopic (insertAll [(p, pid)]) topic.segments =
      if p.pattern.segments = topic.segments then [pid] else [] := by
  have hlast : p.pattern.segments.getLast? ≠ some "+" :=
    fun hlast => (hplain _ (mem_of_getLast? hlast)).2 rfl
  have hkeys : ∀ key, key ∈ (matchTopic (insertAll [(p, pid)]) topic.segments).map PID.key ↔
      key = pid.key ∧ p.pattern.segments = topic.segments := by
    intro key
    simp [mem_map_key_matchTopic, matches_iff_of_plain hplain, hlast]
  have hpids : ∀ q ∈ matchTopic (insertAll [(p, pid)]) topic.segments, q = pid := by
    intro q hq
    obtain ⟨x, hx, rfl, -⟩ := mem_matchTopic hq
    rw [mem_singleton.mp hx]
  have hnodup : (matchTopic (insertAll [(p, pid)]) topic.segments).Nodup :=
    .of_map PID.key ((keyed_insertAll _).nodup_matchTopic topic)
  split_ifs with heq
  · refine perm_singleton.mp ((perm_ext_iff_of_nodup hnodup (nodup_singleton _)).mpr fun q => ?_)
    rw [mem_singleton]
    refine ⟨hpids q, ?_⟩
    rintro rfl
    obtain ⟨q', hq', -⟩ := mem_map.mp ((hkeys _).mpr ⟨rfl, heq⟩)
    exact hpids q' hq' ▸ hq'
  · refine eq_nil_iff_forall_not_mem.mpr fun q hq => heq ?_
    exact ((hkeys q.key).mp (mem_map_of_mem hq)).2

/-- **Topics are the patterns without wildcards**: the parsers agree on them and on their segments,
which join to the text, and a topic inserted as a pattern matches itself and no other topic. -/
theorem publishTopic_iff_pattern (raw : String) : ((∃ segs, parsePublishTopic raw = .ok segs) ↔
      (∃ p, parseTopicPattern raw = .ok p) ∧ Plain (splitDots raw)) ∧
    ∀ segs, parsePublishTopic raw = .ok segs →
      parseTopicPattern raw = .ok ⟨raw, segs⟩ ∧ ".".intercalate segs = raw ∧
      ∀ (p : AcceptedPattern) (pid : PID) (topic : AcceptedTopic), p.pattern.raw = raw →
        matchTopic (insertAll [(p, pid)]) topic.segments =
          if topic.raw = raw then [pid] else [] := by
  simp only [parsePublishTopic_eq_ok, parseTopicPattern_eq_ok, checkTopic_eq_ok]
  refine ⟨?_, ?_⟩
  · constructor
    · rintro ⟨_, hne, ⟨hcheck, hplain⟩, -⟩
      exact ⟨⟨_, hne, hcheck, rfl⟩, hplain⟩
    · rintro ⟨⟨_, hne, hcheck, -⟩, hplain⟩
      exact ⟨_, hne, ⟨hcheck, hplain⟩, rfl⟩
  · rintro _ ⟨hne, ⟨hcheck, hplain⟩, rfl⟩
    refine ⟨⟨hne, hcheck, rfl⟩, intercalate_splitDots raw, ?_⟩
    rintro p pid topic rfl
    have ht : splitDots topic.raw = topic.segments :=
      (parsePublishTopic_eq_ok.mp topic.accepted).2.2
    rw [matchTopic_single p (p.segments_eq ▸ hplain), p.segments_eq, ← ht]
    refine if_congr ⟨fun h => (splitDots_injective h).symm, fun h => by rw [h]⟩ rfl rfl

end Westcoast
