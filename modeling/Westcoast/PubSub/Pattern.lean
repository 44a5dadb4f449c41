import Mathlib.Data.List.Basic

/-!
# Topic patterns and publish topics

`pubsub_pattern.go`. Topics are dot-separated segments; a pattern may use `+` for one segment and a
final `#` for any number of them. `Matches` is the meaning of a pattern, stated on its segments.
-/
namespace Westcoast

/-- The errors of the two parsers. The second topic error also carries the raw
topic. -/
inductive PubSubError
  | invalidPattern
  | invalidTopic
  | invalidTopicIn (raw : String)
  deriving DecidableEq

def PubSubError.error : PubSubError → String
  | .invalidPattern => "pubsub_invalid_pattern"
  | .invalidTopic => "pubsub_invalid_topic"
  | .invalidTopicIn raw => "pubsub_invalid_topic: " ++ raw

def isSpace (c : Char) : Bool :=
  c.toNat ∈ [0x09, 0x0a, 0x0b, 0x0c, 0x0d, 0x20, 0x85, 0xa0, 0x1680, 0x2028, 0x2029, 0x202f,
    0x205f, 0x3000] ∨ (0x2000 ≤ c.toNat ∧ c.toNat ≤ 0x200a)

def trimSpace (s : String) : String :=
  String.ofList ((s.toList.dropWhile isSpace).reverse.dropWhile isSpace).reverse

/-- `strings.Split(raw, ".")` -/
def splitDots (raw : String) : List String := (raw.toList.splitOn '.').map String.ofList

structure TopicPattern where
  raw : String
  segments : List String
  deriving DecidableEq

def checkPattern : List String → Except PubSubError Unit
  | [] => .ok ()
  | seg :: rest =>
    if seg = "" then .error .invalidPattern
    else if '+' ∈ seg.toList ∧ seg ≠ "+" then .error .invalidPattern
    else if '#' ∈ seg.toList ∧ seg ≠ "#" then .error .invalidPattern
    else if seg = "#" ∧ rest ≠ [] then .error .invalidPattern
    else checkPattern rest

def parseTopicPattern (raw : String) : Except PubSubError TopicPattern :=
  if trimSpace raw = "" then .error .invalidPattern
  else do
    checkPattern (splitDots raw)
    return ⟨raw, splitDots raw⟩

def checkTopic (raw : String) : List String → Except PubSubError Unit
  | [] => .ok ()
  | seg :: rest =>
    if seg = "" ∨ seg = "+" ∨ seg = "#" then .error .invalidTopic
    else if '+' ∈ seg.toList ∨ '#' ∈ seg.toList then .error (.invalidTopicIn raw)
    else checkTopic raw rest

def parsePublishTopic (raw : String) : Except PubSubError (List String) :=
  if trimSpace raw = "" then .error .invalidTopic
  else do
    checkTopic raw (splitDots raw)
    return splitDots raw

structure AcceptedPattern where
  pattern : TopicPattern
  accepted : parseTopicPattern pattern.raw = .ok pattern

/-- A topic `parsePublishTopic` returns, with its segments. -/
structure AcceptedTopic where
  raw : String
  segments : List String
  accepted : parsePublishTopic raw = .ok segments

/-- A literal segment stands for itself, `+` for one segment, a final `#` for zero or more. -/
def Matches : List String → List String → Prop
  | [], topic => topic = []
  | seg :: rest, topic =>
    if seg = "#" then rest = []
    else
      match topic with
      | [] => False
      | t :: ts => (seg = "+" ∨ seg = t) ∧ Matches rest ts

def TailOnly : List String → Prop
  | [] => True
  | seg :: rest => (seg = "#" → rest = []) ∧ TailOnly rest

theorem tailOnly_of_checkPattern {segs : List String} (h : checkPattern segs = .ok ()) :
    TailOnly segs := by
  induction segs with
  | nil => trivial
  | cons seg rest ih =>
    simp only [checkPattern] at h
    split_ifs at h with hempty hplus hhash htail
    refine ⟨?_, ih h⟩
    intro hseg
    by_contra hrest
    exact htail ⟨hseg, hrest⟩

theorem splitDots_ne_nil (raw : String) : splitDots raw ≠ [] := by
  simp only [splitDots, ne_eq, List.map_eq_nil_iff]
  exact List.splitOn_ne_nil _ _

theorem parseTopicPattern_eq_ok {raw : String} {p : TopicPattern} : parseTopicPattern raw = .ok p ↔
      trimSpace raw ≠ "" ∧ checkPattern (splitDots raw) = .ok () ∧ ⟨raw, splitDots raw⟩ = p := by
  unfold parseTopicPattern
  split_ifs with hblank
  · simp [hblank]
  · cases hcheck : checkPattern (splitDots raw) <;>
      simp [hblank, bind, pure, Except.bind, Except.pure]

theorem parsePublishTopic_eq_ok {raw : String} {segs : List String} :
    parsePublishTopic raw = .ok segs ↔
      trimSpace raw ≠ "" ∧ checkTopic raw (splitDots raw) = .ok () ∧ splitDots raw = segs := by
  unfold parsePublishTopic
  split_ifs with hblank
  · simp [hblank]
  · cases hcheck : checkTopic raw (splitDots raw) <;>
      simp [hblank, bind, pure, Except.bind, Except.pure]

theorem AcceptedPattern.segments_eq (p : AcceptedPattern) :
    p.pattern.segments = splitDots p.pattern.raw :=
  congrArg TopicPattern.segments (parseTopicPattern_eq_ok.mp p.accepted).2.2.symm

theorem AcceptedPattern.wellFormed (p : AcceptedPattern) :
    p.pattern.segments ≠ [] ∧ TailOnly p.pattern.segments := by
  obtain ⟨-, hcheck, hp⟩ := parseTopicPattern_eq_ok.mp p.accepted
  rw [← hp]
  exact ⟨splitDots_ne_nil _, tailOnly_of_checkPattern hcheck⟩

theorem splitDots_injective {raw raw' : String} (h : splitDots raw = splitDots raw') :
    raw = raw' := by
  have hlists : raw.toList.splitOn '.' = raw'.toList.splitOn '.' := by
    refine List.map_injective_iff.mpr (fun a b hab => ?_) h
    simpa using congrArg String.toList hab
  have htext := congrArg (fun parts => ['.'].intercalate parts) hlists
  simp only [List.intercalate_splitOn] at htext
  exact String.toList_injective htext

/-- No segment is a wildcard. -/
def Plain (segs : List String) : Prop := ∀ seg ∈ segs, seg ≠ "#" ∧ seg ≠ "+"

theorem checkTopic_eq_ok (raw : String) (segs : List String) :
    checkTopic raw segs = .ok () ↔ checkPattern segs = .ok () ∧ Plain segs := by
  unfold Plain
  induction segs with
  | nil => simp [checkTopic, checkPattern]
  | cons seg rest ih =>
    rw [checkTopic, checkPattern, List.forall_mem_cons]
    by_cases hempty : seg = ""
    · simp [hempty]
    by_cases hplus : seg = "+"
    · simp [hplus]
    by_cases hhash : seg = "#"
    · simp [hhash]
    by_cases hwild : '+' ∈ seg.toList ∨ '#' ∈ seg.toList
    · rcases hwild with hin | hin <;> simp [hempty, hplus, hhash, hin]
    · rw [not_or] at hwild
      simp [hempty, hplus, hhash, hwild.1, hwild.2, ih]

theorem AcceptedTopic.plain (topic : AcceptedTopic) : Plain topic.segments := by
  obtain ⟨-, hcheck, hsegs⟩ := parsePublishTopic_eq_ok.mp topic.accepted
  rw [← hsegs]
  exact ((checkTopic_eq_ok _ _).mp hcheck).2

end Westcoast
