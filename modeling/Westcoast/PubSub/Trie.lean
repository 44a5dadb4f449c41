import Mathlib.Data.List.Induction
import Westcoast.Actor.PID
import Westcoast.Lib.Assoc
import Westcoast.PubSub.Pattern

/-!
# The subscription trie

`pubsub_trie.go`. A node has literal edges, one `+` edge, the subscribers whose pattern ends at it
(`exact`) and those whose pattern goes on with a final `#` (`tail`). `recorded key segs node` is the
subscriber kept under a key at the place of a pattern. An insert changes one key at one place, or
none if the pattern ends in `+` (`recorded_insert`), and a walk takes the first subscriber recorded
for a pattern that matches its topic (`lookup_walk`).
-/
namespace Westcoast

open Lib List Option AList

/-- Subscribers by `PID.key`. -/
abbrev Subscribers := AList (fun _ : String => PID)

/-- `trieNode`, with a list for the map of its children. -/
inductive TrieNode
  | mk (children : List (Σ _ : String, TrieNode)) (star : Option TrieNode)
      (exact tail : Subscribers)

namespace TrieNode

def children : TrieNode → List (Σ _ : String, TrieNode)
  | mk children _ _ _ => children

def star : TrieNode → Option TrieNode
  | mk _ star _ _ => star

def exact : TrieNode → Subscribers
  | mk _ _ exact _ => exact

def tail : TrieNode → Subscribers
  | mk _ _ _ tail => tail

def new : TrieNode := mk [] none ∅ ∅

def child (node : TrieNode) (seg : String) : Option TrieNode := node.children.dlookup seg

/-- `node.exact[pid.Key()] = pid` -/
def addExact (node : TrieNode) (pid : PID) : TrieNode :=
  mk node.children node.star (node.exact.insert pid.key pid) node.tail

/-- The node a literal edge leads to; it records the subscriber when the segment is the last. -/
def literalNext (pid : PID) (rest : List String) (edge : Option TrieNode) : TrieNode :=
  if rest = [] then (edge.getD new).addExact pid else edge.getD new

/-- The segment loop of `insert`. -/
def insert (pid : PID) : List String → TrieNode → TrieNode
  | [], node => node
  | seg :: rest, node =>
    if seg = "#" then mk node.children node.star node.exact (node.tail.insert pid.key pid)
    else if seg = "+" then
      -- The source goes to the next segment here, past the test for the last one.
      mk node.children (some (insert pid rest (node.star.getD new))) node.exact node.tail
    else
      mk (node.children.kinsert seg (insert pid rest (literalNext pid rest (node.child seg))))
        node.star node.exact node.tail

/-- The closure of `match`: what is visited later replaces. -/
def walk : List String → Option TrieNode → Subscribers → Subscribers
  | _, none, results => results
  | [], some node, results => node.exact ∪ (node.tail ∪ results)
  | seg :: rest, some node, results =>
    walk rest node.star (walk rest (node.child seg) (node.tail ∪ results))

end TrieNode

/-- `match`, in some order of its map. -/
def matchTopic (root : TrieNode) (topic : List String) : List PID :=
  (TrieNode.walk topic (some root) ∅).entries.map Sigma.snd

def insertAll (subs : List (AcceptedPattern × PID)) : TrieNode :=
  subs.foldl (fun root x => root.insert x.2 x.1.pattern.segments) .new

namespace TrieNode

theorem child_mk (children : List (Σ _ : String, TrieNode)) (star : Option TrieNode)
    (exact tail : Subscribers) (seg : String) :
    (mk children star exact tail).child seg = children.dlookup seg := rfl

theorem child_kinsert {node : TrieNode} {star : Option TrieNode} {exact tail : Subscribers}
    {next : TrieNode} {seg t : String} :
    (mk (node.children.kinsert seg next) star exact tail).child t =
      if t = seg then some next else node.child t := by
  by_cases ht : t = seg
  · subst ht
    rw [if_pos rfl, child_mk, dlookup_kinsert]
  · rw [if_neg ht, child_mk, dlookup_kinsert_ne ht]
    rfl

/-- The subscriber kept under `key` at the place of a pattern. -/
def recorded (key : String) : List String → TrieNode → Option PID
  | [], node => node.exact.lookup key
  | seg :: rest, node =>
    if seg = "#" then node.tail.lookup key
    else if seg = "+" then node.star.bind fun next => recorded key rest next
    else (node.child seg).bind fun next => recorded key rest next

variable (key : String) (segs : List String)

@[simp] theorem recorded_new : recorded key segs new = none := by
  cases segs with
  | nil => rfl
  | cons seg rest =>
    simp only [recorded]
    split_ifs <;> rfl

theorem recorded_getD (edge : Option TrieNode) :
    recorded key segs (edge.getD new) = edge.bind fun next => recorded key segs next := by
  cases edge <;> simp

theorem recorded_addExact (pid : PID) (node : TrieNode) : recorded key segs (node.addExact pid) =
      if segs = [] ∧ key = pid.key then some pid else recorded key segs node := by
  cases segs with
  | nil =>
    simp [recorded, addExact, exact, lookup_insert_ite]
  | cons seg rest => simp [recorded, addExact, tail, star, child, children]

theorem recorded_insert (pid : PID) (segs : List String) :
    ∀ (segs' : List String) (node : TrieNode), segs ≠ [] → TailOnly segs → TailOnly segs' →
      recorded key segs' (insert pid segs node) =
        if segs' = segs ∧ segs.getLast? ≠ some "+" ∧ key = pid.key then some pid
        else recorded key segs' node := by
  induction segs with
  | nil => exact fun _ _ hne => absurd rfl hne
  | cons seg rest ih =>
    intro segs' node _ htail htail'
    cases segs' with
    | nil =>
      rw [if_neg (by simp)]
      simp only [insert]
      split_ifs <;> rfl
    | cons seg' rest' =>
      by_cases hhash : seg = "#"
      · obtain rfl := htail.1 hhash
        subst hhash
        simp only [insert, if_true]
        by_cases hhash' : seg' = "#"
        · obtain rfl := htail'.1 hhash'
          subst hhash'
          simp [recorded, tail, lookup_insert_ite]
        · simp [recorded, hhash', star, child, children]
      by_cases hplus : seg = "+"
      · subst hplus
        simp only [insert, if_neg hhash, if_true]
        by_cases hplus' : seg' = "+"
        · subst hplus'
          simp only [recorded, if_neg hhash, if_true, star, Option.bind_some, List.cons.injEq,
            true_and]
          by_cases hrest : rest = []
          · -- the source never records a pattern that ends in `+`
            subst hrest
            rw [if_neg (by simp)]
            exact recorded_getD key rest' node.star
          · rw [ih rest' _ hrest htail.2 htail'.2, getLast?_cons_of_ne_nil hrest]
            split_ifs
            · rfl
            · exact recorded_getD key rest' node.star
        · rw [if_neg (by simp [hplus'])]
          simp [recorded, hplus', tail, child, children]
      · simp only [insert, if_neg hhash, if_neg hplus]
        by_cases hseg' : seg' = seg
        · subst hseg'
          simp only [recorded, if_neg hhash, if_neg hplus, child_kinsert, if_true,
            Option.bind_some, List.cons.injEq, true_and]
          by_cases hrest : rest = []
          · subst hrest
            simp only [insert, literalNext, if_true, recorded_addExact]
            simp [hplus, recorded_getD]
          · rw [ih rest' _ hrest htail.2 htail'.2, getLast?_cons_of_ne_nil hrest,
              literalNext, if_neg hrest]
            split_ifs
            · rfl
            · exact recorded_getD key rest' (node.child seg')
        · rw [if_neg (by simp [hseg'])]
          simp only [recorded, child_kinsert, if_neg hseg']
          rfl

/-- The patterns that match a topic, in the order of their places: those a walk comes to last, whose
subscribers replace the others, stand first. -/
def walked : List String → List (List String)
  | [] => [[], ["#"]]
  | seg :: rest => (walked rest).map ("+" :: ·) ++ (walked rest).map (seg :: ·) ++ [["#"]]

theorem mem_walked {topic : List String} (hplain : Plain topic) {segs : List String} :
    segs ∈ walked topic ↔ TailOnly segs ∧ Matches segs topic := by
  induction topic generalizing segs with
  | nil =>
    cases segs with
    | nil => simp [walked, TailOnly, Matches]
    | cons seg rest =>
      by_cases hhash : seg = "#" <;> simp +contextual [walked, TailOnly, Matches, hhash]
  | cons t ts ih =>
    have hts : Plain ts := fun seg hseg => hplain seg (mem_cons_of_mem _ hseg)
    obtain ⟨hhash', -⟩ := hplain t mem_cons_self
    cases segs with
    | nil => simp [walked, Matches]
    | cons seg rest =>
      by_cases hhash : seg = "#"
      · subst hhash
        simp +contextual [walked, TailOnly, Matches, hhash']
      · simp [walked, TailOnly, Matches, hhash, ih hts]
        tauto

/-- **What a walk collects** under a key: the first subscriber recorded for a pattern that matches
the topic. -/
theorem lookup_walk {topic : List String} (hplain : Plain topic) (edge : Option TrieNode)
    (results : Subscribers) : (walk topic edge results).lookup key =
      ((walked topic).findSome? fun segs => recorded key segs (edge.getD new)).or
        (results.lookup key) := by
  have hnone (topic) : ((walked topic).findSome? fun segs => recorded key segs new) = none :=
    findSome?_eq_none_iff.mpr fun segs _ => recorded_new key segs
  induction topic generalizing edge results with
  | nil =>
    cases edge with
    | none => rw [walk, getD_none, hnone, none_or]
    | some node =>
      have hplaces : walked [] = [[]] ++ [["#"]] := rfl
      rw [walk, hplaces, findSome?_append, findSome?_singleton, findSome?_singleton]
      simp [recorded, lookup_union_or, Option.or_assoc]
  | cons seg rest ih =>
    obtain ⟨hhash, hplus⟩ := hplain seg mem_cons_self
    have hrest : Plain rest := fun seg hseg => hplain seg (mem_cons_of_mem _ hseg)
    cases edge with
    | none => rw [walk, getD_none, hnone, none_or]
    | some node =>
      rw [walk, ih hrest, ih hrest, lookup_union_or]
      simp [walked, recorded, findSome?_append, findSome?_map, hhash, hplus, Function.comp_def,
        recorded_getD, Option.or_assoc]

/-- Subscribers are recorded under their own keys. -/
def Keyed (node : TrieNode) : Prop :=
  ∀ key segs pid, TailOnly segs → recorded key segs node = some pid → key = pid.key

end TrieNode

open TrieNode

section
variable {root : TrieNode} {topic : AcceptedTopic} {key : String} {pid : PID}

theorem lookup_matched : (walk topic.segments (some root) ∅).lookup key =
    (walked topic.segments).findSome? fun segs => recorded key segs root := by
  rw [lookup_walk key topic.plain, lookup_empty, Option.or_none]
  rfl

theorem recorded_of_matched (h : (walk topic.segments (some root) ∅).lookup key = some pid) :
    ∃ segs, TailOnly segs ∧ Matches segs topic.segments ∧ recorded key segs root = some pid := by
  rw [lookup_matched] at h
  obtain ⟨segs, hmem, hrec⟩ := exists_of_findSome?_eq_some h
  obtain ⟨htail, hmatch⟩ := (mem_walked topic.plain).mp hmem
  exact ⟨segs, htail, hmatch, hrec⟩

theorem matched_of_recorded {segs : List String} (htail : TailOnly segs)
    (hmatch : Matches segs topic.segments) (hrec : (recorded key segs root).isSome = true) :
    key ∈ walk topic.segments (some root) ∅ := by
  rw [← lookup_isSome, lookup_matched, findSome?_isSome_iff]
  exact ⟨segs, (mem_walked topic.plain).mpr ⟨htail, hmatch⟩, hrec⟩

theorem TrieNode.Keyed.map_key_matchTopic (h : root.Keyed) (topic : AcceptedTopic) :
    (matchTopic root topic.segments).map PID.key = (walk topic.segments (some root) ∅).keys := by
  rw [matchTopic, List.map_map, AList.keys, List.keys]
  refine map_congr_left fun e he => ?_
  obtain ⟨segs, htail, -, hrec⟩ := recorded_of_matched (mem_lookup_iff.mpr he)
  exact (h e.1 segs e.2 htail hrec).symm

theorem TrieNode.Keyed.nodup_matchTopic (h : root.Keyed) (topic : AcceptedTopic) :
    ((matchTopic root topic.segments).map PID.key).Nodup := by
  rw [h.map_key_matchTopic]
  exact keys_nodup _

/-- Tries that record the same under a key match alike under it. -/
theorem lookup_matched_congr {root' : TrieNode}
    (h : ∀ segs, TailOnly segs → root.recorded key segs = root'.recorded key segs)
    (topic : AcceptedTopic) : (walk topic.segments (some root) ∅).lookup key =
      (walk topic.segments (some root') ∅).lookup key := by
  rw [lookup_matched, lookup_matched, ← head?_filterMap, ← head?_filterMap,
    filterMap_congr fun segs hmem => h segs ((mem_walked topic.plain).mp hmem).1]

end

theorem matchTopic_perm {node node' : TrieNode}
    (hrec : ∀ key segs, TailOnly segs → node.recorded key segs = node'.recorded key segs)
    (topic : AcceptedTopic) :
    (matchTopic node topic.segments).Perm (matchTopic node' topic.segments) := by
  refine List.Perm.map _ (lookup_ext (AList.nodupKeys _) (AList.nodupKeys _) fun key pid => ?_)
  exact iff_of_eq (congrArg (pid ∈ ·) (lookup_matched_congr (hrec key) topic))

variable {pid : PID}

theorem mem_map_snd_entries {results : Subscribers} :
    pid ∈ results.entries.map Sigma.snd ↔ ∃ key, results.lookup key = some pid := by
  constructor
  · intro h
    obtain ⟨e, he, rfl⟩ := mem_map.mp h
    exact ⟨e.1, mem_lookup_iff.mpr he⟩
  · rintro ⟨key, h⟩
    exact mem_map.mpr ⟨⟨key, pid⟩, mem_lookup_iff.mp h, rfl⟩

variable {subs : List (AcceptedPattern × PID)} {topic : AcceptedTopic} {key : String}

/-- **What `insert` loses.** All patterns are recorded but those that end in `+`. -/
theorem recorded_insertAll {segs : List String} (htail : TailOnly segs) :
    (∀ pid, recorded key segs (insertAll subs) = some pid → ∃ x ∈ subs, pid = x.2 ∧
      segs = x.1.pattern.segments ∧ x.1.pattern.segments.getLast? ≠ some "+" ∧ key = x.2.key) ∧
    ((∃ x ∈ subs, segs = x.1.pattern.segments ∧ x.1.pattern.segments.getLast? ≠ some "+" ∧
      key = x.2.key) → (recorded key segs (insertAll subs)).isSome = true) := by
  induction subs using List.reverseRecOn with
  | nil => simp [insertAll]
  | append_singleton subs x ih =>
    have hins := recorded_insert key x.2 _ segs (insertAll subs) x.1.wellFormed.1 x.1.wellFormed.2
      htail
    rw [insertAll, foldl_append, ← insertAll, foldl_cons, foldl_nil, hins]
    split_ifs with hx
    · refine ⟨fun pid hpid => ⟨x, by simp, (some.inj hpid).symm, hx⟩, fun _ => rfl⟩
    · constructor
      · intro pid hpid
        obtain ⟨y, hy, hrec⟩ := ih.1 pid hpid
        exact ⟨y, mem_append_left _ hy, hrec⟩
      · rintro ⟨y, hy, hrec⟩
        rcases mem_append.mp hy with hy | hy
        · exact ih.2 ⟨y, hy, hrec⟩
        · cases mem_singleton.mp hy
          exact absurd hrec hx

theorem keyed_insertAll (subs : List (AcceptedPattern × PID)) : (insertAll subs).Keyed := by
  intro key segs pid htail hrec
  obtain ⟨x, -, rfl, -, -, hkey⟩ := (recorded_insertAll htail).1 pid hrec
  exact hkey

theorem mem_matchTopic (h : pid ∈ matchTopic (insertAll subs) topic.segments) :
    ∃ x ∈ subs, x.2 = pid ∧ Matches x.1.pattern.segments topic.segments ∧
      x.1.pattern.segments.getLast? ≠ some "+" := by
  obtain ⟨key, hkey⟩ := mem_map_snd_entries.mp h
  obtain ⟨segs, htail, hmatch, hrec⟩ := recorded_of_matched hkey
  obtain ⟨x, hx, rfl, rfl, hlast, -⟩ := (recorded_insertAll htail).1 pid hrec
  exact ⟨x, hx, rfl, hmatch, hlast⟩

theorem mem_map_key_matchTopic : key ∈ (matchTopic (insertAll subs) topic.segments).map PID.key ↔
      ∃ x ∈ subs, key = x.2.key ∧ Matches x.1.pattern.segments topic.segments ∧
        x.1.pattern.segments.getLast? ≠ some "+" := by
  constructor
  · intro h
    obtain ⟨pid, hpid, rfl⟩ := mem_map.mp h
    obtain ⟨x, hx, rfl, hmatch⟩ := mem_matchTopic hpid
    exact ⟨x, hx, rfl, hmatch⟩
  · rintro ⟨x, hx, hkey, hmatch, hlast⟩
    rw [(keyed_insertAll subs).map_key_matchTopic, ← AList.mem_keys]
    exact matched_of_recorded x.1.wellFormed.2 hmatch
      ((recorded_insertAll x.1.wellFormed.2).2 ⟨x, hx, rfl, hlast, hkey⟩)

/-- A match should return every subscriber of a matching pattern once per key, and no other. -/
structure CorrectMatch (subs : List (AcceptedPattern × PID)) (topic : List String)
    (out : List PID) : Prop where
  once : (out.map PID.key).Nodup
  sound : ∀ pid ∈ out, ∃ x ∈ subs, x.2 = pid ∧ Matches x.1.pattern.segments topic
  complete : ∀ x ∈ subs, Matches x.1.pattern.segments topic → x.2.key ∈ out.map PID.key

/-- **When matching is right.** The match of a topic is the reference result exactly when every
subscriber with a matching pattern that ends in `+` also inserted one that does not. -/
theorem matchTopic_correct_iff (subs : List (AcceptedPattern × PID)) (topic : AcceptedTopic) :
    CorrectMatch subs topic.segments (matchTopic (insertAll subs) topic.segments) ↔
      ∀ x ∈ subs, Matches x.1.pattern.segments topic.segments →
        x.1.pattern.segments.getLast? = some "+" →
          ∃ y ∈ subs, y.2.key = x.2.key ∧ Matches y.1.pattern.segments topic.segments ∧
            y.1.pattern.segments.getLast? ≠ some "+" := by
  constructor
  · intro h x hx hmatch _
    obtain ⟨y, hy, hkey, hdel⟩ := mem_map_key_matchTopic.mp (h.complete x hx hmatch)
    exact ⟨y, hy, hkey.symm, hdel⟩
  · intro h
    refine ⟨(keyed_insertAll subs).nodup_matchTopic topic, ?_, ?_⟩
    · intro pid hpid
      obtain ⟨x, hx, hxpid, hmatch, -⟩ := mem_matchTopic hpid
      exact ⟨x, hx, hxpid, hmatch⟩
    · intro x hx hmatch
      rw [mem_map_key_matchTopic]
      by_cases hlast : x.1.pattern.segments.getLast? = some "+"
      · obtain ⟨y, hy, hkey, hy'⟩ := h x hx hmatch hlast
        exact ⟨y, hy, hkey.symm, hy'⟩
      · exact ⟨x, hx, rfl, hmatch, hlast⟩

/-- A subscriber to `a.+` gets nothing published on `a.b`. -/
theorem matchTopic_misses_final_plus : ∃ (p : AcceptedPattern) (pid : PID) (topic : AcceptedTopic),
      p.pattern.raw = "a.+" ∧ topic.raw = "a.b" ∧ Matches p.pattern.segments topic.segments ∧
        matchTopic (insertAll [(p, pid)]) topic.segments = [] ∧
        ¬ CorrectMatch [(p, pid)] topic.segments
          (matchTopic (insertAll [(p, pid)]) topic.segments) := by
  have hmatch : Matches ["a", "+"] ["a", "b"] := by simp [Matches]
  refine ⟨⟨⟨"a.+", ["a", "+"]⟩, by decide⟩, ⟨"n", "s", 1⟩, ⟨"a.b", ["a", "b"], by decide⟩,
    rfl, rfl, hmatch, rfl, ?_⟩
  intro h
  have hmem := h.complete _ mem_cons_self hmatch
  exact absurd hmem not_mem_nil

end Westcoast
