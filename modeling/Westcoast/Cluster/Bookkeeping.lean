import Westcoast.Actor.PIDOutcomes
import Westcoast.Cluster.Desk

/-!
# How many closed requests are remembered

`askClosed` is written when a reply is matched and again when the call returns, and only the return
makes room, for one entry. An entry that goes while its caller waits comes back, and is one too
many.
-/
namespace Westcoast.Cluster

open Lib List AskTable AList Option Nat

variable {π : Type}

/-- Under the mutex: a call draws its number and enters its request, a reply is sent, a call
returns. -/
inductive DeskAction (π : Type)
  | draw (targetActor : String)
  | enter (k : ℕ)
  | reply (pid : PID) (reply : Reply π)
  | complete (k evict : ℕ)

namespace Desk

def step (nodeID : String) (d : Desk π) : DeskAction π → Option (Desk π × List Unit)
  | .draw targetActor => some (d.draw nodeID targetActor, [])
  | .enter k => d.drawn[k]?.map fun wait => (d.enter k wait, [])
  | .reply pid reply =>
    if askReplyHere nodeID pid then
      some ({ d with asks := (d.asks.routeAskReply pid reply).2 }, [])
    else none
  | .complete k evict => d.waits[k]?.map fun wait => (d.complete k wait evict, [])

def openIDs (d : Desk π) : List String := d.waits.map (·.requestID)

/-- The entries of `askClosed` whose calls have returned. -/
def settled (d : Desk π) : Finset String := d.asks.askClosed.keys.toFinset \ d.openIDs.toFinset

/-- The entry that gives way to that of a call that returns, if there are too many. -/
def evicted (d : Desk π) (wait : PendingAsk) (evict : ℕ) : Option String :=
  let closed := d.asks.askClosed.insert wait.requestID wait.targetActor
  if closed.keys.length > 4096 then some (closed.keys.getD (evict % closed.keys.length) "")
  else none

/-- The entry that is evicted is of no other call that still waits. -/
def Spares (d : Desk π) : DeskAction π → Prop
  | .complete k evict => ∀ wait ∈ d.waits[k]?, ∀ r ∈ d.evicted wait evict,
      ∀ w ∈ d.waits.eraseIdx k, w.requestID ≠ r
  | _ => True

/-- The maps agree, requests are pending only of calls that have not returned, and few entries are
settled. -/
structure Kept (nodeID : String) (d : Desk π) : Prop where
  ready : d.asks.Ready nodeID
  own : ∀ w ∈ d.drawn ++ d.waits, w.replyTo = replyAddress nodeID w.requestID
  pending : ∀ r, d.asks.pending r = true → r ∈ d.openIDs
  few : d.settled.card ≤ 4096

variable {nodeID : String} {d d' : Desk π}

theorem mem_settled {r : String} : r ∈ d.settled ↔ r ∈ d.asks.askClosed ∧ r ∉ d.openIDs := by
  simp [settled, AList.mem_keys]

theorem Kept.bound (h : d.Kept nodeID) : d.asks.askClosed.keys.length ≤ 4096 + d.waits.length := by
  have hcard := toFinset_card_of_nodup d.asks.askClosed.keys_nodup
  have hopen : d.openIDs.toFinset.card ≤ d.waits.length := by
    simpa [openIDs] using d.openIDs.toFinset_card_le
  have hsplit := Finset.card_le_card_sdiff_add_card
    (s := d.asks.askClosed.keys.toFinset) (t := d.openIDs.toFinset)
  have hfew := h.few
  rw [settled] at hfew
  omega

/-- No more entries are settled if the calls stay open and what is new is of an open call. -/
theorem Kept.few_of (h : d.Kept nodeID) (hopen : ∀ r ∈ d.openIDs, r ∈ d'.openIDs)
    (hclosed : ∀ r ∈ d'.asks.askClosed, r ∈ d.asks.askClosed ∨ r ∈ d'.openIDs) :
    d'.settled.card ≤ 4096 := by
  refine (Finset.card_le_card fun r hr => ?_).trans h.few
  obtain ⟨hmem, hnot⟩ := mem_settled.mp hr
  exact mem_settled.mpr ⟨(hclosed r hmem).resolve_right hnot, fun hr => hnot (hopen r hr)⟩

/-- A call returns: its entry is settled, and if there are too many, a settled one goes. -/
theorem Kept.complete {k evict : ℕ} {wait : PendingAsk} (h : d.Kept nodeID)
    (hk : d.waits[k]? = some wait)
    (hspares : ∀ r ∈ d.evicted wait evict, ∀ w ∈ d.waits.eraseIdx k, w.requestID ≠ r) :
    (d.complete k wait evict).Kept nodeID := by
  have hopen : ∀ r ∈ d.openIDs, r = wait.requestID ∨ r ∈ (d.complete k wait evict).openIDs := by
    intro r hr
    obtain ⟨w, hw, rfl⟩ := mem_map.mp hr
    obtain ⟨j, hj⟩ := mem_iff_getElem?.mp hw
    by_cases hjk : j = k
    · rw [hjk, hk] at hj
      exact .inl (by rw [some.inj hj])
    · exact .inr (mem_map.mpr ⟨w, mem_eraseIdx_iff_getElem?.mpr ⟨j, hjk, hj⟩, rfl⟩)
  have hto := h.own wait (mem_append_right _ (mem_of_getElem? hk))
  refine ⟨h.ready.complete hto evict, fun w hw => h.own w ?_, fun r hr => ?_, ?_⟩
  · exact mem_append.mpr ((mem_append.mp hw).imp_right mem_of_mem_eraseIdx)
  · rw [pending_of_erase (r := wait.requestID) rfl, Bool.and_eq_true,
      decide_eq_true_eq] at hr
    exact (hopen r (h.pending r hr.2)).resolve_left hr.1
  -- the entries after the insertion, and the one that gives way
  have hclosed : (d.complete k wait evict).asks.askClosed =
    trim (d.asks.askClosed.insert wait.requestID wait.targetActor) evict := rfl
  unfold trim at hclosed
  split_ifs at hclosed with hfull
  · generalize hv : (d.asks.askClosed.insert wait.requestID wait.targetActor).keys.getD _ "" = v
      at hclosed
    have hmem : v ∈ d.asks.askClosed.insert wait.requestID wait.targetActor := by
      rw [AList.mem_keys, ← hv, getD_eq_getElem _ _ (mod_lt _ (by omega))]
      exact getElem_mem _
    have hvictim : v ∈ insert wait.requestID d.settled := by
      rw [Finset.mem_insert, mem_settled, or_iff_not_imp_left]
      intro hw
      have hold := ((mem_insert _).mp hmem).resolve_left hw
      refine ⟨hold, fun hv' => ?_⟩
      obtain ⟨w, hwait, heq⟩ := mem_map.mp ((hopen v hv').resolve_left hw)
      refine hspares v ?_ w hwait heq
      simp only [evicted, if_pos hfull, hv, mem_some_iff]
    have hsub : (d.complete k wait evict).settled ⊆ (insert wait.requestID d.settled).erase v := by
      intro r hr
      rw [mem_settled, hclosed, mem_erase, mem_insert] at hr
      rw [Finset.mem_erase, Finset.mem_insert, mem_settled, or_iff_not_imp_left]
      obtain ⟨⟨hne, hold⟩, hnot⟩ := hr
      exact ⟨hne, fun hw => ⟨hold.resolve_left hw, fun hr => hnot ((hopen r hr).resolve_left hw)⟩⟩
    have hcard := Finset.card_le_card hsub
    rw [Finset.card_erase_of_mem hvictim] at hcard
    have hinsert := Finset.card_insert_le wait.requestID d.settled
    have hfew := h.few
    omega
  · -- no more entries than the limit
    have hall := Finset.card_le_card
      (Finset.sdiff_subset (s := (d.complete k wait evict).asks.askClosed.keys.toFinset)
        (t := (d.complete k wait evict).openIDs.toFinset))
    have hkeys := toFinset_card_le (d.complete k wait evict).asks.askClosed.keys
    rw [hclosed] at hkeys hall
    simp only [settled, hclosed]
    omega

theorem Kept.step {a : DeskAction π} {es : List Unit} (h : d.Kept nodeID)
    (hspares : d.Spares a) (hs : d.step nodeID a = some (d', es)) : d'.Kept nodeID := by
  cases a with
  | draw targetActor =>
    cases hs
    refine ⟨h.ready.draw, fun w hw => ?_, h.pending, h.few⟩
    simp only [draw, mem_append, mem_singleton] at hw
    rcases hw with (hw | rfl) | hw
    · exact h.own w (mem_append_left _ hw)
    · rfl
    · exact h.own w (mem_append_right _ hw)
  | enter k =>
    obtain ⟨wait, hk, heq⟩ := map_eq_some_iff.mp hs
    cases heq
    have hto := h.own wait (mem_append_left _ (mem_of_getElem? hk))
    have hopen : (d.enter k wait).openIDs = d.openIDs ++ [wait.requestID] := by
      simp [enter, openIDs]
    refine ⟨h.ready.enter hto, fun w hw => ?_, fun r hr => ?_, h.few_of ?_ fun r => .inl⟩
    · simp only [enter, mem_append, mem_singleton] at hw
      rcases hw with hw | hw | rfl
      · exact h.own w (mem_append_left _ (mem_of_mem_eraseIdx hw))
      · exact h.own w (mem_append_right _ hw)
      · exact hto
    · rw [enter, pending_enter, Bool.or_eq_true, decide_eq_true_eq] at hr
      rw [hopen, mem_append, mem_singleton]
      exact hr.symm.imp_left (h.pending r)
    · intro r hr
      rw [hopen]
      exact mem_append_left _ hr
  | reply pid reply =>
    obtain ⟨hhere, heq⟩ := ite_none_right_eq_some.mp hs
    cases heq
    have hreplied := replied h.ready hhere reply
    have hready := hreplied.ready h.ready
    generalize (d.asks.routeAskReply pid reply).2 = asks at hreplied hready
    generalize (d.asks.routeAskReply pid reply).1 = outcome at hreplied
    have hclose : ∀ {w : PendingAsk} {t : AskTable π}, AskTable.Taken nodeID d.asks pid w t →
        asks.askWait = t.askWait → asks.askClosed = t.askClosed →
        Kept nodeID { d with asks := asks } := by
      intro w t htaken hwait hclosed
      rw [htaken.asks] at hwait hclosed
      refine ⟨hready, h.own, fun r hr => ?_, h.few_of (fun r => id) fun r hr => ?_⟩
      · rw [pending_of_erase hwait, Bool.and_eq_true] at hr
        exact h.pending r hr.2
      · simp only [hclosed] at hr
        refine ((mem_insert _).mp hr).symm.imp_right fun heq => ?_
        rw [heq]
        exact h.pending _ htaken.pending
    cases hreplied with
    | late | stray => exact h
    | mismatch htaken => exact hclose htaken rfl rfl
    | answered htaken env => exact hclose htaken rfl rfl
  | complete k evict =>
    obtain ⟨wait, hk, heq⟩ := map_eq_some_iff.mp hs
    cases heq
    exact h.complete hk (hspares wait hk)

/-- **The bookkeeping is bounded**, if only entries of returned calls give way: at most 4096 entries
more than other calls. -/
theorem askClosed_bounded {tr : List Unit}
    (hrun : Run (step nodeID) Spares (⟨.new, [], [], []⟩ : Desk π) tr d) :
    d.asks.askClosed.keys.length ≤ 4096 + (d.drawn ++ d.waits).length := by
  have hkept := hrun.invariant_state (Kept nodeID)
    ⟨ready_new nodeID, by simp, fun _ hr => (by cases hr), zero_le _⟩
    fun _ _ _ _ h hg hs => h.step hg hs
  have hbound := hkept.bound
  rw [length_append]
  omega

/-! ## Filling the table -/

def giveUp (t : AskTable String) (evict : ℕ) : AskTable String :=
  (t.draw.enter (t.nextRequest "" "b")).completeAskRequest (t.nextRequest "" "b") evict

section
variable {guard : Desk String → DeskAction String → Prop}

theorem run_snoc {d d₁ d₂ : Desk String} (hrun : Run (step "") guard d [] d₁)
    (a : DeskAction String) (hg : guard d₁ a) (hs : d₁.step "" a = some (d₂, [])) :
    Run (step "") guard d [] d₂ :=
  .step hrun hg hs

variable (hdraw : ∀ d targetActor, guard d (.draw targetActor))
  (henter : ∀ d k, guard d (.enter k)) (t : AskTable String)
include hdraw henter

theorem run_enter (waits : List PendingAsk) : Run (step "") guard ⟨t, [], waits, []⟩ []
      ⟨t.draw.enter (t.nextRequest "" "b"), [], waits ++ [t.nextRequest "" "b"], []⟩ :=
  run_snoc (run_snoc .refl (.draw "b") (hdraw _ _) rfl) (.enter 0) (henter _ _) rfl

theorem run_giveUp (waits : List PendingAsk) (evict : ℕ)
    (hg : ∀ d : Desk String, d.waits.eraseIdx waits.length = waits →
      guard d (.complete waits.length evict)) :
    Run (step "") guard ⟨t, [], waits, []⟩ [] ⟨giveUp t evict, [], waits, []⟩ := by
  refine run_snoc (run_enter hdraw henter t waits) (.complete waits.length evict)
    (hg _ (by simp [eraseIdx_append_of_length_le])) ?_
  simp [step, Desk.complete, giveUp, eraseIdx_append_of_length_le]

end

/-- A call that nobody waits beside evicts no entry of a call that waits. -/
theorem run_giveUp_alone (t : AskTable String) (evict : ℕ) :
    Run (step "") Spares ⟨t, [], [], []⟩ [] ⟨giveUp t evict, [], [], []⟩ := by
  refine run_giveUp (fun _ _ => trivial) (fun _ _ => trivial) t [] evict ?_
  intro d hd wait _ r _ w hw
  rw [length_nil] at hw hd
  rw [hd] at hw
  cases hw

theorem keys_trim {closed : AList fun _ : String => String} {r : String} (hr : r ∉ closed.keys)
    (targetActor : String) (evict : ℕ) : (trim (closed.insert r targetActor) evict).keys =
      if 4096 ≤ closed.keys.length then
        (r :: closed.keys).erase ((r :: closed.keys).getD (evict % (closed.keys.length + 1)) "")
      else r :: closed.keys := by
  simp only [trim, keys_insert, erase_of_not_mem hr, length_cons,
    gt_iff_lt, Nat.lt_succ_iff]
  split_ifs <;> simp [keys_erase, keys_insert, erase_of_not_mem hr]

theorem keys_giveUp {t : AskTable String}
    (hnew : requestID (t.askSeq + 1) ∉ t.askClosed.keys) (evict : ℕ) :
    (giveUp t evict).askClosed.keys =
      if 4096 ≤ t.askClosed.keys.length then
        (requestID (t.askSeq + 1) :: t.askClosed.keys).erase
          ((requestID (t.askSeq + 1) :: t.askClosed.keys).getD
            (evict % (t.askClosed.keys.length + 1)) "")
      else requestID (t.askSeq + 1) :: t.askClosed.keys :=
  keys_trim hnew "b" evict

structure Filled (n : ℕ) (t : AskTable String) : Prop where
  seq : t.askSeq = n
  length : t.askClosed.keys.length = n
  fresh : ∀ k, n < k → requestID k ∉ t.askClosed.keys

theorem filled_run {n : ℕ} (hn : n ≤ 4096) :
    ∃ t, Filled n t ∧ Run (step "") Spares ⟨.new, [], [], []⟩ [] ⟨t, [], [], []⟩ := by
  induction n with
  | zero => exact ⟨.new, ⟨rfl, rfl, fun _ _ h => by cases h⟩, .refl⟩
  | succ n ih =>
    obtain ⟨t, h, hrun⟩ := ih (by omega)
    have hkeys : (giveUp t 0).askClosed.keys = requestID (n + 1) :: t.askClosed.keys := by
      rw [keys_giveUp (h.seq ▸ h.fresh _ (lt_succ_self n)), h.length, h.seq,
        if_neg (by omega)]
    refine ⟨giveUp t 0, ⟨congrArg (· + 1) h.seq, ?_, fun k hk hmem => ?_⟩,
      hrun.trans (run_giveUp_alone t 0)⟩
    · rw [hkeys, length_cons, h.length]
    · rw [hkeys, mem_cons] at hmem
      rcases hmem with heq | hmem
      · have := requestID_inj heq
        omega
      · exact h.fresh k (by omega) hmem

/-- 4096 calls have returned, and the entry of one of them gives way to that of the next. -/
theorem askClosed_bounded_full : ∃ t d r,
      Run (step "") Spares (⟨.new, [], [], []⟩ : Desk String) [] ⟨t, [], [], []⟩ ∧
      Run (step "") Spares ⟨t, [], [], []⟩ [] d ∧
      r ∈ t.askClosed.keys ∧ r ∉ d.asks.askClosed.keys ∧
      d.asks.askClosed.keys.length ≤ 4096 + (d.drawn ++ d.waits).length := by
  obtain ⟨t, h, hrun⟩ := filled_run (le_refl 4096)
  have hnext := run_giveUp_alone t 1
  obtain ⟨r, rs, hkeys⟩ := exists_cons_of_length_pos (l := t.askClosed.keys)
    (by rw [h.length]; decide)
  have hnodup := t.askClosed.keys_nodup
  have hnew := h.fresh 4097 (by decide)
  rw [hkeys] at hnodup hnew
  have hlast : (giveUp t 1).askClosed.keys = requestID 4097 :: rs := by
    rw [keys_giveUp (by rw [h.seq, hkeys]; exact hnew), if_pos (by rw [h.length]), h.length, h.seq,
      hkeys]
    simp [ne_of_not_mem_cons hnew]
  refine ⟨t, _, r, hrun, hnext, by simp [hkeys], ?_, askClosed_bounded (hrun.trans hnext)⟩
  rw [hlast, mem_cons, not_or]
  exact ⟨(ne_of_not_mem_cons hnew).symm, (nodup_cons.mp hnodup).1⟩

/-! ## One entry too many -/

theorem run_reply (t : AskTable String) (wait : PendingAsk) (hhere : askReplyHere "" wait.replyTo) :
    ∃ t', t'.askSeq = t.askSeq ∧ t'.askClosed = t.askClosed.insert wait.requestID wait.targetActor ∧
      Run (step "") anyStep ⟨t.enter wait, [], [wait], []⟩ [] ⟨t', [], [wait], []⟩ := by
  refine ⟨_, ?_, ?_, run_snoc .refl (.reply wait.replyTo (.bare none)) trivial (if_pos hhere)⟩
  all_goals simp [AskTable.routeAskReply, AskTable.matchReply, AskTable.enter, AskTable.offer,
    close, Reply.wrap]

/-- 4096 calls have returned. The next one evicts the entry of one that is answered, whose return
brings it back. -/
theorem one_entry_too_many : ∃ tr d, Run (step "") anyStep (⟨.new, [], [], []⟩ : Desk String) tr d ∧
      (d.drawn ++ d.waits).length = 0 ∧ d.asks.askClosed.keys.length = 4097 := by
  obtain ⟨t, h, hrun⟩ := filled_run (le_refl 4096)
  let c := t.nextRequest "" "b"
  obtain ⟨t1, hseq1, hclosed1, hreply⟩ := run_reply t.draw c rfl
  have hseq1 : t1.askSeq = 4097 := hseq1.trans (congrArg (· + 1) h.seq)
  have hid : c.requestID = requestID 4097 := congrArg (requestID <| · + 1) h.seq
  have hw := h.fresh 4097 (by decide)
  have hr := h.fresh 4098 (by decide)
  have hne : requestID 4098 ≠ requestID 4097 :=
    mt requestID_inj (by decide)
  have hkeys1 : t1.askClosed.keys = requestID 4097 :: t.askClosed.keys := by
    rw [hclosed1, keys_insert, hid]
    exact congrArg _ (erase_of_not_mem hw)
  have hkeys2 : (giveUp t1 1).askClosed.keys = requestID 4098 :: t.askClosed.keys := by
    rw [keys_giveUp (by simp [hseq1, hkeys1, hne, hr]), hseq1, hkeys1, length_cons, h.length]
    simp [hne]
  have hkeys3 : ((giveUp t1 1).completeAskRequest c 0).askClosed.keys =
      requestID 4098 :: t.askClosed.keys := by
    have hnew : c.requestID ∉ (giveUp t1 1).askClosed.keys := by
      simp [hkeys2, hid, hne.symm, hw]
    have htrim := keys_trim hnew c.targetActor 0
    rw [hkeys2, length_cons, h.length] at htrim
    exact htrim.trans (by simp)
  have hany : ∀ (d : Desk String) a, Spares d a → anyStep d a := fun _ _ _ => trivial
  have hanswered := ((hrun.mono hany).trans
    (run_enter (fun _ _ => trivial) (fun _ _ => trivial) t [])).trans hreply
  refine ⟨_, _, run_snoc (hanswered.trans (run_giveUp (fun _ _ => trivial) (fun _ _ => trivial)
    t1 [c] 1 fun _ _ => trivial)) (.complete 0 0) trivial rfl, rfl, ?_⟩
  exact (congrArg List.length hkeys3).trans (by rw [length_cons, h.length])

end Desk
end Westcoast.Cluster
