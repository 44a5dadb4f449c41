import Westcoast.Cluster.FarEnds

/-!
# Who the system handlers are told

A system handler is told a sender that is fixed for a whole stream, by its first envelope or by the
header of the node that was dialled, while forwarding leaves the sender in the envelope. What is
still to be read of a `Labelled` stream will be told its true sender; a write keeps it under the
condition `OneSender`.
-/
namespace Westcoast.Cluster

open Lib List Option

namespace Network

variable {β : Type} {cfg : NetConfig}

/-- An envelope that a system handler gets on a node. -/
def EndsAt (cfg : NetConfig) (env : WireEnvelope β) (node : NodeID) : Prop :=
  (env.targetNode = "" ∨ env.targetNode = node) ∧ env.typeName ∈ cfg.handlers node

instance (env : WireEnvelope β) (node : NodeID) : Decidable (EndsAt cfg env node) :=
  inferInstanceAs (Decidable (_ ∧ _))

end Network

/-- What a goroutine writes, and to which connection. -/
def Proc.written {ε : Type} : Proc ε → Option (ConnEnd × ε)
  | sending _ conn env => some (conn, env)
  | _ => none

/-- The sender of the first envelope on a stream, if `env` is written to it next. -/
def Stream.firstSender {β : Type} (st : Stream β) (env : WireEnvelope β) : NodeID :=
  st.remoteID.getD ((st.up.head?.map (·.senderNode)).getD env.senderNode)

namespace Network

variable {β : Type} {cfg : NetConfig} {s s' : Network β} {a : StreamAction β}
  {es : List (StreamEvent β)}

/-- On a stream that the writer opened it has the sender of the first envelope, on one that it
accepted it is the writer's own. -/
def OneSender (cfg : NetConfig) (s : Network β) (conn : ConnEnd) (env : WireEnvelope β) : Prop :=
  ∀ st ∈ s.streams[conn.stream]?,
    if conn.inbound then EndsAt cfg env st.dialler → env.senderNode = st.acceptor
    else EndsAt cfg env st.acceptor → env.senderNode = st.firstSender env

instance (conn : ConnEnd) (env : WireEnvelope β) : Decidable (OneSender cfg s conn env) :=
  inferInstanceAs (Decidable (∀ st ∈ s.streams[conn.stream]?,
    if conn.inbound then EndsAt cfg env st.dialler → env.senderNode = st.acceptor
    else EndsAt cfg env st.acceptor → env.senderNode = st.firstSender env))

def OneSenderEach (cfg : NetConfig) (s : Network β) : StreamAction β → Prop
  | .write n i true =>
    ∀ w ∈ (s.nodes n).procs[i]?.bind Proc.written, OneSender cfg s w.1 w.2
  | _ => True

instance : DecidablePred (s.OneSenderEach cfg)
  | .write n i true => inferInstanceAs (Decidable
      (∀ w ∈ (s.nodes n).procs[i]?.bind Proc.written, OneSender cfg s w.1 w.2))
  | .write _ _ false | .member _ _ | .updatePeerMeta _ _ | .create _ | .dial _ _ _ | .locked _ _
  | .readUp _ | .readDown _ => .isTrue trivial

/-- What is still to be read from a stream will be told its true sender. -/
structure Labelled (cfg : NetConfig) (st : Stream β) : Prop where
  up : ∀ env ∈ st.up, EndsAt cfg env st.acceptor → env.senderNode = st.firstSender env
  down : ∀ env ∈ st.down, EndsAt cfg env st.dialler → env.senderNode = st.acceptor

def AllLabelled (cfg : NetConfig) (s : Network β) : Prop := ∀ st ∈ s.streams, Labelled cfg st

variable {st : Stream β}

theorem AllLabelled.setStream {k : ℕ} (h : AllLabelled cfg s) (hst : Labelled cfg st) :
    AllLabelled cfg (s.setStream k st) := by
  intro st' hst'
  rcases mem_or_eq_of_mem_set hst' with hold | rfl
  · exact h st' hold
  · exact hst

theorem AllLabelled.congr (h : AllLabelled cfg s) (hs : s'.streams = s.streams) :
    AllLabelled cfg s' := by
  unfold AllLabelled
  rw [hs]
  exact h

variable {env : WireEnvelope β}

theorem Labelled.write_up (h : Labelled cfg st)
    (henv : EndsAt cfg env st.acceptor → env.senderNode = st.firstSender env) :
    Labelled cfg { st with up := st.up ++ [env] } := by
  have hfirst : ∀ e, e ∈ st.up ∨ e = env →
      ({ st with up := st.up ++ [env] } : Stream β).firstSender e = st.firstSender e := by
    intro e he
    unfold Stream.firstSender
    cases hup : st.up with
    | cons e' rest => rfl
    | nil =>
      rw [hup] at he
      rcases he with he | rfl
      · cases he
      · rfl
  refine ⟨?_, h.down⟩
  intro e he hends
  rcases mem_append.mp he with hold | hnew
  · rw [hfirst e (.inl hold)]
    exact h.up e hold hends
  · rw [mem_singleton] at hnew
    subst hnew
    rw [hfirst e (.inr rfl)]
    exact henv hends

theorem AllLabelled.writeTo {conn : ConnEnd} (h : AllLabelled cfg s)
    (hone : OneSender cfg s conn env) : AllLabelled cfg (s.writeTo conn env) := by
  unfold Network.writeTo
  split
  · exact h
  · next st hst =>
    have hold := h st (mem_of_getElem? hst)
    have hwrite := hone st hst
    refine h.setStream ?_
    split_ifs at hwrite ⊢
    · refine ⟨hold.up, ?_⟩
      intro e he hends
      rcases mem_append.mp he with he | hnew
      · exact hold.down e he hends
      · rw [mem_singleton] at hnew
        subst hnew
        exact hwrite hends
    · exact hold.write_up hwrite

theorem Labelled.read_up {rest : List (WireEnvelope β)} (h : Labelled cfg st)
    (hup : st.up = env :: rest) :
    Labelled cfg { st with up := rest, remoteID := some (st.remoteID.getD env.senderNode) } := by
  refine ⟨?_, h.down⟩
  intro e he hends
  have hold := h.up e (by rw [hup]; exact mem_cons_of_mem env he) hends
  rw [hold, Stream.firstSender, Stream.firstSender, hup]
  rfl

theorem dispatch_system {node src : NodeID} (hs : s.dispatch cfg node src env = some (s', es))
    {node' src' : NodeID} {env' : WireEnvelope β} (hmem : .system node' src' env' ∈ es) :
    node' = node ∧ src' = src ∧ env' = env ∧ EndsAt cfg env node := by
  unfold dispatch at hs
  split_ifs at hs with hforward hsystem
  · obtain ⟨s1, -, hs'⟩ := map_eq_some_iff.mp hs
    cases hs'
    cases hmem
  · cases hs
    cases mem_singleton.mp hmem
    refine ⟨rfl, rfl, rfl, ?_, hsystem⟩
    by_contra hnot
    exact hforward (not_or.mp hnot)
  · cases hs
    cases mem_singleton.mp hmem

/-- The handlers of a step are told the true sender. -/
def ToldTruly (es : List (StreamEvent β)) : Prop :=
  ∀ node src env, .system node src env ∈ es → src = env.senderNode

theorem AllLabelled.step (h : AllLabelled cfg s) (hone : s.OneSenderEach cfg a)
    (hs : s.step cfg a = some (s', es)) : AllLabelled cfg s' ∧ ToldTruly es := by
  have hact : ∀ n b, ((s.act cfg.topology n b).map fun s' => (s', ([] : List (StreamEvent β)))) =
      some (s', es) → AllLabelled cfg s' ∧ ToldTruly es := by
    intro n b hmap
    obtain ⟨s1, hs1, hs'⟩ := map_eq_some_iff.mp hmap
    cases hs'
    exact ⟨h.congr (streams_act hs1), nofun⟩
  cases a with
  | member n ev => exact hact n (.member ev) hs
  | updatePeerMeta n m => exact hact n (.updatePeerMeta m) hs
  | create env => exact hact env.senderNode (.sendRemote env.targetNode env) hs
  | locked n i => exact hact n (.locked i) hs
  | dial n i ok =>
    cases ok with
    | false => exact hact n (.dialReturns i none) hs
    | true =>
      obtain ⟨target, -, hopen⟩ := bind_eq_some_iff.mp hs
      obtain ⟨s1, hs1, hs'⟩ := map_eq_some_iff.mp hopen
      obtain ⟨s2, hs2, rfl⟩ := map_eq_some_iff.mp hs1
      cases hs'
      refine ⟨?_, nofun⟩
      intro st hst
      rcases mem_append.mp hst with hold | hnew
      · exact h.congr (streams_act hs2) st hold
      · rw [mem_singleton.mp hnew]
        exact ⟨nofun, nofun⟩
  | write n i ok =>
    simp only [Network.step] at hs
    split at hs
    case h_2 => cases hs
    next node conn env hp =>
      obtain ⟨s1, hs1, hs'⟩ := map_eq_some_iff.mp hs
      cases hs'
      have hstreams := streams_act hs1
      refine ⟨?_, nofun⟩
      cases ok with
      | false => exact h.congr hstreams
      | true =>
        have hwrite : OneSender cfg s conn env := hone (conn, env) (by rw [hp]; rfl)
        refine (h.congr hstreams).writeTo ?_
        unfold OneSender
        rw [hstreams]
        exact hwrite
  | readUp k =>
    simp only [Network.step] at hs
    split at hs
    case h_2 => cases hs
    next st hst =>
      split at hs
      case h_2 => cases hs
      next env rest hup =>
        have hlabel := h st (mem_of_getElem? hst)
        have hread := hlabel.read_up hup
        unfold Network.readUp at hs
        split at hs
        · next remoteID hremote =>
          rw [hremote] at hread
          have hset : AllLabelled cfg (s.setStream k { st with up := rest }) := by
            refine h.setStream ?_
            have heq : ({ st with up := rest } : Stream β) =
                { st with up := rest, remoteID := some remoteID } := by rw [← hremote]
            rw [heq]
            exact hread
          refine ⟨hset.congr (dispatch_frame hs).1, ?_⟩
          intro node src env' hmem
          obtain ⟨-, rfl, rfl, hends⟩ := dispatch_system hs hmem
          have hsender := hlabel.up env' (by rw [hup]; exact mem_cons_self) hends
          rw [hsender, Stream.firstSender, hremote]
          rfl
        · next hnone =>
          rw [hnone] at hread
          obtain ⟨s1, hs1, hdisp⟩ := bind_eq_some_iff.mp hs
          refine ⟨((h.setStream hread).congr (streams_act hs1)).congr
            (dispatch_frame hdisp).1, ?_⟩
          intro node src env' hmem
          obtain ⟨-, rfl, rfl, -⟩ := dispatch_system hdisp hmem
          rfl
  | readDown k =>
    simp only [Network.step] at hs
    split at hs
    case h_2 => cases hs
    next st hst =>
      split at hs
      case h_2 => cases hs
      next env rest hdown =>
        have hlabel := h st (mem_of_getElem? hst)
        have hset : AllLabelled cfg (s.setStream k { st with down := rest }) := by
          refine h.setStream ⟨hlabel.up, ?_⟩
          intro e he
          exact hlabel.down e (by rw [hdown]; exact mem_cons_of_mem env he)
        refine ⟨hset.congr (dispatch_frame hs).1, ?_⟩
        intro node src env' hmem
        obtain ⟨-, rfl, rfl, hends⟩ := dispatch_system hs hmem
        exact (hlabel.down env' (by rw [hdown]; exact mem_cons_self) hends).symm

/-- **System handlers are told the true sender**, if the envelopes for the handlers at the end of a
stream are all of the node of the first one, or of the node that accepted it. -/
theorem system_handler_origin (cfg : NetConfig) (self : NodeID → NodeMeta)
    (tr : List (StreamEvent β)) (s : Network β)
    (hrun : Run (step cfg) (fun s => s.OneSenderEach cfg) (new self) tr s) :
    ∀ node src env, .system node src env ∈ tr → src = env.senderNode := by
  have hinv : AllLabelled cfg s ∧ ToldTruly tr := by
    refine hrun.invariant (fun tr s => AllLabelled cfg s ∧ ToldTruly tr)
      ⟨fun st hst => absurd hst not_mem_nil, nofun⟩ ?_
    rintro tr s a s' es ⟨hlabel, htold⟩ hone hs
    obtain ⟨hlabel', htold'⟩ := hlabel.step hone hs
    refine ⟨hlabel', ?_⟩
    intro node src env hmem
    rcases mem_append.mp hmem with hold | hnew
    · exact htold node src env hold
    · exact htold' node src env hnew
  exact hinv.2

/-- The handler of `b` is told that the gossip of `c` comes from `d`. -/
theorem system_handler_misled : ∃ tr s, Run (step ringConfig) anyStep fiveNodes tr s ∧
      .system "b" "d" (envelope "c" "b" "__gossip") ∈ tr := by
  exact Run.of_check forwardedFirst (by decide +kernel)

/-- The handler of `b` is told the truth about the gossip of `c`, which forwards a message of `d` on
the same stream. -/
theorem system_handler_origin_ownFirst :
    ∃ tr s, Run (step ringConfig) (fun s => s.OneSenderEach ringConfig) fiveNodes tr s ∧
      tr = [.system "b" "c" (envelope "c" "b" "__gossip"),
        .actor "b" "c" (envelope "d" "b" "app")] ∧
      ∀ node src env, .system node src env ∈ tr → src = env.senderNode :=
  Run.of_check_then (ownFirst "app") (by decide +kernel) fun tr s hrun htr =>
    ⟨tr, s, hrun, htr, system_handler_origin _ _ tr s hrun⟩

end Network

end Westcoast.Cluster
