import Westcoast.Lib.Machine
import Westcoast.Lib.Symbolic

/-!
# The join handshake

`join.go`, and the handler of `provider_secure.go`. Client and server prove to each other that they
have the token, by an HMAC over both nonces; then the server answers the client with certificates
and the private key of the cluster's authority. The network belongs to an attacker, who delivers
what they can derive from what is sent (`Deliverable`). A nonce and an HMAC have the same size, so a
delivered nonce may be any message. Of a response only the key is not public.
-/
namespace Westcoast.Cluster

open Lib List Term Nat

/-- The data of the protocol: public text, random numbers, and keys of an authority. -/
inductive JoinData
  | text (s : String)
  | nonce (n : ℕ)
  | caKey (k : ℕ)
  deriving DecidableEq

abbrev JoinTerm := Term JoinData String

def joinText (s : String) : JoinTerm := .atom (.text s)

def joinNonce (n : ℕ) : JoinTerm := .atom (.nonce n)

def joinMagic : String := "JREQ"

structure JoinRequest where
  nodeID : JoinTerm
  clusterAddr : JoinTerm
  csrDER : JoinTerm
  deriving DecidableEq

structure JoinResponse where
  nodeCertDER : String
  caCertDER : String
  caKeyPKCS8 : ℕ
  serverID : String
  clusterAddr : String
  payload : Option String
  deriving DecidableEq

def JoinRequest.wire (req : JoinRequest) : JoinTerm :=
  .pair req.nodeID (.pair req.clusterAddr req.csrDER)

def JoinRequest.Plain (req : JoinRequest) : Prop :=
  ∃ nodeID clusterAddr csrDER, req = ⟨joinText nodeID, joinText clusterAddr, joinText csrDER⟩

def JoinResponse.wire (resp : JoinResponse) : JoinTerm :=
  .pair (joinText resp.nodeCertDER) (.pair (joinText resp.caCertDER)
    (.pair (.atom (.caKey resp.caKeyPKCS8)) (.pair (joinText resp.serverID)
      (.pair (joinText resp.clusterAddr) (joinText (resp.payload.getD ""))))))

def computeJoinHMAC (token : String) (a b : JoinTerm) : JoinTerm := .mac token (.pair a b)

/-- What the handler of `startJoinServer` reads: the authority, `cfg.OnJoin`, and who the server is.
-/
structure JoinAuthority where
  signCSR : JoinTerm → JoinTerm → Option String
  caCertDER : String
  caKeyPKCS8 : Option ℕ
  onJoin : Option (JoinTerm → Option (Option String))
  selfID : String
  configAddr : String

/-- The handler of `startJoinServer` -/
def JoinAuthority.handler (ca : JoinAuthority) (req : JoinRequest) : Option JoinResponse := do
  let certDER ← ca.signCSR req.csrDER req.clusterAddr
  let caKeyPKCS8 ← ca.caKeyPKCS8
  let payload ← match ca.onJoin with
    | none => some none
    | some onJoin => onJoin req.nodeID
  return ⟨certDER, ca.caCertDER, caKeyPKCS8, ca.selfID, ca.configAddr, payload⟩

/-- The client waits for the server's nonce, has given up with `ErrJoinBadToken`, has sent its
request, or has read a response. -/
inductive JoinClientPc
  | waiting
  | badToken
  | requested
  | joined (response : JoinTerm)

structure JoinClient where
  req : JoinRequest
  nonceC : JoinTerm
  pc : JoinClientPc

inductive JoinServerPc
  | accepted
  | challenged (nonceC nonceS : JoinTerm)
  | closed

/-- All sessions, what was sent, and the number of the next nonce. -/
structure JoinNet where
  clients : List JoinClient
  servers : List JoinServerPc
  sent : List JoinTerm
  fresh : ℕ

/-- A session begins, or is given a message; with a request comes what the handler makes of it
(`none`: an error). -/
inductive JoinAction
  | dial (nodeID clusterAddr csrDER : String)
  | accept
  | hello (i : ℕ) (magic nonceC : JoinTerm)
  | challenge (j : ℕ) (nonceS serverHMAC : JoinTerm)
  | request (i : ℕ) (clientHMAC : JoinTerm) (req : JoinRequest) (answer : Option JoinResponse)
  | response (j : ℕ) (response : JoinTerm)

inductive JoinEvent
  | requested (req : JoinRequest)
  | handled (req : JoinRequest)
  | responded (resp : JoinResponse)
  deriving DecidableEq

namespace JoinNet

def init : JoinNet := ⟨[], [], [], 0⟩

/-- One step. All clients and servers have the token. -/
def step (token : String) (s : JoinNet) : JoinAction → Option (JoinNet × List JoinEvent)
  | .dial nodeID clusterAddr csrDER =>
    let nonceC := joinNonce s.fresh
    some ({ s with
      clients := s.clients ++
        [⟨⟨joinText nodeID, joinText clusterAddr, joinText csrDER⟩, nonceC, .waiting⟩]
      sent := s.sent ++ [.pair (joinText joinMagic) nonceC]
      fresh := s.fresh + 1 }, [])
  | .accept => some ({ s with servers := s.servers ++ [.accepted] }, [])
  | .hello i magic nonceC =>
    match s.servers[i]? with
    | some .accepted =>
      if magic = joinText joinMagic then
        let nonceS := joinNonce s.fresh
        some ({ s with
          servers := s.servers.set i (.challenged nonceC nonceS)
          sent := s.sent ++ [.pair nonceS (computeJoinHMAC token nonceC nonceS)]
          fresh := s.fresh + 1 }, [])
      else some ({ s with servers := s.servers.set i .closed }, [])
    | _ => none
  | .challenge j nonceS serverHMAC =>
    match s.clients[j]? with
    | some ⟨req, nonceC, .waiting⟩ =>
      if serverHMAC = computeJoinHMAC token nonceC nonceS then
        some ({ s with
          clients := s.clients.set j ⟨req, nonceC, .requested⟩
          sent := s.sent ++ [.pair (computeJoinHMAC token nonceS nonceC) req.wire] },
          [.requested req])
      else some ({ s with clients := s.clients.set j ⟨req, nonceC, .badToken⟩ }, [])
    | _ => none
  | .request i clientHMAC req answer =>
    match s.servers[i]? with
    | some (.challenged nonceC nonceS) =>
      if clientHMAC = computeJoinHMAC token nonceS nonceC then
        match answer with
        | none => some ({ s with servers := s.servers.set i .closed }, [.handled req])
        | some resp =>
          some ({ s with
            servers := s.servers.set i .closed
            sent := s.sent ++ [resp.wire] }, [.handled req, .responded resp])
      else some ({ s with servers := s.servers.set i .closed }, [])
    | _ => none
  | .response j response =>
    match s.clients[j]? with
    | some ⟨req, nonceC, .requested⟩ =>
      some ({ s with clients := s.clients.set j ⟨req, nonceC, .joined response⟩ }, [])
    | _ => none

/-- What the attacker knows: every text, every key but the token, and what was sent. -/
def known (token : String) (s : JoinNet) : Set JoinTerm :=
  {t | (∃ x, t = joinText x) ∨ (∃ k, k ≠ token ∧ t = .key k) ∨ t ∈ s.sent}

def Deliverable (token : String) (s : JoinNet) : JoinAction → Prop
  | .dial _ _ _ | .accept => True
  | .hello _ magic nonceC =>
    Term.Derives (s.known token) magic ∧ Term.Derives (s.known token) nonceC
  | .challenge _ nonceS serverHMAC =>
    Term.Derives (s.known token) nonceS ∧ Term.Derives (s.known token) serverHMAC
  | .request _ clientHMAC req _ =>
    Term.Derives (s.known token) clientHMAC ∧ Term.Derives (s.known token) req.wire
  | .response _ response => Term.Derives (s.known token) response

/-- The fields that are delivered with an HMAC are those that were sent with it. -/
def Intact (s : JoinNet) : JoinAction → Prop
  | .request _ clientHMAC req _ =>
    ∀ k a b body, clientHMAC = computeJoinHMAC k a b → .pair clientHMAC body ∈ s.sent →
      req.wire = body
  | _ => True

/-- What is sent; a nonce that a server answers is older than its own. -/
inductive Said (token : String) (tr : List JoinEvent) (fresh : ℕ) : JoinTerm → Prop
  | hello (n : ℕ) (hn : n < fresh) : Said token tr fresh (.pair (joinText joinMagic) (joinNonce n))
  | challenge (nonceC : JoinTerm) (n : ℕ) (hn : n < fresh)
      (holder : ∀ m, nonceC = joinNonce m → m < n) :
      Said token tr fresh (.pair (joinNonce n) (computeJoinHMAC token nonceC (joinNonce n)))
  | request (nonceS nonceC : JoinTerm) (nodeID clusterAddr csrDER : String)
      (hreq : .requested ⟨joinText nodeID, joinText clusterAddr, joinText csrDER⟩ ∈ tr) :
      Said token tr fresh (.pair (computeJoinHMAC token nonceS nonceC)
        (JoinRequest.wire ⟨joinText nodeID, joinText clusterAddr, joinText csrDER⟩))
  | response (resp : JoinResponse) (hresp : .responded resp ∈ tr) : Said token tr fresh resp.wire

section

variable {token : String} {tr tr' es : List JoinEvent} {fresh fresh' : ℕ} {s s' : JoinNet}
  {t : JoinTerm}

theorem Said.mono (h : Said token tr fresh t) (htr : ∀ e ∈ tr, e ∈ tr') (hf : fresh ≤ fresh') :
    Said token tr' fresh' t := by
  cases h with
  | hello n hn => exact .hello n (hn.trans_le hf)
  | challenge nonceC n hn holder => exact .challenge nonceC n (hn.trans_le hf) holder
  | request nonceS nonceC nodeID clusterAddr csrDER hreq =>
    exact .request nonceS nonceC nodeID clusterAddr csrDER (htr _ hreq)
  | response resp hresp => exact .response resp (htr _ hresp)

structure Sound (token : String) (tr : List JoinEvent) (s : JoinNet) : Prop where
  sent : ∀ t ∈ s.sent, Said token tr s.fresh t
  clients : ∀ c ∈ s.clients, c.req.Plain
  servers : ∀ (i : ℕ) nonceC nonceS, s.servers[i]? = some (.challenged nonceC nonceS) →
    ∃ n, nonceS = joinNonce n ∧ ∀ m, nonceC = joinNonce m → m < n
  responded : ∀ resp, .responded resp ∈ tr → resp.wire ∈ s.sent

section
variable (h : Sound token tr s)
include h

theorem Sound.part (hpart : Term.Parts (s.known token) t) :
    (∃ x, t = joinText x) ∨ (∃ k, k ≠ token ∧ t = .key k) ∨
      ∃ u ∈ s.sent, Said token tr s.fresh u ∧ t ∈ u.parts := by
  obtain ⟨u, hu, hmem⟩ := hpart
  rcases hu with ⟨x, rfl⟩ | ⟨k, hk, rfl⟩ | hsent
  · exact .inl ⟨x, mem_singleton.mp hmem⟩
  · exact .inr (.inl ⟨k, hk, mem_singleton.mp hmem⟩)
  · exact .inr (.inr ⟨u, hsent, h.sent u hsent, hmem⟩)

theorem Sound.token_secret : ¬ Term.Parts (s.known token) (.key token) := by
  intro hpart
  rcases h.part hpart with ⟨x, heq⟩ | ⟨k, hk, heq⟩ | ⟨u, -, hsaid, hmem⟩
  · cases heq
  · cases heq
    exact hk rfl
  · cases hsaid <;>
      simp [parts, joinText, joinNonce, computeJoinHMAC, JoinRequest.wire,
        JoinResponse.wire] at hmem

theorem Sound.nonce_lt {n : ℕ} (hder : Term.Derives (s.known token) (joinNonce n)) :
    n < s.fresh := by
  rcases h.part (derives_atom_iff.mp hder) with ⟨x, heq⟩ | ⟨k, hk, heq⟩ |
    ⟨u, -, hsaid, hmem⟩
  · cases heq
  · cases heq
  · cases hsaid with
    | hello m hm | challenge nonceC m hm holder =>
      simp only [parts, joinText, joinNonce, computeJoinHMAC, mem_cons,
        mem_append, reduceCtorEq, atom.injEq, JoinData.nonce.injEq, false_or,
        or_false, not_mem_nil] at hmem
      rw [hmem]
      exact hm
    | request | response =>
      simp [parts, joinText, computeJoinHMAC, JoinRequest.wire, JoinResponse.wire] at hmem

theorem Sound.caKey_iff (k : ℕ) : Term.Derives (s.known token) (.atom (.caKey k)) ↔
      ∃ resp, .responded resp ∈ tr ∧ resp.caKeyPKCS8 = k := by
  constructor
  · intro hder
    rcases h.part (derives_atom_iff.mp hder) with ⟨x, heq⟩ | ⟨k', hk, heq⟩ |
      ⟨u, -, hsaid, hmem⟩
    · cases heq
    · cases heq
    · cases hsaid with
      | response resp hresp =>
        simp only [parts, joinText, JoinResponse.wire, mem_cons, mem_append,
          reduceCtorEq, atom.injEq, JoinData.caKey.injEq, false_or, or_false,
          not_mem_nil] at hmem
        exact ⟨resp, hresp, hmem.symm⟩
      | hello | challenge | request =>
        simp [parts, joinText, joinNonce, computeJoinHMAC, JoinRequest.wire] at hmem
  · rintro ⟨resp, hresp, rfl⟩
    refine Term.Parts.derives ⟨resp.wire, .inr (.inr (h.responded resp hresp)), ?_⟩
    simp [parts, JoinResponse.wire]

/-- **No reflection.** The HMAC a server waits for was sent by a client, with its request. -/
theorem Sound.requested {i : ℕ} {nonceC nonceS : JoinTerm}
    (hserver : s.servers[i]? = some (.challenged nonceC nonceS))
    (hder : Term.Derives (s.known token) (computeJoinHMAC token nonceS nonceC)) :
    ∃ req, .requested req ∈ tr ∧ .pair (computeJoinHMAC token nonceS nonceC) req.wire ∈ s.sent := by
  rcases h.part (hder.not_forged h.token_secret) with ⟨x, heq⟩ | ⟨k, hk, heq⟩ |
    ⟨u, hsent, hsaid, hmem⟩
  · cases heq
  · cases heq
  · cases hsaid with
    | challenge nonceC' n hn holder =>
      -- it would be an answer to this server's nonce, which is younger than the nonce in it
      simp only [parts, joinNonce, computeJoinHMAC, mem_cons, mem_append,
        reduceCtorEq, mac.injEq, pair.injEq, true_and, false_or, or_false,
        not_mem_nil] at hmem
      obtain ⟨m, hm, hold⟩ := h.servers i nonceC nonceS hserver
      have hmn := holder m (hmem.1.symm.trans hm)
      have hnm := hold n hmem.2
      omega
    | request nonceS' nonceC' nodeID clusterAddr csrDER hreq =>
      simp only [parts, joinText, computeJoinHMAC, JoinRequest.wire, mem_cons,
        mem_append, reduceCtorEq, mac.injEq, pair.injEq, true_and, false_or,
        or_false, not_mem_nil] at hmem
      obtain ⟨rfl, rfl⟩ := hmem
      exact ⟨_, hreq, hsent⟩
    | hello | response =>
      simp [parts, joinText, joinNonce, JoinResponse.wire] at hmem

theorem Sound.draw : Sound token tr { s with fresh := s.fresh + 1 } :=
  ⟨fun t ht => (h.sent t ht).mono (fun _ he => he) (le_succ _), h.clients, h.servers,
    h.responded⟩

theorem Sound.setClients {clients : List JoinClient}
    (hclients : ∀ c ∈ clients, c ∈ s.clients ∨ c.req.Plain) : Sound token tr { s with clients } :=
  ⟨h.sent, fun c hc => (hclients c hc).elim (h.clients c) id, h.servers, h.responded⟩

theorem Sound.setClient {j : ℕ} {c : JoinClient} (hj : s.clients[j]? = some c) (pc : JoinClientPc) :
    Sound token tr { s with clients := s.clients.set j { c with pc } } := by
  refine h.setClients fun x hx => ?_
  rcases mem_or_eq_of_mem_set hx with hold | rfl
  · exact .inl hold
  · exact .inr (h.clients c (mem_of_getElem? hj))

theorem Sound.setServer (i : ℕ) (pc : JoinServerPc)
    (hpc : ∀ nonceC nonceS, pc = .challenged nonceC nonceS →
      ∃ n, nonceS = joinNonce n ∧ ∀ m, nonceC = joinNonce m → m < n) :
    Sound token tr { s with servers := s.servers.set i pc } := by
  refine ⟨h.sent, h.clients, fun j nonceC nonceS hj => ?_, h.responded⟩
  rw [getElem?_set] at hj
  split_ifs at hj
  · exact hpc nonceC nonceS (Option.some.inj hj)
  · exact h.servers j nonceC nonceS hj

theorem Sound.say (hsaid : Said token (tr ++ es) s.fresh t)
    (hes : ∀ resp, .responded resp ∈ es → resp.wire = t) :
    Sound token (tr ++ es) { s with sent := s.sent ++ [t] } where
  sent := by
    intro u hu
    rcases mem_append.mp hu with hold | hnew
    · exact (h.sent u hold).mono (fun e he => mem_append_left _ he) (le_refl _)
    · rw [mem_singleton.mp hnew]
      exact hsaid
  clients := h.clients
  servers := h.servers
  responded := by
    intro resp hmem
    rcases mem_append.mp hmem with hold | hnew
    · exact mem_append_left _ (h.responded resp hold)
    · exact mem_append_right _ (mem_singleton.mpr (hes resp hnew))

theorem Sound.log (hes : ∀ resp, .responded resp ∉ es) : Sound token (tr ++ es) s where
  sent t ht := (h.sent t ht).mono (fun _ he => mem_append_left _ he) (le_refl _)
  clients := h.clients
  servers := h.servers
  responded resp hmem := h.responded resp ((mem_append.mp hmem).resolve_right (hes resp))

variable {a : JoinAction}

theorem sound_step (hg : s.Deliverable token a) (hs : s.step token a = some (s', es)) :
    Sound token (tr ++ es) s' := by
  cases a with
  | dial nodeID clusterAddr csrDER =>
    cases hs
    refine (h.draw.setClients fun c hc => ?_).say (.hello _ (lt_succ_self _)) nofun
    refine (mem_append.mp hc).imp_right fun hnew => ?_
    rw [mem_singleton.mp hnew]
    exact ⟨_, _, _, rfl⟩
  | accept =>
    cases hs
    refine (Sound.log ⟨h.sent, h.clients, fun i nonceC nonceS hi => ?_, h.responded⟩ nofun)
    rw [getElem?_append] at hi
    split_ifs at hi
    · exact h.servers i nonceC nonceS hi
    · rw [getElem?_singleton] at hi
      split_ifs at hi
      cases hi
  | hello i magic nonceC =>
    simp only [step] at hs
    split at hs
    · split_ifs at hs
      · cases hs
        have holder : ∀ m, nonceC = joinNonce m → m < s.fresh := fun m hm =>
          h.nonce_lt (hm ▸ hg.2)
        refine (h.draw.setServer i (.challenged nonceC (joinNonce s.fresh)) ?_).say
          (.challenge nonceC _ (lt_succ_self _) holder) nofun
        intro nonceC' nonceS hpc
        cases hpc
        exact ⟨_, rfl, holder⟩
      · cases hs
        exact (h.setServer i .closed nofun).log nofun
    · cases hs
  | challenge j nonceS serverHMAC =>
    simp only [step] at hs
    split at hs
    · next req nonceC hj =>
      split_ifs at hs
      · cases hs
        obtain ⟨nodeID, clusterAddr, csrDER, hreq⟩ := h.clients _ (mem_of_getElem? hj)
        dsimp only at hreq
        subst hreq
        exact (h.setClient hj .requested).say
          (.request nonceS nonceC nodeID clusterAddr csrDER (by simp)) (by simp)
      · cases hs
        exact (h.setClient hj .badToken).log nofun
    · cases hs
  | request i clientHMAC req answer =>
    simp only [step] at hs
    split at hs
    · split_ifs at hs
      · cases answer with
        | none =>
          cases hs
          exact (h.setServer i .closed nofun).log (by simp)
        | some resp =>
          cases hs
          exact (h.setServer i .closed nofun).say (.response resp (by simp)) (by simp)
      · cases hs
        exact (h.setServer i .closed nofun).log nofun
    · cases hs
  | response j response =>
    simp only [step] at hs
    split at hs
    · next hj =>
      cases hs
      exact (h.setClient hj (.joined response)).log nofun
    · cases hs

/-- A request that the handler sees was sent by a client, if the fields are left alone. -/
theorem handled_step (hg : s.Deliverable token a) (hintact : s.Intact a)
    (hs : s.step token a = some (s', es)) {req : JoinRequest} (hmem : .handled req ∈ es) :
    .requested req ∈ tr := by
  cases a with
  | request i clientHMAC req' answer =>
    simp only [step] at hs
    split at hs
    · next nonceC nonceS hi =>
      split_ifs at hs with hmac
      · have hreq : req' = req := by
          split at hs <;> cases hs <;> simpa [eq_comm] using hmem
        subst hreq
        obtain ⟨sent, hsent, hpair⟩ := h.requested hi (hmac ▸ hg.1)
        have hwire := hintact token nonceS nonceC sent.wire hmac (hmac ▸ hpair)
        have heq : req' = sent := by
          obtain ⟨a, b, c⟩ := req'
          obtain ⟨a', b', c'⟩ := sent
          simpa [JoinRequest.wire] using hwire
        exact heq ▸ hsent
      · cases hs
        cases hmem
    · cases hs
  | dial | accept =>
    cases hs
    cases hmem
  | hello i magic nonceC =>
    simp only [step] at hs
    split at hs
    · split_ifs at hs <;> cases hs <;> cases hmem
    · cases hs
  | challenge j nonceS serverHMAC =>
    simp only [step] at hs
    split at hs
    · split_ifs at hs
      · cases hs
        simp at hmem
      · cases hs
        cases hmem
    · cases hs
  | response j response =>
    simp only [step] at hs
    split at hs
    · cases hs
      cases hmem
    · cases hs

end

theorem sound_init (token : String) : Sound token [] init where
  sent := by simp [init]
  clients := by simp [init]
  servers := by simp [init]
  responded := by simp

def overheard (s : JoinNet) : JoinTerm → Bool
  | .atom (.text _) => true
  | t => s.sent.any fun u => t ∈ u.parts

def relayed (s : JoinNet) : JoinAction → Bool
  | .dial _ _ _ | .accept => true
  | .hello _ magic nonceC => s.overheard magic && s.overheard nonceC
  | .challenge _ nonceS serverHMAC => s.overheard nonceS && s.overheard serverHMAC
  | .request _ clientHMAC req _ =>
    s.overheard clientHMAC && s.overheard req.nodeID && s.overheard req.clusterAddr &&
      s.overheard req.csrDER
  | .response _ response => s.overheard response

theorem derives_of_overheard (h : s.overheard t = true) : Term.Derives (s.known token) t := by
  unfold overheard at h
  split at h
  · next x => exact .known (.inl ⟨x, rfl⟩)
  · obtain ⟨u, hu, hmem⟩ := any_eq_true.mp h
    exact Term.Parts.derives ⟨u, .inr (.inr hu), of_decide_eq_true hmem⟩

theorem deliverable_of_relayed (h : s.relayed a = true) : s.Deliverable token a := by
  cases a with
  | dial | accept => trivial
  | hello | challenge =>
    obtain ⟨hfst, hsnd⟩ := Bool.and_eq_true_iff.mp h
    exact ⟨derives_of_overheard hfst, derives_of_overheard hsnd⟩
  | request i clientHMAC req answer =>
    simp only [relayed, Bool.and_eq_true] at h
    obtain ⟨⟨⟨hmac, hid⟩, haddr⟩, hcsr⟩ := h
    exact ⟨derives_of_overheard hmac, .pair (derives_of_overheard hid)
      (.pair (derives_of_overheard haddr) (derives_of_overheard hcsr))⟩
  | response => exact derives_of_overheard h

/-- The fields of a request are those of every message that was sent with its HMAC. -/
def unaltered (s : JoinNet) : JoinAction → Bool
  | .request _ clientHMAC req _ =>
    s.sent.all fun
      | .pair t body => t ≠ clientHMAC ∨ req.wire = body
      | _ => true
  | _ => true

theorem intact_of_unaltered (h : s.unaltered a = true) : s.Intact a := by
  cases a with
  | request i clientHMAC req answer =>
    intro k a b body _ hmem
    have hpair := of_decide_eq_true (all_eq_true.mp h _ hmem)
    exact hpair.resolve_left (· rfl)
  | dial | accept | hello | challenge | response => trivial

def demoAuthority : JoinAuthority where
  signCSR _ _ := some "cert"
  caCertDER := "ca"
  caKeyPKCS8 := some 0
  onJoin := none
  selfID := "n0"
  configAddr := "10.0.0.1:7946"

/-- One client and one server; the fields in the request are up to the network. -/
def demoJoin (req : JoinRequest) : List JoinAction :=
  [.dial "n1" "10.0.0.2:7946" "csr1", .accept, .hello 0 (joinText joinMagic) (joinNonce 0),
    .challenge 0 (joinNonce 1) (computeJoinHMAC "secret" (joinNonce 0) (joinNonce 1)),
    .request 0 (computeJoinHMAC "secret" (joinNonce 1) (joinNonce 0)) req
      (demoAuthority.handler req)]

def demoRequest : JoinRequest := ⟨joinText "n1", joinText "10.0.0.2:7946", joinText "csr1"⟩

def evilRequest : JoinRequest := ⟨joinText "evil", joinText "6.6.6.6:7946", joinText "evilcsr"⟩

def demoResponse : JoinResponse := ⟨"cert", "ca", 0, "n0", "10.0.0.1:7946", none⟩

/-- **Agreement and secrecy.** Over a network that delivers what an attacker without the token can
derive, and leaves what follows a client's HMAC alone, the handler sees only requests that clients
sent. And the attacker has the authority's key exactly if some server has written it. -/
theorem join_agrees
    (hrun : Run (step token) (fun s a => s.Deliverable token a ∧ s.Intact a) init tr s) :
    (∀ req, .handled req ∈ tr → .requested req ∈ tr) ∧
    ∀ k, Term.Derives (s.known token) (.atom (.caKey k)) ↔
      ∃ resp, .responded resp ∈ tr ∧ resp.caKeyPKCS8 = k := by
  have hinv := hrun.invariant
    (fun tr s => Sound token tr s ∧ ∀ req, .handled req ∈ tr → .requested req ∈ tr)
    ⟨sound_init token, fun _ hmem => nomatch hmem⟩ ?_
  · exact ⟨hinv.2, hinv.1.caKey_iff⟩
  · intro tr s a s' es h hg hs
    refine ⟨sound_step h.1 hg.1 hs, fun req hmem => ?_⟩
    rcases mem_append.mp hmem with hold | hnew
    · exact mem_append_left _ (h.2 req hold)
    · exact mem_append_left _ (handled_step h.1 hg.1 hg.2 hs hnew)

theorem join_agrees_demo :
    ∃ s, Run (step "secret") (fun s a => s.Deliverable "secret" a ∧ s.Intact a) init
        [.requested demoRequest, .handled demoRequest, .responded demoResponse] s ∧
      Term.Derives (s.known "secret") (.atom (.caKey 0)) ∧
      ¬ Term.Derives (s.known "secret") (.atom (.caKey 1)) := by
  have hok : ∀ (s : JoinNet) a, (s.relayed a && s.unaltered a) = true →
      s.Deliverable "secret" a ∧ s.Intact a := fun s a h =>
    (Bool.and_eq_true_iff.mp h).imp deliverable_of_relayed intact_of_unaltered
  obtain ⟨s, hrun⟩ : ∃ s, Run (step "secret")
      (fun s a => s.Deliverable "secret" a ∧ s.Intact a) init
      [.requested demoRequest, .handled demoRequest, .responded demoResponse] s :=
    Run.of_events hok (demoJoin demoRequest) (by decide +kernel)
  have hkey := (join_agrees hrun).2
  refine ⟨s, hrun, (hkey 0).mpr ⟨demoResponse, by simp, rfl⟩, fun hder => ?_⟩
  obtain ⟨resp, hresp, hk⟩ := (hkey 1).mp hder
  simp only [mem_cons, reduceCtorEq, JoinEvent.responded.injEq, not_mem_nil,
    or_false, false_or] at hresp
  rw [hresp] at hk
  cases hk

/-- Without the token an attacker has a CSR of their own signed and reads the key of the authority.
-/
theorem join_hijacked : ∃ s, Run (step "secret") (Deliverable "secret") init
        [.requested demoRequest, .handled evilRequest, .responded demoResponse] s ∧
      evilRequest ≠ demoRequest ∧
      Term.Derives (s.known "secret") (.atom (.caKey demoResponse.caKeyPKCS8)) ∧
      ¬ Term.Derives (s.known "secret") (.key "secret") := by
  obtain ⟨s, hrun⟩ : ∃ s, Run (step "secret") (Deliverable "secret") init
      [.requested demoRequest, .handled evilRequest, .responded demoResponse] s :=
    Run.of_events (fun _ _ h => deliverable_of_relayed h) (demoJoin evilRequest)
      (by decide +kernel)
  have hsound := hrun.invariant (Sound "secret") (sound_init "secret")
    fun _ _ _ _ _ h hg hs => sound_step h hg hs
  refine ⟨s, hrun, by decide, (hsound.caKey_iff _).mpr ⟨demoResponse, by simp, rfl⟩,
    fun hder => ?_⟩
  exact hsound.token_secret (derives_key_iff.mp hder)

end

end JoinNet

end Westcoast.Cluster
