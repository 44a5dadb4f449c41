import Westcoast.Lib.Decimal
import Westcoast.Lib.Machine
import Westcoast.Lib.Symbolic

/-!
# Authentication of gRPC streams

`buildAuthMetadata` and `streamAuthInterceptor` of `grpctransport/transport.go`. A client sends a
timestamp, a nonce and the HMAC of both; the server keeps nothing of what it has accepted. An
attacker can send every text, but no HMAC under the secret that was not built (`Presentable`).
Durations in nanoseconds have 64 bits.
-/
namespace Westcoast.Cluster

open Lib List Option

def authTimestampSkew : ℤ := 30 * 10 ^ 9

/-- `time.Since`: the difference, cut off at the ends of 64 bits. -/
def timeSince (now ts : ℤ) : ℤ := max (-2 ^ 63) (min (now - ts) (2 ^ 63 - 1))

/-- The negation of a duration, which the least one does not have. -/
def negDuration (d : ℤ) : ℤ := if d = -2 ^ 63 then d else -d

/-- How far the interceptor takes the timestamp to be from its clock. -/
def skew (now ts : ℤ) : ℤ :=
  let delta := timeSince now ts
  if delta < 0 then negDuration delta else delta

def hexEncode (bytes : List UInt8) : String :=
  .ofList (bytes.flatMap fun b => [Nat.digitChar (b.toNat / 16), Nat.digitChar (b.toNat % 16)])

/-- The metadata of a stream; keys may repeat. A signature is a text or an HMAC. -/
structure StreamMetadata (κ : Type) where
  nodeID : List String
  timestamp : List String
  nonce : List String
  signature : List (Term String κ)

/-- What the interceptor reads of the metadata. -/
structure StreamTriple (κ : Type) where
  timestamp : String
  nonce : String
  signature : Term String κ
  deriving DecidableEq

/-- The errors of the interceptor, by their code. -/
inductive AuthStatus
  | unauthenticated (message : String)
  | internal (message : String)

section

variable {κ : Type}

def computeHMAC (secret : κ) (nonce timestamp : String) : Term String κ :=
  .mac secret (.atom (nonce ++ "|" ++ timestamp))

/-- `firstMDValue`, for each of the keys. -/
def StreamMetadata.first (md : StreamMetadata κ) : StreamTriple κ :=
  ⟨md.timestamp.headD "", md.nonce.headD "", md.signature.headD (.atom "")⟩

/-- `buildAuthMetadata`; the credentials or the random numbers may not be had. -/
def buildAuthMetadata (localID : String) (credentials : Option κ) (nonce : Option (List UInt8))
    (now : ℤ) : Option (StreamMetadata κ) := do
  let secret ← credentials
  let nonce ← nonce
  let ts := formatInt now
  let nonceHex := hexEncode nonce
  pure ⟨[localID], [ts], [nonceHex], [computeHMAC secret nonceHex ts]⟩

variable [DecidableEq κ]

/-- `streamAuthInterceptor`. `auth` is none if no auth is set; its credentials may not be had. -/
def streamAuthInterceptor (auth : Option (Option κ)) (md : Option (StreamMetadata κ)) (now : ℤ) :
    Except AuthStatus Unit :=
  match auth with
  | none => .ok ()
  | some credentials =>
    match md with
    | none => .error (.unauthenticated "missing metadata")
    | some md =>
      let t := md.first
      if t.timestamp = "" ∨ t.nonce = "" ∨ t.signature = .atom "" then
        .error (.unauthenticated "missing auth metadata")
      else
        match parseInt t.timestamp with
        | none => .error (.unauthenticated "invalid timestamp")
        | some tsNano =>
          if skew now tsNano > authTimestampSkew then
            .error (.unauthenticated "timestamp outside acceptable window")
          else
            match credentials with
            | none => .error (.internal "auth credentials unavailable")
            | some secret =>
              if t.signature ≠ computeHMAC secret t.nonce t.timestamp then
                .error (.unauthenticated "invalid signature")
              else .ok ()

end

theorem skew_le_iff (now ts : ℤ) : skew now ts ≤ authTimestampSkew ↔
    -authTimestampSkew ≤ now - ts ∧ now - ts ≤ authTimestampSkew ∨ 2 ^ 63 ≤ ts - now := by
  simp only [skew, timeSince, negDuration, authTimestampSkew]
  split_ifs <;> omega

theorem append_bar_inj {a b c d : String} (hb : '|' ∉ b.toList) (hd : '|' ∉ d.toList)
    (h : a ++ "|" ++ b = c ++ "|" ++ d) : a = c ∧ b = d := by
  have hlist : a.toList ++ '|' :: b.toList = c.toList ++ '|' :: d.toList := by
    have hchars := congrArg String.toList h
    simpa using hchars
  rcases append_eq_split hlist with ⟨e, ha, hbd⟩ | ⟨e, hc, hbd⟩
  · rw [hbd] at hd
    exact absurd (mem_append_right e mem_cons_self) hd
  · cases e with
    | nil =>
      rw [nil_append, List.cons.injEq] at hbd
      rw [append_nil] at hc
      exact ⟨String.toList_injective hc.symm, String.toList_injective hbd.2⟩
    | cons x e =>
      rw [cons_append, List.cons.injEq] at hbd
      rw [hbd.2] at hb
      exact absurd (mem_append_right e mem_cons_self) hb

structure StreamAuth (κ : Type) where
  signatures : List (Term String κ)

/-- A node with a secret builds metadata, or a stream is opened, at a reading of the server's clock.
-/
inductive StreamAuthAction (κ : Type)
  | build (localID : String) (secret : κ) (nonce : List UInt8) (now : ℤ)
  | attempt (md : Option (StreamMetadata κ)) (now : ℤ)

inductive StreamAuthEvent (κ : Type)
  | built (secret : κ) (t : StreamTriple κ) (now : ℤ)
  | attempted (t : StreamTriple κ) (now : ℤ) (accepted : Bool)
  | refused
  deriving DecidableEq

namespace StreamAuth

variable {κ : Type}

/-- One step; the server has `secret`. A nonce has sixteen bytes, and `UnixNano` 64 bits. -/
def step [DecidableEq κ] (secret : κ) (s : StreamAuth κ) :
    StreamAuthAction κ → Option (StreamAuth κ × List (StreamAuthEvent κ))
  | .build localID k nonce now =>
    if nonce.length = 16 ∧ -2 ^ 63 ≤ now ∧ now < 2 ^ 63 then
      (buildAuthMetadata localID (some k) (some nonce) now).map fun md =>
        (⟨s.signatures ++ md.signature⟩, [.built k md.first now])
    else none
  | .attempt none _ => some (s, [.refused])
  | .attempt (some md) now =>
    some (s, [.attempted md.first now
      (streamAuthInterceptor (some (some secret)) (some md) now).isOk])

/-- What the attacker knows: every text, every other secret, and the signatures sent. -/
def known (secret : κ) (s : StreamAuth κ) : Set (Term String κ) :=
  {t | (∃ x, t = .atom x) ∨ (∃ k, k ≠ secret ∧ t = .key k) ∨ t ∈ s.signatures}

def Presentable (secret : κ) (s : StreamAuth κ) : StreamAuthAction κ → Prop
  | .attempt (some md) _ => ∀ sig ∈ md.signature, Term.Derives (s.known secret) sig
  | _ => True

/-- The timestamp is near the clock, as the interceptor takes it. -/
def InWindow (now : ℤ) (t : StreamTriple κ) : Prop :=
  ∃ ts, parseInt t.timestamp = some ts ∧ skew now ts ≤ authTimestampSkew

def AtMostOnce (tr : List (StreamAuthEvent κ)) : Prop :=
  ∀ tr₁ t now tr₂ now', tr = tr₁ ++ .attempted t now true :: tr₂ → .attempted t now' true ∉ tr₂

/-- What is accepted was built before, by a holder of the secret, near the time of the clock. -/
def Authentic (secret : κ) (tr : List (StreamAuthEvent κ)) : Prop :=
  ∀ tr₁ t now tr₂, tr = tr₁ ++ .attempted t now true :: tr₂ →
    ∃ built, .built secret t built ∈ tr₁ ∧ -authTimestampSkew ≤ now - built ∧
      now - built ≤ authTimestampSkew

/-- No attempt repeats an accepted triple while its timestamp is in the window. -/
def NoReplay (tr : List (StreamAuthEvent κ)) : Prop :=
  ∀ tr₁ t now tr₂, tr = tr₁ ++ .attempted t now true :: tr₂ →
    ∀ now' accepted, .attempted t now' accepted ∈ tr₂ → ¬ InWindow now' t

/-- No triple that was built is presented when the clock is 292 years behind. -/
def ClockNotBehind (secret : κ) (tr : List (StreamAuthEvent κ)) : Prop :=
  ∀ tr₁ t now accepted tr₂ built, tr = tr₁ ++ .attempted t now accepted :: tr₂ →
    .built secret t built ∈ tr₁ → built - now < 2 ^ 63

/-! ### The interceptor -/

/-- What the interceptor asks of a triple apart from the time. -/
def Signed (secret : κ) (t : StreamTriple κ) : Prop :=
  t.nonce ≠ "" ∧ t.signature = computeHMAC secret t.nonce t.timestamp

theorem accepted_iff [DecidableEq κ] (secret : κ) (md : StreamMetadata κ) (now : ℤ) :
    (streamAuthInterceptor (some (some secret)) (some md) now).isOk = true ↔
      Signed secret md.first ∧ InWindow now md.first := by
  simp only [streamAuthInterceptor]
  by_cases hmissing : md.first.timestamp = "" ∨ md.first.nonce = "" ∨ md.first.signature = .atom ""
  · rw [if_pos hmissing]
    refine iff_of_false (fun h => nomatch h) ?_
    rintro ⟨⟨hnonce, hsig⟩, ts, hts, -⟩
    rcases hmissing with hempty | hempty | hempty
    · rw [hempty] at hts
      cases hts
    · exact hnonce hempty
    · rw [hsig] at hempty
      cases hempty
  · rw [if_neg hmissing]
    simp only [not_or] at hmissing
    cases hts : parseInt md.first.timestamp with
    | none =>
      refine iff_of_false (fun h => nomatch h) ?_
      rintro ⟨-, ts, hts', -⟩
      cases hts.symm.trans hts'
    | some ts =>
      have hwindow : InWindow now md.first ↔ skew now ts ≤ authTimestampSkew := by
        refine ⟨?_, fun h => ⟨ts, hts, h⟩⟩
        rintro ⟨ts', hts', h⟩
        cases hts.symm.trans hts'
        exact h
      rw [hwindow]
      by_cases hskew : skew now ts > authTimestampSkew
      · simp only [if_pos hskew]
        exact iff_of_false (fun h => nomatch h) fun h => absurd h.2 (by omega)
      · simp only [if_neg hskew]
        by_cases hsig : md.first.signature = computeHMAC secret md.first.nonce md.first.timestamp
        · rw [if_neg (not_ne_iff.mpr hsig)]
          exact iff_of_true rfl ⟨⟨hmissing.2.1, hsig⟩, by omega⟩
        · rw [if_pos hsig]
          exact iff_of_false (fun h => nomatch h) fun h => hsig h.1.2

/-! ### What was built and what is accepted -/

structure Made (secret : κ) (t : StreamTriple κ) (now : ℤ) : Prop where
  bounds : -2 ^ 63 ≤ now ∧ now < 2 ^ 63
  timestamp : t.timestamp = formatInt now
  nonce : t.nonce ≠ ""
  signature : t.signature = computeHMAC secret t.nonce t.timestamp

/-- Every signature was built, every attempt answered by the interceptor, and every accepted triple
built with the secret. -/
structure Recorded (secret : κ) (tr : List (StreamAuthEvent κ)) (s : StreamAuth κ) : Prop where
  signatures : ∀ sig ∈ s.signatures, ∃ k t built, .built k t built ∈ tr ∧ t.signature = sig
  made : ∀ k t built, .built k t built ∈ tr → Made k t built
  attempted : ∀ t now accepted, .attempted t now accepted ∈ tr →
    (accepted = true ↔ Signed secret t ∧ InWindow now t)
  built : ∀ tr₁ t now tr₂, tr = tr₁ ++ .attempted t now true :: tr₂ →
    ∃ built, .built secret t built ∈ tr₁

section

variable {secret : κ} {tr es : List (StreamAuthEvent κ)} {s s' : StreamAuth κ}

variable {t : StreamTriple κ}

theorem Made.parse {built : ℤ} (h : Made secret t built) : parseInt t.timestamp = some built := by
  rw [h.timestamp, parseInt_formatInt h.bounds]

theorem bar_not_mem {text : String} {v : ℤ} (h : parseInt text = some v) : '|' ∉ text.toList := by
  intro hmem
  rcases isDigit_of_parseInt h hmem with h | h | h <;> revert h <;> decide

section
variable (h : Recorded secret tr s)
include h

theorem Recorded.parts {t : Term String κ} (hpart : Term.Parts (s.known secret) t) :
    (∃ x, t = .atom x) ∨ (∃ k, k ≠ secret ∧ t = .key k) ∨ t ∈ s.signatures := by
  obtain ⟨u, hu, hmem⟩ := hpart
  rcases hu with ⟨x, rfl⟩ | ⟨k, hk, rfl⟩ | hsig
  · exact .inl ⟨x, mem_singleton.mp hmem⟩
  · exact .inr (.inl ⟨k, hk, mem_singleton.mp hmem⟩)
  · obtain ⟨k, t', built, hbuilt, rfl⟩ := h.signatures u hsig
    have hmac := (h.made k t' built hbuilt).signature
    rw [hmac] at hmem hsig
    rw [mem_singleton.mp hmem]
    exact .inr (.inr hsig)

/-- **No forgery**: a signed triple that can be presented was built with the secret. -/
theorem Recorded.unforged {ts : ℤ} (hts : parseInt t.timestamp = some ts)
    (hsig : t.signature = computeHMAC secret t.nonce t.timestamp)
    (hderives : Term.Derives (s.known secret) t.signature) :
    ∃ built, .built secret t built ∈ tr := by
  have hkey : ¬ Term.Parts (s.known secret) (.key secret) := by
    intro hpart
    rcases h.parts hpart with ⟨x, heq⟩ | ⟨k, hk, heq⟩ | hmem
    · cases heq
    · cases heq
      exact hk rfl
    · obtain ⟨k, t', built, hbuilt, heq⟩ := h.signatures _ hmem
      rw [(h.made k t' built hbuilt).signature] at heq
      cases heq
  rw [hsig] at hderives
  rcases h.parts (hderives.not_forged hkey) with ⟨x, heq⟩ | ⟨k, hk, heq⟩ | hmem
  · cases heq
  · cases heq
  · obtain ⟨k, t', built, hbuilt, heq⟩ := h.signatures _ hmem
    have hmade := h.made k t' built hbuilt
    rw [hmade.signature, computeHMAC, Term.mac.injEq, Term.atom.injEq] at heq
    obtain ⟨rfl, htext⟩ := heq
    -- the bar before the timestamp is the last one on both sides
    obtain ⟨hnonce, htime⟩ := append_bar_inj (bar_not_mem hmade.parse) (bar_not_mem hts) htext
    have ht : t' = t := by
      obtain ⟨time, nonce, signature⟩ := t
      obtain ⟨time', nonce', signature'⟩ := t'
      dsimp only at hnonce htime hsig
      have hsig' := hmade.signature
      dsimp only at hsig'
      rw [hsig, hsig', hnonce, htime]
    exact ⟨built, ht ▸ hbuilt⟩

theorem Recorded.snoc {e : StreamAuthEvent κ} (hsigs : ∀ sig ∈ s'.signatures, sig ∈ s.signatures ∨
      ∃ k t built, e = .built k t built ∧ t.signature = sig)
    (hmade : ∀ k t built, e = .built k t built → Made k t built)
    (hattempted : ∀ t now accepted, e = .attempted t now accepted →
      (accepted = true ↔ Signed secret t ∧ InWindow now t))
    (hbuilt : ∀ t now, e = .attempted t now true → ∃ built, .built secret t built ∈ tr) :
    Recorded secret (tr ++ [e]) s' where
  signatures := by
    intro sig hsig
    rcases hsigs sig hsig with hold | ⟨k, t, built, rfl, heq⟩
    · obtain ⟨k, t, built, hmem, heq⟩ := h.signatures sig hold
      exact ⟨k, t, built, mem_append_left _ hmem, heq⟩
    · exact ⟨k, t, built, by simp, heq⟩
  made := by
    intro k t built hmem
    rcases mem_append.mp hmem with hold | hnew
    · exact h.made k t built hold
    · exact hmade k t built (mem_singleton.mp hnew).symm
  attempted := by
    intro t now accepted hmem
    rcases mem_append.mp hmem with hold | hnew
    · exact h.attempted t now accepted hold
    · exact hattempted t now accepted (mem_singleton.mp hnew).symm
  built := by
    intro tr1 t now tr2 heq
    rcases append_eq_split heq with ⟨tr3, htr, -⟩ | ⟨es1, rfl, hes⟩
    · exact h.built tr1 t now tr3 htr
    · cases es1 with
      | nil =>
        rw [append_nil]
        exact hbuilt t now (List.cons.inj hes).1
      | cons x es1 => simp at hes

theorem recorded_step [DecidableEq κ] {a : StreamAuthAction κ} (hg : s.Presentable secret a)
    (hs : s.step secret a = some (s', es)) : Recorded secret (tr ++ es) s' := by
  cases a with
  | build localID k nonce now =>
    obtain ⟨⟨hlen, hbounds⟩, heq⟩ := ite_none_right_eq_some.mp hs
    cases heq
    refine h.snoc (fun sig hsig => ?_) ?_ (fun _ _ _ he => nomatch he) (fun _ _ he => nomatch he)
    · rcases mem_append.mp hsig with hold | hnew
      · exact .inl hold
      · exact .inr ⟨_, _, _, rfl, (mem_singleton.mp hnew).symm⟩
    · rintro k' t built ⟨⟩
      refine ⟨hbounds, rfl, fun hempty => ?_, rfl⟩
      -- sixteen bytes are not written as nothing
      have hnil := congrArg String.toList hempty
      cases nonce with
      | nil => cases hlen
      | cons b nonce => simp [StreamMetadata.first, hexEncode] at hnil
  | attempt md now =>
    cases md with
    | none =>
      cases hs
      exact h.snoc (fun _ hsig => .inl hsig) (fun _ _ _ he => nomatch he)
        (fun _ _ _ he => nomatch he) (fun _ _ he => nomatch he)
    | some md =>
      cases hs
      refine h.snoc (fun _ hsig => .inl hsig) (fun _ _ _ he => nomatch he) ?_ ?_
      · rintro t now' accepted ⟨⟩
        exact accepted_iff secret md now
      · intro t now' he
        rw [StreamAuthEvent.attempted.injEq] at he
        obtain ⟨rfl, -, hok⟩ := he
        obtain ⟨⟨-, hsig⟩, ts, hts, -⟩ := (accepted_iff secret md now).mp hok
        refine h.unforged hts hsig ?_
        cases hlist : md.signature with
        | nil =>
          rw [StreamMetadata.first, hlist] at hsig
          cases hsig
        | cons sig rest =>
          have hfirst : md.first.signature = sig := by rw [StreamMetadata.first, hlist]; rfl
          rw [hfirst]
          exact hg sig (by rw [hlist]; exact mem_cons_self)

end

theorem recorded_start (secret : κ) : Recorded secret [] ⟨[]⟩ where
  signatures := by simp
  made := by simp
  attempted := by simp
  built := by simp

theorem recorded_run [DecidableEq κ] (hrun : Run (step secret) (Presentable secret) ⟨[]⟩ tr s) :
    Recorded secret tr s :=
  hrun.invariant (Recorded secret) (recorded_start secret)
    fun _ _ _ _ _ h hg hs => recorded_step h hg hs

theorem Recorded.accepted_again (h : Recorded secret tr s) {now now' : ℤ} {accepted : Bool}
    (hfirst : .attempted t now true ∈ tr) (hagain : .attempted t now' accepted ∈ tr) :
    accepted = true ↔ InWindow now' t := by
  have hsigned := ((h.attempted t now true hfirst).mp rfl).1
  rw [h.attempted t now' accepted hagain, and_iff_right hsigned]

theorem Recorded.atMostOnce_iff (h : Recorded secret tr s) : AtMostOnce tr ↔ NoReplay tr := by
  have hmem : ∀ {tr1 t now tr2}, tr = tr1 ++ .attempted t now true :: tr2 →
      .attempted t now true ∈ tr ∧ ∀ e ∈ tr2, e ∈ tr := by
    rintro tr1 t now tr2 rfl
    exact ⟨by simp, fun e he => by simp [he]⟩
  constructor
  · intro honce tr1 t now tr2 htr now' accepted hagain hwindow
    obtain ⟨hfirst, hrest⟩ := hmem htr
    have hok := (h.accepted_again hfirst (hrest _ hagain)).mpr hwindow
    exact honce tr1 t now tr2 now' htr (hok ▸ hagain)
  · intro hreplay tr1 t now tr2 now' htr hagain
    obtain ⟨hfirst, hrest⟩ := hmem htr
    exact hreplay tr1 t now tr2 htr now' true hagain
      ((h.accepted_again hfirst (hrest _ hagain)).mp rfl)

theorem Recorded.authentic_iff (h : Recorded secret tr s) :
    Authentic secret tr ↔ ClockNotBehind secret tr := by
  constructor
  · intro hauth tr1 t now accepted tr2 built htr hbuilt
    by_contra hbehind
    have hmade := h.made secret t built (by rw [htr]; exact mem_append_left _ hbuilt)
    have hwindow : InWindow now t :=
      ⟨built, hmade.parse, (skew_le_iff now built).mpr (.inr (by omega))⟩
    have hok : accepted = true :=
      (h.attempted t now accepted (by rw [htr]; simp)).mpr
        ⟨⟨hmade.nonce, hmade.signature⟩, hwindow⟩
    subst hok
    obtain ⟨built', hbuilt', hnear⟩ := hauth tr1 t now tr2 htr
    have hmade' := h.made secret t built' (by rw [htr]; exact mem_append_left _ hbuilt')
    cases hmade.parse.symm.trans hmade'.parse
    simp only [authTimestampSkew] at hnear
    omega
  · intro hclock tr1 t now tr2 htr
    obtain ⟨built, hbuilt⟩ := h.built tr1 t now tr2 htr
    have hmade := h.made secret t built (by rw [htr]; exact mem_append_left _ hbuilt)
    obtain ⟨-, ts, hts, hskew⟩ := (h.attempted t now true (by rw [htr]; simp)).mp rfl
    cases hmade.parse.symm.trans hts
    refine ⟨built, hbuilt, ((skew_le_iff now built).mp hskew).resolve_right fun hbehind => ?_⟩
    have hnear := hclock tr1 t now true tr2 built htr hbuilt
    omega

end

/-- **Replays.** Whatever an attacker without the secret presents, each triple is accepted at most
once and near the time at which it was built, exactly if no accepted triple is repeated in its
window, and none is presented when the clock is 2⁶³ nanoseconds behind it. -/
theorem replay_iff [DecidableEq κ] {secret : κ} {tr : List (StreamAuthEvent κ)} {s : StreamAuth κ}
    (hrun : Run (step secret) (Presentable secret) ⟨[]⟩ tr s) :
    AtMostOnce tr ∧ Authentic secret tr ↔ NoReplay tr ∧ ClockNotBehind secret tr := by
  have h := recorded_run hrun
  rw [h.atMostOnce_iff, h.authentic_iff]

def copied (s : StreamAuth String) : StreamAuthAction String → Bool
  | .attempt (some md) _ => md.signature.all fun sig => sig ∈ s.signatures
  | _ => true

theorem presentable_of_copied {secret : String} (s : StreamAuth String)
    (a : StreamAuthAction String) (h : copied s a = true) : s.Presentable secret a := by
  cases a with
  | build => exact trivial
  | attempt md now =>
    cases md with
    | none => exact trivial
    | some md =>
      intro sig hsig
      exact .known (.inr (.inr (of_decide_eq_true (all_eq_true.mp h sig hsig))))

def builtAt (now : ℤ) : StreamMetadata String :=
  let ts := formatInt now
  let nonceHex := hexEncode (replicate 16 7)
  ⟨["n1"], [ts], [nonceHex], [computeHMAC "secret" nonceHex ts]⟩

/-- A copy that comes when the timestamp has left the window is refused. -/
theorem replay_iff_late : ∃ s tr, exec (step "secret") copied ⟨[]⟩
        [.build "n1" "secret" (replicate 16 7) 1000, .attempt (some (builtAt 1000)) 2000,
          .attempt (some (builtAt 1000)) 40000000000] = some (s, tr) ∧
      tr = [.built "secret" (builtAt 1000).first 1000, .attempted (builtAt 1000).first 2000 true,
        .attempted (builtAt 1000).first 40000000000 false] ∧
      (AtMostOnce tr ∧ Authentic "secret" tr ↔ NoReplay tr ∧ ClockNotBehind "secret" tr) := by
  refine exec_then (by decide +kernel) fun s tr hexec htr => ⟨htr, ?_⟩
  exact replay_iff (Run.of_exec presentable_of_copied hexec)

/-- A copy presented a microsecond later is accepted again; so is the last timestamp of 64 bits at
the nanosecond before 1970. -/
theorem copy_accepted : (∃ s tr, exec (step "secret") copied ⟨[]⟩
        [.build "n1" "secret" (replicate 16 7) 1000, .attempt (some (builtAt 1000)) 2000,
          .attempt (some (builtAt 1000)) 3000] = some (s, tr) ∧
      .attempted (builtAt 1000).first 3000 true ∈ tr ∧ ¬ AtMostOnce tr) ∧
    ∃ s tr, exec (step "secret") copied ⟨[]⟩
        [.build "n1" "secret" (replicate 16 7) (2 ^ 63 - 1),
          .attempt (some (builtAt (2 ^ 63 - 1))) (-1)] = some (s, tr) ∧
      .attempted (builtAt (2 ^ 63 - 1)).first (-1) true ∈ tr ∧ ¬ Authentic "secret" tr := by
  constructor
  · refine exec_then (P := fun _ tr => tr = [.built "secret" (builtAt 1000).first 1000,
      .attempted (builtAt 1000).first 2000 true, .attempted (builtAt 1000).first 3000 true])
      (by decide +kernel) ?_
    rintro s _ - rfl
    refine ⟨by simp, fun honce => ?_⟩
    exact honce [.built "secret" (builtAt 1000).first 1000] _ 2000 _ 3000 rfl (by simp)
  · refine exec_then (P := fun _ tr => tr =
      [.built "secret" (builtAt (2 ^ 63 - 1)).first (2 ^ 63 - 1),
        .attempted (builtAt (2 ^ 63 - 1)).first (-1) true]) (by decide +kernel) ?_
    rintro s _ - rfl
    refine ⟨by simp, fun hauth => ?_⟩
    obtain ⟨built, hbuilt, hnear⟩ := hauth [_] _ (-1) [] rfl
    rw [mem_singleton, StreamAuthEvent.built.injEq] at hbuilt
    simp only [authTimestampSkew] at hnear
    omega

end StreamAuth

end Westcoast.Cluster
