import SlopSync.Client.Does
import SlopSync.Laws.ClientSession

/-! # A verified hub has signed

A client calls its hub verified only after a signature came in on the transport as it is now opened, made over the
nonce drawn for this connection, that holds under a key pinned before.  Keys come from the application and from
grants, and a verdict stays until the transport is opened again: after a mismatch no intent leaves. -/

namespace SlopSync

namespace Client

open Labelled

/-! ## The history of a transport -/

/-- The transport was opened. -/
def Io.isOpened : Io → Bool
  | .opened ok => ok
  | _ => false

def Io.isIntent : Io → Bool
  | .write .intent _ _ _ => true
  | _ => false

/-- What happened since the transport was last opened, the newest first. -/
def sinceOpened (h : History) : History := h.takeWhile fun x => !x.2.isOpened

/-- The client read the frame `m` with this signature when it was `d`. -/
def Presented (h : History) (d : Client) (m : Inbound) (sig : Bytes) : Prop :=
  (d, Io.rx (.frame m)) ∈ h ∧ ∃ b, m.signature = some b ∧ b.val = sig

/-- The session and boot id a signature in this frame is taken to be over: a WELCOME says them, any other frame finds
those that the client has. -/
def Inbound.session (m : Inbound) (d : Client) : UInt32 × UInt32 :=
  match m with
  | .welcome (some x) => (x.sessionId, x.bootId)
  | _ => (d.sessionId, d.bootId)

/-- A key the application pinned, or that came with a grant. -/
def Given (keys : List Bytes) (h : History) (key : Bytes) : Prop :=
  key ∈ keys ∨ ∃ d m b, (d, Io.rx (.frame m)) ∈ h ∧ m.hubKey = some b ∧ b.val = key

/-- A verdict of the verifier. -/
def HubAuthState.Final (st : HubAuthState) : Prop := st = .verified ∨ st = .mismatch

instance (st : HubAuthState) : Decidable (HubAuthState.Final st) := inferInstanceAs (Decidable (_ ∨ _))

section

variable {ε : Type} (w : World ε) (keys : List Bytes)

/-- A signature was read that holds under the key pinned then, one that was given.  It is over the nonce of this
connection and the session that the frame was read in: the one the client is in, or none before the WELCOME. -/
def Proven (c : Client) (h : History) : Prop :=
  ∃ d m sig, Presented (sinceOpened h) d m sig ∧ Given keys h d.hubPubkey ∧
    (m.session d = (c.sessionId, c.bootId) ∨ (m.session d).1 = 0) ∧
    w.verifyP256 d.hubPubkey (hubSigMaterial c.clientNonce (m.session d).1 (m.session d).2) sig = true

/-- An intent leaves a LIVE client that has not been told to mistrust its hub. -/
def Trusting (x : Client × Io) (h : History) : Prop :=
  x.2.isIntent = true →
    x.1.state = .live ∧ x.1.hubAuth ≠ .timeout ∧ ∀ y ∈ x :: sinceOpened h, y.1.hubAuth ≠ .mismatch

structure Authentic (c : Client) (h : History) : Prop where
  pinned : c.hubPubkey = [] ∨ Given keys h c.hubPubkey
  verified : c.hubAuth = .verified → Proven w keys c h
  final : ∀ x ∈ sinceOpened h, HubAuthState.Final x.1.hubAuth → c.hubAuth = x.1.hubAuth
  intents : ∀ x tail, x :: tail <:+ h → Trusting x tail

end

/-! ## What leaves the verdict alone -/

/-- An entry that opens no transport belongs to the one before it. -/
theorem sinceOpened_cons {c : Client} {x : Io} (hx : x.isOpened = false) (h : History) :
    sinceOpened ((c, x) :: h) = (c, x) :: sinceOpened h := by
  unfold sinceOpened
  rw [List.takeWhile_cons]
  simp [hx]

theorem sinceOpened_opened (c : Client) (h : History) : sinceOpened ((c, .opened true) :: h) = [] := rfl

theorem Presented.cons {h : History} {d : Client} {m : Inbound} {sig : Bytes} (hp : Presented h d m sig) (x : Client × Io) :
    Presented (x :: h) d m sig :=
  ⟨List.mem_cons_of_mem x hp.1, hp.2⟩

theorem Given.cons {keys : List Bytes} {h : History} {key : Bytes} (hg : Given keys h key) (x : Client × Io) :
    Given keys (x :: h) key := by
  refine hg.imp_right ?_
  rintro ⟨d, m, b, hmem, hb⟩
  exact ⟨d, m, b, List.mem_cons_of_mem x hmem, hb⟩

/-- Two clients with the same key, verdict and material. -/
structure SameTrust (c d : Client) : Prop where
  hubPubkey : d.hubPubkey = c.hubPubkey
  hubAuth : d.hubAuth = c.hubAuth
  clientNonce : d.clientNonce = c.clientNonce
  sessionId : d.sessionId = c.sessionId
  bootId : d.bootId = c.bootId

theorem SameTrust.trans {c d e : Client} (h : SameTrust c d) (h' : SameTrust d e) : SameTrust c e :=
  ⟨h'.hubPubkey.trans h.hubPubkey, h'.hubAuth.trans h.hubAuth, h'.clientNonce.trans h.clientNonce,
    h'.sessionId.trans h.sessionId, h'.bootId.trans h.bootId⟩

/-- What leaves the client's fields alone leaves the fields of trust alone. -/
theorem SameTrust.of_same {c d : Client} (h : Same c d) : SameTrust c d :=
  ⟨h.hubPubkey, h.hubAuth, h.clientNonce, h.sessionId, h.bootId⟩

section

variable {ε : Type} {w : World ε} {keys : List Bytes} {c d : Client} {h : History} {s t : Sys ε}

/-- A proof is about the nonce, the session and the boot id, and about nothing else. -/
theorem Proven.same (hp : Proven w keys c h) (hn : d.clientNonce = c.clientNonce) (hs : d.sessionId = c.sessionId)
    (hb : d.bootId = c.bootId) : Proven w keys d h := by
  obtain ⟨e, m, sig, hsig, hkey, hmat, hver⟩ := hp
  refine ⟨e, m, sig, hsig, hkey, ?_, ?_⟩
  · rw [hs, hb]
    exact hmat
  · rw [hn]
    exact hver

/-- What has been proven on a transport stays proven while it is open. -/
theorem Proven.cons {x : Io} (hp : Proven w keys c h) (hx : x.isOpened = false) : Proven w keys c ((d, x) :: h) := by
  obtain ⟨e, m, sig, hsig, hkey, hmat, hver⟩ := hp
  refine ⟨e, m, sig, ?_, hkey.cons _, hmat, hver⟩
  rw [sinceOpened_cons hx]
  exact hsig.cons _

theorem Authentic.same (ha : Authentic w keys c h) (hs : SameTrust c d) : Authentic w keys d h where
  pinned := hs.hubPubkey ▸ ha.pinned
  verified hv := (ha.verified (hs.hubAuth ▸ hv)).same hs.clientNonce hs.sessionId hs.bootId
  final x hx hf := hs.hubAuth.trans (ha.final x hx hf)
  intents := ha.intents

theorem intents_cons {x : Client × Io} (ha : ∀ y tail, y :: tail <:+ h → Trusting y tail) (hx : Trusting x h) :
    ∀ y tail, y :: tail <:+ x :: h → Trusting y tail := by
  intro y tail hsuf
  rcases List.suffix_cons_iff.mp hsuf with heq | hsuf
  · obtain ⟨rfl, rfl⟩ := List.cons.inj heq
    exact hx
  · exact ha y tail hsuf

/-- An entry of the history keeps the law when it opens nothing and every INTENT in it was sent to a trusted hub. -/
theorem Authentic.cons {x : Io} (ha : Authentic w keys c h) (hx : x.isOpened = false)
    (ht : Trusting (c, x) h) : Authentic w keys c ((c, x) :: h) where
  pinned := ha.pinned.imp_right fun hg => hg.cons _
  verified hv := (ha.verified hv).cons hx
  final y hy hf := by
    rw [sinceOpened_cons hx] at hy
    rcases List.mem_cons.mp hy with rfl | hy
    · rfl
    · exact ha.final y hy hf
  intents := intents_cons ha.intents ht

/-- An entry that is no INTENT needs no trust. -/
theorem trusting_other {x : Client × Io} (hx : x.2.isIntent = false) (h : History) : Trusting x h := fun hi => by
  rw [hx] at hi
  cases hi

/-- An intent that leaves a LIVE client that is not told otherwise. -/
theorem Authentic.trusting {x : Io} (ha : Authentic w keys c h) (hst : c.state = .live) (hm : c.hubAuth ≠ .mismatch)
    (ht : c.hubAuth ≠ .timeout) : Trusting (c, x) h := by
  refine fun _ => ⟨hst, ht, fun y hy hmis => ?_⟩
  rcases List.mem_cons.mp hy with rfl | hy
  · exact hm hmis
  · exact hm ((ha.final y hy (.inr hmis)).trans hmis)

/-- Before the WELCOME there is no session. -/
def Fresh (c : Client) : Prop := c.state = .helloSent → c.sessionId = 0

def Sys.Authentic (w : World ε) (keys : List Bytes) (s : Sys ε) : Prop := Client.Authentic w keys s.client s.trace

/-- An act that leaves alone the key, the verdict, the material and the transport, and writes no intent. -/
def Act.Quiet : Act ε → Prop
  | .log x => x.isOpened = false ∧ x.isIntent = false
  | .write type _ _ _ => type ≠ .intent
  | .become st => st ≠ .helloSent
  | .verify _ | .judge _ | .pin _ | .draw _ | .reset | .welcome _ => False
  | _ => True

theorem Act.In.quiet {T : FrameType → Prop} {N : Note → Prop} {K : Act ε → Prop} (hT : ∀ type, T type → type ≠ .intent)
    (hK : ∀ a, K a → a.Quiet) : ∀ a : Act ε, Act.In T N K a → a.Quiet :=
  Act.In.of_kinds (fun _ => trivial) (fun _ => trivial) (fun type _ _ _ h => hT type h) (fun _ _ => ⟨rfl, rfl⟩) hK

theorem Io.isIntent_write {type : FrameType} (ht : type ≠ .intent) (ch : UInt16) (payload : Bytes) (ok : Bool) :
    (Io.write type ch payload ok).isIntent = false := by
  cases type with
  | intent => exact absurd rfl ht
  | _ => rfl

/-- A quiet act leaves the fields of trust alone. -/
theorem trust_quiet {a : Act ε} (ha : a.Quiet) (hok : a.Ok w s) : SameTrust s.client (a.apply w s).client := by
  cases a with
  | minor f => exact SameTrust.of_same (hok s.client)
  | become st => exact ⟨rfl, rfl, rfl, rfl, rfl⟩
  | verify | judge | pin | draw | reset | welcome => exact ha.elim
  | observe ch payload =>
    show SameTrust s.client (observeLatch ch payload s.client)
    unfold observeLatch
    split <;> exact ⟨rfl, rfl, rfl, rfl, rfl⟩
  | begin hd nowMs =>
    show SameTrust s.client (beginTransfer hd nowMs s.client)
    unfold beginTransfer
    split <;> exact ⟨rfl, rfl, rfl, rfl, rfl⟩
  | shadow ch seq payload =>
    show SameTrust s.client (adoptShadow ch seq payload s.client)
    unfold adoptShadow
    split <;> exact ⟨rfl, rfl, rfl, rfl, rfl⟩
  | write type ch payload bytes =>
    simp only [Act.apply, writeFrame]
    split <;> exact ⟨rfl, rfl, rfl, rfl, rfl⟩
  | world | log | advance | ready | forget | insert | adopt | grant | drop | settle | echoed | queue | arm | request
  | startProbe | stopProbe | initiate | initiated | repeated | giveUp =>
    simp only [Act.apply, Sys.modify, Sys.log, writeEstop]
    exact ⟨rfl, rfl, rfl, rfl, rfl⟩

/-- A client that has verified nothing stays so under quiet acts. -/
theorem fresh_quiet {a : Act ε} (ha : a.Quiet) (hok : a.Ok w s) (hf : Fresh s.client) : Fresh (a.apply w s).client := by
  intro hst
  rw [(trust_quiet ha hok).sessionId]
  refine hf ?_
  rw [← hst]
  refine (state_act (fun st heq => ?_) hok).symm
  subst heq
  exact ha hst

/-- What an act leaves in the history. -/
def Act.entry (w : World ε) (s : Sys ε) : Act ε → Option Io
  | .log x => some x
  | .write type ch payload bytes => some (.write type ch payload (w.write bytes s.env).1)
  | .initiated f | .repeated f _ => some (.writeEstop f (w.write (encodeEstop f) s.env).1)
  | _ => none

/-- An act adds at most one entry to the history. -/
theorem trace_act (a : Act ε) (s : Sys ε) :
    (a.apply w s).trace = ((a.entry w s).map fun x => (s.client, x)).toList ++ s.trace := by
  cases a with
  | write type ch payload bytes =>
    simp only [Act.apply, writeFrame]
    split <;> rfl
  | _ => rfl

/-- A quiet act neither opens the transport nor sends an INTENT. -/
theorem entry_quiet {a : Act ε} {x : Io} (ha : a.Quiet) (hx : a.entry w s = some x) :
    x.isOpened = false ∧ x.isIntent = false := by
  cases a with
  | log y =>
    cases hx
    exact ha
  | write type ch payload bytes =>
    cases hx
    exact ⟨rfl, Io.isIntent_write ha ch payload _⟩
  | initiated | repeated =>
    cases hx
    exact ⟨rfl, rfl⟩
  | _ => cases hx

/-- A quiet act keeps the law. -/
theorem authentic_quiet {a : Act ε} (ha : a.Quiet) (hok : a.Ok w s) (hs : s.Authentic w keys) :
    (a.apply w s).Authentic w keys := by
  refine Authentic.same (c := s.client) ?_ (trust_quiet ha hok)
  rw [trace_act]
  cases hx : a.entry w s with
  | none => exact hs
  | some x => exact Authentic.cons hs (entry_quiet ha hx).1 (trusting_other (entry_quiet ha hx).2 _)

/-- A sequence of quiet acts keeps the law. -/
theorem authentic_does {T : FrameType → Prop} {N : Note → Prop} {K : Act ε → Prop} (h : Does w (Act.In T N K) s t)
    (hT : ∀ type, T type → type ≠ .intent) (hK : ∀ a, K a → a.Quiet) (hs : s.Authentic w keys) : t.Authentic w keys :=
  Path.invariant (I := Sys.Authentic w keys) h
    (fun a _ _ ha ⟨hok, heq⟩ hx => heq ▸ authentic_quiet (Act.In.quiet hT hK a ha) hok hx) hs

theorem sameTrust_does {T : FrameType → Prop} {N : Note → Prop} {K : Act ε → Prop} (h : Does w (Act.In T N K) s t)
    (hT : ∀ type, T type → type ≠ .intent) (hK : ∀ a, K a → a.Quiet) : SameTrust s.client t.client :=
  Path.invariant (I := fun u => SameTrust s.client u.client) h
    (fun a _ _ ha ⟨hok, heq⟩ hx => heq ▸ hx.trans (trust_quiet (Act.In.quiet hT hK a ha) hok)) ⟨rfl, rfl, rfl, rfl, rfl⟩

/-- What was presented stays so until the transport is opened again. -/
theorem presented_does {T : FrameType → Prop} {N : Note → Prop} {K : Act ε → Prop} {d : Client} {m : Inbound}
    {sig : Bytes} (h : Does w (Act.In T N K) s t) (hT : ∀ type, T type → type ≠ .intent) (hK : ∀ a, K a → a.Quiet)
    (hp : Presented (sinceOpened s.trace) d m sig) : Presented (sinceOpened t.trace) d m sig := by
  refine Path.invariant (I := fun u => Presented (sinceOpened u.trace) d m sig) h (fun a u v ha ⟨_, heq⟩ hx => ?_) hp
  rw [heq, trace_act]
  cases hentry : a.entry w u with
  | none => exact hx
  | some x =>
    show Presented (sinceOpened ((u.client, x) :: u.trace)) d m sig
    rw [sinceOpened_cons (entry_quiet (Act.In.quiet hT hK a ha) hentry).1]
    exact hx.cons _

/-! ## The verdict -/

/-- A verdict is given where there was none. -/
theorem authentic_setHubAuth {st : HubAuthState} (hs : s.Authentic w keys) (hopen : ¬ HubAuthState.Final s.client.hubAuth)
    (hv : st = .verified → Proven w keys s.client s.trace) : (setHubAuth w st s).Authentic w keys := by
  unfold setHubAuth
  split
  · exact hs
  · have hjudged : Authentic w keys { s.client with hubAuth := st } s.trace :=
      { pinned := hs.pinned
        verified := fun he => (hv he).same rfl rfl rfl
        final := fun x hx hf => absurd (hs.final x hx hf ▸ hf) hopen
        intents := hs.intents }
    exact Authentic.cons hjudged rfl (trusting_other rfl _)

/-- A signature is adopted as a verdict only after the check over this session's own nonce and ids. -/
theorem authentic_adoptHubSignature {m : Inbound} {sig : TrustBytes} (hs : s.Authentic w keys)
    (hp : Presented (sinceOpened s.trace) d m sig.val) (hkey : s.client.hubPubkey = d.hubPubkey)
    (hses : m.session d = (s.client.sessionId, s.client.bootId)) : (adoptHubSignature w sig s).Authentic w keys := by
  unfold adoptHubSignature
  dsimp only
  split
  · exact hs
  · rename_i hopen
    split
    · exact hs
    · split
      · exact authentic_setHubAuth hs hopen nofun
      · rename_i hpinned
        refine authentic_setHubAuth hs hopen fun hv => ?_
        unfold verdict at hv
        split at hv
        · rename_i hver
          refine ⟨d, m, sig.val, hp, hkey ▸ hs.pinned.resolve_left hpinned, .inl hses, ?_⟩
          rw [hses, ← hkey]
          exact hver
        · cases hv

/-- A key that is given is pinned; the verdict is not given again. -/
theorem authentic_setHubPublicKey {key : Bytes} (hs : s.Authentic w keys) (hk : Given keys s.trace key) :
    (setHubPublicKey key s).Authentic w keys where
  pinned := by
    show (if kTrustPubkeyMaxBytes < key.length then [] else key) = [] ∨
      Given keys s.trace (if kTrustPubkeyMaxBytes < key.length then [] else key)
    split
    · exact .inl rfl
    · exact .inr hk
  verified hv := (hs.verified hv).same (c := s.client) rfl rfl rfl
  final := hs.final
  intents := hs.intents

/-! ## WELCOME -/

/-- Before the WELCOME a signature can only be over no session. -/
theorem Authentic.welcomed (ha : Authentic w keys c h) (hsid : c.sessionId = 0) (m : WelcomeMsg) :
    Authentic w keys (adoptWelcome m c) h where
  pinned := ha.pinned
  verified hv := by
    obtain ⟨d, x, sig, hsig, hkey, hmat, hver⟩ := ha.verified hv
    exact ⟨d, x, sig, hsig, hkey, .inr (hmat.elim (fun h => (congrArg Prod.fst h).trans hsid) fun h => h), hver⟩
  final := ha.final
  intents := ha.intents

/-- What is settled once a call has returned. -/
def Sys.Settled (w : World ε) (keys : List Bytes) (s : Sys ε) : Prop := s.Authentic w keys ∧ Fresh s.client

/-- Quiet acts keep the law and what the frame has settled so far. -/
theorem settled_does {T : FrameType → Prop} {N : Note → Prop} {K : Act ε → Prop} (h : Does w (Act.In T N K) s t)
    (hT : ∀ type, T type → type ≠ .intent) (hK : ∀ a, K a → a.Quiet) (hs : s.Settled w keys) : t.Settled w keys :=
  Path.invariant (I := Sys.Settled w keys) h (fun a _ _ ha ⟨hok, heq⟩ hx =>
    heq ▸ ⟨authentic_quiet (Act.In.quiet hT hK a ha) hok hx.1, fresh_quiet (Act.In.quiet hT hK a ha) hok hx.2⟩) hs

/-- A WELCOME gives the session its ids before its signature is looked at. -/
theorem settled_handleWelcome {m : WelcomeMsg} (hs : s.Settled w keys) (hd : SameTrust d s.client)
    (hp : ∀ b, m.welcomeSig = some b → Presented (sinceOpened s.trace) d (.welcome (some m)) b.val) :
    (handleWelcome w (some m) s).Settled w keys := by
  unfold handleWelcome
  dsimp only
  split
  · exact hs
  · rename_i hst
    have hwelcomed : Sys.Authentic w keys ((s.log (.welcomed m)).modify (adoptWelcome m)) :=
      Authentic.welcomed (hs.1.cons rfl (trusting_other rfl _)) (hs.2 (not_not.mp hst)) m
    have hboot := bootstrapCatalog_does (w := w) (s := (s.log (.welcomed m)).modify (adoptWelcome m))
      (T := (· = .blobReq)) (N := fun _ => False) (K := fun a => a = .ready true ∨ a = .forget) rfl (.inl rfl) (.inr rfl)
    have hT : ∀ type, type = FrameType.blobReq → type ≠ .intent := fun _ h => h ▸ nofun
    have hK : ∀ a : Act ε, a = .ready true ∨ a = .forget → a.Quiet := fun _ h => by rcases h with rfl | rfl <;> trivial
    have hauth := authentic_does hboot hT hK hwelcomed
    have hlast : ∀ {t : Sys ε}, t.Authentic w keys →
        Sys.Settled w keys (checkLiveTransition w (setState w .syncing (presentProof w t))) := by
      intro t ht
      have hproof := authentic_does (presentProof_does (w := w) (T := (· = .auth)) (N := fun _ => False)
        (K := fun _ => False) rfl) (fun _ h => h ▸ nofun) (fun _ h => h.elim) ht
      refine settled_does (checkLiveTransition_does (T := fun _ => False) (N := fun _ => True)
        (K := fun a => a = .become .live) trivial rfl) (fun _ h => h.elim) (fun _ h => h ▸ nofun) ⟨?_, nofun⟩
      exact Authentic.cons (Authentic.same hproof ⟨rfl, rfl, rfl, rfl, rfl⟩) rfl (trusting_other rfl _)
    split
    · exact hlast hauth
    · rename_i sig hsig
      have hkept := sameTrust_does hboot hT hK
      refine hlast (authentic_adoptHubSignature (d := d) (m := .welcome (some m)) hauth (presented_does hboot hT hK ?_)
        (hkept.hubPubkey.trans hd.hubPubkey) ?_)
      · show Presented (sinceOpened ((s.client, .welcomed m) :: s.trace)) d (.welcome (some m)) sig.val
        rw [sinceOpened_cons rfl]
        exact (hp sig hsig).cons _
      · rw [hkept.sessionId, hkept.bootId]
        rfl

/-! ## Frames -/

/-- A verdict is reached once, and `verified` only with a proof. -/
theorem settled_hubAuth {st : HubAuthState} (hs : s.Settled w keys) (hopen : ¬ HubAuthState.Final s.client.hubAuth)
    (hv : st = .verified → Proven w keys s.client s.trace) : (setHubAuth w st s).Settled w keys := by
  refine ⟨authentic_setHubAuth hs.1 hopen hv, ?_⟩
  unfold setHubAuth
  split
  · exact hs.2
  · exact hs.2

/-- A HUB_SIG settles the verdict, or nothing. -/
theorem settled_adoptHubSignature {m : Inbound} {sig : TrustBytes} (hs : s.Settled w keys)
    (hp : Presented (sinceOpened s.trace) d m sig.val) (hkey : s.client.hubPubkey = d.hubPubkey)
    (hses : m.session d = (s.client.sessionId, s.client.bootId)) : (adoptHubSignature w sig s).Settled w keys := by
  refine ⟨authentic_adoptHubSignature hs.1 hp hkey hses, ?_⟩
  unfold adoptHubSignature setHubAuth
  dsimp only
  repeat' split
  all_goals exact hs.2

/-- A PAIR_GRANT pins the key it brings. -/
theorem settled_handlePairGrant {msg : Option PairGrantMsg} (hs : s.Settled w keys)
    (hk : ∀ m b, msg = some m → m.hubPubkey = some b → Given keys s.trace b.val) :
    (handlePairGrant w msg s).Settled w keys := by
  have hnote : ∀ {t : Sys ε} (n : Note), t.Settled w keys → (notify w n t).Settled w keys := fun n ht =>
    settled_does (notify_does (T := fun _ => False) (N := fun _ => True) (K := fun _ => False) trivial)
      (fun _ h => h.elim) (fun _ h => h.elim) ht
  unfold handlePairGrant
  split
  · exact hs
  · rename_i m
    dsimp only
    split
    · exact hnote _ hs
    · rename_i key hkey
      exact hnote _ (hnote _ ⟨authentic_setHubPublicKey hs.1 (hk m key rfl hkey), hs.2⟩)

/-- Dispatch keeps the law, message by message. -/
theorem settled_dispatch {m : Inbound} {nowMs : UInt32} (hs : s.Settled w keys) (hd : SameTrust d s.client)
    (hp : ∀ b, m.signature = some b → Presented (sinceOpened s.trace) d m b.val)
    (hk : ∀ b, m.hubKey = some b → Given keys s.trace b.val) : (dispatch w m nowMs s).Settled w keys := by
  have hquiet : ∀ {t : Sys ε}, Does w (Act.In (· ≠ .intent) (fun _ => True) Act.Quiet) s t → t.Settled w keys :=
    fun h => settled_does h (fun _ h => h) (fun _ h => h) hs
  unfold dispatch
  cases m with
  | welcome msg =>
    cases msg with
    | none => exact hs
    | some m => exact settled_handleWelcome hs hd hp
  | hubSig sig =>
    cases sig with
    | none => exact hs
    | some b =>
      exact settled_adoptHubSignature hs (hp b rfl) hd.hubPubkey (Prod.ext hd.sessionId.symm hd.bootId.symm)
  | pairGrant msg =>
    refine settled_handlePairGrant hs fun m b hm hb => hk b ?_
    rw [hm]
    exact hb
  | state ch seq payload => exact hquiet (handleState_does (fun _ _ => trivial) trivial trivial nofun trivial)
  | echo msg => exact hquiet (handleEcho_does (fun _ _ => trivial) fun _ _ => trivial)
  | nack msg => exact hquiet (handleNack_does (fun _ _ => trivial) nofun fun _ => trivial)
  | grant msg => exact hquiet (handleGrant_does nofun (fun _ _ => trivial) fun _ _ => trivial)
  | event ch payload => exact hquiet (notify_does trivial)
  | blobChunk payload =>
    exact hquiet (handleBlobChunk_does nofun trivial (fun _ => trivial) (fun _ _ => ⟨rfl, rfl⟩) trivial ⟨rfl, rfl⟩
      trivial nofun)
  | ping payload => exact hquiet (handlePing_does nofun)
  | probe payload => exact hquiet handleProbeFrame_does
  | goodbye => exact hquiet (handleGoodbye_does trivial (fun _ => trivial) nofun trivial)
  | other => exact hs

/-- A frame keeps the law. -/
theorem settled_handleFrame {rx : RxFrame} {nowMs : UInt32} (hs : s.Settled w keys) :
    (handleFrame w nowMs s rx).Settled w keys := by
  have hlog : (s.log (.rx rx)).Settled w keys := ⟨Authentic.cons hs.1 rfl (trusting_other rfl _), hs.2⟩
  have hlast : ∀ {t : Sys ε}, t.Settled w keys → (t.modify fun c => { c with lastRxMs := nowMs }).Settled w keys :=
    fun ht => ⟨Authentic.same ht.1 ⟨rfl, rfl, rfl, rfl, rfl⟩, ht.2⟩
  unfold handleFrame
  cases rx with
  | estop => exact hlast hlog
  | badEstop | short => exact hlog
  | frame m =>
    refine settled_dispatch (d := s.client) (hlast hlog) ⟨rfl, rfl, rfl, rfl, rfl⟩ (fun b hb => ?_) fun b hb => ?_
    · show Presented (sinceOpened ((s.client, .rx (.frame m)) :: s.trace)) s.client m b.val
      rw [sinceOpened_cons rfl]
      exact ⟨List.mem_cons_self, b, hb, rfl⟩
    · exact .inr ⟨s.client, m, b, List.mem_cons_self, hb, rfl⟩

/-! ## Calls -/

/-- Running out of time verifies nothing. -/
theorem settled_pumpHubSigTimeout {nowMs : UInt32} (hs : s.Settled w keys) :
    (pumpHubSigTimeout w nowMs s).Settled w keys := by
  unfold pumpHubSigTimeout
  split
  · exact hs
  · rename_i hpending
    split
    · exact hs
    · refine settled_hubAuth hs ?_ nofun
      rw [not_not.mp hpending]
      decide

/-- `update` keeps the law. -/
theorem settled_update {nowUs : UInt32} {frames : List RxFrame} (hs : s.Settled w keys) :
    (update w nowUs frames s).Settled w keys := by
  have hframes : ∀ (frames : List RxFrame) (s : Sys ε) (nowMs : UInt32), s.Settled w keys →
      (frames.foldl (handleFrame w nowMs) s).Settled w keys := by
    intro frames
    induction frames with
    | nil => exact fun _ _ h => h
    | cons rx frames ih => exact fun s nowMs h => ih _ nowMs (settled_handleFrame h)
  have hpumps : ∀ (nowMs : UInt32) (t : Sys ε), Does w (Act.In (· ≠ .intent) (fun _ => True) Act.Quiet) t
      (pumpProbe w nowMs (pumpCatalogReady w nowMs (pumpEstopRepeat w nowMs (pumpPing w nowMs t)))) := fun nowMs t =>
    Does.trans (pumpPing_does nofun) (Does.trans (pumpEstopRepeat_does (fun _ => trivial) trivial)
      (Does.trans (pumpCatalogReady_does nofun) (pumpProbe_does nofun trivial)))
  unfold update pumps
  refine settled_pumpHubSigTimeout (settled_does (hpumps _ _) (fun _ h => h) (fun _ h => h) (hframes frames _ _ ?_))
  exact ⟨Authentic.same hs.1 ⟨rfl, rfl, rfl, rfl, rfl⟩, hs.2⟩

/-! ## connect -/

/-- No session and no verdict: what `connect` starts from. -/
structure Blank (w : World ε) (keys : List Bytes) (s : Sys ε) : Prop where
  authentic : s.Authentic w keys
  unjudged : ¬ HubAuthState.Final s.client.hubAuth
  sessionId : s.client.sessionId = 0

/-- While the transport is being opened nothing is verified yet. -/
theorem Blank.does {T : FrameType → Prop} {N : Note → Prop} {K : Act ε → Prop} (hs : Blank w keys s)
    (h : Does w (Act.In T N K) s t) (hT : ∀ type, T type → type ≠ .intent) (hK : ∀ a, K a → a.Quiet) :
    Blank w keys t :=
  Path.invariant (I := Blank w keys) h (fun a _ _ ha ⟨hok, heq⟩ hx => by
    have hq := Act.In.quiet hT hK a ha
    subst heq
    exact ⟨authentic_quiet hq hok hx.authentic, (trust_quiet hq hok).hubAuth ▸ hx.unjudged,
      (trust_quiet hq hok).sessionId.trans hx.sessionId⟩) hs

/-- What is known of the old session is forgotten with it. -/
theorem blank_reset (hs : s.Authentic w keys) (e : ε) :
    Blank w keys (Sys.modify { s.log (.opened true) with env := e } resetSession) where
  authentic :=
    { pinned := hs.pinned.imp_right fun hg => hg.cons _
      verified := nofun
      final := fun x hx => by
        change x ∈ sinceOpened ((s.client, .opened true) :: s.trace) at hx
        rw [sinceOpened_opened] at hx
        cases hx
      intents := intents_cons hs.intents (trusting_other rfl _) }
  unjudged := nofun
  sessionId := rfl

/-- While the transport is being opened no final verdict is reached. -/
theorem Blank.setHubAuth {st : HubAuthState} (hs : Blank w keys s) (hst : ¬ HubAuthState.Final st) :
    Blank w keys (setHubAuth w st s) := by
  refine ⟨authentic_setHubAuth hs.authentic hs.unjudged fun hv => absurd (.inl hv) hst, ?_, ?_⟩
  · unfold Client.setHubAuth
    split
    · exact hs.unjudged
    · exact hst
  · unfold Client.setHubAuth
    split <;> exact hs.sessionId

/-- Where nothing was judged, another nonce makes no difference. -/
theorem Blank.draw (hs : Blank w keys s) (n : Nonce) (e : ε) :
    Blank w keys { client := { s.client with clientNonce := n }, env := e, trace := s.trace } where
  authentic :=
    { pinned := hs.authentic.pinned
      verified := fun hv => absurd (.inl hv) hs.unjudged
      final := hs.authentic.final
      intents := hs.authentic.intents }
  unjudged := hs.unjudged
  sessionId := hs.sessionId

theorem Blank.requestSignature (hs : Blank w keys s) : Blank w keys (requestSignature w s) := by
  unfold Client.requestSignature
  split
  · exact hs
  · refine (hs.draw (w.fill 8 s.env).1 (w.fill 8 s.env).2).setHubAuth ?_
    split <;> decide

/-- After the HELLO the law holds of a hub of which nothing is known. -/
theorem Blank.sendHello (hs : Blank w keys s) : (sendHello w s).2.Settled w keys := by
  unfold Client.sendHello
  split
  · exact ⟨hs.authentic, fun _ => hs.sessionId⟩
  · rename_i bytes _
    have hsent : Blank w keys (sendFrame w .hello 0 bytes s).2 :=
      hs.does (sendFrame_does (T := (· = .hello)) (N := fun _ => False) (K := fun _ => False) rfl)
        (fun _ h => h ▸ nofun) fun _ h => h.elim
    dsimp only
    split
    · exact ⟨hsent.authentic, fun _ => hsent.sessionId⟩
    · have harmed : Blank w keys (armSigDeadline w (sendFrame w .hello 0 bytes s).2) :=
        hsent.does (armSigDeadline_does (T := fun _ => False) (N := fun _ => False) (K := (· = .arm)) rfl)
          (fun _ h => h.elim) fun _ h => h ▸ trivial
      exact ⟨Authentic.cons (Authentic.same harmed.authentic ⟨rfl, rfl, rfl, rfl, rfl⟩) rfl (trusting_other rfl _),
        fun _ => harmed.sessionId⟩

/-- `connect` keeps the law by starting over. -/
theorem settled_connect (hs : s.Settled w keys) : (connect w s).2.Settled w keys := by
  have hlog : (s.log .connect).Settled w keys := ⟨Authentic.cons hs.1 rfl (trusting_other rfl _), hs.2⟩
  have hflush : (flushPending w (s.log .connect)).Settled w keys :=
    settled_does (flushPending_does (T := fun _ => False) (N := fun _ => True) (K := (· = .drop)) (fun _ => trivial) rfl)
      (fun _ h => h.elim) (fun _ h => h ▸ trivial) hlog
  unfold connect
  dsimp only
  cases hopen : (w.openTransport (flushPending w (s.log .connect)).env).1 with
  | false => exact ⟨Authentic.cons hflush.1 rfl (trusting_other rfl _), hflush.2⟩
  | true => exact (blank_reset hflush.1 _).requestSignature.sendHello

/-! ## Runs -/

/-- `sendIntent` writes nothing to a hub that had to be verified and was not. -/
theorem settled_sendIntent {ch : UInt16} {values : IntentValueMap} {precondition : Option UInt16} {takeover : Bool}
    (hs : s.Settled w keys) : (sendIntent w ch values precondition takeover s).2.Settled w keys := by
  unfold sendIntent
  dsimp only
  split
  · exact hs
  · rename_i hlive
    split
    · exact hs
    · rename_i hauth
      split
      · exact hs
      · split
        · exact hs
        · rename_i bytes _
          have hsent : (sendFrame w .intent ch bytes s).2.Settled w keys := by
            unfold sendFrame
            split
            · exact hs
            · rename_i frame _
              have htrust := hs.1.trusting (x := .write .intent ch bytes (w.write frame s.env).1) (not_not.mp hlive)
                (fun h => hauth (.inl h)) fun h => hauth (.inr h)
              dsimp only
              split <;> exact ⟨Authentic.same (hs.1.cons rfl htrust) ⟨rfl, rfl, rfl, rfl, rfl⟩, hs.2⟩
          split
          · exact hsent
          · exact ⟨Authentic.same hsent.1 ⟨rfl, rfl, rfl, rfl, rfl⟩, hsent.2⟩

/-- The key a call pins. -/
def Call.key : Call ε → Option Bytes
  | .setHubPublicKey key => some key
  | _ => none

/-- Every call keeps the law. -/
theorem settled_call {k : Call ε} (hs : s.Settled w keys) (hk : ∀ key, k.key = some key → key ∈ keys) :
    (call w s k).Settled w keys := by
  have hquiet : ∀ {t : Sys ε}, Does w (Act.In (· ≠ .intent) (fun _ => True) Act.Quiet) s t → t.Settled w keys :=
    fun h => settled_does h (fun _ h => h) (fun _ h => h) hs
  cases k with
  | world e => exact hs
  | addSubscriptionWish x =>
    refine hquiet ((Does.refl s).minor (f := addSubscriptionWish x) fun c => ?_)
    unfold addSubscriptionWish
    split <;> constructor <;> rfl
  | setCachedEtag etag =>
    exact hquiet ((Does.refl s).minor (f := fun c => { c with cachedEtag := etag }) fun c => by constructor <;> rfl)
  | setClientVersion ver =>
    exact hquiet ((Does.refl s).minor (f := fun c => { c with clientVer := ver }) fun c => by constructor <;> rfl)
  | setTokenPresentationMode mode =>
    exact hquiet ((Does.refl s).minor (f := fun c => { c with presentationMode := mode }) fun c => by constructor <;> rfl)
  | connect => exact settled_connect hs
  | disconnect => exact hquiet (disconnect_does nofun (fun _ _ => trivial) trivial ⟨rfl, rfl⟩ nofun)
  | update => exact settled_update hs
  | sendIntent => exact settled_sendIntent hs
  | initiateEstop cause => exact hquiet (initiateEstop_does trivial fun _ => trivial)
  | sendPairReq => exact hquiet (sendPairReq_does nofun)
  | sendPairKnock => exact hquiet (sendPairing_does nofun)
  | runProbe => exact hquiet (runProbe_does nofun trivial)
  | setHubPublicKey key => exact ⟨authentic_setHubPublicKey hs.1 (.inl (hk key rfl)), hs.2⟩
  | requestHubSignature on => exact hquiet (Does.act (a := .request on) (P := Act.In _ _ _) trivial trivial)

theorem settled_boot (id : ClientIdentity) (e : ε) : (boot id e).Settled w keys :=
  ⟨{ pinned := .inl rfl
     verified := fun h => by cases h
     final := fun _ h => by cases h
     intents := fun _ _ h => by cases List.suffix_nil.mp h }, fun _ => rfl⟩

/-- **A client that calls its hub verified has read, on this transport, a signature over the nonce of this connection
and the session it was read in that holds under the key pinned then; its verdict stays; and an intent leaves only
without a bad one.** -/
theorem hub_authentic (w : World ε) (id : ClientIdentity) (e : ε) (calls : List (Call ε)) :
    Authentic w (calls.filterMap Call.key) (run w id e calls).client (run w id e calls).trace := by
  have hrun : ∀ p, p <+: calls → (run w id e p).Settled w (calls.filterMap Call.key) := by
    intro p
    induction p using List.reverseRecOn with
    | nil => exact fun _ => settled_boot id e
    | append_singleton p k ih =>
      intro hp
      rw [run_append]
      refine settled_call (ih ((List.prefix_append p [k]).trans hp)) fun key hkey => ?_
      exact List.mem_filterMap.mpr ⟨k, hp.subset (by simp), hkey⟩
  exact (hrun calls (List.prefix_refl calls)).1

end

end Client

end SlopSync
