import SlopSync.Client.Run
import SlopSync.Labelled

/-! # What a client can do

Every function of the client is a run of acts, each of which changes one thing: a field or two, the history, or the
state of the world.  `x_does` names the acts of the function `x`.  What the acts of a call keep, the call keeps
(`Labelled.Path.invariant`). -/

namespace SlopSync

namespace Client

open Labelled

section

variable {ε : Type}

/-- One call of the world. -/
inductive World.Moves (w : World ε) (e : ε) : ε → Prop
  | opened : World.Moves w e (w.openTransport e).2
  | closed : World.Moves w e (w.closeTransport e)
  | filled (n : Nat) : World.Moves w e (w.fill n e).2
  | told (n : Note) : World.Moves w e (w.notify n e)

/-- Two clients that differ at most in what no law is about. -/
structure Same (c d : Client) : Prop where
  id : d.id = c.id
  monoMs : d.monoMs = c.monoMs
  state : d.state = c.state
  sessionId : d.sessionId = c.sessionId
  bootId : d.bootId = c.bootId
  grants : d.grants = c.grants
  shadows : d.shadows = c.shadows
  requiredRetained : d.requiredRetained = c.requiredRetained
  adoptedCount : d.adoptedCount = c.adoptedCount
  catalogReady : d.catalogReady = c.catalogReady
  chunkReassembler : d.chunkReassembler = c.chunkReassembler
  catalogChunkCount : d.catalogChunkCount = c.catalogChunkCount
  pending : d.pending = c.pending
  nextIntentId : d.nextIntentId = c.nextIntentId
  lastTxMs : d.lastTxMs = c.lastTxMs
  holdingSource : d.holdingSource = c.holdingSource
  estopActive : d.estopActive = c.estopActive
  estopSendFailed : d.estopSendFailed = c.estopSendFailed
  estopSentSeq : d.estopSentSeq = c.estopSentSeq
  clientNonce : d.clientNonce = c.clientNonce
  sigRequested : d.sigRequested = c.sigRequested
  hubPubkey : d.hubPubkey = c.hubPubkey
  hubAuth : d.hubAuth = c.hubAuth
  sigDeadlineMs : d.sigDeadlineMs = c.sigDeadlineMs
  probeActive : d.probeActive = c.probeActive
  probeStartMs : d.probeStartMs = c.probeStartMs

/-! ## Acts -/

inductive Act (ε : Type)
  | world (e : ε)
  | log (x : Io)
  | minor (f : Client → Client)
  | advance (nowUs : UInt32)
  | become (st : ClientSessionState)
  | write (type : FrameType) (ch : UInt16) (payload bytes : Bytes)
  | reset
  | welcome (m : WelcomeMsg)
  | ready (b : Bool)
  | forget
  | begin (h : BlobChunkHeader) (nowMs : UInt32)
  | insert (payload : Bytes) (nowMs : UInt32)
  | adopt
  | shadow (ch seq : UInt16) (payload : Bytes)
  | grant (gs : List GrantEntry)
  | drop
  | settle (id : UInt16)
  | echoed (m : EchoMsg)
  | queue (id : UInt16)
  | verify (sig : Bytes)
  | judge (st : HubAuthState)
  | pin (key : Bytes)
  | draw (n : Nonce)
  | arm
  | request (on : Bool)
  | startProbe
  | stopProbe
  | initiate (cause : UInt8)
  | initiated (f : EstopFrame)
  | repeated (f : EstopFrame) (nowMs : UInt32)
  | giveUp
  | observe (ch : UInt16) (payload : Bytes)

/-- Adopt a snapshot, if there is room for the channel and it is news. -/
def adoptShadow (ch seq : UInt16) (payload : Bytes) (c : Client) : Client :=
  match c.shadows.findOrCreateShadow ch with
  | none => c
  | some (e, shadows) =>
    { c with shadows := shadows.update ch (applyStateFrame seq payload e.slot).2, readyPending := false }

variable (w : World ε)

/-- What `sendFrame` does with a frame that fits. -/
def writeFrame (type : FrameType) (ch : UInt16) (payload bytes : Bytes) (s : Sys ε) : Sys ε :=
  let (ok, env) := w.write bytes s.env
  let s := { s.log (.write type ch payload ok) with env }
  if ok then s.modify fun c => { c with lastTxMs := clockMs w s } else s

def Act.apply : Act ε → Sys ε → Sys ε
  | .world e, s => { s with env := e }
  | .log x, s => s.log x
  | .minor f, s => s.modify f
  | .advance nowUs, s => s.modify fun c => { c with monoMs := c.monoMs.advance nowUs }
  | .become st, s => s.modify fun c => { c with state := st }
  | .write type ch payload bytes, s => writeFrame w type ch payload bytes s
  | .reset, s => s.modify resetSession
  | .welcome m, s => s.modify (adoptWelcome m)
  | .ready b, s => s.modify fun c => { c with catalogReady := b }
  | .forget, s => s.modify fun c => { c with catalogReady := false, chunkReassembler := {}, catalogChunkCount := 0 }
  | .begin h nowMs, s => s.modify (beginTransfer h nowMs)
  | .insert payload nowMs, s =>
    s.modify fun c => { c with chunkReassembler := c.chunkReassembler.insert payload nowMs }
  | .adopt, s => s.modify fun c => { c with adoptedCount := c.adoptedCount + 1 }
  | .shadow ch seq payload, s => s.modify (adoptShadow ch seq payload)
  | .grant gs, s => s.modify fun c => { c with grants := gs.foldl GrantTable.grant c.grants }
  | .drop, s => s.modify fun c => { c with pending := [] }
  | .settle id, s => s.modify fun c => { c with pending := c.pending.erase id }
  | .echoed m, s => s.modify fun c =>
    { c with pending := c.pending.erase m.intentId, cfgGen := m.cfgGen, holdingSource := true }
  | .queue id, s => s.modify fun c =>
    { c with pending := c.pending ++ [id], nextIntentId := if id + 1 = 0 then 1 else id + 1 }
  | .verify sig, s => s.modify fun c => { c with hubAuth := verdict w s.client sig }
  | .judge st, s => s.modify fun c => { c with hubAuth := st }
  | .pin key, s => setHubPublicKey key s
  | .draw n, s => s.modify fun c => { c with clientNonce := n }
  | .arm, s => s.modify fun c => { c with sigDeadlineMs := clockMs w s + Limits.hubSigTimeoutMs }
  | .request on, s => s.modify fun c => { c with sigRequested := on }
  | .startProbe, s => s.modify fun c =>
    { c with
      probeActive := true
      probeStartMs := clockMs w s
      probeBytesReceived := 0
      probeFramesReceived := 0
      probeMaxIndexSeen := none }
  | .stopProbe, s => s.modify fun c => { c with probeActive := false }
  | .initiate cause, s => s.modify fun c =>
    { c with
      estopActive := true
      estopSendFailed := false
      estopCause := cause
      estopSentSeq := c.estopNextSeq
      estopNextSeq := if c.estopNextSeq + 1 = 0 then 1 else c.estopNextSeq + 1
      estopAttempts := 0 }
  | .initiated f, s => (writeEstop w f s).modify fun c =>
    { c with
      lastTxMs := clockMs w (writeEstop w f s)
      estopAttempts := 1
      lastEstopSendMs := clockMs w (writeEstop w f s) }
  | .repeated f nowMs, s => (writeEstop w f s).modify fun c =>
    { c with lastTxMs := nowMs, estopAttempts := c.estopAttempts + 1, lastEstopSendMs := nowMs }
  | .giveUp, s => s.modify fun c => { c with estopActive := false, estopSendFailed := true }
  | .observe ch payload, s => s.modify (observeLatch ch payload)

/-- When an act can be done. -/
def Act.Ok : Act ε → Sys ε → Prop
  | .world e, s => w.Moves s.env e
  | .minor f, _ => ∀ c, Same c (f c)
  | .become st, s => (st = .syncing → s.client.state = .helloSent) ∧
      (st = .live → s.client.state = .syncing ∧ s.client.catalogReady = true ∧
        s.client.requiredRetained ≤ s.client.adoptedCount)
  | .ready b, s => b = true → s.client.cachedEtag = s.client.hubEtag ∨ s.client.chunkReassembler.complete = true
  | .verify _, s => s.client.sigRequested = true ∧ s.client.hubPubkey ≠ [] ∧ s.client.hubAuth ≠ .verified ∧
      s.client.hubAuth ≠ .mismatch
  | .queue _, s => s.client.state = .live ∧ s.client.hubAuth ≠ .mismatch ∧ s.client.hubAuth ≠ .timeout
  | .echoed m, s => m.intentId ∈ s.client.pending
  | _, _ => True

/-- A run of acts. -/
def Does (P : Act ε → Prop) : Sys ε → Sys ε → Prop := Path (fun a s t => a.Ok w s ∧ t = a.apply w s) P

/-- The world is called, a frame of these types is written, the delegate is told these things; and `K`. -/
def Act.In (T : FrameType → Prop) (N : Note → Prop) (K : Act ε → Prop) : Act ε → Prop
  | .world _ | .minor _ => True
  | .write type _ _ _ => T type
  | .log (.note n) => N n
  | a => K a

variable {w} {P Q K K' : Act ε → Prop} {T T' : FrameType → Prop} {N N' : Note → Prop} {s t u : Sys ε}

theorem Does.refl (s : Sys ε) : Does w P s s := Labelled.Path.refl s

theorem Does.trans (h : Does w P s t) (h' : Does w P t u) : Does w P s u := Labelled.Path.trans h h'

theorem Does.act {a : Act ε} (ha : P a) (hok : a.Ok w s) : Does w P s (a.apply w s) := Labelled.Path.single ha ⟨hok, rfl⟩

/-- One more act. -/
theorem Does.then {a : Act ε} (h : Does w P s t) (ha : P a) (hok : a.Ok w t) : Does w P s (a.apply w t) :=
  h.trans (Does.act ha hok)

/-- One act more that no law is about. -/
theorem Does.minor {f : Client → Client} (h : Does w (Act.In T N K) s t) (hf : ∀ c, Same c (f c)) :
    Does w (Act.In T N K) s (t.modify f) :=
  h.then (a := .minor f) trivial hf

/-- A sequence of acts within one bound is one within a wider bound. -/
theorem Does.mono (h : Does w P s t) (hPQ : ∀ a, P a → Q a) : Does w Q s t := Path.mono h hPQ

theorem Act.In.mono (hT : ∀ t, T t → T' t) (hN : ∀ n, N n → N' n) (hK : ∀ a, K a → K' a) :
    ∀ a : Act ε, Act.In T N K a → Act.In T' N' K' a
  | .world _, _ | .minor _, _ => trivial
  | .write _ _ _ _, h => hT _ h
  | .log (.note _), h => hN _ h
  | .log .connect, h | .log (.opened _), h | .log .closed, h | .log (.rx _), h | .log (.write _ _ _ _), h
  | .log (.writeEstop _ _), h | .log (.welcomed _), h | .log (.chunk _ _), h | .log .assembled, h => hK _ h
  | .advance _, h | .become _, h | .reset, h | .welcome _, h | .ready _, h | .forget, h | .begin _ _, h
  | .insert _ _, h | .adopt, h | .shadow _ _ _, h | .grant _, h | .drop, h | .settle _, h | .echoed _, h
  | .queue _, h | .verify _, h | .judge _, h | .pin _, h | .draw _, h | .arm, h | .request _, h | .startProbe, h
  | .stopProbe, h | .initiate _, h | .initiated _, h | .repeated _ _, h | .giveUp, h | .observe _ _, h => hK _ h

/-- An act of a class is of no law, a write, a note or one that is named. -/
theorem Act.In.of_kinds (hworld : ∀ e, Q (.world e)) (hminor : ∀ f, Q (.minor f))
    (hT : ∀ type ch payload bytes, T type → Q (.write type ch payload bytes)) (hN : ∀ n, N n → Q (.log (.note n)))
    (hK : ∀ a, K a → Q a) : ∀ a : Act ε, Act.In T N K a → Q a
  | .world e, _ => hworld e
  | .minor f, _ => hminor f
  | .write type ch payload bytes, h => hT type ch payload bytes h
  | .log (.note n), h => hN n h
  | .log .connect, h | .log (.opened _), h | .log .closed, h | .log (.rx _), h | .log (.write _ _ _ _), h
  | .log (.writeEstop _ _), h | .log (.welcomed _), h | .log (.chunk _ _), h | .log .assembled, h => hK _ h
  | .advance _, h | .become _, h | .reset, h | .welcome _, h | .ready _, h | .forget, h | .begin _ _, h
  | .insert _ _, h | .adopt, h | .shadow _ _ _, h | .grant _, h | .drop, h | .settle _, h | .echoed _, h
  | .queue _, h | .verify _, h | .judge _, h | .pin _, h | .draw _, h | .arm, h | .request _, h | .startProbe, h
  | .stopProbe, h | .initiate _, h | .initiated _, h | .repeated _ _, h | .giveUp, h | .observe _ _, h => hK _ h

/-! ## The state -/

/-- The state, the clock and the desk of a client are those it had. -/
structure Steady (c d : Client) : Prop where
  state : d.state = c.state
  monoMs : d.monoMs = c.monoMs
  pending : d.pending = c.pending
  next : d.nextIntentId = c.nextIntentId

/-- Observing the latch leaves the state of the session alone. -/
theorem observeLatch_steady (ch : UInt16) (payload : Bytes) (c : Client) : Steady c (observeLatch ch payload c) := by
  unfold observeLatch
  split <;> exact ⟨rfl, rfl, rfl, rfl⟩

theorem beginTransfer_steady (h : BlobChunkHeader) (nowMs : UInt32) (c : Client) :
    Steady c (beginTransfer h nowMs c) := by
  unfold beginTransfer
  split <;> exact ⟨rfl, rfl, rfl, rfl⟩

theorem adoptShadow_steady (ch seq : UInt16) (payload : Bytes) (c : Client) :
    Steady c (adoptShadow ch seq payload c) := by
  unfold adoptShadow
  split <;> exact ⟨rfl, rfl, rfl, rfl⟩

theorem writeFrame_steady (type : FrameType) (ch : UInt16) (payload bytes : Bytes) :
    Steady s.client (writeFrame w type ch payload bytes s).client := by
  simp only [writeFrame]
  split <;> exact ⟨rfl, rfl, rfl, rfl⟩

/-- Only `become` changes the state. -/
theorem state_act {a : Act ε} (ha : ∀ st, a ≠ .become st) (hok : a.Ok w s) :
    (a.apply w s).client.state = s.client.state := by
  cases a with
  | become st => exact absurd rfl (ha st)
  | minor f => exact (hok s.client).state
  | observe ch payload => exact (observeLatch_steady ch payload s.client).state
  | begin h nowMs => exact (beginTransfer_steady h nowMs s.client).state
  | shadow ch seq payload => exact (adoptShadow_steady ch seq payload s.client).state
  | write type ch payload bytes => exact (writeFrame_steady type ch payload bytes).state
  | _ => simp only [Act.apply, Sys.modify, Sys.log, setHubPublicKey, resetSession, adoptWelcome, writeEstop]

/-- Only `become` changes the state. -/
theorem state_does (h : Does w P s t) (hP : ∀ st, ¬ P (.become st)) : t.client.state = s.client.state :=
  Path.frame (f := fun s => s.client.state) h fun _ _ _ ha ⟨hok, heq⟩ =>
    heq ▸ state_act (fun st hst => hP st (hst ▸ ha)) hok

/-- Only `advance` changes the millisecond counter. -/
theorem mono_act {a : Act ε} (ha : ∀ nowUs, a ≠ .advance nowUs) (hok : a.Ok w s) :
    (a.apply w s).client.monoMs = s.client.monoMs := by
  cases a with
  | advance nowUs => exact absurd rfl (ha nowUs)
  | minor f => exact (hok s.client).monoMs
  | observe ch payload => exact (observeLatch_steady ch payload s.client).monoMs
  | begin h nowMs => exact (beginTransfer_steady h nowMs s.client).monoMs
  | shadow ch seq payload => exact (adoptShadow_steady ch seq payload s.client).monoMs
  | write type ch payload bytes => exact (writeFrame_steady type ch payload bytes).monoMs
  | _ => simp only [Act.apply, Sys.modify, Sys.log, setHubPublicKey, resetSession, adoptWelcome, writeEstop]

/-! ## Sending -/

/-- A callback is an act. -/
theorem notify_does {n : Note} (hN : N n) : Does w (Act.In T N K) s (notify w n s) :=
  (Does.act (a := .log (.note n)) hN trivial).then (a := .world (w.notify n s.env)) trivial (.told n)

/-- A change of state is one, and is told. -/
theorem setState_does {st : ClientSessionState} (hN : N (.onStateChange st)) (hK : K (.become st))
    (hok : (Act.become st).Ok w s) : Does w (Act.In T N K) s (setState w st s) :=
  Does.trans (Does.act (a := .become st) hK hok) (notify_does hN)

/-- A frame sent is one, whether the link takes it or not. -/
theorem sendFrame_does {type : FrameType} {ch : UInt16} {payload : Bytes} (hT : T type) :
    Does w (Act.In T N K) s (sendFrame w type ch payload s).2 := by
  unfold sendFrame
  split
  · exact Does.refl s
  · rename_i bytes _
    exact Does.act (a := .write type ch payload bytes) (P := Act.In T N K) hT trivial

/-- Flushing drops what is pending and tells of each. -/
theorem flushPending_does (hN : ∀ id, N (.onPendingDropped id)) (hK : K .drop) :
    Does w (Act.In T N K) s (flushPending w s) := by
  have hfold : ∀ (ids : List UInt16) (s : Sys ε),
      Does w (Act.In T N K) s (ids.foldl (fun s id => notify w (.onPendingDropped id) s) s) := by
    intro ids
    induction ids with
    | nil => exact Does.refl
    | cons id ids ih => exact fun s => (notify_does (hN id)).trans (ih _)
  exact (hfold _ s).then (a := .drop) hK trivial

/-- Going LIVE is told. -/
theorem checkLiveTransition_does (hN : N (.onStateChange .live)) (hK : K (.become .live)) :
    Does w (Act.In T N K) s (checkLiveTransition w s) := by
  unfold checkLiveTransition
  split
  · rename_i h
    exact setState_does hN hK ⟨nofun, fun _ => h⟩
  · exact Does.refl s

theorem sendBlobReq_does (hT : T .blobReq) : Does w (Act.In T N K) s (sendBlobReq w s) := by
  unfold sendBlobReq
  split
  · exact Does.refl s
  · dsimp only
    split
    · exact (sendFrame_does hT).minor fun c => by constructor <;> rfl
    · exact sendFrame_does hT

theorem sendCatalogReady_does {etag : Bytes} (hT : T .catalogReady) :
    Does w (Act.In T N K) s (sendCatalogReady w etag s) := by
  unfold sendCatalogReady
  split
  · exact Does.refl s
  · rename_i bytes _
    have hready : Does w (Act.In T N K) s (s.modify fun c => { c with readyEtag := bytes }) :=
      (Does.refl s).minor fun c => by constructor <;> rfl
    have hsend : Does w (Act.In T N K) s
        (sendFrame w .catalogReady 0 bytes (s.modify fun c => { c with readyEtag := bytes })).2 :=
      hready.trans (sendFrame_does hT)
    dsimp only
    split
    · exact hsend.minor fun c => by constructor <;> rfl
    · exact hsend

/-! ## Trust -/

/-- A verdict about the hub is told. -/
theorem setHubAuth_does {st : HubAuthState} (hN : N (.onHubAuth st)) (hK : K (.judge st)) :
    Does w (Act.In T N K) s (setHubAuth w st s) := by
  unfold setHubAuth
  split
  · exact Does.refl s
  · exact Does.trans (Does.act (a := .judge st) hK trivial) (notify_does hN)

/-- A signature is looked at only while there is no verdict. -/
theorem adoptHubSignature_does {sig : TrustBytes} (hN : ∀ st, st ≠ .timeout → N (.onHubAuth st))
    (hK : K (.judge .unverifiable)) (hV : K (.verify sig.val)) :
    Does w (Act.In T N K) s (adoptHubSignature w sig s) := by
  unfold adoptHubSignature
  dsimp only
  split
  · exact Does.refl s
  · rename_i hopen
    split
    · exact Does.refl s
    · rename_i hreq
      split
      · exact setHubAuth_does (hN _ (by decide)) hK
      · rename_i hkey
        have hok : (Act.verify sig.val).Ok w s :=
          ⟨by simpa using hreq, hkey, fun h => hopen (.inl h), fun h => hopen (.inr h)⟩
        have hverdict : verdict w s.client sig.val ≠ .timeout := by
          unfold verdict
          split <;> decide
        unfold setHubAuth
        split
        · exact Does.refl s
        · exact Does.trans (Does.act (a := .verify sig.val) hV hok) (notify_does (hN _ hverdict))

theorem sendAuthProof_does (hT : T .auth) : Does w (Act.In T N K) s (sendAuthProof w s) := by
  unfold sendAuthProof
  split
  · exact Does.refl s
  · split
    · exact Does.refl s
    · exact sendFrame_does hT

theorem resendSubscriptionWishes_does (hT : T .subscribe) :
    Does w (Act.In T N K) s (resendSubscriptionWishes w s) := by
  unfold resendSubscriptionWishes
  split
  · exact Does.refl s
  · split
    · exact Does.refl s
    · exact sendFrame_does hT

/-! ## connect and disconnect -/

/-- Asking for a signature draws a nonce, or judges without one. -/
theorem requestSignature_does (hN : ∀ st, st ≠ .timeout → N (.onHubAuth st)) (hD : ∀ n, K (.draw n))
    (hJ : ∀ st, st ≠ .verified → st ≠ .mismatch → st ≠ .timeout → K (.judge st)) :
    Does w (Act.In T N K) s (requestSignature w s) := by
  unfold requestSignature
  split
  · exact Does.refl s
  · have hdraw : Does w (Act.In T N K) s
        { client := { s.client with clientNonce := (w.fill 8 s.env).1 }, env := (w.fill 8 s.env).2, trace := s.trace } :=
      Does.trans (Does.act (a := .draw _) (hD _) trivial) (Does.act (a := .world _) trivial (.filled 8))
    refine hdraw.trans (setHubAuth_does (hN _ ?_) (hJ _ ?_ ?_ ?_)) <;> split <;> decide

theorem armSigDeadline_does (hK : K .arm) : Does w (Act.In T N K) s (armSigDeadline w s) := by
  unfold armSigDeadline
  split
  · exact Does.act (a := .arm) (P := Act.In T N K) hK trivial
  · exact Does.refl s

/-- The HELLO is sent, the deadline armed and the state moved on. -/
theorem sendHello_does (hT : T .hello) (hN : N (.onStateChange .helloSent)) (hA : K .arm)
    (hB : K (.become .helloSent)) : Does w (Act.In T N K) s (sendHello w s).2 := by
  unfold sendHello
  split
  · exact Does.refl s
  · dsimp only
    split
    · exact sendFrame_does hT
    · exact ((sendFrame_does hT).trans (armSigDeadline_does hA)).trans (setState_does hN hB ⟨nofun, nofun⟩)

/-- What is done once `connect` is called. -/
theorem connect_does (hT : T .hello) (hN : ∀ n, n ≠ .onHubAuth .timeout → N n) (hL : ∀ ok, K (.log (.opened ok)))
    (hD : K .drop) (hR : K .reset) (hF : ∀ n, K (.draw n))
    (hJ : ∀ st, st ≠ .verified → st ≠ .mismatch → st ≠ .timeout → K (.judge st)) (hA : K .arm)
    (hB : K (.become .helloSent)) : Does w (Act.In T N K) (s.log .connect) (connect w s).2 := by
  unfold connect
  dsimp only
  have hopen : Does w (Act.In T N K) (s.log .connect)
      { (flushPending w (s.log .connect)).log (.opened (w.openTransport (flushPending w (s.log .connect)).env).1) with
        env := (w.openTransport (flushPending w (s.log .connect)).env).2 } :=
    ((flushPending_does (fun _ => hN _ (fun h => nomatch h)) hD).then (a := .log (.opened _)) (hL _) trivial).then
      (a := .world _) trivial .opened
  split
  · exact hopen
  · have hreset := hopen.then (a := .reset) hR trivial
    have hauth : ∀ st, st ≠ HubAuthState.timeout → N (.onHubAuth st) := fun st h =>
      hN _ fun heq => h (Note.onHubAuth.inj heq)
    exact (hreset.trans (requestSignature_does hauth hF hJ)).trans
      (sendHello_does hT (hN _ (fun h => nomatch h)) hA hB)

theorem sendGoodbye_does (hT : T .goodbye) : Does w (Act.In T N K) s (sendGoodbye w s) := by
  unfold sendGoodbye
  split
  · exact Does.refl s
  · split
    · exact Does.refl s
    · exact sendFrame_does hT

/-- `disconnect` says goodbye, drops what is pending and closes. -/
theorem disconnect_does (hT : T .goodbye) (hN : ∀ n, n ≠ .onHubAuth .timeout → N n) (hD : K .drop)
    (hL : K (.log .closed)) (hB : K (.become .closed)) : Does w (Act.In T N K) s (disconnect w s) := by
  have hflush : Does w (Act.In T N K) s (flushPending w (sendGoodbye w s)) :=
    (sendGoodbye_does hT).trans (flushPending_does (fun _ => hN _ (fun h => nomatch h)) hD)
  exact ((hflush.then (a := .log .closed) hL trivial).then (a := .world _) trivial .closed).trans
    (setState_does (hN _ (fun h => nomatch h)) hB ⟨nofun, nofun⟩)

end

end Client

end SlopSync
