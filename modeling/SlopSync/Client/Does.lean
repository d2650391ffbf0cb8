import SlopSync.Client.Acts

/-! # The acts of the handlers and of the calls

For every handler, pump and call of a client, what it may do.  The hypotheses name the frames it may write, what it may
tell the delegate and the acts it may be made of. -/

namespace SlopSync

namespace Client

open Labelled

section

variable {ε : Type} {w : World ε} {K : Act ε → Prop} {T : FrameType → Prop} {N : Note → Prop} {s t : Sys ε}

/-- The intent whose end a note tells. -/
def Note.ended : Note → Option UInt16
  | .onEcho id _ _ | .onPendingDropped id => some id
  | _ => none

/-- Neither the end of an intent nor that of the wait for a signature. -/
def Note.Routine (n : Note) : Prop := n ≠ .onHubAuth .timeout ∧ n.ended = none

/-! ## WELCOME -/

/-- The catalog is asked for, or taken from the cache. -/
theorem bootstrapCatalog_does (hT : T .blobReq) (hR : K (.ready true)) (hF : K .forget) :
    Does w (Act.In T N K) s (bootstrapCatalog w s) := by
  unfold bootstrapCatalog
  split
  · rename_i h
    exact Does.act (a := .ready true) (P := Act.In T N K) hR fun _ => .inl h
  · exact Does.trans (Does.act (a := .forget) hF trivial) (sendBlobReq_does hT)

/-- The proof of a token is sent in an AUTH. -/
theorem presentProof_does (hT : T .auth) : Does w (Act.In T N K) s (presentProof w s) := by
  unfold presentProof
  split
  · exact sendAuthProof_does hT
  · exact Does.refl s

/-- What is done with the signature of a WELCOME. -/
def Judges (m : WelcomeMsg) : Act ε → Prop
  | .judge st => st = .unverifiable
  | .verify sig => ∃ b, m.welcomeSig = some b ∧ b.val = sig
  | _ => False

/-- A WELCOME that is accepted: what it says is adopted, the catalog is found or asked for, then the client is SYNCING. -/
theorem handleWelcome_eq (m : WelcomeMsg) (h : s.client.state = .helloSent) :
    ∃ t, Does w (Act.In (· = .auth) (fun n => ∃ st, st ≠ .timeout ∧ n = .onHubAuth st) (Judges m))
        (bootstrapCatalog w ((s.log (.welcomed m)).modify (adoptWelcome m))) t ∧
      handleWelcome w (some m) s = checkLiveTransition w (setState w .syncing t) := by
  unfold handleWelcome
  dsimp only
  rw [if_neg (fun hne => hne h)]
  refine ⟨_, ?_, rfl⟩
  refine Does.trans ?_ (presentProof_does rfl)
  cases hsig : m.welcomeSig with
  | none => exact Does.refl _
  | some sig => exact adoptHubSignature_does (fun st hst => ⟨st, hst, rfl⟩) rfl ⟨sig, hsig, rfl⟩

/-- A WELCOME opens the session, asks for the catalog and judges the hub. -/
theorem handleWelcome_does {m : WelcomeMsg} (hT : T .blobReq) (hT' : T .auth) (hN : ∀ n, n.Routine → N n)
    (hL : K (.log (.welcomed m))) (hW : K (.welcome m)) (hR : K (.ready true)) (hF : K .forget)
    (hJ : K (.judge .unverifiable)) (hV : ∀ sig, m.welcomeSig = some sig → K (.verify sig.val))
    (hS : K (.become .syncing)) (hB : K (.become .live)) : Does w (Act.In T N K) s (handleWelcome w (some m) s) := by
  by_cases h : s.client.state = .helloSent
  · have hauth : ∀ st, st ≠ HubAuthState.timeout → N (.onHubAuth st) := fun st hst =>
      hN _ ⟨fun heq => hst (Note.onHubAuth.inj heq), rfl⟩
    obtain ⟨t, ht, heq⟩ := handleWelcome_eq (w := w) m h
    have hstate : t.client.state = .helloSent := by
      have hboot := bootstrapCatalog_does (w := w) (s := (s.log (.welcomed m)).modify (adoptWelcome m))
        (T := fun _ => True) (N := fun _ => False) (K := fun a => a = .ready true ∨ a = .forget) trivial (.inl rfl) (.inr rfl)
      rw [state_does ht (fun _ h => h), state_does hboot (fun _ h => by rcases h with h | h <;> cases h)]
      exact h
    rw [heq]
    refine Does.trans (Does.act (a := .log (.welcomed m)) hL trivial) ?_
    refine Does.trans (Does.act (a := .welcome m) hW trivial) ?_
    refine Does.trans (bootstrapCatalog_does hT hR hF) (Does.trans (ht.mono (Act.In.mono ?_ ?_ ?_)) ?_)
    · rintro _ rfl
      exact hT'
    · rintro _ ⟨st, hst, rfl⟩
      exact hauth st hst
    · intro a ha
      match a with
      | .judge _ => exact (show _ = HubAuthState.unverifiable from ha) ▸ hJ
      | .verify _ =>
        obtain ⟨b, hb, rfl⟩ := ha
        exact hV b hb
    · exact Does.trans (setState_does (hN _ ⟨nofun, rfl⟩) hS ⟨fun _ => hstate, nofun⟩)
        (checkLiveTransition_does (hN _ ⟨nofun, rfl⟩) hB)
  · have heq : handleWelcome w (some m) s = s := by
      unfold handleWelcome
      exact if_pos h
    rw [heq]
    exact Does.refl s

/-! ## STATE -/

/-- A channel adopted for the first time is counted; the last one makes the session LIVE. -/
theorem countAdopted_does {wasValid : Bool} (hN : N (.onStateChange .live)) (hA : wasValid = false → K .adopt)
    (hB : K (.become .live)) : Does w (Act.In T N K) s (countAdopted w wasValid s) := by
  unfold countAdopted
  split
  · rename_i h
    exact Does.trans (Does.act (a := .adopt) (hA h.2) trivial) (checkLiveTransition_does hN hB)
  · exact Does.refl s

/-- A STATE writes the shadow of its channel. -/
theorem handleState_does {ch seq : UInt16} {payload : Bytes} (hN : ∀ n, n.Routine → N n)
    (hS : K (.shadow ch seq payload)) (hA : K .adopt) (hB : K (.become .live)) (hO : K (.observe ch payload)) :
    Does w (Act.In T N K) s (handleState w ch seq payload s) := by
  unfold handleState
  cases hfind : s.client.shadows.findOrCreateShadow ch with
  | none => exact Does.refl s
  | some r =>
    obtain ⟨e, shadows⟩ := r
    dsimp only
    have hshadow : Does w (Act.In T N K) s (s.modify fun c =>
        { c with shadows := shadows.update ch (applyStateFrame seq payload e.slot).2, readyPending := false }) := by
      have heq : (s.modify fun c =>
          { c with shadows := shadows.update ch (applyStateFrame seq payload e.slot).2, readyPending := false }) =
          (Act.shadow ch seq payload).apply w s := by
        unfold Act.apply adoptShadow Sys.modify
        dsimp only
        rw [hfind]
      rw [heq]
      exact Does.act (P := Act.In T N K) hS trivial
    split
    · exact hshadow
    · refine Does.trans (hshadow.trans (notify_does (n := .onState ch seq payload) (hN _ ⟨nofun, rfl⟩))) ?_
      exact Does.then (countAdopted_does (hN _ ⟨nofun, rfl⟩) (fun _ => hA) hB) (a := .observe ch payload) hO
        trivial

/-! ## Answers -/

/-- An ECHO settles its intent. -/
theorem handleEcho_does {msg : Option EchoMsg} (hN : ∀ m, msg = some m → N (.onEcho m.intentId m.applied m.cfgGen))
    (hK : ∀ m, msg = some m → K (.echoed m)) : Does w (Act.In T N K) s (handleEcho w msg s) := by
  unfold handleEcho
  split
  · exact Does.refl s
  · rename_i m
    split
    · exact Does.refl s
    · rename_i hmem
      refine Does.trans (Does.act (a := .echoed m) (hK m rfl) (not_not.mp hmem)) ?_
      exact notify_does (hN m rfl)

/-- A NACK settles its intent, or closes a session that was never opened. -/
theorem handleNack_does {msg : Option NackMsg} (hN : ∀ n, n.Routine → N n) (hB : K (.become .closed))
    (hK : ∀ id, K (.settle id)) : Does w (Act.In T N K) s (handleNack w msg s) := by
  unfold handleNack
  split
  · exact Does.refl s
  · rename_i m
    dsimp only
    have hclose : ∀ t : Sys ε, Does w (Act.In T N K) t
        (if t.client.state = .helloSent then setState w .closed t else t) := by
      intro t
      split
      · exact setState_does (hN _ ⟨nofun, rfl⟩) hB ⟨nofun, nofun⟩
      · exact Does.refl t
    split
    · exact Does.trans (hclose s) (notify_does (hN _ ⟨nofun, rfl⟩))
    · rename_i id _
      refine Does.trans (hclose s) ?_
      refine Does.trans (Does.act (a := .settle id) (hK id) trivial) ?_
      exact notify_does (hN _ ⟨nofun, rfl⟩)

/-- Roles taken up anew subscribe again. -/
theorem adoptRoles_does {roles : AccessLevel} (hT : T .subscribe) (hN : ∀ n, n.Routine → N n) :
    Does w (Act.In T N K) s (adoptRoles w roles s) := by
  unfold adoptRoles
  have hroles : Does w (Act.In T N K) s (s.modify fun c => { c with roles := roles.code }) :=
    (Does.refl s).minor fun c => by constructor <;> rfl
  dsimp only
  split
  · exact hroles
  · split
    · exact hroles.trans (Does.trans (resendSubscriptionWishes_does hT) (notify_does (hN _ ⟨nofun, rfl⟩)))
    · exact hroles.trans (notify_does (hN _ ⟨nofun, rfl⟩))

/-- A GRANT changes the grants. -/
theorem handleGrant_does {msg : Option GrantMsg} (hT : T .subscribe) (hN : ∀ n, n.Routine → N n)
    (hK : ∀ m, msg = some m → K (.grant m.grants)) : Does w (Act.In T N K) s (handleGrant w msg s) := by
  unfold handleGrant
  split
  · exact Does.refl s
  · rename_i m
    have hgrant : Does w (Act.In T N K) s ((Act.grant m.grants).apply w s) :=
      Does.act (P := Act.In T N K) (hK m rfl) trivial
    dsimp only
    split
    · exact hgrant
    · exact hgrant.trans (adoptRoles_does hT hN)

/-! ## The catalog -/

/-- A complete catalog is adopted and acknowledged. -/
theorem adoptCatalog_does (hc : s.client.chunkReassembler.complete = true) (hT : T .catalogReady)
    (hN : N (.onStateChange .live)) (hL : K (.log .assembled)) (hR : K (.ready true)) (hB : K (.become .live)) :
    Does w (Act.In T N K) s (adoptCatalog w s) := by
  unfold adoptCatalog
  dsimp only
  refine Does.trans (Does.act (a := .log .assembled) hL trivial) ?_
  have hcache : Does w (Act.In T N K) (s.log .assembled) ((s.log .assembled).modify fun c => { c with
      cachedEtag := if (Sha256.hash s.client.chunkReassembler.assembled).take kCatalogReadyBytes == s.client.hubEtag.val
        then c.hubEtag else c.cachedEtag }) :=
    (Does.refl _).minor fun c => by constructor <;> rfl
  refine Does.trans hcache (Does.trans (Does.act (a := .ready true) hR fun _ => .inr hc) ?_)
  exact Does.trans (sendCatalogReady_does hT) (checkLiveTransition_does hN hB)

/-- A chunk is logged and inserted when the reassembler accepts it. -/
theorem insertChunk_does {payload : Bytes} {nowMs : UInt32}
    (hL : ∀ h, s.client.chunkReassembler.accepts payload = some h → K (.log (.chunk h.chunkCount h.chunkIndex)))
    (hI : K (.insert payload nowMs)) : Does w (Act.In T N K) s (insertChunk payload nowMs s) := by
  unfold insertChunk
  dsimp only
  split
  · exact Does.act (a := .insert payload nowMs) (P := Act.In T N K) hI trivial
  · rename_i h hacc
    exact Does.trans (Does.act (a := .log (.chunk h.chunkCount h.chunkIndex)) (hL h hacc) trivial)
      (Does.act (a := .insert payload nowMs) hI trivial)

/-- A BLOB_CHUNK begins a transfer, advances it or completes it. -/
theorem handleBlobChunk_does {payload : Bytes} {nowMs : UInt32} (hT : T .catalogReady)
    (hN : N (.onStateChange .live)) (hG : ∀ h, K (.begin h nowMs)) (hL : ∀ n i, K (.log (.chunk n i)))
    (hI : K (.insert payload nowMs)) (hA : K (.log .assembled)) (hR : K (.ready true)) (hB : K (.become .live)) :
    Does w (Act.In T N K) s (handleBlobChunk w payload nowMs s) := by
  unfold handleBlobChunk
  split
  · exact Does.refl s
  · rename_i h _
    split
    · exact Does.refl s
    · split
      · exact Does.refl s
      · dsimp only
        have hinsert : Does w (Act.In T N K) s (insertChunk payload nowMs (s.modify (beginTransfer h nowMs))) :=
          Does.trans (Does.act (a := .begin h nowMs) (hG h) trivial) (insertChunk_does (fun _ _ => hL _ _) hI)
        split
        · rename_i hc
          exact hinsert.trans (adoptCatalog_does hc hT hN hA hR hB)
        · exact hinsert

/-! ## The rest -/

theorem handlePing_does {payload : Bytes} (hT : T .pong) : Does w (Act.In T N K) s (handlePing w payload s) :=
  sendFrame_does hT

/-- A PAIR_GRANT pins the hub key it brings. -/
theorem handlePairGrant_does {msg : Option PairGrantMsg} (hN : ∀ n, n.Routine → N n)
    (hK : ∀ m key, msg = some m → m.hubPubkey = some key → K (.pin key.val)) :
    Does w (Act.In T N K) s (handlePairGrant w msg s) := by
  unfold handlePairGrant
  split
  · exact Does.refl s
  · rename_i m
    dsimp only
    split
    · exact notify_does (hN _ ⟨nofun, rfl⟩)
    · rename_i key hkey
      refine Does.trans (Does.act (a := .pin key.val) (hK m key rfl hkey) trivial) ?_
      refine Does.trans (t := notify w (.onHubPublicKey key.val) (setHubPublicKey key.val s)) ?_ ?_
      · exact notify_does (hN _ ⟨nofun, rfl⟩)
      · exact notify_does (hN _ ⟨nofun, rfl⟩)

/-- A HUB_SIG is verified, or judged unverifiable. -/
theorem handleHubSig_does {sig : Option TrustBytes} (hN : ∀ n, n.Routine → N n)
    (hJ : K (.judge .unverifiable)) (hV : ∀ b, sig = some b → K (.verify b.val)) :
    Does w (Act.In T N K) s (handleHubSig w sig s) := by
  unfold handleHubSig
  split
  · exact Does.refl s
  · rename_i b
    exact adoptHubSignature_does (fun st hst => hN _ ⟨fun heq => hst (Note.onHubAuth.inj heq), rfl⟩) hJ (hV b rfl)

theorem handleProbeFrame_does {payload : Bytes} : Does w (Act.In T N K) s (handleProbeFrame payload s) := by
  unfold handleProbeFrame
  split
  · exact Does.refl s
  · split
    · exact Does.refl s
    · exact (Does.refl s).minor fun c => by constructor <;> rfl

/-- A GOODBYE closes the session and drops what was pending. -/
theorem handleGoodbye_does (hN : N (.onStateChange .closed)) (hN' : ∀ id, N (.onPendingDropped id))
    (hB : K (.become .closed)) (hD : K .drop) : Does w (Act.In T N K) s (handleGoodbye w s) :=
  Does.trans (setState_does hN hB ⟨nofun, nofun⟩) (flushPending_does hN' hD)

/-! ## Frames -/

/-- The signature a frame carries. -/
def Inbound.signature : Inbound → Option TrustBytes
  | .welcome m => m.bind WelcomeMsg.welcomeSig
  | .hubSig sig => sig
  | _ => none

/-- The hub key a frame carries. -/
def Inbound.hubKey : Inbound → Option TrustBytes
  | .pairGrant m => m.bind PairGrantMsg.hubPubkey
  | _ => none

/-- What a frame can bring about, besides answers and calls of the delegate. -/
def Inbound.Allows (m : Inbound) (nowMs : UInt32) : Act ε → Prop
  | .log (.welcomed x) | .welcome x => m = .welcome (some x)
  | .forget => ∃ x, m = .welcome (some x)
  | .judge st => st = .unverifiable
  | .verify sig => ∃ b, m.signature = some b ∧ b.val = sig
  | .become st => st = .live ∨ (st = .syncing ∧ ∃ x, m = .welcome (some x)) ∨
      (st = .closed ∧ ((∃ n, m = .nack n) ∨ m = .goodbye))
  | .shadow ch seq payload => m = .state ch seq payload
  | .adopt => ∃ ch seq payload, m = .state ch seq payload
  | .observe ch payload => ∃ seq, m = .state ch seq payload
  | .echoed e => m = .echo (some e)
  | .settle _ => ∃ n, m = .nack n
  | .grant gs => ∃ g, m = .grant (some g) ∧ g.grants = gs
  | .ready b => b = true ∧ ((∃ x, m = .welcome (some x)) ∨ ∃ payload, m = .blobChunk payload)
  | .begin _ now => now = nowMs ∧ ∃ payload, m = .blobChunk payload
  | .insert payload now => now = nowMs ∧ m = .blobChunk payload
  | .log (.chunk _ _) | .log .assembled => ∃ payload, m = .blobChunk payload
  | .pin key => ∃ b, m.hubKey = some b ∧ b.val = key
  | .drop => m = .goodbye
  | _ => False

/-- The frames sent in answer to a frame. -/
def Reply (type : FrameType) : Prop :=
  type = .blobReq ∨ type = .auth ∨ type = .subscribe ∨ type = .catalogReady ∨ type = .pong

/-- Everything the delegate is told, but for the end of the wait for a signature. -/
def Told (n : Note) : Prop := n ≠ .onHubAuth .timeout

/-- What the delegate is told of a frame. -/
def Inbound.Tells (m : Inbound) (n : Note) : Prop :=
  Told n ∧ (n.ended = none ∨ (∃ e, m = .echo (some e) ∧ n.ended = some e.intentId) ∨ m = .goodbye)

/-- Dispatch, message by message: replies, callbacks and acts that the message allows. -/
theorem dispatch_does {m : Inbound} {nowMs : UInt32} :
    Does w (Act.In Reply m.Tells (m.Allows nowMs)) s (dispatch w m nowMs s) := by
  have hT : ∀ {m : Inbound}, ∀ n, Note.Routine n → m.Tells n := fun _ h => ⟨h.1, .inl h.2⟩
  unfold dispatch
  cases m with
  | welcome msg =>
    cases msg with
    | none => exact Does.refl s
    | some x =>
      exact handleWelcome_does (.inl rfl) (.inr (.inl rfl)) hT rfl rfl ⟨rfl, .inl ⟨x, rfl⟩⟩ ⟨x, rfl⟩ rfl
        (fun sig hsig => ⟨sig, hsig, rfl⟩) (.inr (.inl ⟨rfl, x, rfl⟩)) (.inl rfl)
  | state ch seq payload => exact handleState_does hT rfl ⟨ch, seq, payload, rfl⟩ (.inl rfl) ⟨seq, rfl⟩
  | echo msg =>
    exact handleEcho_does (fun m h => ⟨nofun, .inr (.inl ⟨m, congrArg Inbound.echo h, rfl⟩)⟩)
      fun m h => congrArg Inbound.echo h
  | nack msg => exact handleNack_does hT (.inr (.inr ⟨rfl, .inl ⟨msg, rfl⟩⟩)) fun _ => ⟨msg, rfl⟩
  | grant msg => exact handleGrant_does (.inr (.inr (.inl rfl))) hT fun m h => ⟨m, congrArg Inbound.grant h, rfl⟩
  | event ch payload => exact notify_does (hT _ ⟨nofun, rfl⟩)
  | blobChunk payload =>
    exact handleBlobChunk_does (.inr (.inr (.inr (.inl rfl)))) (hT _ ⟨nofun, rfl⟩) (fun _ => ⟨rfl, payload, rfl⟩)
      (fun _ _ => ⟨payload, rfl⟩) ⟨rfl, rfl⟩ ⟨payload, rfl⟩ ⟨rfl, .inr ⟨payload, rfl⟩⟩ (.inl rfl)
  | ping payload => exact handlePing_does (.inr (.inr (.inr (.inr rfl))))
  | pairGrant msg =>
    exact handlePairGrant_does hT fun m key hm hkey => ⟨key, by rw [hm]; exact hkey, rfl⟩
  | hubSig sig => exact handleHubSig_does hT rfl fun b hb => ⟨b, hb, rfl⟩
  | probe payload => exact handleProbeFrame_does
  | goodbye =>
    exact handleGoodbye_does (hT _ ⟨nofun, rfl⟩) (fun _ => ⟨nofun, .inr (.inr rfl)⟩) (.inr (.inr ⟨rfl, .inr rfl⟩)) rfl
  | other => exact Does.refl s

/-- What a frame can bring about once it is read. -/
def RxFrame.Allows (rx : RxFrame) (nowMs : UInt32) (a : Act ε) : Prop :=
  match rx with
  | .frame m => m.Allows nowMs a
  | _ => False

/-- What the delegate is told of it. -/
def RxFrame.Tells (rx : RxFrame) (n : Note) : Prop :=
  match rx with
  | .frame m => m.Tells n
  | _ => False

/-- So a frame does what the frame allows. -/
theorem handleFrame_does {rx : RxFrame} {nowMs : UInt32} :
    Does w (Act.In Reply rx.Tells (rx.Allows nowMs)) (s.log (.rx rx)) (handleFrame w nowMs s rx) := by
  have hlast : ∀ {K : Act ε → Prop}, Does w (Act.In Reply rx.Tells K) (s.log (.rx rx))
      ((s.log (.rx rx)).modify fun c => { c with lastRxMs := nowMs }) :=
    (Does.refl _).minor fun c => by constructor <;> rfl
  unfold handleFrame
  cases rx with
  | estop => exact hlast
  | badEstop | short => exact Does.refl _
  | frame m => exact hlast.trans dispatch_does

/-! ## The pumps -/

theorem pumpPing_does {nowMs : UInt32} (hT : T .ping) : Does w (Act.In T N K) s (pumpPing w nowMs s) := by
  unfold pumpPing
  split
  · exact sendFrame_does hT
  · exact Does.refl s

/-- The ESTOP is repeated until it is answered or given up. -/
theorem pumpEstopRepeat_does {nowMs : UInt32} (hR : ∀ f, K (.repeated f nowMs)) (hG : K .giveUp) :
    Does w (Act.In T N K) s (pumpEstopRepeat w nowMs s) := by
  unfold pumpEstopRepeat
  split
  · exact Does.refl s
  · split
    · exact Does.act (a := .giveUp) (P := Act.In T N K) hG trivial
    · split
      · exact Does.refl s
      · exact Does.act (a := .repeated (estopFrame s.client) nowMs) (P := Act.In T N K) (hR _) trivial

theorem pumpCatalogReady_does {nowMs : UInt32} (hT : T .catalogReady) :
    Does w (Act.In T N K) s (pumpCatalogReady w nowMs s) := by
  unfold pumpCatalogReady
  split
  · exact Does.refl s
  · split
    · exact (Does.refl s).minor fun c => by constructor <;> rfl
    · split
      · exact Does.refl s
      · split
        · exact (Does.refl s).minor fun c => by constructor <;> rfl
        · exact (sendFrame_does hT).minor fun c => by constructor <;> rfl

theorem pumpProbe_does {nowMs : UInt32} (hT : T .probeReport) (hK : K .stopProbe) :
    Does w (Act.In T N K) s (pumpProbe w nowMs s) := by
  unfold pumpProbe
  split
  · exact Does.refl s
  · split
    · exact Does.refl s
    · dsimp only
      split
      · exact Does.act (a := .stopProbe) (P := Act.In T N K) hK trivial
      · exact Does.then (sendFrame_does hT) (a := .stopProbe) hK trivial

/-- A signature that does not come in time is judged timed out. -/
theorem pumpHubSigTimeout_does {nowMs : UInt32} (hN : N (.onHubAuth .timeout)) (hK : K (.judge .timeout)) :
    Does w (Act.In T N K) s (pumpHubSigTimeout w nowMs s) := by
  unfold pumpHubSigTimeout
  split
  · exact Does.refl s
  · split
    · exact Does.refl s
    · exact setHubAuth_does hN hK

/-! ## Calls -/

/-- `sendIntent` queues the id it returns. -/
theorem sendIntent_does {ch : UInt16} {values : IntentValueMap} {precondition : Option UInt16} {takeover : Bool}
    (hT : T .intent) (hK : ∀ id, K (.queue id)) :
    Does w (Act.In T N K) s (sendIntent w ch values precondition takeover s).2 := by
  unfold sendIntent
  dsimp only
  split
  · exact Does.refl s
  · rename_i hlive
    split
    · exact Does.refl s
    · rename_i hauth
      split
      · exact Does.refl s
      · split
        · exact Does.refl s
        · rename_i bytes _
          have hkeep : (sendFrame w .intent ch bytes s).2.client.state = s.client.state ∧
              (sendFrame w .intent ch bytes s).2.client.hubAuth = s.client.hubAuth := by
            unfold sendFrame
            split
            · exact ⟨rfl, rfl⟩
            · dsimp only
              split <;> exact ⟨rfl, rfl⟩
          split
          · exact sendFrame_does hT
          · refine Does.then (sendFrame_does hT) (a := .queue s.client.nextIntentId) (hK _) ⟨?_, ?_, ?_⟩
            · rw [hkeep.1]
              exact not_not.mp hlive
            · rw [hkeep.2]
              exact fun h => hauth (.inl h)
            · rw [hkeep.2]
              exact fun h => hauth (.inr h)

theorem initiateEstop_does {cause : UInt8} (hI : K (.initiate cause)) (hD : ∀ f, K (.initiated f)) :
    Does w (Act.In T N K) s (initiateEstop w cause s) :=
  Does.trans (Does.act (a := .initiate cause) hI trivial) (Does.act (a := .initiated _) (hD _) trivial)

theorem sendPairing_does {m : PairReqMsg} (hT : T .pairReq) : Does w (Act.In T N K) s (sendPairing w m s).2 := by
  unfold sendPairing
  split
  · exact Does.refl s
  · exact sendFrame_does hT

theorem sendPairReq_does {pinProof : Bytes} (hT : T .pairReq) :
    Does w (Act.In T N K) s (sendPairReq w pinProof s).2 := by
  unfold sendPairReq
  split
  · exact sendPairing_does hT
  · exact Does.refl s

theorem runProbe_does (hT : T .probe) (hK : K .startProbe) : Does w (Act.In T N K) s (runProbe w s).2 := by
  unfold runProbe
  split
  · exact Does.refl s
  · dsimp only
    split
    · exact sendFrame_does hT
    · exact Does.then (sendFrame_does hT) (a := .startProbe) hK trivial

theorem setHubPublicKey_does {key : Bytes} (hK : K (.pin key)) : Does w (Act.In T N K) s (setHubPublicKey key s) :=
  Does.act (a := .pin key) (P := Act.In T N K) hK trivial

/-- The frames a call may write. -/
def Call.Sends : Call ε → FrameType → Prop
  | .connect, type => type = .hello
  | .disconnect, type => type = .goodbye
  | .sendIntent _ _ _ _, type => type = .intent
  | .sendPairReq _, type | .sendPairKnock, type => type = .pairReq
  | .runProbe, type => type = .probe
  | _, _ => False

/-- What a call can bring about. -/
def Call.Allows : Call ε → Act ε → Prop
  | .connect, .log x => x = .connect ∨ ∃ ok, x = .opened ok
  | .connect, .judge st => st ≠ .verified ∧ st ≠ .mismatch ∧ st ≠ .timeout
  | .connect, .become st => st = .helloSent
  | .connect, .drop | .connect, .reset | .connect, .draw _ | .connect, .arm => True
  | .disconnect, .log x => x = .closed
  | .disconnect, .become st => st = .closed
  | .disconnect, .drop => True
  | .sendIntent _ _ _ _, .queue _ => True
  | .initiateEstop cause, .initiate cause' => cause' = cause
  | .initiateEstop _, .initiated _ => True
  | .runProbe, .startProbe => True
  | .setHubPublicKey key, .pin key' => key' = key
  | .requestHubSignature on, .request on' => on' = on
  | _, _ => False

/-- **What a call does**, other than an update or a change of the world. -/
theorem call_does {k : Call ε} (hw : ∀ e, k ≠ .world e) (hk : ∀ nowUs frames, k ≠ .update nowUs frames) :
    Does w (Act.In k.Sends Told k.Allows) s (call w s k) := by
  cases k with
  | world e => exact absurd rfl (hw e)
  | update nowUs frames => exact absurd rfl (hk nowUs frames)
  | addSubscriptionWish x =>
    refine (Does.refl s).minor (f := addSubscriptionWish x) fun c => ?_
    unfold addSubscriptionWish
    split <;> constructor <;> rfl
  | setCachedEtag etag =>
    exact (Does.refl s).minor (f := fun c => { c with cachedEtag := etag }) fun c => by constructor <;> rfl
  | setClientVersion ver =>
    exact (Does.refl s).minor (f := fun c => { c with clientVer := ver }) fun c => by constructor <;> rfl
  | setTokenPresentationMode mode =>
    exact (Does.refl s).minor (f := fun c => { c with presentationMode := mode }) fun c => by constructor <;> rfl
  | connect =>
    refine Does.trans (Does.act (a := .log .connect) (.inl rfl) trivial) ?_
    exact connect_does rfl (fun _ h => h) (fun ok => .inr ⟨ok, rfl⟩) trivial trivial (fun _ => trivial)
      (fun _ h h' h'' => ⟨h, h', h''⟩) trivial rfl
  | disconnect => exact disconnect_does rfl (fun _ h => h) trivial rfl rfl
  | sendIntent => exact sendIntent_does rfl fun _ => trivial
  | initiateEstop cause => exact initiateEstop_does rfl fun _ => trivial
  | sendPairReq => exact sendPairReq_does rfl
  | sendPairKnock => exact sendPairing_does rfl
  | runProbe => exact runProbe_does rfl trivial
  | setHubPublicKey key => exact setHubPublicKey_does rfl
  | requestHubSignature on => exact Does.act (a := .request on) (P := Act.In _ _ _) rfl trivial

/-! ## update -/

/-- What `update` does once the clock is read and the frames are handled. -/
def Pumping (nowMs : UInt32) : Act ε → Prop
  | .repeated _ now => now = nowMs
  | .giveUp | .stopProbe => True
  | .judge st => st = .timeout
  | _ => False

/-- The pumps together. -/
theorem pumps_does {nowMs : UInt32} :
    Does w (Act.In (fun t => t = .ping ∨ t = .catalogReady ∨ t = .probeReport) (· = .onHubAuth .timeout) (Pumping nowMs))
      s (pumps w nowMs s) :=
  Does.trans (pumpPing_does (.inl rfl)) (Does.trans (pumpEstopRepeat_does (fun _ => rfl) trivial)
    (Does.trans (pumpCatalogReady_does (.inr (.inl rfl))) (Does.trans (pumpProbe_does (.inr (.inr rfl)) trivial)
      (pumpHubSigTimeout_does rfl rfl))))

theorem RxFrame.Tells.told {rx : RxFrame} {n : Note} (h : rx.Tells n) : Told n := by
  cases rx with
  | frame m => exact h.1
  | _ => exact h.elim

/-- What the frames of an update bring about. -/
def Reading (frames : List RxFrame) (nowMs : UInt32) : Act ε → Prop
  | .log (.rx rx) => rx ∈ frames
  | a => ∃ rx ∈ frames, rx.Allows nowMs a

/-- The frames of one `update`, in order. -/
theorem frames_does {nowMs : UInt32} : ∀ {frames : List RxFrame} {s : Sys ε},
    Does w (Act.In Reply Told (Reading frames nowMs)) s (frames.foldl (handleFrame w nowMs) s)
  | [], s => Does.refl s
  | rx :: frames, s => by
    refine Does.trans (Does.act (a := .log (.rx rx)) List.mem_cons_self trivial) (Does.trans (handleFrame_does.mono ?_)
      (frames_does.mono ?_))
    · refine Act.In.mono (fun _ h => h) (fun _ h => h.told) fun a ha => ?_
      unfold Reading
      split
      · exact (by cases rx <;> exact ha.elim)
      · exact ⟨rx, List.mem_cons_self, ha⟩
    · refine Act.In.mono (fun _ h => h) (fun _ h => h) fun a ha => ?_
      unfold Reading at ha ⊢
      split at ha
      · exact List.mem_cons_of_mem rx ha
      · obtain ⟨y, hy, ha⟩ := ha
        exact ⟨y, List.mem_cons_of_mem rx hy, ha⟩

end

end Client

end SlopSync
