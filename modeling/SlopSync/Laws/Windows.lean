import SlopSync.Laws.Provenance
import SlopSync.Refine.Timed

/-! # How long the pairing windows are open

The stamp and the flag of a window change only when the host or a pairing request opens, closes or uses it up
(`window_move`).  So what a request finds follows from two clock readings: the window is stamped with the wrapped clock
divided by 1000, and is looked at by the millisecond counter (`isOpen_iff`).  They agree until the clock wraps. -/

namespace SlopSync

open Labelled

/-! ## A window -/

/-- A window of the pairing manager: when it was opened, and whether it was closed since. -/
structure PairingWindow where
  openedMs : UInt32
  flag : Bool
  deriving DecidableEq

namespace PairingWindow

def isOpen (x : PairingWindow) (nowMs : UInt32) : Bool :=
  x.flag && !timeReached nowMs (x.openedMs + Limits.pairingWindowDefaultS * 1000)

end PairingWindow

/-- The two windows. -/
inductive WindowKind
  | pin | presence

def PairingWindows.window (x : PairingWindows) : WindowKind → PairingWindow
  | .pin => ⟨x.windowOpenedMs, x.windowOpenFlag⟩
  | .presence => ⟨x.presenceOpenedMs, x.presenceOpenFlag⟩

def PairingManager.window (p : PairingManager) (k : WindowKind) : PairingWindow := p.windows.window k

section

variable {ε : Type} {w : World ε} {c : Config} {now : UInt32} {rx : Option SlotIdx} {s t : Sys ε} {i : SlotIdx}

/-! ## What leaves the windows alone -/

def Label.OfWindows : Label → Prop
  | .window | .narrow | .restore => True
  | _ => False

/-- An act that is none of the windows' leaves them alone. -/
theorem Act.windows_eq {l : Label} {v v' : View} (hl : ¬l.OfWindows) (h : Act c now rx l v v') :
    v'.pairing.windows = v.pairing.windows := by
  cases h with
  | ledger p hk => exact hk.windows
  | mint inst r p hk => exact hk.windows
  | window | narrow | restore => exact absurd trivial hl
  | _ => rfl

/-- A sequence of acts none of which is of the windows leaves them alone. -/
theorem windows_of_does {P : Label → Prop} (h : Does c now rx P s t) (hP : ∀ l, P l → ¬l.OfWindows) :
    t.hub.pairing.windows = s.hub.pairing.windows :=
  Path.frame (f := fun v => v.pairing.windows) h fun l _ _ hl ha => Act.windows_eq (hP l hl) ha

/-- The moves that may open or close a window. -/
def Move.Windows : Move ε → Prop
  | .host .openPresenceWindow | .host .closePresenceWindow | .host (.pairing _) => True
  | .frame _ (.frame _ (.pairReq (some _))) => True
  | _ => False

/-- Only certain moves are of the windows. -/
theorem windows_of_moveLabel {m : Move ε} {l : Label} (hl : MoveLabel w c s m l) (hw : l.OfWindows) : m.Windows := by
  cases m with
  | host k =>
    cases k with
    | openPresenceWindow | closePresenceWindow | pairing => trivial
    | attachTransport | detachTransport =>
      obtain ⟨i, -, hl⟩ := hl
      cases l <;> first | exact hw.elim | exact hl.elim
    | latchEstop | setSafetyModes | clearEstop => cases l <;> first | exact hw.elim | exact (hl.elim fun _ h => h).elim
    | publishState | bumpConfigGeneration =>
      cases hl
      exact hw.elim
    | regrantForTest => cases l <;> first | exact hw.elim | exact (hl.elim id fun h => nomatch h).elim
    | _ => cases l <;> first | exact hw.elim | exact hl.elim
  | tick => cases l <;> first | exact hw.elim | exact (hl.elim (fun h => nomatch h) id).elim
  | liveness => cases l <;> first | exact hw.elim | exact (hl.acts.elim id fun h => h.elim id id).elim
  | out =>
    cases hl
    exact hw.elim
  | frame i f =>
    cases f with
    | estop => cases l <;> first | exact hw.elim | exact (hl.elim id fun h => h.elim fun _ h => h).elim
    | badEstop | short => exact hl.elim
    | frame seq m =>
      rcases hl with hl | hl
      · cases l <;> first | exact hw.elim | exact hl.elim
      · cases hl with
        | pairReq => trivial
        | sends hl =>
          cases hl
          exact hw.elim
        | intent hl => cases l <;> first | exact hw.elim | exact (hl.elim fun _ h => h).elim
        | hello _ hl | subscribe _ hl => cases l <;> first | exact hw.elim | exact (hl.elim id id).elim
        | catalogReady => exact hw.elim
        | reattach _ hl | stream hl | goodbye hl | auth hl => cases l <;> first | exact hw.elim | exact hl.elim

/-- Every other move leaves them alone. -/
theorem windows_move {m : Move ε} (hd : s.view.Distinct) (hok : m.Enabled s) (hm : ¬m.Windows) :
    (move w c s m).hub.pairing.windows = s.hub.pairing.windows :=
  windows_of_does (move_does hd hok) fun _ hl hw => hm (windows_of_moveLabel hl hw)

/-! ## Pairing requests -/

/-- What a pairing request does to the windows: a wrong proof is counted, a granted one ends the count, and a knock uses
the presence window up. -/
def requestedWindows (s : Sys ε) (i : SlotIdx) (m : PairReqMsg) (nowMs : UInt32) : PairingWindows :=
  match m.pinProof with
  | none =>
    if (s.session i).instanceId = m.instanceId ∧ s.hub.pairing.presenceWindowOpen nowMs = true then
      { s.hub.pairing.windows with presenceOpenFlag := false }
    else s.hub.pairing.windows
  | some proof =>
    if s.hub.pairing.windowOpen nowMs = false then s.hub.pairing.windows
    else if pairingPinProof s.hub.pairing.pin (s.slot i).nonce ≠ proof then s.hub.pairing.notePinFailure.windows
    else if s.hub.pairing.canGrant m.instanceId = true then { s.hub.pairing.windows with failCount := 0 }
    else s.hub.pairing.windows

theorem windows_sendNack (n : NackMsg) (t : Sys ε) : (sendNack w i n t).hub.pairing.windows = t.hub.pairing.windows := by
  rw [hub_sendNack]

theorem windows_sendNackTracked (n : NackMsg) (nowMs : UInt32) (t : Sys ε) :
    (sendNackTracked w c i n nowMs t).hub.pairing.windows = t.hub.pairing.windows := by
  have hsend : Does c nowMs (some i) (Label.Parks i) t (sendNackTracked w c i n nowMs t) := sendNackTracked_does i n nowMs t
  exact windows_of_does hsend fun l hl hw => by cases l <;> first | exact hw | exact hl

/-- A knock that is queued leaves them open. -/
theorem windows_queueKnock (inst : InstanceId) (nowMs : UInt32) :
    (queueKnock w c i inst nowMs s).hub.pairing.windows = s.hub.pairing.windows := by
  unfold queueKnock
  dsimp only
  split
  · exact windows_sendNackTracked _ nowMs s
  · rw [pairing_publishPending, pairing_emitPairingEvent]
    rfl

/-- A knock does to the windows what `requestedWindows` says: granted, it closes the presence window. -/
theorem windows_handleKnock {m : PairReqMsg} {nowMs : UInt32} (hlink : (s.slot i).transport.isSome)
    (hpin : m.pinProof = none) :
    (handleKnock w c i m.instanceId nowMs s).hub.pairing.windows = requestedWindows s i m nowMs := by
  unfold handleKnock requestedWindows
  rw [hpin]
  dsimp only
  by_cases hinst : (s.session i).instanceId = m.instanceId
  · rw [if_neg (not_not.mpr hinst)]
    by_cases hopen : s.hub.pairing.presenceWindowOpen nowMs = true
    · rw [if_pos hopen, if_pos ⟨hinst, hopen⟩]
      have hdo : Does c nowMs (some i) (Label.Issues i _ _) (consumeWindow s) (issuePairGrant w c i m.instanceId
          s.hub.pairing.presenceGrantRole PairingModes.pushToPair nowMs (consumeWindow s)).2 :=
        issuePairGrant_does (s := consumeWindow s) m.instanceId _ _ nowMs hlink
      have hissue : ((issuePairGrant w c i m.instanceId s.hub.pairing.presenceGrantRole PairingModes.pushToPair nowMs
          (consumeWindow s)).2).hub.pairing.windows = { s.hub.pairing.windows with presenceOpenFlag := false } :=
        (windows_of_does hdo fun l hl hw => by cases l <;> first | exact hw | exact hl).trans rfl
      rw [presenceKnock_eq]
      split
      · rw [pairing_publishPending, pairing_emitPairingEvent]
        exact hissue
      · exact (windows_sendNackTracked _ nowMs _).trans hissue
    · rw [if_neg hopen, if_neg fun h : _ ∧ _ => hopen h.2]
      split
      · exact windows_sendNackTracked _ nowMs s
      · exact windows_queueKnock _ nowMs
  · rw [if_pos hinst, if_neg fun h : _ ∧ _ => hinst h.1]
    exact windows_sendNackTracked _ nowMs s

/-- A PIN proof does what it says too: right, it closes the PIN window, wrong, it adds a failure. -/
theorem windows_handlePinProof {m : PairReqMsg} {proof : Token} {nowMs : UInt32} (hpin : m.pinProof = some proof) :
    (handlePinProof w c i m.instanceId proof nowMs s).hub.pairing.windows = requestedWindows s i m nowMs := by
  unfold handlePinProof requestedWindows
  rw [hpin]
  dsimp only
  cases hopen : s.hub.pairing.windowOpen nowMs with
  | false => exact windows_sendNack _ s
  | true =>
    have hshut : ¬(!true) = true := Bool.false_ne_true
    have hopened : ¬true = false := nofun
    rw [if_neg hshut, if_neg hopened]
    by_cases hproof : pairingPinProof s.hub.pairing.pin (s.slot i).nonce ≠ proof
    · rw [if_pos hproof, if_pos hproof]
      exact windows_sendNack _ _
    · rw [if_neg hproof, if_neg hproof]
      cases hcan : s.hub.pairing.canGrant m.instanceId with
      | false =>
        rw [mintEntry_refused _ _ hcan]
        exact windows_sendNack _ s
      | true =>
        rw [mintEntry_eq _ _ hcan]
        dsimp only
        rw [pairing_pinGrant]
        have hmint := (PairingManager.mints_grant s.hub.pairing m.instanceId .control PairingModes.pinProof
          (w.fill 16 s.env).1).windows
        exact congrArg (fun x : PairingWindows => { x with failCount := 0 }) hmint

/-- **What a pairing request does to the windows.** -/
theorem windows_handlePairReq (m : PairReqMsg) (nowMs : UInt32) (hlink : (s.slot i).transport.isSome) :
    (handlePairReq w c i (some m) nowMs s).hub.pairing.windows = requestedWindows s i m nowMs := by
  unfold handlePairReq
  dsimp only
  split
  · rename_i hpin
    exact windows_handleKnock hlink hpin
  · rename_i proof hpin
    exact windows_handlePinProof hpin

/-- Opening a window that is open changes nothing. -/
theorem pairing_openPresenceWindow (s : Sys ε) : (openPresenceWindow w c s).hub.pairing =
    if s.hub.pairing.presenceWindowOpen (clockMs w s) = true then s.hub.pairing
    else s.hub.pairing.openPresenceWindow (clockMs w s) := by
  unfold openPresenceWindow
  dsimp only
  split
  · rfl
  · rw [pairing_publishPending, pairingWindowEvent, pairing_emitPairingEvent]
    rfl

/-- Closing a window that is closed changes nothing. -/
theorem pairing_closePresenceWindow (s : Sys ε) : (closePresenceWindow w c s).hub.pairing =
    if s.hub.pairing.presenceWindowOpen (clockMs w s) = true then s.hub.pairing.closePresenceWindow
    else s.hub.pairing := by
  unfold closePresenceWindow
  dsimp only
  cases s.hub.pairing.presenceWindowOpen (clockMs w s) with
  | false => rfl
  | true =>
    show (publishPendingPairingState c _ (pairingWindowEvent w c _ _ _ _)).hub.pairing = _
    rw [pairing_publishPending, pairingWindowEvent, pairing_emitPairingEvent]
    rfl

/-! ## Opening and closing -/

/-- The request uses the window up: it is the third wrong proof in a row, or a knock. -/
def Spends (s : Sys ε) (i : SlotIdx) (nowMs : UInt32) (m : PairReqMsg) : WindowKind → Prop
  | .pin => s.hub.pairing.windowOpen nowMs = true ∧ 3 ≤ s.hub.pairing.failCount + 1 ∧
      ∃ proof, m.pinProof = some proof ∧ pairingPinProof s.hub.pairing.pin (s.slot i).nonce ≠ proof
  | .presence => s.hub.pairing.presenceWindowOpen nowMs = true ∧ m.pinProof = none ∧
      (s.session i).instanceId = m.instanceId

/-- The move closes the window: a request that uses it up, or the host. -/
def Closes (w : World ε) (s : Sys ε) (k : WindowKind) : Move ε → Prop
  | .frame i (.frame seq (.pairReq (some m))) =>
      (s.session i).occupied = true ∧ Spends (heard w s i seq) i s.hub.monoMs.ms m k
  | .host .closePresenceWindow => k = .presence ∧ s.hub.pairing.presenceWindowOpen (clockMs w s) = true
  | .host (.pairing p) => (p.window k).flag = false
  | _ => False

/-- The host opens the window. -/
def Opens (w : World ε) (s : Sys ε) (k : WindowKind) : Move ε → Prop
  | .host (.pairing p) => (p.window k).flag = true ∧ p.window k ≠ s.hub.pairing.window k
  | .host .openPresenceWindow => k = .presence ∧ s.hub.pairing.presenceWindowOpen (clockMs w s) = false
  | _ => False

/-- What a PAIR_REQ frame does to the windows. -/
theorem windows_pairReq (seq : UInt16) (m : PairReqMsg) (hlink : (s.slot i).transport.isSome) :
    (move w c s (.frame i (.frame seq (.pairReq (some m))))).hub.pairing.windows =
      if (s.session i).occupied = true then requestedWindows (heard w s i seq) i m s.hub.monoMs.ms
      else s.hub.pairing.windows := by
  obtain ⟨hpairing, hlink', hocc, -⟩ := slot_heard w i seq s
  have hdispatch : (move w c s (.frame i (.frame seq (.pairReq (some m))))).hub.pairing =
      (dispatch w c i (.pairReq (some m)) s.hub.monoMs.ms (heard w s i seq)).hub.pairing := rfl
  rw [hdispatch]
  cases hfree : (s.session i).occupied with
  | false =>
    rw [dispatch_free (hocc.trans hfree) (by intro msg h; cases h), if_neg Bool.false_ne_true, hpairing]
  | true =>
    rw [if_pos rfl]
    have hhandle : dispatch w c i (.pairReq (some m)) s.hub.monoMs.ms (heard w s i seq) =
        handlePairReq w c i (some m) s.hub.monoMs.ms (heard w s i seq) := by
      unfold dispatch
      simp [hocc.trans hfree]
    rw [hhandle]
    exact windows_handlePairReq m _ (hlink' ▸ hlink)

/-- A request leaves a window alone, or closes it. -/
theorem window_requested (k : WindowKind) (m : PairReqMsg) (nowMs : UInt32) :
    (¬Spends s i nowMs m k → (requestedWindows s i m nowMs).window k = s.hub.pairing.window k) ∧
      (Spends s i nowMs m k → ((requestedWindows s i m nowMs).window k).flag = false) := by
  unfold requestedWindows
  cases k with
  | presence =>
    split
    · rename_i hpin
      split
      · rename_i hknock
        exact ⟨fun h => absurd ⟨hknock.2, hpin, hknock.1⟩ h, fun _ => rfl⟩
      · rename_i hno
        exact ⟨fun _ => rfl, fun h => absurd ⟨h.2.2, h.1⟩ hno⟩
    · rename_i proof hpin
      refine ⟨fun _ => ?_, fun h => ?_⟩
      · split_ifs <;> rfl
      · have hnone := h.2.1
        rw [hpin] at hnone
        cases hnone
  | pin =>
    split
    · rename_i hpin
      refine ⟨fun _ => ?_, fun h => ?_⟩
      · split_ifs <;> rfl
      · obtain ⟨-, -, proof, hproof, -⟩ := h
        rw [hpin] at hproof
        cases hproof
    · rename_i proof hpin
      by_cases hopen : s.hub.pairing.windowOpen nowMs = false
      · rw [if_pos hopen]
        refine ⟨fun _ => rfl, fun h => ?_⟩
        rw [h.1] at hopen
        cases hopen
      · rw [if_neg hopen]
        by_cases hwrong : pairingPinProof s.hub.pairing.pin (s.slot i).nonce ≠ proof
        · rw [if_pos hwrong]
          have hflag : (s.hub.pairing.notePinFailure.windows.window .pin).flag =
              if 3 ≤ s.hub.pairing.failCount + 1 then false else s.hub.pairing.windowOpenFlag := rfl
          refine ⟨fun h => ?_, fun h => ?_⟩
          · have hfew : ¬3 ≤ s.hub.pairing.failCount + 1 := fun hthird =>
              h ⟨Bool.not_eq_false _ ▸ hopen, hthird, proof, hpin, hwrong⟩
            rw [if_neg hfew] at hflag
            exact congrArg (PairingWindow.mk s.hub.pairing.windowOpenedMs) hflag
          · rw [hflag, if_pos h.2.1]
        · rw [if_neg hwrong]
          refine ⟨fun _ => ?_, fun h => ?_⟩
          · split <;> rfl
          · obtain ⟨-, -, x, hx, hne⟩ := h
            rw [hpin] at hx
            cases hx
            exact absurd hne hwrong

/-- **A move that neither opens nor closes a window leaves it alone; one that closes it leaves it closed.** -/
theorem window_move (k : WindowKind) {m : Move ε} (hd : s.view.Distinct) (hok : m.Enabled s) (hopens : ¬Opens w s k m) :
    (¬Closes w s k m → (move w c s m).hub.pairing.window k = s.hub.pairing.window k) ∧
      (Closes w s k m → ((move w c s m).hub.pairing.window k).flag = false) := by
  by_cases hm : m.Windows
  · cases m with
    | host call =>
      cases call with
      | pairing p =>
        refine ⟨fun hcloses => ?_, fun hcloses => hcloses⟩
        have hflag : (p.window k).flag = true := by
          cases hf : (p.window k).flag with
          | true => rfl
          | false => exact absurd hf hcloses
        exact not_not.mp fun hne => hopens ⟨hflag, hne⟩
      | openPresenceWindow =>
        refine ⟨fun _ => ?_, fun h => h.elim⟩
        show (openPresenceWindow w c s).hub.pairing.window k = _
        rw [pairing_openPresenceWindow]
        split
        · rfl
        · rename_i hshut
          cases k with
          | pin => rfl
          | presence => exact absurd ⟨rfl, Bool.not_eq_true _ ▸ hshut⟩ hopens
      | closePresenceWindow =>
        show (_ → (closePresenceWindow w c s).hub.pairing.window k = _) ∧
          (_ → ((closePresenceWindow w c s).hub.pairing.window k).flag = false)
        rw [pairing_closePresenceWindow]
        split
        · rename_i hopen
          refine ⟨fun hcloses => ?_, fun hcloses => ?_⟩
          · cases k with
            | pin => rfl
            | presence => exact absurd ⟨rfl, hopen⟩ hcloses
          · obtain ⟨rfl, -⟩ := hcloses
            rfl
        · rename_i hshut
          exact ⟨fun _ => rfl, fun hcloses => absurd hcloses.2 hshut⟩
      | _ => exact hm.elim
    | frame i f =>
      cases f with
      | frame seq msg =>
        cases msg with
        | pairReq x =>
          cases x with
          | none => exact hm.elim
          | some x =>
            have hwin := windows_pairReq (w := w) (c := c) (s := s) (i := i) seq x hok
            obtain ⟨hkept, hshut⟩ := window_requested (s := heard w s i seq) (i := i) k x s.hub.monoMs.ms
            have hpairing := (slot_heard w i seq s).1
            have hwindow : (move w c s (.frame i (.frame seq (.pairReq (some x))))).hub.pairing.window k = _ :=
              congrArg (fun y => PairingWindows.window y k) hwin
            rw [hwindow]
            cases hocc : (s.session i).occupied with
            | false =>
              rw [if_neg Bool.false_ne_true]
              refine ⟨fun _ => rfl, fun hcloses => ?_⟩
              exact absurd (hocc.symm.trans hcloses.1) Bool.false_ne_true
            | true =>
              rw [if_pos rfl]
              refine ⟨fun hcloses => ?_, fun hcloses => hshut hcloses.2⟩
              rw [hkept fun h => hcloses ⟨hocc, h⟩, hpairing]
        | _ => exact hm.elim
      | _ => exact hm.elim
    | _ => exact hm.elim
  · have hsame := windows_move (w := w) (c := c) hd hok hm
    refine ⟨fun _ => congrArg (fun y => PairingWindows.window y k) hsame, fun hcloses => ?_⟩
    cases m with
    | host call => cases call <;> first | exact absurd trivial hm | exact hcloses.elim
    | frame i f =>
      cases f with
      | frame seq msg =>
        cases msg with
        | pairReq x => cases x <;> first | exact absurd trivial hm | exact hcloses.elim
        | _ => exact hcloses.elim
      | _ => exact hcloses.elim
    | _ => exact hcloses.elim

/-! ## Runs -/

/-- Nobody opens or closes the window. -/
def Undisturbed (w : World ε) (k : WindowKind) (s : Sys ε) (m : Move ε) : Prop := ¬Opens w s k m ∧ ¬Closes w s k m

/-- A window nobody disturbs stays as it was. -/
theorem undisturbed_window {k : WindowKind} (h : Steps w c (Undisturbed w k) s t) (hd : s.view.Distinct) :
    t.hub.pairing.window k = s.hub.pairing.window k := by
  refine h.preserves (I := fun u => u.hub.pairing.window k = s.hub.pairing.window k) hd ?_ rfl
  intro u m hok hm hdu hu
  exact ((window_move (c := c) k hdu hok hm.1).1 hm.2).trans hu

/-- A closed window that nobody opens stays closed. -/
theorem closed_window {k : WindowKind} (h : Steps w c (fun u m => ¬Opens w u k m) s t) (hd : s.view.Distinct)
    (hs : (s.hub.pairing.window k).flag = false) : (t.hub.pairing.window k).flag = false := by
  refine h.preserves (I := fun u => (u.hub.pairing.window k).flag = false) hd ?_ hs
  intro u m hok hm hdu hu
  obtain ⟨hkept, hshut⟩ := window_move (c := c) k hdu hok hm
  by_cases hcloses : Closes w u k m
  · exact hshut hcloses
  · rw [hkept hcloses]
    exact hu

/-- A PIN proof that finds the window open; `right` says whether it is the right one. -/
def ProvesPin (w : World ε) (s : Sys ε) (right : Prop) : Move ε → Prop
  | .frame i (.frame seq (.pairReq (some m))) => (s.session i).occupied = true ∧
      s.hub.pairing.windowOpen s.hub.monoMs.ms = true ∧ ∃ proof, m.pinProof = some proof ∧
        (right ↔ pairingPinProof s.hub.pairing.pin ((heard w s i seq).slot i).nonce = proof) ∧
          (right → s.hub.pairing.canGrant m.instanceId = true)
  | _ => False

/-- The wrong proofs are counted until one is right and granted. -/
structure Counted (w : World ε) (c : Config) (s : Sys ε) (m : Move ε) : Prop where
  wrong : ProvesPin w s False m → (move w c s m).hub.pairing.failCount = s.hub.pairing.failCount + 1
  granted : ProvesPin w s True m → (move w c s m).hub.pairing.failCount = 0
  other : ¬ProvesPin w s False m → ¬ProvesPin w s True m → (move w c s m).hub.pairing.failCount = s.hub.pairing.failCount

/-- A PAIR_REQ with a wrong proof adds a failure, one with a right proof that is granted clears them. -/
theorem counted_request {seq : UInt16} {m : PairReqMsg} (hlink : (s.slot i).transport.isSome) :
    Counted w c s (.frame i (.frame seq (.pairReq (some m)))) := by
  have hwin := congrArg PairingWindows.failCount (windows_pairReq (w := w) (c := c) seq m hlink)
  have hpairing := (slot_heard w i seq s).1
  have hmove : (move w c s (.frame i (.frame seq (.pairReq (some m))))).hub.pairing.failCount = _ := hwin
  refine ⟨?_, ?_, ?_⟩
  · rintro ⟨hocc, hopen, proof, hproof, hright, -⟩
    rw [hmove, if_pos hocc, requestedWindows, hproof, hpairing]
    dsimp only
    rw [if_neg (Bool.not_eq_false _ ▸ hopen), if_pos fun h => hright.mpr h]
    rfl
  · rintro ⟨hocc, hopen, proof, hproof, hright, hcan⟩
    rw [hmove, if_pos hocc, requestedWindows, hproof, hpairing]
    dsimp only
    rw [if_neg (Bool.not_eq_false _ ▸ hopen), if_neg (not_not.mpr (hright.mp trivial)), if_pos (hcan trivial)]
  · intro hwrong hgranted
    rw [hmove]
    split
    · rename_i hocc
      unfold requestedWindows
      rw [hpairing]
      split
      · split <;> rfl
      · rename_i proof hproof
        split_ifs with hopen hne hcan
        · rfl
        · exact absurd ⟨hocc, Bool.not_eq_false _ ▸ hopen, proof, hproof, ⟨False.elim, hne⟩, False.elim⟩ hwrong
        · exact absurd ⟨hocc, Bool.not_eq_false _ ▸ hopen, proof, hproof, ⟨fun _ => not_not.mp hne, fun _ => trivial⟩,
            fun _ => hcan⟩ hgranted
        · rfl
    · rfl

/-- Every other move, the host's own pairing calls apart, leaves the count. -/
theorem counted_move {m : Move ε} (hd : s.view.Distinct) (hok : m.Enabled s) (hm : ∀ p, m ≠ .host (.pairing p)) :
    Counted w c s m := by
  have hquiet : (¬ProvesPin w s False m ∧ ¬ProvesPin w s True m) →
      (move w c s m).hub.pairing.failCount = s.hub.pairing.failCount → Counted w c s m :=
    fun hno h => ⟨fun hp => absurd hp hno.1, fun hp => absurd hp hno.2, fun _ _ => h⟩
  by_cases hw : m.Windows
  · cases m with
    | host call =>
      refine hquiet ⟨id, id⟩ ?_
      cases call with
      | pairing p => exact absurd rfl (hm p)
      | openPresenceWindow =>
        show (openPresenceWindow w c s).hub.pairing.failCount = _
        rw [pairing_openPresenceWindow]
        split <;> rfl
      | closePresenceWindow =>
        show (closePresenceWindow w c s).hub.pairing.failCount = _
        rw [pairing_closePresenceWindow]
        split <;> rfl
      | _ => exact hw.elim
    | frame i f =>
      cases f with
      | frame seq msg =>
        cases msg with
        | pairReq x =>
          cases x with
          | none => exact hw.elim
          | some x => exact counted_request hok
        | _ => exact hw.elim
      | _ => exact hw.elim
    | _ => exact hw.elim
  · refine hquiet ?_ (congrArg PairingWindows.failCount (windows_move hd hok hw))
    cases m with
    | frame i f =>
      cases f with
      | frame seq msg =>
        cases msg with
        | pairReq x => cases x <;> first | exact absurd trivial hw | exact ⟨id, id⟩
        | _ => exact ⟨id, id⟩
      | _ => exact ⟨id, id⟩
    | _ => exact ⟨id, id⟩

/-! ## Two readings of the clock -/

/-- How long a window is open, in microseconds. -/
def windowUs : Nat := 120 * 1000 * 1000

/-- What the hub finds at `u` of a window opened at `t`. -/
def OpenAt (b t u : Nat) : Prop :=
  2 ^ 31 ≤ (((u - 2 ^ 32 * b) / 1000 : Nat) - (t % 2 ^ 32 / 1000 : Nat) - 120000 : Int) % 2 ^ 32

/-- Whether a window is open, from the true readings of the two clocks. -/
theorem isOpen_iff {x : PairingWindow} {ms : UInt32} {ρ σ : Nat} (hflag : x.flag = true)
    (hstamp : x.openedMs.toNat = σ) (hms : ms.toNat = ρ % 2 ^ 32) :
    x.isOpen ms = true ↔ 2 ^ 31 ≤ ((ρ : Int) - σ - 120000) % 2 ^ 32 := by
  have hreached : timeReached ms (x.openedMs + Limits.pairingWindowDefaultS * 1000) = true ↔
      ((ρ : Int) - σ - 120000) % 2 ^ 32 < 2 ^ 31 := by
    rw [timeReached_iff, UInt32.toNat_sub, UInt32.toNat_add, hstamp, hms]
    have hlen : (Limits.pairingWindowDefaultS * 1000).toNat = 120000 := by decide
    rw [hlen]
    omega
  unfold PairingWindow.isOpen
  rw [hflag, Bool.true_and, Bool.not_eq_true', Bool.eq_false_iff, Ne, hreached]
  omega

/-- The window is open up to its end, and at no time after it until `u`. -/
def Lasts (b t u : Nat) : Prop := ∀ v, t ≤ v → v ≤ u → (OpenAt b t v ↔ v < t + windowUs)

/-- The clock wrapped a multiple of 1000 times, the window was opened at a whole millisecond, and it ended no more than
half a wrap of the millisecond counter ago. -/
def InStep (b t u : Nat) : Prop :=
  t / 2 ^ 32 % 1000 = b % 1000 ∧ t % 2 ^ 32 % 1000 = 0 ∧
    (u - 2 ^ 32 * b) / 1000 < (t - 2 ^ 32 * b) / 1000 + 120000 + 2 ^ 31

/-- A time, as wraps of the clock and its reading. -/
theorem time_split {b t : Nat} (h : 2 ^ 32 * b ≤ t) :
    ∃ j l r, l < 1000 ∧ r < 2 ^ 32 ∧ t = 2 ^ 32 * (b + (1000 * j + l)) + r :=
  ⟨(t / 2 ^ 32 - b) / 1000, (t / 2 ^ 32 - b) % 1000, t % 2 ^ 32, by omega, by omega, by omega⟩

/-- A window is open at a time, in the remainders of the two clocks. -/
theorem openAt_split {b t v j l r : Nat} (hr : r < 2 ^ 32) (ht : t = 2 ^ 32 * (b + (1000 * j + l)) + r) (hv : t ≤ v) :
    OpenAt b t v ↔ ((2 ^ 32 * l + r + (v - t)) / 1000 - r / 1000) % 2 ^ 32 < 120000 ∨
      2 ^ 31 + 120000 ≤ ((2 ^ 32 * l + r + (v - t)) / 1000 - r / 1000) % 2 ^ 32 := by
  have hmod : t % 2 ^ 32 = r := by omega
  have hread : (v - 2 ^ 32 * b) / 1000 = 2 ^ 32 * j + (2 ^ 32 * l + r + (v - t)) / 1000 := by omega
  unfold OpenAt
  rw [hmod, hread]
  omega

/-- The clocks are in step, in the same remainders. -/
theorem inStep_split {b t v j l r : Nat} (hr : r < 2 ^ 32) (ht : t = 2 ^ 32 * (b + (1000 * j + l)) + r) (hl : l < 1000)
    (hv : t ≤ v) : InStep b t v ↔ l = 0 ∧ r % 1000 = 0 ∧ v - t < (120000 + 2 ^ 31) * 1000 := by
  have hmod : t % 2 ^ 32 = r := by omega
  have hdiv : t / 2 ^ 32 = b + (1000 * j + l) := by omega
  have hread : (v - 2 ^ 32 * b) / 1000 = 2 ^ 32 * j + (2 ^ 32 * l + r + (v - t)) / 1000 := by omega
  have hread' : (t - 2 ^ 32 * b) / 1000 = 2 ^ 32 * j + (2 ^ 32 * l + r) / 1000 := by omega
  unfold InStep
  rw [hmod, hdiv, hread, hread']
  omega

/-- A window whose stamp lags `d` behind the counter is shut when it opens, or open when it ends. -/
theorem wraps_zero {l d : Nat} (hl : l < 1000) (hd : 4294967 * l ≤ d) (hd' : d ≤ 4294968 * l)
    (hopen : d % 2 ^ 32 < 120000 ∨ 2 ^ 31 + 120000 ≤ d % 2 ^ 32)
    (hshut : ¬((d + 120000) % 2 ^ 32 < 120000 ∨ 2 ^ 31 + 120000 ≤ (d + 120000) % 2 ^ 32)) : l = 0 := by
  have hsmall : d % 2 ^ 32 = d := Nat.mod_eq_of_lt (by omega)
  rw [hsmall] at hopen
  omega

/-- A window lasts its time exactly when the clocks are in step. -/
theorem lasts_iff {b t u : Nat} (hb : 2 ^ 32 * b ≤ t) (hu : t + windowUs ≤ u) : Lasts b t u ↔ InStep b t u := by
  obtain ⟨j, l, r, hl, hr, ht⟩ := time_split hb
  unfold windowUs at hu
  rw [inStep_split hr ht hl (by omega)]
  constructor
  · intro h
    -- the opening, the last moment, the end and the moment half a wrap of the counter later
    have hstart := (h t (Nat.le_refl t) (by omega)).mpr (by unfold windowUs; omega)
    have hlast := (h (t + 119999999) (by omega) (by omega)).mpr (by unfold windowUs; omega)
    have hover : ¬OpenAt b t (t + 120000000) := fun ho =>
      absurd ((h (t + 120000000) (by omega) (by omega)).mp ho) (by unfold windowUs; omega)
    rw [openAt_split hr ht (by omega), Nat.sub_self] at hstart
    rw [openAt_split hr ht (by omega), Nat.add_sub_cancel_left] at hlast hover
    have hsum : (2 ^ 32 * l + r + 120000000) / 1000 - r / 1000 = (2 ^ 32 * l + r) / 1000 - r / 1000 + 120000 := by omega
    rw [hsum] at hover
    have hl0 : l = 0 := wraps_zero hl (by omega) (by omega) hstart hover
    subst hl0
    have hr0 : r % 1000 = 0 := by omega
    refine ⟨rfl, hr0, ?_⟩
    by_contra hlate
    have hagain : OpenAt b t (t + (120000 + 2 ^ 31) * 1000) := by
      rw [openAt_split hr ht (by omega), Nat.add_sub_cancel_left]
      omega
    have hnot := (h _ (by omega) (by omega)).mp hagain
    unfold windowUs at hnot
    omega
  · rintro ⟨rfl, hr0, hlate⟩ v hv hvu
    rw [openAt_split hr ht hv]
    unfold windowUs
    omega

/-! ## Runs in which nothing is received -/

/-- Time goes by; the pumps run, and that is all. -/
def Move.Quiet (_ : Sys ε) : Move ε → Prop
  | .tick _ | .liveness _ | .out _ => True
  | _ => False

theorem Move.Quiet.undisturbed {m : Move ε} (h : m.Quiet s) (k : WindowKind) : Undisturbed w k s m := by
  cases m <;> first | exact h.elim | exact ⟨id, id⟩

/-- With nothing received `update` disturbs no window. -/
theorem updateFold_quiet : ∀ (l : List SlotIdx) (s : Sys ε), s.view.Distinct →
    Steps w c (fun u m => m.Inner u ∧ m.Quiet u) s (l.foldl (updateSlot w c (fun _ => []) s.hub.monoMs.ms) s)
  | [], _, _ => Relation.ReflTransGen.refl
  | i :: l, s, hd => by
    have hone : Steps w c (fun u m => m.Inner u ∧ m.Quiet u) s (updateSlot w c (fun _ => []) s.hub.monoMs.ms s i) := by
      unfold updateSlot
      split
      · exact Relation.ReflTransGen.refl
      · have hlive : Steps w c (fun u m => m.Inner u ∧ m.Quiet u) s (move w c s (.liveness i)) :=
          Steps.one trivial ⟨trivial, trivial⟩
        have hout := hlive.trans (Steps.one (m := .out i) trivial ⟨trivial, trivial⟩)
        have hclock := (hlive.mono fun _ _ h => h.1).clock hd
        simp only [move] at hclock hout
        rw [hclock] at hout
        exact hout
    have hrest := updateFold_quiet l _ (hone.distinct hd)
    rw [(hone.mono fun _ _ h => h.1).clock hd] at hrest
    exact hone.trans hrest

variable {b : Nat} {x y : Instant ε}

/-- An update that finds nothing to read. -/
theorem quiet_update (hd : x.sys.view.Distinct) (hfirst : x.last = none → x.now / 2 ^ 32 = b)
    (hdue : ∀ t, x.last = some t → x.now - t < 2 ^ 31) : Elapses w c b Move.Quiet x
      ⟨update w c (UInt32.ofNat x.now) (fun _ => []) x.sys, some x.now, x.now⟩ := by
  have htick : Elapse w c b Move.Quiet x ⟨move w c x.sys (.tick (UInt32.ofNat x.now)), some x.now, x.now⟩ :=
    .tick hfirst hdue trivial
  refine Relation.ReflTransGen.trans (Relation.ReflTransGen.single htick) (elapses_inner _ _ ?_)
  have hrest := updateFold_quiet (w := w) (c := c) allSlots _ (distinct_move (w := w) (c := c)
    (m := .tick (UInt32.ofNat x.now)) trivial hd)
  rw [clock_tick] at hrest
  exact hrest

/-- The hub can be kept going until any later time. -/
theorem quiet_until : ∀ (n : Nat) (x : Instant ε) (u : Nat), x.sys.view.Distinct → (x.last = none → x.now / 2 ^ 32 = b) →
    (∀ t, x.last = some t → x.now - t < 2 ^ 31) → x.now ≤ u → u - x.now < 2 ^ 30 * (n + 1) →
      ∃ y, Elapses w c b Move.Quiet x y ∧ y.last = some u
  | 0, x, u, hd, hfirst, hdue, hle, hnear => by
    have hone := quiet_update (w := w) (c := c) hd hfirst hdue
    have hwait := hone.tail (.wait (t := u) hle)
    refine ⟨_, hwait.tail (.tick (fun h => nomatch h) ?_ trivial), rfl⟩
    rintro t ⟨⟩
    show u - x.now < 2 ^ 31
    omega
  | n + 1, x, u, hd, hfirst, hdue, hle, hnear => by
    by_cases hlast : u - x.now < 2 ^ 30 * (n + 1)
    · exact quiet_until n x u hd hfirst hdue hle hlast
    · obtain ⟨z, hz, hzlast, hznow⟩ : ∃ z, Elapses w c b Move.Quiet x z ∧ z.last = some x.now ∧ z.now = x.now + 2 ^ 30 :=
        ⟨_, (quiet_update (w := w) (c := c) hd hfirst hdue).tail (.wait (Nat.le_add_right _ (2 ^ 30))), rfl, rfl⟩
      obtain ⟨y, hy, hu⟩ := quiet_until n z u (hz.steps.distinct hd) (fun h => by rw [hzlast] at h; cases h) (fun t ht => by
        rw [hzlast] at ht
        cases ht
        omega) (by omega) (by omega)
      exact ⟨y, Relation.ReflTransGen.trans hz hy, hu⟩

/-! ## The law -/

/-- What is true of the window `k` that was opened at the true time `t` and is open in `x`.  `found` says what an update
at `u` finds, as long as nobody touches the window, and `lasts` when this is what the window promises. -/
structure WindowLaw (w : World ε) (c : Config) (b : Nat) (k : WindowKind) (t : Nat) (x : Instant ε) : Prop where
  found : ∀ y u, Elapses w c b (Undisturbed w k) x y → y.last = some u → t ≤ u →
    ((y.sys.hub.pairing.window k).isOpen y.sys.hub.monoMs.ms = true ↔ OpenAt b t u)
  closed : ∀ y m z, Elapses w c b (fun s m => ¬Opens w s k m) x y → m.Enabled y.sys → ¬Opens w y.sys k m →
    Closes w y.sys k m → Steps w c (fun s m => ¬Opens w s k m) (move w c y.sys m) z →
      ∀ ms, (z.hub.pairing.window k).isOpen ms = false
  lasts : ∀ h, t + windowUs ≤ h → ((∀ y u, Elapses w c b (Undisturbed w k) x y → y.last = some u → t ≤ u → u ≤ h →
    ((y.sys.hub.pairing.window k).isOpen y.sys.hub.monoMs.ms = true ↔ u < t + windowUs)) ↔ InStep b t h)

/-- The law holds of a window that is open and stamped with the time it was opened at. -/
theorem windowLaw {k : WindowKind} (hx : Timed w c b G x) (hflag : (x.sys.hub.pairing.window k).flag = true)
    (hstamp : (x.sys.hub.pairing.window k).openedMs.toNat = x.now % 2 ^ 32 / 1000)
    (hfirst : x.last = none → x.now / 2 ^ 32 = b) (hdue : ∀ t, x.last = some t → x.now - t < 2 ^ 31) :
    WindowLaw w c b k x.now x := by
  have hd := hx.distinct
  have hfound : ∀ y u, Elapses w c b (Undisturbed w k) x y → y.last = some u →
      ((y.sys.hub.pairing.window k).isOpen y.sys.hub.monoMs.ms = true ↔ OpenAt b x.now u) := by
    intro y u hy hu
    have hms := (hy.onTime hd hx.onTime).tracks u hu
    rw [undisturbed_window hy.steps hd]
    exact isOpen_iff hflag hstamp hms.ms
  have hbase : 2 ^ 32 * b ≤ x.now := by
    cases hlast : x.last with
    | none =>
      have := hfirst hlast
      omega
    | some t => exact (hx.onTime.past t hlast).1.trans (hx.onTime.past t hlast).2
  refine ⟨fun y u hy hu _ => hfound y u hy hu, fun y m z hy hok hopens hcloses hz ms => ?_, fun h hh => ?_⟩
  · have hdy := hy.steps.distinct hd
    have hshut := closed_window hz (distinct_move hok hdy) ((window_move k hdy hok hopens).2 hcloses)
    unfold PairingWindow.isOpen
    rw [hshut, Bool.false_and]
  · rw [← lasts_iff hbase hh]
    constructor
    · intro hlaw u hu huh
      obtain ⟨y, hy, hyu⟩ := quiet_until (w := w) (c := c) (u - x.now) x u hd hfirst hdue hu (by omega)
      have hrun := hy.mono fun s m hm => Move.Quiet.undisturbed (w := w) hm k
      exact (hfound y u hrun hyu).symm.trans (hlaw y u hrun hyu hu huh)
    · intro hlaw y u hy hyu hu huh
      exact (hfound y u hy hyu).trans (hlaw u hu huh)

/-- **A pairing window is open as long as it says** exactly if the clock wrapped a multiple of 1000 times before it was
opened, at a whole millisecond, and at most half a wrap of the millisecond counter passed since it ended. -/
theorem pairing_windows (hx : Timed w c b (fun _ _ => True) x) (hclock : w.nowUs x.sys.env = UInt32.ofNat x.now)
    (hfirst : x.last = none → x.now / 2 ^ 32 = b) (hdue : ∀ t, x.last = some t → x.now - t < 2 ^ 31) :
    (∀ pinAscii, WindowLaw w c b .pin x.now { x with sys := openPairingWindow w pinAscii x.sys }) ∧
    (x.sys.hub.pairing.presenceWindowOpen (clockMs w x.sys) = false →
      WindowLaw w c b .presence x.now { x with sys := openPresenceWindow w c x.sys }) ∧
    ∀ m : Move ε, m.Enabled x.sys → (∀ p, m ≠ .host (.pairing p)) → Counted w c x.sys m := by
  have hstamp : (clockMs w x.sys).toNat = x.now % 2 ^ 32 / 1000 := by
    unfold clockMs
    rw [hclock, UInt32.toNat_div, UInt32.toNat_ofNat']
    rfl
  refine ⟨fun pinAscii => ?_, fun hshut => ?_, fun m hok hm => counted_move hx.distinct hok hm⟩
  · have hopen : Elapse w c b (fun _ _ => True) x { x with sys := openPairingWindow w pinAscii x.sys } :=
      Elapse.host (k := .pairing (x.sys.hub.pairing.openWindow pinAscii (clockMs w x.sys))) (by intro _ _ h; cases h)
        (fun _ => hclock) trivial
    exact windowLaw (hx.trans (Relation.ReflTransGen.single hopen)) rfl hstamp hfirst hdue
  · have hopen : Elapse w c b (fun _ _ => True) x { x with sys := openPresenceWindow w c x.sys } :=
      Elapse.host (k := .openPresenceWindow) (by intro _ _ h; cases h) (fun _ => hclock) trivial
    have hwin : (openPresenceWindow w c x.sys).hub.pairing = x.sys.hub.pairing.openPresenceWindow (clockMs w x.sys) := by
      rw [pairing_openPresenceWindow, hshut]
      exact if_neg Bool.false_ne_true
    refine windowLaw (hx.trans (Relation.ReflTransGen.single hopen)) ?_ ?_ hfirst hdue
    · show ((openPresenceWindow w c x.sys).hub.pairing.window .presence).flag = true
      rw [hwin]
      rfl
    · show ((openPresenceWindow w c x.sys).hub.pairing.window .presence).openedMs.toNat = _
      rw [hwin]
      exact hstamp

end

/-! ## A window after the wrap -/

/-- A hub that is updated now and then until the clock has wrapped. -/
def Bench.wrapped : Sys Bench :=
  call Bench.world Bench.config ([0, 2147483647, 4294967294].foldl (fun s t => move Bench.world Bench.config s (.tick t))
    (boot Bench.world Bench.config {})) (.world { clockUs := 2000000 })

def Bench.instant : Instant Bench := ⟨Bench.wrapped, some 4294967294, 4296967296⟩

theorem Bench.timed_instant : Timed Bench.world Bench.config 0 (fun _ _ => True) Bench.instant := by
  have h₁ : Timed Bench.world Bench.config 0 (fun _ _ => True)
      ⟨move Bench.world Bench.config (boot Bench.world Bench.config {}) (.tick 0), some 0, 0⟩ :=
    ⟨{}, 0, elapses_tick (x := ⟨boot Bench.world Bench.config {}, none, 0⟩) (Nat.le_refl 0) (fun _ => rfl)
      (fun t h => nomatch h) trivial⟩
  have h₂ := h₁.trans (elapses_tick (u := 2147483647) (Nat.zero_le _) (fun h => nomatch h)
    (by rintro t ⟨⟩; decide) trivial)
  have h₃ := h₂.trans (elapses_tick (u := 4294967294) (by decide) (fun h => nomatch h)
    (by rintro t ⟨⟩; decide) trivial)
  have h₄ := h₃.trans (Relation.ReflTransGen.single (.wait (t := 4296967296) (by decide)))
  exact h₄.trans (Relation.ReflTransGen.single (Elapse.host (k := Call.world ({ clockUs := 2000000 } : Bench))
    (by intro _ _ h; cases h) (fun h => absurd rfl (h _)) trivial))

theorem pairing_windows_instant : WindowLaw Bench.world Bench.config 0 .pin Bench.instant.now
    { Bench.instant with sys := openPairingWindow Bench.world [1, 2, 3, 4] Bench.instant.sys } :=
  (pairing_windows Bench.timed_instant (by decide +kernel) (fun h => nomatch h) (by rintro t ⟨⟩; decide)).1 [1, 2, 3, 4]

/-- A PIN window that is opened two seconds after the wrap is shut from the start. -/
theorem window_shut_after_wrap :
    ¬∀ (x y : Instant Bench) (pinAscii : Bytes) (u : Nat), Timed Bench.world Bench.config 0 (fun _ _ => True) x →
      Bench.world.nowUs x.sys.env = UInt32.ofNat x.now → (∀ t, x.last = some t → x.now - t < 2 ^ 31) →
      Elapses Bench.world Bench.config 0 (Undisturbed Bench.world .pin)
        { x with sys := openPairingWindow Bench.world pinAscii x.sys } y →
      y.last = some u → x.now ≤ u →
      (y.sys.hub.pairing.windowOpen y.sys.hub.monoMs.ms = true ↔ u < x.now + windowUs) := by
  intro h
  have hy := elapses_tick (w := Bench.world) (c := Bench.config) (b := 0) (G := Undisturbed Bench.world .pin)
    (x := { Bench.instant with sys := openPairingWindow Bench.world [1, 2, 3, 4] Bench.instant.sys })
    (Nat.le_refl Bench.instant.now) (fun h => nomatch h) (by rintro t ⟨⟩; decide) ⟨id, id⟩
  have hopen := (h Bench.instant _ [1, 2, 3, 4] Bench.instant.now Bench.timed_instant (by decide +kernel)
    (by rintro t ⟨⟩; decide) hy rfl (Nat.le_refl _)).mpr (by decide)
  have hshut : (move Bench.world Bench.config (openPairingWindow Bench.world [1, 2, 3, 4] Bench.wrapped)
      (.tick (UInt32.ofNat 4296967296))).hub.pairing.windowOpen (move Bench.world Bench.config
        (openPairingWindow Bench.world [1, 2, 3, 4] Bench.wrapped) (.tick (UInt32.ofNat 4296967296))).hub.monoMs.ms =
      false := by decide +kernel
  exact Bool.false_ne_true (hshut.symm.trans hopen)

end SlopSync
