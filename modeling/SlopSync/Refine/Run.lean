import SlopSync.Hub.Acts
import SlopSync.Hub.Wire
import SlopSync.Refine.Hello
import SlopSync.Refine.Stream

/-! # Runs, as acts

A public call is a sequence of moves: a call of the host, a clock tick, one frame, the liveness pumps of one slot
or its outgoing traffic.  `move_does` says which acts each move can take; everything that holds of every reachable
hub is proved from it. -/

namespace SlopSync

open Keyed Labelled

section

variable {ε : Type} {w : World ε} {c : Config} {now : UInt32} {rx : Option SlotIdx} {P : Label → Prop}

/-! ## One frame -/

/-- A frame is read and its session revived. -/
def Label.Reads (i : SlotIdx) : Label → Prop
  | .rx j | .revive j => j = i
  | .chatter => True
  | _ => False

/-- Reading a frame attaches and detaches nothing. -/
theorem reads_transport {i j : SlotIdx} {l : Label} {v v' : View} (hl : l.Reads i) (h : Act c now rx l v v') :
    (v'.slots j).transport = (v.slots j).transport := by
  cases h with
  | rx k | revive k =>
    by_cases hj : j = k
    · subst hj
      simp [View.set]
    · simp [View.set, hj]
  | chatter => rfl
  | _ => exact hl.elim

/-- A STALE session that is heard again goes back to LIVE, having just been heard. -/
theorem reviveIfStale_does {i : SlotIdx} (nowMs : UInt32) {s : Sys ε} (hlast : (s.session i).lastRxMs = nowMs ∨
    (s.session i).state ≠ .stale) : Does c nowMs (some i) (Label.Reads i) s (reviveIfStale w i nowMs s) := by
  unfold reviveIfStale
  dsimp only
  split
  · rename_i hst
    have hact : Does c nowMs (some i) (Label.Reads i) s
        (s.modSession i fun se => { se with state := .live, staleSinceMs := 0 }) := by
      refine Does.act (l := .revive i) rfl ?_
      rw [Sys.modSession, view_modSlot]
      exact Act.revive i rfl hst (hlast.resolve_right fun h => h hst)
    exact hact.trans ((emits_emitSessionEvent _ _ _ _).does trivial)
  · exact Does.refl s

/-- After it the session is not STALE. -/
theorem state_reviveIfStale (i : SlotIdx) (nowMs : UInt32) (s : Sys ε) :
    ((reviveIfStale w i nowMs s).session i).state ≠ .stale := by
  unfold reviveIfStale
  dsimp only
  split
  · have hslot := (emits_emitSessionEvent (w := w) SessionEventKinds.sessionResumed
      ((s.modSession i fun se => { se with state := .live, staleSinceMs := 0 }).session i).sessionId nowMs
      (s.modSession i fun se => { se with state := .live, staleSinceMs := 0 })).slot i
    rw [Sys.session, hslot, Sys.modSession, Sys.slot_modSlot_self]
    intro h
    cases h
  · assumption

/-- Noting a frame stamps the slot's clock and revives its session. -/
theorem noteRx_does (i : SlotIdx) (nowMs : UInt32) (s : Sys ε) :
    Does c nowMs (some i) (Label.Reads i) s (noteRx w i nowMs s) := by
  unfold noteRx
  dsimp only
  have hread : ∀ ms : UInt32, ((s.view.slots i).occupied → ms = nowMs) → ∀ t : Sys ε,
      t.view = { s.view.set i { s.view.slots i with lastRxMs := ms } with reads := i :: s.view.reads } →
      Does c nowMs (some i) (Label.Reads i) s t := by
    intro ms hms t ht
    refine Does.act (l := .rx i) rfl ?_
    rw [ht]
    exact Act.rx i ms rfl hms
  split
  · rename_i hocc
    refine (hread nowMs (fun _ => rfl) _ ?_).trans (reviveIfStale_does nowMs (.inl ?_))
    · rw [Sys.modSession, view_modSlot]
      rfl
    · rw [Sys.session, Sys.modSession, Sys.slot_modSlot_self]
  · rename_i hocc
    have hfree : ¬(s.view.slots i).occupied := fun h => hocc ((occupied_view s i).mp h)
    refine (hread (s.view.slots i).lastRxMs (fun h => absurd h hfree) _ ?_).trans (reviveIfStale_does nowMs (.inr ?_))
    · exact View.ext (Function.update_eq_self i _).symm rfl rfl rfl rfl rfl rfl rfl rfl rfl rfl rfl rfl rfl rfl
    · intro hst
      refine hocc ?_
      rw [HubSession.occupied_iff, hst]
      decide

/-- After its frame was read, a session is not stale. -/
theorem active_noteRx {i : SlotIdx} {nowMs : UInt32} {s : Sys ε}
    (hocc : ((noteRx w i nowMs s).session i).occupied = true) : Active (noteRx w i nowMs s).view i :=
  ⟨(occupied_view _ i).mpr hocc, state_reviveIfStale i nowMs _⟩

/-- SUBSCRIBE, UNSUBSCRIBE and PUBLISH. -/
def Inbound.Wishes : Inbound → Prop
  | .subscribe _ | .unsubscribe _ | .publish _ => True
  | _ => False

/-- The acts a frame of slot `i` can take, by its type, in the state where it is dispatched. -/
inductive FrameLabel (w : World ε) (c : Config) (i : SlotIdx) (nowMs : UInt32) (s : Sys ε) : Inbound → Label → Prop
  | sends {m : Inbound} {l : Label} (hl : l = .chatter) : FrameLabel w c i nowMs s m l
  | hello {h : HelloMsg} {l : Label} (hno : ∀ j, ¬Rejoins s i h j)
      (hl : l.Admits i (etagMatches c h = true) (Yields s i h.instanceId)) : FrameLabel w c i nowMs s (.hello (some h)) l
  | reattach {h : HelloMsg} {l : Label} {j : SlotIdx} (hj : Rejoins s i h j) (hl : l.Reattaches i j fun r =>
      settledRole s.hub.pairing h (reattachAnswer w c i j h nowMs s) ≤ r) : FrameLabel w c i nowMs s (.hello (some h)) l
  | subscribe {m : Inbound} {l : Label} (hm : m.Wishes) (hl : l.GrantsOrParks i) : FrameLabel w c i nowMs s m l
  | catalogReady {etag : Etag} : FrameLabel w c i nowMs s (.catalogReady (some etag)) (.ready i)
  | intent {m : IntentMsg} {l : Label}
      (hl : l.Intends i (intentPowers w c s i m nowMs)) :
      FrameLabel w c i nowMs s (.intent (some m)) l
  | stream {ch : UInt16} {payload : Bytes} {l : Label} (hl : l.Acquires i False) :
      FrameLabel w c i nowMs s (.stream ch payload) l
  | goodbye {l : Label} (hl : l.Ends i) : FrameLabel w c i nowMs s .goodbye l
  | pairReq {m : PairReqMsg} {l : Label} (hl : l.Requests i (PairRole w s i nowMs m) (PairMint w s i nowMs m)) :
      FrameLabel w c i nowMs s (.pairReq (some m)) l
  | auth {msg : Option TrustMap} {l : Label} (hl : l.Proves i (Limits.authAttemptsMax ≤ (s.slot i).authFailures + 1)
      (AuthRole w s i msg)) : FrameLabel w c i nowMs s (.auth msg) l

/-- The session in the slot, if any, is not stale. -/
def Awake (s : Sys ε) (i : SlotIdx) : Prop := (s.session i).occupied = true → Active s.view i

theorem awake_setDispatchSeq {s : Sys ε} {i : SlotIdx} (h : Awake s i) {seq : Option UInt16} :
    Awake (setDispatchSeq seq s) i := h

/-- A free slot answers HELLO only. -/
theorem dispatch_free {i : SlotIdx} {m : Inbound} {nowMs : UInt32} {s : Sys ε} (hocc : (s.session i).occupied = false)
    (hm : ∀ msg, m ≠ .hello msg) : dispatch w c i m nowMs s = s := by
  cases m <;> first | exact absurd rfl (hm _) | simp [dispatch, hocc]

/-- Dispatch, message by message: each handler does what its frame allows. -/
theorem dispatch_does {i : SlotIdx} (m : Inbound) (nowMs : UInt32) {s : Sys ε} (hd : s.view.Distinct)
    (hlink : (s.view.slots i).transport.isSome) (haw : Awake s i) :
    Does c nowMs (some i) (FrameLabel w c i nowMs s m) s (dispatch w c i m nowMs s) := by
  by_cases hhello : ∃ msg, m = .hello msg
  · obtain ⟨msg, rfl⟩ := hhello
    cases msg with
    | none => exact (emits_sendNack _ hlink).does (.sends rfl)
    | some h =>
      by_cases hre : ∃ j, Rejoins s i h j
      · obtain ⟨j, hj⟩ := hre
        exact (handleHello_reattaches nowMs hlink hj).mono fun _ => .reattach hj
      · have hno := not_exists.mp hre
        exact (handleHello_admits nowMs hd hlink hno).mono fun _ => .hello hno
  cases hocc : (s.session i).occupied with
  | false =>
    rw [dispatch_free hocc fun msg h => hhello ⟨msg, h⟩]
    exact Does.refl s
  | true =>
    have ha := haw hocc
    have hserved : Served s i := ⟨hocc, hlink⟩
    cases m <;> simp only [dispatch, hocc, Bool.not_true, Bool.false_eq_true, if_false]
    case hello msg => exact absurd ⟨msg, rfl⟩ hhello
    case subscribe msg => exact (handleSubscribe_does msg hserved).mono fun _ hl => .subscribe trivial (.inl hl)
    case unsubscribe msg => exact (handleUnsubscribe_does i msg s).mono fun _ hl => .subscribe trivial (.inl hl)
    case publish msg => exact (handlePublish_does msg nowMs hserved).mono fun _ => .subscribe trivial
    case catalogReady etag =>
      cases etag with
      | none => exact Does.refl s
      | some e => exact (handleCatalogReady_does i (some e) s).mono fun _ hl => hl ▸ .catalogReady
    case intent msg =>
      cases msg with
      | none => exact (emits_sendNack _ hlink).does (.sends rfl)
      | some m => exact (handleIntent_does m nowMs ha hlink).mono fun _ => .intent
    case stream ch payload => exact (handleStream_does ch payload nowMs ha).mono fun _ => .stream
    case ping payload => exact (handlePing_does payload hlink).mono fun _ => .sends
    case clock payload => exact (handleClock_does payload hlink).mono fun _ => .sends
    case goodbye => exact (teardownSession_does i nowMs s).mono fun _ => .goodbye
    case blobReq msg => exact (handleBlobReq_does msg hlink).mono fun _ => .sends
    case pairReq msg =>
      cases msg with
      | none => exact (emits_sendNack _ hlink).does (.sends rfl)
      | some m => exact (handlePairReq_does m nowMs hlink).mono fun _ => .pairReq
    case auth msg => exact (handleAuth_does msg nowMs hlink).mono fun _ => .auth
    case probe => exact (handleProbeRequest_does i s).mono fun _ => .sends
    case probeReport msg => exact (handleProbeReportFrame_does i msg s).mono fun _ => .sends
    case other => exact Does.refl s

/-! ## Moves -/

inductive Move (ε : Type)
  | host (k : Call ε)
  | tick (nowUs : UInt32)
  | frame (i : SlotIdx) (f : RxFrame)
  | liveness (i : SlotIdx)
  | out (i : SlotIdx)

def move (w : World ε) (c : Config) (s : Sys ε) : Move ε → Sys ε
  | .host k => call w c s k
  | .tick nowUs =>
    pumpPairing w c (s.hub.monoMs.advance nowUs).ms
      { s with hub := { s.hub with monoMs := s.hub.monoMs.advance nowUs } }
  | .frame i f => pumpFrame w c i s.hub.monoMs.ms f s
  | .liveness i => pumpLiveness w c i s.hub.monoMs.ms s
  | .out i => pumpOut w c i s.hub.monoMs.ms s

/-- The slot whose frame the move handles. -/
def Move.reading : Move ε → Option SlotIdx
  | .frame i _ => some i
  | _ => none

/-- The moves there are: `update` is not one but a sequence of them, and a frame needs a transport. -/
def Move.Enabled (s : Sys ε) : Move ε → Prop
  | .host k => ∀ nowUs inbox, k ≠ .update nowUs inbox
  | .frame i _ => (s.slot i).transport.isSome
  | _ => True

/-- The acts of a host call. -/
def HostLabel (w : World ε) (s : Sys ε) : Call ε → Label → Prop
  | .attachTransport t => fun l => ∃ i, attachTarget s.hub = some i ∧ l.Attaches i t
  | .detachTransport t => fun l => ∃ i, attachedSlotFor s.hub t = some i ∧ l.Parks i
  | .publishState ch _ => (· = .retain ch)
  | .latchEstop _ | .setSafetyModes _ _ => Label.Latches
  | .clearEstop => Label.Clears (Consents w s)
  | .bumpConfigGeneration => (· = .cfg)
  | .pairing _ => (· = .restore)
  | .openPresenceWindow => Label.Invites
  | .closePresenceWindow => Label.Shuts
  | .regrantForTest i _ _ => fun l => l.Grants i ∨ l = .lost i
  | _ => Label.Tells

/-- The acts of the liveness pumps, each with the window that ran out. -/
def LivenessLabel (s : Sys ε) (i : SlotIdx) (nowMs : UInt32) (l : Label) : Prop :=
  (DeadmanDue s i nowMs ∧ l.Suspends i 3) ∨ (IdleDue s i nowMs ∧ l.Suspends i 4) ∨ (AdoptionDue s i nowMs ∧ l.Ends i)

/-- What the liveness pump may do to a session: suspend it for reason 3 or 4, or end it. -/
theorem LivenessLabel.acts {s : Sys ε} {i : SlotIdx} {nowMs : UInt32} {l : Label} (h : LivenessLabel s i nowMs l) :
    l.Suspends i 3 ∨ l.Suspends i 4 ∨ l.Ends i :=
  h.imp And.right fun h => h.imp And.right And.right

/-- The state in which a frame is dispatched: it was read, and its session is awake. -/
def heard (w : World ε) (s : Sys ε) (i : SlotIdx) (seq : UInt16) : Sys ε :=
  setDispatchSeq (some seq) (noteRx w i s.hub.monoMs.ms s)

/-- The acts a move can take. -/
def MoveLabel (w : World ε) (c : Config) (s : Sys ε) : Move ε → Label → Prop
  | .host k => HostLabel w s k
  | .tick _ => fun l => l = .tick ∨ l.Tells
  | .frame i (.estop _) => fun l => l.Reads i ∨ l.Latches
  | .frame i (.frame seq m) => fun l => l.Reads i ∨
      FrameLabel w c i s.hub.monoMs.ms (heard w s i seq) m l
  | .frame _ _ => fun _ => False
  | .liveness i => LivenessLabel s i s.hub.monoMs.ms
  | .out _ => (· = .chatter)

/-- Detaching a transport is an act of the host. -/
theorem detachTransport_does (t : TransportId) (s : Sys ε) :
    Does c now rx (HostLabel w s (.detachTransport t)) s (detachTransport w c t s) := by
  unfold detachTransport
  split
  · exact Does.refl s
  · rename_i i hi
    exact (parkAndDetach_does i _ s).mono fun _ h => ⟨i, hi, h⟩

/-- A send to a slot that may have no transport. -/
theorem sendEncoded_lost {i : SlotIdx} {type : FrameType} (payload : Option Bytes) (s : Sys ε) (hst : type ≠ .state)
    (hev : type ≠ .event) : Does c now rx (fun l => l.Grants i ∨ l = .lost i) s (sendEncoded w i type payload s) := by
  cases hlink : (s.slot i).transport with
  | some t =>
    exact (emits_sendEncoded payload (Option.isSome_iff_exists.mpr ⟨t, hlink⟩) hst hev).does (.inl trivial)
  | none =>
    unfold sendEncoded
    split
    · exact Does.refl s
    · unfold sendFrameTo
      rw [hlink]
      exact Does.act (l := .lost i) (.inr rfl) (Act.lost i)

/-- Regranting changes that slot's grant, or loses its link. -/
theorem regrantForTest_does (i : SlotIdx) (ch : UInt16) (rate : F32) (s : Sys ε) :
    Does c now rx (fun l => l.Grants i ∨ l = .lost i) s (regrantForTest w i ch rate s) := by
  unfold regrantForTest
  split
  · exact Does.refl s
  · rename_i e he
    split
    · exact Does.refl s
    · split
      · exact Does.refl s
      · rename_i subs hsubs
        have hact : Does c now rx (fun l => l.Grants i ∨ l = .lost i) s (s.modSession i fun se => { se with subs }) := by
          refine Does.act (l := .subs i) (.inl rfl) ?_
          rw [Sys.modSession, view_modSlot]
          refine Act.subs i subs.channels fun x hx => .inl ?_
          rcases (SubscriptionTable.channels_upsert hsubs).2 x hx with h | h
          · exact h
          · subst h
            exact (mem_subs_view s i x).mpr (Option.isSome_iff_exists.mpr ⟨e, he⟩)
        exact hact.trans (sendEncoded_lost _ _ (by decide) (by decide))

/-- A log line is told and nothing else happens. -/
theorem publishLog_does (level : UInt8) (tag message : Bytes) (s : Sys ε) :
    Does c now rx Label.Tells s (publishLog w c level tag message s) := by
  unfold publishLog
  split
  · exact Does.refl s
  · dsimp only
    split
    · exact Does.refl s
    · rename_i bytes _
      have hkeep : Does c now rx Label.Tells s
          { s with hub := { s.hub with logRing := s.hub.logRing.push bytes } } := Does.of_view rfl
      exact hkeep.trans ((emits_publishEvent _ _ _).does trivial)

/-- Every call of the host but `update`, with the acts it stands for. -/
theorem host_does {k : Call ε} (s : Sys ε) (hk : ∀ nowUs inbox, k ≠ .update nowUs inbox) :
    Does c now rx (HostLabel w s k) s (call w c s k) := by
  cases k with
  | update nowUs inbox => exact absurd rfl (hk nowUs inbox)
  | world e => exact Does.of_view rfl
  | attachTransport t => exact attachTransport_does t s
  | detachTransport t => exact detachTransport_does t s
  | publishState ch payload => exact retain_does s rfl
  | publishEvent ch bytes => exact (emits_publishEvent _ _ s).does trivial
  | publishLog level tag message =>
    show Does c now rx Label.Tells s (publishLog w c level tag message s)
    exact publishLog_does level tag message s
  | latchEstop f => exact handleEstopFrame_does f _ s
  | clearEstop => exact clearEstop_does s
  | setSafetyModes o b => exact setSafetyModes_does o b s
  | setCongestionLevel i level => exact Does.of_view (view_modSlot_of_slotView rfl)
  | bumpConfigGeneration => exact Does.act rfl Act.cfg
  | pairing p => exact Does.act rfl (Act.restore p)
  | openPresenceWindow => exact openPresenceWindow_does s
  | closePresenceWindow => exact closePresenceWindow_does s
  | takePendingSignJob =>
    refine Does.of_view ?_
    show (((takePendingSignJob s).map Prod.snd).getD s).view = s.view
    cases hjob : takePendingSignJob s with
    | none => rfl
    | some r =>
      obtain ⟨job, t⟩ := r
      exact view_takePendingSignJob hjob
  | submitSignature sid sig => exact submitSignature_does sid sig s
  | signPendingNow maxJobs => exact signPendingNow_does maxJobs 5 0 s
  | setInlineSigning on => exact Does.of_view rfl
  | setIdentity identity wsPort ipv4 => exact Does.of_view rfl
  | regrantForTest i ch rate => exact regrantForTest_does i ch rate s

/-- What the liveness pumps make of `s`: they find nothing to do in slot `i`, or one of them ends or suspends its
session. -/
inductive Expiry (w : World ε) (c : Config) (i : SlotIdx) (nowMs : UInt32) (s : Sys ε) : Sys ε → Prop
  | none (hdead : ¬DeadmanDue s i nowMs) (hidle : ¬IdleDue s i nowMs)
      (hready : (s.session i).occupied = true → ¬AdoptionDue s i nowMs) : Expiry w c i nowMs s s
  | deadman (h : DeadmanDue s i nowMs) : Expiry w c i nowMs s (markStale w c i nowMs 3 s)
  | adoption (h : AdoptionDue s i nowMs) :
      Expiry w c i nowMs s (teardownSession w c i nowMs (sendGoodbye w i .readyTimeout s))
  | idle (h : IdleDue s i nowMs) : Expiry w c i nowMs s (markStale w c i nowMs 4 s)

/-- A torn down slot is free. -/
theorem free_teardownSession (i : SlotIdx) (nowMs : UInt32) (s : Sys ε) :
    ((teardownSession w c i nowMs s).session i).occupied = false := by
  have hslot := slots_teardownSession (w := w) (c := c) i nowMs s i
  rw [if_pos rfl] at hslot
  have hno : ¬((teardownSession w c i nowMs s).view.slots i).occupied := by
    rw [hslot]
    exact SlotView.not_occupied_cleared _
  rwa [occupied_view, Bool.not_eq_true] at hno

/-- **The first of the three windows to run out wins.** -/
theorem pumpLiveness_expiry (i : SlotIdx) (nowMs : UInt32) (s : Sys ε) :
    Expiry w c i nowMs s (pumpLiveness w c i nowMs s) := by
  unfold pumpLiveness
  dsimp only
  cases hocc : (s.session i).occupied with
  | false =>
    have hoff : (s.session i).state ≠ .live := fun h => by rw [occupied_of_live h] at hocc; cases hocc
    simp only [Bool.false_eq_true, if_false, hocc]
    exact .none (fun h => hoff h.live) (fun h => hoff h.live) fun h => by rw [hocc] at h; cases h
  | true =>
    rw [if_pos rfl]
    rcases pumpDeadman_cases (w := w) (c := c) i nowMs s with ⟨hdead, heq⟩ | ⟨hdead, heq⟩
    · rw [heq, if_pos hocc]
      rcases pumpReadyTimeout_cases (w := w) (c := c) i nowMs s with ⟨hready, heq⟩ | ⟨hready, heq⟩
      · rw [heq, if_pos hocc]
        rcases pumpIdleReap_cases (w := w) (c := c) i nowMs s with ⟨hidle, heq⟩ | ⟨hidle, heq⟩
        · rw [heq]
          exact .none hdead hidle fun _ => hready
        · rw [heq]
          exact .idle hidle
      · rw [heq, free_teardownSession]
        exact .adoption hready
    · -- a stale session is not the other pumps' business
      rw [heq]
      have hst : ((markStale w c i nowMs 3 s).session i).state = .stale := state_markStale i nowMs 3 s
      have hcalm : pumpReadyTimeout w c i nowMs (markStale w c i nowMs 3 s) = markStale w c i nowMs 3 s := by
        rcases pumpReadyTimeout_cases (w := w) (c := c) i nowMs (markStale w c i nowMs 3 s) with h | h
        · exact h.2
        · exact absurd hst h.1.fresh
      have hidle : pumpIdleReap w c i nowMs (markStale w c i nowMs 3 s) = markStale w c i nowMs 3 s := by
        rcases pumpIdleReap_cases (w := w) (c := c) i nowMs (markStale w c i nowMs 3 s) with h | h
        · exact h.2
        · exact absurd (hst.symm.trans h.1.live) (by decide)
      rw [hcalm, ite_self, hidle, ite_self]
      exact .deadman hdead

/-- The liveness pump, session by session. -/
theorem pumpLiveness_does (i : SlotIdx) (nowMs : UInt32) (s : Sys ε) :
    Does c now rx (LivenessLabel s i nowMs) s (pumpLiveness w c i nowMs s) := by
  have h := pumpLiveness_expiry (w := w) (c := c) i nowMs s
  generalize pumpLiveness w c i nowMs s = t at h
  cases h with
  | none => exact Does.refl s
  | deadman h => exact (markStale_does nowMs 3 (occupied_of_live h.live)).mono fun _ hl => .inl ⟨h, hl⟩
  | idle h => exact (markStale_does nowMs 4 (occupied_of_live h.live)).mono fun _ hl => .inr (.inl ⟨h, hl⟩)
  | adoption h =>
    have hbye : Does c now rx (Label.Ends i) s (sendGoodbye w i .readyTimeout s) :=
      (emits_sendGoodbye i .readyTimeout s).does trivial
    exact (hbye.trans (teardownSession_does i nowMs _)).mono fun _ hl => .inr (.inr ⟨h, hl⟩)

/-- What the outgoing pumps do is chatter: no session changes hands. -/
theorem pumpOut_does (i : SlotIdx) (nowMs : UInt32) (s : Sys ε) :
    Does c now rx (· = .chatter) s (pumpOut w c i nowMs s) := by
  unfold pumpOut
  split
  · rename_i h
    rw [Bool.and_eq_true] at h
    exact ((pumpStatePacing_does nowMs h.2).trans ((emits_pumpEventDrain i _).does rfl)).trans
      (pumpBlobTransfer_does i _)
  · exact Does.refl s

theorem view_setDispatchSeq (x : Option UInt16) (t : Sys ε) : (setDispatchSeq x t).view = t.view := rfl
theorem pairing_setDispatchSeq (x : Option UInt16) (t : Sys ε) : (setDispatchSeq x t).hub.pairing = t.hub.pairing := rfl
/-- A frame move is `heard`, then `dispatch`, then the dispatch sequence cleared. -/
theorem move_frame (i : SlotIdx) (seq : UInt16) (m : Inbound) (s : Sys ε) :
    move w c s (.frame i (.frame seq m)) =
      setDispatchSeq none (dispatch w c i m s.hub.monoMs.ms (heard w s i seq)) := rfl

/-- Hearing a frame reads it and does no more. -/
theorem heard_does (i : SlotIdx) (seq : UInt16) (s : Sys ε) :
    Does c s.hub.monoMs.ms (some i) (Label.Reads i) s (heard w s i seq) :=
  (noteRx_does i _ s).trans (Does.of_view (view_setDispatchSeq (some seq) _))

/-- A session just heard is not STALE. -/
theorem state_heard (i : SlotIdx) (seq : UInt16) (s : Sys ε) : ((heard w s i seq).session i).state ≠ .stale :=
  state_reviveIfStale i _ _

theorem awake_heard (i : SlotIdx) (seq : UInt16) (s : Sys ε) : Awake (heard w s i seq) i :=
  awake_setDispatchSeq fun hocc => active_noteRx hocc

/-- Hearing a frame leaves the sessions' instances distinct. -/
theorem distinct_heard (i : SlotIdx) (seq : UInt16) {s : Sys ε} (hd : s.view.Distinct) :
    (heard w s i seq).view.Distinct := by
  have hread : Does ⟨[], ByteArr.zero 8, []⟩ s.hub.monoMs.ms (some i) (Label.Reads i) s (heard w s i seq) :=
    heard_does i seq s
  exact hread.invariant (I := View.Distinct) (fun _ _ _ _ ha => Act.distinct ha) hd

theorem link_heard (i : SlotIdx) (seq : UInt16) {s : Sys ε} (hlink : (s.slot i).transport.isSome) :
    ((heard w s i seq).view.slots i).transport.isSome := by
  have hread : Does ⟨[], ByteArr.zero 8, []⟩ s.hub.monoMs.ms (some i) (Label.Reads i) s (heard w s i seq) :=
    heard_does i seq s
  rw [hread.frame (f := fun v => (v.slots i).transport) fun _ _ _ hl ha => reads_transport hl ha]
  exact hlink

/-- A frame is read, then dispatched. -/
theorem dispatched_does {i : SlotIdx} (seq : UInt16) (m : Inbound) {s : Sys ε} (hd : s.view.Distinct)
    (hlink : (s.slot i).transport.isSome) :
    Does c s.hub.monoMs.ms (some i) (FrameLabel w c i s.hub.monoMs.ms (heard w s i seq) m) (heard w s i seq)
      (pumpFrame w c i s.hub.monoMs.ms (.frame seq m) s) :=
  Does.trans (dispatch_does m _ (distinct_heard i seq hd) (link_heard i seq hlink) (awake_heard i seq s))
    (Does.of_view (view_setDispatchSeq none _))

/-- One frame of the inbox, decodable or not. -/
theorem pumpFrame_does {i : SlotIdx} (f : RxFrame) {s : Sys ε} (hd : s.view.Distinct)
    (hlink : (s.slot i).transport.isSome) : Does c s.hub.monoMs.ms (some i) (MoveLabel w c s (.frame i f)) s
      (pumpFrame w c i s.hub.monoMs.ms f s) := by
  have hread : Does c s.hub.monoMs.ms (some i) (Label.Reads i) s (noteRx w i s.hub.monoMs.ms s) := noteRx_does i _ s
  cases f with
  | estop f =>
    exact (hread.mono fun _ => .inl).trans ((handleEstopFrame_does f _ _).mono fun _ => .inr)
  | badEstop => exact Does.refl s
  | short => exact Does.refl s
  | frame seq m =>
    exact ((heard_does i seq s).mono fun _ => .inl).trans ((dispatched_does seq m hd hlink).mono fun _ => .inr)

/-- Every move does what its label allows. -/
theorem move_does {m : Move ε} {s : Sys ε} (hd : s.view.Distinct) (hok : m.Enabled s) :
    Does c s.hub.monoMs.ms m.reading (MoveLabel w c s m) s (move w c s m) := by
  cases m with
  | host k => exact host_does s hok
  | tick nowUs =>
    have htick : Does c s.hub.monoMs.ms none (fun l => l = .tick ∨ l.Tells) s
        { s with hub := { s.hub with monoMs := s.hub.monoMs.advance nowUs } } :=
      Does.act (l := .tick) (.inl rfl) (Act.tick _)
    exact htick.trans ((pumpPairing_does _ _).mono fun _ => .inr)
  | frame i f => exact pumpFrame_does f hd hok
  | liveness i => exact pumpLiveness_does i _ s
  | out i => exact pumpOut_does i _ s

/-- The snapshots the hub keeps in step are not published to by a move, unless the host does. -/
theorem retain_of_moveLabel {m : Move ε} {s : Sys ε} {ch : UInt16} (hl : MoveLabel w c s m (.retain ch)) :
    Plain ch ∨ ∃ payload, m = .host (.publishState ch payload) := by
  cases m with
  | host call =>
    cases call with
    | publishState ch' payload =>
      cases hl
      exact .inr ⟨payload, rfl⟩
    | attachTransport => exact .inl (hl.elim fun _ h => h.2)
    | detachTransport => exact .inl (hl.elim fun _ h => h.2)
    | latchEstop | setSafetyModes | clearEstop => exact .inl (hl.elim fun _ h => h)
    | bumpConfigGeneration | pairing => cases hl
    | regrantForTest => exact (hl.elim id fun h => nomatch h).elim
    | _ => exact .inl hl
  | tick => exact .inl (hl.elim (fun h => nomatch h) id)
  | liveness => exact .inl (hl.acts.elim False.elim fun h => h.elim False.elim id)
  | out => cases hl
  | frame i f =>
    cases f with
    | estop => exact .inl (hl.elim False.elim fun h => h.elim fun _ h => h)
    | badEstop | short => exact hl.elim
    | frame seq m =>
      rcases hl with hl | hl
      · exact hl.elim
      · cases hl with
        | sends hl => cases hl
        | hello _ hl | subscribe _ hl => exact .inl (hl.elim False.elim id)
        | reattach _ hl => exact .inl hl
        | intent hl => exact .inl (hl.elim fun _ h => h)
        | stream hl | goodbye hl | pairReq hl | auth hl => exact .inl hl

/-- Only a frame with a header does this. -/
def Label.Framed : Label → Prop
  | .role _ _ | .settle _ | .ready _ | .apply _ | .accept _ | .enrol _ _ | .migrate _ _ | .resume _ _ | .acquire _ _
  | .knock _ | .mint _ _ => True
  | _ => False

/-- An act that only frames may do comes from a frame. -/
theorem frame_of_moveLabel {m : Move ε} {s : Sys ε} {l : Label} (hl : MoveLabel w c s m l) (hf : l.Framed) :
    ∃ i seq msg, m = .frame i (.frame seq msg) ∧
      FrameLabel w c i s.hub.monoMs.ms (heard w s i seq) msg l := by
  cases m with
  | host call =>
    cases call with
    | attachTransport | detachTransport =>
      obtain ⟨i, _, hl⟩ := hl
      cases l <;> first | exact hf.elim | exact hl.elim
    | latchEstop | setSafetyModes | clearEstop =>
      cases l <;> first | exact hf.elim | exact hl.elim fun _ h => h.elim
    | publishState | bumpConfigGeneration | pairing =>
      cases hl
      exact hf.elim
    | regrantForTest => cases l <;> first | exact hf.elim | exact (hl.elim id fun h => nomatch h).elim
    | _ => cases l <;> first | exact hf.elim | exact hl.elim
  | tick => cases l <;> first | exact hf.elim | exact (hl.elim (fun h => nomatch h) id).elim
  | liveness => cases l <;> first | exact hf.elim | exact hl.acts.elim False.elim fun h => h.elim False.elim False.elim
  | out =>
    cases hl
    exact hf.elim
  | frame i f =>
    cases f with
    | estop => cases l <;> first | exact hf.elim | exact hl.elim False.elim fun h => h.elim fun _ h => h.elim
    | badEstop | short => exact hl.elim
    | frame seq msg =>
      rcases hl with hl | hl
      · cases l <;> first | exact hf.elim | exact hl.elim
      · exact ⟨i, seq, msg, rfl, hl⟩

/-- Only the host does this, and an INTENT that changes the configuration. -/
def Label.Hosted : Label → Prop
  | .window | .restore | .cfg => True
  | _ => False

/-- A call that does none of this. -/
theorem Call.quiet {k : Call ε} {s : Sys ε} {l : Label} (hl : HostLabel w s k l) (hh : l.Hosted) :
    (k = .bumpConfigGeneration ∧ l = .cfg) ∨ (k = .openPresenceWindow ∧ l = .window) ∨
      ((∃ p, k = .pairing p) ∧ l = .restore) := by
  cases k with
  | bumpConfigGeneration => exact .inl ⟨rfl, hl⟩
  | pairing p => exact .inr (.inr ⟨⟨p, rfl⟩, hl⟩)
  | openPresenceWindow =>
    cases l <;> first | exact hh.elim | exact .inr (.inl ⟨rfl, rfl⟩) | exact hl.elim
  | attachTransport | detachTransport =>
    obtain ⟨i, -, hl⟩ := hl
    cases l <;> first | exact hh.elim | exact hl.elim
  | latchEstop | setSafetyModes | clearEstop => cases l <;> first | exact hh.elim | exact (hl.elim fun _ h => h).elim
  | publishState =>
    cases hl
    exact hh.elim
  | regrantForTest => cases l <;> first | exact hh.elim | exact (hl.elim id fun h => nomatch h).elim
  | _ => cases l <;> first | exact hh.elim | exact hl.elim

/-! ## Sequences of moves -/

/-- A run of moves from `s` to `s'`, each taken in a state where `G` allows it. -/
def Steps (w : World ε) (c : Config) (G : Sys ε → Move ε → Prop) : Sys ε → Sys ε → Prop :=
  Relation.ReflTransGen fun s s' => ∃ m : Move ε, m.Enabled s ∧ G s m ∧ s' = move w c s m

/-- The states that moves allowed by `G` can reach from a fresh hub. -/
def ReachBy (w : World ε) (c : Config) (G : Sys ε → Move ε → Prop) (s : Sys ε) : Prop :=
  ∃ e, Steps w c G (boot w c e) s

variable {G : Sys ε → Move ε → Prop} {s s' : Sys ε}

theorem Steps.one {m : Move ε} (hok : m.Enabled s) (hG : G s m) : Steps w c G s (move w c s m) :=
  Relation.ReflTransGen.single ⟨m, hok, hG, rfl⟩

theorem Steps.mono {G' : Sys ε → Move ε → Prop} (h : Steps w c G s s') (hG : ∀ s m, G s m → G' s m) :
    Steps w c G' s s' :=
  Relation.ReflTransGen.mono (fun _ _ ⟨m, hok, hm, he⟩ => ⟨m, hok, hG _ _ hm, he⟩) _ _ h

/-- No move makes two sessions share an instance. -/
theorem distinct_move {m : Move ε} (hok : m.Enabled s) (hd : s.view.Distinct) : (move w c s m).view.Distinct :=
  Path.invariant (I := View.Distinct) (move_does hd hok) (fun _ _ _ _ ha => ha.distinct) hd

/-- So no run does. -/
theorem Steps.distinct (h : Steps w c G s s') (hd : s.view.Distinct) : s'.view.Distinct := by
  induction h with
  | refl => exact hd
  | tail _ hstep ih =>
    obtain ⟨m, hok, _, rfl⟩ := hstep
    exact distinct_move hok ih

/-- What every allowed move preserves holds along a run. -/
theorem Steps.preserves {I : Sys ε → Prop} (h : Steps w c G s s') (hd : s.view.Distinct)
    (hI : ∀ t m, m.Enabled t → G t m → t.view.Distinct → I t → I (move w c t m)) (hs : I s) : I s' := by
  induction h with
  | refl => exact hs
  | tail hrun hstep ih =>
    obtain ⟨m, hok, hG, rfl⟩ := hstep
    exact hI _ m hok hG (Steps.distinct hrun hd) ih

/-- **What every act of every allowed move preserves holds along a run.**  Along the way the sessions stay of
distinct instances, which is what lets each move be seen as acts. -/
theorem Steps.invariant {I : View → Prop} (h : Steps w c G s s') (hd : s.view.Distinct)
    (hI : ∀ t m, G t m → ∀ l v v', MoveLabel w c t m l → Act c t.hub.monoMs.ms m.reading l v v' → I v → I v')
    (hs : I s.view) : I s'.view := by
  refine h.preserves (I := fun t => I t.view) hd (fun t m hok hG hdt ht => ?_) hs
  exact Path.invariant (move_does hdt hok) (fun l v v' hl ha hv => hI t m hG l v v' hl ha hv) ht

/-- A fresh hub has retained its first snapshots; nothing else happened. -/
theorem view_boot (e : ε) : ∃ r, (boot w c e).view = { View.fresh with retained := r } := by
  have hretain : ∀ (ch : UInt16) (payload : Bytes) (t : Sys ε), (∃ r, t.view = { View.fresh with retained := r }) →
      ∃ r, (retain ch payload t).view = { View.fresh with retained := r } := by
    rintro ch payload t ⟨r, ht⟩
    exact ⟨_, by rw [view_retain, ht]⟩
  unfold boot
  generalize drawNonZero w.nextU32 w.drawFuel e = draw
  obtain ⟨bootId, env⟩ := draw
  dsimp only
  have h₀ : ∃ r, ({ hub := { bootId }, env } : Sys ε).view = { View.fresh with retained := r } := ⟨{}, rfl⟩
  have h₁ : ∃ r, (if (c.catalog.find Channels.safety).isSome then
      publishSafetySnapshot ({ hub := { bootId }, env } : Sys ε) else { hub := { bootId }, env }).view =
        { View.fresh with retained := r } := by
    split
    · exact hretain _ _ _ h₀
    · exact h₀
  generalize (if (c.catalog.find Channels.safety).isSome then
      publishSafetySnapshot ({ hub := { bootId }, env } : Sys ε) else { hub := { bootId }, env }) = s₁ at h₁
  have h₂ : ∃ r, (publishPendingPairingState c 0 s₁).view = { View.fresh with retained := r } := by
    unfold publishPendingPairingState
    split
    · exact h₁
    · exact hretain _ _ _ h₁
  unfold publishPairedRosterState
  split
  · exact h₂
  · exact hretain _ _ _ h₂

/-- A hub that has just booted has no sessions to confuse. -/
theorem distinct_boot (e : ε) : (boot w c e).view.Distinct := by
  obtain ⟨r, h⟩ := view_boot (w := w) (c := c) e
  rw [h]
  intro i j _ hi
  exact absurd rfl hi.1

theorem ReachBy.distinct (h : ReachBy w c G s) : s.view.Distinct := by
  obtain ⟨e, he⟩ := h
  exact he.distinct (distinct_boot e)

/-- The induction over runs: what holds at boot and survives every move of the run holds in every state of it. -/
theorem ReachBy.preserves {I : Sys ε → Prop} (h : ReachBy w c G s) (hboot : ∀ e, I (boot w c e))
    (hI : ∀ t m, m.Enabled t → G t m → t.view.Distinct → I t → I (move w c t m)) : I s := by
  obtain ⟨e, he⟩ := h
  exact he.preserves (distinct_boot e) hI (hboot e)

/-- An invariant of the abstract hub that a fresh one has and every allowed act keeps. -/
theorem ReachBy.invariant {I : View → Prop} (h : ReachBy w c G s) (hboot : ∀ r, I { View.fresh with retained := r })
    (hI : ∀ t m, G t m → ∀ l v v', MoveLabel w c t m l → Act c t.hub.monoMs.ms m.reading l v v' → I v → I v') :
    I s.view := by
  obtain ⟨e, he⟩ := h
  obtain ⟨r, hr⟩ := view_boot (w := w) (c := c) e
  exact he.invariant (distinct_boot e) hI (by rw [hr]; exact hboot r)

/-- Each of the moves is enabled and allowed where it is taken. -/
def Allowed (w : World ε) (c : Config) (G : Sys ε → Move ε → Prop) : List (Move ε) → Sys ε → Prop
  | [], _ => True
  | m :: moves, s => m.Enabled s ∧ G s m ∧ Allowed w c G moves (move w c s m)

/-- A list of moves, each allowed where it is taken, is a run. -/
theorem Allowed.steps : ∀ {moves : List (Move ε)} {s : Sys ε}, Allowed w c G moves s →
    Steps w c G s (moves.foldl (move w c) s)
  | [], _, _ => Relation.ReflTransGen.refl
  | _ :: _, _, ⟨hok, hG, hrest⟩ => (Steps.one hok hG).trans (Allowed.steps hrest)

/-! ## Calls are sequences of moves -/

/-- The moves inside one update. -/
def Move.Inner (_ : Sys ε) : Move ε → Prop
  | .frame _ _ | .liveness _ | .out _ => True
  | _ => False

/-- Only a tick moves the clock. -/
theorem Act.clock_eq {l : Label} {v v' : View} (hl : l ≠ .tick) (h : Act c now rx l v v') : v'.clock = v.clock := by
  cases h <;> first | rfl | exact absurd rfl hl

/-- Only the host moves the clock and plugs transports in. -/
def Label.Outer : Label → Prop
  | .tick | .attach _ _ => True
  | _ => False

/-- A move inside `update` does nothing only the host may do. -/
theorem moveLabel_inner {m : Move ε} (hm : m.Inner s) {l : Label} (hl : MoveLabel w c s m l) : ¬l.Outer := by
  intro ho
  cases l with
  | tick | attach =>
    cases m with
    | host | tick => exact hm
    | liveness => exact hl.acts.elim id fun h => h.elim id id
    | out => cases hl
    | frame i f =>
      cases f with
      | estop => exact hl.elim id fun h => h.elim fun _ h => h
      | badEstop | short => exact hl
      | frame seq m =>
        rcases hl with hl | hl
        · exact hl
        · cases hl with
          | sends hl => cases hl
          | hello _ hl | subscribe _ hl => exact hl.elim id id
          | reattach _ hl => exact hl
          | intent hl => exact hl.elim fun _ h => h
          | stream hl | goodbye hl | pairReq hl | auth hl => exact hl
  | _ => exact ho

/-- The hub's clock stands still while the moves of one update are taken. -/
theorem Steps.clock (h : Steps w c Move.Inner s s') (hd : s.view.Distinct) : s'.hub.monoMs = s.hub.monoMs := by
  refine h.invariant (I := fun v => v.clock = s.view.clock) hd ?_ rfl
  intro _ _ hG l _ _ hl ha hv
  refine (Act.clock_eq ?_ ha).trans hv
  rintro rfl
  exact moveLabel_inner hG hl trivial

/-- Pumping a slot's inbox is a run of its frames; the induction is on the frames left. -/
theorem pumpSlot_steps (i : SlotIdx) : ∀ (frames : List RxFrame) (s : Sys ε), s.view.Distinct →
    Steps w c Move.Inner s (pumpSlot w c i s.hub.monoMs.ms frames s)
  | [], s, _ => Relation.ReflTransGen.refl
  | f :: rest, s, hd => by
    unfold pumpSlot
    split
    · exact Relation.ReflTransGen.refl
    · rename_i hlink
      have hone : Steps w c Move.Inner s (pumpFrame w c i s.hub.monoMs.ms f s) := by
        refine Steps.one (m := .frame i f) ?_ trivial
        show (s.slot i).transport.isSome
        simpa [Option.isSome_iff_ne_none] using hlink
      have hrest := pumpSlot_steps i rest (pumpFrame w c i s.hub.monoMs.ms f s) (hone.distinct hd)
      rw [hone.clock hd] at hrest
      exact hone.trans hrest

/-- One slot's share of `update` is a run of moves. -/
theorem updateSlot_steps (inbox : SlotIdx → List RxFrame) (i : SlotIdx) (s : Sys ε) (hd : s.view.Distinct) :
    Steps w c Move.Inner s (updateSlot w c inbox s.hub.monoMs.ms s i) := by
  unfold updateSlot
  split
  · exact Relation.ReflTransGen.refl
  · have h₁ := pumpSlot_steps (w := w) (c := c) i (inbox i) s hd
    have h₂ : Steps w c Move.Inner _ _ := h₁.trans (Steps.one (m := .liveness i) trivial trivial)
    have h₃ : Steps w c Move.Inner _ _ := h₂.trans (Steps.one (m := .out i) trivial trivial)
    simp only [move] at h₂ h₃
    rw [h₂.clock hd, h₁.clock hd] at h₃
    exact h₃

/-- The loop over the slots is a run of moves. -/
theorem updateFold_steps (inbox : SlotIdx → List RxFrame) : ∀ (l : List SlotIdx) (s : Sys ε), s.view.Distinct →
    Steps w c Move.Inner s (l.foldl (updateSlot w c inbox s.hub.monoMs.ms) s)
  | [], s, _ => Relation.ReflTransGen.refl
  | i :: l, s, hd => by
    have h₁ := updateSlot_steps (w := w) (c := c) inbox i s hd
    have h₂ := updateFold_steps inbox l _ (h₁.distinct hd)
    rw [h₁.clock hd] at h₂
    exact h₁.trans h₂

/-- The host keeps to `H`; what its clients send is up to them. -/
def Move.Hosted (H : Sys ε → Call ε → Prop) (s : Sys ε) : Move ε → Prop
  | .host k => H s k
  | _ => True

theorem hosted_of_inner {H : Sys ε → Call ε → Prop} {m : Move ε} (h : m.Inner s) : m.Hosted H s := by
  cases m <;> first | exact h.elim | exact trivial

variable {H : Sys ε → Call ε → Prop}

/-- A tick advances the clock to its reading. -/
theorem clock_tick (nowUs : UInt32) (s : Sys ε) :
    (move w c s (.tick nowUs)).hub.monoMs = s.hub.monoMs.advance nowUs := by
  have hpair : Does c 0 none Label.Tells _ (move w c s (.tick nowUs)) := pumpPairing_does _ _
  exact Path.frame (f := View.clock) hpair fun l _ _ hl ha => Act.clock_eq (by rintro rfl; exact hl) ha

/-- An update is a tick and moves inside it. -/
theorem update_inner (nowUs : UInt32) (inbox : SlotIdx → List RxFrame) (s : Sys ε) (hd : s.view.Distinct) :
    Steps w c Move.Inner (move w c s (.tick nowUs)) (update w c nowUs inbox s) := by
  have hrest := updateFold_steps (w := w) (c := c) inbox allSlots _ (distinct_move (w := w) (c := c)
    (m := .tick nowUs) trivial hd)
  rw [clock_tick] at hrest
  exact hrest

/-- `update` is a tick and then moves inside it. -/
theorem update_steps (nowUs : UInt32) (inbox : SlotIdx → List RxFrame) (s : Sys ε) (hd : s.view.Distinct) :
    Steps w c (Move.Hosted H) s (update w c nowUs inbox s) := by
  have htick : Steps w c (Move.Hosted H) s (move w c s (.tick nowUs)) := Steps.one trivial trivial
  exact htick.trans ((update_inner nowUs inbox s hd).mono fun _ _ => hosted_of_inner)

/-- **Every public call is a sequence of moves.** -/
theorem call_steps {k : Call ε} {s : Sys ε} (hd : s.view.Distinct) (hk : H s k) :
    Steps w c (Move.Hosted H) s (call w c s k) := by
  by_cases hu : ∃ nowUs inbox, k = .update nowUs inbox
  · obtain ⟨nowUs, inbox, rfl⟩ := hu
    exact update_steps nowUs inbox s hd
  · exact Steps.one (m := .host k) (fun nowUs inbox h => hu ⟨nowUs, inbox, h⟩) hk

/-- Some run of calls takes the move `m` in the state `s`. -/
inductive Taken (w : World ε) (c : Config) : Sys ε → Move ε → Prop
  | host (e : ε) (calls : List (Call ε)) (k : Call ε) (hk : ∀ nowUs inbox, k ≠ .update nowUs inbox) :
      Taken w c (run w c e calls) (.host k)
  | tick (e : ε) (calls : List (Call ε)) (nowUs : UInt32) : Taken w c (run w c e calls) (.tick nowUs)
  /-- After the tick of an update its frames and pumps follow. -/
  | inner {e : ε} {calls : List (Call ε)} {nowUs : UInt32} {t : Sys ε} {m : Move ε}
      (h : Steps w c Move.Inner (move w c (run w c e calls) (.tick nowUs)) t) (hok : m.Enabled t) (hm : m.Inner t) :
      Taken w c t m

/-- A move that was taken was enabled. -/
theorem Taken.enabled {m : Move ε} (h : Taken w c s m) : m.Enabled s := by
  cases h with
  | host _ _ _ hk => exact hk
  | tick => trivial
  | inner _ hok _ => exact hok

/-- A fact about every move that can be taken on the way. -/
theorem Steps.along (h : Steps w c G s s') {G' : Sys ε → Move ε → Prop}
    (hG : ∀ t m, Steps w c G s t → m.Enabled t → G t m → G' t m) : Steps w c G' s s' := by
  induction h with
  | refl => exact Relation.ReflTransGen.refl
  | tail hrun hstep ih =>
    obtain ⟨m, hok, hm, rfl⟩ := hstep
    exact ih.tail ⟨m, hok, hG _ m hrun hok hm, rfl⟩

/-- Each of the calls is one that `H` allows where it is made. -/
def Obeys (w : World ε) (c : Config) (H : Sys ε → Call ε → Prop) : List (Call ε) → Sys ε → Prop
  | [], _ => True
  | k :: calls, s => H s k ∧ Obeys w c H calls (call w c s k)

/-- A sequence of calls is a run of moves; the induction is on the calls left. -/
theorem calls_steps : ∀ {calls : List (Call ε)} {s : Sys ε}, s.view.Distinct → Obeys w c H calls s →
    Steps w c (Move.Hosted H) s (calls.foldl (call w c) s)
  | [], _, _, _ => Relation.ReflTransGen.refl
  | _ :: _, _, hd, ⟨hk, hrest⟩ =>
    (call_steps hd hk).trans (calls_steps ((call_steps (H := H) hd hk).distinct hd) hrest)

/-- **A run of calls that the host makes as `H` allows is a run of moves.** -/
theorem reachBy_run {e : ε} {calls : List (Call ε)} (h : Obeys w c H calls (boot w c e)) :
    ReachBy w c (Move.Hosted H) (run w c e calls) :=
  ⟨e, calls_steps (distinct_boot e) h⟩

/-- The moves of a run of calls. -/
theorem run_taken (e : ε) (calls : List (Call ε)) : Steps w c (Taken w c) (boot w c e) (run w c e calls) := by
  induction calls using List.reverseRecOn with
  | nil => exact Relation.ReflTransGen.refl
  | append_singleton calls k ih =>
    have hcall : run w c e (calls ++ [k]) = call w c (run w c e calls) k := by simp [run]
    rw [hcall]
    refine ih.trans ?_
    by_cases hu : ∃ nowUs inbox, k = .update nowUs inbox
    · obtain ⟨nowUs, inbox, rfl⟩ := hu
      have hinner := update_inner (w := w) (c := c) nowUs inbox _ (ih.distinct (distinct_boot e))
      exact (Steps.one (m := .tick nowUs) trivial (.tick e calls nowUs)).trans
        (hinner.along fun t m hrun hok hm => .inner hrun hok hm)
    · have hk : ∀ nowUs inbox, k ≠ .update nowUs inbox := fun nowUs inbox h => hu ⟨nowUs, inbox, h⟩
      exact Steps.one (m := .host k) hk (.host e calls k hk)

theorem Taken.distinct {m : Move ε} (h : Taken w c s m) : s.view.Distinct := by
  cases h with
  | host e calls | tick e calls => exact (run_taken e calls).distinct (distinct_boot e)
  | inner hrun => exact hrun.distinct (distinct_move trivial ((run_taken _ _).distinct (distinct_boot _)))

theorem obeys_true : ∀ (calls : List (Call ε)) (s : Sys ε), Obeys w c (fun _ _ => True) calls s
  | [], _ => trivial
  | _ :: calls, _ => ⟨trivial, obeys_true calls _⟩

/-- What `update` and the host's calls reach, moves reach. -/
theorem reachBy_of_reachable (h : Reachable w c s) : ReachBy w c (fun _ _ => True) s := by
  obtain ⟨e, calls, rfl⟩ := h
  obtain ⟨e, he⟩ := reachBy_run (obeys_true (w := w) (c := c) calls (boot w c e))
  exact ⟨e, he.mono fun _ _ _ => trivial⟩

/-! ## What moves write -/

/-- The move handles a frame that asks for a credential, or approves one. -/
def Move.Pairs : Move ε → Prop
  | .frame _ (.frame _ m) => m.Pairs
  | _ => False

/-- The move handles a HELLO of slot `i`. -/
def Move.GreetsIn (i : SlotIdx) : Move ε → Prop
  | .frame j (.frame _ m) => m.Greets ∧ j = i
  | _ => False

/-- Hearing a frame writes nothing. -/
theorem writes_heard {T : FrameType → Prop} {N : SlotIdx → Prop} (hT : ∀ ty, FrameType.Plain ty → T ty) (i : SlotIdx)
    (seq : UInt16) (s : Sys ε) : Writes T N s (heard w s i seq) :=
  (writes_noteRx hT i _ s).trans (.same rfl)

/-- Only the pairing frames write a PAIR_GRANT, and only a HELLO of the slot changes its nonce. -/
theorem writes_move {T : FrameType → Prop} {N : SlotIdx → Prop} (hT : ∀ ty, FrameType.Plain ty → T ty) (hN : T .nack)
    {m : Move ε} (hP : m.Pairs → T .pairGrant) (hi : ∀ i, m.GreetsIn i → ¬N i) (hok : m.Enabled s) :
    Writes T N s (move w c s m) := by
  cases m with
  | tick nowUs => exact (writes_pumpPairing hT _ _).after rfl
  | liveness i => exact writes_pumpLiveness hT i _ s
  | out i => exact writes_pumpOut hT i hN _ s
  | frame i f =>
    cases f with
    | estop f => exact (writes_noteRx hT i _ s).trans (writes_handleEstopFrame hT f _ _)
    | badEstop | short => exact .refl s
    | frame seq m =>
      have hdispatch := writes_dispatch (w := w) (c := c) (s := heard w s i seq) hT i m (fun h => hi i ⟨h, rfl⟩) hN hP
        s.hub.monoMs.ms rfl
      exact ((writes_heard hT i seq s).trans hdispatch).trans (.same rfl)
  | host k =>
    cases k with
    | update nowUs inbox => exact absurd rfl (hok nowUs inbox)
    | world e | bumpConfigGeneration | pairing p | setInlineSigning on | setIdentity identity wsPort ipv4 =>
      exact .same rfl
    | attachTransport t => exact writes_attachTransport hT t s
    | detachTransport t => exact writes_detachTransport hT t s
    | publishState ch payload => exact writes_retain ch payload s
    | publishEvent ch bytes => exact writes_publishEvent hT ch bytes s
    | publishLog level tag message =>
      show Writes T N s (publishLog w c level tag message s)
      unfold publishLog
      split
      · exact .refl s
      · dsimp only
        split
        · exact .refl s
        · exact (writes_publishEvent hT _ _ _).after rfl
    | latchEstop f => exact writes_handleEstopFrame hT f _ s
    | clearEstop => exact writes_clearEstop hT s
    | setSafetyModes o b => exact writes_setSafetyModes hT o b s
    | setCongestionLevel i level =>
      show Writes T N s (setCongestionLevel i level s)
      exact .modSlot i s fun _ => rfl
    | openPresenceWindow => exact writes_openPresenceWindow hT s
    | closePresenceWindow => exact writes_closePresenceWindow hT s
    | takePendingSignJob =>
      show Writes T N s (((takePendingSignJob s).map Prod.snd).getD s)
      cases hjob : takePendingSignJob s with
      | none => exact .refl s
      | some r => exact writes_takePendingSignJob hjob
    | submitSignature sid sig => exact writes_submitSignature hT sid sig s
    | signPendingNow maxJobs => exact writes_signPendingNow hT maxJobs 5 0 s
    | regrantForTest i ch rate =>
      show Writes T N s (regrantForTest w i ch rate s)
      unfold regrantForTest
      split
      · exact .refl s
      · split
        · exact .refl s
        · split
          · exact .refl s
          · exact (Writes.modSession i (fun _ => by rfl) s).trans (writes_sendEncoded i (hT .grant trivial) trivial _ _)

end

end SlopSync
