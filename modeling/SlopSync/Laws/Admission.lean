import SlopSync.Hub.Bench
import SlopSync.Refine.Run

/-! # Who is admitted, and who is sent away

The admission invariant: at most four sessions, one per instance, one slot per transport.  And the other half of
admission control: what can end a session that is live on an attached transport (`MayEnd`). -/

namespace SlopSync

open Keyed Labelled

section

variable {ε : Type} {w : World ε} {c : Config} {now : UInt32} {rx : Option SlotIdx} {s s' : Sys ε}

/-! ## Reading a frame -/

/-- What reading a frame does on one slot keeps the others. -/
theorem Label.Reads.keeps {l : Label} {i k : SlotIdx} (h : l.Reads i) (hk : k ≠ i) : l.Keeps k := by
  cases l <;> first | exact trivial | exact h.elim | exact (show _ = i from h) ▸ hk.symm

/-- Reading a frame ends no live session. -/
theorem Label.Reads.spares {l : Label} {i : SlotIdx} (h : l.Reads i) (k : SlotIdx) : l.Spares k := by
  cases l <;> first | exact trivial | exact h.elim

/-- Reading a frame leaves every session in its slot and brings none. -/
theorem holds_noteRx (c : Config) (i : SlotIdx) (nowMs : UInt32) (s : Sys ε) (k : SlotIdx) (sid : UInt32) :
    (noteRx w i nowMs s).view.Holds k sid ↔ s.view.Holds k sid := by
  have hread : Does c nowMs (some i) (Label.Reads i) s (noteRx w i nowMs s) := noteRx_does i nowMs s
  constructor
  · intro h
    by_contra hn
    refine absurd h (hread.invariant (I := fun v => ¬v.Holds k sid) (fun l v v' hl ha hv => ?_) hn)
    rintro ⟨ho, hsid⟩
    rcases Act.stays ha k with hs | ⟨j, r, rfl, _⟩ | ⟨j, j', rfl, _⟩
    · obtain ⟨ho', _, hsid'⟩ := hs ho
      exact hv ⟨ho', hsid'.symm.trans hsid⟩
    · exact hl
    · exact hl
  · exact fun h => hread.invariant (I := fun v => v.Holds k sid) (fun _ _ _ hl ha hv => ha.spares (hl.spares k) hv) h

/-- Noting that a frame arrived does not change which slot a session id finds. -/
theorem findSlotBySession_noteRx (i : SlotIdx) (nowMs : UInt32) (s : Sys ε) (sid : UInt32) :
    findSlotBySession (noteRx w i nowMs s).hub sid = findSlotBySession s.hub sid := by
  refine findSlotBySession_congr fun k => ?_
  have hk := holds_noteRx (w := w) ⟨[], ByteArr.zero 8, []⟩ i nowMs s k sid
  simp only [View.Holds, occupied_view] at hk
  exact hk

/-- The slot record outside the session is not touched by reading a frame. -/
theorem slot_noteRx (i : SlotIdx) (nowMs : UInt32) (s : Sys ε) :
    ∃ se, (noteRx w i nowMs s).hub.slots i = { s.hub.slots i with session := se } := by
  have hrev : ∀ t : Sys ε, ∃ se, (reviveIfStale w i nowMs t).hub.slots i = { t.hub.slots i with session := se } := by
    intro t
    unfold reviveIfStale
    dsimp only
    split
    · rw [(emits_emitSessionEvent _ _ nowMs _).slot i, Sys.modSession, Sys.slot_modSlot_self]
      exact ⟨_, rfl⟩
    · exact ⟨_, rfl⟩
  unfold noteRx
  dsimp only
  split
  · obtain ⟨se, hse⟩ := hrev ((s.log (.read i)).modSession i fun se => { se with lastRxMs := nowMs })
    rw [hse, Sys.modSession, Sys.slot_modSlot_self]
    exact ⟨_, rfl⟩
  · exact hrev _

/-! ## READY timeout -/

/-- The READY window of the slot's session has run out. -/
def ReadyExpired (s : Sys ε) (k : SlotIdx) : Prop :=
  (s.session k).ready = false ∧
    timeReached s.hub.monoMs.ms ((s.session k).grantedAtMs + Limits.catalogReadyTimeoutMs) = true

/-! ## What may end a live session -/

/-- The steps that may end the live session of slot `k`: a HELLO in its slot or of its instance, its own GOODBYE, the
last strike of an AUTH, an eviction by an administrator, and the READY timeout. -/
def MayEnd (s : Sys ε) (k : SlotIdx) : Move ε → Prop
  | .frame i (.frame _ (.hello (some h))) => i = k ∨ h.instanceId = (s.session k).instanceId
  | .frame i (.frame _ .goodbye) => i = k
  | .frame i (.frame _ (.auth _)) => i = k ∧ Limits.authAttemptsMax ≤ (s.slot k).authFailures + 1
  | .frame _ (.frame _ (.intent (some m))) => Evicts s m k
  | .liveness i => i = k ∧ ReadyExpired s k
  | _ => False

theorem Label.Parks.spares {l : Label} {i : SlotIdx} (h : l.Parks i) (k : SlotIdx) : l.Spares k := by
  cases l <;> first | exact trivial | exact h.elim

theorem Label.Suspends.spares {l : Label} {i : SlotIdx} {reason : UInt8} (h : l.Suspends i reason) (k : SlotIdx) :
    l.Spares k := by
  cases l <;> first | exact trivial | exact h.elim

/-- Ending one session spares the others. -/
theorem Label.Ends.spares {l : Label} {i k : SlotIdx} (h : l.Ends i) (hk : i ≠ k) : l.Spares k := by
  cases l <;> first | exact trivial | exact h.elim | exact (show _ = i from h) ▸ hk

theorem Label.Tells.spares {l : Label} (h : l.Tells) (k : SlotIdx) : l.Spares k := by
  cases l <;> first | exact trivial | exact h.elim

theorem Label.Latches.spares {l : Label} (h : l.Latches) (k : SlotIdx) : l.Spares k := by
  cases l <;> first | exact trivial | exact h.elim fun _ h => h.elim

theorem Label.Clears.spares {l : Label} {C : Prop} (h : l.Clears C) (k : SlotIdx) : l.Spares k := by
  cases l <;> first | exact trivial | exact h.elim fun _ h => h.elim

theorem Label.Shuts.spares {l : Label} (h : l.Shuts) (k : SlotIdx) : l.Spares k := by
  cases l <;> first | exact trivial | exact h.elim

theorem Label.Invites.spares {l : Label} (h : l.Invites) (k : SlotIdx) : l.Spares k := by
  cases l <;> first | exact trivial | exact h.elim

theorem Label.Grants.spares {l : Label} {i : SlotIdx} (h : l.Grants i) (k : SlotIdx) : l.Spares k := by
  cases l <;> first | exact trivial | exact h.elim

/-- No call of the host ends a live session. -/
theorem hostLabel_spares {k : SlotIdx} {call : Call ε} {l : Label} (hlive : (s.session k).state = .live)
    (hl : HostLabel w s call l) : l.Spares k := by
  cases call with
  | attachTransport t =>
    obtain ⟨i, htarget, hl⟩ := hl
    have hik : i ≠ k := by
      rintro rfl
      have hst : (s.session i).state = .stale :=
        attachTarget_stale htarget ((occupied_view s i).mpr (occupied_of_live hlive))
      rw [hlive] at hst
      cases hst
    cases l <;> first | exact trivial | exact hl.elim | exact (show _ = i from hl) ▸ hik
  | detachTransport t =>
    obtain ⟨i, _, hl⟩ := hl
    exact hl.spares k
  | latchEstop | setSafetyModes => exact Label.Latches.spares hl k
  | clearEstop => exact Label.Clears.spares hl k
  | openPresenceWindow => exact Label.Invites.spares hl k
  | closePresenceWindow => exact Label.Shuts.spares hl k
  | regrantForTest => exact hl.elim (fun h => h.spares k) fun h => h ▸ trivial
  | publishState | bumpConfigGeneration | pairing =>
    cases hl
    trivial
  | _ => exact Label.Tells.spares hl k

/-- The sessions a HELLO may end are its own slot's, its instance's and stale ones. -/
theorem hello_spares {i k : SlotIdx} {h : HelloMsg} {l : Label} {t : Sys ε} (hik : i ≠ k)
    (hst : (t.session k).state ≠ .stale) (hinst : h.instanceId ≠ (t.session k).instanceId)
    {E : Prop} (hl : l.Admits i E (Yields t i h.instanceId)) : l.Spares k := by
  cases l with
  | free j =>
    rintro rfl
    rcases hl with h' | h' | ⟨_, h'⟩
    · exact hik h'.symm
    · exact hst h'
    · exact hinst h'.symm
  | enrol j => exact (show j = i from hl.1) ▸ hik
  | migrate => exact hl.elim False.elim False.elim
  | _ => trivial

/-- A session that comes back replaces that of its new slot; nobody else notices. -/
theorem reattach_spares {i j k : SlotIdx} {h : HelloMsg} {R : AccessLevel → Prop} {l : Label} {t : Sys ε} (hik : i ≠ k)
    (hst : (t.session k).state ≠ .stale) (hj : Rejoins t i h j) (hl : l.Reattaches i j R) : l.Spares k := by
  cases l with
  | free a => exact (show a = i from hl) ▸ hik
  | migrate a b => exact ⟨(show a = i from hl.1) ▸ hik, fun e => hst (e ▸ (show b = j from hl.2) ▸ hj.2)⟩
  | enrol => exact hl.elim
  | _ => trivial

/-- A session that is live stays so while another slot's frame is read. -/
theorem live_noteRx {i k : SlotIdx} (hik : i ≠ k) (hlive : (s.session k).state = .live) :
    ((noteRx w i s.hub.monoMs.ms s).session k).state ≠ .stale ∧
      ((noteRx w i s.hub.monoMs.ms s).session k).instanceId = (s.session k).instanceId := by
  have hread : Does ⟨[], ByteArr.zero 8, []⟩ s.hub.monoMs.ms (some i) (Label.Reads i) s
      (noteRx w i s.hub.monoMs.ms s) := noteRx_does i _ s
  have hlink := SlotView.link_inj (hread.link_eq fun _ hl => hl.keeps hik.symm)
  have hst : ((noteRx w i s.hub.monoMs.ms s).session k).state = .live := hlink.2.1.trans hlive
  refine ⟨?_, hlink.2.2.2.1⟩
  rw [hst]
  decide

/-- A frame ends a live session only where `MayEnd` says so. -/
theorem frameLabel_spares {i k : SlotIdx} {seq : UInt16} {m : Inbound} {l : Label} (hlive : (s.session k).state = .live)
    (hm : ¬MayEnd s k (.frame i (.frame seq m)))
    (hl : FrameLabel w c i s.hub.monoMs.ms (setDispatchSeq (some seq) (noteRx w i s.hub.monoMs.ms s)) m l) :
    l.Spares k := by
  cases hl with
  | sends hl => exact hl ▸ trivial
  | @hello h _ _ hl =>
    have hik : i ≠ k := fun e => hm (.inl e)
    obtain ⟨hst, hinst⟩ := live_noteRx (w := w) hik hlive
    refine hello_spares hik hst ?_ hl
    show h.instanceId ≠ ((noteRx w i s.hub.monoMs.ms s).session k).instanceId
    rw [hinst]
    exact fun e => hm (.inr e)
  | reattach hj hl =>
    have hik : i ≠ k := fun e => hm (.inl e)
    exact reattach_spares hik (live_noteRx (w := w) hik hlive).1 hj hl
  | subscribe _ hl => exact hl.elim (fun h => h.spares k) fun h => h.spares k
  | catalogReady => trivial
  | intent hl =>
    rename_i m
    cases l with
    | free j =>
      rintro rfl
      obtain ⟨-, hch, hop, hf⟩ := hl
      refine hm ⟨hch, hop, ?_⟩
      rw [← findSlotBySession_noteRx (w := w) i s.hub.monoMs.ms s]
      exact hf
    | enrol j | migrate j => exact hl.elim fun _ h => h.elim
    | _ => trivial
  | stream hl => cases l <;> first | exact trivial | exact hl.elim
  | goodbye hl => exact hl.spares fun e => hm e
  | pairReq hl => cases l <;> first | exact trivial | exact hl.elim
  | auth hl =>
    cases l with
    | free j =>
      rintro rfl
      obtain ⟨rfl, hmax⟩ := hl
      obtain ⟨se, hse⟩ := slot_noteRx (w := w) j s.hub.monoMs.ms s
      refine hm ⟨rfl, ?_⟩
      have hfail : ((setDispatchSeq (some seq) (noteRx w j s.hub.monoMs.ms s)).slot j).authFailures =
          (s.slot j).authFailures := by
        show ((noteRx w j s.hub.monoMs.ms s).hub.slots j).authFailures = _
        rw [hse]
      rw [hfail] at hmax
      exact hmax
    | enrol j | migrate j => exact hl.elim
    | _ => trivial

/-- No move but those that may end the session of slot `k` takes it out of the slot. -/
theorem move_spares {k : SlotIdx} {sid : UInt32} {m : Move ε} (hd : s.view.Distinct) (hok : m.Enabled s)
    (hlive : (s.session k).state = .live) (hm : ¬MayEnd s k m) (hold : s.view.Holds k sid) :
    (move w c s m).view.Holds k sid := by
  have hkeep : ∀ {P : Label → Prop} {t : Sys ε}, Does c s.hub.monoMs.ms m.reading P s t →
      (∀ l, P l → l.Spares k) → t.view.Holds k sid := fun h hP =>
    Path.invariant h (I := fun v => v.Holds k sid) (fun l _ _ hl ha hv => ha.spares (hP l hl) hv) hold
  have hdo : Does c s.hub.monoMs.ms m.reading (MoveLabel w c s m) s (move w c s m) := move_does hd hok
  cases m with
  | host call => exact hkeep hdo fun l hl => hostLabel_spares hlive hl
  | tick nowUs => exact hkeep hdo fun l hl => hl.elim (fun e => e ▸ trivial) fun h => h.spares k
  | out i => exact hkeep hdo fun l hl => (show l = _ from hl) ▸ trivial
  | liveness i =>
    refine hkeep hdo fun l hl => ?_
    rcases hl with ⟨-, h⟩ | ⟨-, h⟩ | ⟨hdue, h⟩
    · exact h.spares k
    · exact h.spares k
    · -- the READY timeout is the only pump that ends a session, and it is not that of slot `k`
      exact h.spares fun hik => hm ⟨hik, hik ▸ hdue.unready, hik ▸ hdue.late⟩
  | frame i f =>
    cases f with
    | estop f => exact hkeep hdo fun l hl => hl.elim (fun h => h.spares k) fun h => h.spares k
    | badEstop | short => exact hold
    | frame seq m =>
      exact hkeep hdo fun l hl => hl.elim (fun h => h.spares k) fun h => frameLabel_spares hlive hm h

/-! ## Transports -/

/-- The host attaches a transport only while no slot has it. -/
def AttachesOnce (s : Sys ε) : Call ε → Prop
  | .attachTransport t => ∀ k, (s.slot k).transport ≠ some t
  | _ => True

/-- A transport is attached only by the host's call, into the slot `attachTarget` picks. -/
theorem attach_of_moveLabel {m : Move ε} {i : SlotIdx} {t : TransportId} (hl : MoveLabel w c s m (.attach i t)) :
    m = .host (.attachTransport t) ∧ attachTarget s.hub = some i := by
  cases m with
  | host call =>
    cases call with
    | attachTransport t' =>
      obtain ⟨j, htarget, hji, htt⟩ := hl
      subst hji htt
      exact ⟨rfl, htarget⟩
    | detachTransport => exact hl.elim fun _ h => h.2.elim
    | latchEstop | setSafetyModes | clearEstop => exact hl.elim fun _ h => h.elim
    | publishState | bumpConfigGeneration | pairing => cases hl
    | regrantForTest => exact (hl.elim id fun h => nomatch h).elim
    | _ => exact hl.elim
  | tick => exact hl.elim (fun h => nomatch h) fun h => h.elim
  | frame i f => exact (moveLabel_inner (m := .frame i f) trivial hl trivial).elim
  | liveness i => exact (moveLabel_inner (m := .liveness i) trivial hl trivial).elim
  | out i => exact (moveLabel_inner (m := .out i) trivial hl trivial).elim

/-- No move lets two slots have one transport. -/
theorem wired_move {m : Move ε} (hd : s.view.Distinct) (hok : m.Enabled s) (hG : m.Hosted AttachesOnce s)
    (hw : s.view.Wired) : (move w c s m).view.Wired := by
  -- along the move, a transport being attached is in no slot but the one it goes to
  refine (Path.invariant (move_does (c := c) hd hok) (I := fun v => v.Wired ∧ ∀ i t,
    MoveLabel w c s m (.attach i t) → ∀ j, (v.slots j).transport = some t → j = i) ?_ ⟨hw, ?_⟩).1
  · rintro l v v' hl ha ⟨hv, hat⟩
    refine ⟨ha.wired hv ?_, fun i t hit j hj => ?_⟩
    · rintro i t rfl j hj
      exact hat i t hl j hj
    · rcases ha.transport hj with hj | rfl
      · exact hat i t hit j hj
      · have hi := (attach_of_moveLabel hit).2
        rw [(attach_of_moveLabel hl).2] at hi
        exact Option.some.inj hi
  · intro i t hit j hj
    obtain ⟨rfl, _⟩ := attach_of_moveLabel hit
    exact absurd hj (hG j)

/-! ## The invariant -/

/-- **Admission.** -/
theorem admission (h : ReachBy w c (fun _ _ => True) s) :
    s.view.sessions.card ≤ kHubMaxSessions ∧
    (∀ i j, i ≠ j → (s.session i).occupied = true → (s.session j).occupied = true →
      (s.session i).instanceId ≠ (s.session j).instanceId) ∧
    (ReachBy w c (Move.Hosted AttachesOnce) s →
      ∀ i j t, (s.slot i).transport = some t → (s.slot j).transport = some t → i = j) ∧
    ∀ m k, m.Enabled s → (s.session k).state = .live → (s.slot k).transport.isSome → ¬MayEnd s k m →
      ((move w c s m).session k).occupied = true ∧
        ((move w c s m).session k).sessionId = (s.session k).sessionId := by
  refine ⟨?_, fun i j hij hi hj => ?_, fun hG => ?_, fun m k hok hlive _ hm => ?_⟩
  · refine h.invariant (I := fun v => v.sessions.card ≤ kHubMaxSessions) (fun r => ?_) fun _ _ _ _ _ _ _ ha => ha.card_sessions
    show (View.sessions _).card ≤ _
    simp [View.sessions, View.fresh, SlotView.occupied]
  · exact h.distinct i j hij ((occupied_view s i).mpr hi) ((occupied_view s j).mpr hj)
  · refine hG.preserves (I := fun t => t.view.Wired) (fun e => ?_) fun _ _ hok hGm hd => wired_move hd hok hGm
    obtain ⟨r, hr⟩ := view_boot (w := w) (c := c) e
    rw [hr]
    intro i j t ht
    cases ht
  · obtain ⟨hocc, hsid⟩ := move_spares (w := w) (c := c) h.distinct hok hlive hm
      ⟨(occupied_view s k).mpr (occupied_of_live hlive), rfl⟩
    exact ⟨(occupied_view _ k).mp hocc, hsid⟩

end

/-- Two links; a client is live on the first. -/
def Bench.joined : List (Call Bench) :=
  [.attachTransport 0, .attachTransport 1, Bench.reads 1000 0 [.hello (some (Bench.hello 1))]]

/-- A stranger's HELLO on the other link leaves the client where it is. -/
theorem admission_joined :
    ((run Bench.world Bench.config {} Bench.joined).session 0).state = .live ∧
      ((move Bench.world Bench.config (run Bench.world Bench.config {} Bench.joined)
        (.frame 1 (.frame 0 (.hello (some (Bench.hello 2)))))).session 0).occupied = true := by
  have hlive : ((run Bench.world Bench.config {} Bench.joined).session 0).state = .live := by decide +kernel
  have hreach : Reachable Bench.world Bench.config (run Bench.world Bench.config {} Bench.joined) :=
    ⟨{}, Bench.joined, rfl⟩
  have hadm := (admission (reachBy_of_reachable hreach)).2.2.2 (.frame 1 (.frame 0 (.hello (some (Bench.hello 2))))) 0
  refine ⟨hlive, (hadm ?_ hlive ?_ ?_).1⟩
  · show ((run Bench.world Bench.config {} Bench.joined).slot 1).transport.isSome
    decide +kernel
  · decide +kernel
  · show ¬((1 : SlotIdx) = 0 ∨ Bench.client 2 = ((run Bench.world Bench.config {} Bench.joined).session 0).instanceId)
    decide +kernel

/-- The host attaches one transport twice. -/
def Bench.doubled : List (Call Bench) := [.attachTransport 7, .attachTransport 7]

/-- Nothing stops it, and the transport then serves two slots. -/
theorem attached_twice : ¬∀ s, Reachable Bench.world Bench.config s → ∀ i j t,
    (s.slot i).transport = some t → (s.slot j).transport = some t → i = j := by
  intro h
  have h0 : ((run Bench.world Bench.config {} Bench.doubled).slot 0).transport = some 7 := by decide +kernel
  have h1 : ((run Bench.world Bench.config {} Bench.doubled).slot 1).transport = some 7 := by decide +kernel
  exact absurd (h _ ⟨{}, Bench.doubled, rfl⟩ 0 1 7 h0 h1) (by decide)

end SlopSync
