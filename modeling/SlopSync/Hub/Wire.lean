import SlopSync.Codec.Nack
import SlopSync.Hub.Acts
import SlopSync.Hub.Traffic
import SlopSync.Refine.Push

/-! # What goes out on the wire

Every function of the hub has its line here: only a WELCOME draws a nonce, and only the pairing ceremonies write a
PAIR_GRANT. -/

namespace SlopSync

open Keyed Labelled

section

variable {ε : Type} {w : World ε} {c : Config} {T : FrameType → Prop} {N : SlotIdx → Prop} {s t u : Sys ε}

/-! ## Sending -/

/-- A delegate that is told something writes nothing. -/
theorem writes_notify (n : Note) (s : Sys ε) : Writes T N s (notify w n s) :=
  (Writes.log (.note n) trivial s).trans (.same rfl)

/-- An EVENT comes from a queue, a STATE goes into a record, a BLOB_CHUNK moves a cursor. -/
def FrameType.Bare : FrameType → Prop
  | .event | .state | .blobChunk => False
  | _ => True

/-- One frame of its type goes out, or none where the slot has no transport. -/
theorem writes_sendFrameTo (i : SlotIdx) {type : FrameType} (h : T type) (hty : type.Bare) (ch : UInt16)
    (payload : Bytes) (seq : UInt16) (s : Sys ε) : Writes T N s (sendFrameTo w i type ch payload seq s).2 := by
  unfold sendFrameTo
  split
  · exact .log (.nullWrite i) trivial s
  · split
    · exact .refl s
    · refine Labelled.Path.single (l := .frame type) h (.frame s.hub i _ ch seq payload ?_ ?_ ?_)
      · rintro rfl
        exact hty
      · rintro rfl
        exact hty.elim
      · rintro rfl
        exact hty

/-- A payload that did not encode is not sent. -/
theorem writes_sendEncoded (i : SlotIdx) {type : FrameType} (h : T type) (hty : type.Bare) (payload : Option Bytes) (s : Sys ε) :
    Writes T N s (sendEncoded w i type payload s) := by
  unfold sendEncoded
  split
  · exact .refl s
  · exact writes_sendFrameTo i h hty _ _ _ s

theorem writes_sendNack (i : SlotIdx) (h : T .nack) (n : NackMsg) (s : Sys ε) : Writes T N s (sendNack w i n s) :=
  writes_sendEncoded i h trivial _ s

variable (hT : ∀ ty, FrameType.Plain ty → T ty)

include hT

theorem writes_sendGoodbye (i : SlotIdx) (code : NackCode) (s : Sys ε) : Writes T N s (sendGoodbye w i code s) := by
  unfold sendGoodbye
  split
  · exact writes_sendFrameTo i (hT .goodbye trivial) trivial _ _ _ s
  · exact .refl s

omit hT in
/-- A frame that is encoded is in the history, with the answer of the transport. -/
theorem sendFrameTo_linked {i : SlotIdx} {t : TransportId} (ht : (s.slot i).transport = some t) (type : FrameType)
    (ch : UInt16) (payload : Bytes) (seq : UInt16) :
    (encodeFrame type ch seq payload = none ∧ sendFrameTo w i type ch payload seq s = (false, s)) ∨
      ((sendFrameTo w i type ch payload seq s).2.traffic = s.traffic.log s.hub
          (.write i t type ch seq payload (sendFrameTo w i type ch payload seq s).1) ∧
        (sendFrameTo w i type ch payload seq s).2.hub = s.hub) := by
  cases hno : encodeFrame type ch seq payload with
  | none =>
    refine .inl ⟨rfl, ?_⟩
    unfold sendFrameTo
    rw [ht, hno]
  | some bytes =>
    refine .inr ?_
    unfold sendFrameTo
    rw [ht, hno]
    exact ⟨rfl, rfl⟩

omit hT in
/-- A refusal leaves the blob of the slot alone, whatever it is. -/
theorem path_sendNack_load (i : SlotIdx) (h : T .nack) (n : NackMsg) (blob : Option PendingBlob) (s : Sys ε) :
    Labelled.Path TrafficAct (Deed.Within T N) (s.traffic.load i blob) ((sendNack w i n s).traffic.load i blob) := by
  unfold sendNack sendEncoded
  split
  · exact .refl _
  · rename_i payload _
    cases ht : (s.slot i).transport with
    | none =>
      have hsend : sendFrameTo w i .nack 0 payload 0 s = (false, s.log (.nullWrite i)) := by
        unfold sendFrameTo
        rw [ht]
      rw [hsend]
      exact Labelled.Path.single (l := .note) trivial (.note s.hub trivial)
    | some t =>
      rcases sendFrameTo_linked (w := w) ht .nack 0 payload 0 with ⟨-, hsend⟩ | ⟨htraffic, -⟩
      · rw [hsend]
        exact .refl _
      · rw [htraffic]
        exact Labelled.Path.single (l := .frame .nack) h
          (.frame s.hub i t 0 0 payload (by decide) (fun h => nomatch h) (by decide))

omit hT in
/-- The oldest event leaves the queue and goes out. -/
theorem writes_drainOne {i : SlotIdx} {t : TransportId} {ev : QueuedEvent} {l : List QueuedEvent} (h : T .event)
    (ht : (s.slot i).transport = some t) (hq : (s.session i).events.queued = ev :: l) :
    Writes T N s (drainOne w i s ev) ∧ ((drainOne w i s ev).slot i).transport = some t ∧
      ((drainOne w i s ev).session i).events.queued = l := by
  obtain ⟨rest, hpop, hrest, -⟩ := EventQueue.pop_cons hq
  have hpop' : (s.hub.slots i).session.events.pop = some (ev, rest) := hpop
  obtain ⟨u, hu, hlane, ht', hq'⟩ : ∃ u : Sys ε,
      drainOne w i s ev = (sendFrameTo w i .event ev.channelId ev.bytes 0 u).2 ∧
      u.traffic = s.traffic.setLane i { s.traffic.lanes i with events := rest } ∧
      (u.slot i).transport = some t ∧ (u.session i).events.queued = l := by
    refine ⟨s.modSlot i fun _ => { s.slot i with session := { s.session i with events := rest } }, ?_,
      traffic_modSlot i _ s, ?_, ?_⟩
    · simp only [drainOne, Sys.modSession, Sys.modSlot, hpop']
    · rw [Sys.slot, Sys.slot_modSlot_self]
      exact ht
    · rw [Sys.session, Sys.slot_modSlot_self]
      exact hrest
  rw [hu]
  rcases sendFrameTo_linked (w := w) ht' .event ev.channelId ev.bytes 0 with ⟨hno, hsend⟩ | ⟨htraffic, hhub⟩
  · rw [hsend]
    refine ⟨Labelled.Path.single (l := .drain) h ?_, ht', hq'⟩
    rw [hlane]
    exact .discard i hpop hno
  · refine ⟨Labelled.Path.single (l := .drain) h ?_, by rw [Sys.slot, hhub]; exact ht', by rw [Sys.session, hhub]; exact hq'⟩
    rw [htraffic, hlane]
    exact .drain u.hub i t _ hpop

omit hT in
/-- The drain hands over the queued events one by one, each as an EVENT. -/
theorem writes_drain {i : SlotIdx} {t : TransportId} (h : T .event) : ∀ (l : List QueuedEvent) (s : Sys ε),
    (s.slot i).transport = some t → (s.session i).events.queued = l → Writes T N s (l.foldl (drainOne w i) s)
  | [], s, _, _ => .refl s
  | ev :: l, s, ht, hq => by
    obtain ⟨hone, ht', hq'⟩ := writes_drainOne (w := w) (N := N) h ht hq
    exact hone.trans (writes_drain h l _ ht' hq')

/-- Events leave only while the session is ready. -/
theorem writes_pumpEventDrain (i : SlotIdx) (s : Sys ε) : Writes T N s (pumpEventDrain w i s) := by
  unfold pumpEventDrain
  split
  · exact .refl s
  · rename_i hgate
    simp only [Bool.or_eq_true, not_or, Option.isNone_iff_eq_none] at hgate
    obtain ⟨t, ht⟩ := Option.ne_none_iff_exists'.mp hgate.2
    exact writes_drain (hT .event trivial) _ s ht rfl

omit hT in
/-- An offer only fills a queue. -/
theorem writes_offerEvent (i : SlotIdx) (ch : UInt16) (s : Sys ε) (bytes : Bytes) :
    Writes T N s (offerEvent i ch s bytes) := by
  have hact := TrafficAct.offer (x := s.traffic) s.hub i ch bytes
  have hlane : (offerEvent i ch s bytes).traffic = (s.traffic.setLane i { s.traffic.lanes i with
      events := (s.traffic.lanes i).events.push ch bytes }).log s.hub (.offered i ch bytes) :=
    traffic_modSlot i _ (s.log (.offered i ch bytes))
  exact Labelled.Path.single (l := .offer) trivial (hlane ▸ hact)

/-- An event is offered to every session that may see it, and each of these is drained. -/
theorem writes_publishEvent (ch : UInt16) (bytes : Bytes) (s : Sys ε) : Writes T N s (publishEvent w ch bytes s) := by
  unfold publishEvent
  split
  · refine Writes.trans (.foldl (fun s i => ?_) _ s) (.foldl (fun s i => ?_) _ _)
    · unfold pushEvent
      split
      · exact writes_offerEvent i ch s bytes
      · exact .refl s
    · unfold drainOccupied
      split
      · exact writes_pumpEventDrain hT i s
      · exact .refl s
  · exact .refl s

/-- Events of the hub itself go the way of the host's. -/
theorem writes_publishEncoded (ev : EventMsg) (cap : Nat) (s : Sys ε) : Writes T N s (publishEncoded w ev cap s) := by
  unfold publishEncoded
  split
  · exact .refl s
  · exact writes_publishEvent hT _ _ s

theorem writes_emitTakeoverEvent (src : UInt8) (sid nowMs : UInt32) (s : Sys ε) :
    Writes T N s (emitTakeoverEvent w src sid nowMs s) := by
  unfold emitTakeoverEvent
  split
  · exact writes_publishEncoded hT _ _ s
  · exact .refl s

theorem writes_emitSessionEvent (kind : UInt8) (sid nowMs : UInt32) (s : Sys ε) :
    Writes T N s (emitSessionEvent w kind sid nowMs s) := by
  unfold emitSessionEvent
  split
  · exact writes_publishEncoded hT _ _ s
  · exact .refl s

theorem writes_emitPairingEvent (kind : UInt8) (inst name : Bytes) (mode : UInt8) (role : AccessLevel)
    (version : Bytes) (nowMs : UInt32) (s : Sys ε) :
    Writes T N s (emitPairingEvent w c kind inst name mode role version nowMs s) := by
  unfold emitPairingEvent
  split
  · exact .refl s
  · exact writes_publishEncoded hT _ _ s

/-- One event for each latch that changed. -/
theorem writes_emitSafetyEdgeEvents (before : UInt8) (nowMs : UInt32) (s : Sys ε) :
    Writes T N s (emitSafetyEdgeEvents w c before nowMs s) := by
  have hwhen : ∀ (p : Bool) (kind level : UInt8) (t : Sys ε), Writes T N t (emitWhen w p kind level nowMs t) := by
    intro p kind level t
    unfold emitWhen
    split
    · exact writes_publishEncoded hT _ _ t
    · exact .refl t
  unfold emitSafetyEdgeEvents
  split
  · exact .refl s
  · dsimp only
    split
    · exact .refl s
    · exact (((hwhen _ _ _ s).trans (hwhen _ _ _ _)).trans (hwhen _ _ _ _)).trans (hwhen _ _ _ _)

/-! ## Lifecycle -/

omit hT in
/-- A state that is retained waits for the pacing pump; nothing goes out at once. -/
theorem writes_retain (ch : UInt16) (payload : Bytes) (s : Sys ε) : Writes T N s (retain ch payload s) := by
  unfold retain
  split
  · exact .refl s
  · rename_i hpub
    exact Labelled.Path.single (l := .publish) trivial (.publish s.hub hpub)

omit hT in
theorem writes_publishControlOwner (s : Sys ε) : Writes T N s (publishControlOwnerStateIfPresent c s) := by
  unfold publishControlOwnerStateIfPresent
  split
  · exact .refl s
  · exact writes_retain _ _ s

omit hT in
theorem writes_publishPending (nowMs : UInt32) (s : Sys ε) : Writes T N s (publishPendingPairingState c nowMs s) := by
  unfold publishPendingPairingState
  split
  · exact .refl s
  · exact writes_retain _ _ s

omit hT in
theorem writes_publishRoster (s : Sys ε) : Writes T N s (publishPairedRosterState c s) := by
  unfold publishPairedRosterState
  split
  · exact .refl s
  · exact writes_retain _ _ s

omit hT in
/-- A release tells the delegate and publishes the owners. -/
theorem writes_releaseSessionSources (sid : UInt32) (reason : UInt8) (s : Sys ε) :
    Writes T N s (releaseSessionSources w c sid reason s) := by
  unfold releaseSessionSources
  dsimp only
  split
  · exact .refl s
  · refine Writes.trans (.foldl (fun s src => ?_) _ s) (writes_publishControlOwner _)
    unfold releaseOne
    exact (writes_notify _ _).after rfl

/-- A knock that is dropped is announced as denied or expired. -/
theorem writes_dropKnock (nowMs : UInt32) (s : Sys ε) (k : PendingKnock) : Writes T N s (dropKnock w c nowMs s k) :=
  (writes_emitPairingEvent hT _ _ _ _ _ _ _ s).trans (.same rfl)

theorem writes_dropKnocksOf (sid nowMs : UInt32) (s : Sys ε) : Writes T N s (dropKnocksOf w c sid nowMs s) := by
  unfold dropKnocksOf
  dsimp only
  split
  · exact .refl s
  · exact (Writes.foldl (writes_dropKnock hT nowMs) _ s).trans (writes_publishPending _ _)

/-- The end of a session: its sources, its knocks and an event for the others. -/
theorem writes_teardownSession (i : SlotIdx) (nowMs : UInt32) (s : Sys ε) :
    Writes T N s (teardownSession w c i nowMs s) := by
  unfold teardownSession
  dsimp only
  have hseat : ∀ t : Sys ε, Writes T N t ((t.log (.seated i none)).modSlot i resetSlot) := fun t => by
    refine Labelled.Path.single (l := .seat) trivial ?_
    rw [traffic_modSlot]
    exact .seat t.hub i
  refine Writes.trans ?_ (hseat _)
  split
  · exact ((writes_releaseSessionSources _ _ s).trans (writes_dropKnocksOf hT _ _ _)).trans (writes_notify _ _)
  · exact .refl s

/-- A session that goes STALE is not told; the others are. -/
theorem writes_markStale (i : SlotIdx) (nowMs : UInt32) (reason : UInt8) (s : Sys ε) :
    Writes T N s (markStale w c i nowMs reason s) :=
  ((writes_releaseSessionSources _ _ s).trans (.modSession i (fun _ => by rfl) _)).trans (writes_emitSessionEvent hT _ _ _ _)

/-- A session that is heard again is announced once. -/
theorem writes_reviveIfStale (i : SlotIdx) (nowMs : UInt32) (s : Sys ε) :
    Writes T N s (reviveIfStale w i nowMs s) := by
  unfold reviveIfStale
  split
  · exact (Writes.modSession i (fun _ => by rfl) s).trans (writes_emitSessionEvent hT _ _ _ _)
  · exact .refl s

omit hT in
/-- Closing forgets the blob of the slot with the rest. -/
theorem writes_closeSlot (i : SlotIdx) (s : Sys ε) : Writes T N s (closeSlot w i s) := by
  unfold closeSlot
  split
  · exact .refl s
  · rename_i t _
    have hclose : Writes T N s { s.log (.closed t) with env := w.closeTransport t s.env } :=
      (Writes.log (.closed t) trivial s).trans (.same rfl)
    exact hclose.trans (.modSlot i _ fun _ => rfl)

omit hT in
/-- A blob that is forgotten is neither delivered nor refused. -/
theorem writes_dropBlob (i : SlotIdx) {f : Slot → Slot} (hf : ∀ sl, laneOf (f sl) = { laneOf sl with blob := none })
    (s : Sys ε) : Writes T N s ((dropBlob i s).modSlot i f) := by
  unfold dropBlob
  cases hb : (s.slot i).blob with
  | none =>
    rw [if_neg (by simp)]
    refine Writes.same (traffic_modSlot_eq i s ?_)
    rw [hf]
    exact congrArg (Lane.mk _ _ _) hb.symm
  | some pb =>
    rw [if_pos (by simp)]
    refine Labelled.Path.single (l := .blob) trivial ?_
    rw [traffic_modSlot, hf]
    exact .drop s.hub i hb

/-- A session whose link is gone is parked; its blob is not. -/
theorem writes_parkAndDetach (i : SlotIdx) (nowMs : UInt32) (s : Sys ε) :
    Writes T N s (parkAndDetach w c i nowMs s) := by
  unfold parkAndDetach
  dsimp only
  refine Writes.trans ?_ (.modSlot i _ fun _ => rfl)
  refine Writes.trans ?_ (writes_closeSlot i _)
  split
  · exact ((writes_markStale hT i _ _ s).trans (writes_dropKnocksOf hT _ _ _)).trans (writes_dropBlob i (fun _ => rfl) _)
  · exact .refl s

/-- A link that takes no critical frame for too long is let go. -/
theorem writes_trackCriticalSend (i : SlotIdx) (ok : Bool) (nowMs : UInt32) (s : Sys ε) :
    Writes T N s (trackCriticalSend w c i ok nowMs s) := by
  unfold trackCriticalSend
  dsimp only
  split
  · exact .modSlot i s fun _ => rfl
  · split
    · exact .modSlot i s fun _ => rfl
    · split
      · exact writes_parkAndDetach hT i nowMs s
      · exact .refl s

/-- A critical frame, and what its failure brings about. -/
theorem writes_sendFrameToTracked (i : SlotIdx) {type : FrameType} (h : T type) (hty : type.Bare) (ch : UInt16) (payload : Bytes)
    (nowMs : UInt32) (seq : UInt16) (s : Sys ε) :
    Writes T N s (sendFrameToTracked w c i type ch payload nowMs seq s).2 := by
  unfold sendFrameToTracked
  split
  · exact .refl s
  · exact (writes_sendFrameTo i h hty _ _ _ s).trans (writes_trackCriticalSend hT i _ _ _)

theorem writes_sendNackTracked (i : SlotIdx) (h : T .nack) (n : NackMsg) (nowMs : UInt32) (s : Sys ε) :
    Writes T N s (sendNackTracked w c i n nowMs s) := by
  unfold sendNackTracked
  split
  · exact .refl s
  · split
    · exact writes_trackCriticalSend hT i _ _ s
    · exact (writes_sendFrameTo i h trivial _ _ _ s).trans (writes_trackCriticalSend hT i _ _ _)

/-- The pumps of one slot send nothing but what the end of its session sends. -/
theorem writes_pumpLiveness (i : SlotIdx) (nowMs : UInt32) (s : Sys ε) : Writes T N s (pumpLiveness w c i nowMs s) := by
  have hdead : ∀ t : Sys ε, Writes T N t (if (t.session i).occupied then pumpDeadman w c i nowMs t else t) := by
    intro t
    split
    · unfold pumpDeadman
      dsimp only
      split
      · exact .refl t
      · split
        · exact .refl t
        · split
          · exact .refl t
          · exact writes_markStale hT i _ _ t
    · exact .refl t
  have hready : ∀ t : Sys ε, Writes T N t (if (t.session i).occupied then pumpReadyTimeout w c i nowMs t else t) := by
    intro t
    split
    · unfold pumpReadyTimeout
      dsimp only
      split
      · exact .refl t
      · split
        · exact .refl t
        · split
          · exact .refl t
          · exact (writes_sendGoodbye hT i _ t).trans (writes_teardownSession hT i _ _)
    · exact .refl t
  have hidle : ∀ t : Sys ε, Writes T N t (if (t.session i).occupied then pumpIdleReap w c i nowMs t else t) := by
    intro t
    split
    · unfold pumpIdleReap
      dsimp only
      split
      · exact .refl t
      · split
        · exact .refl t
        · split
          · exact .refl t
          · exact writes_markStale hT i _ _ t
    · exact .refl t
  exact ((hdead s).trans (hready _)).trans (hidle _)

omit hT in
theorem writes_openInto (i : SlotIdx) (t : TransportId) (s : Sys ε) : Writes T N s (openInto w i t s) := by
  unfold openInto
  dsimp only
  have hopen : ∀ (ok : Bool) (env : ε), Writes T N s { s.log (.opened t ok) with env } :=
    fun ok env => (Writes.log (.opened t ok) trivial s).trans (.same rfl)
  split
  · exact (hopen _ _).trans (.modSlot i _ fun _ => rfl)
  · exact hopen _ _

/-- A transport that comes sends nothing; one that found no slot neither. -/
theorem writes_attachTransport (t : TransportId) (s : Sys ε) : Writes T N s (attachTransport w c t s) := by
  unfold attachTransport
  split
  · exact writes_openInto _ t s
  · split
    · exact .refl s
    · exact ((writes_closeSlot _ s).trans (writes_teardownSession hT _ _ _)).trans (writes_openInto _ t _)

/-- Nobody is told by the transport that went, only through its session. -/
theorem writes_detachTransport (t : TransportId) (s : Sys ε) : Writes T N s (detachTransport w c t s) := by
  unfold detachTransport
  split
  · exact .refl s
  · exact writes_parkAndDetach hT _ _ s

/-! ## Pushes and the latch -/

omit hT in
/-- The record is there afterwards, and nothing was pushed. -/
theorem writes_claimRecord (i : SlotIdx) (ch : UInt16) (s : Sys ε) :
    Writes T N s (claimRecord i ch s).2 ∧ Held ((claimRecord i ch s).2.slot i).pushRecords ch (claimRecord i ch s).1 := by
  unfold claimRecord
  split
  · rename_i hnone
    refine ⟨.refl s, lastPushed_none ?_⟩
    unfold findOrCreatePushRecord at hnone
    split at hnone
    · cases hnone
    · assumption
  · rename_i k rs hsome
    obtain ⟨hclaim, hpushed⟩ := findOrCreate_claims hsome
    refine ⟨.same (traffic_modSlot_eq i s ?_), ?_⟩
    · exact congrArg (Lane.mk (s.slot i).nonce (s.session i).events · (s.slot i).blob) hpushed
    · show Claimed ((s.modSlot i _).hub.slots i).pushRecords ch k
      rw [Sys.slot_modSlot_self]
      exact hclaim

omit hT in
/-- A state that is shed is counted in the record it has, and not written. -/
theorem writes_countShed {i : SlotIdx} {ch : UInt16} {record : Option Nat} (d : ShedDecision)
    (h : Held (s.slot i).pushRecords ch record) :
    Writes T N s (countShed i d record s) ∧ Held ((countShed i d record s).slot i).pushRecords ch record := by
  cases record with
  | none =>
    have hsame : countShed i d none s = s := by
      unfold countShed
      cases d.decimation <;> rfl
    rw [hsame]
    exact ⟨.refl s, h⟩
  | some k =>
    unfold countShed
    cases d.decimation with
    | none => exact ⟨.refl s, h⟩
    | some n =>
      refine ⟨.same (traffic_modSlot_eq i s ?_), ?_⟩
      · exact congrArg (Lane.mk (s.slot i).nonce (s.session i).events · (s.slot i).blob) (lastPushed_shed _ k)
      · show Claimed ((s.modSlot i _).hub.slots i).pushRecords ch k
        rw [Sys.slot_modSlot_self]
        exact Claimed.shed h

omit hT in
/-- A push and the note of it. -/
theorem push_act {i : SlotIdx} {ch : UInt16} {record : Option Nat} {r : RetainedEntry} (t : TransportId) (h : Hub)
    (nowMs : UInt32) (hret : s.hub.retained.get ch = some r) (hheld : Held (u.slot i).pushRecords ch record)
    (hu : u.traffic = s.traffic.log h (.write i t .state ch r.seq r.payload true)) :
    TrafficAct .push s.traffic (notePushed i ch r.seq record nowMs u).traffic := by
  have hslot : (s.traffic.lanes i) = laneOf (u.slot i) := congrArg (fun y : Traffic => y.lanes i) hu.symm
  have hlane : ∃ pushed, (notePushed i ch r.seq record nowMs u).traffic =
      (s.traffic.setLane i { s.traffic.lanes i with pushed }).log h (.write i t .state ch r.seq r.payload true) ∧
      (pushed ch = some r.seq ∨ pushed ch = none) ∧ ∀ x, x ≠ ch → pushed x = (s.traffic.lanes i).pushed x := by
    unfold notePushed
    cases record with
    | none =>
      refine ⟨(s.traffic.lanes i).pushed, ?_, .inr ?_, fun _ _ => rfl⟩
      · rw [traffic_modSlot, hu, hslot]
        rfl
      · rw [hslot]
        exact hheld
    | some k =>
      refine ⟨fun x => if x = ch then some r.seq else lastPushed (u.slot i).pushRecords x, ?_, .inl (if_pos rfl), ?_⟩
      · rw [traffic_modSlot, hu, hslot, ← Claimed.note hheld r.seq]
        rfl
      · intro x hx
        rw [hslot]
        exact if_neg hx
  obtain ⟨pushed, hlane, hch, hother⟩ := hlane
  rw [hlane]
  exact .push h i t hret hch hother

omit hT in
/-- A STATE of a retained value that was not accepted leaves no record. -/
theorem writes_sendState (h : T .state) (i : SlotIdx) (ch : UInt16) (payload : Bytes) (seq : UInt16)
    (hok : (sendFrameTo w i .state ch payload seq s).1 = false) :
    Writes T N s (sendFrameTo w i .state ch payload seq s).2 := by
  unfold sendFrameTo at hok ⊢
  split
  · exact .log (.nullWrite i) trivial s
  · rename_i t ht
    rw [ht] at hok
    split
    · exact .refl s
    · rename_i bytes hb
      rw [hb] at hok
      exact Labelled.Path.single (l := .frame .state) h
        (.frame s.hub i t ch seq payload (by decide) (fun _ => hok) (by decide))

omit hT in
/-- An accepted frame is in the history, and nothing else happened. -/
theorem traffic_sendFrameTo {i : SlotIdx} {type : FrameType} {ch : UInt16} {payload : Bytes} {seq : UInt16}
    (hok : (sendFrameTo w i type ch payload seq s).1 = true) :
    ∃ t, (sendFrameTo w i type ch payload seq s).2.traffic = s.traffic.log s.hub (.write i t type ch seq payload true) ∧
      (sendFrameTo w i type ch payload seq s).2.hub = s.hub := by
  cases ht : (s.slot i).transport with
  | none =>
    unfold sendFrameTo at hok
    rw [ht] at hok
    cases hok
  | some t =>
    rcases sendFrameTo_linked (w := w) ht type ch payload seq with ⟨-, hsend⟩ | ⟨htraffic, hhub⟩
    · rw [hsend] at hok
      cases hok
    · rw [hok] at htraffic
      exact ⟨t, htraffic, hhub⟩

/-- One STATE at most for each retained channel that is due. -/
theorem writes_pumpStatePacing (i : SlotIdx) (nowMs : UInt32) (s : Sys ε) :
    Writes T N s (pumpStatePacing w c i nowMs s) := by
  have hdue : ∀ (sub : SubscriptionEntry) (r : RetainedEntry) (d : ShedDecision) (record : Option Nat) (t : Sys ε),
      t.hub.retained.get sub.channelId = some r → Held (t.slot i).pushRecords sub.channelId record →
      Writes T N t (pushDue w i sub r d record nowMs t) := by
    intro sub r d record t hret hheld
    obtain ⟨hcount, hheld'⟩ := writes_countShed (T := T) (N := N) d hheld
    have hret' : (countShed i d record t).hub.retained.get sub.channelId = some r := by
      rw [← hret]
      unfold countShed
      split <;> rfl
    unfold pushDue
    dsimp only
    split
    · cases hok : (sendFrameTo w i .state sub.channelId r.payload r.seq (countShed i d record t)).1 with
      | true =>
        obtain ⟨tr, htraffic, hhub⟩ := traffic_sendFrameTo hok
        rw [if_pos rfl]
        refine hcount.trans (Labelled.Path.single (l := .push) (hT .state trivial)
          (push_act tr _ nowMs hret' ?_ htraffic))
        rw [Sys.slot, hhub]
        exact hheld'
      | false =>
        rw [if_neg Bool.false_ne_true]
        exact hcount.trans (writes_sendState (hT .state trivial) i _ _ _ hok)
    · exact hcount.trans (.modSession i (fun _ => by rfl) _)
  unfold pumpStatePacing
  split
  · exact .refl s
  · refine .foldl (fun t sub => ?_) _ s
    unfold paceOne
    split
    · rename_i entry r _ hret
      split
      · exact .refl t
      · obtain ⟨hclaim, hheld⟩ := writes_claimRecord (T := T) (N := N) i sub.channelId t
        have hret' : (claimRecord i sub.channelId t).2.hub.retained.get sub.channelId = some r := by
          rw [← hret]
          unfold claimRecord
          split <;> rfl
        dsimp only
        split
        · exact hclaim
        · exact hclaim.trans (hdue _ _ _ _ _ hret' hheld)
    · exact .refl t

omit hT in
/-- The snapshot being broadcast does not change meanwhile. -/
theorem get_safety_broadcastOne (payload : Bytes) (seq : UInt16) (nowMs : UInt32) (s : Sys ε) (i : SlotIdx) :
    (broadcastOne w c payload seq nowMs s i).hub.retained.get Channels.safety =
      s.hub.retained.get Channels.safety := by
  have hdoes : Does c nowMs none (Label.Parks i) s (broadcastOne w c payload seq nowMs s i) :=
    broadcastOne_does payload seq nowMs s i
  refine Labelled.Path.frame (f := fun v : View => v.retained.get Channels.safety) hdoes fun l v v' hl ha => ?_
  have hsnap : ∀ owner, (snapshotOwners c v.retained owner).get Channels.safety = v.retained.get Channels.safety := by
    intro owner
    unfold snapshotOwners
    split
    · rfl
    · exact get_publishOr_other _ (by decide) _
  cases ha with
  | safety | clear => exact hl.elim
  | retain ch payload => exact get_publishOr_other _ (Ne.symm hl.1) payload
  | acquire => exact hl.elim
  | release i reason srcs r _ _ _ _ hr =>
    rcases hr with rfl | ⟨rfl, -⟩
    · exact hsnap _
    · rfl
  | _ => rfl

/-- The safety snapshot to one slot; its record is brought up to date whether or not the write went through. -/
theorem writes_broadcastOne {r : RetainedEntry} (nowMs : UInt32) (i : SlotIdx)
    (hret : s.hub.retained.get Channels.safety = some r) :
    Writes T N s (broadcastOne w c r.payload r.seq nowMs s i) := by
  unfold broadcastOne
  dsimp only
  split
  · exact .refl s
  · rename_i hgate
    have hlink : ¬(s.slot i).transport.isNone = true := by
      simp only [Bool.or_eq_true, not_or] at hgate
      exact hgate.1.1.2
    unfold sendFrameToTracked
    rw [if_neg hlink]
    dsimp only
    cases hok : (sendFrameTo w i .state Channels.safety r.payload r.seq s).1 with
    | false =>
      rw [if_neg Bool.false_ne_true]
      exact (writes_sendState (hT .state trivial) i _ _ _ hok).trans (writes_trackCriticalSend hT i _ _ _)
    | true =>
      rw [if_pos rfl]
      obtain ⟨tr, htraffic, -⟩ := traffic_sendFrameTo hok
      generalize (sendFrameTo w i .state Channels.safety r.payload r.seq s).2 = t at htraffic
      -- an accepted send only clears the stall clock
      have htrack : trackCriticalSend w c i true nowMs t = t.modSlot i fun sl => { sl with criticalStallSince := none } := by
        unfold trackCriticalSend
        simp
      rw [htrack]
      generalize ht' : (t.modSlot i fun sl => { sl with criticalStallSince := none }) = t'
      have htraffic' : t'.traffic = t.traffic := by
        rw [← ht']
        exact traffic_modSlot_eq i t rfl
      have hclaimed : (claimRecord i Channels.safety t').2.traffic = t'.traffic := by
        unfold claimRecord
        split
        · rfl
        · rename_i k rs hsome
          exact traffic_modSlot_eq i t' (congrArg (Lane.mk (t'.slot i).nonce (t'.session i).events · (t'.slot i).blob)
            (findOrCreate_claims hsome).2)
      exact Labelled.Path.single (l := .push) (hT .state trivial) (push_act tr s.hub nowMs hret
        (writes_claimRecord (T := T) (N := N) i Channels.safety t').2
        (hclaimed.trans (htraffic'.trans htraffic)))

/-- The safety snapshot goes to every session that may see it, ahead of the pacing. -/
theorem writes_broadcastSafetyNow (nowMs : UInt32) (s : Sys ε) : Writes T N s (broadcastSafetyNow w c nowMs s) := by
  unfold broadcastSafetyNow
  split
  · exact .refl s
  · rename_i r hret
    have hfold : ∀ (l : List SlotIdx) (t : Sys ε), t.hub.retained.get Channels.safety = some r →
        Writes T N t (l.foldl (broadcastOne w c r.payload r.seq nowMs) t) := by
      intro l
      induction l with
      | nil => exact fun t _ => .refl t
      | cons i l ih =>
        intro t ht
        exact (writes_broadcastOne hT nowMs i ht).trans
          (ih _ ((get_safety_broadcastOne _ _ _ t i).trans ht))
    exact hfold allSlots s hret

omit hT in
theorem writes_setSafety (st : SafetyState) (s : Sys ε) : Writes T N s (publishSafetySnapshot (setSafety st s)) :=
  (writes_retain _ _ _).after rfl

/-- An ESTOP writes the snapshot and its edge events, and no answer to its sender. -/
theorem writes_handleEstopFrame (f : EstopFrame) (nowMs : UInt32) (s : Sys ε) :
    Writes T N s (handleEstopFrame w c f nowMs s) := by
  unfold handleEstopFrame
  dsimp only
  refine Writes.trans ?_ (writes_emitSafetyEdgeEvents hT _ _ _)
  refine Writes.trans ?_ (writes_broadcastSafetyNow hT _ _)
  split
  · exact .refl s
  · exact (writes_notify _ s).trans (writes_setSafety _ _)

theorem writes_setSafetyModes (o b : Bool) (s : Sys ε) : Writes T N s (setSafetyModes w c o b s) := by
  unfold setSafetyModes
  dsimp only
  generalize (if o then SafetyModeBits.override else 0) ||| (if b then SafetyModeBits.bypass else 0) = next
  split
  · exact .refl s
  · exact (writes_setSafety _ s).trans (writes_broadcastSafetyNow hT _ _)

/-- A clear that the delegate refuses writes nothing. -/
theorem writes_clearEstop (s : Sys ε) : Writes T N s (clearEstop w c s).2 := by
  unfold clearEstop
  split
  · exact .refl s
  · have hask : ∀ (ok : Bool) (env : ε), Writes T N s { s.log (.canClearEstop ok) with env } :=
      fun ok env => (Writes.log (.canClearEstop ok) trivial s).trans (.same rfl)
    dsimp only
    split
    · exact hask _ _
    · refine Writes.trans ?_ (writes_emitSafetyEdgeEvents hT _ _ _)
      exact ((hask _ _).trans (writes_setSafety _ _)).trans (writes_broadcastSafetyNow hT _ _)

/-! ## Grants -/

omit hT in
/-- A grant is sent by its caller, with all the others of the frame. -/
theorem writes_trySubscribe (i : SlotIdx) (wish : SubscriptionWish) (s : Sys ε) :
    Writes T N s (trySubscribe c i wish s).2 := by
  have hreplay : ∀ (ch : UInt16) (t : Sys ε), Writes T N t (replayEventsOnGrant c i ch t) := by
    intro ch t
    unfold replayEventsOnGrant
    split
    · exact .refl t
    · split
      · exact .refl t
      · exact .foldl (writes_offerEvent i ch) _ t
  unfold trySubscribe
  split
  · exact .refl s
  · split
    · exact .refl s
    · split
      · exact .refl s
      · dsimp only
        split
        · exact .refl s
        · exact (Writes.modSession i (fun _ => by rfl) s).trans (hreplay _ _)

/-- A SUBSCRIBE is answered by one GRANT or refused by one NACK. -/
theorem writes_handleSubscribe (i : SlotIdx) (hN : T .nack) (msg : Except DecodeError (List SubscriptionWish)) (s : Sys ε) :
    Writes T N s (handleSubscribe w c i msg s) := by
  unfold handleSubscribe
  split
  · exact writes_sendNack i hN _ s
  · rename_i wishes
    have hfold : Writes T N s (wishes.foldl (subscribeOne w c i) ([], s)).2 := by
      refine Writes.foldl_acc (fun acc wish => ?_) wishes ([], s)
      have hone := writes_trySubscribe (c := c) (T := T) (N := N) i wish acc.2
      unfold subscribeOne
      split
      · rename_i code t heq
        rw [heq] at hone
        exact hone.trans (writes_sendNack i hN _ _)
      · rename_i g t heq
        rw [heq] at hone
        exact hone
    dsimp only
    split
    · exact hfold
    · exact hfold.trans (writes_sendEncoded i (hT .grant trivial) trivial _ _)

omit hT in
/-- A publish wish that was granted only sets up its limiter. -/
theorem writes_publishOne (i : SlotIdx) (nowMs : UInt32) (acc : List GrantedPublish × Sys ε) (wish : PublishWish) :
    Writes T N acc.2 (publishOne w c i nowMs acc wish).2 := by
  have hfam : ∀ (ch : UInt16) (f : Option UInt8) (t : Sys ε), Writes T N t (effectiveFamily w ch f t).2 := by
    intro ch f t
    unfold effectiveFamily
    split
    · exact .refl t
    · exact .same rfl
  have hwish : Writes T N acc.2 (grantPublishWish w c i wish nowMs acc.2).2 := by
    unfold grantPublishWish
    split
    · exact .refl _
    · split
      · exact .refl _
      · dsimp only
        split
        · exact .refl _
        · split
          · exact hfam _ _ _
          · rename_i se hse
            have hevents : se.events =
                ((effectiveFamily w wish.channelId wish.curveFamily acc.2).2.session i).events := by
              rw [(HubSession.addPublishGrant_some hse).1]
            dsimp only
            exact (hfam _ _ _).trans (.ofSession i _ hevents)
  unfold publishOne
  dsimp only
  split
  · exact hwish
  · exact hwish

/-- A PUBLISH is answered like a SUBSCRIBE. -/
theorem writes_handlePublish (i : SlotIdx) (hN : T .nack) (msg : Option (List PublishWish)) (nowMs : UInt32) (s : Sys ε) :
    Writes T N s (handlePublish w c i msg nowMs s) := by
  unfold handlePublish
  split
  · exact writes_sendNackTracked hT i hN _ _ s
  · rename_i wishes
    have hsend : ∀ (payload : Option Bytes) (t : Sys ε), Writes T N t (sendEncodedTracked w c i .grant payload nowMs t) := by
      intro payload t
      unfold sendEncodedTracked
      split
      · exact .refl t
      · exact writes_sendFrameToTracked hT i (hT .grant trivial) trivial _ _ _ _ t
    exact (Writes.foldl_acc (writes_publishOne i nowMs) wishes ([], s)).trans (hsend _ _)

/-! ## Pairing -/

/-- A device that looks another is suspended, and its sessions are told of their new role. -/
theorem writes_applyTrustObservation (i : SlotIdx) (nowMs : UInt32) (s : Sys ε) :
    Writes T N s (applyTrustObservation w c i nowMs s).2 := by
  have hqueue : ∀ (r : AccessLevel) (t : Sys ε), Writes T N t (queueReapproval w c i r nowMs t) := by
    intro r t
    unfold queueReapproval
    refine Writes.trans ?_ (writes_publishRoster _)
    refine Writes.trans ?_ (writes_publishPending _ _)
    refine Writes.trans ?_ (writes_emitPairingEvent hT _ _ _ _ _ _ _ _)
    split
    · exact .refl t
    · exact .same rfl
  unfold applyTrustObservation
  dsimp only
  have hset : ∀ p : PairingManager, Writes T N s (setPairing p s) := fun p => .same rfl
  split
  · exact hset _
  · split
    · exact (hset _).trans (hqueue _ _)
    · exact hset _

/-- A proof is answered by a signature or by a NACK. -/
theorem writes_handleAuth (i : SlotIdx) (hN : T .nack) (msg : Option TrustMap) (nowMs : UInt32) (s : Sys ε) :
    Writes T N s (handleAuth w c i msg nowMs s) := by
  have hstrike : ∀ t : Sys ε, Writes T N t (authStrike w c i nowMs t) := by
    intro t
    have hnack := (Writes.modSlot (T := T) (N := N) i t (f := fun sl => { sl with authFailures := sl.authFailures + 1 })
      fun _ => rfl).trans
      (writes_sendNack (w := w) i hN { code := .unauthorized } _)
    unfold authStrike
    dsimp only
    split
    · exact (hnack.trans (writes_sendEncoded i (hT .goodbye trivial) trivial _ _)).trans (writes_teardownSession hT i _ _)
    · exact hnack
  have haccept : ∀ (proved : AccessLevel) (t : Sys ε), Writes T N t (acceptProof w c i proved nowMs t) := by
    intro proved t
    unfold acceptProof
    refine Writes.trans ?_ (writes_publishRoster _)
    refine Writes.trans ?_ (writes_sendEncoded i (hT .grant trivial) trivial _ _)
    refine Writes.trans ?_ (.modSession i (fun _ => by rfl) _)
    refine Writes.trans ?_ (writes_applyTrustObservation hT i _ _)
    refine Writes.trans ?_ (.modSession i (fun _ => by rfl) _)
    exact .modSlot i t fun _ => rfl
  unfold handleAuth
  split
  · exact .refl s
  · split
    · exact writes_sendNack i hN _ s
    · dsimp only
      split
      · exact (Writes.modSession i (fun _ => by rfl) s).trans (hstrike _)
      · exact (Writes.modSession i (fun _ => by rfl) s).trans (haccept _ _)

omit hT in
/-- A token is drawn and stored; it goes out with the grant alone. -/
theorem writes_mintEntry {inst : InstanceId} {role : AccessLevel} {mode : UInt8} {r : Token × Sys ε}
    (h : mintEntry w inst role mode s = some r) : Writes T N s r.2 := by
  unfold mintEntry at h
  split at h
  · cases h
  · cases h
    exact .same rfl

/-- The one place where a PAIR_GRANT is written. -/
theorem writes_issuePairGrant (i : SlotIdx) (hP : T .pairGrant) (inst : InstanceId) (role : AccessLevel) (mode : UInt8)
    (nowMs : UInt32) (s : Sys ε) : Writes T N s (issuePairGrant w c i inst role mode nowMs s).2 := by
  unfold issuePairGrant
  split
  · exact .refl s
  · rename_i token t hmint
    have hlabel : Writes T N s (modPairing (fun p => p.modify inst (labelEntry (t.session i))) t) :=
      (writes_mintEntry hmint).trans (.same rfl)
    dsimp only
    split
    · exact hlabel
    · refine Writes.trans ?_ (writes_publishRoster _)
      refine Writes.trans ?_ (writes_publishPending _ _)
      refine Writes.trans ?_ (writes_emitPairingEvent hT _ _ _ _ _ _ _ _)
      have hsend := hlabel.trans (writes_sendFrameTo (w := w) i hP trivial 0 (by assumption) 0 _)
      exact (hsend.trans (.modSession i (f := fun se => { se with role }) (fun _ => rfl) _)).trans (.same rfl)

/-- A knock is granted while the presence window is open, and otherwise queued or refused. -/
theorem writes_handleKnock (i : SlotIdx) (hN : T .nack) (hP : T .pairGrant) (inst : InstanceId) (nowMs : UInt32) (s : Sys ε) :
    Writes T N s (handleKnock w c i inst nowMs s) := by
  have hpresence : ∀ t : Sys ε, Writes T N t (presenceKnock w c i inst nowMs t) := by
    intro t
    unfold presenceKnock
    dsimp only
    generalize t.hub.pairing.presenceGrantRole = role
    generalize hclosed : ({ modPairing PairingManager.closePresenceWindow t with
      hub := { (modPairing PairingManager.closePresenceWindow t).hub with presenceWasOpen := false } } : Sys ε) = t'
    have hclose : Writes T N t t' := by
      rw [← hclosed]
      exact .same rfl
    have hissue := hclose.trans (writes_issuePairGrant (w := w) (c := c) (N := N) hT i hP inst role
      PairingModes.pushToPair nowMs t')
    split
    · exact hissue.trans (writes_sendNackTracked hT i hN _ _ _)
    · exact (hissue.trans (writes_emitPairingEvent hT _ _ _ _ _ _ _ _)).trans (writes_publishPending _ _)
  have hqueue : ∀ t : Sys ε, Writes T N t (queueKnock w c i inst nowMs t) := by
    intro t
    unfold queueKnock
    dsimp only
    split
    · exact writes_sendNackTracked hT i hN _ _ t
    · refine Writes.trans ?_ (writes_publishPending _ _)
      exact (writes_emitPairingEvent hT _ _ _ _ _ _ _ _).after rfl
  unfold handleKnock
  split
  · exact writes_sendNackTracked hT i hN _ _ s
  · split
    · exact hpresence s
    · split
      · exact writes_sendNackTracked hT i hN _ _ s
      · exact hqueue s

/-- A proof is granted, or counted and refused. -/
theorem writes_handlePinProof (i : SlotIdx) (hN : T .nack) (hP : T .pairGrant) (inst : InstanceId) (proof : Token)
    (nowMs : UInt32) (s : Sys ε) : Writes T N s (handlePinProof w c i inst proof nowMs s) := by
  have hgrant : ∀ (token : Token) (t : Sys ε), Writes T N t (pinGrant w c i inst token nowMs t) := by
    intro token t
    unfold pinGrant
    refine Writes.trans ?_ (writes_publishRoster _)
    refine Writes.trans ?_ (writes_emitPairingEvent hT _ _ _ _ _ _ _ _)
    refine Writes.trans ?_ (.modSession i (fun _ => by rfl) _)
    have hsend : ∀ payload, Writes T N t
        (sendEncoded w i .pairGrant payload (modPairing (fun p => { p with failCount := 0 }) t)) :=
      fun payload => (writes_sendEncoded i hP trivial payload _).after rfl
    exact (hsend _).trans (.same rfl)
  unfold handlePinProof
  split
  · exact writes_sendNack i hN _ s
  · split
    · exact (writes_sendNack i hN _ _).after rfl
    · split
      · exact writes_sendNack i hN _ s
      · rename_i hmint
        exact (writes_mintEntry hmint).trans (hgrant _ _)

theorem writes_handlePairReq (i : SlotIdx) (hN : T .nack) (hP : T .pairGrant) (msg : Option PairReqMsg) (nowMs : UInt32)
    (s : Sys ε) : Writes T N s (handlePairReq w c i msg nowMs s) := by
  unfold handlePairReq
  split
  · exact writes_sendNack i hN _ s
  · split
    · exact writes_handleKnock hT i hN hP _ _ s
    · exact writes_handlePinProof hT i hN hP _ _ _ s

/-- A window that opens is announced, and one that is open already is not. -/
theorem writes_openPresenceWindow (s : Sys ε) : Writes T N s (openPresenceWindow w c s) := by
  unfold openPresenceWindow
  dsimp only
  split
  · exact .refl s
  · refine Writes.trans ?_ (writes_publishPending _ _)
    refine Writes.trans ?_ (writes_emitPairingEvent hT _ _ _ _ _ _ _ _)
    exact .same rfl

theorem writes_closePresenceWindow (s : Sys ε) : Writes T N s (closePresenceWindow w c s) := by
  unfold closePresenceWindow
  dsimp only
  split
  · exact .refl s
  · refine Writes.trans ?_ (writes_publishPending _ _)
    refine Writes.trans ?_ (writes_emitPairingEvent hT _ _ _ _ _ _ _ _)
    exact .same rfl

/-- The end of a window is announced once. -/
theorem writes_noticeWindow (nowMs : UInt32) (anyExpired : Bool) (s : Sys ε) :
    Writes T N s (noticeWindow w c nowMs anyExpired s) := by
  unfold noticeWindow
  dsimp only
  generalize hopen : ({ s with hub := { s.hub with presenceWasOpen := s.hub.pairing.presenceWindowOpen nowMs } } : Sys ε) = t
  have hnote : Writes T N s t := by
    rw [← hopen]
    exact .same rfl
  cases s.hub.presenceWasOpen && !s.hub.pairing.presenceWindowOpen nowMs with
  | true =>
    exact (hnote.trans (writes_emitPairingEvent hT _ _ _ _ _ _ _ _)).trans (writes_publishPending _ _)
  | false =>
    cases anyExpired with
    | true => exact hnote.trans (writes_publishPending _ _)
    | false => exact hnote

theorem writes_pumpPairing (nowMs : UInt32) (s : Sys ε) : Writes T N s (pumpPairing w c nowMs s) :=
  (Writes.foldl (writes_dropKnock hT nowMs) _ s).trans (writes_noticeWindow hT nowMs _ _)

/-- A signature is sent to the session that waits for it, and to no other. -/
theorem writes_submitSignature (sid : UInt32) (sig : Bytes) (s : Sys ε) :
    Writes T N s (submitSignature w sid sig s).2 := by
  unfold submitSignature
  split
  · exact .refl s
  · split
    · exact .refl s
    · rename_i i _
      split
      · exact .refl s
      · have hsend : Writes T N s (emitHubSig w i sig s) := writes_sendEncoded i (hT .hubSig trivial) trivial _ s
        dsimp only
        exact hsend.trans (.modSlot i _ fun _ => rfl)

omit hT in
/-- A job that is taken is only marked. -/
theorem writes_takePendingSignJob {r : (UInt32 × Bytes) × Sys ε} (h : takePendingSignJob s = some r) :
    Writes T N s r.2 := by
  unfold takePendingSignJob at h
  obtain ⟨i, -, rfl⟩ := Option.map_eq_some_iff.mp h
  dsimp only
  exact .modSlot i s fun _ => rfl

theorem writes_signPendingNow (maxJobs : Nat) : ∀ (fuel done : Nat) (s : Sys ε),
    Writes T N s (signPendingNow w maxJobs fuel done s)
  | 0, _, s => .refl s
  | fuel + 1, done, s => by
    unfold signPendingNow
    split
    · exact .refl s
    · split
      · exact .refl s
      · rename_i sid msg t hjob
        have htake : Writes T N s { t with env := (w.signP256 msg t.env).2 } :=
          (writes_takePendingSignJob hjob).trans (.same rfl)
        dsimp only
        split
        · exact htake.trans (writes_signPendingNow maxJobs fuel done _)
        · exact (htake.trans (writes_submitSignature hT _ _ _)).trans (writes_signPendingNow maxJobs fuel _ _)

/-! ## Blobs, streams and the small exchanges -/

omit hT in
/-- The bytes of a blob are looked up without a word to the client. -/
theorem writes_resolveBlobBytes (i : SlotIdx) (id : BlobId) (s : Sys ε) :
    Writes T N s (resolveBlobBytes w c i id s).2 := by
  obtain ⟨hhub, htrace⟩ := resolveBlobBytes_hub (w := w) (c := c) i id s
  refine .same ?_
  unfold Sys.traffic
  rw [hhub, htrace]

omit hT in
/-- A refusal ends the transfer with one NACK. -/
theorem writes_refuseBlob {i : SlotIdx} {pb : PendingBlob} {view : Option (Bytes × UInt16)} {n : NackMsg}
    (hN : T .nack) (hblob : (s.slot i).blob = some pb) (hlink : (s.slot i).transport.isSome) (hn : n.detail = none)
    (hmoved : ¬pb.Matches view) : Writes T N s (refuseBlob w i pb n (s.log (.blob i (.resumed view)))) := by
  obtain ⟨t, ht⟩ := Option.isSome_iff_exists.mp hlink
  have hdetail : (stampNack s.hub { n with intentSeq := pb.reqSeq }).detail = none := by
    unfold stampNack
    split <;> exact hn
  obtain ⟨payload, hpayload, hlen⟩ := encodeNack_fits hdetail
  have hframe : encodeFrame .nack 0 0 payload ≠ none := by
    have hroom : ¬kFrameBufferCapacity - Limits.headerBytes < payload.length := by
      have : kFrameBufferCapacity - Limits.headerBytes = 504 := rfl
      omega
    rw [encodeFrame, if_neg hroom]
    exact Option.some_ne_none _
  refine Labelled.Path.single (l := .frame .nack) hN ?_
  have hsend : sendNack w i { n with intentSeq := pb.reqSeq } (s.log (.blob i (.resumed view))) =
      (sendFrameTo w i .nack 0 payload 0 (s.log (.blob i (.resumed view)))).2 := by
    unfold sendNack sendEncoded
    rw [show (s.log (.blob i (.resumed view))).hub = s.hub from rfl, hpayload]
  rcases sendFrameTo_linked (w := w) (s := s.log (.blob i (.resumed view))) ht .nack 0 payload 0 with
    ⟨hno, -⟩ | ⟨htraffic, hhub⟩
  · exact absurd hno hframe
  · unfold refuseBlob endBlob
    rw [hsend, traffic_modSlot_load]
    generalize sendFrameTo w i .nack 0 payload 0 (s.log (.blob i (.resumed view))) = r at htraffic hhub
    have hlog : (r.2.log (.blob i (.ended .refused))).traffic = r.2.traffic.log r.2.hub (.blob i (.ended .refused)) := rfl
    rw [hlog, htraffic]
    exact .turnAway s.hub s.hub r.2.hub i t r.1 hblob hmoved hpayload

omit hT in
/-- The chunks of one tick. -/
theorem writes_drainBlob {i : SlotIdx} {bytes : Bytes} (hN : T .nack) (hC : T .blobChunk) :
    ∀ (budget : Nat) (pb : PendingBlob) (s : Sys ε),
      lastBlobStep i s.trace = some (.resumed (some (bytes, pb.generation))) → bytes.length = pb.totalBytes →
      Labelled.Path TrafficAct (Deed.Within T N) (s.traffic.load i (some pb))
        (drainBlob w i pb.target bytes budget pb s).traffic := by
  have hdone : ∀ (pb : PendingBlob) (s : Sys ε),
      lastBlobStep i s.trace = some (.resumed (some (bytes, pb.generation))) → bytes.length = pb.totalBytes →
      pb.next (chunkCount bytes.length) = none →
      Labelled.Path TrafficAct (Deed.Within T N) (s.traffic.load i (some pb)) (endBlob i .delivered s).traffic := by
    intro pb s hview hlen hnext
    refine Labelled.Path.single (l := .blob) trivial ?_
    have hact := TrafficAct.deliver (x := s.traffic.load i (some pb)) s.hub i (Traffic.blob_load _ i _) hview hlen hnext
    rw [Traffic.load_load] at hact
    unfold endBlob
    rw [traffic_modSlot_load]
    exact hact
  intro budget
  induction budget with
  | zero =>
    intro pb s hview hlen
    unfold drainBlob
    split
    · rename_i hnext
      exact hdone pb s hview hlen (Option.isNone_iff_eq_none.mp hnext)
    · rw [traffic_modSlot_load]
      exact .refl _
  | succ budget ih =>
    intro pb s hview hlen
    unfold drainBlob
    split
    · rename_i hnext
      exact hdone pb s hview hlen hnext
    · rename_i index hnext
      split
      · rename_i hfill
        unfold refuseBlob endBlob
        rw [traffic_modSlot_load]
        generalize hn : ({ code := .chunkUnavailable, intentSeq := pb.reqSeq } : NackMsg) = n
        have hact := TrafficAct.giveUp (x := (sendNack w i n s).traffic.load i (some pb)) (sendNack w i n s).hub i
          (Traffic.blob_load _ i _) hlen hnext hfill
        rw [Traffic.load_load] at hact
        exact (path_sendNack_load i hN n _ s).trans (Labelled.Path.single (l := .blob) trivial hact)
      · rename_i payload hfill
        cases ht : (s.slot i).transport with
        | none =>
          have hsend : sendFrameTo w i .blobChunk Channels.catalog payload 0 s = (false, s.log (.nullWrite i)) := by
            unfold sendFrameTo
            rw [ht]
          rw [hsend]
          simp only [Bool.false_eq_true, if_false]
          rw [traffic_modSlot_load]
          exact Labelled.Path.single (l := .note) trivial (.note s.hub trivial)
        | some t =>
          rcases sendFrameTo_linked (w := w) ht .blobChunk Channels.catalog payload 0 with ⟨-, hsend⟩ | ⟨htraffic, -⟩
          · rw [hsend]
            simp only [Bool.false_eq_true, if_false]
            rw [traffic_modSlot_load]
            exact .refl _
          · have hact := TrafficAct.chunk (x := s.traffic.load i (some pb)) s.hub i t
              (sendFrameTo w i .blobChunk Channels.catalog payload 0 s).1 (Traffic.blob_load _ i _) hview hlen hnext hfill
            rw [Traffic.load_load] at hact
            generalize sendFrameTo w i .blobChunk Channels.catalog payload 0 s = r at htraffic hact
            obtain ⟨ok, u⟩ := r
            dsimp only at htraffic hact ⊢
            have hload : ∀ b, (s.traffic.load i b).log s.hub (.write i t .blobChunk Channels.catalog 0 payload ok) =
                u.traffic.load i b := by
              intro b
              rw [htraffic]
              rfl
            rw [hload] at hact
            have hstep : Labelled.Path TrafficAct (Deed.Within T N) (s.traffic.load i (some pb)) _ :=
              Labelled.Path.single (l := .frame .blobChunk) hC hact
            cases ok with
            | false =>
              simp only [Bool.false_eq_true, if_false]
              rw [traffic_modSlot_load]
              exact hstep
            | true =>
              have htrace : u.trace = (s.hub, .write i t .blobChunk Channels.catalog 0 payload true) :: s.trace :=
                congrArg Traffic.trace htraffic
              obtain ⟨hgen, hbytes, hid, -⟩ := pb.advance_keeps
              have htarget : pb.advance.target = pb.target := by rw [PendingBlob.target, hgen, hid]; rfl
              simp only [if_true]
              refine hstep.trans ?_
              rw [← htarget]
              refine ih pb.advance u ?_ (hlen.trans hbytes.symm)
              rw [htrace, hgen]
              exact hview

/-- A blob sends its next chunk, ends, or is refused. -/
theorem writes_pumpBlobTransfer (i : SlotIdx) (hN : T .nack) (s : Sys ε) : Writes T N s (pumpBlobTransfer w c i s) := by
  unfold pumpBlobTransfer
  split
  · exact .refl s
  · rename_i pb hblob
    split
    · refine Labelled.Path.single (l := .blob) trivial ?_
      unfold endBlob
      rw [traffic_modSlot_load]
      exact .drop s.hub i hblob
    · rename_i hgate
      simp only [Bool.or_eq_true, not_or, Option.isNone_iff_eq_none] at hgate
      have hlink := Option.isSome_iff_ne_none.mpr hgate.1
      have hres := writes_resolveBlobBytes (w := w) (c := c) (T := T) (N := N) i pb.id s
      have hhub := (resolveBlobBytes_hub (w := w) (c := c) i pb.id s).1
      split
      · rename_i n t heq
        rw [heq] at hres hhub
        exact hres.trans (writes_refuseBlob hN (by rw [Sys.slot, hhub]; exact hblob) (by rw [Sys.slot, hhub]; exact hlink)
          (resolveBlobBytes_error heq) id)
      · rename_i id' bytes t heq
        rw [heq] at hres hhub
        obtain ⟨⟨generation, rfl⟩, -⟩ := resolveBlobBytes_ok heq
        have hblob' : (t.slot i).blob = some pb := by rw [Sys.slot, hhub]; exact hblob
        dsimp only
        split
        · rename_i hmoved
          refine hres.trans (writes_refuseBlob hN hblob' (by rw [Sys.slot, hhub]; exact hlink) rfl ?_)
          rintro ⟨hlen, hgen⟩
          rcases hmoved with h | h
          · exact h hlen
          · exact h (congrArg some hgen)
        · rename_i hsame
          rw [not_or, not_not, not_not] at hsame
          obtain ⟨hlen, hgen⟩ := hsame
          obtain rfl := Option.some.inj hgen
          have hresume : Writes T N t (t.log (.blob i (.resumed (some (bytes, pb.generation))))) :=
            Labelled.Path.single (l := .blob) trivial (.resume t.hub i hblob' hlen)
          refine (hres.trans hresume).trans ?_
          have hlast : lastBlobStep i (t.log (.blob i (.resumed (some (bytes, pb.generation))))).trace =
              some (.resumed (some (bytes, pb.generation))) := by
            simp [lastBlobStep, Sys.log, Io.blobStep]
          have hdrain := writes_drainBlob (w := w) (N := N) hN (hT .blobChunk trivial) kBlobChunksPerTick pb _ hlast hlen
          rwa [Traffic.load_self hblob'] at hdrain

/-- The pumps that send, in the order of `update`: signature, blob, states, events. -/
theorem writes_pumpOut (i : SlotIdx) (hN : T .nack) (nowMs : UInt32) (s : Sys ε) :
    Writes T N s (pumpOut w c i nowMs s) := by
  unfold pumpOut
  split
  · exact ((writes_pumpStatePacing hT i nowMs s).trans (writes_pumpEventDrain hT i _)).trans
      (writes_pumpBlobTransfer hT i hN _)
  · exact .refl s

omit hT in
/-- A request starts a transfer or a repair, or is refused with its own number. -/
theorem writes_handleBlobReq (i : SlotIdx) (hN : T .nack) (msg : Option BlobReqMsg) (hseq : s.hub.dispatchSeq.isSome) :
    Writes T N s (handleBlobReq w c i msg s) := by
  unfold handleBlobReq
  split
  · exact writes_sendNack i hN _ s
  · rename_i m
    have hres := writes_resolveBlobBytes (w := w) (c := c) (T := T) (N := N) i m.blob s
    have hhub := (resolveBlobBytes_hub (w := w) (c := c) i m.blob s).1
    split
    · rename_i n t heq
      rw [heq] at hres
      exact hres.trans (writes_sendNack i hN _ _)
    · rename_i id bytes t heq
      rw [heq] at hres hhub
      split
      · exact hres.trans (writes_sendNack i hN _ _)
      · rename_i hrange
        refine hres.trans (Labelled.Path.single (l := .blob) trivial ?_)
        dsimp only
        rw [traffic_modSlot_load]
        refine .request t.hub i ⟨rfl, rfl, (resolveBlobBytes_ok heq).2, fun l hl k hk => ?_⟩ rfl ?_
        · simp only [Option.any_eq_true, List.any_eq_true, decide_eq_true_eq, not_exists, not_and, Nat.not_le] at hrange
          exact hrange l hl k hk
        · rw [hhub]
          exact hseq

theorem writes_handleClock (i : SlotIdx) (payload : Bytes) (s : Sys ε) : Writes T N s (handleClock w i payload s) := by
  unfold handleClock
  split
  · exact .refl s
  · exact writes_sendFrameTo i (hT .clock trivial) trivial _ _ _ s

theorem writes_handleProbeRequest (i : SlotIdx) (s : Sys ε) : Writes T N s (handleProbeRequest w i s) := by
  unfold handleProbeRequest
  split
  · exact .refl s
  · rename_i t _
    dsimp only
    generalize (if Limits.headerBytes < w.mtu t then w.mtu t - Limits.headerBytes
      else Limits.minTransportPayload) % 2 ^ 16 = mtuPayload
    split
    · exact .refl s
    · exact .foldl (fun t k => writes_sendFrameTo i (hT .probe trivial) trivial _ _ _ t) _ s

/-- A bundle is delivered, shed in silence, or refused. -/
theorem writes_handleStream (i : SlotIdx) (hN : T .nack) (ch : UInt16) (payload : Bytes) (nowMs : UInt32) (s : Sys ε) :
    Writes T N s (handleStream w c i ch payload nowMs s) := by
  have hdrop : ∀ t : Sys ε, Writes T N t (dropBundle i t) := fun t => .modSession i (fun _ => by rfl) t
  have hgrant : ∀ (f : PublishGrant → PublishGrant) (t : Sys ε), Writes T N t (modGrant i ch f t) :=
    fun f t => .modSession i (fun _ => by rfl) t
  have hover : ∀ (pg : PublishGrant) (t : Sys ε), Writes T N t (sendStreamOverageNack w c i pg ch nowMs t) := by
    intro pg t
    unfold sendStreamOverageNack
    split
    · exact .refl t
    · exact (hgrant _ t).trans (writes_sendNackTracked hT i hN _ _ _)
  have hconflict : ∀ (src : UInt8) (t : Sys ε), Writes T N t (sendSourceConflictNack w c i src ch nowMs t) := by
    intro src t
    unfold sendSourceConflictNack
    split
    · exact .refl t
    · refine Writes.trans ?_ (writes_sendNackTracked hT i hN _ _ _)
      exact .modSlot i t fun _ => rfl
  have hacquire : ∀ (src : UInt8) (t : Sys ε), Writes T N t (acquireForStream w c i ch src nowMs t).2 := by
    intro src t
    unfold acquireForStream
    dsimp only
    generalize ht' : ({ t with hub := { t.hub with ownership :=
      (t.hub.ownership.acquire src (t.session i).sessionId (t.session i).role false).2 } } : Sys ε) = t'
    have hown : Writes T N t t' := by
      rw [← ht']
      exact .same rfl
    split
    · exact hown.trans ((hdrop _).trans (hconflict _ _))
    · exact (hown.trans ((writes_notify _ _).trans (writes_publishControlOwner _))).trans (.modSlot i _ fun _ => rfl)
    · exact hown
    · exact hown
  have hdeliver : ∀ (mapped : Option UInt8) (b : BundleView) (t : Sys ε), Writes T N t (deliverBundle w i ch mapped b t) := by
    intro mapped b t
    exact ((Writes.modSession i (fun _ => by rfl) t).trans (.log _ (by trivial) _)).trans (writes_notify _ _)
  have hroute : ∀ (b : BundleView) (t : Sys ε), Writes T N t (routeBundle w c i ch b nowMs t) := by
    intro b t
    have hacq : ∀ src, Writes T N t (acquireForStream w c i ch src nowMs
        { t with env := (w.sourceForChannel ch t.env).2 }).2 := fun src => (hacquire src _).after rfl
    unfold routeBundle
    dsimp only
    split
    · exact (hdeliver _ _ _).after rfl
    · split
      · exact (hacq _).trans (hdeliver _ _ _)
      · exact hacq _
  unfold handleStream
  split
  · exact hdrop s
  · split
    · exact hdrop s
    · split
      · exact hdrop s
      · dsimp only
        split
        · exact ((hgrant _ s).trans (hdrop _)).trans (hover _ _)
        · exact (hgrant _ s).trans (hroute _ _)

/-! ## HELLO -/

omit hT in
/-- The delegate is asked about the token before anything is written. -/
theorem writes_validateHello (h : HelloMsg) (s : Sys ε) : Writes T N s (validateHello w h s).2 := by
  unfold validateHello
  dsimp only
  split
  · exact (Writes.log (.validateToken h.instanceId h.token _) trivial s).trans (.same rfl)
  · exact .refl s

/-- The trust observation is all that a HELLO shows of itself before its WELCOME. -/
theorem writes_observeRole (i : SlotIdx) (h : HelloMsg) (nowMs : UInt32) (s : Sys ε) :
    Writes T N s (observeRole w c i h nowMs s) := by
  unfold observeRole
  split
  · exact (writes_applyTrustObservation hT i nowMs s).trans (.modSession i (fun _ => by rfl) _)
  · exact .refl s

omit hT in
/-- The nonce of the slot is drawn anew, which is allowed where `N` does not watch it. -/
theorem writes_freshNonce {i : SlotIdx} (hi : ¬N i) (s : Sys ε) : Writes T N s (freshNonce w i s) := by
  refine Labelled.Path.single (l := .draw i) hi ?_
  unfold freshNonce
  dsimp only
  rw [traffic_modSlot]
  exact .draw i _

omit hT in
theorem writes_armWelcomeSignature (i : SlotIdx) (m : WelcomeMsg) (s : Sys ε) :
    Writes T N s (armWelcomeSignature w i m s).2 := by
  unfold armWelcomeSignature
  split
  · split
    · exact .refl s
    · rename_i nonce _ _ _
      have hsign : Writes T N s
          { s with env := (w.signP256 (hubSigMaterial nonce (s.session i).sessionId s.hub.bootId) s.env).2 } := .same rfl
      dsimp only
      split
      · dsimp only
        exact hsign.trans (.modSlot i _ fun _ => rfl)
      · exact hsign
  · exact .refl s

/-- A WELCOME draws the nonce of its slot and is written once, if it fits a frame. -/
theorem writes_sendWelcome {i : SlotIdx} (hi : ¬N i) (grants : List Grant) (pubs : List GrantedPublish) (nowMs : UInt32)
    (s : Sys ε) : Writes T N s (sendWelcome w c i grants pubs nowMs s).2 := by
  unfold sendWelcome
  have hfresh := writes_freshNonce (w := w) (T := T) hi s
  generalize freshNonce w i s = t at hfresh
  dsimp only
  have harmed := hfresh.trans (writes_armWelcomeSignature (w := w) i (buildWelcome w c i grants pubs nowMs t.hub) t)
  split
  · exact harmed
  · rename_i bytes _
    have hsend := harmed.trans (writes_sendFrameTo (w := w) i (hT .welcome trivial) trivial 0 bytes 0 _)
    dsimp only
    split
    · exact hsend.trans (.modSlot i _ fun _ => rfl)
    · exact hsend

/-- A session that was let in gets its WELCOME, and the logs it subscribed to. -/
theorem writes_welcomeSession {i : SlotIdx} (hi : ¬N i) (h : HelloMsg) (nowMs : UInt32) (s : Sys ε) :
    Writes T N s (welcomeSession w c i h nowMs s) := by
  have hsub : ∀ (acc : List Grant × Sys ε) (wish : SubscriptionWish),
      Writes T N acc.2 (helloSubscribeOne c i acc wish).2 := by
    intro acc wish
    have hone := writes_trySubscribe (c := c) (T := T) (N := N) i wish acc.2
    unfold helloSubscribeOne
    split
    · rename_i heq
      rw [heq] at hone
      exact hone
    · rename_i heq
      rw [heq] at hone
      exact hone
  unfold welcomeSession
  dsimp only
  have hwishes := (Writes.foldl_acc hsub h.subscriptions ([], s)).trans
    (Writes.foldl_acc (writes_publishOne (w := w) (c := c) i nowMs) h.publishes ([], _))
  have hwelcome : ∀ (grants : List Grant) (pubs : List GrantedPublish) (t : Sys ε),
      Writes T N t (sendWelcome w c i grants pubs nowMs t).2 :=
    fun grants pubs t => writes_sendWelcome hT hi grants pubs nowMs t
  split
  · exact ((hwishes.trans (hwelcome _ _ _)).trans (.modSession i (fun _ => by rfl) _)).trans (writes_notify _ _)
  · exact hwishes.trans (hwelcome _ _ _)

/-- A session that is resumed drains what it had queued, and is welcomed again on its new slot. -/
theorem writes_handleReattach {i : SlotIdx} (hi : ¬N i) (j : SlotIdx) (h : HelloMsg) (nowMs : UInt32) (s : Sys ε) :
    Writes T N s (handleReattach w c i j h nowMs s) := by
  have hmigrate : ∀ t : Sys ε, Writes T N t (migrate i j t) := by
    intro t
    refine Labelled.Path.single (l := .seat) trivial ?_
    have hlanes : (migrate i j t).traffic = (((t.traffic.setLane j (t.traffic.lanes j).emptied).setLane i
        { t.traffic.lanes j with nonce := (t.traffic.lanes i).nonce, blob := none }).log t.hub (.seated i (some j))) := by
      refine congrArg (fun lanes => Traffic.mk lanes t.hub.retained ((t.hub, .seated i (some j)) :: t.trace)) ?_
      funext k
      show laneOf (if k = i then migrateInto (t.hub.slots j) (t.hub.slots i)
        else if k = j then vacate (t.hub.slots j) else t.hub.slots k) = if k = i then _ else if k = j then _ else _
      by_cases hki : k = i
      · rw [if_pos hki, if_pos hki]
        rfl
      · rw [if_neg hki, if_neg hki]
        by_cases hkj : k = j
        · rw [if_pos hkj, if_pos hkj]
          rfl
        · rw [if_neg hkj, if_neg hkj]
          rfl
    rw [hlanes]
    exact .move t.hub i j
  have htake : Writes T N s (takeOver w c i j nowMs s) :=
    ((writes_teardownSession hT i nowMs s).trans (writes_closeSlot j _)).trans (hmigrate _)
  have hresume : ∀ t : Sys ε, Writes T N t (resume w c i h nowMs t) := by
    intro t
    have hin : Writes T N t ((validateHello w h t).2.modSlot i (reintroduce h (validateHello w h t).1)) :=
      (writes_validateHello h t).trans (.modSlot i _ fun _ => rfl)
    have hevents : ∀ se : HubSession, (resumeSession c h nowMs se).events = se.events := by
      intro se
      unfold resumeSession
      dsimp only
      split <;> rfl
    exact (hin.trans (writes_observeRole hT i h nowMs _)).trans (.modSession i hevents _)
  have hback : ∀ t : Sys ε, Writes T N t (welcomeBack w c i nowMs t) := by
    intro t
    unfold welcomeBack
    dsimp only
    have hwelcome := (Writes.modSession i (f := fun se => { se with subs := rearmPushes se.subs }) (fun _ => rfl) t).trans
      (writes_sendWelcome (w := w) (c := c) hT hi
        ((((t.modSession i fun se => { se with subs := rearmPushes se.subs }).session i).subs.entries.map grantOf).take
          kWelcomeMaxGrants)
        ((((t.modSession i fun se => { se with subs := rearmPushes se.subs }).session i).publishGrants.grants.map
          grantedPublishOf).take kWelcomeMaxGrantedPublishes) nowMs _)
    split
    · exact (hwelcome.trans (.modSession i (fun _ => by rfl) _)).trans (writes_emitSessionEvent hT _ _ _ _)
    · exact hwelcome
  exact (htake.trans (hresume _)).trans (hback _)

/-- A HELLO is refused by a NACK or answered by a WELCOME. -/
theorem writes_handleHello {i : SlotIdx} (hi : ¬N i) (hN : T .nack) (msg : Option HelloMsg) (nowMs : UInt32) (s : Sys ε) :
    Writes T N s (handleHello w c i msg nowMs s) := by
  have hroom : ∀ (t u : Sys ε), makeRoom w c i nowMs t = some u → Writes T N t u := by
    intro t u hu
    unfold makeRoom at hu
    split at hu
    · cases hu
      exact .refl _
    · split at hu
      · cases hu
      · cases hu
        exact (writes_sendGoodbye hT _ _ t).trans (writes_teardownSession hT _ _ _)
  have henter : ∀ (h : HelloMsg) (t : Sys ε), (t.session i).events = {} → Writes T N t (admitSession w c i h nowMs t) := by
    intro h t hempty
    have hdraw : Writes T N t (drawSession w t).2 :=
      (Writes.log (.drewSession _) trivial t).trans (.same rfl)
    have hopen : Writes T N t (openSession w c i h nowMs t) := by
      unfold openSession
      dsimp only
      refine (hdraw.trans (writes_validateHello h _)).trans (.same (traffic_modSlot_eq i _ ?_))
      have hslot : ((validateHello w h (drawSession w t).2).2).slot i = t.slot i := by
        unfold validateHello
        dsimp only
        split <;> rfl
      rw [hslot]
      exact congrArg (Lane.mk (t.slot i).nonce · (lastPushed (t.slot i).pushRecords) (t.slot i).blob) hempty.symm
    exact hopen.trans (writes_observeRole hT i h nowMs _)
  have hfresh : ∀ (h : HelloMsg) (t : Sys ε), Writes T N t (helloFresh w c i h nowMs t) := by
    intro h t
    unfold helloFresh
    split
    · exact writes_sendNack i hN _ t
    · rename_i u hu
      have hempty : ((teardownSession w c i nowMs u).session i).events = {} := by
        unfold teardownSession
        dsimp only
        rw [Sys.session, Sys.slot_modSlot_self]
        rfl
      exact (((hroom t u hu).trans (writes_teardownSession hT i nowMs u)).trans (henter h _ hempty)).trans
        (writes_welcomeSession hT hi h nowMs _)
  unfold handleHello
  split
  · exact writes_sendNack i hN _ s
  · split
    · exact hfresh _ s
    · rename_i j _
      split
      · exact writes_handleReattach hT hi j _ nowMs s
      · exact ((writes_sendGoodbye hT j _ s).trans (writes_teardownSession hT j _ _)).trans (hfresh _ _)

/-! ## Intents -/

/-- An INTENT that was accepted is answered by its ECHO, which goes to the ring as well. -/
theorem writes_acceptIntent (i : SlotIdx) (m : IntentMsg) (echo : Option Bytes) (nowMs : UInt32) (s : Sys ε) :
    Writes T N s (acceptIntent w c i m echo nowMs s) := by
  unfold acceptIntent
  dsimp only
  split
  · exact .log _ (by trivial) s
  · exact ((Writes.log (.accepted i m.intentId _) trivial s).trans (.modSession i (fun _ => by rfl) _)).trans
      (writes_sendFrameToTracked hT i (hT .echo trivial) trivial _ _ _ _ _)

/-- A source that is taken, or taken over, is announced; one that is not is a NACK. -/
theorem writes_acquireForIntent (i : SlotIdx) (hN : T .nack) (m : IntentMsg) (src : UInt8) (nowMs : UInt32) (s : Sys ε) :
    Writes T N s (acquireForIntent w c i m src nowMs s).2 := by
  unfold acquireForIntent
  dsimp only
  generalize ht' : ({ s with hub := { s.hub with ownership :=
    (s.hub.ownership.acquire src (s.session i).sessionId (s.session i).role m.takeover).2 } } : Sys ε) = t
  have hown : Writes T N s t := by
    rw [← ht']
    exact .same rfl
  split
  · exact hown.trans (writes_sendNackTracked hT i hN _ _ _)
  · exact hown
  · exact hown.trans ((writes_notify _ _).trans (writes_publishControlOwner _))
  · exact (hown.trans ((writes_notify _ _).trans (writes_publishControlOwner _))).trans
      (writes_emitTakeoverEvent hT _ _ _ _)

theorem writes_noteApplied (i : SlotIdx) (m : IntentMsg) (mapped cfgChanged : Bool) (nowMs : UInt32) (s : Sys ε) :
    Writes T N s (noteApplied w c i m mapped cfgChanged nowMs s) := by
  have hannounce : ∀ (before : UInt8) (t : Sys ε), Writes T N t (announceSafety w c before nowMs t) := fun before t =>
    ((writes_retain _ _ t).trans (writes_broadcastSafetyNow hT _ _)).trans (writes_emitSafetyEdgeEvents hT _ _ _)
  have hlatch : ∀ t : Sys ε, Writes T N t (latchAccepted w c i (safetyOp m) nowMs t) := by
    intro t
    unfold latchAccepted
    split
    · exact .refl t
    · rename_i op _
      have hop : Writes T N t (applySafetyOpLatch op.toUInt8 (t.session i).sessionId t).2 := by
        unfold applySafetyOpLatch
        split
        · exact .refl t
        · exact .same rfl
      dsimp only
      split
      · exact hop.trans (hannounce _ _)
      · exact hop
  have hlift : ∀ t : Sys ε, Writes T N t (if mapped then liftStop w c nowMs t else t) := by
    intro t
    split
    · unfold liftStop
      dsimp only
      split
      · exact (hannounce _ _).after rfl
      · exact .refl t
    · exact .refl t
  have hgen : Writes T N s (if cfgChanged then { s with hub := { s.hub with cfgGen := s.hub.cfgGen + 1 } } else s) := by
    split
    · exact .same rfl
    · exact .refl s
  exact (hgen.trans (hlatch _)).trans (hlift _)

/-- What the delegate decides, as an ECHO or a NACK. -/
theorem writes_delegateIntent (i : SlotIdx) (hN : T .nack) (m : IntentMsg) (mapped : Option UInt8) (nowMs : UInt32)
    (s : Sys ε) : Writes T N s (delegateIntent w c i m mapped nowMs s) := by
  unfold delegateIntent
  generalize w.applyIntent m.channelId m.value (s.session i).role s.env = r
  obtain ⟨⟨res, cfgChanged⟩, env⟩ := r
  have hask : Writes T N s { s.log (.applyIntent i m.channelId m.value mapped res) with env } :=
    (Writes.log (.applyIntent i m.channelId m.value mapped res) trivial s).trans (.same rfl)
  cases res with
  | error code => exact hask.trans (writes_sendNackTracked hT i hN _ _ _)
  | ok applied => exact (hask.trans (writes_noteApplied hT i m _ _ _ _)).trans (writes_acceptIntent hT i m _ _ _)

/-- An INTENT takes its source before the delegate sees it. -/
theorem writes_applyIntent (i : SlotIdx) (hN : T .nack) (m : IntentMsg) (nowMs : UInt32) (s : Sys ε) :
    Writes T N s (applyIntent w c i m nowMs s) := by
  unfold applyIntent
  dsimp only
  split
  · exact (writes_delegateIntent hT i hN m none nowMs _).after rfl
  · rename_i src _
    have hacq : Writes T N s (acquireForIntent w c i m src nowMs
        { s with env := (w.sourceForChannel m.channelId s.env).2 }).2 :=
      (writes_acquireForIntent hT i hN m src nowMs _).after rfl
    split
    · exact hacq.trans (writes_delegateIntent hT i hN m _ nowMs _)
    · exact hacq

section

variable {i : SlotIdx} (hN : T .nack) (m : IntentMsg) (nowMs : UInt32)

include hN

theorem writes_adminNack (code : NackCode) (s : Sys ε) : Writes T N s (adminNack w c i m code nowMs s) :=
  writes_sendNackTracked hT i hN _ nowMs s

omit hN in
theorem writes_adminEcho (op : UInt64) (s : Sys ε) : Writes T N s (adminEcho w c i m op nowMs s) :=
  writes_acceptIntent hT i m _ nowMs s

/-- The evicted session gets a GOODBYE before its slot is closed. -/
theorem writes_adminEvict (op : UInt64) (target : UInt32) (s : Sys ε) :
    Writes T N s (adminEvict w c i m op target nowMs s) := by
  unfold adminEvict
  split
  · exact writes_adminNack hT hN m nowMs _ s
  · exact ((writes_adminEcho hT m nowMs op s).trans (writes_sendGoodbye hT _ _ _)).trans
      (writes_teardownSession hT _ _ _)

/-- An approval writes a PAIR_GRANT to the session that knocked, and an ECHO to the one that approved. -/
theorem writes_adminApprove (hP : T .pairGrant) (op : UInt64) (a : AdminOp) (s : Sys ε) :
    Writes T N s (adminApprove w c i m op a nowMs s) := by
  have hnack := fun code => writes_adminNack (w := w) (c := c) (N := N) (i := i) hT hN m nowMs code
  unfold adminApprove
  split
  · rename_i inst role _ _
    split
    · exact hnack _ s
    · split
      · exact hnack _ s
      · rename_i k _
        split
        · have hremove : Writes T N s (modPending (fun l => l.remove inst) s) := .same rfl
          exact ((hremove.trans (writes_emitPairingEvent hT _ _ _ _ _ _ _ _)).trans (writes_publishPending _ _)).trans
            (hnack _ _)
        · rename_i j _
          have hissue := writes_issuePairGrant (w := w) (c := c) (N := N) hT j hP inst role k.mode nowMs s
          dsimp only
          split
          · exact hissue.trans (hnack _ _)
          · exact hissue.trans (writes_adminEcho hT m nowMs op _)
  · exact hnack _ s

/-- The device that is denied learns of it by the event alone. -/
theorem writes_adminDeny (op : UInt64) (a : AdminOp) (s : Sys ε) : Writes T N s (adminDeny w c i m op a nowMs s) := by
  unfold adminDeny
  split
  · exact writes_adminNack hT hN m nowMs _ s
  · rename_i inst k _
    have hrevoke : ∀ t : Sys ε, Writes T N t (if k.reapproval then revokeDevice w c inst k.mode nowMs t else t) := by
      intro t
      split
      · have hset : Writes T N t (modPairing (fun p => (p.revoke inst).getD p) t) := .same rfl
        exact (hset.trans (writes_emitPairingEvent hT _ _ _ _ _ _ _ _)).trans (writes_publishRoster _)
      · exact .refl t
    have hremove : Writes T N s (modPending (fun l => l.remove inst) s) := .same rfl
    exact (((hremove.trans (hrevoke _)).trans (writes_emitPairingEvent hT _ _ _ _ _ _ _ _)).trans
      (writes_publishPending _ _)).trans (writes_adminEcho hT m nowMs op _)

/-- Every session of the revoked device is ended. -/
theorem writes_adminRevoke (op : UInt64) (a : AdminOp) (s : Sys ε) :
    Writes T N s (adminRevoke w c i m op a nowMs s) := by
  unfold adminRevoke
  split
  · exact writes_adminNack hT hN m nowMs _ s
  · rename_i inst p _
    have hset : Writes T N s (modPending (fun l => l.remove inst) (setPairing p s)) := .same rfl
    exact (((hset.trans (writes_emitPairingEvent hT _ _ _ _ _ _ _ _)).trans (writes_publishRoster _)).trans
      (writes_publishPending _ _)).trans (writes_adminEcho hT m nowMs op _)

/-- Of the session-admin ops only an approval writes a PAIR_GRANT. -/
theorem writes_handleAdminIntent (hP : (adminOp m).op = some SessionAdminOps.pairApprove.toUInt64 → T .pairGrant)
    (s : Sys ε) : Writes T N s (handleAdminIntent w c i m nowMs s) := by
  unfold handleAdminIntent
  dsimp only
  split
  · exact writes_adminNack hT hN m nowMs _ s
  · rename_i op hop
    split
    · exact writes_adminEvict hT hN m nowMs _ _ s
    · split
      · rename_i happrove
        exact writes_adminApprove hT hN m nowMs (hP (by rw [hop, happrove])) _ _ s
      · split
        · exact writes_adminDeny hT hN m nowMs _ _ s
        · split
          · exact writes_adminRevoke hT hN m nowMs _ _ s
          · exact writes_adminNack hT hN m nowMs _ s

end

/-- The INTENT names a knock to approve. -/
def IntentMsg.PairApprove (m : IntentMsg) : Prop :=
  m.channelId = Channels.sessionAdmin ∧ (adminOp m).op = some SessionAdminOps.pairApprove.toUInt64

/-- The safety and admin channels are the hub's own; all others are the delegate's. -/
theorem writes_performIntent (i : SlotIdx) (hN : T .nack) (m : IntentMsg) (hP : m.PairApprove → T .pairGrant)
    (nowMs : UInt32) (s : Sys ε) : Writes T N s (performIntent w c i m nowMs s) := by
  unfold performIntent
  split
  · unfold intentEstopClear
    split
    · exact writes_sendNackTracked hT i hN _ _ s
    · have hclear := writes_clearEstop (w := w) (c := c) (N := N) hT s
      dsimp only
      split
      · exact hclear.trans (writes_sendNackTracked hT i hN _ _ _)
      · exact hclear.trans (writes_acceptIntent hT i m _ _ _)
  · split
    · exact (writes_handleEstopFrame hT _ _ s).trans (writes_acceptIntent hT i m _ _ _)
    · split
      · rename_i hch
        exact writes_handleAdminIntent hT hN m nowMs (fun hop => hP ⟨hch, hop⟩) s
      · exact writes_applyIntent hT i hN m nowMs s

/-- An INTENT is answered once, by a NACK, its ECHO, or the ECHO of the first time. -/
theorem writes_handleIntent (i : SlotIdx) (hN : T .nack) (msg : Option IntentMsg)
    (hP : ∀ m, msg = some m → m.PairApprove → T .pairGrant) (nowMs : UInt32) (s : Sys ε) :
    Writes T N s (handleIntent w c i msg nowMs s) := by
  unfold handleIntent
  split
  · exact writes_sendNack i hN _ s
  · rename_i m
    have henter : ∀ t : Sys ε, Writes T N t (admitIntent w c i m nowMs t) := by
      intro t
      unfold admitIntent
      split
      · exact writes_sendNack i hN _ t
      · split
        · exact writes_sendFrameToTracked hT i (hT .echo trivial) trivial _ _ _ _ t
        · split
          · exact writes_sendNack i hN _ t
          · exact writes_performIntent hT i hN m (hP m rfl) nowMs t
    dsimp only
    split
    · exact (Writes.modSession i (fun _ => by rfl) s).trans (writes_sendNack i hN _ _)
    · exact (Writes.modSession i (fun _ => by rfl) s).trans (henter _)

/-! ## Frames -/

theorem writes_noteRx (i : SlotIdx) (nowMs : UInt32) (s : Sys ε) : Writes T N s (noteRx w i nowMs s) := by
  unfold noteRx
  dsimp only
  refine Writes.trans ?_ (writes_reviveIfStale hT i nowMs _)
  split
  · exact (Writes.log (.read i) trivial s).trans (.modSession i (fun _ => by rfl) _)
  · exact .log (.read i) trivial s

/-- The frame asks for a credential, or approves one. -/
def Inbound.Pairs : Inbound → Prop
  | .pairReq _ => True
  | .intent (some m) => m.PairApprove
  | _ => False

/-- The frame makes the hub draw a nonce. -/
def Inbound.Greets : Inbound → Prop
  | .hello _ => True
  | _ => False

/-- A PAIR_GRANT goes out only for frames that pair, and a nonce is drawn only for a HELLO. -/
theorem writes_dispatch (i : SlotIdx) (m : Inbound) (hi : m.Greets → ¬N i) (hN : T .nack) (hP : m.Pairs → T .pairGrant)
    (nowMs : UInt32) (hseq : s.hub.dispatchSeq.isSome) : Writes T N s (dispatch w c i m nowMs s) := by
  by_cases hhello : ∃ msg, m = .hello msg
  · obtain ⟨msg, rfl⟩ := hhello
    exact writes_handleHello hT (hi trivial) hN msg nowMs s
  cases hocc : (s.session i).occupied with
  | false =>
    have hsame : dispatch w c i m nowMs s = s := by
      cases m <;> first | exact absurd ⟨_, rfl⟩ hhello | simp [dispatch, hocc]
    rw [hsame]
    exact .refl s
  | true =>
    cases m <;> simp only [dispatch, hocc, Bool.not_true, Bool.false_eq_true, if_false]
    case hello msg => exact absurd ⟨msg, rfl⟩ hhello
    case subscribe msg => exact writes_handleSubscribe hT i hN msg s
    case unsubscribe msg =>
      unfold handleUnsubscribe
      split
      · exact .refl s
      · exact .modSession i (fun _ => by rfl) s
    case publish msg => exact writes_handlePublish hT i hN msg nowMs s
    case catalogReady etag =>
      unfold handleCatalogReady
      split
      · exact .refl s
      · exact .modSession i (fun _ => by rfl) s
    case intent msg => exact writes_handleIntent hT i hN msg (fun m hm h => hP (by rw [hm]; exact h)) nowMs s
    case stream ch payload => exact writes_handleStream hT i hN ch payload nowMs s
    case ping payload => exact writes_sendFrameTo i (hT .pong trivial) trivial _ _ _ s
    case clock payload => exact writes_handleClock hT i payload s
    case goodbye => exact writes_teardownSession hT i nowMs s
    case blobReq msg => exact writes_handleBlobReq i hN msg hseq
    case pairReq msg => exact writes_handlePairReq hT i hN (hP trivial) msg nowMs s
    case auth msg => exact writes_handleAuth hT i hN msg nowMs s
    case probe => exact writes_handleProbeRequest hT i s
    case probeReport msg =>
      unfold handleProbeReportFrame
      split
      · exact .refl s
      · exact .modSlot i s fun _ => rfl
    case other => exact .refl s

end

end SlopSync
