import SlopSync.Hub.Send

/-! # What a send can change

`Emits s s'` is the one thing the rest of the development needs to know about sending: between `s` and `s'` only
event queues moved, and the history grew by writes to transports that were there.  `EmitIo s x` says that the write
`x` was allowed by `s`: an EVENT goes to a ready session and belongs to a channel that was queued or subscribed,
and no STATE frame is among them. -/

namespace SlopSync

open Keyed

section

variable {ε : Type} {w : World ε} {s s' s'' : Sys ε}

def withEvents (q : EventQueue) (sl : Slot) : Slot := { sl with session := { sl.session with events := q } }

/-- The session of the slot takes, or already holds, events of `ch`. -/
def Takes (h : Hub) (i : SlotIdx) (ch : UInt16) : Prop :=
  (∃ e ∈ (h.slots i).session.events.queued, e.channelId = ch) ∨ subscribed h ch i = true

/-- An event of `ch` may go out to the slot's session. -/
structure MayDrain (s : Sys ε) (i : SlotIdx) (ch : UInt16) : Prop where
  ready : (s.session i).ready = true
  takes : Takes s.hub i ch

def EmitIo (s : Sys ε) : Hub × Io → Prop
  | (h, .write i t type ch _ _ _) =>
    (h.slots i).transport = some t ∧ (h.slots i).session.role = (s.session i).role ∧ (h.slots i).session.ready = (s.session i).ready ∧
      type ≠ .state ∧ (type = .event → MayDrain s i ch)
  | (_, .offered _ _ _) => True
  | _ => False

structure Emits (s s' : Sys ε) : Prop where
  hub : s'.hub = { s.hub with slots := s'.hub.slots }
  slot : ∀ i, s'.hub.slots i = withEvents (s'.session i).events (s.hub.slots i)
  queue : ∀ i, ∀ e ∈ (s'.session i).events.queued, Takes s.hub i e.channelId
  trace : ∃ new, s'.trace = new ++ s.trace ∧ ∀ x ∈ new, EmitIo s x

namespace Emits

/-- Sending nothing is a send. -/
protected theorem refl (s : Sys ε) : Emits s s :=
  ⟨rfl, fun _ => rfl, fun _ e he => .inl ⟨e, he, rfl⟩, [], rfl, fun _ h => absurd h List.not_mem_nil⟩

/-- A send leaves the retained payloads alone. -/
theorem retained (h : Emits s s') : s'.hub.retained = s.hub.retained := by rw [h.hub]
theorem ownership (h : Emits s s') : s'.hub.ownership = s.hub.ownership := by rw [h.hub]
theorem pairing (h : Emits s s') : s'.hub.pairing = s.hub.pairing := by rw [h.hub]
theorem safety (h : Emits s s') : s'.hub.safety = s.hub.safety := by rw [h.hub]
theorem cfgGen (h : Emits s s') : s'.hub.cfgGen = s.hub.cfgGen := by rw [h.hub]
theorem clock (h : Emits s s') : s'.hub.monoMs = s.hub.monoMs := by rw [h.hub]

/-- Only the queue of a session changes. -/
theorem session (h : Emits s s') (i : SlotIdx) : ∃ q, s'.session i = { s.session i with events := q } := by
  refine ⟨(s'.session i).events, ?_⟩
  show (s'.hub.slots i).session = _
  rw [h.slot i]
  rfl

/-- A send changes no role. -/
theorem role (h : Emits s s') (i : SlotIdx) : (s'.session i).role = (s.session i).role := by
  obtain ⟨q, hq⟩ := h.session i
  rw [hq]

/-- It makes nobody ready. -/
theorem ready (h : Emits s s') (i : SlotIdx) : (s'.session i).ready = (s.session i).ready := by
  obtain ⟨q, hq⟩ := h.session i
  rw [hq]

/-- It moves no session to another state. -/
theorem state (h : Emits s s') (i : SlotIdx) : (s'.session i).state = (s.session i).state := by
  obtain ⟨q, hq⟩ := h.session i
  rw [hq]

theorem occupied (h : Emits s s') (i : SlotIdx) : (s'.session i).occupied = (s.session i).occupied := by
  unfold HubSession.occupied
  rw [h.state i]

/-- It keeps the session's id. -/
theorem sessionId (h : Emits s s') (i : SlotIdx) : (s'.session i).sessionId = (s.session i).sessionId := by
  obtain ⟨q, hq⟩ := h.session i
  rw [hq]

/-- It keeps the slot's link. -/
theorem transport (h : Emits s s') (i : SlotIdx) : (s'.slot i).transport = (s.slot i).transport := by
  show (s'.hub.slots i).transport = _
  rw [h.slot i]
  rfl

/-- It keeps what a session subscribes to. -/
theorem subscribed_eq (h : Emits s s') (ch : UInt16) (i : SlotIdx) :
    subscribed s'.hub ch i = subscribed s.hub ch i := by
  unfold subscribed
  rw [h.slot i]
  rfl

/-- Nothing new is taken. -/
theorem takes (h : Emits s s') {i : SlotIdx} {ch : UInt16} (ht : Takes s'.hub i ch) : Takes s.hub i ch := by
  rcases ht with ⟨e, he, rfl⟩ | hs
  · exact h.queue i e he
  · exact .inr (by rw [← h.subscribed_eq]; exact hs)

/-- What may be written after a send might have been written before it. -/
theorem emitIo (h : Emits s s') {x : Hub × Io} (hx : EmitIo s' x) : EmitIo s x := by
  obtain ⟨g, io⟩ := x
  cases io with
  | write i t type ch seq payload ok =>
    obtain ⟨ht, hr, hy, hst, hev⟩ := hx
    exact ⟨ht, hr.trans (h.role i), hy.trans (h.ready i), hst,
      fun he => ⟨(h.ready i) ▸ (hev he).ready, h.takes (hev he).takes⟩⟩
  | _ => exact hx

/-- Sends compose. -/
protected theorem trans (h₁ : Emits s s') (h₂ : Emits s' s'') : Emits s s'' := by
  obtain ⟨n₁, ht₁, hn₁⟩ := h₁.trace
  obtain ⟨n₂, ht₂, hn₂⟩ := h₂.trace
  refine ⟨?_, ?_, fun i e he => h₁.takes (h₂.queue i e he), n₂ ++ n₁, ?_, ?_⟩
  · rw [h₂.hub, h₁.hub]
  · intro i
    rw [h₂.slot i, h₁.slot i]
    rfl
  · rw [ht₂, ht₁, List.append_assoc]
  · intro x hx
    rcases List.mem_append.mp hx with hx | hx
    · exact h₁.emitIo (hn₂ x hx)
    · exact hn₁ x hx

/-- A fold of emitting steps emits. -/
theorem foldl {α : Type} {f : Sys ε → α → Sys ε} (hf : ∀ s a, Emits s (f s a)) :
    ∀ (l : List α) (s : Sys ε), Emits s (l.foldl f s)
  | [], s => Emits.refl s
  | a :: l, s => (hf s a).trans (foldl hf l (f s a))

end Emits

theorem emits_env (s : Sys ε) (e : ε) : Emits s { s with env := e } :=
  ⟨rfl, fun _ => rfl, fun _ e he => .inl ⟨e, he, rfl⟩, [], rfl, fun _ h => absurd h List.not_mem_nil⟩

/-- A write that the first state allowed. -/
theorem Emits.log (h : Emits s s') {io : Io} (hio : EmitIo s (s'.hub, io)) : Emits s (s'.log io) := by
  obtain ⟨new, htr, hnew⟩ := h.trace
  refine ⟨h.hub, h.slot, h.queue, (s'.hub, io) :: new, congrArg (List.cons _) htr, ?_⟩
  intro x hx
  rcases List.mem_cons.mp hx with rfl | hx
  · exact hio
  · exact hnew x hx

/-- A change of one queue that takes nothing new. -/
theorem emits_queue {s : Sys ε} {i : SlotIdx} {q : EventQueue} (h : ∀ e ∈ q.queued, Takes s.hub i e.channelId) :
    Emits s (s.modSlot i (withEvents q)) := by
  refine ⟨rfl, ?_, ?_, [], rfl, fun _ h => absurd h List.not_mem_nil⟩
  · intro j
    by_cases hj : j = i
    · subst hj
      simp [withEvents]
    · simp [Sys.slot_modSlot_ne s hj, withEvents]
  · intro j e he
    by_cases hj : j = i
    · subst hj
      exact h e (by simpa [withEvents] using he)
    · simp only [Sys.session, Sys.slot_modSlot_ne s hj] at he
      exact .inl ⟨e, he, rfl⟩

/-! ## The sends -/

/-- A frame sent leaves the hub as it was; only the trace grows. -/
theorem hub_sendFrameTo (i : SlotIdx) (type : FrameType) (ch : UInt16) (payload : Bytes) (seq : UInt16) (s : Sys ε) :
    (sendFrameTo w i type ch payload seq s).2.hub = s.hub := by
  unfold sendFrameTo
  split
  · rfl
  · split <;> rfl

theorem hub_sendNack (i : SlotIdx) (n : NackMsg) (s : Sys ε) : (sendNack w i n s).hub = s.hub := by
  unfold sendNack sendEncoded
  split
  · rfl
  · exact hub_sendFrameTo _ _ _ _ _ s

/-- One frame written on a link that is there; a STATE is no such frame, and an EVENT must be due. -/
theorem Emits.write (h : Emits s s') {i : SlotIdx} {type : FrameType} {ch : UInt16} {payload : Bytes}
    {seq : UInt16} (hlink : (s.slot i).transport.isSome) (hst : type ≠ .state)
    (hev : type = .event → MayDrain s i ch) : Emits s (sendFrameTo w i type ch payload seq s').2 := by
  unfold sendFrameTo
  split
  · rename_i hnone
    rw [← h.transport i, hnone] at hlink
    cases hlink
  · rename_i t ht
    split
    · exact h
    · have hio : ∀ ok, EmitIo s (s'.hub, .write i t type ch seq payload ok) :=
        fun _ => ⟨ht, h.role i, h.ready i, hst, hev⟩
      exact (h.log (hio _)).trans (emits_env _ _)

/-- A frame that is neither STATE nor EVENT, to a transport that is there. -/
theorem emits_sendFrameTo {i : SlotIdx} {type : FrameType} {ch : UInt16} {payload : Bytes} {seq : UInt16}
    {s : Sys ε} (hlink : (s.slot i).transport.isSome) (hst : type ≠ .state) (hev : type ≠ .event) :
    Emits s (sendFrameTo w i type ch payload seq s).2 :=
  (Emits.refl s).write hlink hst (fun h => absurd h hev)

/-- An encoded frame, when it encodes. -/
theorem emits_sendEncoded {i : SlotIdx} {type : FrameType} (payload : Option Bytes) {s : Sys ε}
    (hlink : (s.slot i).transport.isSome) (hst : type ≠ .state) (hev : type ≠ .event) :
    Emits s (sendEncoded w i type payload s) := by
  unfold sendEncoded
  split
  · exact Emits.refl s
  · exact emits_sendFrameTo hlink hst hev

theorem emits_sendNack {i : SlotIdx} (n : NackMsg) {s : Sys ε} (hlink : (s.slot i).transport.isSome) :
    Emits s (sendNack w i n s) :=
  emits_sendEncoded _ hlink (by decide) (by decide)

/-- A GOODBYE goes out where there is a link. -/
theorem emits_sendGoodbye (i : SlotIdx) (code : NackCode) (s : Sys ε) : Emits s (sendGoodbye w i code s) := by
  unfold sendGoodbye
  split
  · rename_i hlink
    exact emits_sendFrameTo (Option.isSome_iff_exists.mpr ⟨_, hlink⟩) (by decide) (by decide)
  · exact Emits.refl s

/-! ## Events -/

/-- What is left of a queue after a pop. -/
def popped (q : EventQueue) : EventQueue :=
  match q.pop with
  | none => q
  | some (_, rest) => rest

/-- What is still queued after a pop was queued before. -/
theorem mem_popped {q : EventQueue} {e : QueuedEvent} (h : e ∈ (popped q).queued) : e ∈ q.queued := by
  unfold popped at h
  split at h
  · exact h
  · rename_i hp
    rw [EventQueue.pop_some hp]
    exact List.mem_cons_of_mem _ h

/-- The event drained was one the first state allowed. -/
theorem Emits.drainOne (h : Emits s s') {i : SlotIdx} {ev : QueuedEvent} (hlink : (s.slot i).transport.isSome)
    (hev : MayDrain s i ev.channelId) : Emits s (drainOne w i s' ev) := by
  have hpop : Emits s' (s'.modSlot i (withEvents (popped (s'.session i).events))) :=
    emits_queue fun e he => .inl ⟨e, mem_popped he, rfl⟩
  exact (h.trans hpop).write hlink (by decide) (fun _ => hev)

/-- Draining a queue writes its events one by one; the induction is on the queue. -/
theorem Emits.drain {i : SlotIdx} (hlink : (s.slot i).transport.isSome) : ∀ (l : List QueuedEvent) {s' : Sys ε},
    Emits s s' → (∀ e ∈ l, MayDrain s i e.channelId) → Emits s (l.foldl (SlopSync.drainOne w i) s')
  | [], _, h, _ => h
  | e :: l, _, h, hl =>
    Emits.drain hlink l (h.drainOne hlink (hl e List.mem_cons_self)) (fun e he => hl e (List.mem_cons_of_mem _ he))

/-- The drain of one session's queue. -/
theorem emits_pumpEventDrain (i : SlotIdx) (s : Sys ε) : Emits s (pumpEventDrain w i s) := by
  unfold pumpEventDrain
  split
  · exact Emits.refl s
  · rename_i h
    rw [Bool.or_eq_true, not_or, Bool.not_eq_true', Bool.not_eq_false, Option.isNone_iff_eq_none] at h
    exact Emits.drain (Option.isSome_iff_ne_none.mpr h.2) _ (Emits.refl s) fun e he => ⟨h.1, .inl ⟨e, he, rfl⟩⟩

/-- Offering an event to a subscribed session queues it. -/
theorem emits_offerEvent {i : SlotIdx} {ch : UInt16} (bytes : Bytes) {s : Sys ε} (hs : subscribed s.hub ch i = true) :
    Emits s (offerEvent i ch s bytes) := by
  have hlog : Emits s (s.log (.offered i ch bytes)) := (Emits.refl s).log trivial
  refine hlog.trans (emits_queue (q := (s.session i).events.push ch bytes) fun e he => ?_)
  rcases EventQueue.mem_push he with he | he
  · exact .inl ⟨e, he, rfl⟩
  · exact .inr (by rw [he]; exact hs)

/-- The tail of a log, offered to a subscriber. -/
theorem emits_replay {i : SlotIdx} {ch : UInt16} (tail : List Bytes) {s : Sys ε} (hs : subscribed s.hub ch i = true) :
    Emits s (tail.foldl (offerEvent i ch) s) := by
  induction tail generalizing s with
  | nil => exact Emits.refl s
  | cons bytes tail ih =>
    have hoffer := emits_offerEvent bytes hs
    refine hoffer.trans (ih ?_)
    rw [hoffer.subscribed_eq]
    exact hs

theorem emits_pushEvent (ch : UInt16) (bytes : Bytes) (s : Sys ε) (i : SlotIdx) :
    Emits s (pushEvent ch bytes s i) := by
  unfold pushEvent
  split
  · rename_i hs
    exact emits_offerEvent bytes hs
  · exact Emits.refl s

theorem emits_drainOccupied (s : Sys ε) (i : SlotIdx) : Emits s (drainOccupied w s i) := by
  unfold drainOccupied
  split
  · exact emits_pumpEventDrain i s
  · exact Emits.refl s

/-- Publishing an event offers it to every subscriber and drains what can be drained. -/
theorem emits_publishEvent (ch : UInt16) (bytes : Bytes) (s : Sys ε) : Emits s (publishEvent w ch bytes s) := by
  unfold publishEvent
  split
  · exact (Emits.foldl (emits_pushEvent ch bytes) allSlots s).trans (Emits.foldl emits_drainOccupied allSlots _)
  · exact Emits.refl s

theorem emits_publishEncoded (ev : EventMsg) (cap : Nat) (s : Sys ε) : Emits s (publishEncoded w ev cap s) := by
  unfold publishEncoded
  split
  · exact Emits.refl s
  · exact emits_publishEvent _ _ s

theorem emits_emitTakeoverEvent (src : UInt8) (sid nowMs : UInt32) (s : Sys ε) :
    Emits s (emitTakeoverEvent w src sid nowMs s) := by
  unfold emitTakeoverEvent
  split
  · exact emits_publishEncoded _ _ s
  · exact Emits.refl s

theorem emits_emitSessionEvent (kind : UInt8) (sid nowMs : UInt32) (s : Sys ε) :
    Emits s (emitSessionEvent w kind sid nowMs s) := by
  unfold emitSessionEvent
  split
  · exact emits_publishEncoded _ _ s
  · exact Emits.refl s

theorem emits_emitPairingEvent (c : Config) (kind : UInt8) (inst name : Bytes) (mode : UInt8) (role : AccessLevel)
    (version : Bytes) (nowMs : UInt32) (s : Sys ε) :
    Emits s (emitPairingEvent w c kind inst name mode role version nowMs s) := by
  unfold emitPairingEvent
  split
  · exact Emits.refl s
  · exact emits_publishEncoded _ _ s

theorem emits_emitWhen (p : Bool) (kind level : UInt8) (nowMs : UInt32) (s : Sys ε) :
    Emits s (emitWhen w p kind level nowMs s) := by
  unfold emitWhen
  split
  · exact emits_publishEncoded _ _ s
  · exact Emits.refl s

theorem emits_emitSafetyEdgeEvents (c : Config) (before : UInt8) (nowMs : UInt32) (s : Sys ε) :
    Emits s (emitSafetyEdgeEvents w c before nowMs s) := by
  unfold emitSafetyEdgeEvents
  split
  · exact Emits.refl s
  · dsimp only
    split
    · exact Emits.refl s
    · exact (((emits_emitWhen _ _ _ _ s).trans (emits_emitWhen _ _ _ _ _)).trans
        (emits_emitWhen _ _ _ _ _)).trans (emits_emitWhen _ _ _ _ _)

end

end SlopSync
