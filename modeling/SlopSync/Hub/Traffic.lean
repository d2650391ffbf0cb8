import SlopSync.Hub.Run
import SlopSync.Labelled

/-! # What the hub sends, one thing at a time

`Traffic` is what the hub sends from: a nonce, an event queue and the push records for each slot, the retained snapshots,
and the history.  `TrafficAct` lists everything that happens to it.  `Writes T N s t` says that `t` came from `s` by such
acts, which wrote only frames of the types `T` and left the slots `N` the nonce of their WELCOME. -/

namespace SlopSync

open Keyed Labelled

/-- Neither a refusal nor a credential. -/
def FrameType.Plain : FrameType → Prop
  | .nack | .pairGrant => False
  | _ => True

/-- The type of the frame that was written. -/
def Io.wrote : Io → Option FrameType
  | .write _ _ type _ _ _ _ => some type
  | _ => none

/-- Neither a frame nor one of the moves inside the hub. -/
def Io.Silent : Io → Prop
  | .write .. | .offered .. | .published .. | .seated .. | .blob .. => False
  | _ => True

def Io.blobStep (i : SlotIdx) : Io → Option BlobStep
  | .blob j step => if j = i then some step else none
  | _ => none

/-- What last happened to the slot's transfer. -/
def lastBlobStep (i : SlotIdx) (trace : List (Hub × Io)) : Option BlobStep := trace.findSome? fun e => e.2.blobStep i

/-! ## Transfers -/

/-- Nothing was sent yet, and there are the chunks that were asked for. -/
structure PendingBlob.Fresh (pb : PendingBlob) : Prop where
  nextIndex : pb.nextIndex = 0
  cursor : pb.cursor = 0
  some_chunk : 0 < chunkCount pb.totalBytes
  named : ∀ l, pb.chunks = some l → ∀ k ∈ l, k.toNat < chunkCount pb.totalBytes

/-- The blob is still the one that was asked for. -/
def PendingBlob.Matches (pb : PendingBlob) : Option (Bytes × UInt16) → Prop
  | some (bytes, generation) => bytes.length = pb.totalBytes ∧ generation = pb.generation
  | none => False

instance (pb : PendingBlob) (view : Option (Bytes × UInt16)) : Decidable (pb.Matches view) := by
  cases view with
  | none => exact isFalse id
  | some v => exact inferInstanceAs (Decidable (v.1.length = pb.totalBytes ∧ v.2 = pb.generation))

/-- The identity in its chunk headers. -/
def PendingBlob.target (pb : PendingBlob) : BlobId := { pb.id with generation := some pb.generation }

/-! ## Lanes -/

/-- The number the slot was last sent of a channel. -/
def lastPushed (rs : List PushRecord) (ch : UInt16) : Option UInt16 :=
  (rs.find? fun r => r.valid && r.channelId == ch).map PushRecord.lastSeq

/-- The place of the channel's record: pushes are noted there, and nothing before it is about the channel. -/
structure Claimed (rs : List PushRecord) (ch : UInt16) (k : Nat) : Prop where
  here : ∃ r, rs[k]? = some r ∧ r.channelId = ch
  first : ∀ j, j < k → ∀ r, rs[j]? = some r → (r.valid && r.channelId == ch) = false

/-- The place, or no place and no record. -/
def Held (rs : List PushRecord) (ch : UInt16) : Option Nat → Prop
  | none => lastPushed rs ch = none
  | some k => Claimed rs ch k

section

variable {rs rs' : List PushRecord} {ch : UInt16} {k : Nat}

/-- A channel without a push record has pushed nothing. -/
theorem lastPushed_none (h : rs.findIdx? (fun r => r.valid && r.channelId == ch) = none) : lastPushed rs ch = none := by
  have hnone : rs.find? (fun r => r.valid && r.channelId == ch) = none := by
    rw [List.findIdx?_eq_none_iff] at h
    rw [List.find?_eq_none]
    intro r hr
    simp [h r hr]
  rw [lastPushed, hnone]
  rfl

/-- A record is found or made; what was pushed does not change. -/
theorem findOrCreate_claims (h : findOrCreatePushRecord rs ch = some (k, rs')) :
    Claimed rs' ch k ∧ lastPushed rs' = lastPushed rs := by
  unfold findOrCreatePushRecord at h
  split at h
  · rename_i k' hk
    cases h
    obtain ⟨hlt, hr, hfirst⟩ := List.findIdx?_eq_some_iff_getElem.mp hk
    rw [Bool.and_eq_true, beq_iff_eq] at hr
    refine ⟨⟨⟨rs[k], List.getElem?_eq_getElem hlt, hr.2⟩, fun j hj r hr => ?_⟩, rfl⟩
    obtain ⟨hj', rfl⟩ := List.getElem?_eq_some_iff.mp hr
    simpa using hfirst j hj
  · rename_i hnone
    split at h
    · rename_i k' hk
      cases h
      obtain ⟨hlt, hinvalid, -⟩ := List.findIdx?_eq_some_iff_getElem.mp hk
      have hall : ∀ r ∈ rs, (r.valid && r.channelId == ch) = false := List.findIdx?_eq_none_iff.mp hnone
      refine ⟨⟨⟨{ rs[k] with channelId := ch, lastSeq := 0 }, ?_, rfl⟩, fun j hj r hr => ?_⟩, ?_⟩
      · rw [List.getElem?_modify_eq, List.getElem?_eq_getElem hlt]
        rfl
      · rw [List.getElem?_modify_ne _ _ (Nat.ne_of_gt hj)] at hr
        exact hall r (List.mem_of_getElem? hr)
      · funext x
        refine map_find?_modify fun r hr => ?_
        obtain ⟨-, rfl⟩ := List.getElem?_eq_some_iff.mp hr
        simp only [Bool.not_eq_true'] at hinvalid
        simp [hinvalid]
    · cases h

/-- A push is noted. -/
theorem Claimed.note (h : Claimed rs ch k) (seq : UInt16) :
    lastPushed (rs.modify k fun r => { r with lastSeq := seq, valid := true }) =
      fun x => if x = ch then some seq else lastPushed rs x := by
  obtain ⟨r, hr, rfl⟩ := h.here
  funext x
  by_cases hx : x = r.channelId
  · subst hx
    rw [if_pos rfl, lastPushed, find?_modify_self hr h.first (by simp)]
    rfl
  · rw [if_neg hx]
    refine map_find?_modify fun r' hr' => ?_
    obtain rfl := Option.some.inj (hr.symm.trans hr')
    have hne : (r.channelId == x) = false := by simpa using Ne.symm hx
    simp [hne]

/-- Counting a shed push says nothing of what was pushed. -/
theorem Claimed.shed (h : Claimed rs ch k) : Claimed (rs.modify k fun r => { r with shedCounter := r.shedCounter + 1 }) ch k := by
  obtain ⟨r, hr, hch⟩ := h.here
  refine ⟨⟨{ r with shedCounter := r.shedCounter + 1 }, ?_, hch⟩, fun j hj r' hr' => ?_⟩
  · rw [List.getElem?_modify_eq, hr]
    rfl
  · rw [List.getElem?_modify_ne _ _ (Nat.ne_of_gt hj)] at hr'
    exact h.first j hj r' hr'

/-- Counting a shed push leaves what was last pushed alone. -/
theorem lastPushed_shed (rs : List PushRecord) (k : Nat) :
    lastPushed (rs.modify k fun r => { r with shedCounter := r.shedCounter + 1 }) = lastPushed rs := by
  funext x
  exact map_find?_modify fun r _ => ⟨rfl, fun _ => rfl⟩

end

/-- What goes to one slot. -/
structure Lane where
  nonce : Nonce
  events : EventQueue := {}
  pushed : UInt16 → Option UInt16 := fun _ => none
  blob : Option PendingBlob := none

def laneOf (sl : Slot) : Lane := ⟨sl.nonce, sl.session.events, lastPushed sl.pushRecords, sl.blob⟩

/-- Only the nonce stays with the slot. -/
def Lane.emptied (l : Lane) : Lane := { nonce := l.nonce }

structure Traffic where
  lanes : SlotIdx → Lane
  retained : RetainedStore
  trace : List (Hub × Io)

namespace Traffic

def setLane (x : Traffic) (i : SlotIdx) (l : Lane) : Traffic :=
  { x with lanes := fun j => if j = i then l else x.lanes j }

def log (x : Traffic) (h : Hub) (io : Io) : Traffic := { x with trace := (h, io) :: x.trace }

/-- The slot's transfer is set. -/
def load (x : Traffic) (i : SlotIdx) (blob : Option PendingBlob) : Traffic := x.setLane i { x.lanes i with blob }

@[simp] theorem setLane_self (x : Traffic) (i : SlotIdx) (l : Lane) : (x.setLane i l).lanes i = l := by
  simp [setLane]

theorem setLane_ne (x : Traffic) {i j : SlotIdx} (h : j ≠ i) (l : Lane) : (x.setLane i l).lanes j = x.lanes j := by
  simp [setLane, h]

theorem setLane_eq {x : Traffic} {i : SlotIdx} {l : Lane} (h : l = x.lanes i) : x.setLane i l = x := by
  refine congrArg (fun lanes => Traffic.mk lanes x.retained x.trace) ?_
  funext j
  by_cases hj : j = i
  · rw [if_pos hj, h, hj]
  · rw [if_neg hj]

/-- Of two writes of one lane the second stands. -/
theorem setLane_setLane (x : Traffic) (i : SlotIdx) (l l' : Lane) : (x.setLane i l).setLane i l' = x.setLane i l' := by
  refine congrArg (fun lanes => Traffic.mk lanes x.retained x.trace) ?_
  funext j
  by_cases hj : j = i
  · rw [if_pos hj, if_pos hj]
  · rw [if_neg hj, if_neg hj]
    exact if_neg hj

/-- Loading the transfer a lane already has changes nothing. -/
theorem load_self {x : Traffic} {i : SlotIdx} {blob : Option PendingBlob} (h : (x.lanes i).blob = blob) :
    x.load i blob = x :=
  setLane_eq (by rw [← h])

/-- Of two loads of one lane the second stands. -/
@[simp] theorem load_load (x : Traffic) (i : SlotIdx) (a b : Option PendingBlob) : (x.load i a).load i b = x.load i b := by
  unfold load
  rw [setLane_self, setLane_setLane]

@[simp] theorem blob_load (x : Traffic) (i : SlotIdx) (blob : Option PendingBlob) :
    ((x.load i blob).lanes i).blob = blob := by
  rw [load, setLane_self]

/-- Loading one lane leaves the others alone. -/
theorem load_ne (x : Traffic) {i j : SlotIdx} (h : j ≠ i) (blob : Option PendingBlob) :
    (x.load i blob).lanes j = x.lanes j :=
  setLane_ne x h _

end Traffic

def Sys.traffic {ε : Type} (s : Sys ε) : Traffic :=
  ⟨fun i => laneOf (s.hub.slots i), s.hub.retained, s.trace⟩

/-! ## The acts -/

inductive Deed
  | note
  | frame (type : FrameType)
  | draw (i : SlotIdx)
  | offer
  | drain
  | push
  | publish
  | seat
  | blob

/-- One act.  An event leaves the queue as it is written; the record of a push follows the write; a chunk goes out in the
tick of its resumption. -/
inductive TrafficAct : Deed → Traffic → Traffic → Prop
  | note {x : Traffic} (h : Hub) {io : Io} (hio : io.Silent) : TrafficAct .note x (x.log h io)
  | frame {x : Traffic} (h : Hub) (i : SlotIdx) (t : TransportId) {type : FrameType} (ch seq : UInt16) (payload : Bytes)
      {ok : Bool} (hevent : type ≠ .event) (hstate : type = .state → ok = false) (hchunk : type ≠ .blobChunk) :
      TrafficAct (.frame type) x (x.log h (.write i t type ch seq payload ok))
  | draw {x : Traffic} (i : SlotIdx) (nonce : Nonce) :
      TrafficAct (.draw i) x (x.setLane i { x.lanes i with nonce })
  | offer {x : Traffic} (h : Hub) (i : SlotIdx) (ch : UInt16) (bytes : Bytes) :
      TrafficAct .offer x
        ((x.setLane i { x.lanes i with events := (x.lanes i).events.push ch bytes }).log h (.offered i ch bytes))
  | drain {x : Traffic} (h : Hub) (i : SlotIdx) (t : TransportId) {ev : QueuedEvent} {rest : EventQueue} (ok : Bool)
      (hpop : (x.lanes i).events.pop = some (ev, rest)) :
      TrafficAct .drain x
        ((x.setLane i { x.lanes i with events := rest }).log h (.write i t .event ev.channelId 0 ev.bytes ok))
  /-- An event that fits no frame is popped all the same. -/
  | discard {x : Traffic} (i : SlotIdx) {ev : QueuedEvent} {rest : EventQueue}
      (hpop : (x.lanes i).events.pop = some (ev, rest)) (hno : encodeFrame .event ev.channelId 0 ev.bytes = none) :
      TrafficAct .drain x (x.setLane i { x.lanes i with events := rest })
  /-- When there is no room for a record, none is kept. -/
  | push {x : Traffic} (h : Hub) (i : SlotIdx) (t : TransportId) {ch : UInt16} {e : RetainedEntry}
      {pushed : UInt16 → Option UInt16} (hret : x.retained.get ch = some e)
      (hch : pushed ch = some e.seq ∨ pushed ch = none) (hother : ∀ x', x' ≠ ch → pushed x' = (x.lanes i).pushed x') :
      TrafficAct .push x
        ((x.setLane i { x.lanes i with pushed }).log h (.write i t .state ch e.seq e.payload true))
  | publish {x : Traffic} (h : Hub) {ch : UInt16} {payload : Bytes} {r : RetainedStore} {seq : UInt16}
      (hpub : x.retained.publish ch payload = some (r, seq)) :
      TrafficAct .publish x ({ x with retained := r }.log h (.published ch))
  | seat {x : Traffic} (h : Hub) (i : SlotIdx) :
      TrafficAct .seat x ((x.setLane i (x.lanes i).emptied).log h (.seated i none))
  | move {x : Traffic} (h : Hub) (i j : SlotIdx) :
      TrafficAct .seat x (((x.setLane j (x.lanes j).emptied).setLane i
        { x.lanes j with nonce := (x.lanes i).nonce, blob := none }).log h (.seated i (some j)))
  | request {x : Traffic} (h : Hub) (i : SlotIdx) {pb : PendingBlob} (hfresh : pb.Fresh) (hseq : pb.reqSeq = h.dispatchSeq)
      (hsome : pb.reqSeq.isSome) :
      TrafficAct .blob x ((x.load i (some pb)).log h (.blob i (.requested pb)))
  | resume {x : Traffic} (h : Hub) (i : SlotIdx) {pb : PendingBlob} {bytes : Bytes} (hblob : (x.lanes i).blob = some pb)
      (hlen : bytes.length = pb.totalBytes) :
      TrafficAct .blob x (x.log h (.blob i (.resumed (some (bytes, pb.generation)))))
  | chunk {x : Traffic} (h : Hub) (i : SlotIdx) (t : TransportId) {pb : PendingBlob} {bytes payload : Bytes} {index : Nat}
      (ok : Bool) (hblob : (x.lanes i).blob = some pb)
      (hview : lastBlobStep i x.trace = some (.resumed (some (bytes, pb.generation))))
      (hlen : bytes.length = pb.totalBytes) (hnext : pb.next (chunkCount bytes.length) = some index)
      (hfill : fillBlobChunk pb.target bytes index = some payload) :
      TrafficAct (.frame .blobChunk) x
        ((x.load i (some (if ok then pb.advance else pb))).log h (.write i t .blobChunk Channels.catalog 0 payload ok))
  | deliver {x : Traffic} (h : Hub) (i : SlotIdx) {pb : PendingBlob} {bytes : Bytes} (hblob : (x.lanes i).blob = some pb)
      (hview : lastBlobStep i x.trace = some (.resumed (some (bytes, pb.generation))))
      (hlen : bytes.length = pb.totalBytes) (hnext : pb.next (chunkCount bytes.length) = none) :
      TrafficAct .blob x ((x.load i none).log h (.blob i (.ended .delivered)))
  /-- A chunk that cannot be cut. -/
  | giveUp {x : Traffic} (h : Hub) (i : SlotIdx) {pb : PendingBlob} {bytes : Bytes} {index : Nat}
      (hblob : (x.lanes i).blob = some pb) (hlen : bytes.length = pb.totalBytes)
      (hnext : pb.next (chunkCount bytes.length) = some index) (hfill : fillBlobChunk pb.target bytes index = none) :
      TrafficAct .blob x ((x.load i none).log h (.blob i (.ended .refused)))
  | turnAway {x : Traffic} (h h' h'' : Hub) (i : SlotIdx) (t : TransportId) {pb : PendingBlob}
      {view : Option (Bytes × UInt16)} {n : NackMsg} {payload : Bytes} (ok : Bool) (hblob : (x.lanes i).blob = some pb)
      (hmoved : ¬pb.Matches view)
      (hnack : encodeNack (stampNack h' { n with intentSeq := pb.reqSeq }) 128 = some payload) :
      TrafficAct (.frame .nack) x
        ((((x.load i none).log h (.blob i (.resumed view))).log h'
          (.write i t .nack 0 0 payload ok)).log h'' (.blob i (.ended .refused)))
  | drop {x : Traffic} (h : Hub) (i : SlotIdx) {pb : PendingBlob} (hblob : (x.lanes i).blob = some pb) :
      TrafficAct .blob x ((x.load i none).log h (.blob i (.ended .dropped)))

/-- The frames are of the types `T`, and the slots `N` draw no nonce. -/
def Deed.Within (T : FrameType → Prop) (N : SlotIdx → Prop) : Deed → Prop
  | .frame type => T type
  | .drain => T .event
  | .push => T .state
  | .draw i => ¬N i
  | .note | .offer | .publish | .seat | .blob => True

def Writes {ε : Type} (T : FrameType → Prop) (N : SlotIdx → Prop) (s t : Sys ε) : Prop :=
  Labelled.Path TrafficAct (Deed.Within T N) s.traffic t.traffic

section

variable {ε : Type} {T : FrameType → Prop} {N : SlotIdx → Prop} {s t u : Sys ε}

/-- A write of a slot is, on the traffic, a write of that slot's lane. -/
theorem traffic_modSlot (i : SlotIdx) (f : Slot → Slot) (s : Sys ε) :
    (s.modSlot i f).traffic = s.traffic.setLane i (laneOf (f (s.slot i))) := by
  refine congrArg (fun lanes => Traffic.mk lanes s.hub.retained s.trace) ?_
  funext j
  show laneOf ((s.modSlot i f).hub.slots j) = if j = i then laneOf (f (s.slot i)) else laneOf (s.hub.slots j)
  by_cases hj : j = i
  · rw [hj, Sys.slot_modSlot_self, if_pos rfl]
  · rw [Sys.slot_modSlot_ne s hj, if_neg hj]

/-- Nothing but the transfer is changed. -/
theorem traffic_modSlot_load (i : SlotIdx) (blob : Option PendingBlob) (s : Sys ε) :
    (s.modSlot i fun sl => { sl with blob }).traffic = s.traffic.load i blob :=
  traffic_modSlot i _ s

/-- A change that keeps the lane. -/
theorem traffic_modSlot_eq (i : SlotIdx) (s : Sys ε) {f : Slot → Slot} (hf : laneOf (f (s.slot i)) = laneOf (s.slot i)) :
    (s.modSlot i f).traffic = s.traffic := by
  rw [traffic_modSlot, hf]
  refine congrArg (fun lanes => Traffic.mk lanes s.hub.retained s.trace) ?_
  funext j
  by_cases hj : j = i
  · rw [if_pos hj, hj]
  · rw [if_neg hj]
    rfl

namespace Writes

protected theorem refl (s : Sys ε) : Writes T N s s := Labelled.Path.refl _

protected theorem trans (h : Writes T N s t) (h' : Writes T N t u) : Writes T N s u := Labelled.Path.trans h h'

/-- A change that sends nothing. -/
theorem same (h : t.traffic = s.traffic) : Writes T N s t := Labelled.Path.of_eq h.symm

/-- First a change of this kind. -/
theorem after (h : Writes T N t u) (ht : t.traffic = s.traffic) : Writes T N s u := (same ht).trans h

/-- A write of a slot that keeps its lane makes no traffic. -/
theorem modSlot (i : SlotIdx) (s : Sys ε) {f : Slot → Slot} (hf : ∀ sl, laneOf (f sl) = laneOf sl) :
    Writes T N s (s.modSlot i f) :=
  same (traffic_modSlot_eq i s (hf _))

/-- A write of a session that keeps its queued events makes no traffic. -/
theorem ofSession (i : SlotIdx) (s : Sys ε) {f : HubSession → HubSession}
    (hf : (f (s.session i)).events = (s.session i).events) : Writes T N s (s.modSession i f) :=
  same (traffic_modSlot_eq i s (congrArg (Lane.mk (s.slot i).nonce · (lastPushed (s.slot i).pushRecords) (s.slot i).blob) hf))

/-- A function on sessions that keeps the queued events makes no traffic. -/
theorem modSession (i : SlotIdx) {f : HubSession → HubSession} (hf : ∀ se, (f se).events = se.events) (s : Sys ε) :
    Writes T N s (s.modSession i f) :=
  ofSession i s (hf _)

/-- Logging what is silent makes no traffic. -/
theorem log (io : Io) (h : io.Silent) (s : Sys ε) : Writes T N s (s.log io) :=
  Labelled.Path.single (l := .note) trivial (.note s.hub h)

/-- A loop whose body makes only such traffic makes only such traffic. -/
theorem foldl {α : Type} {f : Sys ε → α → Sys ε} (hf : ∀ s a, Writes T N s (f s a)) :
    ∀ (l : List α) (s : Sys ε), Writes T N s (l.foldl f s) :=
  Labelled.Path.foldl Sys.traffic hf

/-- A fold that also collects. -/
theorem foldl_acc {α β : Type} {f : β × Sys ε → α → β × Sys ε} (hf : ∀ acc a, Writes T N acc.2 (f acc a).2) :
    ∀ (l : List α) (acc : β × Sys ε), Writes T N acc.2 (l.foldl f acc).2 :=
  Labelled.Path.foldl (fun acc : β × Sys ε => acc.2.traffic) hf

/-! ## What follows of a run -/

/-- The history only grows. -/
theorem grows (h : Writes T N s t) :
    ∃ new, t.trace = new ++ s.trace ∧ ∀ x ∈ new, ∀ type, x.2.wrote = some type → T type := by
  refine Labelled.Path.invariant (I := fun y : Traffic => ∃ new, y.trace = new ++ s.trace ∧
    ∀ x ∈ new, ∀ type, x.2.wrote = some type → T type) h (fun d y z hd ha ⟨new, hnew, hall⟩ => ?_)
    ⟨[], rfl, fun _ h => absurd h List.not_mem_nil⟩
  have hcons : ∀ (x : Hub × Io), z.trace = x :: y.trace → (∀ type, x.2.wrote = some type → T type) →
      ∃ new, z.trace = new ++ s.trace ∧ ∀ x ∈ new, ∀ type, x.2.wrote = some type → T type := by
    intro x hz hx
    refine ⟨x :: new, by rw [hz, hnew, List.cons_append], fun x' hx' type hty => ?_⟩
    rcases List.mem_cons.mp hx' with rfl | hx'
    · exact hx type hty
    · exact hall x' hx' type hty
  cases ha with
  | note hub hio =>
    refine hcons _ rfl fun type hty => ?_
    rename_i io
    cases io with
    | write => exact hio.elim
    | _ => cases hty
  | frame => exact hcons _ rfl fun type hty => Option.some.inj hty ▸ hd
  | drain => exact hcons _ rfl fun type hty => Option.some.inj hty ▸ hd
  | push => exact hcons _ rfl fun type hty => Option.some.inj hty ▸ hd
  | chunk => exact hcons _ rfl fun type hty => Option.some.inj hty ▸ hd
  | draw | discard => exact ⟨new, hnew, hall⟩
  | offer | publish | seat | move | request | resume | deliver | giveUp | drop =>
    exact hcons _ rfl fun type hty => nomatch hty
  | turnAway h h' h'' i t =>
    refine ⟨_ :: _ :: _ :: new, congrArg (_ :: _ :: _ :: ·) hnew, fun x hx type hty => ?_⟩
    simp only [List.mem_cons] at hx
    obtain rfl | rfl | rfl | hx := hx
    · cases hty
    · exact Option.some.inj hty ▸ hd
    · cases hty
    · exact hall x hx type hty

/-- A nonce is drawn for a WELCOME only. -/
theorem nonce (h : Writes T N s t) : ∀ i, N i → (t.slot i).nonce = (s.slot i).nonce := by
  intro i hi
  refine Labelled.Path.frame (f := fun y : Traffic => (y.lanes i).nonce) h fun d y z hd ha => ?_
  have hlane : ∀ (j : SlotIdx) (l : Lane), l.nonce = (y.lanes j).nonce →
      ((y.setLane j l).lanes i).nonce = (y.lanes i).nonce := by
    intro j l hl
    by_cases hij : i = j
    · subst hij
      rw [Traffic.setLane_self, hl]
    · rw [Traffic.setLane_ne y hij]
  cases ha with
  | note | frame | publish | resume => rfl
  | draw j =>
    have hij : i ≠ j := by
      rintro rfl
      exact hd hi
    rw [Traffic.setLane_ne y hij]
  | offer | drain | discard | push | seat | request | chunk | deliver | giveUp | turnAway | drop => exact hlane _ _ rfl
  | move hub k j =>
    show (((y.setLane j (y.lanes j).emptied).setLane k
      { y.lanes j with nonce := (y.lanes k).nonce, blob := none }).lanes i).nonce = (y.lanes i).nonce
    by_cases hik : i = k
    · subst hik
      rw [Traffic.setLane_self]
    · rw [Traffic.setLane_ne _ hik]
      exact hlane j _ rfl

end Writes

end

end SlopSync
