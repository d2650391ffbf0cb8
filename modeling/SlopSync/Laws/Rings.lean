import SlopSync.Follows
import SlopSync.Rings

/-! # The rings refine lists

A ring of `depth` slots is a list of which only the last `depth` are kept.

- `Dropping.push_iff`: what one push does, and when;
- `queue_iff`, `log_iff`, `store_iff`: when a run of each ring follows its list;
- `IntentRing.Shows.lookup`: what a ring that does answers to an id. -/

namespace SlopSync.Rings

open Circular Following

/-! ## Lists that forget -/

/-- What is queued, the oldest first, and how many were forgotten to make room. -/
structure Fifo (α : Type) where
  queued : List α := []
  dropped : Nat := 0

namespace Fifo

variable {α : Type}

def push (depth : Nat) (a : α) (t : Fifo α) : Fifo α where
  queued := keepLast depth (t.queued ++ [a])
  dropped := t.dropped + (t.queued.length + 1 - depth)

def pop (t : Fifo α) : Option α × Fifo α := (t.queued.head?, { t with queued := t.queued.drop 1 })

/-- A payload over the capacity changes nothing. -/
def offer (depth capacity : Nat) (payload : Bytes) (a : α) (t : Fifo α) : Bool × Fifo α :=
  if capacity < payload.length then (false, t) else (true, t.push depth a)

/-- There is a slot at all, and 16 and 32 bits hold the length and the count. -/
def Takes (depth capacity : Nat) (payload : Bytes) (t : Fifo α) : Prop :=
  payload.length ≤ capacity →
    0 < depth ∧ payload.length < 2 ^ 16 ∧ t.dropped + (t.queued.length + 1 - depth) < 2 ^ 32

end Fifo

namespace Dropping

variable {σ α : Type} {depth capacity : Nat} {view : σ → α} {q : Dropping σ depth} {t : Fifo α} {payload : Bytes}
  {write : payload.length ≤ capacity → σ → σ} {a seen : α}

structure Shows (view : σ → α) (q : Dropping σ depth) (t : Fifo α) : Prop where
  contents : q.ring.items view = t.queued
  dropped : q.dropped.toNat = t.dropped

theorem Shows.count (h : q.Shows view t) : q.ring.count = t.queued.length := by
  rw [← h.contents, length_items]

/-- The counter of a push. -/
theorem dropped_iff (h : q.Shows view t) :
    (if q.ring.count = depth then q.dropped + 1 else q.dropped).toNat = t.dropped + (t.queued.length + 1 - depth) ↔
      t.dropped + (t.queued.length + 1 - depth) < 2 ^ 32 := by
  have hfits := q.ring.fits
  have hlt : q.dropped.toNat < 2 ^ 32 := q.dropped.toNat_lt
  rw [h.count] at hfits
  rw [← h.dropped, h.count]
  by_cases hfull : t.queued.length = depth
  · simp only [hfull, if_pos, UInt32.toNat_add, UInt32.toNat_one]
    omega
  · simp only [hfull, if_neg, not_false_eq_true]
    omega

theorem push_iff (hwrite : ∀ h s, view (write h s) = seen) (hseen : seen = a ↔ payload.length < 2 ^ 16)
    (h : q.Shows view t) :
    (∃ q', q.push capacity payload write = some ((t.offer depth capacity payload a).1, q') ∧
        q'.Shows view (t.offer depth capacity payload a).2) ↔ t.Takes depth capacity payload := by
  unfold push Fifo.offer Fifo.Takes
  by_cases hcap : capacity < payload.length
  · rw [dif_pos hcap, if_pos hcap]
    exact iff_of_true ⟨q, rfl, h⟩ fun hle => absurd hle (Nat.not_le.mpr hcap)
  rw [dif_neg hcap, if_neg hcap, imp_iff_right (Nat.not_lt.mp hcap)]
  by_cases hpos : 0 < depth
  · rw [dif_pos hpos, and_iff_right hpos]
    have hitems : (q.ring.push (write (Nat.not_lt.mp hcap)) hpos).items view = (t.push depth a).queued ↔
        payload.length < 2 ^ 16 := by
      rw [items_push (hwrite _), h.contents, Fifo.push, keepLast_concat hpos, keepLast_concat hpos]
      simp [hseen]
    constructor
    · rintro ⟨q', heq, hq'⟩
      cases heq
      exact ⟨hitems.mp hq'.contents, (dropped_iff h).mp hq'.dropped⟩
    · rintro ⟨hlen, hcount⟩
      exact ⟨_, rfl, hitems.mpr hlen, (dropped_iff h).mpr hcount⟩
  · rw [dif_neg hpos]
    refine iff_of_false ?_ fun hd => hpos hd.1
    rintro ⟨q', heq, -⟩
    cases heq

end Dropping

/-! ## Queues of events -/

inductive QueueOp
  | push (channelId : UInt16) (payload : Bytes)
  | pop

inductive QueueAnswer
  | pushed (ok : Bool)
  | popped (event : Option (UInt16 × Bytes))

namespace EventQueue

variable {depth slotCapacity : Nat} {q : EventQueue depth slotCapacity} {t : Fifo (UInt16 × Bytes)}

def step (q : EventQueue depth slotCapacity) : QueueOp → Option (QueueAnswer × EventQueue depth slotCapacity)
  | .push channelId payload => (q.push channelId payload).map fun r => (.pushed r.1, r.2)
  | .pop => some (.popped q.pop.1, q.pop.2)

end EventQueue

def queueStep (depth slotCapacity : Nat) (t : Fifo (UInt16 × Bytes)) : QueueOp → QueueAnswer × Fifo (UInt16 × Bytes)
  | .push channelId payload =>
    let r := t.offer depth slotCapacity payload (channelId, payload)
    (.pushed r.1, r.2)
  | .pop => (.popped t.pop.1, t.pop.2)

def QueueTakes (depth slotCapacity : Nat) (t : Fifo (UInt16 × Bytes)) : QueueOp → Prop
  | .push _ payload => t.Takes depth slotCapacity payload
  | .pop => True

section

variable {depth slotCapacity : Nat}

/-- A queue and its list hold the same events and count the same drops. -/
structure QueueShows (q : EventQueue depth slotCapacity) (t : Fifo (UInt16 × Bytes)) : Prop where
  contents : q.contents = t.queued
  dropped : q.dropped.toNat = t.dropped
  atMost : t.queued.length ≤ depth

theorem queueShows_iff {q : EventQueue depth slotCapacity} {t : Fifo (UInt16 × Bytes)} :
    QueueShows q t ↔ q.Shows EventSlot.shown t :=
  ⟨fun h => ⟨h.contents, h.dropped⟩, fun h => ⟨h.contents, h.dropped, h.count ▸ q.ring.fits⟩⟩

theorem EventSlot.shown_write (channelId : UInt16) (payload : Bytes) (h : payload.length ≤ slotCapacity)
    (s : EventSlot slotCapacity) :
    (s.write channelId payload h).shown = (channelId, payload.take (payload.length % 2 ^ 16)) :=
  congrArg (Prod.mk channelId) (Cell.view_copy payload h s.toCell)

theorem EventSlot.shown_write_iff (channelId : UInt16) (payload : Bytes) :
    (channelId, payload.take (payload.length % 2 ^ 16)) = (channelId, payload) ↔ payload.length < 2 ^ 16 := by
  rw [Prod.mk.injEq, and_iff_right rfl, Cell.take_mod_iff]

theorem pop_shows {q : EventQueue depth slotCapacity} {t : Fifo (UInt16 × Bytes)} (h : q.Shows EventSlot.shown t) :
    q.pop.1 = t.pop.1 ∧ q.pop.2.Shows EventSlot.shown t.pop.2 := by
  unfold EventQueue.pop Fifo.pop
  by_cases hpos : 0 < q.ring.count
  · rw [dif_pos hpos, ← h.contents]
    refine ⟨?_, items_dropOldest q.ring hpos, h.dropped⟩
    rw [items_cons q.ring hpos, List.head?_cons]
  · have hnil : t.queued = [] := List.length_eq_zero_iff.mp (by have := h.count; omega)
    rw [dif_neg hpos]
    exact ⟨by rw [hnil]; rfl, by rw [h.contents, hnil]; rfl, h.dropped⟩

theorem queue_iff (ops : List QueueOp) :
    Follows QueueShows EventQueue.step (queueStep depth slotCapacity) (.empty : EventQueue depth slotCapacity) {} ops ↔
      Along (queueStep depth slotCapacity) (QueueTakes depth slotCapacity) {} ops := by
  refine follows_iff (fun q t op h => ?_) ⟨items_empty, rfl, Nat.zero_le _⟩
  rw [queueShows_iff] at h
  cases op with
  | push channelId payload =>
    have hpush := Dropping.push_iff (EventSlot.shown_write channelId payload) (EventSlot.shown_write_iff channelId payload) h
    refine Iff.trans ?_ hpush
    constructor
    · rintro ⟨q', heq, hq'⟩
      obtain ⟨⟨ok, r⟩, hr, heq⟩ := Option.map_eq_some_iff.mp heq
      cases heq
      exact ⟨r, hr, queueShows_iff.mp hq'⟩
    · rintro ⟨q', heq, hq'⟩
      exact ⟨q', Option.map_eq_some_iff.mpr ⟨_, heq, rfl⟩, queueShows_iff.mpr hq'⟩
  | pop =>
    obtain ⟨hanswer, hq'⟩ := pop_shows h
    exact iff_of_true ⟨q.pop.2, by rw [EventQueue.step, hanswer]; rfl, queueShows_iff.mpr hq'⟩ trivial

end

/-! ## The tail of the log -/

inductive LogOp
  | push (payload : Bytes)
  | forEachNewest (want : Nat)

inductive LogAnswer
  | pushed (ok : Bool)
  | visited (n : Nat) (entries : List Bytes)

def EventReplayRing.step {depth slotCapacity : Nat} (r : EventReplayRing depth slotCapacity) :
    LogOp → Option (LogAnswer × EventReplayRing depth slotCapacity)
  | .push payload => (r.push payload).map fun x => (.pushed x.1, x.2)
  | .forEachNewest want => (r.forEachNewest want).map fun x => (.visited x.1 x.2, r)

section

variable {depth slotCapacity : Nat}

structure LogShows (r : EventReplayRing depth slotCapacity) (t : Fifo Bytes) : Prop where
  contents : r.contents = t.queued
  dropped : r.dropped.toNat = t.dropped
  atMost : t.queued.length ≤ depth

theorem logShows_iff {r : EventReplayRing depth slotCapacity} {t : Fifo Bytes} : LogShows r t ↔ r.Shows Cell.view t :=
  ⟨fun h => ⟨h.contents, h.dropped⟩, fun h => ⟨h.contents, h.dropped, h.count ▸ r.ring.fits⟩⟩

def logStep (depth slotCapacity : Nat) (t : Fifo Bytes) : LogOp → LogAnswer × Fifo Bytes
  | .push payload =>
    let r := t.offer depth slotCapacity payload payload
    (.pushed r.1, r.2)
  | .forEachNewest want => (.visited (min want t.queued.length) (keepLast want t.queued), t)

/-- To read it the log needs a slot, be it empty. -/
def LogTakes (depth slotCapacity : Nat) (t : Fifo Bytes) : LogOp → Prop
  | .push payload => t.Takes depth slotCapacity payload
  | .forEachNewest _ => 0 < depth

theorem forEachNewest_shows {r : EventReplayRing depth slotCapacity} {t : Fifo Bytes} (h : r.Shows Cell.view t)
    (hpos : 0 < depth) (want : Nat) :
    r.forEachNewest want = some (min want t.queued.length, keepLast want t.queued) := by
  rw [EventReplayRing.forEachNewest, if_pos hpos, newest_eq, h.contents, h.count]

theorem log_iff (ops : List LogOp) :
    Follows LogShows EventReplayRing.step (logStep depth slotCapacity) (.empty : EventReplayRing depth slotCapacity) {} ops ↔
      Along (logStep depth slotCapacity) (LogTakes depth slotCapacity) {} ops := by
  refine follows_iff (fun r t op h => ?_) (logShows_iff.mpr ⟨items_empty, rfl⟩)
  rw [logShows_iff] at h
  cases op with
  | push payload =>
    refine Iff.trans ?_ (Dropping.push_iff (Cell.view_copy payload) (Cell.take_mod_iff payload) h)
    constructor
    · rintro ⟨r', heq, hr'⟩
      obtain ⟨⟨ok, x⟩, hx, heq⟩ := Option.map_eq_some_iff.mp heq
      cases heq
      exact ⟨x, hx, logShows_iff.mp hr'⟩
    · rintro ⟨r', heq, hr'⟩
      exact ⟨r', Option.map_eq_some_iff.mpr ⟨_, heq, rfl⟩, logShows_iff.mpr hr'⟩
  | forEachNewest want =>
    by_cases hpos : 0 < depth
    · refine iff_of_true ⟨r, ?_, logShows_iff.mpr h⟩ hpos
      rw [EventReplayRing.step, forEachNewest_shows h hpos]
      rfl
    · refine iff_of_false ?_ hpos
      rintro ⟨r', heq, -⟩
      rw [EventReplayRing.step, EventReplayRing.forEachNewest, if_neg hpos] at heq
      cases heq

end

/-! ## The stores of a session -/

inductive StoreOp
  | store (intentId : UInt16) (payload : Bytes)
  | clear

namespace IntentRing

variable {depth slotCapacity : Nat} {r : IntentRing depth slotCapacity} {l : List (UInt16 × Bytes)} {id : UInt16}
  {payload bytes : Bytes}

/-- A `clear` has no answer. -/
def step (r : IntentRing depth slotCapacity) : StoreOp → Option (Option Bool × IntentRing depth slotCapacity)
  | .store intentId payload => (r.store intentId payload).map fun x => (some x.1, x.2)
  | .clear => some (none, r.clear)

/-- The ring holds the stores of the list.  An id is answered with one of its stores, and with nothing when it has
none. -/
structure Shows (r : IntentRing depth slotCapacity) (l : List (UInt16 × Bytes)) : Prop where
  contents : r.contents = l.map (Prod.mk true)
  atMost : l.length ≤ depth
  answers : ∀ id bytes, r.lookup id = some bytes → (id, bytes) ∈ l
  nothing : ∀ id, r.lookup id = none → ∀ bytes, (id, bytes) ∉ l
  only : (l.map Prod.fst).Nodup → ∀ id bytes, (id, bytes) ∈ l → r.lookup id = some bytes

/-- A store is a push. -/
theorem ring_store {r' : IntentRing depth slotCapacity} {ok : Bool} (h : r.store id payload = some (ok, r')) :
    (slotCapacity < payload.length ∧ ok = false ∧ r' = r) ∨
      ∃ (hle : payload.length ≤ slotCapacity) (hpos : 0 < depth), ok = true ∧
        r'.ring = r.ring.push (IntentSlot.write id payload hle) hpos := by
  unfold store at h
  split at h
  · rename_i hcap
    cases h
    exact .inl ⟨hcap, rfl, rfl⟩
  split at h
  · rename_i hcap hpos
    cases h
    refine .inr ⟨Nat.not_lt.mp hcap, hpos, rfl, ?_⟩
    unfold Circular.push
    by_cases hfull : r.count = depth
    · have hnot : ¬r.count < depth := by omega
      rw [dif_pos (show r.ring.count = depth from hfull)]
      simp [ring, put, dropOldest, hfull]
      omega
    · have hlt : r.count < depth := Nat.lt_of_le_of_ne r.fits hfull
      rw [dif_neg (show ¬r.ring.count = depth from hfull)]
      simp [ring, put, hlt]
      intro hlast
      rw [r.starts hlt, show r.count + 1 = depth by omega, Nat.mod_self]
  · cases h

/-- The slots that `lookup` goes through are the stores of the list. -/
theorem mem_slots (h : r.contents = l.map (Prod.mk true)) {x : Bool × UInt16 × Bytes} :
    (∃ s ∈ r.slots.toList.take r.count, s.tagged = x) ↔ x.1 = true ∧ x.2 ∈ l := by
  have hfront : ∀ s, s ∈ r.slots.toList.take r.count ↔ s ∈ r.ring.items id := by
    intro s
    exact r.ring.mem_front fun hlt => if_pos hlt
  have hitems : (∃ s ∈ r.ring.items id, s.tagged = x) ↔ x ∈ r.contents := by
    rw [IntentRing.contents, ← map_items IntentSlot.tagged, List.mem_map]
  simp only [hfront, hitems, h, List.mem_map]
  constructor
  · rintro ⟨y, hy, rfl⟩
    exact ⟨rfl, hy⟩
  · rintro ⟨hused, hx⟩
    exact ⟨x.2, hx, by rw [← hused]⟩

theorem shows_of_contents (h : r.contents = l.map (Prod.mk true)) : r.Shows l := by
  have hanswers : ∀ id bytes, r.lookup id = some bytes → (id, bytes) ∈ l := by
    intro id bytes hlookup
    obtain ⟨s, hfind, rfl⟩ := Option.map_eq_some_iff.mp hlookup
    have hid := List.find?_some hfind
    simp at hid
    have hslot := ((mem_slots h).mp ⟨s, List.mem_of_find?_eq_some hfind, rfl⟩).2
    rw [← hid.2]
    exact hslot
  have hnothing : ∀ id, r.lookup id = none → ∀ bytes, (id, bytes) ∉ l := by
    intro id hlookup bytes hmem
    have hslot : ∃ s ∈ r.slots.toList.take r.count, s.tagged = (true, id, bytes) := (mem_slots h).mpr ⟨rfl, hmem⟩
    obtain ⟨s, hs, htag⟩ := hslot
    have hno := List.find?_eq_none.mp (Option.map_eq_none_iff.mp hlookup) s hs
    have hused : s.used = true := congrArg Prod.fst htag
    have hid : s.intentId = id := congrArg (fun x => x.2.1) htag
    simp [hused, hid] at hno
  refine ⟨h, ?_, hanswers, hnothing, fun hnodup id bytes hmem => ?_⟩
  · have hlen : r.contents.length = l.length := by rw [h, List.length_map]
    rw [← hlen, IntentRing.contents, length_items]
    exact r.fits
  · cases hlookup : r.lookup id with
    | none => exact absurd hmem (hnothing id hlookup bytes)
    | some bytes' =>
      have heq := List.inj_on_of_nodup_map hnodup (hanswers id bytes' hlookup) hmem rfl
      rw [(Prod.mk.inj heq).2]

end IntentRing

section

variable {depth slotCapacity : Nat}

def storeStep (depth slotCapacity : Nat) (l : List (UInt16 × Bytes)) : StoreOp → Option Bool × List (UInt16 × Bytes)
  | .store id payload =>
    if slotCapacity < payload.length then (some false, l) else (some true, keepLast depth (l ++ [(id, payload)]))
  | .clear => (none, [])

def StoreTakes (depth slotCapacity : Nat) (_ : List (UInt16 × Bytes)) : StoreOp → Prop
  | .store _ payload => payload.length ≤ slotCapacity → 0 < depth ∧ payload.length < 2 ^ 16
  | .clear => True

theorem store_contents {r r' : IntentRing depth slotCapacity} {l : List (UInt16 × Bytes)} {id : UInt16} {payload : Bytes}
    (h : r.contents = l.map (Prod.mk true)) (hle : payload.length ≤ slotCapacity) (hpos : 0 < depth)
    (hring : r'.ring = r.ring.push (IntentSlot.write id payload hle) hpos) :
    r'.contents = (keepLast depth (l ++ [(id, payload)])).map (Prod.mk true) ↔ payload.length < 2 ^ 16 := by
  have hwrite : ∀ s, (IntentSlot.write id payload hle s).tagged = (true, id, payload.take (payload.length % 2 ^ 16)) :=
    fun s => congrArg (fun bytes => (true, id, bytes)) (Cell.view_copy payload hle s.toCell)
  have hitems : r.ring.items IntentSlot.tagged = l.map (Prod.mk true) := h
  rw [IntentRing.contents, hring, items_push hwrite, hitems, map_keepLast, List.map_append, keepLast_concat hpos]
  rw [List.map_singleton, keepLast_concat hpos]
  simp
  omega

theorem store_iff (ops : List StoreOp) :
    Follows IntentRing.Shows IntentRing.step (storeStep depth slotCapacity) ({} : IntentRing depth slotCapacity) [] ops ↔
      Along (storeStep depth slotCapacity) (StoreTakes depth slotCapacity) [] ops := by
  refine follows_iff (fun r l op h => ?_) (IntentRing.shows_of_contents rfl)
  cases op with
  | clear => exact iff_of_true ⟨r.clear, rfl, IntentRing.shows_of_contents rfl⟩ trivial
  | store id payload =>
    unfold StoreTakes storeStep IntentRing.step
    dsimp only
    by_cases hcap : slotCapacity < payload.length
    · rw [if_pos hcap, IntentRing.store, dif_pos hcap]
      exact iff_of_true ⟨r, rfl, h⟩ fun hle => absurd hle (Nat.not_le.mpr hcap)
    have hle := Nat.not_lt.mp hcap
    rw [if_neg hcap, imp_iff_right hle]
    by_cases hpos : 0 < depth
    · rw [and_iff_right hpos]
      cases hstore : r.store id payload with
      | none =>
        rw [IntentRing.store, dif_neg hcap, dif_pos hpos] at hstore
        cases hstore
      | some x =>
        obtain ⟨ok, r'⟩ := x
        rcases IntentRing.ring_store hstore with ⟨hcap', -, -⟩ | ⟨_, _, rfl, hring⟩
        · exact absurd hcap' hcap
        · have hcontents := store_contents h.contents hle hpos hring
          constructor
          · rintro ⟨r'', heq, hr''⟩
            cases heq
            exact hcontents.mp hr''.contents
          · exact fun hlen => ⟨r', rfl, IntentRing.shows_of_contents (hcontents.mpr hlen)⟩
    · rw [IntentRing.store, dif_neg hcap, dif_neg hpos]
      refine iff_of_false ?_ fun hd => hpos hd.1
      rintro ⟨r', heq, -⟩
      cases heq

end

/-- **A ring follows its list exactly as long as** there is a slot for what is pushed and for the log to be read, 16 bits
hold the length of a payload and 32 bits hold the count of what was dropped. -/
theorem rings_refine_iff (depth slotCapacity : Nat) :
    (∀ ops, Follows QueueShows EventQueue.step (queueStep depth slotCapacity)
        (.empty : EventQueue depth slotCapacity) {} ops ↔
      Along (queueStep depth slotCapacity) (QueueTakes depth slotCapacity) {} ops) ∧
    (∀ ops, Follows LogShows EventReplayRing.step (logStep depth slotCapacity)
        (.empty : EventReplayRing depth slotCapacity) {} ops ↔
      Along (logStep depth slotCapacity) (LogTakes depth slotCapacity) {} ops) ∧
    ∀ ops, Follows IntentRing.Shows IntentRing.step (storeStep depth slotCapacity)
        ({} : IntentRing depth slotCapacity) [] ops ↔
      Along (storeStep depth slotCapacity) (StoreTakes depth slotCapacity) [] ops :=
  ⟨queue_iff, log_iff, store_iff⟩

/-- A payload of 65536 bytes comes back empty. -/
theorem long_payload_vanishes : ¬Follows QueueShows EventQueue.step (queueStep 1 65536) (.empty : EventQueue 1 65536) {}
    [.push 0x0080 (List.replicate 65536 0)] := by
  intro h
  obtain ⟨htakes, -⟩ := (queue_iff _).mp h
  have hlen : (List.replicate 65536 (0 : UInt8)).length = 65536 := List.length_replicate
  have hshort := (htakes hlen.le).2.1
  rw [hlen] at hshort
  omega

end SlopSync.Rings
