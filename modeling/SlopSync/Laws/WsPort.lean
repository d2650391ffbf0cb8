import SlopSync.SlopBench.WsPort

/-! # Whom the port serves

The threads of the connections and the hub meet in the slots in any order.  As long as no connection comes and goes
between the two looks that `loop` takes at its slot (`World.timely`), each session of the hub is with one connection, which
has the slot to itself: what the hub reads is what this connection sent, in order, but for what found the ring full, and
what the hub writes goes to it alone (`port_serves`).  Otherwise the hub attaches a slot that nobody has
(`attached_nobody`). -/

namespace SlopSync.SlopBench.Ws

/-! ## The invariant -/

/-- The thread is between its open and its close, with a slot. -/
def Phase.Live : Phase → Prop
  | .serving | .pushing .. => True
  | _ => False

def Phase.Gone : Phase → Prop
  | .erasing | .closed => True
  | _ => False

/-- No slot yet, or never. -/
def Phase.Young : Phase → Prop
  | .fresh | .scanning _ | .found _ | .turnedAway => True
  | _ => False

def Phase.Locked : Phase → Prop
  | .scanning _ | .found _ | .erasing => True
  | _ => False

/-- What was sent was read, is queued or was dropped; what was read or is queued kept its order. -/
structure Flow (queue : List Bytes) (c : Conn) : Prop where
  kept : (c.got ++ queue).Sublist c.sent
  count : c.got.length + queue.length + c.dropped = c.sent.length
  out : c.out = c.wrote

/-- What the hub read is what the connection sent, in order, and all of it up to some frame if none found the ring full. -/
structure Delivered (c : Conn) : Prop where
  got : c.got.Sublist c.sent
  front : c.dropped = 0 → c.got <+: c.sent
  out : c.out = c.wrote
  once : c.offered ≤ 1

structure Free {κ : Type} (s : Slot κ) : Prop where
  inUse : s.transport.inUse = false
  ws : s.transport.ws = none
  openEvt : s.transport.openEvt = false
  closeEvt : s.transport.closeEvt = false
  attached : s.attached = false
  session : s.session = none

/-- The slot `i` is that of the connection `k`; the hub may be offering it, or about to reap it. -/
structure Held {κ : Type} (offering reaping : Prop) (i : Fin kSlots) (s : Slot κ) (k : κ) (c : Conn) : Prop where
  inUse : s.transport.inUse = true
  flow : Flow (s.transport.rx.items id) c
  drops : s.transport.rxDrops = UInt32.ofNat c.dropped
  session : s.session = if s.attached then some k else none
  unseen : s.transport.openEvt = true ∨ offering → s.attached = false ∧ c.offered = 0
  offer : offering → s.transport.openEvt = false
  once : c.offered ≤ 1
  peer : s.transport.ws = some k ∧ s.transport.closeEvt = false ∧ c.slotById = some i ∧ c.phase.Live ∨
    s.transport.ws = none ∧ c.phase.Gone ∧ (s.transport.closeEvt = true ∨ reaping)
  met : s.attached = false → s.transport.openEvt = true ∨ offering ∨ c.asked = true ∨ s.transport.ws = none
  reap : reaping → s.attached = false ∧ s.transport.openEvt = false ∧ s.transport.closeEvt = false ∧ s.transport.ws = none

namespace World

variable {κ : Type} (w : World κ)

structure SlotOk (i : Fin kSlots) : Prop where
  free : (w.slots i).owner = none → Free (w.slots i) ∧ w.hubAt ≠ .offer i ∧ w.hubAt ≠ .reap i
  held : ∀ k, (w.slots i).owner = some k → Held (w.hubAt = .offer i) (w.hubAt = .reap i) i (w.slots i) k (w.conns k)

structure Known (k : κ) : Prop where
  locked : (w.conns k).phase.Locked → w.holder = some k
  found : ∀ i, (w.conns k).phase = .found i → (w.slots i).owner = none
  serves : (w.conns k).phase.Live → ∃ i, (w.conns k).slotById = some i ∧ (w.slots i).owner = some k
  pushes : ∀ i data, (w.conns k).phase = .pushing i data → (w.conns k).slotById = some i
  young : (w.conns k).phase.Young →
    w.conns k = { phase := (w.conns k).phase, asked := (w.conns k).asked }
  away : (w.conns k).phase = .turnedAway → (w.conns k).asked = true
  past : Delivered (w.conns k)

/-- **The invariant**: no two slots are those of one connection. -/
structure Good : Prop where
  slots : ∀ i, w.SlotOk i
  conns : ∀ k, w.Known k
  unique : ∀ i j k, (w.slots i).owner = some k → (w.slots j).owner = some k → i = j

end World

/-! ## Steps that leave it -/

section

variable {κ : Type} {w w' : World κ} {i j : Fin kSlots} {k k' : κ} {s : Slot κ} {c : Conn} {x : Option κ} {a : HubAt}

theorem Flow.past {queue : List Bytes} (h : Flow queue c) (honce : c.offered ≤ 1) : Delivered c where
  got := (List.sublist_append_left ..).trans h.kept
  front hdrop := by
    have hlen : (c.got ++ queue).length = c.sent.length := by
      rw [List.length_append, ← h.count, hdrop, Nat.add_zero]
    rw [← h.kept.eq_of_length hlen]
    exact List.prefix_append ..
  out := h.out
  once := honce

theorem Held.alive {p q : Prop} (h : Held p q i s k c) (hlive : c.phase.Live) :
    s.transport.ws = some k ∧ s.transport.closeEvt = false ∧ c.slotById = some i := by
  rcases h.peer with ⟨hws, hclose, hslot, -⟩ | ⟨-, hgone, -⟩
  · exact ⟨hws, hclose, hslot⟩
  · cases hp : c.phase <;> simp [hp, Phase.Live, Phase.Gone] at hlive hgone

theorem Held.peer_eq {p q : Prop} (h : Held p q i s k c) (hws : s.transport.ws = some k') : k' = k := by
  rcases h.peer with ⟨hws', -⟩ | ⟨hws', -⟩
  · exact Option.some.inj (hws.symm.trans hws')
  · rw [hws] at hws'
    cases hws'

theorem Held.old {p q : Prop} (h : Held p q i s k c) : ¬c.phase.Young := by
  intro hyoung
  rcases h.peer with ⟨-, -, -, hlive⟩ | ⟨-, hgone, -⟩
  · cases hp : c.phase <;> simp [hp, Phase.Live, Phase.Young] at hlive hyoung
  · cases hp : c.phase <;> simp [hp, Phase.Gone, Phase.Young] at hgone hyoung

theorem World.SlotOk.frame (h : w.SlotOk j) (hs : w'.slots j = w.slots j)
    (hc : ∀ k, (w.slots j).owner = some k → w'.conns k = w.conns k) (ho : w'.hubAt = .offer j ↔ w.hubAt = .offer j)
    (hr : w'.hubAt = .reap j ↔ w.hubAt = .reap j) : w'.SlotOk j where
  free hnone := by
    rw [hs] at hnone ⊢
    rw [Ne, Ne, ho, hr]
    exact h.free hnone
  held k hk := by
    rw [hs] at hk ⊢
    rw [hc k hk, propext ho, propext hr]
    exact h.held k hk

theorem World.Known.frame (h : w.Known k) (hc : w'.conns k = w.conns k) (hx : w.holder = some k → w'.holder = some k)
    (hown : ∀ i, (w.slots i).owner = some k → (w'.slots i).owner = some k)
    (hfree : ∀ i, (w.conns k).phase = .found i → (w.slots i).owner = none → (w'.slots i).owner = none) : w'.Known k where
  locked hl := hx (h.locked (by rwa [hc] at hl))
  found i hi := by
    rw [hc] at hi
    exact hfree i hi (h.found i hi)
  serves hl := by
    rw [hc] at hl ⊢
    obtain ⟨i, hslot, howner⟩ := h.serves hl
    exact ⟨i, hslot, hown i howner⟩
  pushes i data hi := by
    rw [hc] at hi ⊢
    exact h.pushes i data hi
  young hy := by
    rw [hc] at hy ⊢
    exact h.young hy
  away ha := by
    rw [hc] at ha ⊢
    exact h.away ha
  past := by
    rw [hc]
    exact h.past

/-- The hub is elsewhere in its loop. -/
theorem World.Good.move (h : w.Good) (a : HubAt) (n : UInt32)
    (hat : ∀ j, (a = .offer j ↔ w.hubAt = .offer j) ∧ (a = .reap j ↔ w.hubAt = .reap j)) :
    World.Good { w with hubAt := a, nowMs := n } where
  slots j := (h.slots j).frame rfl (fun _ _ => rfl) (hat j).1 (hat j).2
  conns k := (h.conns k).frame rfl id (fun _ => id) fun _ _ => id
  unique := h.unique

@[simp] theorem setSlot_self : (w.setSlot i s).slots i = s := Function.update_self ..

theorem setSlot_ne (h : j ≠ i) : (w.setSlot i s).slots j = w.slots j := Function.update_of_ne h ..

theorem setSlot_same : w.setSlot i (w.slots i) = w := by
  rw [World.setSlot, Function.update_eq_self]

theorem holder_others (h : w.holder = some k ∨ w.holder = none) (hne : k' ≠ k) : w.holder = some k' → x = some k' := by
  intro hk'
  rcases h with h | h
  · rw [h] at hk'
    exact absurd (Option.some.inj hk').symm hne
  · rw [h] at hk'
    cases hk'

theorem Held.phase {p q : Prop} (h : Held p q i s k c) {ph : Phase} (hlive : c.phase.Live → ph.Live)
    (hgone : c.phase.Gone → ph.Gone) : Held p q i s k { c with phase := ph } :=
  { h with
    flow := ⟨h.flow.kept, h.flow.count, h.flow.out⟩
    peer := h.peer.imp (fun ⟨hws, hclose, hslot, hl⟩ => ⟨hws, hclose, hslot, hlive hl⟩)
      fun ⟨hws, hg, hr⟩ => ⟨hws, hgone hg, hr⟩ }

/-- A connection that has not been set up owns no slot. -/
theorem World.Good.young (h : w.Good) (hy : (w.conns k).phase.Young) (j : Fin kSlots) : (w.slots j).owner ≠ some k :=
  fun hj => ((h.slots j).held k hj).old hy

/-- Closing keeps the hold: the transport hears of it, the connection is to be erased. -/
theorem held_close {p q : Prop} (h : Held p q i s k c) (hlive : c.phase.Live) :
    Held p q i { s with transport := s.transport.onClose } k { c with phase := .erasing } := by
  obtain ⟨hws, -, -⟩ := h.alive hlive
  obtain ⟨hinUse, ⟨hkept, hcount, hout⟩, hdrops, hsession, hunseen, hoffer, honce, hpeer, hmet, hreap⟩ := h
  refine ⟨hinUse, ⟨hkept, hcount, hout⟩, hdrops, hsession, hunseen, hoffer, honce, .inr ⟨rfl, trivial, .inl rfl⟩,
    fun _ => .inr (.inr (.inr rfl)), fun hr => ?_⟩
  rw [(hreap hr).2.2.2] at hws
  cases hws

/-- The frame is not one for a buffer, finds the ring full, or is queued. -/
theorem held_push {p q : Prop} (h : Held p q i s k c) (hlive : c.phase.Live) (data : Bytes) :
    Held p q i { s with transport := s.transport.pushRx data } k
      { c with
        phase := .serving
        sent := c.sent ++ if Transport.takes data then [data] else []
        dropped := c.dropped + if Transport.takes data && s.transport.rx.count == kRxRingDepth then 1 else 0 } := by
  obtain ⟨hinUse, ⟨hkept, hcount, hout⟩, hdrops, hsession, hunseen, hoffer, honce, hpeer, hmet, hreap⟩ := h
  have hgone : ¬c.phase.Gone := fun hg => by cases hp : c.phase <;> simp [hp, Phase.Live, Phase.Gone] at hlive hg
  have hlive' : s.transport.ws = some k ∧ s.transport.closeEvt = false ∧ c.slotById = some i := by
    rcases hpeer with ⟨hws, hclose, hslot, -⟩ | ⟨-, hg, -⟩
    · exact ⟨hws, hclose, hslot⟩
    · exact absurd hg hgone
  unfold Transport.pushRx
  cases htakes : Transport.takes data with
  | false =>
    simp only [if_true, Bool.false_and, Bool.false_eq_true, if_false, List.append_nil, Nat.add_zero]
    exact ⟨hinUse, ⟨hkept, hcount, hout⟩, hdrops, hsession, hunseen, hoffer, honce,
      .inl ⟨hlive'.1, hlive'.2.1, hlive'.2.2, trivial⟩, hmet, hreap⟩
  | true =>
    rw [if_neg (by decide)]
    by_cases hfull : s.transport.rx.count = kRxRingDepth
    · rw [dif_pos hfull]
      simp only [hfull, beq_self_eq_true, Bool.and_self, if_true]
      refine ⟨hinUse, ⟨hkept.trans (List.sublist_append_left _ _), ?_, hout⟩, ?_, hsession, hunseen, hoffer, honce,
        .inl ⟨hlive'.1, hlive'.2.1, hlive'.2.2, trivial⟩, hmet, hreap⟩
      · change c.got.length + (s.transport.rx.items id).length + (c.dropped + 1) = (c.sent ++ [data]).length
        rw [List.length_append, List.length_singleton]
        omega
      · rw [hdrops]
        exact (UInt32.ofNat_add ..).symm
    · rw [dif_neg hfull]
      have hcond : (Transport.takes data && s.transport.rx.count == kRxRingDepth) = false := by simp [hfull]
      have hitems : (s.transport.rx.put (fun _ => data) (Nat.lt_of_le_of_ne s.transport.rx.fits hfull)).items id =
          s.transport.rx.items id ++ [data] := Circular.items_put (fun _ => rfl) _ _
      simp only [if_true, htakes ▸ hcond, Bool.false_eq_true, if_false, Nat.add_zero]
      refine ⟨hinUse, ⟨?_, ?_, hout⟩, hdrops, hsession, hunseen, hoffer, honce,
        .inl ⟨hlive'.1, hlive'.2.1, hlive'.2.2, trivial⟩, hmet, hreap⟩
      · rw [hitems, ← List.append_assoc]
        exact hkept.append (List.Sublist.refl _)
      · simp only [hitems, List.length_append, List.length_singleton]
        omega

/-- A slot in use has an owner. -/
theorem World.Good.owned (h : w.Good) (hnot : ¬Free (w.slots i) ∨ w.hubAt = .offer i ∨ w.hubAt = .reap i) :
    ∃ k, (w.slots i).owner = some k := by
  cases howner : (w.slots i).owner with
  | some k => exact ⟨k, rfl⟩
  | none =>
    obtain ⟨hfree, hoffer, hreap⟩ := (h.slots i).free howner
    rcases hnot with hnot | hnot | hnot
    · exact absurd hfree hnot
    · exact absurd hnot hoffer
    · exact absurd hnot hreap

theorem held_asked {p q : Prop} (h : Held p q i s k c) : Held p q i s k { c with asked := true } :=
  { h with
    flow := ⟨h.flow.kept, h.flow.count, h.flow.out⟩
    met := fun _ => .inr (.inr (.inl rfl)) }

/-- The port's own loop keeps the invariant. -/
theorem good_loop (h : w.Good) (nowMs : UInt32) : (w.loop nowMs).Good := by
  unfold World.loop
  split_ifs with hidle
  · exact h.move _ nowMs fun j => by simp [hidle]
  · exact h

variable [DecidableEq κ]

@[simp] theorem setConn_self : (w.setConn k c).conns k = c := Function.update_self ..

theorem setConn_ne (h : k' ≠ k) : (w.setConn k c).conns k' = w.conns k' := Function.update_of_ne h ..

theorem setConn_same : w.setConn k (w.conns k) = w := by
  rw [World.setConn, Function.update_eq_self]

theorem setConn_twice {c' : Conn} : (w.setConn k c).setConn k c' = w.setConn k c' := by
  rw [World.setConn, World.setConn, World.setConn, Function.update_idem]

theorem mapConn_some (hx : x = some k) (f : Conn → Conn) : w.mapConn x f = w.setConn k (f (w.conns k)) := by
  rw [hx]
  rfl

theorem Delivered.phase (h : Delivered c) {ph : Phase} {b : Bool} {o : Option (Fin kSlots)} :
    Delivered { c with phase := ph, asked := b, slotById := o } :=
  ⟨h.got, h.front, h.out, h.once⟩

/-- A connection does something; its slot, if it has one, is as it was. -/
theorem World.Good.conn (h : w.Good) (hx : ∀ k' ≠ k, w.holder = some k' → x = some k')
    (hheld : ∀ j, (w.slots j).owner = some k → Held (w.hubAt = .offer j) (w.hubAt = .reap j) j (w.slots j) k c)
    (hk : World.Known { w.setConn k c with holder := x } k) : World.Good { w.setConn k c with holder := x } where
  slots j := by
    by_cases hj : (w.slots j).owner = some k
    · refine ⟨fun hnone => ?_, fun k' hk' => ?_⟩
      · rw [show (w.slots j).owner = none from hnone] at hj
        cases hj
      · have hkk : k' = k := Option.some.inj ((show (w.slots j).owner = some k' from hk').symm.trans hj)
        subst hkk
        have := hheld j hj
        simpa [World.setConn] using this
    · refine (h.slots j).frame rfl (fun k' hk' => setConn_ne fun he => hj (he ▸ hk')) Iff.rfl Iff.rfl
  conns k' := by
    by_cases hkk : k' = k
    · subst hkk
      exact hk
    · exact (h.conns k').frame (setConn_ne hkk) (hx k' hkk) (fun _ => id) fun _ _ => id
  unique := h.unique

/-- The slot of a connection changes, and what is known of it. -/
theorem World.Good.serve (h : w.Good) (ho : (w.slots i).owner = some k) (ho' : s.owner = some k)
    (hheld : Held (a = .offer i) (a = .reap i) i s k c) (hpush : ∀ j data, c.phase = .pushing j data → c.slotById = some j)
    (hlock : c.phase.Locked → x = some k) (hx : ∀ k' ≠ k, w.holder = some k' → x = some k')
    (hat : ∀ j ≠ i, (a = .offer j ↔ w.hubAt = .offer j) ∧ (a = .reap j ↔ w.hubAt = .reap j)) :
    World.Good { (w.setSlot i s).setConn k c with holder := x, hubAt := a } := by
  have hslot : ∀ j, ({ (w.setSlot i s).setConn k c with holder := x, hubAt := a } : World κ).slots j =
      if j = i then s else w.slots j := fun j => by
    by_cases hj : j = i
    · subst hj
      rw [if_pos rfl]
      exact setSlot_self
    · rw [if_neg hj]
      exact setSlot_ne hj
  have hconn : ∀ k', ({ (w.setSlot i s).setConn k c with holder := x, hubAt := a } : World κ).conns k' =
      if k' = k then c else w.conns k' := fun k' => by
    by_cases hk : k' = k
    · subst hk
      rw [if_pos rfl]
      exact setConn_self
    · rw [if_neg hk]
      exact setConn_ne hk
  have howner : ∀ j, (({ (w.setSlot i s).setConn k c with holder := x, hubAt := a } : World κ).slots j).owner =
      (w.slots j).owner := fun j => by
    rw [hslot]
    split_ifs with hj
    · rw [hj, ho, ho']
    · rfl
  refine ⟨fun j => ?_, fun k' => ?_, fun j j' k' hj hj' => h.unique j j' k' (howner j ▸ hj) (howner j' ▸ hj')⟩
  · by_cases hj : j = i
    · subst hj
      refine ⟨fun hnone => ?_, fun k' hk' => ?_⟩
      · rw [howner, ho] at hnone
        cases hnone
      · rw [howner, ho] at hk'
        obtain rfl := Option.some.inj hk'
        rw [hslot, hconn, if_pos rfl, if_pos rfl]
        exact hheld
    · refine (h.slots j).frame (by rw [hslot, if_neg hj]) (fun k' hk' => ?_) (hat j hj).1 (hat j hj).2
      rw [hconn, if_neg]
      rintro rfl
      exact hj (h.unique j i k' hk' ho)
  · by_cases hk : k' = k
    · subst hk
      have hnot := hheld.old
      refine ⟨fun hl => ?_, fun j hj => ?_, fun hl => ⟨i, ?_, by rw [howner, ho]⟩, fun j data hj => ?_, fun hy => ?_,
        fun ha => ?_, ?_⟩
      all_goals rw [hconn, if_pos rfl] at *
      · exact hlock hl
      · rw [hj] at hnot
        exact absurd trivial hnot
      · exact (hheld.alive hl).2.2
      · exact hpush j data hj
      · exact absurd hy hnot
      · rw [ha] at hnot
        exact absurd trivial hnot
      · exact hheld.flow.past hheld.once
    · exact (h.conns k').frame (by rw [hconn, if_neg hk]) (hx k' hk) (fun j hj => by rw [howner, hj])
        fun j _ hj => by rw [howner, hj]

/-- So does the hub: the thread of the connection is where it was. -/
theorem World.Good.serveHub (h : w.Good) (ho : (w.slots i).owner = some k) (ho' : s.owner = some k)
    (hheld : Held (a = .offer i) (a = .reap i) i s k c) (hphase : c.phase = (w.conns k).phase)
    (hslot : c.slotById = (w.conns k).slotById)
    (hat : ∀ j ≠ i, (a = .offer j ↔ w.hubAt = .offer j) ∧ (a = .reap j ↔ w.hubAt = .reap j)) :
    World.Good { (w.setSlot i s).setConn k c with hubAt := a } :=
  h.serve (x := w.holder) ho ho' hheld (fun j data hj => hslot.trans ((h.conns k).pushes j data (hphase ▸ hj)))
    (fun hl => (h.conns k).locked (hphase ▸ hl)) (fun _ _ => id) hat

/-- The slot alone. -/
theorem World.Good.serveSlot (h : w.Good) (ho : (w.slots i).owner = some k) (ho' : s.owner = some k)
    (hheld : Held (a = .offer i) (a = .reap i) i s k (w.conns k))
    (hat : ∀ j ≠ i, (a = .offer j ↔ w.hubAt = .offer j) ∧ (a = .reap j ↔ w.hubAt = .reap j)) :
    World.Good { w.setSlot i s with hubAt := a } := by
  have hserve := h.serveHub ho ho' hheld rfl rfl hat
  have hconn : (w.setSlot i s).setConn k (w.conns k) = w.setSlot i s := setConn_same (w := w.setSlot i s)
  rwa [hconn] at hserve

/-! ## The callbacks -/

/-- A connection without a slot looks for one. -/
theorem World.Good.search (h : w.Good) (hyoung : (w.conns k).phase.Young) (hx : ∀ k' ≠ k, w.holder = some k' → x = some k')
    {ph : Phase} {b : Bool} (hph : ph.Young) (hlock : ph.Locked → x = some k)
    (hfound : ∀ i, ph = .found i → (w.slots i).owner = none) (haway : ph = .turnedAway → b = true) :
    World.Good { w.setConn k { w.conns k with phase := ph, asked := b } with holder := x } := by
  have hc := (h.conns k).young hyoung
  refine h.conn hx (fun j hj => absurd hj (h.young hyoung j)) ?_
  refine ⟨fun hl => ?_, fun i hi => ?_, fun hl => ?_, fun i data hi => ?_, fun _ => ?_, fun ha => ?_, ?_⟩
  all_goals simp only [setConn_self] at *
  · exact hlock hl
  · exact hfound i hi
  · cases ph <;> simp [Phase.Live, Phase.Young] at hl hph
  · rw [hi] at hph
    cases hph
  · rw [hc]
  · exact haway ha
  · exact (h.conns k).past.phase

/-- A connection that opens keeps the invariant. -/
theorem good_connect (h : w.Good) (k : κ) : (w.connect k).Good := by
  unfold World.connect
  split_ifs with hopen
  · obtain ⟨hfresh, hnone⟩ := hopen
    exact h.search (by rw [hfresh]; trivial) (fun k' _ hk' => by rw [hnone] at hk'; cases hk') trivial (fun _ => rfl)
      (fun i hi => by cases hi) fun ha => by cases ha
  · exact h

/-- A scan for a free slot keeps the invariant. -/
theorem good_scan (h : w.Good) (k : κ) : (w.scan k).Good := by
  unfold World.scan
  split
  · rename_i n hscan
    have hyoung : (w.conns k).phase.Young := by rw [hscan]; trivial
    have hholder := (h.conns k).locked (by rw [hscan]; trivial)
    by_cases hn : n < kSlots
    · rw [dif_pos hn]
      refine h.search (x := w.holder) hyoung (fun _ _ => id) ?_ (fun _ => hholder) (fun i hi => ?_) fun ha => ?_
      · split <;> trivial
      · split at hi
        · cases hi
        · rename_i huse
          obtain rfl := Phase.found.inj hi
          cases howner : (w.slots ⟨n, hn⟩).owner with
          | none => rfl
          | some k' => exact absurd ((h.slots _).held k' howner).inUse huse
      · split at ha <;> cases ha
    · rw [dif_neg hn]
      exact h.search hyoung (fun k' hne => holder_others (.inl hholder) hne) trivial (fun hl => by cases hl)
        (fun i hi => by cases hi) fun _ => rfl
  · exact h

/-- **A slot is taken** under the lock that its finder still has. -/
theorem good_accept (h : w.Good) (k : κ) : (w.accept k).Good := by
  unfold World.accept
  split
  · rename_i i hfound
    have hyoung : (w.conns k).phase.Young := by rw [hfound]; trivial
    have hholder := (h.conns k).locked (by rw [hfound]; trivial)
    have hnone := (h.conns k).found i hfound
    obtain ⟨hfree, hoffer, hreap⟩ := (h.slots i).free hnone
    have hc := (h.conns k).young hyoung
    set t : Transport κ := (w.slots i).transport.onOpen k with ht
    set s : Slot κ := { w.slots i with transport := t, owner := some k } with hs
    set c : Conn := { w.conns k with phase := .serving, slotById := some i } with hc'
    have hitems : t.rx.items id = ([] : List Bytes) :=
      List.eq_nil_of_length_eq_zero (by rw [Circular.length_items, ht]; rfl)
    have hheld : Held (w.hubAt = .offer i) (w.hubAt = .reap i) i s k c := by
      have hcc : c = { phase := .serving, slotById := some i, asked := (w.conns k).asked } := by rw [hc', hc]
      rw [hcc]
      exact ⟨rfl, ⟨by rw [hitems]; exact List.Sublist.refl _, by rw [hitems]; rfl, rfl⟩, rfl,
        by simp only [hs, hfree.attached, hfree.session]; rfl, fun _ => ⟨hfree.attached, rfl⟩, fun ho => absurd ho hoffer,
        Nat.zero_le _, .inl ⟨rfl, rfl, rfl, trivial⟩, fun _ => .inl rfl, fun hr => absurd hr hreap⟩
    have hslot : ({ (w.setSlot i s).setConn k c with holder := none } : World κ).slots i = s := setSlot_self
    have hconn : ({ (w.setSlot i s).setConn k c with holder := none } : World κ).conns k = c := setConn_self
    refine ⟨fun j => ?_, fun k' => ?_, fun j j' k' hj hj' => ?_⟩
    · by_cases hj : j = i
      · subst hj
        refine ⟨fun hno => ?_, fun k' hk' => ?_⟩
        · rw [hslot] at hno
          cases hno
        · rw [hslot] at hk' ⊢
          obtain rfl := Option.some.inj hk'
          rw [hconn]
          exact hheld
      · refine (h.slots j).frame (setSlot_ne hj) (fun k' hk' => setConn_ne ?_) Iff.rfl Iff.rfl
        rintro rfl
        exact h.young hyoung j hk'
    · by_cases hk : k' = k
      · subst hk
        refine ⟨fun hl => ?_, fun j hj => ?_, fun _ => ⟨i, by rw [hconn], congrArg Slot.owner hslot⟩, fun j data hj => ?_,
          fun hy => ?_, fun ha => ?_, ?_⟩
        all_goals rw [hconn] at *
        · cases hl
        · cases hj
        · cases hj
        · cases hy
        · cases ha
        · exact hheld.flow.past hheld.once
      · refine (h.conns k').frame (setConn_ne hk) (holder_others (.inl hholder) hk) (fun j hj => ?_) fun j hj _ => ?_
        · have hne : j ≠ i := by
            rintro rfl
            rw [hnone] at hj
            cases hj
          exact (congrArg Slot.owner (setSlot_ne hne)).trans hj
        · have hlock := (h.conns k').locked (by rw [hj]; trivial)
          rw [hholder] at hlock
          exact absurd (Option.some.inj hlock).symm hk
    · have howner : ∀ l, (({ (w.setSlot i s).setConn k c with holder := none } : World κ).slots l).owner = some k' →
          l = i ∧ k' = k ∨ l ≠ i ∧ (w.slots l).owner = some k' := fun l hl => by
        by_cases hli : l = i
        · subst hli
          rw [hslot] at hl
          exact .inl ⟨rfl, (Option.some.inj hl).symm⟩
        · exact .inr ⟨hli, (congrArg Slot.owner (setSlot_ne hli)).symm.trans hl⟩
      rcases howner j hj with ⟨rfl, hk⟩ | ⟨-, hold⟩ <;> rcases howner j' hj' with ⟨rfl, hk'⟩ | ⟨-, hold'⟩
      · rfl
      · exact absurd (hk ▸ hold') (h.young hyoung j')
      · exact absurd (hk' ▸ hold) (h.young hyoung j)
      · exact h.unique j j' k' hold hold'
  · exact h

/-- A message that comes in keeps the invariant. -/
theorem good_receive (h : w.Good) (k : κ) (data : Bytes) : (w.receive k data).Good := by
  unfold World.receive
  split_ifs with hready
  · obtain ⟨hserving, hnone⟩ := hready
    obtain ⟨i, hslot, howner⟩ := (h.conns k).serves (by rw [hserving]; trivial)
    rw [hslot]
    have hlive : (w.conns k).phase.Live := by rw [hserving]; trivial
    refine h.conn (x := w.holder) (fun _ _ => id) (fun j hj => ((h.slots j).held k hj).phase (fun _ => trivial) ?_) ?_
    · rw [hserving]
      exact False.elim
    · refine ⟨fun hl => ?_, fun j hj => ?_, fun _ => ⟨i, ?_, howner⟩, fun j d hj => ?_, fun hy => ?_, fun ha => ?_, ?_⟩
      all_goals simp only [setConn_self] at *
      · cases hl
      · cases hj
      · exact hslot
      · obtain ⟨rfl, -⟩ := Phase.pushing.inj hj
        exact hslot
      · cases hy
      · cases ha
      · exact (h.conns k).past.phase
  · exact h

/-- The delivery of a message keeps the invariant. -/
theorem good_push (h : w.Good) (k : κ) : (w.push k).Good := by
  unfold World.push
  split
  · rename_i i data hpushing
    have hlive : (w.conns k).phase.Live := by rw [hpushing]; trivial
    have hslot := (h.conns k).pushes i data hpushing
    obtain ⟨i', hslot', howner⟩ := (h.conns k).serves hlive
    rw [hslot] at hslot'
    obtain rfl := Option.some.inj hslot'
    exact h.serve (x := w.holder) (a := w.hubAt) howner howner (held_push ((h.slots i).held k howner) hlive data)
      (fun j d hj => by cases hj) (fun hl => by cases hl) (fun _ _ => id) fun _ _ => ⟨Iff.rfl, Iff.rfl⟩
  · exact h

/-- A connection that closes keeps the invariant. -/
theorem good_disconnect (h : w.Good) (k : κ) : (w.disconnect k).Good := by
  unfold World.disconnect
  split_ifs with hready
  · obtain ⟨hphase, hnone⟩ := hready
    rcases hphase with hserving | haway
    · have hlive : (w.conns k).phase.Live := by rw [hserving]; trivial
      obtain ⟨i, hslot, howner⟩ := (h.conns k).serves hlive
      split
      · rename_i i' hslot'
        obtain rfl := Option.some.inj (hslot.symm.trans hslot')
        exact h.serve (a := w.hubAt) howner howner (held_close ((h.slots i).held k howner) hlive)
          (fun j d hj => by cases hj) (fun _ => rfl) (fun k' _ hk' => by rw [hnone] at hk'; cases hk')
          fun _ _ => ⟨Iff.rfl, Iff.rfl⟩
      · rename_i hslot'
        rw [hslot] at hslot'
        cases hslot'
    · have hyoung : (w.conns k).phase.Young := by rw [haway]; trivial
      have hslot : (w.conns k).slotById = none := by rw [(h.conns k).young hyoung]
      rw [hslot]
      refine h.conn (x := w.holder) (fun _ _ => id) (fun j hj => absurd hj (h.young hyoung j)) ?_
      refine ⟨fun hl => ?_, fun j hj => ?_, fun hl => ?_, fun j d hj => ?_, fun hy => ?_, fun ha => ?_, ?_⟩
      all_goals simp only [setConn_self] at *
      · cases hl
      · cases hj
      · cases hl
      · cases hj
      · cases hy
      · cases ha
      · exact (h.conns k).past.phase
  · exact h

/-- The removal of a connection keeps the invariant. -/
theorem good_erase (h : w.Good) (k : κ) : (w.erase k).Good := by
  unfold World.erase
  split_ifs with herasing
  · have hholder := (h.conns k).locked (by rw [herasing]; trivial)
    refine h.conn (fun k' hne => holder_others (.inl hholder) hne) (fun j hj => ?_) ?_
    · have hheld := (h.slots j).held k hj
      refine { hheld with flow := ⟨hheld.flow.kept, hheld.flow.count, hheld.flow.out⟩, peer := .inr ?_ }
      rcases hheld.peer with ⟨-, -, -, hlive⟩ | ⟨hws, -, hr⟩
      · rw [herasing] at hlive
        cases hlive
      · exact ⟨hws, trivial, hr⟩
    · refine ⟨fun hl => ?_, fun j hj => ?_, fun hl => ?_, fun j d hj => ?_, fun hy => ?_, fun ha => ?_, ?_⟩
      all_goals simp only [setConn_self] at *
      · cases hl
      · cases hj
      · cases hl
      · cases hj
      · cases hy
      · cases ha
      · exact (h.conns k).past.phase
  · exact h

/-! ## The hub -/

/-- `close` is asked of the connection that has the slot, or of none. -/
theorem good_requestClose (h : w.Good) (i : Fin kSlots) : (w.requestClose i).Good := by
  unfold World.requestClose World.mapConn
  cases hws : (w.slots i).transport.ws with
  | none => exact h
  | some k =>
    obtain ⟨k', howner⟩ := h.owned (i := i) (.inl fun hfree => by rw [hfree.ws] at hws; cases hws)
    have hheld := (h.slots i).held k' howner
    obtain rfl := hheld.peer_eq hws
    have hserve := h.serveHub (a := w.hubAt) howner howner (held_asked hheld) rfl rfl fun _ _ => ⟨Iff.rfl, Iff.rfl⟩
    rw [setSlot_same] at hserve
    exact hserve

/-- Whether it was opened is looked at. -/
theorem good_openEvent (h : w.Good) (hat : w.hubAt = .openEvent i) (admits : Bool) : (w.hub admits).Good := by
  unfold World.hub World.setTransport
  rw [hat]
  cases hopen : (w.slots i).transport.openEvt with
  | false =>
    have hsame : (w.slots i).transport.consumeOpenEvent = (false, (w.slots i).transport) := by
      rw [Transport.consumeOpenEvent, hopen]
      congr 1
      rw [← hopen]
    simp only [hsame, Bool.false_eq_true, if_false]
    have hslot : w.setSlot i { w.slots i with transport := (w.slots i).transport } = w := setSlot_same
    rw [hslot]
    exact h.move _ w.nowMs fun j => by simp [hat]
  | true =>
    obtain ⟨k, howner⟩ := h.owned (i := i) (.inl fun hfree => by rw [hfree.openEvt] at hopen; cases hopen)
    have hheld := (h.slots i).held k howner
    obtain ⟨hdetached, hnever⟩ := hheld.unseen (.inl hopen)
    have hpair : (w.slots i).transport.consumeOpenEvent = (true, { (w.slots i).transport with openEvt := false }) := by
      rw [Transport.consumeOpenEvent, hopen]
    simp only [hpair, if_true]
    have hnew : Held (HubAt.offer i = .offer i) (HubAt.offer i = .reap i) i
        { w.slots i with transport := { (w.slots i).transport with openEvt := false } } k (w.conns k) :=
      { hheld with
        unseen := fun _ => ⟨hdetached, hnever⟩
        offer := fun _ => rfl
        peer := hheld.peer.imp id fun ⟨hws, hgone, hr⟩ => ⟨hws, hgone, hr.imp id fun hr => by rw [hat] at hr; cases hr⟩
        met := fun _ => .inr (.inl rfl)
        reap := fun hr => by cases hr }
    exact h.serveSlot howner howner hnew fun j hj => by simp [hat, Ne.symm hj]

/-- It is attached, or asked to close. -/
theorem good_offer (h : w.Good) (hat : w.hubAt = .offer i) (admits : Bool) : (w.hub admits).Good := by
  obtain ⟨k, howner⟩ := h.owned (i := i) (.inr (.inl hat))
  have hheld := (h.slots i).held k howner
  obtain ⟨hdetached, hnever⟩ := hheld.unseen (.inr hat)
  have hseen := hheld.offer hat
  have hpeer : ∀ c : Conn, c.phase = (w.conns k).phase → c.slotById = (w.conns k).slotById →
      (w.slots i).transport.ws = some k ∧ (w.slots i).transport.closeEvt = false ∧ c.slotById = some i ∧ c.phase.Live ∨
        (w.slots i).transport.ws = none ∧ c.phase.Gone ∧
          ((w.slots i).transport.closeEvt = true ∨ HubAt.closeEvent i = .reap i) := fun c hp hs => by
    rw [hp, hs]
    exact hheld.peer.imp id fun ⟨hws, hgone, hr⟩ => ⟨hws, hgone, hr.imp id fun hr => by rw [hat] at hr; cases hr⟩
  have hwhere : ∀ j ≠ i, (HubAt.closeEvent i = .offer j ↔ w.hubAt = .offer j) ∧
      (HubAt.closeEvent i = .reap j ↔ w.hubAt = .reap j) := fun j hj => by simp [hat, Ne.symm hj]
  have hunseen : (w.slots i).transport.openEvt = true ∨ HubAt.closeEvent i = .offer i → False := fun ho => by
    rcases ho with ho | ho
    · exact absurd (hseen.symm.trans ho) Bool.false_ne_true
    · cases ho
  unfold World.hub
  rw [hat]
  simp only [howner, World.mapConn, Option.elim]
  cases admits with
  | true =>
    rw [if_pos rfl]
    have hnew : Held (HubAt.closeEvent i = .offer i) (HubAt.closeEvent i = .reap i) i
        { w.slots i with attached := true, session := (w.slots i).owner } k
        { w.conns k with offered := (w.conns k).offered + 1 } :=
      ⟨hheld.inUse, ⟨hheld.flow.kept, hheld.flow.count, hheld.flow.out⟩, hheld.drops, howner, fun ho => (hunseen ho).elim,
        fun _ => hseen, Nat.succ_le_of_lt (by rw [hnever]; exact Nat.one_pos), hpeer _ rfl rfl, fun ha => (by cases ha),
        fun hr => (by cases hr)⟩
    exact h.serveHub howner howner hnew rfl rfl hwhere
  | false =>
    have hnew : ∀ a : Bool, a = true ∨ (w.slots i).transport.ws = none →
        Held (HubAt.closeEvent i = .offer i) (HubAt.closeEvent i = .reap i) i (w.slots i) k
          { w.conns k with offered := (w.conns k).offered + 1, asked := a } := fun a ha =>
      ⟨hheld.inUse, ⟨hheld.flow.kept, hheld.flow.count, hheld.flow.out⟩, hheld.drops, hheld.session,
        fun ho => (hunseen ho).elim, fun _ => hseen, Nat.succ_le_of_lt (by rw [hnever]; exact Nat.one_pos),
        hpeer _ rfl rfl, fun _ => .inr (.inr ha), fun hr => (by cases hr)⟩
    have hslots : ∀ c : Conn, (w.setConn k c).slots i = w.slots i := fun _ => rfl
    have hsame : ∀ c : Conn, (w.setSlot i (w.slots i)).setConn k c = w.setConn k c := fun c => by rw [setSlot_same]
    simp only [Bool.false_eq_true, if_false, World.requestClose, World.mapConn, hslots]
    cases hws : (w.slots i).transport.ws with
    | none =>
      have hgood := h.serveHub howner howner (hnew (w.conns k).asked (.inr hws)) rfl rfl hwhere
      rw [hsame] at hgood
      exact hgood
    | some k₁ =>
      obtain rfl := hheld.peer_eq hws
      have hgood := h.serveHub howner howner (hnew true (.inl rfl)) rfl rfl hwhere
      rw [hsame] at hgood
      simp only [Option.elim]
      have hconn : ({ w.setConn k₁ { w.conns k₁ with offered := (w.conns k₁).offered + 1 } with hubAt := .closeEvent i } :
          World κ).conns k₁ = { w.conns k₁ with offered := (w.conns k₁).offered + 1 } := setConn_self
      rw [hconn]
      have heq : World.setConn ({ w.setConn k₁ { w.conns k₁ with offered := (w.conns k₁).offered + 1 } with
            hubAt := .closeEvent i } : World κ) k₁
          { w.conns k₁ with offered := (w.conns k₁).offered + 1, asked := true } =
          { (w.setConn k₁ { w.conns k₁ with offered := (w.conns k₁).offered + 1 }).setConn k₁
            { w.conns k₁ with offered := (w.conns k₁).offered + 1, asked := true } with hubAt := .closeEvent i } := rfl
      rw [heq, setConn_twice]
      exact hgood

/-- It is detached when it was closed. -/
theorem good_closeEvent (h : w.Good) (hat : w.hubAt = .closeEvent i) (admits : Bool)
    (htimely : (w.slots i).transport.closeEvt = true → (w.slots i).transport.openEvt = false) : (w.hub admits).Good := by
  unfold World.hub
  rw [hat]
  cases hclose : (w.slots i).transport.closeEvt with
  | false =>
    have hpair : (w.slots i).transport.consumeCloseEvent.1 = false := hclose
    simp only [hpair, Bool.false_eq_true, if_false]
    exact h.move _ w.nowMs fun j => by simp [hat]
  | true =>
    obtain ⟨k, howner⟩ := h.owned (i := i) (.inl fun hfree => by rw [hfree.closeEvt] at hclose; cases hclose)
    have hheld := (h.slots i).held k howner
    have hpair : (w.slots i).transport.consumeCloseEvent = (true, { (w.slots i).transport with closeEvt := false }) := by
      rw [Transport.consumeCloseEvent, hclose]
    have hgone : (w.slots i).transport.ws = none ∧ (w.conns k).phase.Gone := by
      rcases hheld.peer with ⟨-, hno, -⟩ | ⟨hws, hgone, -⟩
      · rw [hclose] at hno
        cases hno
      · exact ⟨hws, hgone⟩
    simp only [hpair, if_true]
    have hnew : Held (HubAt.reap i = .offer i) (HubAt.reap i = .reap i) i
        { w.slots i with
          transport := { (w.slots i).transport with closeEvt := false }, attached := false, session := none } k
        (w.conns k) :=
      { hheld with
        session := rfl
        unseen := fun ho => by
          rcases ho with ho | ho
          · exact absurd ((htimely hclose).symm.trans ho) Bool.false_ne_true
          · cases ho
        offer := fun ho => by cases ho
        peer := .inr ⟨hgone.1, hgone.2, .inr rfl⟩
        met := fun _ => .inr (.inr (.inr hgone.1))
        reap := fun _ => ⟨rfl, htimely hclose, rfl, hgone.1⟩ }
    exact h.serveSlot howner howner hnew fun j hj => by simp [hat, Ne.symm hj]

/-- **A slot is free again**, and nothing is left in it. -/
theorem good_reap (h : w.Good) (hat : w.hubAt = .reap i) (admits : Bool) : (w.hub admits).Good := by
  obtain ⟨k, howner⟩ := h.owned (i := i) (.inr (.inr hat))
  have hheld := (h.slots i).held k howner
  obtain ⟨hdetached, hopen, hclose, hws⟩ := hheld.reap hat
  unfold World.hub
  rw [hat]
  dsimp only
  set s : Slot κ := { w.slots i with transport := (w.slots i).transport.reap, owner := none } with hs
  have hself : ({ w.setSlot i s with hubAt := .stall i } : World κ).slots i = s := setSlot_self
  have hother : ∀ j, j ≠ i → ({ w.setSlot i s with hubAt := .stall i } : World κ).slots j = w.slots j := fun j hj =>
    setSlot_ne hj
  have howners : ∀ j k', (({ w.setSlot i s with hubAt := .stall i } : World κ).slots j).owner = some k' →
      (w.slots j).owner = some k' := fun j k' hj => by
    by_cases hji : j = i
    · subst hji
      rw [hself] at hj
      cases hj
    · rwa [hother j hji] at hj
  have hgone : (w.conns k).phase.Gone := by
    rcases hheld.peer with ⟨hws', -⟩ | ⟨-, hgone, -⟩
    · rw [hws] at hws'
      cases hws'
    · exact hgone
  refine ⟨fun j => ?_, fun k' => ?_, fun j j' k' hj hj' => h.unique j j' k' (howners j k' hj) (howners j' k' hj')⟩
  · by_cases hji : j = i
    · subst hji
      refine ⟨fun _ => ?_, fun k' hk' => ?_⟩
      · rw [hself]
        exact ⟨⟨rfl, hws, hopen, hclose, hdetached, by simpa [hdetached] using hheld.session⟩, fun ho => (by cases ho),
          fun hr => (by cases hr)⟩
      · rw [hself] at hk'
        cases hk'
    · exact (h.slots j).frame (hother j hji) (fun _ _ => rfl) (by simp [hat]) (by simp [hat, Ne.symm hji])
  · by_cases hkk : k' = k
    · subst hkk
      have hk := h.conns k'
      have hlive : ¬(w.conns k').phase.Live := fun hl => by
        cases hp : (w.conns k').phase <;> simp [hp, Phase.Live, Phase.Gone] at hl hgone
      have hfound : ∀ j, (w.conns k').phase ≠ .found j := fun j hj => by
        rw [hj] at hgone
        cases hgone
      exact ⟨hk.locked, fun j hj => absurd hj (hfound j), fun hl => absurd hl hlive, hk.pushes, hk.young, hk.away, hk.past⟩
    · refine (h.conns k').frame rfl id (fun j hj => ?_) fun j _ hj => ?_
      · have hji : j ≠ i := by
          rintro rfl
          rw [howner] at hj
          exact hkk (Option.some.inj hj).symm
        rw [hother j hji]
        exact hj
      · by_cases hji : j = i
        · subst hji
          rw [hself]
        · rw [hother j hji]
          exact hj

/-- A stalled transport keeps it, whether the hub takes the link or not. -/
theorem good_stall (h : w.Good) (hat : w.hubAt = .stall i) (admits : Bool) : (w.hub admits).Good := by
  have hmove : World.Good { w with hubAt := World.next i } := h.move _ w.nowMs fun j => by
    unfold World.next
    split <;> simp [hat]
  unfold World.hub
  rw [hat]
  dsimp only
  split_ifs
  · exact good_requestClose hmove i
  · exact hmove

/-- What is read is the oldest frame of the connection that has the slot. -/
theorem good_read (h : w.Good) (i : Fin kSlots) : (w.read i).Good := by
  unfold World.read
  split_ifs with hattached
  · obtain ⟨k, howner⟩ := h.owned (i := i) (.inl fun hfree => by rw [hfree.attached] at hattached; cases hattached)
    have hheld := (h.slots i).held k howner
    have hsession : (w.slots i).session = some k := by rw [hheld.session, if_pos hattached]
    have hnew : Held (w.hubAt = .offer i) (w.hubAt = .reap i) i
        { w.slots i with transport := (w.slots i).transport.read.2 } k
        { w.conns k with got := (w.conns k).got ++ (w.slots i).transport.read.1.toList } := by
      unfold Transport.read
      split_ifs with hsome
      · have hitems : (w.slots i).transport.rx.items id = _ := Circular.items_cons _ hsome
        obtain ⟨hkept, hcount, hout⟩ := hheld.flow
        rw [hitems] at hkept hcount
        refine { hheld with flow := ⟨?_, ?_, hout⟩ }
        · rw [Option.toList_some, List.append_assoc, List.singleton_append]
          exact hkept
        · rw [Option.toList_some, List.length_append, List.length_singleton]
          rw [List.length_cons] at hcount
          change (w.conns k).got.length + 1 + (((w.slots i).transport.rx.dropOldest hsome).items id).length +
            (w.conns k).dropped = (w.conns k).sent.length
          omega
      · refine { hheld with flow := ⟨?_, ?_, hheld.flow.out⟩ }
        · rw [Option.toList_none, List.append_nil]
          exact hheld.flow.kept
        · rw [Option.toList_none, List.append_nil]
          exact hheld.flow.count
    dsimp only [World.setTransport]
    rw [mapConn_some hsession]
    exact h.serveHub (a := w.hubAt) howner howner hnew rfl rfl fun _ _ => ⟨Iff.rfl, Iff.rfl⟩
  · exact h

/-- What is written goes to the connection for which the slot was attached, if it goes out. -/
theorem good_write (h : w.Good) (i : Fin kSlots) (frame : Bytes) (buffered : Nat) (success : Bool) :
    (w.write i frame buffered success).Good := by
  unfold World.write
  split_ifs with hattached
  · obtain ⟨k, howner⟩ := h.owned (i := i) (.inl fun hfree => by rw [hfree.attached] at hattached; cases hattached)
    have hheld := (h.slots i).held k howner
    have hsession : (w.slots i).session = some k := by rw [hheld.session, if_pos hattached]
    obtain ⟨frames, t, hwrite⟩ : ∃ frames t, (if ((w.slots i).transport.write w.nowMs buffered success).1 then [frame]
        else []) = frames ∧ ((w.slots i).transport.write w.nowMs buffered success).2 = t := ⟨_, _, rfl, rfl⟩
    have hkept : t.ws = (w.slots i).transport.ws ∧ t.inUse = (w.slots i).transport.inUse ∧
        t.openEvt = (w.slots i).transport.openEvt ∧ t.closeEvt = (w.slots i).transport.closeEvt ∧
        t.rx = (w.slots i).transport.rx ∧ t.rxDrops = (w.slots i).transport.rxDrops ∧
        ((w.slots i).transport.ws = none → frames = []) := by
      rw [← hwrite.1, ← hwrite.2]
      unfold Transport.write
      cases hws : (w.slots i).transport.ws with
      | none => simp [hws]
      | some k' => split_ifs <;> simp_all
    obtain ⟨hws, hinUse, hopen, hclose, hrx, hdrops, hnone⟩ := hkept
    have hnew : Held (w.hubAt = .offer i) (w.hubAt = .reap i) i { w.slots i with transport := t } k
        { w.conns k with wrote := (w.conns k).wrote ++ frames, out := (w.conns k).out ++ frames } :=
      ⟨hinUse.trans hheld.inUse, ⟨by rw [hrx]; exact hheld.flow.kept, by rw [hrx]; exact hheld.flow.count,
          congrArg (· ++ frames) hheld.flow.out⟩, hdrops.trans hheld.drops, hheld.session,
        fun ho => hheld.unseen (by rwa [hopen] at ho), fun ho => hopen.trans (hheld.offer ho), hheld.once,
        by rw [hws, hclose]; exact hheld.peer, fun ha => by rw [hopen, hws]; exact hheld.met ha,
        fun hr => by rw [hopen, hclose, hws]; exact hheld.reap hr⟩
    have hserve := h.serveHub (a := w.hubAt) (s := { w.slots i with transport := t }) howner howner hnew rfl rfl
      fun _ _ => ⟨Iff.rfl, Iff.rfl⟩
    dsimp only [World.setTransport]
    rw [hwrite.1, hwrite.2, mapConn_some hsession]
    cases hpeer : (w.slots i).transport.ws with
    | none =>
      rw [hnone hpeer, List.append_nil, List.append_nil] at hserve
      rw [hnone hpeer]
      simp only [World.mapConn, Option.elim, List.append_nil]
      exact hserve
    | some k' =>
      obtain rfl := hheld.peer_eq hpeer
      rw [mapConn_some rfl, setConn_self, setConn_twice]
      exact hserve
  · exact h

/-! ## Runs -/

/-- A slot that was closed had been looked at. -/
def World.timely (w : World κ) : Op κ → Bool
  | .hub _ =>
    match w.hubAt with
    | .closeEvent i => !((w.slots i).transport.closeEvt && (w.slots i).transport.openEvt)
    | _ => true
  | _ => true

/-- The state after some steps, each of them timely. -/
inductive Reached : World κ → Prop
  | start : Reached {}
  | step {w : World κ} (op : Op κ) : Reached w → w.timely op = true → Reached (w.step op)

omit [DecidableEq κ] in
theorem good_start : World.Good ({} : World κ) where
  slots _ := by
    refine ⟨fun _ => ⟨⟨rfl, rfl, rfl, rfl, rfl, rfl⟩, ?_, ?_⟩, fun _ h => ?_⟩
    · intro h; cases h
    · intro h; cases h
    · cases h
  conns _ := by
    refine ⟨fun h => ?_, fun _ h => ?_, fun h => ?_, fun _ _ h => ?_, fun _ => rfl, fun h => ?_,
      ⟨List.Sublist.refl _, fun _ => List.prefix_refl _, rfl, Nat.zero_le _⟩⟩
    all_goals cases h
  unique _ _ _ h := by cases h

/-- Every step of the hub that is taken in time keeps the invariant. -/
theorem good_hub (h : w.Good) (admits : Bool) (htimely : w.timely (.hub admits) = true) : (w.hub admits).Good := by
  cases hat : w.hubAt with
  | idle =>
    unfold World.hub
    rw [hat]
    exact h
  | openEvent i => exact good_openEvent h hat admits
  | offer i => exact good_offer h hat admits
  | closeEvent i =>
    refine good_closeEvent h hat admits fun hclose => ?_
    simpa [World.timely, hat, hclose] using htimely
  | reap i => exact good_reap h hat admits
  | stall i => exact good_stall h hat admits

/-- **Every step keeps it.** -/
theorem good_step (h : w.Good) (op : Op κ) (htimely : w.timely op = true) : (w.step op).Good := by
  cases op with
  | connect k => exact good_connect h k
  | scan k => exact good_scan h k
  | accept k => exact good_accept h k
  | receive k data => exact good_receive h k data
  | push k => exact good_push h k
  | disconnect k => exact good_disconnect h k
  | erase k => exact good_erase h k
  | loop nowMs => exact good_loop h nowMs
  | hub admits => exact good_hub h admits htimely
  | read i => exact good_read h i
  | write i frame buffered success => exact good_write h i frame buffered success
  | close i => exact good_requestClose h i

/-- So it holds in every world a run reaches. -/
theorem reached_good (h : Reached w) : w.Good := by
  induction h with
  | start => exact good_start
  | step op _ htimely ih => exact good_step ih op htimely

/-! ## What a run comes to -/

/-- A session of the hub is with the one connection that has the slot.  A slot in use belongs to an open connection or is
marked to be reaped, and a connection that has one is with the hub, is still to be offered to it or was asked to close. -/
structure Serves (w : World κ) : Prop where
  delivered : ∀ k, Delivered (w.conns k)
  session : ∀ i, (w.slots i).attached = true → ∃ k, (w.slots i).session = some k ∧ (w.slots i).owner = some k
  apart : ∀ i j k, (w.slots i).owner = some k → (w.slots j).owner = some k → i = j
  counted : ∀ i k, (w.slots i).owner = some k →
    (w.conns k).got.length + (w.slots i).transport.rx.count + (w.conns k).dropped = (w.conns k).sent.length ∧
      (w.slots i).transport.rxDrops = UInt32.ofNat (w.conns k).dropped
  returned : ∀ i, (w.slots i).transport.inUse = true →
    (∃ k, (w.conns k).slotById = some i ∧ (w.slots i).transport.ws = some k) ∨ (w.slots i).transport.closeEvt = true ∨
      w.hubAt = .reap i
  answered : ∀ k i, (w.conns k).slotById = some i → (w.conns k).phase.Live →
    (w.slots i).attached = true ∨ (w.slots i).transport.openEvt = true ∨ w.hubAt = .offer i ∨ (w.conns k).asked = true

omit [DecidableEq κ] in
/-- A world with the invariant serves. -/
theorem World.Good.serves (h : w.Good) : Serves w where
  delivered k := (h.conns k).past
  session i hattached := by
    obtain ⟨k, howner⟩ := h.owned (i := i) (.inl fun hfree => by rw [hfree.attached] at hattached; cases hattached)
    exact ⟨k, by rw [((h.slots i).held k howner).session, if_pos hattached], howner⟩
  apart := h.unique
  counted i k howner := by
    have hheld := (h.slots i).held k howner
    have hcount := hheld.flow.count
    rw [Circular.length_items] at hcount
    exact ⟨hcount, hheld.drops⟩
  returned i huse := by
    obtain ⟨k, howner⟩ := h.owned (i := i) (.inl fun hfree => by rw [hfree.inUse] at huse; cases huse)
    exact ((h.slots i).held k howner).peer.imp (fun ⟨hws, _, hslot, _⟩ => ⟨k, hslot, hws⟩) fun ⟨_, _, hr⟩ => hr
  answered k i hslot hlive := by
    obtain ⟨i', hslot', howner⟩ := (h.conns k).serves hlive
    obtain rfl := Option.some.inj (hslot'.symm.trans hslot)
    have hheld := (h.slots i').held k howner
    cases hattached : (w.slots i').attached with
    | true => exact .inl rfl
    | false =>
      refine .inr ((hheld.met hattached).imp id (Or.imp id fun hr => hr.resolve_right fun hws => ?_))
      rw [(hheld.alive hlive).1] at hws
      cases hws

/-- **Each session of the hub is with one connection**: it reads what this one sent, in order, all of it while no frame found
the ring full, and what it writes goes there.  No slot in use is forgotten, and no connection that has one. -/
theorem port_serves (h : Reached w) : Serves w := (reached_good h).serves

end

/-! ### Two runs -/

def steps : List (Op Bool) → World Bool := List.foldl World.step {}

theorem reached_steps (ops : List (Op Bool)) (h : ∀ n < ops.length, ∀ op, ops[n]? = some op →
    (steps (ops.take n)).timely op = true) : Reached (steps ops) := by
  induction ops using List.reverseRecOn with
  | nil => exact .start
  | append_singleton ops op ih =>
    have hstep : steps (ops ++ [op]) = (steps ops).step op := by
      rw [steps, List.foldl_append]
      rfl
    rw [hstep]
    refine .step op (ih fun n hn o ho => ?_) ?_
    · have hlast := h n (by rw [List.length_append]; omega) o (by rw [List.getElem?_append_left hn]; exact ho)
      rwa [List.take_append_of_le_length (Nat.le_of_lt hn)] at hlast
    · have hlast := h ops.length (by rw [List.length_append]; exact Nat.lt_succ_self _) op (by simp)
      rwa [List.take_left] at hlast

/-- A connection opens and is attached, and a frame of it is read. -/
def served (i : Fin kSlots) : List (Op Bool) :=
  [.connect true, .scan true, .accept true, .loop 1, .hub true, .hub true, .receive true [7], .push true, .read i]

theorem port_serves_served :
    Serves (steps (served ⟨0, by decide⟩)) ∧ ((steps (served ⟨0, by decide⟩)).conns true).got = [[7]] :=
  ⟨port_serves (reached_steps (served ⟨0, by decide⟩) (by decide)), by decide⟩

/-- The hub finds the slot closed just before it is opened, closed and opened again behind its back. -/
def raced : List (Op Bool) :=
  [.loop 1, .hub true, .connect true, .scan true, .accept true, .disconnect true, .erase true, .hub true, .hub true] ++
    (List.replicate 13 (.hub true) ++ [.loop 2, .hub true, .hub true])

/-- **A connection that comes and goes between the two looks leaves a session with nobody.** -/
theorem attached_nobody : ((steps raced).slots ⟨0, by decide⟩).attached = true ∧
    ((steps raced).slots ⟨0, by decide⟩).owner = none ∧
    ((steps raced).slots ⟨0, by decide⟩).transport.inUse = false := by
  decide

end SlopSync.SlopBench.Ws
