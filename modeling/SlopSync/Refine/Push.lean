import SlopSync.Hub.Push
import SlopSync.Refine.Lifecycle

/-! # Pushes and the safety latch, as acts

A STATE push is chatter: the channel it is of is one the session is subscribed to.  The latch changes by
`Act.safety`, which publishes the snapshot in the same act, or by `Act.clear`. -/

namespace SlopSync

open Keyed Labelled

/-- Some link may be let go. -/
def Label.ParksAny (l : Label) : Prop := ∃ i, l.Parks i

/-- The latch may change, but ESTOP is not cleared. -/
def Label.Latches : Label → Prop
  | .safety => True
  | l => l.ParksAny

theorem Label.Parks.any {l : Label} {i : SlotIdx} (h : l.Parks i) : l.ParksAny := ⟨i, h⟩

/-- Parking some session is within what a latch may do. -/
theorem Label.ParksAny.latches {l : Label} (h : l.ParksAny) : l.Latches := by
  cases l <;> first | exact h | exact trivial

section

variable {ε : Type} {w : World ε} {c : Config} {now : UInt32} {rx : Option SlotIdx} {P : Label → Prop}

/-! ## STATE -/

/-- The slot's session may be pushed a STATE of `ch`. -/
structure MayPush (v : View) (i : SlotIdx) (ch : UInt16) : Prop where
  link : (v.slots i).transport.isSome
  ready : (v.slots i).ready = true
  sub : ch ∈ (v.slots i).subs

/-- A STATE pushed is one act, of a session that may be pushed to. -/
theorem sendState_act {i : SlotIdx} {ch : UInt16} {s : Sys ε} (payload : Bytes) (seq : UInt16)
    (h : MayPush s.view i ch) :
    Act c now rx .chatter s.view (sendFrameTo w i .state ch payload seq s).2.view := by
  have hsame : Act c now rx .chatter s.view s.view :=
    Act.chatter (fun i => (s.view.slots i).events) [] (fun _ _ hch => .inl hch) (fun x hx => by cases hx)
  unfold sendFrameTo
  split
  · rename_i hnone
    have hlink : (s.slot i).transport.isSome := h.link
    rw [hnone] at hlink
    cases hlink
  · rename_i t ht
    split
    · exact hsame
    · have hlost : ∀ ok, lostOf (s.hub, .write i t .state ch seq payload ok) = none := fun _ => if_pos ht
      have hkeep : ∀ ok env, ({ s.log (.write i t .state ch seq payload ok) with env } : Sys ε).view = { s.view with
          sent := ⟨ch, (s.view.slots i).role, (s.view.slots i).ready, true⟩ :: s.view.sent } := by
        intro ok env
        refine View.ext rfl rfl rfl rfl rfl rfl rfl rfl rfl rfl rfl rfl rfl ?_ rfl
        exact List.filterMap_cons_none (hlost ok)
      rw [hkeep]
      refine Act.chatter (fun i => (s.view.slots i).events) [⟨ch, (s.view.slots i).role, (s.view.slots i).ready, true⟩]
        (fun _ _ hch => .inl hch) ?_
      intro x hx
      rw [List.mem_singleton.mp hx]
      exact ⟨i, .inr (.inl h.sub), rfl, h.ready, h.ready, rfl⟩

theorem view_notePushed (i : SlotIdx) (ch seq : UInt16) (record : Option Nat) (nowMs : UInt32) (s : Sys ε) :
    (notePushed i ch seq record nowMs s).view = s.view := by
  refine view_modSlot_of_slotView ?_
  have h := SubscriptionTable.channels_update (s.hub.slots i).session.subs ch (f := (·.markPushed nowMs)) (fun _ => rfl)
  simp only [slotView, h]

/-- Claiming a record is invisible in the view. -/
theorem view_claimRecord (i : SlotIdx) (ch : UInt16) (s : Sys ε) : (claimRecord i ch s).2.view = s.view := by
  unfold claimRecord
  split
  · rfl
  · exact view_modSlot_of_slotView rfl

theorem view_countShed (i : SlotIdx) (d : ShedDecision) (record : Option Nat) (s : Sys ε) :
    (countShed i d record s).view = s.view := by
  unfold countShed
  split
  · exact view_modSlot_of_slotView rfl
  · rfl

/-- A push that is due is sent, or shed and counted. -/
theorem pushDue_does {i : SlotIdx} {sub : SubscriptionEntry} (retained : RetainedEntry) (d : ShedDecision)
    (record : Option Nat) (nowMs : UInt32) {s : Sys ε} (h : MayPush s.view i sub.channelId) :
    Does c now rx (· = .chatter) s (pushDue w i sub retained d record nowMs s) := by
  unfold pushDue
  dsimp only
  have hc := view_countShed i d record s
  rw [← hc] at h
  refine (Does.of_view hc).trans ?_
  split
  · have hsend : Does c now rx (· = .chatter) _
        (sendFrameTo w i .state sub.channelId retained.payload retained.seq (countShed i d record s)).2 :=
      Does.act rfl (sendState_act _ _ h)
    split
    · exact hsend.trans (Does.of_view (view_notePushed _ _ _ _ _ _))
    · exact hsend
  · refine Does.of_view (view_modSlot_of_slotView ?_)
    have hch := SubscriptionTable.channels_update ((countShed i d record s).hub.slots i).session.subs sub.channelId
      (f := (·.markPushed nowMs)) (fun _ => rfl)
    simp only [slotView, hch]

/-- One subscription's turn. -/
theorem paceOne_does {i : SlotIdx} (nowMs : UInt32) {s : Sys ε} {sub : SubscriptionEntry}
    (h : MayPush s.view i sub.channelId) : Does c now rx (· = .chatter) s (paceOne w c i nowMs s sub) := by
  unfold paceOne
  split
  · split
    · exact Does.refl s
    · dsimp only
      have hc := view_claimRecord i sub.channelId s
      rw [← hc] at h
      refine (Does.of_view hc).trans ?_
      split
      · exact Does.refl _
      · exact pushDue_does _ _ _ nowMs h
  · exact Does.refl s

theorem chatter_tells {l : Label} (h : l = .chatter) : l.Tells := by
  rw [h]
  exact trivial

/-- All of a session's, in order; the induction is on the table. -/
theorem paceFold_does {i : SlotIdx} (nowMs : UInt32) : ∀ (l : List SubscriptionEntry) {s : Sys ε},
    (∀ e ∈ l, MayPush s.view i e.channelId) →
    Does c now rx (· = .chatter) s (l.foldl (paceOne w c i nowMs) s)
  | [], s, _ => Does.refl s
  | e :: l, s, h => by
    have hone : Does c now rx (· = .chatter) s (paceOne w c i nowMs s e) :=
      paceOne_does nowMs (h e List.mem_cons_self)
    have hslot := slot_of_tells (hone.mono fun _ => chatter_tells) i
    refine hone.trans (paceFold_does nowMs l fun e' he => ?_)
    obtain ⟨hlink, hready, hsub⟩ := h e' (List.mem_cons_of_mem e he)
    exact ⟨by rw [hslot]; exact hlink, by rw [hslot]; exact hready, by rw [hslot]; exact hsub⟩

/-- The pacing pump is chatter. -/
theorem pumpStatePacing_does {i : SlotIdx} (nowMs : UInt32) {s : Sys ε} (hlink : (s.slot i).transport.isSome) :
    Does c now rx (· = .chatter) s (pumpStatePacing w c i nowMs s) := by
  unfold pumpStatePacing
  split
  · exact Does.refl s
  · rename_i hready
    rw [Bool.not_eq_true', Bool.not_eq_false] at hready
    exact paceFold_does nowMs _ fun e he => ⟨hlink, hready, List.mem_map_of_mem he⟩

/-! ## The broadcast -/

/-- One session's share of a broadcast may park it. -/
theorem broadcastOne_does (payload : Bytes) (seq : UInt16) (nowMs : UInt32) (s : Sys ε) (i : SlotIdx) :
    Does c now rx (Label.Parks i) s (broadcastOne w c payload seq nowMs s i) := by
  unfold broadcastOne
  dsimp only
  split
  · exact Does.refl s
  · rename_i h
    have hpush : MayPush s.view i Channels.safety := by
      simp only [Bool.or_eq_true, not_or, Option.isNone_iff_eq_none, Bool.not_eq_true', Bool.not_eq_false] at h
      refine ⟨Option.isSome_iff_ne_none.mpr h.1.1.2, h.1.2, ?_⟩
      rw [mem_subs_view]
      exact Option.isSome_iff_ne_none.mpr h.2
    have htracked : Does c now rx (Label.Parks i) s
        (sendFrameToTracked w c i .state Channels.safety payload nowMs seq s).2 := by
      unfold sendFrameToTracked
      split
      · exact Does.refl s
      · exact (Does.act (l := .chatter) trivial (sendState_act payload seq hpush)).trans
          (trackCriticalSend_does i _ nowMs _)
    split
    · exact htracked.trans (Does.of_view ((view_notePushed _ _ _ _ _ _).trans (view_claimRecord _ _ _)))
    · exact htracked

/-- A broadcast may park any session. -/
theorem broadcastSafetyNow_does (nowMs : UInt32) (s : Sys ε) :
    Does c now rx Label.ParksAny s (broadcastSafetyNow w c nowMs s) := by
  unfold broadcastSafetyNow
  split
  · exact Does.refl s
  · exact Does.foldl (fun s i => (broadcastOne_does _ _ nowMs s i).mono fun _ h => h.any) allSlots s

/-! ## The latch -/

/-- Publishing the safety word changes it and its snapshot together. -/
theorem view_publishSafety (st : SafetyState) (s : Sys ε) :
    (publishSafetySnapshot (setSafety st s)).view =
      { s.view with safety := st, retained := publishOr s.view.retained Channels.safety (buildSafetyPayload st) } :=
  view_retain _ _ _

/-- A safety word may be stored when it drops no ESTOP. -/
theorem latch_does {st : SafetyState} {s : Sys ε}
    (h : s.view.safety.word &&& SafetyBits.estop ≠ 0 → st.word &&& SafetyBits.estop ≠ 0) :
    Does c now rx Label.Latches s (publishSafetySnapshot (setSafety st s)) := by
  refine Does.act (l := .safety) trivial ?_
  rw [view_publishSafety]
  exact Act.safety st h

theorem announce_does (before : UInt8) (nowMs : UInt32) (s : Sys ε) :
    Does c now rx Label.ParksAny s (emitSafetyEdgeEvents w c before nowMs (broadcastSafetyNow w c nowMs s)) :=
  (broadcastSafetyNow_does nowMs s).trans ((emits_emitSafetyEdgeEvents c before nowMs _).does ⟨0, trivial⟩)

theorem estop_or (word : UInt8) : (word ||| SafetyBits.estop) &&& SafetyBits.estop ≠ 0 := by
  have h : ∀ x : Fin 256, (UInt8.ofFin x ||| SafetyBits.estop) &&& SafetyBits.estop ≠ 0 := by
    decide +kernel
  exact h word.toFin

/-- An ESTOP frame latches. -/
theorem handleEstopFrame_does (f : EstopFrame) (nowMs : UInt32) (s : Sys ε) :
    Does c now rx Label.Latches s (handleEstopFrame w c f nowMs s) := by
  unfold handleEstopFrame
  dsimp only
  refine Does.trans ?_ ((announce_does _ nowMs _).mono fun _ h => h.latches)
  split
  · exact Does.refl s
  · exact (Does.of_view (view_notify (.onEstop _ _) s trivial)).trans (latch_does fun _ => estop_or _)

/-- Setting the modes keeps the latch. -/
theorem setSafetyModes_does (o b : Bool) (s : Sys ε) : Does c now rx Label.Latches s (setSafetyModes w c o b s) := by
  unfold setSafetyModes
  generalize (if o = true then SafetyModeBits.override else 0) |||
    (if b = true then SafetyModeBits.bypass else 0) = next
  dsimp only
  split
  · exact Does.refl s
  · have hlatch : Does c now rx Label.Latches s
        (publishSafetySnapshot (setSafety { s.hub.safety with modes := next } s)) := latch_does fun h => h
    exact hlatch.trans ((broadcastSafetyNow_does _ _).mono fun _ h => h.latches)

/-- The delegate lets ESTOP be cleared. -/
def Consents (w : World ε) (s : Sys ε) : Prop := (w.canClearEstop s.env).1 = true

/-- The one way to clear ESTOP. -/
def Label.Clears (C : Prop) : Label → Prop
  | .clear => C
  | l => l.ParksAny

theorem Label.ParksAny.clears {l : Label} (h : l.ParksAny) {C : Prop} : l.Clears C := by
  cases l <;> first | exact h | exact h.elim fun _ h => h.elim

/-- Clearing needs the host's consent. -/
theorem clearEstop_does (s : Sys ε) : Does c now rx (Label.Clears (Consents w s)) s (clearEstop w c s).2 := by
  unfold clearEstop
  split
  · exact Does.refl s
  · dsimp only
    split
    · exact Does.of_view rfl
    · rename_i hok
      have hcons : Consents w s := Bool.not_not_eq.mp hok
      refine Does.trans ?_ ((announce_does _ _ _).mono fun _ h => h.clears)
      refine Does.act (l := .clear) hcons ?_
      rw [view_publishSafety]
      exact Act.clear _

end

end SlopSync
