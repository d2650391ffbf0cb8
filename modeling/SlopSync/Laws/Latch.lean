import SlopSync.Hub.Bench
import SlopSync.Refine.Run

/-! # The safety latch

The retained safety snapshot is always the encoding of the latch, ESTOP is cleared on one path only and with the
delegate's consent, and an ESTOP frame always leaves the bit set. -/

namespace SlopSync

open Keyed Labelled

section

variable {ε : Type} {w : World ε} {c : Config} {now : UInt32} {rx : Option SlotIdx} {s : Sys ε}

/-! ## The snapshot -/

/-- The snapshot shows the latch as it is. -/
def View.Latched (v : View) : Prop :=
  (v.retained.get Channels.safety).map RetainedEntry.payload = some (buildSafetyPayload v.safety)

theorem length_safetyPayload (st : SafetyState) : (buildSafetyPayload st).length = 9 := by
  simp [buildSafetyPayload, le32, le16]

/-- A channel that is in the store can be published to. -/
theorem get_publishOr_held {r : RetainedStore} {ch : UInt16} {old payload : Bytes}
    (h : (r.get ch).map RetainedEntry.payload = some old) (hlen : payload.length ≤ Limits.minTransportPayload) :
    ((publishOr r ch payload).get ch).map RetainedEntry.payload = some payload := by
  refine get_publishOr_self r ch hlen fun hc => ?_
  rw [hc.1] at h
  cases h

theorem Act.latched {l : Label} {v v' : View} (hl : l ≠ .retain Channels.safety) (h : Act c now rx l v v')
    (hv : v.Latched) : v'.Latched := by
  have hlen : ∀ st, (buildSafetyPayload st).length ≤ Limits.minTransportPayload := fun st => by
    rw [length_safetyPayload]
    decide
  have hsnap : ∀ owner, ((snapshotOwners c v.retained owner).get Channels.safety).map RetainedEntry.payload =
      some (buildSafetyPayload v.safety) := by
    intro owner
    unfold snapshotOwners
    split
    · exact hv
    · rw [get_publishOr_other _ (by decide)]
      exact hv
  cases h with
  | safety st | clear st => exact get_publishOr_held hv (hlen st)
  | retain ch payload =>
    show (((publishOr v.retained ch payload).get Channels.safety).map RetainedEntry.payload) = _
    rw [get_publishOr_other _ fun e => hl (congrArg Label.retain e.symm)]
    exact hv
  | acquire i src => exact hsnap _
  | release i reason srcs r _ _ _ _ hr =>
    rcases hr with rfl | ⟨rfl, -⟩
    · exact hsnap _
    · exact hv
  | _ => exact hv

theorem latched_boot (hcat : (c.catalog.find Channels.safety).isSome) (e : ε) : (boot w c e).view.Latched := by
  have hkeep : ∀ (ch : UInt16) (payload : Bytes) (t : Sys ε), ch ≠ Channels.safety → t.view.Latched →
      (retain ch payload t).view.Latched := by
    intro ch payload t hch ht
    have hact : Act c 0 none (.retain ch) t.view (retain ch payload t).view := by
      rw [view_retain]
      exact Act.retain ch payload
    exact hact.latched (fun e => hch (Label.retain.inj e)) ht
  unfold boot
  generalize drawNonZero w.nextU32 w.drawFuel e = draw
  obtain ⟨bootId, env⟩ := draw
  dsimp only
  rw [if_pos hcat]
  have h₁ : (publishSafetySnapshot ({ hub := { bootId }, env } : Sys ε)).view.Latched := by
    unfold publishSafetySnapshot
    rw [view_retain]
    exact get_publishOr_self _ _ (by rw [length_safetyPayload]; decide) fun hc => by cases hc.2
  have h₂ : (publishPendingPairingState c 0 (publishSafetySnapshot ({ hub := { bootId }, env } : Sys ε))).view.Latched := by
    unfold publishPendingPairingState
    split
    · exact h₁
    · exact hkeep _ _ _ (by decide) h₁
  unfold publishPairedRosterState
  split
  · exact h₂
  · exact hkeep _ _ _ (by decide) h₂

/-- The host leaves the safety channel to the hub. -/
def LeavesSafety (_ : Sys ε) : Call ε → Prop
  | .publishState ch _ => ch ≠ Channels.safety
  | _ => True

theorem reachBy_latched (hcat : (c.catalog.find Channels.safety).isSome)
    (h : ReachBy w c (Move.Hosted LeavesSafety) s) : s.view.Latched := by
  obtain ⟨e, he⟩ := h
  refine he.invariant (I := View.Latched) (distinct_boot e) ?_ (latched_boot hcat e)
  intro t m hG l v v' hl ha
  refine ha.latched ?_
  rintro rfl
  rcases retain_of_moveLabel hl with hp | ⟨payload, rfl⟩
  · exact hp.1 rfl
  · exact hG rfl

/-! ## Clearing ESTOP -/

theorem Act.estop_kept {l : Label} {v v' : View} (hl : l ≠ .clear) (h : Act c now rx l v v')
    (hv : v.safety.estop = true) : v'.safety.estop = true := by
  cases h with
  | safety st hst =>
    have hne : v.safety.word &&& SafetyBits.estop ≠ 0 := by simpa [SafetyState.estop] using hv
    simpa [SafetyState.estop] using hst hne
  | clear => exact absurd rfl hl
  | _ => exact hv

/-- Reading a frame changes nobody's standing. -/
theorem reads_standing {i j : SlotIdx} {l : Label} {v v' : View} (hl : l.Reads i) (h : Act c now rx l v v') :
    ((v'.slots j).role, (v'.slots j).ready) = ((v.slots j).role, (v.slots j).ready) := by
  cases h with
  | rx k | revive k =>
    by_cases hj : j = k
    · subst hj
      simp [View.set]
    · simp [View.set, hj]
  | chatter => rfl
  | _ => exact hl.elim

/-- The moves that may clear ESTOP: the host's own call, and an `estop_clear` from a ready session with control.  Both
ask the delegate. -/
def ClearedBy (w : World ε) (s : Sys ε) : Move ε → Prop
  | .host .clearEstop => Consents w s
  | .frame i (.frame _ (.intent (some m))) =>
    (s.session i).occupied = true ∧ (s.session i).ready = true ∧ .control ≤ (s.session i).role ∧
      safetyOp m = some SafetyOps.estopClear.toUInt64 ∧ Consents w (noteRx w i s.hub.monoMs.ms s)
  | _ => False

theorem clear_of_frameLabel {i : SlotIdx} {seq : UInt16} {m : Inbound} (hocc : (s.session i).occupied = true)
    (hl : FrameLabel w c i s.hub.monoMs.ms (setDispatchSeq (some seq) (noteRx w i s.hub.monoMs.ms s)) m .clear) :
    ClearedBy w s (.frame i (.frame seq m)) := by
  cases hl with
  | sends hl => cases hl
  | hello _ hl | subscribe _ hl => exact hl.elim False.elim False.elim
  | reattach _ hl => exact hl.elim
  | stream hl | goodbye hl | pairReq hl | auth hl => exact hl.elim
  | intent hl =>
    obtain ⟨⟨-, hready, -⟩, hop, hrole, hok⟩ := hl
    have hread : Does c s.hub.monoMs.ms (some i) (Label.Reads i) s (noteRx w i s.hub.monoMs.ms s) := noteRx_does i _ s
    have hst := hread.frame (f := fun v => ((v.slots i).role, (v.slots i).ready)) fun _ _ _ hl ha =>
      reads_standing hl ha
    obtain ⟨hr, hy⟩ := Prod.mk.inj hst
    refine ⟨hocc, ?_, ?_, hop, hok⟩
    · rw [← show _ = (s.session i).ready from hy]
      exact hready
    · rw [← show _ = (s.session i).role from hr]
      exact hrole

theorem clear_of_moveLabel {m : Move ε} (hocc : ∀ i f, m = .frame i f → (s.session i).occupied = true)
    (hl : MoveLabel w c s m .clear) : ClearedBy w s m := by
  cases m with
  | host call =>
    cases call with
    | clearEstop => exact hl
    | attachTransport | detachTransport => exact hl.elim fun _ h => h.2.elim
    | latchEstop | setSafetyModes => exact hl.elim fun _ h => h.elim
    | publishState | bumpConfigGeneration | pairing => cases hl
    | regrantForTest => exact (hl.elim id fun h => nomatch h).elim
    | _ => exact hl.elim
  | tick => exact hl.elim (fun h => nomatch h) False.elim
  | liveness => exact hl.acts.elim False.elim fun h => h.elim False.elim False.elim
  | out => cases hl
  | frame i f =>
    cases f with
    | estop => exact hl.elim False.elim fun h => h.elim fun _ h => h.elim
    | badEstop | short => exact hl.elim
    | frame seq m => exact hl.elim False.elim (clear_of_frameLabel (hocc i _ rfl))

theorem hub_noteRx_free {i : SlotIdx} (nowMs : UInt32) (hocc : (s.session i).occupied = false) :
    (noteRx w i nowMs s).hub = s.hub := by
  have hst : (s.session i).state ≠ .stale := by
    intro hst
    rw [HubSession.occupied, hst] at hocc
    cases hocc
  unfold noteRx
  dsimp only
  rw [if_neg (by rw [show ((s.log (.read i)).hub.slots i).session.occupied = false from hocc]; decide)]
  unfold reviveIfStale
  split
  · rename_i h
    exact absurd h hst
  · rfl

/-- A frame of a slot without a session changes the latch only by ESTOP and by HELLO. -/
theorem safety_frame_free {i : SlotIdx} {seq : UInt16} {m : Inbound} (hocc : (s.session i).occupied = false)
    (hm : ∀ msg, m ≠ .hello msg) : (move w c s (.frame i (.frame seq m))).hub.safety = s.hub.safety := by
  have hhub := hub_noteRx_free (w := w) (i := i) s.hub.monoMs.ms hocc
  show (setDispatchSeq none (dispatch w c i m s.hub.monoMs.ms
    (setDispatchSeq (some seq) (noteRx w i s.hub.monoMs.ms s)))).hub.safety = _
  rw [dispatch_free (by show ((noteRx w i s.hub.monoMs.ms s).hub.slots i).session.occupied = false; rw [hhub]; exact hocc) hm]
  show (noteRx w i s.hub.monoMs.ms s).hub.safety = _
  rw [hhub]

theorem estop_kept_of_moves {m : Move ε} (hd : s.view.Distinct) (hok : m.Enabled s)
    (hset : s.hub.safety.estop = true) (hl : ¬MoveLabel w c s m .clear) : (move w c s m).hub.safety.estop = true := by
  refine Path.invariant (I := fun v => v.safety.estop = true) (move_does hd hok) ?_ hset
  intro l v v' hml ha
  exact ha.estop_kept fun e => hl (e ▸ hml)

/-- ESTOP is cleared only on the paths of `ClearedBy`. -/
theorem estop_cleared {m : Move ε} (hd : s.view.Distinct) (hok : m.Enabled s) (hset : s.hub.safety.estop = true)
    (hclr : (move w c s m).hub.safety.estop = false) : ClearedBy w s m := by
  by_contra hno
  have hkept : (move w c s m).hub.safety.estop = true := by
    by_cases hocc : ∀ i f, m = .frame i f → (s.session i).occupied = true
    · exact estop_kept_of_moves hd hok hset fun hl => hno (clear_of_moveLabel hocc hl)
    · -- a slot without a session: HELLO never clears, everything else is ignored
      push Not at hocc
      obtain ⟨i, f, rfl, hocc⟩ := hocc
      replace hocc := Bool.eq_false_iff.mpr hocc
      by_cases hhello : ∃ seq msg, f = .frame seq (.hello msg)
      · obtain ⟨seq, msg, rfl⟩ := hhello
        refine estop_kept_of_moves hd hok hset fun hl => ?_
        rcases hl with hl | hl
        · exact hl
        · cases hl with
          | sends hl => cases hl
          | hello _ hl | subscribe _ hl => exact hl.elim id id
          | reattach _ hl => exact hl
      · cases f with
        | estop f =>
          refine estop_kept_of_moves hd hok hset fun hl => ?_
          exact hl.elim id fun h => h.elim fun _ h => h
        | badEstop | short => exact hset
        | frame seq m =>
          rw [safety_frame_free hocc fun msg hm => hhello ⟨seq, msg, by rw [hm]⟩]
          exact hset
  rw [hkept] at hclr
  cases hclr

/-! ## ESTOP frames -/

/-- **An ESTOP frame leaves the bit set**, whoever sent it. -/
theorem estop_latches (f : EstopFrame) (nowMs : UInt32) (s : Sys ε) :
    (handleEstopFrame w c f nowMs s).hub.safety.estop = true := by
  unfold handleEstopFrame
  dsimp only
  have hsay : ∀ (before : UInt8) (t : Sys ε), t.hub.safety.estop = true →
      (emitSafetyEdgeEvents w c before nowMs (broadcastSafetyNow w c nowMs t)).hub.safety.estop = true := by
    intro before t ht
    have hdo : Does c nowMs none Label.ParksAny t _ := announce_does (w := w) before nowMs t
    refine hdo.invariant (I := fun v => v.safety.estop = true) (fun l v v' hl ha => ha.estop_kept ?_) ht
    rintro rfl
    exact hl.elim fun _ h => h
  refine hsay _ _ ?_
  split
  · assumption
  · have hview := view_publishSafety { s.hub.safety with
        word := s.hub.safety.word ||| SafetyBits.estop, cause := f.cause, estopSeq := f.seq }
      (notify w (.onEstop f.cause f.origin) s)
    refine (congrArg (fun v => v.safety.estop) hview).trans ?_
    simpa [SafetyState.estop] using estop_or s.hub.safety.word

/-! ## The law -/

/-- **The latch and its snapshot agree, and ESTOP is let go of on one path only.** -/
theorem safety_latch (hcat : (c.catalog.find Channels.safety).isSome) (h : ReachBy w c (Move.Hosted LeavesSafety) s) :
    (s.hub.retained.get Channels.safety).map RetainedEntry.payload = some (buildSafetyPayload s.hub.safety) ∧
    (buildSafetyPayload s.hub.safety).length = 9 ∧
    (∀ m, m.Enabled s → s.hub.safety.estop = true → (move w c s m).hub.safety.estop = false → ClearedBy w s m) ∧
    ∀ i f, (s.slot i).transport.isSome → (move w c s (.frame i (.estop f))).hub.safety.estop = true :=
  ⟨reachBy_latched hcat h, length_safetyPayload _, fun _ hok => estop_cleared h.distinct hok,
    fun _ f _ => estop_latches f _ _⟩

end

/-- A link without a session sends ESTOP. -/
def Bench.stopped : List (Call Bench) :=
  [.attachTransport 0, .update 1000 fun j => if j = 0 then [.estop { cause := 1, origin := 0, seq := 5 }] else []]

/-- The bit is set, and the snapshot says so. -/
theorem safety_latch_stopped :
    (run Bench.world Bench.config {} Bench.stopped).hub.safety.estop = true ∧
    ((run Bench.world Bench.config {} Bench.stopped).hub.retained.get Channels.safety).map RetainedEntry.payload =
      some (buildSafetyPayload (run Bench.world Bench.config {} Bench.stopped).hub.safety) := by
  have hreach : ReachBy Bench.world Bench.config (Move.Hosted LeavesSafety)
      (run Bench.world Bench.config {} Bench.stopped) :=
    reachBy_run (by simp [Bench.stopped, Obeys, LeavesSafety])
  exact ⟨by decide +kernel, (safety_latch (by decide) hreach).1⟩

/-- The host can publish on the safety channel itself, and the snapshot then shows what the host said. -/
theorem snapshot_overwritten : ¬∀ s, Reachable Bench.world Bench.config s →
    (s.hub.retained.get Channels.safety).map RetainedEntry.payload = some (buildSafetyPayload s.hub.safety) := by
  intro h
  have hsnap := h _ ⟨{}, [.publishState Channels.safety []], rfl⟩
  revert hsnap
  decide +kernel

end SlopSync
