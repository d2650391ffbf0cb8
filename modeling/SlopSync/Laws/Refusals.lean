import SlopSync.Laws.Generations
import SlopSync.Laws.Ownership
import SlopSync.Laws.Provenance

/-! # What a refused intent leaves behind

An INTENT that is answered with a NACK changes neither the generation, nor the latch, nor the rings, nor the ledger
(`refused_intent_leaves`).  Who owns a source can change: the delegate is asked only after the source of the channel was
taken, and a NACK that a stalled link does not take parks the session. -/

namespace SlopSync

open Keyed Labelled

/-- A NACK went out on the way from `s` to `t`. -/
def Nacked {ε : Type} (s t : Sys ε) : Prop := ∃ new, t.trace = new ++ s.trace ∧ ∃ x ∈ new, x.2.wrote = some .nack

section

variable {ε : Type} {w : World ε} {c : Config} {s t u : Sys ε} {i : SlotIdx} {nowMs : UInt32}

/-- A step that writes no NACK has not answered with one. -/
theorem Writes.not_nacked {N : SlotIdx → Prop} (h : Writes (· ≠ .nack) N s t) : ¬Nacked s t := by
  rintro ⟨new, ht, x, hx, hn⟩
  obtain ⟨new', ht', hnew'⟩ := h.grows
  have heq : new = new' := List.append_cancel_right (ht.symm.trans ht')
  subst heq
  exact hnew' x hx .nack hn rfl

theorem plain_ne_nack {ty : FrameType} (h : ty.Plain) : ty ≠ .nack := by
  rintro rfl
  exact h

/-! ## The send -/

/-- The NACK was sent: at most the stall timer moved, or the link was stalled and the session was parked. -/
def AfterNack (w : World ε) (c : Config) (i : SlotIdx) (nowMs : UInt32) (u t : Sys ε) : Prop :=
  (∃ stall, t.hub = (u.modSlot i fun sl => { sl with criticalStallSince := stall }).hub) ∨
    ∃ u' : Sys ε, u'.hub = u.hub ∧ stalled (u.slot i) nowMs = true ∧ t.hub = (parkAndDetach w c i nowMs u').hub

/-- Writing a slot's own stall stamp back changes nothing of the hub. -/
theorem modSlot_stall (s : Sys ε) (i : SlotIdx) :
    (s.modSlot i fun sl => { sl with criticalStallSince := (s.slot i).criticalStallSince }).hub = s.hub := by
  unfold Sys.modSlot
  dsimp only
  congr 1
  funext j
  split
  · rename_i hj
    rw [hj]
  · rfl

theorem afterNack_of_hub (h : t.hub = u.hub) : AfterNack w c i nowMs u t :=
  .inl ⟨(u.slot i).criticalStallSince, h.trans (modSlot_stall u i).symm⟩

/-- `trackCriticalSend` after the NACK: the link parked, or nothing further of the hub changed. -/
theorem afterNack_track (ok : Bool) (h : t.hub = u.hub) : AfterNack w c i nowMs u (trackCriticalSend w c i ok nowMs t) := by
  have hmod : ∀ stall, (t.modSlot i fun sl => { sl with criticalStallSince := stall }).hub =
      (u.modSlot i fun sl => { sl with criticalStallSince := stall }).hub := by
    intro stall
    unfold Sys.modSlot
    rw [h]
  unfold trackCriticalSend
  dsimp only
  split
  · exact .inl ⟨none, hmod none⟩
  · rename_i hlow
    split
    · exact .inl ⟨some nowMs, hmod (some nowMs)⟩
    · rename_i since hsince
      split
      · rename_i hout
        refine .inr ⟨t, h, ?_, rfl⟩
        rw [Bool.or_eq_true, not_or, decide_eq_true_eq, UInt8.not_lt] at hlow
        unfold stalled
        rw [Sys.slot, ← h]
        rw [Sys.slot] at hsince
        simp [hsince, hlow.1, hout]
      · exact afterNack_of_hub h

/-- So a critical NACK leaves the hub as it found it, apart from a link that has stalled too long. -/
theorem afterNack_tracked (n : NackMsg) (h : t.hub = u.hub) : AfterNack w c i nowMs u (sendNackTracked w c i n nowMs t) := by
  unfold sendNackTracked
  split
  · exact afterNack_of_hub h
  · split
    · exact afterNack_track false h
    · exact afterNack_track _ ((hub_sendFrameTo _ _ _ _ _ t).trans h)

theorem afterNack_untracked (n : NackMsg) (h : t.hub = u.hub) : AfterNack w c i nowMs u (sendNack w i n t) :=
  afterNack_of_hub ((hub_sendNack i n t).trans h)

/-! ## Before the send -/

/-- The delegate was asked to apply the intent, after its source was taken, and refused. -/
structure Asked (w : World ε) (c : Config) (i : SlotIdx) (nowMs : UInt32) (m : IntentMsg) (s u : Sys ε) : Prop where
  source : ∃ src, ∃ s' : Sys ε, s'.hub = s.hub ∧ (w.sourceForChannel m.channelId s.env).1 = some src ∧
    (acquireForIntent w c i m src nowMs s').1 = true ∧ u.hub = (acquireForIntent w c i m src nowMs s').2.hub
  refused : ∃ code, (w.applyIntent m.channelId m.value (u.session i).role u.env).1.1 = .error code

/-- The intent approves a knock whose device has left; the knock is dropped. -/
structure Departed (w : World ε) (c : Config) (nowMs : UInt32) (m : IntentMsg) (s u : Sys ε) : Prop where
  approve : m.PairApprove
  knock : ∃ inst k, (adminOp m).target = some inst ∧ s.hub.pairing.pending.find inst = some k ∧
    joinerOf s.hub k = none ∧ u = publishPendingPairingState c nowMs (emitPairingEvent w c PairingEventKinds.expired
      inst.val [] k.mode .watch [] nowMs (modPending (fun l => l.remove inst) s))

/-- What was done to `s` before the refusal of the intent was sent from `u`. -/
def Prepared (w : World ε) (c : Config) (i : SlotIdx) (nowMs : UInt32) (m : IntentMsg) (s u : Sys ε) : Prop :=
  u.hub = s.hub ∨ Asked w c i nowMs m s u ∨ Departed w c nowMs m s u

/-- A conflict leaves the ownership table untouched. -/
theorem acquire_conflict {t' : SourceOwnershipTable} {t : SourceOwnershipTable} {src : UInt8} {sid : UInt32}
    {role : AccessLevel} {takeover : Bool} (h : t.acquire src sid role takeover = (.conflict, t')) : t' = t := by
  unfold SourceOwnershipTable.acquire at h
  split at h
  · cases h
    rfl
  · rename_i t₁ hcreate
    dsimp only at h
    have hsame : t₁.ownerOf src ≠ 0 → t₁ = t := by
      intro howner
      obtain ⟨-, hown⟩ := SourceOwnershipTable.findOrCreate_spec hcreate
      have hfind : (t.find src).isSome = true := by
        cases hf : t.find src with
        | some _ => rfl
        | none =>
          rw [(hown src).1] at howner
          simp [SourceOwnershipTable.ownerOf, hf] at howner
      unfold SourceOwnershipTable.findOrCreate at hcreate
      rw [dif_pos hfind] at hcreate
      exact (Option.some.inj hcreate).symm
    split at h
    · cases h
    · rename_i howner
      split at h
      · cases h
      · split at h
        · cases h
        · cases h
          exact hsame howner

/-- A takeover that is refused has sent its NACK and done nothing else. -/
theorem acquireForIntent_refused {m : IntentMsg} {src : UInt8} (h : (acquireForIntent w c i m src nowMs s).1 = false) :
    AfterNack w c i nowMs s (acquireForIntent w c i m src nowMs s).2 := by
  unfold acquireForIntent at h ⊢
  dsimp only at h ⊢
  split at h
  · rename_i hres
    have htable := acquire_conflict (Prod.ext hres rfl : s.hub.ownership.acquire src (s.session i).sessionId
      (s.session i).role m.takeover = (.conflict, _))
    exact afterNack_tracked _ (congrArg (fun o => { s.hub with ownership := o }) htable)
  · cases h
  · cases h
  · cases h

/-- A grant that is not issued changes nothing. -/
theorem issuePairGrant_refused {j : SlotIdx} {inst : InstanceId} {role : AccessLevel} {mode : UInt8}
    (h : (issuePairGrant w c j inst role mode nowMs s).1 = false) :
    (issuePairGrant w c j inst role mode nowMs s).2 = s := by
  cases hcan : s.hub.pairing.canGrant inst with
  | true =>
    rw [(ledger_issuePairGrant (w := w) (c := c) j inst role mode nowMs s hcan).1] at h
    cases h
  | false =>
    unfold issuePairGrant
    rw [mintEntry_refused role mode hcan]

/-- The state `u` from which the refusal was sent, if there was one. -/
def Refuses (w : World ε) (c : Config) (i : SlotIdx) (nowMs : UInt32) (m : IntentMsg) (s t : Sys ε) : Prop :=
  ∃ u, Prepared w c i nowMs m s u ∧ AfterNack w c i nowMs u t

theorem refuses_of_hub {m : IntentMsg} (h : AfterNack w c i nowMs s t) : Refuses w c i nowMs m s t :=
  ⟨s, .inl rfl, h⟩

/-- A refused `estop_clear` stops before the latch is touched. -/
theorem refuses_intentEstopClear {m : IntentMsg} (h : Nacked s (intentEstopClear w c i m nowMs s)) :
    Refuses w c i nowMs m s (intentEstopClear w c i m nowMs s) := by
  unfold intentEstopClear at h ⊢
  split
  · exact refuses_of_hub (afterNack_tracked _ rfl)
  · rename_i hrole
    rw [if_neg hrole] at h
    dsimp only at h ⊢
    cases hok : (clearEstop w c s).1 with
    | false =>
      have hsame : (clearEstop w c s).2.hub = s.hub := by
        unfold clearEstop at hok ⊢
        split at hok
        · rename_i hset
          rw [if_pos hset]
        · rename_i hset
          rw [if_neg hset]
          dsimp only at hok ⊢
          split at hok
          · rename_i hc
            rw [if_pos hc]
            rfl
          · cases hok
      exact refuses_of_hub (afterNack_tracked _ hsame)
    | true =>
      rw [hok] at h
      refine absurd h (Writes.not_nacked (N := fun _ => False) ?_)
      exact (writes_clearEstop (fun _ => plain_ne_nack) s).trans (writes_acceptIntent (fun _ => plain_ne_nack) i m _ _ _)

/-- A refused approval has at most dropped the pending entry it was about. -/
theorem refuses_adminApprove {m : IntentMsg} {op : UInt64} (hm : m.PairApprove)
    (h : Nacked s (adminApprove w c i m op (adminOp m) nowMs s)) :
    Refuses w c i nowMs m s (adminApprove w c i m op (adminOp m) nowMs s) := by
  have hnack : ∀ code, Refuses w c i nowMs m s (adminNack w c i m code nowMs s) :=
    fun _ => refuses_of_hub (afterNack_tracked _ rfl)
  unfold adminApprove at h ⊢
  split
  · rename_i inst role htarget hlevel
    rw [htarget, hlevel] at h
    dsimp only at h
    split
    · exact hnack _
    · rename_i hrole
      rw [if_neg hrole] at h
      split
      · exact hnack _
      · rename_i k hk
        rw [hk] at h
        dsimp only at h
        split
        · rename_i hjoin
          refine ⟨_, .inr (.inr ⟨hm, inst, k, htarget, hk, hjoin, rfl⟩), afterNack_tracked _ rfl⟩
        · rename_i j hjoin
          rw [hjoin] at h
          dsimp only at h ⊢
          cases hok : (issuePairGrant w c j inst role k.mode nowMs s).1 with
          | false =>
            rw [issuePairGrant_refused hok]
            exact hnack _
          | true =>
            rw [hok] at h
            refine absurd h (Writes.not_nacked (N := fun _ => False) ?_)
            exact (writes_issuePairGrant (fun _ => plain_ne_nack) j (by decide) inst role k.mode nowMs s).trans
              (writes_acceptIntent (fun _ => plain_ne_nack) i m _ _ _)
  · exact hnack _

/-- The admin operations, one by one: each NACK is sent before, or instead of, the operation's effect. -/
theorem refuses_handleAdminIntent {m : IntentMsg} (hch : m.channelId = Channels.sessionAdmin)
    (h : Nacked s (handleAdminIntent w c i m nowMs s)) : Refuses w c i nowMs m s (handleAdminIntent w c i m nowMs s) := by
  have hT : ∀ ty, FrameType.Plain ty → ty ≠ .nack := fun _ => plain_ne_nack
  have hnack : ∀ code, Refuses w c i nowMs m s (adminNack w c i m code nowMs s) :=
    fun _ => refuses_of_hub (afterNack_tracked _ rfl)
  have hecho : ∀ (op : UInt64) (t : Sys ε), Writes (· ≠ .nack) (fun _ => False) t (adminEcho w c i m op nowMs t) :=
    fun op t => writes_acceptIntent hT i m _ nowMs t
  unfold handleAdminIntent at h ⊢
  dsimp only at h ⊢
  split
  · exact hnack _
  · rename_i op hop
    rw [hop] at h
    dsimp only at h
    split
    · rename_i hev
      rw [if_pos hev] at h
      unfold adminEvict at h ⊢
      split
      · exact hnack _
      · rename_i v hv
        rw [hv] at h
        refine absurd h (Writes.not_nacked (N := fun _ => False) ?_)
        exact ((hecho op s).trans (writes_sendGoodbye hT v _ _)).trans (writes_teardownSession hT v _ _)
    · rename_i hev
      rw [if_neg hev] at h
      split
      · rename_i happ
        rw [if_pos happ] at h
        exact refuses_adminApprove ⟨hch, hop.trans (congrArg some happ)⟩ h
      · rename_i happ
        rw [if_neg happ] at h
        split
        · rename_i hdeny
          rw [if_pos hdeny] at h
          unfold adminDeny at h ⊢
          split
          · exact hnack _
          · rename_i inst k hk
            rw [hk] at h
            refine absurd h (Writes.not_nacked (N := fun _ => False) ?_)
            have hrevoke : ∀ t : Sys ε, Writes (· ≠ .nack) (fun _ => False) t
                (if k.reapproval then revokeDevice w c inst k.mode nowMs t else t) := by
              intro t
              split
              · have hset : Writes (· ≠ .nack) (fun _ => False) t (modPairing (fun p => (p.revoke inst).getD p) t) :=
                  .same rfl
                exact (hset.trans (writes_emitPairingEvent hT _ _ _ _ _ _ _ _)).trans (writes_publishRoster _)
              · exact .refl t
            have hremove : Writes (· ≠ .nack) (fun _ => False) s (modPending (fun l => l.remove inst) s) := .same rfl
            exact (((hremove.trans (hrevoke _)).trans (writes_emitPairingEvent hT _ _ _ _ _ _ _ _)).trans
              (writes_publishPending _ _)).trans (hecho op _)
        · rename_i hdeny
          rw [if_neg hdeny] at h
          split
          · rename_i hrev
            rw [if_pos hrev] at h
            unfold adminRevoke at h ⊢
            split
            · exact hnack _
            · rename_i inst p hp
              rw [hp] at h
              refine absurd h (Writes.not_nacked (N := fun _ => False) ?_)
              have hset : Writes (· ≠ .nack) (fun _ => False) s (modPending (fun l => l.remove inst) (setPairing p s)) :=
                .same rfl
              exact (((hset.trans (writes_emitPairingEvent hT _ _ _ _ _ _ _ _)).trans (writes_publishRoster _)).trans
                (writes_publishPending _ _)).trans (hecho op _)
          · exact hnack _

/-- The host's refusal is the only NACK of a delegated intent, and nothing was mirrored. -/
theorem refuses_delegateIntent {m : IntentMsg} {mapped : Option UInt8} (h : Nacked s (delegateIntent w c i m mapped nowMs s)) :
    (∃ code, (w.applyIntent m.channelId m.value (s.session i).role s.env).1.1 = .error code) ∧
      AfterNack w c i nowMs s (delegateIntent w c i m mapped nowMs s) := by
  have hT : ∀ ty, FrameType.Plain ty → ty ≠ .nack := fun _ => plain_ne_nack
  unfold delegateIntent at h ⊢
  generalize w.applyIntent m.channelId m.value (s.session i).role s.env = r at h ⊢
  obtain ⟨⟨res, cfgChanged⟩, env⟩ := r
  dsimp only at h ⊢
  cases res with
  | error code => exact ⟨⟨code, rfl⟩, afterNack_tracked _ rfl⟩
  | ok applied =>
    refine absurd h (Writes.not_nacked (N := fun _ => False) ?_)
    have hask : Writes (· ≠ .nack) (fun _ => False) s { s.log (.applyIntent i m.channelId m.value mapped (.ok applied)) with env } :=
      (Writes.log (.applyIntent i m.channelId m.value mapped (.ok applied)) trivial s).trans (.same rfl)
    exact (hask.trans (writes_noteApplied hT i m _ _ _ _)).trans (writes_acceptIntent hT i m _ _ _)

/-- The NACK of two steps in a row is the second's when the first writes none. -/
theorem Nacked.of_trans {N : SlotIdx → Prop} (h : Nacked s u) (hst : Writes (· ≠ .nack) N s t)
    (htu : ∃ new, u.trace = new ++ t.trace) : Nacked t u := by
  obtain ⟨new, hu, x, hx, hn⟩ := h
  obtain ⟨new₁, ht, hnew₁⟩ := hst.grows
  obtain ⟨new₂, hu₂⟩ := htu
  have heq : new = new₂ ++ new₁ := by
    refine List.append_cancel_right (hu.symm.trans ?_)
    rw [hu₂, ht, List.append_assoc]
  rw [heq] at hx
  rcases List.mem_append.mp hx with hx | hx
  · exact ⟨new₂, hu₂, x, hx, hn⟩
  · exact absurd rfl (hnew₁ x hx .nack hn)

/-- Delegation only adds to the trace. -/
theorem delegateIntent_grows (i : SlotIdx) (m : IntentMsg) (mapped : Option UInt8) (nowMs : UInt32) (s : Sys ε) :
    ∃ new, (delegateIntent w c i m mapped nowMs s).trace = new ++ s.trace := by
  obtain ⟨new, hnew, -⟩ := (writes_delegateIntent (w := w) (c := c) (T := fun _ => True) (N := fun _ => False)
    (fun _ _ => trivial) i trivial m mapped nowMs s).grows
  exact ⟨new, hnew⟩

/-- Taking a source is announced, not refused. -/
theorem writes_acquired {m : IntentMsg} {src : UInt8} (h : (acquireForIntent w c i m src nowMs s).1 = true) :
    Writes (· ≠ .nack) (fun _ => False) s (acquireForIntent w c i m src nowMs s).2 := by
  unfold acquireForIntent at h ⊢
  dsimp only at h ⊢
  generalize ht : ({ s with hub := { s.hub with ownership :=
    (s.hub.ownership.acquire src (s.session i).sessionId (s.session i).role m.takeover).2 } } : Sys ε) = t at h ⊢
  have hown : Writes (· ≠ .nack) (fun _ => False) s t := by
    rw [← ht]
    exact .same rfl
  split at h
  · cases h
  · exact hown
  · exact hown.trans ((writes_notify _ _).trans (writes_publishControlOwner _))
  · exact (hown.trans ((writes_notify _ _).trans (writes_publishControlOwner _))).trans
      (writes_emitTakeoverEvent (fun _ => plain_ne_nack) _ _ _ _)

/-- The apply step: a NACK comes from the ownership test or from the host. -/
theorem refuses_applyIntent {m : IntentMsg} (h : Nacked s (applyIntent w c i m nowMs s)) :
    Refuses w c i nowMs m s (applyIntent w c i m nowMs s) := by
  unfold applyIntent at h ⊢
  cases hmap : w.sourceForChannel m.channelId s.env with
  | mk mapped env =>
    rw [hmap] at h
    cases mapped with
    | none =>
      have hmapped : Nacked { s with env } (delegateIntent w c i m none nowMs { s with env }) := h
      exact refuses_of_hub (refuses_delegateIntent hmapped).2
    | some src =>
      dsimp only at h ⊢
      cases hok : (acquireForIntent w c i m src nowMs { s with env }).1 with
      | false =>
        rw [if_neg Bool.false_ne_true]
        exact refuses_of_hub (acquireForIntent_refused hok)
      | true =>
        rw [hok, if_pos rfl] at h
        rw [if_pos rfl]
        have hacquired := writes_acquired hok
        have hasked := Nacked.of_trans h (hacquired.after rfl) (delegateIntent_grows i m (some src) nowMs _)
        obtain ⟨hcode, hafter⟩ := refuses_delegateIntent hasked
        exact ⟨_, .inr (.inl ⟨⟨src, { s with env }, rfl, by rw [hmap], hok, rfl⟩, hcode⟩), hafter⟩

/-- The dispatch over channels: safety, admin and ordinary targets. -/
theorem refuses_performIntent {m : IntentMsg} (h : Nacked s (performIntent w c i m nowMs s)) :
    Refuses w c i nowMs m s (performIntent w c i m nowMs s) := by
  unfold performIntent at h ⊢
  split
  · rename_i hclear
    rw [if_pos hclear] at h
    exact refuses_intentEstopClear h
  · rename_i hclear
    rw [if_neg hclear] at h
    split
    · rename_i hstop
      rw [if_pos hstop] at h
      refine absurd h (Writes.not_nacked (N := fun _ => False) ?_)
      exact (writes_handleEstopFrame (fun _ => plain_ne_nack) _ _ s).trans
        (writes_acceptIntent (fun _ => plain_ne_nack) i m _ _ _)
    · rename_i hstop
      rw [if_neg hstop] at h
      split
      · rename_i hch
        rw [if_pos hch] at h
        exact refuses_handleAdminIntent hch h
      · rename_i hch
        rw [if_neg hch] at h
        exact refuses_applyIntent h

/-- Where the refusal of a frame comes from: `b` is what the checks of the pipeline make of `s`. -/
def RefusesFrame (w : World ε) (c : Config) (i : SlotIdx) (nowMs : UInt32) (msg : Option IntentMsg) (s t : Sys ε) : Prop :=
  match msg with
  | none => AfterNack w c i nowMs s t
  | some m => Refuses w c i nowMs m (spendIntent i nowMs s) t

/-- `handleIntent` whole, the frame that does not decode included. -/
theorem refuses_handleIntent {msg : Option IntentMsg} (h : Nacked s (handleIntent w c i msg nowMs s)) :
    RefusesFrame w c i nowMs msg s (handleIntent w c i msg nowMs s) := by
  cases msg with
  | none => exact afterNack_untracked _ rfl
  | some m =>
    have hspend : ∀ t : Sys ε, Nacked s t → (∃ new, t.trace = new ++ (spendIntent i nowMs s).trace) →
        Nacked (spendIntent i nowMs s) t := fun t ht hgrows =>
          ht.of_trans (N := fun _ => False) (.modSession i (fun _ => by rfl) s) hgrows
    show Refuses w c i nowMs m (spendIntent i nowMs s) (handleIntent w c i (some m) nowMs s)
    unfold handleIntent at h ⊢
    dsimp only at h ⊢
    split
    · exact refuses_of_hub (afterNack_untracked _ rfl)
    · rename_i hallow
      rw [if_neg hallow] at h
      change Nacked s (admitIntent w c i m nowMs (spendIntent i nowMs s)) at h
      show Refuses w c i nowMs m (spendIntent i nowMs s) (admitIntent w c i m nowMs (spendIntent i nowMs s))
      unfold admitIntent at h ⊢
      split
      · exact refuses_of_hub (afterNack_untracked _ rfl)
      · rename_i hready
        rw [if_neg hready] at h
        split
        · rename_i cached hcached
          rw [hcached] at h
          refine absurd h (Writes.not_nacked (N := fun _ => False) ?_)
          exact (Writes.modSession i (fun _ => by rfl) s).trans
            (writes_sendFrameToTracked (fun _ => plain_ne_nack) i (by decide) (by trivial) _ _ _ _ _)
        · rename_i hnew
          rw [hnew] at h
          dsimp only at h
          split
          · exact refuses_of_hub (afterNack_untracked _ rfl)
          · rename_i hok
            rw [hok] at h
            dsimp only at h
            obtain ⟨new, hgrows, -⟩ := (writes_performIntent (w := w) (c := c) (T := fun _ => True)
              (N := fun _ => False) (fun _ _ => trivial) i trivial m (fun _ => trivial) nowMs
              (spendIntent i nowMs s)).grows
            exact refuses_performIntent (hspend _ h ⟨new, hgrows⟩)

/-! ## What is spared -/

/-- The generation, the latch, the ledger and the rings are the same. -/
structure Spared (s t : Sys ε) : Prop where
  cfgGen : t.hub.cfgGen = s.hub.cfgGen
  safety : t.hub.safety = s.hub.safety
  ledger : t.hub.pairing.entries = s.hub.pairing.entries
  ring : ∀ j, (t.session j).intentRing = (s.session j).intentRing

/-- The act touches none of these. -/
def Label.Harmless : Label → Prop
  | .cfg | .safety | .clear | .ledger | .mint _ _ | .restore | .accept _ | .free _ | .enrol _ _ | .migrate _ _ => False
  | _ => True

/-- A harmless step leaves the configuration generation, the safety word, the pairing entries and every replay ring
alone. -/
theorem Act.harmless {now : UInt32} {rx : Option SlotIdx} {l : Label} {v v' : View} (hl : l.Harmless)
    (h : Act c now rx l v v') : v'.cfgGen = v.cfgGen ∧ v'.safety = v.safety ∧ v'.pairing.entries = v.pairing.entries ∧
      ∀ j, (v'.slots j).ring = (v.slots j).ring := by
  have hring : ∀ j, l.KeepsRing j := by
    intro j
    cases l <;> first | exact trivial | exact hl.elim
  refine ⟨?_, ?_, ?_, fun j => Act.ring_eq (hring j) h⟩
  · cases h <;> first | rfl | exact hl.elim
  · cases h <;> first | rfl | exact hl.elim
  · cases h with
    | window q hq => exact hq
    | ledger | mint | restore => exact hl.elim
    | _ => rfl

namespace Spared

theorem trans (h : Spared s t) (h' : Spared t u) : Spared s u :=
  ⟨h'.cfgGen.trans h.cfgGen, h'.safety.trans h.safety, h'.ledger.trans h.ledger, fun j => (h'.ring j).trans (h.ring j)⟩

theorem of_hub (h : t.hub = s.hub) : Spared s t := by
  refine ⟨congrArg Hub.cfgGen h, congrArg Hub.safety h, congrArg (fun g => g.pairing.entries) h, fun j => ?_⟩
  exact congrArg (fun g => (g.slots j).session.intentRing) h

/-- A run of harmless steps spares what a refusal must spare. -/
theorem of_does {now : UInt32} {rx : Option SlotIdx} {P : Label → Prop} (h : Does c now rx P s t)
    (hP : ∀ l, P l → l.Harmless) : Spared s t := by
  refine ⟨?_, ?_, ?_, fun j => ?_⟩
  · exact Path.frame (f := View.cfgGen) h fun l _ _ hl ha => (ha.harmless (hP l hl)).1
  · exact Path.frame (f := View.safety) h fun l _ _ hl ha => (ha.harmless (hP l hl)).2.1
  · exact Path.frame (f := fun v => v.pairing.entries) h fun l _ _ hl ha => (ha.harmless (hP l hl)).2.2.1
  · exact Path.frame (f := fun v => (v.slots j).ring) h fun l _ _ hl ha => (ha.harmless (hP l hl)).2.2.2 j

theorem of_emits (h : Emits s t) : Spared s t := by
  refine ⟨h.cfgGen, h.safety, congrArg PairingManager.entries h.pairing, fun j => ?_⟩
  show (t.hub.slots j).session.intentRing = _
  rw [h.slot j]
  rfl

end Spared

/-- Parking a session is harmless in this sense. -/
theorem Label.Parks.harmless {l : Label} {i : SlotIdx} (h : l.Parks i) : l.Harmless := by
  cases l <;> first | exact trivial | exact h.elim

/-- What follows the NACK spares the same. -/
theorem AfterNack.spared (h : AfterNack w c i nowMs u t) : Spared u t := by
  rcases h with ⟨stall, hst⟩ | ⟨u', hu', -, hpark⟩
  · refine Spared.trans ?_ (.of_hub hst)
    refine ⟨rfl, rfl, rfl, fun j => ?_⟩
    by_cases hj : j = i
    · subst hj
      rw [Sys.session, Sys.slot_modSlot_self]
    · rw [Sys.session, Sys.slot_modSlot_ne _ hj]
  · have hdoes : Does c nowMs none (Label.Parks i) u' (parkAndDetach w c i nowMs u') := parkAndDetach_does i nowMs u'
    exact ((Spared.of_hub hu').trans (.of_does hdoes fun _ => Label.Parks.harmless)).trans (.of_hub hpark)

/-- The hub but for who owns what, what is retained and what is queued or pending. -/
structure Aside (s u : Sys ε) : Prop extends Spared s u where
  stalled : ∀ j ms, SlopSync.stalled (u.slot j) ms = SlopSync.stalled (s.slot j) ms
  role : ∀ j, (u.session j).role = (s.session j).role
  sid : ∀ j, (u.session j).sessionId = (s.session j).sessionId

theorem Aside.of_hub (h : u.hub = s.hub) : Aside s u :=
  ⟨.of_hub h, fun j ms => congrArg (fun g => SlopSync.stalled (g.slots j) ms) h,
    fun j => congrArg (fun g => (g.slots j).session.role) h, fun j => congrArg (fun g => (g.slots j).session.sessionId) h⟩

theorem Aside.of_emits (h : Emits s u) : Aside s u := by
  refine ⟨.of_emits h, fun j ms => ?_, h.role, fun j => ?_⟩
  · rw [Sys.slot, h.slot j]
    rfl
  · show (u.hub.slots j).session.sessionId = _
    rw [h.slot j]
    rfl

theorem Aside.trans (h : Aside s t) (h' : Aside t u) : Aside s u :=
  ⟨h.toSpared.trans h'.toSpared, fun j ms => (h'.stalled j ms).trans (h.stalled j ms),
    fun j => (h'.role j).trans (h.role j), fun j => (h'.sid j).trans (h.sid j)⟩

/-- Retaining a payload touches the retained store only. -/
theorem aside_retain (ch : UInt16) (payload : Bytes) (s : Sys ε) : Aside s (retain ch payload s) := by
  unfold retain
  split
  · exact .of_hub rfl
  · exact ⟨⟨rfl, rfl, rfl, fun _ => rfl⟩, fun _ _ => rfl, fun _ => rfl, fun _ => rfl⟩

/-- Announcing the owners touches the retained store only. -/
theorem aside_publishControlOwner (s : Sys ε) : Aside s (publishControlOwnerStateIfPresent c s) := by
  unfold publishControlOwnerStateIfPresent
  split
  · exact .of_hub rfl
  · exact aside_retain _ _ s

/-- Announcing the pending pairings touches the retained store only. -/
theorem aside_publishPending (ms : UInt32) (s : Sys ε) : Aside s (publishPendingPairingState c ms s) := by
  unfold publishPendingPairingState
  split
  · exact .of_hub rfl
  · exact aside_retain _ _ s

/-- What a source taken for an intent makes of the table and the snapshot. -/
structure Taking (c : Config) (s : Sys ε) (i : SlotIdx) (m : IntentMsg) (src : UInt8) (u : Sys ε) : Prop where
  table : u.hub.ownership = (s.hub.ownership.acquire src (s.session i).sessionId (s.session i).role m.takeover).2
  owner : u.hub.ownership.ownerOf src = (s.session i).sessionId
  snapshot : u.hub.retained = s.hub.retained ∨ u.hub.retained = snapshotOwners c s.hub.retained u.hub.ownership.ownerOf

theorem Aside.of_table {o : SourceOwnershipTable} (h : t.hub = { s.hub with ownership := o }) : Aside s t := by
  have hslot : ∀ j, t.slot j = s.slot j := by
    intro j
    show t.hub.slots j = s.hub.slots j
    rw [h]
  refine ⟨⟨by rw [h], by rw [h], by rw [h], fun j => ?_⟩, fun j ms => ?_, fun j => ?_, fun j => ?_⟩
  · exact congrArg (fun sl => sl.session.intentRing) (hslot j)
  · rw [hslot]
  · exact congrArg (fun sl => sl.session.role) (hslot j)
  · exact congrArg (fun sl => sl.session.sessionId) (hslot j)

/-- A change of a session that keeps its ring, its role and its id. -/
theorem Aside.modSession {f : HubSession → HubSession} (hring : ∀ se, (f se).intentRing = se.intentRing)
    (hrole : ∀ se, (f se).role = se.role) (hsid : ∀ se, (f se).sessionId = se.sessionId) : Aside s (s.modSession i f) := by
  have hslot : ∀ {α : Type} (g : Slot → α), (∀ sl : Slot, g { sl with session := f sl.session } = g sl) →
      ∀ j, g ((s.modSession i f).slot j) = g (s.slot j) := by
    intro α g hg j
    by_cases hj : j = i
    · subst hj
      rw [Sys.modSession, Sys.slot, Sys.slot_modSlot_self]
      exact hg _
    · rw [Sys.modSession, Sys.slot, Sys.slot_modSlot_ne _ hj]
  refine ⟨⟨rfl, rfl, rfl, hslot (fun sl => sl.session.intentRing) fun sl => hring _⟩, fun j ms => ?_, ?_, ?_⟩
  · exact hslot (fun sl => SlopSync.stalled sl ms) (fun _ => rfl) j
  · exact hslot (fun sl => sl.session.role) fun sl => hrole _
  · exact hslot (fun sl => sl.session.sessionId) fun sl => hsid _

/-- The source is handed over: the delegate is told and the snapshot published. -/
theorem taking_handed {m : IntentMsg} {src : UInt8} {n : Note}
    (htable : t.hub = { s.hub with ownership := (s.hub.ownership.acquire src (s.session i).sessionId
      (s.session i).role m.takeover).2 })
    (howner : t.hub.ownership.ownerOf src = (s.session i).sessionId) :
    Aside s (publishControlOwnerStateIfPresent c (notify w n t)) ∧
      Taking c s i m src (publishControlOwnerStateIfPresent c (notify w n t)) := by
  have hnotified : (notify w n t).hub = t.hub := rfl
  have haside : Aside s (notify w n t) := .of_table (hnotified.trans htable)
  have hview := view_publishControlOwner (c := c) (notify w n t)
  have htab : (publishControlOwnerStateIfPresent c (notify w n t)).hub.ownership = t.hub.ownership := by
    unfold publishControlOwnerStateIfPresent retain
    split
    · rfl
    · split <;> rfl
  refine ⟨haside.trans (aside_publishControlOwner _), ?_, ?_, .inr ?_⟩
  · rw [htab]
    rw [htable]
  · rw [htab]
    exact howner
  · rw [htab]
    refine (congrArg View.retained hview).trans ?_
    show snapshotOwners c t.hub.retained t.hub.ownership.ownerOf = _
    rw [show t.hub.retained = s.hub.retained by rw [htable]]

/-- A table that grants a source records the asking session as its owner. -/
theorem owner_acquire {o : SourceOwnershipTable} {src : UInt8} {sid : UInt32} {role : AccessLevel} {takeover : Bool}
    (hne : (o.acquire src sid role takeover).1 ≠ .conflict) : (o.acquire src sid role takeover).2.ownerOf src = sid := by
  cases hacq : o.acquire src sid role takeover with
  | mk res o' =>
    rw [hacq] at hne
    rcases SourceOwnershipTable.acquire_spec hacq with ⟨-, hown, -⟩ | ⟨⟨-, hsid, -⟩ | hconf, hown, -⟩
    · rw [hown, Function.update_self]
    · rw [hown, hsid]
    · exact absurd hconf hne

/-- A granted takeover changes the owner of that one source and announces it. -/
theorem taking_acquireForIntent {m : IntentMsg} {src : UInt8} (h : (acquireForIntent w c i m src nowMs s).1 = true) :
    Aside s (acquireForIntent w c i m src nowMs s).2 ∧ Taking c s i m src (acquireForIntent w c i m src nowMs s).2 := by
  unfold acquireForIntent at h ⊢
  dsimp only at h ⊢
  generalize ht : ({ s with hub := { s.hub with ownership :=
    (s.hub.ownership.acquire src (s.session i).sessionId (s.session i).role m.takeover).2 } } : Sys ε) = t at h ⊢
  have htable : t.hub = { s.hub with ownership := (s.hub.ownership.acquire src (s.session i).sessionId
      (s.session i).role m.takeover).2 } := by
    rw [← ht]
  have hsource : (s.hub.ownership.acquire src (s.session i).sessionId (s.session i).role m.takeover).1 ≠ .conflict →
      t.hub.ownership.ownerOf src = (s.session i).sessionId := by
    intro hne
    rw [htable]
    exact owner_acquire hne
  split at h
  · cases h
  · rename_i hres
    exact ⟨.of_table htable, by rw [htable], hsource (by rw [hres]; decide), .inl (by rw [htable])⟩
  · rename_i hres
    exact taking_handed htable (hsource (by rw [hres]; decide))
  · rename_i hres
    obtain ⟨haside, htaking⟩ := taking_handed (w := w) (c := c) (n := .onSourceOwnership src (s.session i).sessionId 1)
      htable (hsource (by rw [hres]; decide))
    have hemit := emits_emitTakeoverEvent (w := w) src (s.session i).sessionId nowMs
      (publishControlOwnerStateIfPresent c (notify w (.onSourceOwnership src (s.session i).sessionId 1) t))
    refine ⟨haside.trans (.of_emits hemit), ?_, ?_, ?_⟩
    · rw [hemit.ownership]
      exact htaking.table
    · rw [hemit.ownership]
      exact htaking.owner
    · rw [hemit.ownership, hemit.retained]
      exact htaking.snapshot

/-- Dropping a pending entry changes no owner. -/
theorem Departed.aside {m : IntentMsg} (h : Departed w c nowMs m s u) : Aside s u ∧
    u.hub.ownership = s.hub.ownership ∧
    u.hub.retained.get Channels.controlOwner = s.hub.retained.get Channels.controlOwner := by
  obtain ⟨inst, k, -, -, -, rfl⟩ := h.knock
  have hemit := emits_emitPairingEvent (w := w) c PairingEventKinds.expired inst.val [] k.mode .watch [] nowMs
    (modPending (fun l => l.remove inst) s)
  have hdrop : Aside s (modPending (fun l => l.remove inst) s) := ⟨⟨rfl, rfl, rfl, fun _ => rfl⟩, fun _ _ => rfl, fun _ => rfl, fun _ => rfl⟩
  refine ⟨(hdrop.trans (.of_emits hemit)).trans (aside_publishPending _ _), ?_, ?_⟩
  · unfold publishPendingPairingState retain
    split
    · exact hemit.ownership
    · split <;> exact hemit.ownership
  · unfold publishPendingPairingState
    split
    · exact congrArg (fun r => r.get Channels.controlOwner) hemit.retained
    · refine (congrArg (fun v => v.retained.get Channels.controlOwner) (view_retain _ _ _)).trans ?_
      refine (get_publishOr_other _ (by decide) _).trans ?_
      exact congrArg (fun r => r.get Channels.controlOwner) hemit.retained

/-! ## Refused intents -/

/-- The delegate refused an intent after the source of its channel was taken. -/
structure Declined (w : World ε) (c : Config) (s : Sys ε) (i : SlotIdx) (m : IntentMsg) (t : Sys ε) : Prop where
  refused : ∃ e code, (w.applyIntent m.channelId m.value (s.session i).role e).1.1 = .error code
  taking : ∃ src e, (w.sourceForChannel m.channelId e).1 = some src ∧ Taking c s i m src t

/-- Nothing about the sources changed. -/
def SameOwners (s t : Sys ε) : Prop :=
  t.hub.ownership = s.hub.ownership ∧
    t.hub.retained.get Channels.controlOwner = s.hub.retained.get Channels.controlOwner

/-- Everything before the NACK leaves the owners alone, unless the host itself declined after a takeover. -/
theorem Prepared.aside {m : IntentMsg} (h : Prepared w c i nowMs m s u) :
    Aside s u ∧ (SameOwners s u ∨ Declined w c s i m u) := by
  rcases h with h | h | h
  · exact ⟨.of_hub h, .inl ⟨congrArg Hub.ownership h, congrArg (fun g => g.retained.get Channels.controlOwner) h⟩⟩
  · obtain ⟨src, s', hs', hsrc, hok, hu⟩ := h.source
    obtain ⟨code, hcode⟩ := h.refused
    obtain ⟨haside, htable, howner, hsnap⟩ := taking_acquireForIntent hok
    have hsession : s'.session i = s.session i := congrArg (fun g => (g.slots i).session) hs'
    have hall : Aside s u := ((Aside.of_hub hs').trans haside).trans (.of_hub hu)
    rw [hall.role i] at hcode
    refine ⟨hall, .inr ⟨⟨u.env, code, hcode⟩, src, s.env, hsrc, ?_⟩⟩
    refine ⟨?_, ?_, ?_⟩
    · rw [hu, htable, hsession, hs']
    · rw [hu, howner, hsession]
    · rw [hu, ← hs']
      exact hsnap
  · obtain ⟨haside, hsame⟩ := h.aside
    exact ⟨haside, .inl hsame⟩

/-- After the NACK the owners change only when the stalled link is parked. -/
theorem AfterNack.owners (h : AfterNack w c i nowMs u t) :
    (t.hub.ownership = u.hub.ownership ∧ t.hub.retained = u.hub.retained) ∨
      stalled (u.slot i) nowMs = true ∧ ∃ u' : Sys ε, u'.hub = u.hub ∧ t.hub = (parkAndDetach w c i nowMs u').hub := by
  rcases h with ⟨stall, hst⟩ | ⟨u', hu', hstalled, hpark⟩
  · refine .inl ⟨?_, ?_⟩ <;> rw [hst] <;> rfl
  · exact .inr ⟨hstalled, u', hu', hpark⟩

/-- What an intent of slot `i` that was refused by a NACK leaves. -/
structure RefusedIntent (w : World ε) (c : Config) (s : Sys ε) (i : SlotIdx) (seq : UInt16) (msg : Option IntentMsg)
    (t : Sys ε) : Prop where
  spared : Spared s t
  owners : SameOwners s t ∨ (∃ m, msg = some m ∧ Declined w c s i m t) ∨ stalled (s.slot i) s.hub.monoMs.ms = true
  effect : ∃ u, t.hub = { u.hub with dispatchSeq := none } ∧
    RefusesFrame w c i s.hub.monoMs.ms msg (heard w s i seq) u

/-- Reading the frame changes nothing an intent depends on. -/
structure Calm (s u : Sys ε) : Prop extends Aside s u where
  ownership : u.hub.ownership = s.hub.ownership
  retained : u.hub.retained = s.hub.retained

theorem Calm.trans (h : Calm s t) (h' : Calm t u) : Calm s u :=
  ⟨h.toAside.trans h'.toAside, h'.ownership.trans h.ownership, h'.retained.trans h.retained⟩

theorem Calm.of_hub (h : u.hub = s.hub) : Calm s u :=
  ⟨.of_hub h, congrArg Hub.ownership h, congrArg Hub.retained h⟩

/-- The keepalive stamp is calm: it moves a clock and nothing else. -/
theorem calm_stamp (ms : UInt32) (s : Sys ε) : Calm s (s.modSession i fun se => { se with lastRxMs := ms }) :=
  ⟨.modSession (fun _ => rfl) (fun _ => rfl) fun _ => rfl, rfl, rfl⟩

/-- The return from STALE to LIVE is calm. -/
theorem calm_reviveIfStale (ms : UInt32) (s : Sys ε) : Calm s (reviveIfStale w i ms s) := by
  unfold reviveIfStale
  dsimp only
  split
  · have hemit := emits_emitSessionEvent (w := w) SessionEventKinds.sessionResumed
      ((s.modSession i fun se => { se with state := .live, staleSinceMs := 0 }).session i).sessionId ms
      (s.modSession i fun se => { se with state := .live, staleSinceMs := 0 })
    have hlive : Aside s (s.modSession i fun se => { se with state := .live, staleSinceMs := 0 }) :=
      .modSession (fun _ => rfl) (fun _ => rfl) fun _ => rfl
    exact ⟨hlive.trans (.of_emits hemit), hemit.ownership, hemit.retained⟩
  · exact .of_hub rfl

theorem calm_heard (i : SlotIdx) (seq : UInt16) (s : Sys ε) : Calm s (heard w s i seq) := by
  have hread : Calm s (s.log (.read i)) := .of_hub rfl
  have hrx : Calm s (noteRx w i s.hub.monoMs.ms s) := by
    unfold noteRx
    dsimp only
    refine Calm.trans ?_ (calm_reviveIfStale _ _)
    split
    · exact hread.trans (calm_stamp _ _)
    · exact hread
  refine hrx.trans ⟨⟨⟨rfl, rfl, rfl, fun _ => rfl⟩, fun _ _ => rfl, fun _ => rfl, fun _ => rfl⟩, rfl, rfl⟩

theorem calm_spendIntent (nowMs : UInt32) (s : Sys ε) : Calm s (spendIntent i nowMs s) :=
  ⟨.modSession (fun _ => rfl) (fun _ => rfl) fun _ => rfl, rfl, rfl⟩

theorem SameOwners.trans (h : SameOwners s t) (h' : SameOwners t u) : SameOwners s u :=
  ⟨h'.1.trans h.1, h'.2.trans h.2⟩

theorem Calm.sameOwners (h : Calm s t) : SameOwners s t := ⟨h.ownership, by rw [h.retained]⟩

theorem Calm.declined {m : IntentMsg} (h : Calm s t) (hd : Declined w c t i m u) : Declined w c s i m u := by
  obtain ⟨hrefused, src, e, hsrc, htable, howner, hsnap⟩ := hd
  rw [h.role i] at hrefused
  rw [h.ownership, h.sid i, h.role i] at htable
  rw [h.sid i] at howner
  rw [h.retained] at hsnap
  exact ⟨hrefused, src, e, hsrc, htable, howner, hsnap⟩

/-- Put together: a refused frame spares the state, and who owned what still does. -/
theorem RefusesFrame.leaves {msg : Option IntentMsg} (h : RefusesFrame w c i nowMs msg s t) :
    Spared s t ∧ (SameOwners s t ∨ (∃ m, msg = some m ∧ Declined w c s i m t) ∨ stalled (s.slot i) nowMs = true) := by
  cases msg with
  | none =>
    have hnack : AfterNack w c i nowMs s t := h
    refine ⟨hnack.spared, hnack.owners.imp (fun hsame => ⟨hsame.1, ?_⟩) fun hpark => .inr hpark.1⟩
    rw [hsame.2]
  | some m =>
    obtain ⟨u, hprep, hnack⟩ := h
    have hspent : Calm s (spendIntent i nowMs s) := calm_spendIntent nowMs s
    obtain ⟨haside, howners⟩ := hprep.aside
    refine ⟨(hspent.toSpared.trans haside.toSpared).trans hnack.spared, ?_⟩
    rcases hnack.owners with ⟨hown, hret⟩ | ⟨hstalled, -⟩
    · rcases howners with hsame | hdeclined
      · exact .inl ((hspent.sameOwners.trans hsame).trans ⟨hown, by rw [hret]⟩)
      · obtain ⟨hrefused, src, e, hsrc, htable, howner, hsnap⟩ := hspent.declined hdeclined
        refine .inr (.inl ⟨m, rfl, hrefused, src, e, hsrc, hown.trans htable, ?_, ?_⟩)
        · rw [hown]
          exact howner
        · rw [hown, hret]
          exact hsnap
    · rw [haside.stalled, hspent.stalled] at hstalled
      exact .inr (.inr hstalled)

/-- **A refused intent changes nothing**, but for a source that was taken before the delegate refused, and for a session
that is parked because its link stalled. -/
theorem refused_intent_leaves {seq : UInt16} {msg : Option IntentMsg}
    (h : Nacked s (move w c s (.frame i (.frame seq (.intent msg))))) :
    RefusedIntent w c s i seq msg (move w c s (.frame i (.frame seq (.intent msg)))) := by
  have hheard : Calm s (heard w s i seq) := calm_heard i seq s
  have hmove : move w c s (.frame i (.frame seq (.intent msg))) =
      setDispatchSeq none (dispatch w c i (.intent msg) s.hub.monoMs.ms (heard w s i seq)) := rfl
  have hwrote : ¬Nacked s (heard w s i seq) :=
    Writes.not_nacked (N := fun _ => False) (writes_heard (fun _ => plain_ne_nack) i seq s)
  rw [hmove] at h ⊢
  cases hocc : ((heard w s i seq).session i).occupied with
  | false =>
    rw [dispatch_free hocc (by rintro _ ⟨⟩)] at h
    exact absurd h hwrote
  | true =>
    have hdispatch : dispatch w c i (.intent msg) s.hub.monoMs.ms (heard w s i seq) =
        handleIntent w c i msg s.hub.monoMs.ms (heard w s i seq) := by
      simp [dispatch, hocc]
    rw [hdispatch] at h ⊢
    obtain ⟨new, hgrows, -⟩ := (writes_dispatch (w := w) (c := c) (s := heard w s i seq) (T := fun _ => True)
      (N := fun _ => False) (fun _ _ => trivial) i (.intent msg) (fun h => h.elim) trivial (fun _ => trivial)
      s.hub.monoMs.ms rfl).grows
    rw [hdispatch] at hgrows
    have hnacked : Nacked (heard w s i seq) (handleIntent w c i msg s.hub.monoMs.ms (heard w s i seq)) :=
      Nacked.of_trans (N := fun _ => False) h (writes_heard (fun _ => plain_ne_nack) i seq s) ⟨new, hgrows⟩
    have heffect := refuses_handleIntent hnacked
    obtain ⟨hspared, howners⟩ := heffect.leaves
    refine ⟨(hheard.toSpared.trans hspared).trans ⟨rfl, rfl, rfl, fun _ => rfl⟩, ?_, _, rfl, heffect⟩
    rcases howners with hsame | ⟨m, rfl, hdeclined⟩ | hstalled
    · exact .inl (hheard.sameOwners.trans hsame)
    · obtain ⟨hrefused, src, e, hsrc, htable, howner, hsnap⟩ := hheard.declined hdeclined
      exact .inr (.inl ⟨m, rfl, hrefused, src, e, hsrc, htable, howner, hsnap⟩)
    · rw [hheard.stalled] at hstalled
      exact .inr (.inr hstalled)

end

/-- The second of two clients with control takes over the source the first one steers, and the delegate declines. -/
def Bench.declined : Sys Bench :=
  move Bench.world Bench.config (run Bench.world Bench.config {}
    [.world { source := some 0, answer := .control }, .attachTransport 0, .attachTransport 1,
      Bench.reads 1000 0 [.hello (some (Bench.hello 1))], Bench.reads 1000 1 [.hello (some (Bench.hello 2))], Bench.steer,
      .world { source := some 0, answer := .control, draws := 2, result := .error .invalidValue }]) (.tick 3000)

def Bench.wrest : Move Bench :=
  .frame 1 (.frame 1 (.intent (some { intentId := 7, channelId := 0x0100, takeover := true })))

theorem Bench.taken_wrest : Taken Bench.world Bench.config Bench.declined Bench.wrest := by
  have hlink : (Bench.declined.slot 1).transport.isSome := by decide +kernel
  unfold Bench.wrest
  exact taken_frame (i := 1) _ rfl hlink

theorem Bench.nacked_wrest : Nacked Bench.declined (move Bench.world Bench.config Bench.declined Bench.wrest) := by
  have hfirst : (move Bench.world Bench.config Bench.declined Bench.wrest).trace.head?.map (fun x => x.2.wrote) =
      some (some .nack) := by decide +kernel
  have hlonger : (move Bench.world Bench.config Bench.declined Bench.wrest).trace.length ≠ Bench.declined.trace.length := by
    decide +kernel
  obtain ⟨new, hnew, -⟩ := (writes_move (w := Bench.world) (c := Bench.config) (T := fun _ => True)
    (N := fun _ => False) (fun _ _ => trivial) trivial (fun _ => trivial) (fun _ _ => id) Bench.taken_wrest.enabled).grows
  refine ⟨new, hnew, ?_⟩
  rw [hnew] at hfirst hlonger
  cases new with
  | nil => exact absurd (by rw [List.nil_append]) hlonger
  | cons x rest =>
    rw [List.cons_append, List.head?_cons, Option.map_some] at hfirst
    exact ⟨x, List.mem_cons_self, Option.some.inj hfirst⟩

theorem refused_intent_leaves_wrest : RefusedIntent Bench.world Bench.config Bench.declined 1 1
    (some { intentId := 7, channelId := 0x0100, takeover := true })
    (move Bench.world Bench.config Bench.declined Bench.wrest) :=
  refused_intent_leaves Bench.nacked_wrest

/-- The refused intent has taken the source from its owner. -/
theorem refused_intent_wrests :
    ¬∀ (s : Sys Bench) (m : Move Bench), Taken Bench.world Bench.config s m → ∀ i seq msg, m = .frame i (.frame seq (.intent msg)) →
      Nacked s (move Bench.world Bench.config s m) →
      (move Bench.world Bench.config s m).hub.ownership = s.hub.ownership := by
  intro h
  have hsame := h _ _ Bench.taken_wrest 1 1 _ rfl Bench.nacked_wrest
  have howner : (move Bench.world Bench.config Bench.declined Bench.wrest).hub.ownership.ownerOf 0 ≠
      Bench.declined.hub.ownership.ownerOf 0 := by decide +kernel
  exact howner (by rw [hsame])

end SlopSync
