import SlopSync.Hub.Intent
import SlopSync.Refine.Grants
import SlopSync.Refine.Pairing
import SlopSync.Refine.Push

/-! # Intents, as acts

What an intent of slot `i` can do to the hub, operation by operation.  Some acts are kept apart because only one
kind of intent takes each (`Powers`): the end of a session (`evict`), a role and a credential (`pair_approve`), a
cleared ESTOP (`estop_clear`) and a source taken from another session (`takeover`). -/

namespace SlopSync

open Keyed Labelled

/-- What an intent may do beyond the ordinary. -/
structure Powers where
  ends : SlotIdx → Prop
  roles : SlotIdx → AccessLevel → Prop
  mints : InstanceId → AccessLevel → Prop
  clears : Prop
  seizes : Prop

/-- The acts of an intent of slot `i`. -/
def Label.Intends (i : SlotIdx) (p : Powers) : Label → Prop
  | .apply j | .accept j => j = i
  | .acquire j takeover => j = i ∧ (takeover = true → p.seizes)
  | .free j => p.ends j
  | .role j r => p.roles j r
  | .mint inst r => p.mints inst r
  | .clear => p.clears
  | .safety | .cfg | .ledger => True
  | l => l.ParksAny

/-- An acceptance, and the send of its ECHO. -/
def Label.Accepts (i : SlotIdx) : Label → Prop
  | .accept j => j = i
  | l => l.Parks i

section

variable {p : Powers} {i : SlotIdx} {l : Label}

/-- Parking a session whose link stalled is within any intent's powers. -/
theorem Label.ParksAny.intends (h : l.ParksAny) : l.Intends i p := by
  obtain ⟨j, hj⟩ := h
  cases l <;> first | exact ⟨j, hj⟩ | exact hj.elim

theorem Label.Parks.intends {j : SlotIdx} (h : l.Parks j) : l.Intends i p := h.any.intends

theorem Label.Tells.intends (h : l.Tells) : l.Intends i p := (h.parks i).intends

theorem Label.Accepts.intends (h : l.Accepts i) : l.Intends i p := by
  cases l <;> first | exact h | exact ⟨i, h⟩ | exact h.elim

theorem Label.Latches.intends (h : l.Latches) : l.Intends i p := by
  cases l <;> first | exact trivial | exact Label.ParksAny.intends h

theorem Label.Clears.intends {D : Prop} (h : l.Clears D) (hC : D → p.clears) : l.Intends i p := by
  cases l <;> first | exact hC h | exact Label.ParksAny.intends h

/-- Ending a session is within them when the intent may end it. -/
theorem Label.Ends.intends {j : SlotIdx} (h : l.Ends j) (hF : p.ends j) : l.Intends i p := by
  cases l <;> first | exact ⟨j, h⟩ | exact (show _ = j from h) ▸ hF | exact h.elim

/-- A grant that was approved. -/
theorem Label.Issues.intends {j : SlotIdx} {Q : AccessLevel → Prop} {M : InstanceId → AccessLevel → Prop}
    (h : l.Issues j Q M) (hR : ∀ r, Q r → p.roles j r) (hM : ∀ x r, M x r → p.mints x r) : l.Intends i p := by
  cases l with
  | role a r =>
    obtain ⟨rfl, hr⟩ := h
    exact hR r hr
  | mint x r => exact hM x r h
  | _ => first | exact trivial | exact ⟨j, h⟩ | exact h.elim

end

section

variable {ε : Type} {w : World ε} {c : Config} {now : UInt32} {rx : Option SlotIdx} {P : Label → Prop}

/-! ## Acceptance -/

/-- What the ring holds after an attempt to store. -/
theorem getD_store (r : IntentRing) (id : UInt16) (bytes : Bytes) :
    (r.store id bytes).getD r = r ∨ ∃ bs, r.store id bs = some ((r.store id bytes).getD r) := by
  cases h : r.store id bytes with
  | none => exact .inl rfl
  | some r' => exact .inr ⟨bytes, h⟩

/-- Accepting writes the ECHO, keeps it in the ring and counts the intent. -/
theorem acceptIntent_does {i : SlotIdx} {m : IntentMsg} (echo : Option Bytes) (nowMs : UInt32) {s : Sys ε}
    (hnew : (s.session i).intentRing.lookup m.intentId = none) :
    Does c now rx (Label.Accepts i) s (acceptIntent w c i m echo nowMs s) := by
  unfold acceptIntent
  dsimp only
  split
  · refine Does.act (l := .accept i) rfl ?_
    have hact : Act c now rx (.accept i) s.view { s.view.set i (s.view.slots i) with
        accepted := (s.view.slots i).sessionId :: s.view.accepted } :=
      Act.accept i m.intentId (s.view.slots i).ring hnew (.inl rfl)
    have hv : (s.log (.accepted i m.intentId none)).view = { s.view.set i (s.view.slots i) with
        accepted := (s.view.slots i).sessionId :: s.view.accepted } :=
      View.ext (Function.update_eq_self i _).symm rfl rfl rfl rfl rfl rfl rfl rfl rfl rfl rfl rfl rfl rfl
    rw [hv]
    exact hact
  · rename_i bytes
    refine Does.trans (Does.act (l := .accept i) rfl ?_)
      ((sendFrameToTracked_does _ (by decide) (by decide)).mono fun l hl => ?_)
    · rw [Sys.modSession, view_modSlot]
      exact Act.accept i m.intentId _ hnew (getD_store _ m.intentId bytes)
    · cases l <;> first | exact hl | exact hl.elim

/-! ## Safety ops -/

/-- This intent may clear ESTOP. -/
def MayClear (w : World ε) (s : Sys ε) (i : SlotIdx) (m : IntentMsg) : Prop :=
  safetyOp m = some SafetyOps.estopClear.toUInt64 ∧ .control ≤ (s.session i).role ∧ Consents w s

theorem Label.Clears.keepsRing {l : Label} {C : Prop} (h : l.Clears C) (i : SlotIdx) : l.KeepsRing i := by
  cases l <;> first | exact trivial | exact h.elim fun _ h => h.elim

theorem Label.Latches.keepsRing {l : Label} (h : l.Latches) (i : SlotIdx) : l.KeepsRing i := by
  cases l <;> first | exact trivial | exact h.elim fun _ h => h.elim

/-- `estop_clear` lifts the stop where the role and the latch's own rules permit, and is refused otherwise. -/
theorem intentEstopClear_does {i : SlotIdx} {m : IntentMsg} (nowMs : UInt32) {s : Sys ε} {p : Powers}
    (hnew : (s.session i).intentRing.lookup m.intentId = none)
    (hop : safetyOp m = some SafetyOps.estopClear.toUInt64) (hC : MayClear w s i m → p.clears) :
    Does c now rx (Label.Intends i p) s (intentEstopClear w c i m nowMs s) := by
  unfold intentEstopClear
  dsimp only
  split
  · exact (sendNackTracked_does i _ nowMs s).mono fun _ h => h.intends
  · rename_i hrole
    have hmay : Consents w s → p.clears := fun hok => hC ⟨hop, le_of_not_lt hrole, hok⟩
    have hclear : Does c now rx (Label.Clears (Consents w s)) s (clearEstop w c s).2 := clearEstop_does s
    have hring := hclear.ring_eq (j := i) fun _ h => h.keepsRing i
    refine (hclear.mono fun _ h => h.intends hmay).trans ?_
    split
    · exact (sendNackTracked_does i _ nowMs _).mono fun _ h => h.intends
    · exact (acceptIntent_does _ nowMs (by rw [hring]; exact hnew)).mono fun _ h => h.intends

/-- An ESTOP intent latches the stop and is accepted. -/
theorem intentEstop_does {i : SlotIdx} {m : IntentMsg} (nowMs : UInt32) {s : Sys ε} {p : Powers}
    (hnew : (s.session i).intentRing.lookup m.intentId = none) :
    Does c now rx (Label.Intends i p) s (intentEstop w c i m nowMs s) := by
  unfold intentEstop
  dsimp only
  have hstop : ∀ f, Does c now rx Label.Latches s (handleEstopFrame w c f nowMs s) :=
    fun f => handleEstopFrame_does f nowMs s
  refine Does.trans ((hstop _).mono fun _ h => h.intends) ((acceptIntent_does _ nowMs ?_).mono fun _ h => h.intends)
  rw [(hstop _).ring_eq fun _ h => h.keepsRing i]
  exact hnew

/-! ## Session admin -/

/-- This intent evicts the session of slot `j`. -/
def Evicts (s : Sys ε) (m : IntentMsg) (j : SlotIdx) : Prop :=
  m.channelId = Channels.sessionAdmin ∧ (adminOp m).op = some SessionAdminOps.evict.toUInt64 ∧
    findSlotBySession s.hub (adminOp m).session = some j

/-- This intent of slot `i` approves the knock of `inst` from slot `j`'s session for the role `r`. -/
def Approves (s : Sys ε) (i : SlotIdx) (m : IntentMsg) (inst : InstanceId) (j : SlotIdx) (r : AccessLevel) : Prop :=
  m.channelId = Channels.sessionAdmin ∧ (adminOp m).op = some SessionAdminOps.pairApprove.toUInt64 ∧
    (adminOp m).level = some r ∧ r ≤ (s.session i).role ∧ (adminOp m).target = some inst ∧
    (∃ k, s.hub.pairing.pending.find inst = some k ∧ joinerOf s.hub k = some j) ∧
    s.hub.pairing.canGrant inst = true

/-- What this intent of slot `i` may do if it is performed. -/
def powersOf (w : World ε) (s : Sys ε) (i : SlotIdx) (m : IntentMsg) : Powers where
  ends j := Evicts s m j
  roles j r := ∃ inst, Approves s i m inst j r
  mints inst r := ∃ j, Approves s i m inst j r
  clears := MayClear w s i m
  seizes := m.takeover = true

/-- Powers that are used only under a condition. -/
def Powers.onlyIf (p : Powers) (D : Prop) : Powers where
  ends j := D ∧ p.ends j
  roles j r := D ∧ p.roles j r
  mints inst r := D ∧ p.mints inst r
  clears := D ∧ p.clears
  seizes := D ∧ p.seizes

/-- A power may be held back until a condition has been checked. -/
theorem Label.Intends.onlyIf {l : Label} {i : SlotIdx} {p : Powers} {D : Prop} (h : l.Intends i p) (hD : D) :
    l.Intends i (p.onlyIf D) := by
  cases l with
  | acquire j t => exact ⟨h.1, fun ht => ⟨hD, h.2 ht⟩⟩
  | free | role | mint | clear => exact ⟨hD, h⟩
  | _ => exact h

/-- A stronger condition gives the power too. -/
theorem Label.Intends.weaken {l : Label} {i : SlotIdx} {p : Powers} {D E : Prop} (h : l.Intends i (p.onlyIf D))
    (hDE : D → E) : l.Intends i (p.onlyIf E) := by
  cases l with
  | acquire j t => exact ⟨h.1, fun ht => ⟨hDE (h.2 ht).1, (h.2 ht).2⟩⟩
  | free | role | mint | clear => exact ⟨hDE h.1, h.2⟩
  | _ => exact h

section

variable {i : SlotIdx} {m : IntentMsg} {s : Sys ε} {p : Powers}

/-- A refused admin operation sends its NACK. -/
theorem adminNack_does (code : NackCode) (nowMs : UInt32) (s : Sys ε) :
    Does c now rx (Label.Intends i p) s (adminNack w c i m code nowMs s) :=
  (sendNackTracked_does i _ nowMs s).mono fun _ h => h.intends

/-- An accepted one sends its ECHO and is kept. -/
theorem adminEcho_does (op : UInt64) (nowMs : UInt32) (hnew : (s.session i).intentRing.lookup m.intentId = none) :
    Does c now rx (Label.Intends i p) s (adminEcho w c i m op nowMs s) :=
  (acceptIntent_does _ nowMs hnew).mono fun _ h => h.intends

/-- Eviction ends the session named, where the intent may end it. -/
theorem adminEvict_does {op : UInt64} {target : UInt32} (nowMs : UInt32)
    (hnew : (s.session i).intentRing.lookup m.intentId = none)
    (hF : ∀ v, findSlotBySession s.hub target = some v → p.ends v) :
    Does c now rx (Label.Intends i p) s (adminEvict w c i m op target nowMs s) := by
  unfold adminEvict
  split
  · exact adminNack_does _ nowMs s
  · rename_i v hv
    have hends : ∀ t : Sys ε, Does c now rx (Label.Ends v) t
        (teardownSession w c v nowMs (sendGoodbye w v .sessionEvicted t)) :=
      fun t => ((emits_sendGoodbye v .sessionEvicted t).does trivial).trans (teardownSession_does v nowMs _)
    exact (adminEcho_does op nowMs hnew).trans ((hends _).mono fun _ h => h.intends (hF v hv))

theorem Label.Issues.keepsRing {l : Label} {j : SlotIdx} {Q : AccessLevel → Prop}
    {M : InstanceId → AccessLevel → Prop} (h : l.Issues j Q M) (i : SlotIdx) : l.KeepsRing i := by
  cases l <;> first | exact trivial | exact h.elim

theorem Label.Trusts.keepsRing {l : Label} (h : l.Trusts) (i : SlotIdx) : l.KeepsRing i := by
  cases l <;> first | exact trivial | exact h.elim

theorem Label.Trusts.intends {l : Label} (h : l.Trusts) : l.Intends i p := by
  cases l <;> first | exact trivial | exact ⟨i, h⟩ | exact h.elim

/-- Approval gives the joiner the role asked for, never one above the approver's. -/
theorem adminApprove_does {op : UInt64} {a : AdminOp} (nowMs : UInt32)
    (hnew : (s.session i).intentRing.lookup m.intentId = none)
    (hR : ∀ inst k j r, a.target = some inst → a.level = some r → r ≤ (s.session i).role →
      s.hub.pairing.pending.find inst = some k → joinerOf s.hub k = some j → s.hub.pairing.canGrant inst = true →
      p.roles j r ∧ p.mints inst r) :
    Does c now rx (Label.Intends i p) s (adminApprove w c i m op a nowMs s) := by
  unfold adminApprove
  split
  · rename_i inst role htarget hlevel
    split
    · exact adminNack_does _ nowMs s
    · rename_i hrole
      split
      · exact adminNack_does _ nowMs s
      · rename_i k hk
        split
        · refine Does.trans ?_ (adminNack_does _ nowMs _)
          refine Does.trans ?_ ((publishPendingPairingState_does nowMs _).mono fun _ h => h.intends)
          refine Does.trans ?_ ((emitPairingEvent_does _ _ _ _ _ _ nowMs _).mono fun _ h => h.intends)
          exact removePending_does inst s ⟨i, trivial⟩
        · rename_i j hj
          have hlink : (s.slot j).transport.isSome := (Option.filter_eq_some_iff.mp hj).2
          have hgrant : Does c now rx (Label.Issues j (Grants s inst role inst) (Grants s inst role)) s
              (issuePairGrant w c j inst role k.mode nowMs s).2 := issuePairGrant_does inst role k.mode nowMs hlink
          have hring := hgrant.ring_eq (j := i) fun _ h => h.keepsRing i
          have hpow : s.hub.pairing.canGrant inst = true → p.roles j role ∧ p.mints inst role :=
            hR inst k j role htarget hlevel (le_of_not_lt hrole) hk hj
          dsimp only
          refine (hgrant.mono fun _ h => h.intends (fun r hr => ?_) fun x r hx => ?_).trans ?_
          · rw [hr.2.2]
            exact (hpow hr.2.1).1
          · rw [hx.1, hx.2.2]
            exact (hpow hx.2.1).2
          split
          · exact adminNack_does _ nowMs _
          · exact adminEcho_does op nowMs (by rw [hring]; exact hnew)
  · exact adminNack_does _ nowMs s

theorem keeps_getD_revoke (q : PairingManager) (inst : InstanceId) : q.Keeps ((q.revoke inst).getD q) := by
  cases h : q.revoke inst with
  | none => exact PairingManager.keeps_of_entries rfl rfl rfl
  | some q' => exact PairingManager.keeps_revoke h

/-- Revoking a device takes trust away and gives none. -/
theorem revokeDevice_does (inst : InstanceId) (mode : UInt8) (nowMs : UInt32) (s : Sys ε) :
    Does c now rx Label.Trusts s (revokeDevice w c inst mode nowMs s) :=
  (modPairing_does (keeps_getD_revoke s.hub.pairing inst) trivial).trans (((emitPairingEvent_does _ _ _ _ _ _ nowMs _).trans
    (publishPairedRosterState_does _)).mono fun _ h => h.trusts)

/-- A change of the ledger, then the ECHO. -/
theorem Does.echo {op : UInt64} {s₁ : Sys ε} (nowMs : UInt32) (h : Does c now rx Label.Trusts s s₁)
    (hnew : (s.session i).intentRing.lookup m.intentId = none) :
    Does c now rx (Label.Intends i p) s (adminEcho w c i m op nowMs s₁) := by
  have hring := h.ring_eq (j := i) fun _ h => h.keepsRing i
  exact (h.mono fun _ h => h.intends).trans (adminEcho_does op nowMs (by rw [hring]; exact hnew))

/-- Denial drops the knock. -/
theorem adminDeny_does {op : UInt64} (a : AdminOp) (nowMs : UInt32)
    (hnew : (s.session i).intentRing.lookup m.intentId = none) :
    Does c now rx (Label.Intends i p) s (adminDeny w c i m op a nowMs s) := by
  unfold adminDeny
  split
  · exact adminNack_does _ nowMs s
  · rename_i inst k _
    refine Does.echo nowMs ?_ hnew
    refine Does.trans ?_ ((publishPendingPairingState_does nowMs _).mono fun _ h => h.trusts)
    refine Does.trans ?_ ((emitPairingEvent_does _ _ _ _ _ _ nowMs _).mono fun _ h => h.trusts)
    have hdrop : Does c now rx Label.Trusts s (modPending (fun l => l.remove inst) s) :=
      removePending_does inst s trivial
    split
    · exact hdrop.trans (revokeDevice_does inst k.mode nowMs _)
    · exact hdrop

/-- Revocation ends the device's trust. -/
theorem adminRevoke_does {op : UInt64} (a : AdminOp) (nowMs : UInt32)
    (hnew : (s.session i).intentRing.lookup m.intentId = none) :
    Does c now rx (Label.Intends i p) s (adminRevoke w c i m op a nowMs s) := by
  unfold adminRevoke
  split
  · exact adminNack_does _ nowMs s
  · rename_i inst q hq
    simp only [Option.bind_eq_some_iff, Option.map_eq_some_iff, Prod.mk.injEq] at hq
    obtain ⟨x, -, q', hq', rfl, rfl⟩ := hq
    refine Does.echo nowMs ?_ hnew
    refine Does.trans ?_ ((publishPendingPairingState_does nowMs _).mono fun _ h => h.trusts)
    refine Does.trans ?_ ((publishPairedRosterState_does _).mono fun _ h => h.trusts)
    refine Does.trans ?_ ((emitPairingEvent_does _ _ _ _ _ _ nowMs _).mono fun _ h => h.trusts)
    exact Does.trans (setPairing_does (PairingManager.keeps_revoke hq') trivial) (removePending_does _ _ trivial)

/-- The admin operations, one by one. -/
theorem handleAdminIntent_does (nowMs : UInt32) (hch : m.channelId = Channels.sessionAdmin)
    (hnew : (s.session i).intentRing.lookup m.intentId = none) :
    Does c now rx (Label.Intends i (powersOf w s i m)) s (handleAdminIntent w c i m nowMs s) := by
  unfold handleAdminIntent
  dsimp only
  split
  · exact adminNack_does _ nowMs s
  · rename_i op hop
    split
    · rename_i h
      subst h
      exact adminEvict_does nowMs hnew fun v hv => ⟨hch, hop, hv⟩
    · split
      · rename_i h
        subst h
        refine adminApprove_does nowMs hnew fun inst k j r ht hl hr hk hj hcan => ?_
        have happ : Approves s i m inst j r := ⟨hch, hop, hl, hr, ht, ⟨k, hk, hj⟩, hcan⟩
        exact ⟨⟨inst, happ⟩, ⟨j, happ⟩⟩
      · split
        · exact adminDeny_does _ nowMs hnew
        · split
          · exact adminRevoke_does _ nowMs hnew
          · exact adminNack_does _ nowMs s

end

/-! ## Sources -/

/-- Who may take a source: a session in use that is not stale. -/
structure Active (v : View) (i : SlotIdx) : Prop where
  occupied : (v.slots i).occupied
  fresh : (v.slots i).state ≠ .stale

/-- A source was taken: owner, snapshot and note change together. -/
theorem view_hand {i : SlotIdx} {src reason : UInt8} {ownership : SourceOwnershipTable} {s : Sys ε}
    (hown : ownership.ownerOf = Function.update s.hub.ownership.ownerOf src (s.session i).sessionId)
    (hrole : ownership.ownerRoleOf = Function.update s.hub.ownership.ownerRoleOf src (s.session i).role) :
    (publishControlOwnerStateIfPresent c (notify w (.onSourceOwnership src (s.session i).sessionId reason)
      { s with hub := { s.hub with ownership } })).view = s.view.hand c i src reason := by
  rw [view_publishControlOwner]
  have hv : (notify w (.onSourceOwnership src (s.session i).sessionId reason)
      { s with hub := { s.hub with ownership } }).view = { s.view with
        owner := Function.update s.view.owner src (s.view.slots i).sessionId
        ownerRole := Function.update s.view.ownerRole src (s.view.slots i).role
        told := ⟨src, (s.view.slots i).sessionId, reason, (s.view.slots i).role, s.view.slots⟩ :: s.view.told } := by
    refine View.ext rfl hown rfl rfl rfl rfl rfl rfl rfl rfl rfl hrole ?_ rfl rfl
    show (⟨src, (s.session i).sessionId, reason, ownership.ownerRoleOf src, s.view.slots⟩ : Told) :: s.view.told = _
    rw [hrole, Function.update_self]
    rfl
  rw [hv]
  rfl

/-- An acquisition that changes no owner. -/
theorem view_ownership {ownership : SourceOwnershipTable} {s : Sys ε}
    (hown : ownership.ownerOf = s.hub.ownership.ownerOf) (hrole : ownership.ownerRoleOf = s.hub.ownership.ownerRoleOf) :
    ({ s with hub := { s.hub with ownership } } : Sys ε).view = s.view :=
  View.ext rfl hown rfl rfl rfl rfl rfl rfl rfl rfl rfl hrole rfl rfl rfl

/-- The acts of an acquisition; `T`: a takeover was asked for. -/
def Label.Acquires (i : SlotIdx) (T : Prop) : Label → Prop
  | .acquire j takeover => j = i ∧ (takeover = true → T)
  | l => l.Parks i

theorem Label.Acquires.keepsRing {l : Label} {i : SlotIdx} {T : Prop} (h : l.Acquires i T) (j : SlotIdx) :
    l.KeepsRing j := by
  cases l <;> first | exact trivial | exact h.elim

theorem Label.Acquires.intends {l : Label} {i : SlotIdx} {T : Prop} (h : l.Acquires i T) {p : Powers}
    (hT : T → p.seizes) : l.Intends i p := by
  cases l <;> first | exact ⟨h.1, fun ht => hT (h.2 ht)⟩ | exact ⟨i, h⟩ | exact h.elim

theorem Label.Parks.acquires {l : Label} {i : SlotIdx} (h : l.Parks i) (T : Prop) : l.Acquires i T := by
  cases l <;> first | exact h | exact h.elim

/-- What each answer of the table means: the source was free, or was taken over, or nothing changed. -/
theorem acquire_cases {i : SlotIdx} {src : UInt8} {takeover : Bool} {res : AcquireResult}
    {ownership : SourceOwnershipTable} {s : Sys ε} (ha : Active s.view i) (hready : (s.session i).ready = true)
    (h : s.hub.ownership.acquire src (s.session i).sessionId (s.session i).role takeover = (res, ownership)) :
    (res = .acquired ∧ Act c now (some i) (.acquire i false) s.view (publishControlOwnerStateIfPresent c
        (notify w (.onSourceOwnership src (s.session i).sessionId 0) { s with hub := { s.hub with ownership } })).view) ∨
      (res = .takenOver ∧ takeover = true ∧
        Act c now (some i) (.acquire i true) s.view (publishControlOwnerStateIfPresent c
          (notify w (.onSourceOwnership src (s.session i).sessionId 1) { s with hub := { s.hub with ownership } })).view) ∨
      (res = .alreadyOwner ∧ s.hub.ownership.ownerOf src = (s.session i).sessionId ∨ res = .conflict) ∧
        ({ s with hub := { s.hub with ownership } } : Sys ε).view = s.view := by
  rcases SourceOwnershipTable.acquire_spec h with ⟨⟨rfl, hfree⟩ | ⟨rfl, hto, hne, hother, hle⟩, hown, hrole⟩ | ⟨hres, hown, hrole⟩
  · refine .inl ⟨rfl, ?_⟩
    rw [view_hand hown hrole]
    exact Act.acquire i src false rfl ha.occupied ha.fresh hready (fun _ => hfree) (fun h => nomatch h)
  · refine .inr (.inl ⟨rfl, hto, ?_⟩)
    rw [view_hand hown hrole]
    exact Act.acquire i src true rfl ha.occupied ha.fresh hready (fun h => nomatch h) fun _ => ⟨hne, hother, hle⟩
  · exact .inr (.inr ⟨hres.imp (fun h => ⟨h.1, h.2.1⟩) id, view_ownership hown hrole⟩)

/-- Taking a source seizes it only on an intent that asks for a takeover. -/
theorem acquireForIntent_does {i : SlotIdx} {m : IntentMsg} (src : UInt8) (nowMs : UInt32) {s : Sys ε}
    (ha : Active s.view i) (hready : (s.session i).ready = true) :
    Does c now (some i) (Label.Acquires i (m.takeover = true)) s (acquireForIntent w c i m src nowMs s).2 := by
  unfold acquireForIntent
  dsimp only
  cases hacq : s.hub.ownership.acquire src (s.session i).sessionId (s.session i).role m.takeover with
  | mk res ownership =>
    dsimp only
    rcases acquire_cases (w := w) (c := c) ha hready hacq with ⟨rfl, hact⟩ | ⟨rfl, hto, hact⟩ |
      ⟨⟨rfl, -⟩ | rfl, hview⟩
    · exact Does.act (l := .acquire i false) ⟨rfl, fun h => nomatch h⟩ hact
    · exact (Does.act (l := .acquire i true) ⟨rfl, fun _ => hto⟩ hact).trans ((emits_emitTakeoverEvent _ _ nowMs _).does trivial)
    · exact Does.of_view hview
    · exact (Does.of_view hview).trans ((sendNackTracked_does i _ nowMs _).mono fun _ h => h.acquires _)
/-- The slot's session is ready and owns the source. -/
structure Drives (v : View) (i : SlotIdx) (src : UInt8) : Prop where
  owner : v.owner src = (v.slots i).sessionId
  ready : (v.slots i).ready = true

/-- Sending frames leaves who drives a source as it was. -/
theorem Drives.emits {s t : Sys ε} {i : SlotIdx} {src : UInt8} (h : Drives s.view i src) (he : Emits s t) :
    Drives t.view i src := by
  have hown : t.view.owner src = s.view.owner src := congrArg (fun o => SourceOwnershipTable.ownerOf o src) he.ownership
  have hslot : (t.view.slots i).sessionId = (s.view.slots i).sessionId ∧
      (t.view.slots i).ready = (s.view.slots i).ready := by
    show (t.hub.slots i).session.sessionId = _ ∧ (t.hub.slots i).session.ready = _
    rw [he.slot i]
    exact ⟨rfl, rfl⟩
  exact ⟨by rw [hown, hslot.1, h.owner], by rw [hslot.2, h.ready]⟩

/-- A source acquired is driven by the session that asked. -/
theorem acquireForIntent_drives {i : SlotIdx} {m : IntentMsg} {src : UInt8} {nowMs : UInt32} {s : Sys ε}
    (hready : (s.session i).ready = true) (hok : (acquireForIntent w c i m src nowMs s).1 = true) :
    Drives (acquireForIntent w c i m src nowMs s).2.view i src := by
  unfold acquireForIntent at hok ⊢
  dsimp only at hok ⊢
  cases hacq : s.hub.ownership.acquire src (s.session i).sessionId (s.session i).role m.takeover with
  | mk res ownership =>
    rw [hacq] at hok
    dsimp only at hok ⊢
    have htaken : ownership.ownerOf = Function.update s.hub.ownership.ownerOf src (s.session i).sessionId →
        ∀ n : Note, Drives (publishControlOwnerStateIfPresent c
          (notify w n { s with hub := { s.hub with ownership } })).view i src := by
      intro hown n
      rw [view_publishControlOwner]
      refine ⟨?_, hready⟩
      show ownership.ownerOf src = (s.session i).sessionId
      rw [hown, Function.update_self]
    rcases SourceOwnershipTable.acquire_spec hacq with ⟨⟨rfl, -⟩ | ⟨rfl, -⟩, hown, -⟩ | ⟨⟨rfl, hsame, -⟩ | rfl, hown, -⟩
    · exact htaken hown _
    · exact (htaken hown _).emits (emits_emitTakeoverEvent _ _ nowMs _)
    · refine ⟨?_, hready⟩
      show ownership.ownerOf src = (s.session i).sessionId
      rw [hown, hsame]
    · cases hok

/-! ## The latch -/

/-- The words an accepted safety op can leave, as far as ESTOP goes. -/
theorem estop_kept {word : UInt8} (h : word &&& SafetyBits.estop ≠ 0) :
    (word ||| SafetyBits.stop) &&& SafetyBits.estop ≠ 0 ∧ (word ||| SafetyBits.hold) &&& SafetyBits.estop ≠ 0 ∧
      (word ||| SafetyBits.pause) &&& SafetyBits.estop ≠ 0 ∧ (word &&& ~~~SafetyBits.stop) &&& SafetyBits.estop ≠ 0 ∧
      (word &&& ~~~(SafetyBits.hold ||| SafetyBits.pause)) &&& SafetyBits.estop ≠ 0 := by
  have hall : ∀ x : Fin 256, UInt8.ofFin x &&& SafetyBits.estop ≠ 0 →
      (UInt8.ofFin x ||| SafetyBits.stop) &&& SafetyBits.estop ≠ 0 ∧
      (UInt8.ofFin x ||| SafetyBits.hold) &&& SafetyBits.estop ≠ 0 ∧
      (UInt8.ofFin x ||| SafetyBits.pause) &&& SafetyBits.estop ≠ 0 ∧
      (UInt8.ofFin x &&& ~~~SafetyBits.stop) &&& SafetyBits.estop ≠ 0 ∧
      (UInt8.ofFin x &&& ~~~(SafetyBits.hold ||| SafetyBits.pause)) &&& SafetyBits.estop ≠ 0 := by
    decide +kernel
  exact hall word.toFin h

/-- No accepted safety op clears ESTOP. -/
theorem estop_safetyOpLatch {op : UInt8} {sid : UInt32} {st st' : SafetyState}
    (h : safetyOpLatch op sid st = some st') (he : st.word &&& SafetyBits.estop ≠ 0) :
    st'.word &&& SafetyBits.estop ≠ 0 := by
  obtain ⟨hstop, hhold, hpause, -, hresume⟩ := estop_kept he
  unfold safetyOpLatch at h
  split_ifs at h <;> cases h <;> assumption

/-- A changed latch is published and announced. -/
theorem announceSafety_does {st : SafetyState} (before : UInt8) (nowMs : UInt32) {s : Sys ε}
    (h : s.view.safety.word &&& SafetyBits.estop ≠ 0 → st.word &&& SafetyBits.estop ≠ 0) :
    Does c now rx Label.Latches s (announceSafety w c before nowMs (setSafety st s)) :=
  (latch_does h).trans ((announce_does before nowMs _).mono fun _ h => h.latches)

/-- Latching the stop touches the safety word and tells the sessions. -/
theorem latchAccepted_does (i : SlotIdx) (op : Option UInt64) (nowMs : UInt32) (s : Sys ε) :
    Does c now rx Label.Latches s (latchAccepted w c i op nowMs s) := by
  unfold latchAccepted
  split
  · exact Does.refl s
  · dsimp only
    unfold applySafetyOpLatch
    split
    · exact Does.refl s
    · rename_i st hst
      dsimp only
      split
      · exact announceSafety_does _ nowMs (estop_safetyOpLatch hst)
      · rename_i hsame
        have heq : st = s.hub.safety := by simpa using hsame
        rw [heq]
        exact Does.of_view rfl

/-- Lifting the stop touches the safety word and tells the sessions. -/
theorem liftStop_does (nowMs : UInt32) (s : Sys ε) : Does c now rx Label.Latches s (liftStop w c nowMs s) := by
  unfold liftStop
  dsimp only
  split
  · exact announceSafety_does _ nowMs fun he => (estop_kept he).2.2.2.1
  · exact Does.refl s

/-! ## The pipeline -/

/-- The acts between an application and its ECHO. -/
def Label.Applies : Label → Prop
  | .cfg => True
  | l => l.Latches

theorem Label.Latches.applies {l : Label} (h : l.Latches) : l.Applies := by
  cases l <;> first | exact h | exact trivial

theorem Label.Applies.keepsRing {l : Label} (h : l.Applies) (i : SlotIdx) : l.KeepsRing i := by
  cases l <;> first | exact trivial | exact h.elim fun _ h => h.elim

theorem Label.Applies.intends {l : Label} {i : SlotIdx} {p : Powers} (h : l.Applies) : l.Intends i p := by
  cases l <;> first | exact trivial | exact Label.Latches.intends h

/-- What follows an applied intent: the mirror, the configuration generation, the safety announcement. -/
theorem noteApplied_does (i : SlotIdx) (m : IntentMsg) (mapped cfgChanged : Bool) (nowMs : UInt32) (s : Sys ε) :
    Does c now rx Label.Applies s (noteApplied w c i m mapped cfgChanged nowMs s) := by
  unfold noteApplied
  dsimp only
  have hlift : ∀ t : Sys ε, Does c now rx Label.Applies t (if mapped then liftStop w c nowMs t else t) := by
    intro t
    split
    · exact (liftStop_does nowMs t).mono fun _ h => h.applies
    · exact Does.refl t
  refine Does.trans ?_ (hlift _)
  refine Does.trans ?_ ((latchAccepted_does i _ nowMs _).mono fun _ h => h.applies)
  split
  · exact Does.act (l := .cfg) trivial Act.cfg
  · exact Does.refl s

section

variable {i : SlotIdx} {m : IntentMsg} {s : Sys ε} {p : Powers}

/-- An applied intent is followed by its ECHO, which is kept. -/
theorem noteApplied_echo {s : Sys ε} (mapped cfgChanged : Bool) (applied : IntentValueMap) (cap : Nat) (nowMs : UInt32)
    (hnew : (s.session i).intentRing.lookup m.intentId = none) :
    Does c now rx (Label.Intends i p) s (acceptIntent w c i m
      (echoFor (noteApplied w c i m mapped cfgChanged nowMs s).hub m applied cap) nowMs
      (noteApplied w c i m mapped cfgChanged nowMs s)) := by
  have happ : Does c now rx Label.Applies s (noteApplied w c i m mapped cfgChanged nowMs s) :=
    noteApplied_does i m mapped cfgChanged nowMs s
  have hring := happ.ring_eq (j := i) fun _ h => h.keepsRing i
  refine (happ.mono fun _ h => h.intends).trans ?_
  exact (acceptIntent_does _ nowMs (by rw [hring]; exact hnew)).mono fun _ h => h.intends

/-- A delegated intent is applied by the host, or refused by it, and touches no other session. -/
theorem delegateIntent_does {mapped : Option UInt8} (nowMs : UInt32) (hready : (s.session i).ready = true)
    (howns : ownsMapped s.hub i mapped = true) (hnew : (s.session i).intentRing.lookup m.intentId = none) :
    Does c now (some i) (Label.Intends i p) s (delegateIntent w c i m mapped nowMs s) := by
  unfold delegateIntent
  dsimp only
  have hasked : ∀ res env, Does c now (some i) (Label.Intends i p) s
      { s.log (.applyIntent i m.channelId m.value mapped res) with env } :=
    fun _ _ => Does.act (l := .apply i) rfl (Act.apply i _ rfl hready ⟨hready, howns⟩)
  split
  · exact (hasked _ _).trans ((sendNackTracked_does i _ nowMs _).mono fun _ h => h.intends)
  · exact (hasked _ _).trans (noteApplied_echo _ _ _ 256 nowMs hnew)

/-- The apply step: ownership first, then the host. -/
theorem applyIntent_does (nowMs : UInt32) (ha : Active s.view i) (hready : (s.session i).ready = true)
    (hnew : (s.session i).intentRing.lookup m.intentId = none) (hT : m.takeover = true → p.seizes) :
    Does c now (some i) (Label.Intends i p) s (applyIntent w c i m nowMs s) := by
  unfold applyIntent
  generalize w.sourceForChannel m.channelId s.env = r
  obtain ⟨mapped, env⟩ := r
  dsimp only
  have hmap : Does c now (some i) (Label.Intends i p) s { s with env } := Does.of_view rfl
  refine hmap.trans ?_
  split
  · exact delegateIntent_does nowMs hready rfl hnew
  · rename_i src
    have hacq : Does c now (some i) (Label.Acquires i (m.takeover = true)) { s with env }
        (acquireForIntent w c i m src nowMs { s with env }).2 := acquireForIntent_does src nowMs ha hready
    have hring := hacq.ring_eq (j := i) fun _ h => h.keepsRing i
    refine (hacq.mono fun _ h => h.intends hT).trans ?_
    split
    · rename_i hok
      have hdrives := acquireForIntent_drives (s := { s with env }) hready hok
      exact delegateIntent_does nowMs hdrives.ready (beq_iff_eq.mpr hdrives.owner) (by rw [hring]; exact hnew)
    · exact Does.refl _

/-- The dispatch over channels, with the powers the intent's own fields give it. -/
theorem performIntent_does (nowMs : UInt32) (ha : Active s.view i) (hready : (s.session i).ready = true)
    (hnew : (s.session i).intentRing.lookup m.intentId = none) :
    Does c now (some i) (Label.Intends i (powersOf w s i m)) s (performIntent w c i m nowMs s) := by
  unfold performIntent
  split
  · rename_i hop
    exact intentEstopClear_does nowMs hnew hop id
  · split
    · exact intentEstop_does nowMs hnew
    · split
      · rename_i hch
        exact handleAdminIntent_does nowMs hch hnew
      · exact applyIntent_does nowMs ha hready hnew id

end

/-- The intent passes every check: the sender is ready, it is new, and neither catalog nor generation refuse it. -/
def Passes (c : Config) (s : Sys ε) (i : SlotIdx) (m : IntentMsg) : Prop :=
  (s.session i).ready = true ∧ (s.session i).intentRing.lookup m.intentId = none ∧
    intentRefusal c s.hub.cfgGen (s.session i).role m = none

/-- The ring answers a duplicate; a new intent is checked before it is performed. -/
theorem admitIntent_does {i : SlotIdx} {m : IntentMsg} (nowMs : UInt32) {s : Sys ε} (ha : Active s.view i)
    (hlink : (s.slot i).transport.isSome) :
    Does c now (some i) (Label.Intends i ((powersOf w s i m).onlyIf (Passes c s i m))) s
      (admitIntent w c i m nowMs s) := by
  unfold admitIntent
  split
  · exact ((emits_sendNack _ hlink).does (P := Label.Tells) trivial).mono fun _ h => h.intends
  · rename_i hready
    rw [Bool.not_eq_true', Bool.not_eq_false] at hready
    split
    · exact (sendFrameToTracked_does s (by decide) (by decide)).mono fun _ h => h.intends
    · rename_i hnew
      split
      · exact ((emits_sendNack _ hlink).does (P := Label.Tells) trivial).mono fun _ h => h.intends
      · rename_i hok
        exact (performIntent_does nowMs ha hready hnew).mono fun l hl => hl.onlyIf ⟨hready, hnew, hok⟩

/-! Which slot an admin op means is seen in the view. -/

/-- Which slot a session id names depends on the occupied sessions' ids only. -/
theorem findSlotBySession_congr {g h : Hub} {sid : UInt32} (hk : ∀ k,
    ((g.slots k).session.occupied = true ∧ (g.slots k).session.sessionId = sid) ↔
      ((h.slots k).session.occupied = true ∧ (h.slots k).session.sessionId = sid)) :
    findSlotBySession g sid = findSlotBySession h sid := by
  have hfun : (fun k => (g.slots k).session.occupied && (g.slots k).session.sessionId == sid) =
      fun k => (h.slots k).session.occupied && (h.slots k).session.sessionId == sid := by
    funext k
    rw [Bool.eq_iff_iff]
    simpa only [Bool.and_eq_true, beq_iff_eq] using hk k
  unfold findSlotBySession
  rw [hfun]

/-- So it can be read off the view. -/
theorem findSlotBySession_view {s t : Sys ε} (h : t.view = s.view) (sid : UInt32) :
    findSlotBySession t.hub sid = findSlotBySession s.hub sid := by
  have hslot : ∀ k, slotView (t.hub.slots k) = slotView (s.hub.slots k) := congrFun (congrArg View.slots h)
  refine findSlotBySession_congr fun k => ?_
  rw [← occupied_view t k, ← occupied_view s k, h,
    show (t.hub.slots k).session.sessionId = _ from congrArg SlotView.sessionId (hslot k)]
  rfl

/-- So can the session a knock belongs to. -/
theorem joinerOf_view {s t : Sys ε} (h : t.view = s.view) (k : PendingKnock) : joinerOf t.hub k = joinerOf s.hub k := by
  have htr : ∀ k, (t.hub.slots k).transport = (s.hub.slots k).transport :=
    fun k => congrArg SlotView.transport (congrFun (congrArg View.slots h) k)
  unfold joinerOf
  rw [findSlotBySession_view h]
  simp only [htr]

/-- The intent is not over the sender's rate and passes every check. -/
def Performed (c : Config) (s : Sys ε) (i : SlotIdx) (m : IntentMsg) (nowMs : UInt32) : Prop :=
  ((s.session i).intentLimiter.allow nowMs).1 = true ∧ Passes c s i m

/-- What an INTENT frame of slot `i` may do. -/
def intentPowers (w : World ε) (c : Config) (s : Sys ε) (i : SlotIdx) (m : IntentMsg) (nowMs : UInt32) : Powers :=
  (powersOf w s i m).onlyIf (Performed c s i m nowMs)

/-- Powers are seen in the view. -/
theorem powersOf_view {s t : Sys ε} (h : t.view = s.view) (henv : t.env = s.env) (i : SlotIdx) (m : IntentMsg) :
    powersOf w t i m = powersOf w s i m := by
  have hslot : slotView (t.hub.slots i) = slotView (s.hub.slots i) := congrFun (congrArg View.slots h) i
  have hpair : t.hub.pairing = s.hub.pairing := congrArg View.pairing h
  have hrole : (t.session i).role = (s.session i).role := congrArg SlotView.role hslot
  have happ : Approves t i m = Approves s i m := by
    funext inst j r
    unfold Approves
    simp only [hrole, hpair, joinerOf_view h]
  have hev : Evicts t m = Evicts s m := by
    funext j
    unfold Evicts
    rw [findSlotBySession_view h]
  have hclear : MayClear w t i m = MayClear w s i m := by
    unfold MayClear Consents
    rw [hrole, henv]
  unfold powersOf
  rw [happ, hev, hclear]

/-- What an INTENT frame of slot `i` can do. -/
theorem handleIntent_does {i : SlotIdx} (m : IntentMsg) (nowMs : UInt32) {s : Sys ε} (ha : Active s.view i)
    (hlink : (s.slot i).transport.isSome) :
    Does c now (some i) (Label.Intends i (intentPowers w c s i m nowMs)) s (handleIntent w c i (some m) nowMs s) := by
  unfold handleIntent
  dsimp only
  have hlim : (s.modSession i fun se =>
      { se with intentLimiter := ((s.session i).intentLimiter.allow nowMs).2 }).view = s.view := view_modSlot_of_slotView rfl
  have henv : (s.modSession i fun se =>
      { se with intentLimiter := ((s.session i).intentLimiter.allow nowMs).2 }).env = s.env := rfl
  generalize (s.modSession i fun se =>
    { se with intentLimiter := ((s.session i).intentLimiter.allow nowMs).2 }) = t at hlim henv
  have hslot : slotView (t.hub.slots i) = slotView (s.hub.slots i) := congrFun (congrArg View.slots hlim) i
  have hgen : t.hub.cfgGen = s.hub.cfgGen := congrArg View.cfgGen hlim
  have hrole : (t.session i).role = (s.session i).role := congrArg SlotView.role hslot
  have hready : (t.session i).ready = (s.session i).ready := congrArg SlotView.ready hslot
  have hring : (t.session i).intentRing = (s.session i).intentRing := congrArg SlotView.ring hslot
  have hlink' : (t.slot i).transport.isSome := by
    rw [show (t.slot i).transport = _ from congrArg SlotView.transport hslot]
    exact hlink
  refine (Does.of_view hlim).trans ?_
  split
  · exact ((emits_sendNack _ hlink').does (P := Label.Tells) trivial).mono fun _ h => h.intends
  · rename_i hallow
    have hpass : Passes c t i m = Passes c s i m := by
      unfold Passes
      rw [hready, hring, hgen, hrole]
    have hperf : Passes c t i m → Performed c s i m nowMs := by
      rw [hpass]
      exact fun hp => ⟨by simpa using hallow, hp⟩
    have hdo : Does c now (some i) (Label.Intends i ((powersOf w t i m).onlyIf (Passes c t i m))) t
        (admitIntent w c i m nowMs t) := admitIntent_does nowMs (by rw [hlim]; exact ha) hlink'
    rw [powersOf_view hlim henv] at hdo
    exact hdo.mono fun l hl => hl.weaken hperf

end

end SlopSync
