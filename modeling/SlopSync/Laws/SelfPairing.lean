import SlopSync.Hub.Bench
import SlopSync.Laws.Ledger

/-! # Whom a pairing request touches

A session may pair only itself, and re-pairing must not cost a device its role.  A bare knock is checked against the
session's own instance id; a request with a PIN proof is not.  `handleKnock_onlySelf_iff` and `handlePinProof_onlySelf_iff`
say when each route stays with the session's own device, and `pairs_only_self_iff` when the request does. -/

namespace SlopSync

open Keyed Labelled

/-! ## Slots of the ledger and of the pending list -/

/-- The ledger entries of other devices are where they were. -/
def SameEntries (own : InstanceId) (p p' : PairingManager) : Prop :=
  SameOthers PairedEntry.instanceId own p.entries.slots p'.entries.slots

/-- The knocks of other devices are where they were. -/
def SameKnocks (own : InstanceId) (p p' : PairingManager) : Prop :=
  SameOthers PendingKnock.instanceId own p.pending.slots p'.pending.slots

/-- No slot's trusted device has a lower role. -/
def KeepsRoles (p p' : PairingManager) : Prop :=
  ∀ (k : Nat) (e e' : PairedEntry), p.slot k = some e → e.state = .trusted → p'.slot k = some e' →
    e'.instanceId = e.instanceId → e.role ≤ e'.role

/-- Nothing but the device `own` is touched, and no trusted device loses its role. -/
structure OnlySelf (own : InstanceId) (p p' : PairingManager) : Prop where
  entries : SameEntries own p p'
  knocks : SameKnocks own p p'
  roles : KeepsRoles p p'

namespace PairingManager

variable {p p' q : PairingManager} {own inst : InstanceId}

/-- A slot of the ledger, read off its array. -/
theorem slot_eq_some {k : Nat} {e : PairedEntry} : p.slot k = some e ↔ p.entries.slots[k]? = some (some e) := by
  unfold slot
  cases h : p.entries.slots[k]? with
  | none => simp
  | some o => simp

/-- Changing nothing touches nobody else. -/
theorem onlySelf_of_eq (he : p'.entries = p.entries) (hp : p'.pending = p.pending) : OnlySelf own p p' := by
  refine ⟨?_, ?_, fun k e e' h _ h' _ => ?_⟩
  · unfold SameEntries
    rw [he]
    exact SameOthers.refl _
  · unfold SameKnocks
    rw [hp]
    exact SameOthers.refl _
  · rw [slot_eq_some, he, ← slot_eq_some, h] at h'
    cases h'
    exact AccessLevel.le_refl _

/-- Changing one's own knocks touches nobody else. -/
theorem onlySelf_withKnocks (h : OnlySelf own p q) (he : p'.entries = q.entries) (hk : SameKnocks own q p') :
    OnlySelf own p p' := by
  refine ⟨?_, h.knocks.trans hk, fun k e e' hke ht hke' hi => ?_⟩
  · have hent := h.entries
    unfold SameEntries at hent ⊢
    rw [he]
    exact hent
  · rw [slot_eq_some, he, ← slot_eq_some] at hke'
    exact h.roles k e e' hke ht hke' hi

/-- Changing one's own entry leaves the others'. -/
theorem sameEntries_modify {f : PairedEntry → PairedEntry} (hf : ∀ e, (f e).instanceId = e.instanceId) :
    SameEntries inst p (p.modify inst f) := by
  refine SameOthers.modifyUsed (fun e he => isFor_iff.mp he) fun e b he hb => ?_
  obtain rfl := Option.some.inj hb
  exact (hf e).trans (isFor_iff.mp he)

/-- Slot by slot. -/
theorem slot_modify (f : PairedEntry → PairedEntry) (k : Nat) : (p.modify inst f).slot k = p.slot k ∨
    ∃ e, p.slot k = some e ∧ e.instanceId = inst ∧ (p.modify inst f).slot k = some (f e) := by
  cases h : findUsed (isFor inst) p.entries.slots with
  | none =>
    refine .inl ?_
    unfold slot modify
    dsimp only
    rw [modifyUsed_none h]
  | some e =>
    obtain ⟨i, hi, hj⟩ := getElem?_modifyUsed (g := Option.map f) h
    by_cases hk : k = i
    · refine .inr ⟨e, slot_eq_some.mpr (hk ▸ hi), isFor_iff.mp (findUsed_some h), slot_eq_some.mpr ?_⟩
      exact (hj k).trans (if_pos hk)
    · refine .inl ?_
      unfold slot modify
      dsimp only
      rw [hj k, if_neg hk]

/-- The ledger has a credential of `inst` with `role` and `token` where its old one was, or in a free slot. -/
structure Regranted (inst : InstanceId) (role : AccessLevel) (token : Token) (p p' : PairingManager) : Prop where
  others : SameEntries inst p p'
  slot : ∃ k e', p'.slot k = some e' ∧ e'.instanceId = inst ∧ e'.role = role ∧ e'.token = token ∧
    (∀ e, p.slot k = some e ↔ p.findByInstance inst = some e) ∧
    ∀ j x x', j ≠ k → p.slot j = some x → p'.slot j = some x' → x'.role = x.role

theorem Regranted.of_entries {role : AccessLevel} {token : Token} (h : Regranted inst role token p p')
    (he : q.entries = p'.entries) : Regranted inst role token p q := by
  have hslot : ∀ k, q.slot k = p'.slot k := fun k => by
    unfold PairingManager.slot
    rw [he]
  refine ⟨?_, ?_⟩
  · unfold SameEntries
    rw [he]
    exact h.others
  · obtain ⟨k, e', hk, hrest⟩ := h.slot
    refine ⟨k, e', (hslot k).trans hk, hrest.1, hrest.2.1, hrest.2.2.1, hrest.2.2.2.1, fun j x x' hj hx hx' => ?_⟩
    exact hrest.2.2.2.2 j x x' hj hx ((hslot j).symm.trans hx')

/-- Labels are no credential. -/
theorem Regranted.label {role : AccessLevel} {token : Token} (h : Regranted inst role token p p') (se : HubSession) :
    Regranted inst role token p (p'.modify inst (labelEntry se)) := by
  refine ⟨h.others.trans (sameEntries_modify fun _ => rfl), ?_⟩
  obtain ⟨k, e', hk, hinst, hrole, htok, hfind, hrest⟩ := h.slot
  have hlabel : ∃ e'', (p'.modify inst (labelEntry se)).slot k = some e'' ∧ e''.instanceId = inst ∧ e''.role = role ∧
      e''.token = token := by
    rcases (slot_modify (labelEntry se) k : (p'.modify inst (labelEntry se)).slot k = _ ∨ _) with hs | ⟨x, hx, -, hs⟩
    · exact ⟨e', hs.trans hk, hinst, hrole, htok⟩
    · cases hk.symm.trans hx
      exact ⟨_, hs, hinst, hrole, htok⟩
  obtain ⟨e'', he'', hi, hr, ht⟩ := hlabel
  refine ⟨k, e'', he'', hi, hr, ht, hfind, fun j x x' hj hx hx' => ?_⟩
  rcases (slot_modify (labelEntry se) j : (p'.modify inst (labelEntry se)).slot j = _ ∨ _) with hs | ⟨y, hy, -, hs⟩
  · exact hrest j x x' hj hx (hs.symm.trans hx')
  · cases hx'.symm.trans hs
    exact hrest j x y hj hx hy

/-- What a grant leaves in the ledger. -/
theorem regranted_grant (hcan : p.canGrant inst = true) (role : AccessLevel) (mode : UInt8) (token : Token) :
    Regranted inst role token p (p.grant inst role mode token) := by
  unfold grant
  cases hfind : p.findByInstance inst with
  | some e =>
    rw [if_pos (Option.isSome_some)]
    obtain ⟨k, hk, hj⟩ := getElem?_modifyUsed (g := Option.map fun e : PairedEntry =>
      { e with token, role, pairingMode := mode, state := .trusted, lastSeen := p.wallSeconds }) hfind
    have hinst : e.instanceId = inst := findByInstance_some hfind
    have hmod : Regranted inst role token p (p.modify inst fun e =>
        { e with token, role, pairingMode := mode, state := .trusted, lastSeen := p.wallSeconds }) := by
      refine ⟨sameEntries_modify fun _ => rfl, k, _, slot_eq_some.mpr ((hj k).trans (if_pos rfl)),
        hinst, rfl, rfl, fun x => ?_, fun j x x' hne hx hx' => ?_⟩
      · rw [slot_eq_some, hk, hfind]
        simp
      · rw [slot_eq_some] at hx hx'
        have hsame := (hj j).trans (if_neg hne)
        cases hx.symm.trans (hsame.symm.trans hx')
        rfl
    exact hmod.of_entries rfl
  | none =>
    rw [if_neg (by rw [Option.isSome_none]; exact Bool.false_ne_true)]
    dsimp only
    split
    · rename_i hfull
      have hsome := fillFirst_eq_none.mp hfull
      have hfree : p.entries.slots.any Option.isNone = true := by
        rw [canGrant, hfind] at hcan
        exact hcan
      obtain ⟨o, ho, hnone⟩ := List.any_eq_true.mp hfree
      rw [Option.isNone_iff_eq_none] at hnone
      have hcontra := hsome o ho
      rw [hnone] at hcontra
      cases hcontra
    · rename_i slots hslots
      obtain ⟨k, hk, hj⟩ := getElem?_fillFirst hslots
      have hfill : SameOthers PairedEntry.instanceId inst p.entries.slots slots := SameOthers.fillFirst rfl hslots
      refine ⟨hfill, k, _, slot_eq_some.mpr ((hj k).trans (if_pos rfl)), rfl, rfl, rfl, fun x => ?_,
        fun j x x' hne hx hx' => ?_⟩
      · rw [slot_eq_some, hk, hfind]
        simp
      · rw [slot_eq_some] at hx hx'
        have hsame := (hj j).trans (if_neg hne)
        cases hx.symm.trans (hsame.symm.trans hx')
        rfl

/-- The device keeps its role, if it is trusted with one. -/
def KeepsOwnRole (p : PairingManager) (own : InstanceId) (role : AccessLevel) : Prop :=
  ∀ e, p.findByInstance own = some e → e.state = .trusted → e.role ≤ role

/-- A new credential of the session's own device keeps all roles iff it keeps that device's. -/
theorem Regranted.keepsRoles_iff {role : AccessLevel} {token : Token} (h : Regranted own role token p p') :
    KeepsRoles p p' ↔ p.KeepsOwnRole own role := by
  obtain ⟨k, e', hk, hinst, hrole, -, hfind, hrest⟩ := h.slot
  constructor
  · intro hkeep e he ht
    have hle := hkeep k e e' ((hfind e).mpr he) ht hk (hinst.trans (findByInstance_some he).symm)
    exact hrole ▸ hle
  · intro hkeep j x x' hx ht hx' _
    by_cases hj : j = k
    · subst hj
      cases hk.symm.trans hx'
      rw [hrole]
      exact hkeep x ((hfind x).mp hx) ht
    · rw [hrest j x x' hj hx hx']
      exact AccessLevel.le_refl _

/-- A new credential of another device shows, if its token is new. -/
theorem Regranted.not_sameEntries {role : AccessLevel} {token : Token} (h : Regranted inst role token p p')
    (hne : inst ≠ own) (hfresh : ∀ k e, p.slot k = some e → e.token ≠ token) : ¬SameEntries own p p' := by
  intro hsame
  obtain ⟨k, e', hk, hinst, -, htok, -⟩ := h.slot
  have hbefore := (hsame k e' (hinst.symm ▸ hne)).mp (slot_eq_some.mp hk)
  exact hfresh k e' (slot_eq_some.mpr hbefore) htok

/-- There is a token that no entry has. -/
theorem exists_fresh_token (p : PairingManager) : ∃ token : Token, ∀ k e, p.slot k = some e → e.token ≠ token := by
  let tok (n : Fin 9) : Token := ⟨List.replicate 16 (UInt8.ofNat n), List.length_replicate⟩
  have hinj : Function.Injective tok := by
    intro a b hab
    have hbyte : (List.replicate 16 (UInt8.ofNat a)).head? = (List.replicate 16 (UInt8.ofNat b)).head? :=
      congrArg (fun t : Token => t.val.head?) hab
    revert a b
    decide
  let used : Finset Token := ((p.entries.slots.filterMap id).map PairedEntry.token).toFinset
  have hcard : used.card < (Finset.univ.image tok).card := by
    rw [Finset.card_image_of_injective _ hinj, Finset.card_univ, Fintype.card_fin]
    have h₁ : used.card ≤ ((p.entries.slots.filterMap id).map PairedEntry.token).length := List.toFinset_card_le _
    have h₂ : (p.entries.slots.filterMap id).length ≤ p.entries.slots.length := List.length_filterMap_le _ _
    have h₃ : p.entries.slots.length = 8 := p.entries.size
    rw [List.length_map] at h₁
    omega
  obtain ⟨token, -, hnot⟩ := Finset.exists_mem_notMem_of_card_lt_card hcard
  refine ⟨token, fun k e hk he => hnot ?_⟩
  refine List.mem_toFinset.mpr (List.mem_map.mpr ⟨e, List.mem_filterMap.mpr ⟨some e, ?_, rfl⟩, he⟩)
  exact List.mem_of_getElem? (slot_eq_some.mp hk)

end PairingManager

/-! ## A refusal that parks -/

namespace PendingPairingList

/-- Two drops are one. -/
theorem drop_drop (l : PendingPairingList) (p q : PendingKnock → Bool) :
    (l.drop p).drop q = l.drop fun k => p k || q k := by
  have hslots : ((l.drop p).drop q).slots = (l.drop fun k => p k || q k).slots := by
    show (l.slots.map _).map _ = l.slots.map _
    rw [List.map_map]
    refine List.map_congr_left fun o _ => ?_
    cases o with
    | none => rfl
    | some k =>
      cases hp : p k <;> simp [hp]
  cases h₁ : (l.drop p).drop q
  cases h₂ : l.drop fun k => p k || q k
  rw [h₁, h₂] at hslots
  cases hslots
  rfl

/-- A drop looks only at the knocks in the list. -/
theorem drop_congr {l : PendingPairingList} {p q : PendingKnock → Bool} (h : ∀ k, some k ∈ l.slots → p k = q k) :
    l.drop p = l.drop q := by
  unfold drop
  congr 1
  refine List.map_congr_left fun o ho => ?_
  cases o with
  | none => rfl
  | some k => rw [Option.any_some, Option.any_some, h k ho]

/-- A drop of nothing leaves the list. -/
theorem drop_false {l : PendingPairingList} {p : PendingKnock → Bool} (h : ∀ k, some k ∈ l.slots → p k = false) :
    l.drop p = l := by
  have hslots : (l.drop p).slots = l.slots := by
    refine (List.map_congr_left (g := id) fun o ho => ?_).trans (List.map_id _)
    cases o with
    | none => rfl
    | some k => simp [h k ho]
  cases l
  cases h₁ : drop _ p
  rw [h₁] at hslots
  cases hslots
  rfl

/-- A selection holds the knocks it is about. -/
theorem mem_select {l : PendingPairingList} {p : PendingKnock → Bool} {k : PendingKnock} :
    k ∈ l.select p ↔ some k ∈ l.slots ∧ p k = true := by
  unfold select
  rw [List.mem_filterMap]
  constructor
  · rintro ⟨o, ho, hk⟩
    obtain ⟨rfl, hp⟩ := Option.filter_eq_some_iff.mp hk
    exact ⟨ho, hp⟩
  · rintro ⟨hk, hp⟩
    exact ⟨some k, hk, Option.filter_eq_some_iff.mpr ⟨rfl, hp⟩⟩

/-- Dropping the knocks of a session leaves those of other devices iff all of them are of the device `own`. -/
theorem sameOthers_drop_iff {l : PendingPairingList} {p : PendingKnock → Bool} {own : InstanceId} :
    SameOthers PendingKnock.instanceId own l.slots (l.drop p).slots ↔
      ∀ k, some k ∈ l.slots → p k = true → k.instanceId = own := by
  constructor
  · intro h k hk hp
    by_contra hne
    obtain ⟨i, hi⟩ := List.getElem?_of_mem hk
    have hkept := (h i k hne).mpr hi
    have hgone : (l.drop p).slots[i]? = some none := by
      show (l.slots.map _)[i]? = _
      rw [List.getElem?_map, hi]
      simp [hp]
    cases hgone.symm.trans hkept
  · intro h i k hne
    show (l.slots.map _)[i]? = _ ↔ _
    rw [List.getElem?_map]
    cases hi : l.slots[i]? with
    | none => simp
    | some o =>
      cases o with
      | none => simp
      | some x =>
        cases hp : p x with
        | true =>
          have hx := h x (List.mem_of_getElem? hi) hp
          simp only [Option.map_some, Option.any_some, hp, if_true, Option.some.injEq, reduceCtorEq, false_iff]
          rintro rfl
          exact hne hx
        | false => simp [hp]

end PendingPairingList

section

variable {ε : Type} {w : World ε} {c : Config} {s : Sys ε}

theorem pairing_publishPending (nowMs : UInt32) (s : Sys ε) :
    (publishPendingPairingState c nowMs s).hub.pairing = s.hub.pairing := by
  unfold publishPendingPairingState
  split
  · rfl
  · exact congrArg View.pairing (view_retain _ _ _)

theorem pairing_publishRoster (s : Sys ε) : (publishPairedRosterState c s).hub.pairing = s.hub.pairing := by
  unfold publishPairedRosterState
  split
  · rfl
  · exact congrArg View.pairing (view_retain _ _ _)

theorem pairing_emitPairingEvent (kind : UInt8) (inst name : Bytes) (mode : UInt8) (role : AccessLevel)
    (version : Bytes) (nowMs : UInt32) (s : Sys ε) :
    (emitPairingEvent w c kind inst name mode role version nowMs s).hub.pairing = s.hub.pairing :=
  (emits_emitPairingEvent c kind inst name mode role version nowMs s).pairing

/-- Dropping a list of knocks drops each; the induction is on the list. -/
theorem pairing_dropKnocks (nowMs : UInt32) : ∀ (ks : List PendingKnock) (s : Sys ε),
    (ks.foldl (dropKnock w c nowMs) s).hub.pairing =
      { s.hub.pairing with pending := s.hub.pairing.pending.drop fun k => decide (k ∈ ks) }
  | [], s => by
    have hnone : s.hub.pairing.pending.drop (fun k => decide (k ∈ ([] : List PendingKnock))) = s.hub.pairing.pending :=
      PendingPairingList.drop_false fun k _ => by simp
    rw [List.foldl_nil, hnone]
  | k :: ks, s => by
    have hone : (dropKnock w c nowMs s k).hub.pairing =
        { s.hub.pairing with pending := s.hub.pairing.pending.drop (· == k) } := by
      unfold dropKnock
      dsimp only
      rw [pairing_emitPairingEvent]
      rfl
    rw [List.foldl_cons, pairing_dropKnocks nowMs ks, hone]
    dsimp only
    rw [PendingPairingList.drop_drop]
    congr 2
    funext x
    by_cases hx : x = k <;> simp [hx]

/-- The knocks of the session, and nothing else, are gone. -/
theorem pairing_dropKnocksOf (sid nowMs : UInt32) (s : Sys ε) : (dropKnocksOf w c sid nowMs s).hub.pairing =
    { s.hub.pairing with pending := s.hub.pairing.pending.drop (PendingPairingList.ofSession sid) } := by
  unfold dropKnocksOf
  dsimp only
  split
  · rename_i hempty
    rw [List.isEmpty_iff] at hempty
    have hnone : s.hub.pairing.pending.drop (PendingPairingList.ofSession sid) = s.hub.pairing.pending := by
      refine PendingPairingList.drop_false fun k hk => Bool.eq_false_iff.mpr fun hp => ?_
      have hmem := PendingPairingList.mem_select.mpr ⟨hk, hp⟩
      rw [hempty] at hmem
      cases hmem
    rw [hnone]
  · have hdrop : (s.hub.pairing.pending.drop fun k =>
        decide (k ∈ s.hub.pairing.pending.select (PendingPairingList.ofSession sid))) =
        s.hub.pairing.pending.drop (PendingPairingList.ofSession sid) := by
      refine PendingPairingList.drop_congr fun k hk => ?_
      rw [Bool.eq_iff_iff, decide_eq_true_iff]
      exact PendingPairingList.mem_select.trans (and_iff_right hk)
    rw [pairing_publishPending, pairing_dropKnocks, hdrop]

/-- A send that fails now parks the slot. -/
def stalled (sl : Slot) (nowMs : UInt32) : Bool :=
  decide (2 ≤ sl.congestionLevel) &&
    sl.criticalStallSince.any fun since => timeReached nowMs (since + Limits.neverShedStallEvictionMs)

/-- What the outcome of a pairing request depends on, of the slot it comes from. -/
structure Requester where
  inst : InstanceId
  sid : UInt32
  nonce : Nonce
  stalled : Bool

def requester (sl : Slot) (nowMs : UInt32) : Requester where
  inst := sl.session.instanceId
  sid := sl.session.sessionId
  nonce := sl.nonce
  stalled := stalled sl nowMs

/-- The manager after a send to the session; one that fails on a stalled link takes its knocks. -/
def afterSend (ok : Bool) (x : Requester) (p : PairingManager) : PairingManager :=
  if !ok && x.stalled then { p with pending := p.pending.drop (PendingPairingList.ofSession x.sid) } else p

/-- Marking a session STALE leaves the ledger and the session's id alone. -/
theorem pairing_markStale {i : SlotIdx} (nowMs : UInt32) (reason : UInt8) (hocc : (s.session i).occupied = true) :
    (markStale w c i nowMs reason s).hub.pairing = s.hub.pairing ∧
      ((markStale w c i nowMs reason s).session i).sessionId = (s.session i).sessionId := by
  have hdo : Does c 0 none (Label.Suspends i reason) s (markStale w c i nowMs reason s) :=
    markStale_does nowMs reason hocc
  refine ⟨pairing_of_does hdo fun l hl => ?_, ?_⟩
  · cases l <;> first | exact id | exact hl.elim
  · refine Path.frame (f := fun v => (v.slots i).sessionId) hdo fun l v v' hl ha => ?_
    cases ha with
    | stale j =>
      by_cases hj : i = j
      · subst hj
        rw [View.slots_set_self]
      · rw [View.slots_set_ne v hj]
    | release | chatter => rfl
    | _ => exact hl.elim

/-- Parking drops the requester's knocks. -/
theorem pairing_parkAndDetach {i : SlotIdx} (nowMs : UInt32) (ha : Active s.view i) :
    (parkAndDetach w c i nowMs s).hub.pairing = { s.hub.pairing with
      pending := s.hub.pairing.pending.drop (PendingPairingList.ofSession (s.session i).sessionId) } := by
  have hocc : (s.session i).occupied = true := (occupied_view s i).mp ha.1
  have hfresh : ((s.session i).state != .stale) = true := bne_iff_ne.mpr ha.2
  obtain ⟨hpair, hsid⟩ := pairing_markStale (w := w) (c := c) nowMs 4 hocc
  have hclose : ∀ t : Sys ε, (closeSlot w i t).hub.pairing = t.hub.pairing := fun t =>
    congrArg View.pairing (view_closeSlot i t)
  unfold parkAndDetach
  dsimp only
  rw [Sys.pairing_modSlot, hclose, hocc, hfresh]
  show (dropBlob i (dropKnocksOf w c _ nowMs _)).hub.pairing = _
  rw [dropBlob_hub, pairing_dropKnocksOf, hpair, hsid]

/-- A critical send drops them when it parks. -/
theorem pairing_trackCriticalSend {i : SlotIdx} (ok : Bool) (nowMs : UInt32) (ha : Active s.view i) :
    (trackCriticalSend w c i ok nowMs s).hub.pairing = afterSend ok (requester (s.slot i) nowMs) s.hub.pairing := by
  unfold trackCriticalSend afterSend requester stalled
  dsimp only
  cases ok with
  | true => simp
  | false =>
    cases hlow : decide ((s.hub.slots i).congestionLevel < 2) with
    | true =>
      have hlt : (s.hub.slots i).congestionLevel < 2 := of_decide_eq_true hlow
      have hnot : ¬2 ≤ (s.hub.slots i).congestionLevel := by rw [UInt8.not_le]; exact hlt
      simp [hnot]
    | false =>
      have hnlt : ¬(s.hub.slots i).congestionLevel < 2 := of_decide_eq_false hlow
      have hle : 2 ≤ (s.hub.slots i).congestionLevel := UInt8.not_lt.mp hnlt
      cases hsince : (s.hub.slots i).criticalStallSince with
      | none => simp [hle]
      | some since =>
        cases hout : timeReached nowMs (since + Limits.neverShedStallEvictionMs) with
        | true =>
          have hpark := pairing_parkAndDetach (w := w) (c := c) nowMs ha
          simpa [hle, hout] using hpark
        | false => simp [hle, hout]

/-- So a refusal drops them when its NACK cannot be sent for too long. -/
theorem pairing_sendNackTracked {i : SlotIdx} (n : NackMsg) (nowMs : UInt32) (ha : Active s.view i)
    (hlink : (s.slot i).transport.isSome) : ∃ ok, ((∀ t bytes e, (w.write t bytes e).1 = false) → ok = false) ∧
      (sendNackTracked w c i n nowMs s).hub.pairing = afterSend ok (requester (s.slot i) nowMs) s.hub.pairing := by
  unfold sendNackTracked
  rw [if_neg (by rw [Option.isNone_iff_eq_none]; exact Option.isSome_iff_ne_none.mp hlink)]
  split
  · exact ⟨false, fun _ => rfl, pairing_trackCriticalSend false nowMs ha⟩
  · rename_i bytes _
    dsimp only
    have hemit : Emits s (sendFrameTo w i .nack 0 bytes 0 s).2 :=
      emits_sendFrameTo hlink (by decide) (by decide)
    have hsl : (sendFrameTo w i .nack 0 bytes 0 s).2.hub.slots i =
        withEvents ((sendFrameTo w i .nack 0 bytes 0 s).2.session i).events (s.hub.slots i) := hemit.slot i
    have ha' : Active (sendFrameTo w i .nack 0 bytes 0 s).2.view i := by
      refine ⟨(occupied_view _ i).mpr ?_, ?_⟩
      · rw [hemit.occupied i]
        exact (occupied_view s i).mp ha.1
      · show ((sendFrameTo w i .nack 0 bytes 0 s).2.session i).state ≠ .stale
        rw [hemit.state i]
        exact ha.2
    refine ⟨(sendFrameTo w i .nack 0 bytes 0 s).1, fun hfail => ?_, ?_⟩
    · unfold sendFrameTo
      split
      · rfl
      · split
        · rfl
        · exact hfail _ _ _
    · refine (pairing_trackCriticalSend _ nowMs ha').trans ?_
      rw [hemit.pairing, Sys.slot, hsl]
      rfl

/-! ## What a request does to the ledger -/

/-- A correct PIN replaces the requester's entry and role. -/
theorem pairing_pinGrant (i : SlotIdx) (inst : InstanceId) (token : Token) (nowMs : UInt32) (s : Sys ε) :
    (pinGrant w c i inst token nowMs s).hub.pairing =
      ({ s.hub.pairing with failCount := 0 } : PairingManager).modify inst (labelEntry (s.session i)) := by
  have hsend : ∀ (payload : Option Bytes) (t : Sys ε), (sendEncoded w i .pairGrant payload t).hub.pairing =
      t.hub.pairing := by
    intro payload t
    unfold sendEncoded
    split
    · rfl
    · rw [hub_sendFrameTo]
  unfold pinGrant
  dsimp only
  rw [pairing_publishRoster, pairing_emitPairingEvent]
  show PairingManager.modify (sendEncoded w i .pairGrant _ _).hub.pairing inst _ = _
  rw [hsend]
  rfl

/-- A grant mints the requester's entry, where the ledger can take it. -/
theorem mintEntry_eq {inst : InstanceId} (role : AccessLevel) (mode : UInt8) (hcan : s.hub.pairing.canGrant inst = true) :
    mintEntry w inst role mode s = some ((w.fill 16 s.env).1,
      modPairing (fun p => p.grant inst role mode (w.fill 16 s.env).1) { s with env := (w.fill 16 s.env).2 }) := by
  unfold mintEntry
  rw [hcan]
  rfl

/-- Otherwise nothing is minted. -/
theorem mintEntry_refused {inst : InstanceId} (role : AccessLevel) (mode : UInt8)
    (hcan : s.hub.pairing.canGrant inst = false) : mintEntry w inst role mode s = none := by
  unfold mintEntry
  rw [hcan]
  rfl

/-- The PIN ceremony grants. -/
def PinGrants (s : Sys ε) (i : SlotIdx) (inst : InstanceId) (proof : Token) (nowMs : UInt32) : Prop :=
  s.hub.pairing.windowOpen nowMs = true ∧ pairingPinProof s.hub.pairing.pin (s.slot i).nonce = proof ∧
    s.hub.pairing.canGrant inst = true

/-- The PIN ceremony changes the ledger exactly when it grants. -/
theorem ledger_handlePinProof (i : SlotIdx) (inst : InstanceId) (proof : Token) (nowMs : UInt32) (s : Sys ε) :
    (handlePinProof w c i inst proof nowMs s).hub.pairing.pending = s.hub.pairing.pending ∧
      (PinGrants s i inst proof nowMs → PairingManager.Regranted inst .control (w.fill 16 s.env).1 s.hub.pairing
        (handlePinProof w c i inst proof nowMs s).hub.pairing) ∧
      (¬PinGrants s i inst proof nowMs →
        (handlePinProof w c i inst proof nowMs s).hub.pairing.entries = s.hub.pairing.entries) := by
  have hnack : ∀ (n : NackMsg) (t : Sys ε), (sendNack w i n t).hub.pairing = t.hub.pairing := fun n t => by
    rw [hub_sendNack]
  unfold handlePinProof PinGrants
  cases hopen : s.hub.pairing.windowOpen nowMs with
  | false =>
    rw [if_pos (by rfl), hnack]
    exact ⟨rfl, fun h => absurd h.1 Bool.false_ne_true, fun _ => rfl⟩
  | true =>
    rw [if_neg (by decide)]
    by_cases hproof : pairingPinProof s.hub.pairing.pin (s.slot i).nonce = proof
    · rw [if_neg (not_not.mpr hproof)]
      cases hcan : s.hub.pairing.canGrant inst with
      | false =>
        rw [mintEntry_refused _ _ hcan]
        dsimp only
        rw [hnack]
        exact ⟨rfl, fun h => absurd h.2.2 Bool.false_ne_true, fun _ => rfl⟩
      | true =>
        rw [mintEntry_eq _ _ hcan]
        dsimp only
        rw [pairing_pinGrant]
        have hgrant := PairingManager.regranted_grant hcan .control PairingModes.pinProof (w.fill 16 s.env).1
        have hpend : (s.hub.pairing.grant inst .control PairingModes.pinProof (w.fill 16 s.env).1).pending =
            s.hub.pairing.pending := (PairingManager.mints_grant s.hub.pairing inst .control _ _).pending
        have hreset : PairingManager.Regranted inst .control (w.fill 16 s.env).1 s.hub.pairing
            { s.hub.pairing.grant inst .control PairingModes.pinProof (w.fill 16 s.env).1 with failCount := 0 } :=
          hgrant.of_entries rfl
        exact ⟨hpend, fun _ => hreset.label (s.session i), fun h => absurd ⟨rfl, hproof, rfl⟩ h⟩
    · rw [if_pos hproof, hnack]
      exact ⟨rfl, fun h => absurd h.2.1 hproof, fun _ => rfl⟩

/-- A PAIR_GRANT fits its buffer. -/
theorem pairGrant_encodes (token : Token) (role : AccessLevel) :
    (encodePairGrant { token, roles := role, trust := pairGrantTrust w } 96).isSome = true := by
  refine encodePairGrant_isSome token role ?_
  unfold pairGrantTrust
  split
  · rename_i hlen
    rw [Bool.and_eq_true, decide_eq_true_eq, decide_eq_true_eq] at hlen
    exact .inr ⟨w.publicKey, hlen.2, rfl⟩
  · exact .inl rfl

/-- A grant that is issued: the credential, and the device's knock is answered. -/
theorem ledger_issuePairGrant (i : SlotIdx) (inst : InstanceId) (role : AccessLevel) (mode : UInt8) (nowMs : UInt32)
    (s : Sys ε) (hcan : s.hub.pairing.canGrant inst = true) :
    (issuePairGrant w c i inst role mode nowMs s).1 = true ∧
      (issuePairGrant w c i inst role mode nowMs s).2.hub.pairing.pending = s.hub.pairing.pending.remove inst ∧
      PairingManager.Regranted inst role (w.fill 16 s.env).1 s.hub.pairing
        (issuePairGrant w c i inst role mode nowMs s).2.hub.pairing := by
  have henc := pairGrant_encodes (w := w) (w.fill 16 s.env).1 role
  unfold issuePairGrant
  rw [mintEntry_eq _ _ hcan]
  dsimp only
  split
  · rename_i hnone
    rw [hnone] at henc
    cases henc
  · have hgrant := PairingManager.regranted_grant hcan role mode (w.fill 16 s.env).1
    have hpend : (s.hub.pairing.grant inst role mode (w.fill 16 s.env).1).pending = s.hub.pairing.pending :=
      (PairingManager.mints_grant s.hub.pairing inst role _ _).pending
    rw [pairing_publishRoster, pairing_publishPending, pairing_emitPairingEvent]
    unfold modPending modPairing setPairing setRole Sys.modSession
    dsimp only
    rw [Sys.pairing_modSlot, hub_sendFrameTo]
    refine ⟨rfl, ?_, ?_⟩
    · show PendingPairingList.remove (PairingManager.grant _ inst role mode _).pending inst = _
      rw [hpend]
    · exact (hgrant.label (s.session i)).of_entries rfl

/-- The presence window is used up. -/
def consumeWindow (s : Sys ε) : Sys ε :=
  let s := modPairing PairingManager.closePresenceWindow s
  { s with hub := { s.hub with presenceWasOpen := false } }

/-- A knock uses the window up, and is then granted or refused. -/
theorem presenceKnock_eq (i : SlotIdx) (inst : InstanceId) (nowMs : UInt32) (s : Sys ε) :
    presenceKnock w c i inst nowMs s =
      if (issuePairGrant w c i inst s.hub.pairing.presenceGrantRole PairingModes.pushToPair nowMs
          (consumeWindow s)).1 = true then
        publishPendingPairingState c nowMs (emitPairingEvent w c PairingEventKinds.windowClosed [] []
          PairingModes.pushToPair .watch [] nowMs (issuePairGrant w c i inst s.hub.pairing.presenceGrantRole
            PairingModes.pushToPair nowMs (consumeWindow s)).2)
      else sendNackTracked w c i { code := .pairingDenied } nowMs (issuePairGrant w c i inst
        s.hub.pairing.presenceGrantRole PairingModes.pushToPair nowMs (consumeWindow s)).2 := by
  have hdef : presenceKnock w c i inst nowMs s =
      if (!(issuePairGrant w c i inst s.hub.pairing.presenceGrantRole PairingModes.pushToPair nowMs
          (consumeWindow s)).1) = true then
        sendNackTracked w c i { code := .pairingDenied } nowMs (issuePairGrant w c i inst
          s.hub.pairing.presenceGrantRole PairingModes.pushToPair nowMs (consumeWindow s)).2
      else publishPendingPairingState c nowMs (emitPairingEvent w c PairingEventKinds.windowClosed [] []
          PairingModes.pushToPair .watch [] nowMs (issuePairGrant w c i inst s.hub.pairing.presenceGrantRole
            PairingModes.pushToPair nowMs (consumeWindow s)).2) := rfl
  rw [hdef]
  cases (issuePairGrant w c i inst s.hub.pairing.presenceGrantRole PairingModes.pushToPair nowMs
    (consumeWindow s)).1 <;> rfl

/-- A knock on an open presence window, if there is room. -/
theorem ledger_presenceKnock (i : SlotIdx) {inst : InstanceId} (nowMs : UInt32)
    (hcan : s.hub.pairing.canGrant inst = true) :
    (presenceKnock w c i inst nowMs s).hub.pairing.pending = s.hub.pairing.pending.remove inst ∧
      ∃ token, PairingManager.Regranted inst s.hub.pairing.presenceGrantRole token s.hub.pairing
        (presenceKnock w c i inst nowMs s).hub.pairing := by
  have hcan' : (consumeWindow s).hub.pairing.canGrant inst = true := hcan
  obtain ⟨hok, hpend, hgrant⟩ := ledger_issuePairGrant (w := w) (c := c) i inst s.hub.pairing.presenceGrantRole
    PairingModes.pushToPair nowMs _ hcan'
  rw [presenceKnock_eq, if_pos hok, pairing_publishPending, pairing_emitPairingEvent]
  exact ⟨hpend, _, hgrant.others, hgrant.slot⟩

/-- A knock on an open presence window that finds the ledger full. -/
theorem presenceKnock_refused (i : SlotIdx) {inst : InstanceId} (nowMs : UInt32)
    (hcan : s.hub.pairing.canGrant inst = false) :
    presenceKnock w c i inst nowMs s = sendNackTracked w c i { code := .pairingDenied } nowMs (consumeWindow s) := by
  have hcan' : (consumeWindow s).hub.pairing.canGrant inst = false := hcan
  have hissue : issuePairGrant w c i inst s.hub.pairing.presenceGrantRole PairingModes.pushToPair nowMs
      (consumeWindow s) = (false, consumeWindow s) := by
    unfold issuePairGrant
    rw [mintEntry_refused _ _ hcan']
  rw [presenceKnock_eq, hissue]
  exact if_neg Bool.false_ne_true

/-! ## Which requests are safe -/

/-- A refusal that parks the session takes no other device's knock with it. -/
def Requester.Unshared (x : Requester) (p : PairingManager) : Prop :=
  x.stalled = true → ∀ k, some k ∈ p.pending.slots → k.sessionId = x.sid → k.instanceId = x.inst

/-- A bare knock: one that is granted keeps the device's role, and one that is refused takes no other's knock along. -/
def SafeKnock (x : Requester) (p : PairingManager) (inst : InstanceId) (nowMs : UInt32) : Prop :=
  if x.inst ≠ inst then x.Unshared p
  else if p.presenceWindowOpen nowMs then
    if p.canGrant inst then p.KeepsOwnRole inst p.presenceGrantRole else x.Unshared p
  else if !p.knockApproveEnabled then x.Unshared p
  else if (p.pending.add inst x.sid (nowMs + pairingWindowMs) PairingModes.knockApprove).isNone then x.Unshared p
  else True

/-- A request with a proof: one that is granted is for the session's own device, which keeps its role. -/
def SafeProof (x : Requester) (p : PairingManager) (inst : InstanceId) (proof : Token) (nowMs : UInt32) : Prop :=
  p.windowOpen nowMs = true ∧ pairingPinProof p.pin x.nonce = proof ∧ p.canGrant inst = true →
    inst = x.inst ∧ p.KeepsOwnRole x.inst .control

def SafeRequest (x : Requester) (p : PairingManager) (nowMs : UInt32) : Option PairReqMsg → Prop
  | none => True
  | some m => match m.pinProof with
    | none => SafeKnock x p m.instanceId nowMs
    | some proof => SafeProof x p m.instanceId proof nowMs

/-- How a random source and links may answer. -/
structure Answers (ε : Type) where
  fill : (n : Nat) → ε → ByteArr n × ε
  write : TransportId → Bytes → ε → Bool × ε

/-- No send succeeds. -/
def Answers.failing : Answers ε := ⟨fun n e => (ByteArr.zero n, e), fun _ _ e => (false, e)⟩

/-- A world that answers so. -/
def World.answering (w : World ε) (a : Answers ε) : World ε := { w with fill := a.fill, write := a.write }

/-- Whatever token is drawn and whichever sends fail, what `f` leaves touches nothing but the device `own`. -/
def AlwaysOnlySelf (own : InstanceId) (p : PairingManager) (f : Answers ε → PairingManager) : Prop :=
  ∀ a, OnlySelf own p (f a)

/-- A NACK that parks touches no other instance exactly when the session shares no knock. -/
theorem sameKnocks_afterSend {x : Requester} {p : PairingManager} :
    SameKnocks x.inst p (afterSend false x p) ↔ x.Unshared p := by
  unfold SameKnocks afterSend Requester.Unshared
  cases hst : x.stalled with
  | false =>
    rw [if_neg (by simp)]
    exact iff_of_true (SameOthers.refl _) fun h => nomatch h
  | true =>
    rw [if_pos (by rfl)]
    refine PendingPairingList.sameOthers_drop_iff.trans ⟨fun h _ k hk hs => ?_, fun h k hk hs => ?_⟩
    · exact h k hk (beq_iff_eq.mpr hs)
    · exact h rfl k hk (beq_iff_eq.mp hs)

/-- A refusal is safe iff parking is. -/
theorem refused_iff {x : Requester} {p q : PairingManager} {f : Answers ε → PairingManager}
    (he : q.entries = p.entries) (hp : q.pending = p.pending)
    (hf : ∀ a : Answers ε, ∃ ok, ((∀ t bytes e, (a.write t bytes e).1 = false) → ok = false) ∧ f a = afterSend ok x q) :
    AlwaysOnlySelf x.inst p f ↔ x.Unshared p := by
  have hunshared : x.Unshared q ↔ x.Unshared p := by
    unfold Requester.Unshared
    rw [hp]
  have hbase : OnlySelf x.inst p q := PairingManager.onlySelf_of_eq he hp
  constructor
  · intro h
    obtain ⟨ok, hok, hres⟩ := hf Answers.failing
    have honly : SameKnocks x.inst p (f Answers.failing) := (h Answers.failing).knocks
    rw [hres, hok fun _ _ _ => rfl] at honly
    refine hunshared.mp (sameKnocks_afterSend.mp ?_)
    unfold SameKnocks at honly ⊢
    rw [hp]
    exact honly
  · intro h a
    obtain ⟨ok, -, hres⟩ := hf a
    rw [hres]
    cases ok with
    | true => exact hbase
    | false =>
      exact PairingManager.onlySelf_withKnocks hbase (by unfold afterSend; split <;> rfl)
        (sameKnocks_afterSend.mpr (hunshared.mpr h))

/-- A credential for the session's own device is safe iff the device keeps its role. -/
theorem regranted_own_iff {own : InstanceId} {role : AccessLevel} {p : PairingManager} {f : Answers ε → PairingManager}
    (hf : ∀ a : Answers ε, SameKnocks own p (f a) ∧ ∃ token, PairingManager.Regranted own role token p (f a)) :
    AlwaysOnlySelf own p f ↔ p.KeepsOwnRole own role := by
  constructor
  · intro h
    obtain ⟨-, token, hgrant⟩ := hf Answers.failing
    exact hgrant.keepsRoles_iff.mp (h _).roles
  · intro h a
    obtain ⟨hknocks, token, hgrant⟩ := hf a
    exact ⟨hgrant.others, hknocks, hgrant.keepsRoles_iff.mpr h⟩

theorem sameKnocks_remove (own : InstanceId) (p : PairingManager) :
    SameOthers PendingKnock.instanceId own p.pending.slots (p.pending.remove own).slots :=
  SameOthers.modifyUsed (fun _ hk => beq_iff_eq.mp hk) fun _ _ _ hb => nomatch hb

theorem sameKnocks_add {own : InstanceId} {sid ms : UInt32} {mode : UInt8} {l l' : PendingPairingList}
    (h : l.add own sid ms mode = some l') : SameOthers PendingKnock.instanceId own l.slots l'.slots := by
  unfold PendingPairingList.add at h
  split at h
  · cases h
    refine SameOthers.modifyUsed (fun _ hk => beq_iff_eq.mp hk) fun k b hk hb => ?_
    cases hb
    exact beq_iff_eq.mp hk
  · split at h
    · cases h
    · rename_i hslots
      cases h
      exact SameOthers.fillFirst rfl hslots

/-- States that may differ with the answers of the world, but not in what a pairing request depends on. -/
structure SameRequest (S : Answers ε → Sys ε) (i : SlotIdx) (nowMs : UInt32) (x : Requester) (p : PairingManager) :
    Prop where
  requester : ∀ a, requester ((S a).slot i) nowMs = x
  pairing : ∀ a, (S a).hub.pairing = p
  active : ∀ a, Active (S a).view i
  linked : ∀ a, ((S a).slot i).transport.isSome

variable {S : Answers ε → Sys ε} {i : SlotIdx} {nowMs : UInt32} {x : Requester} {p : PairingManager}

/-- The same refusal, whatever the links answer. -/
theorem SameRequest.refused (h : SameRequest S i nowMs x p) (n : NackMsg) (a : Answers ε) :
    ∃ ok, ((∀ t bytes e, (a.write t bytes e).1 = false) → ok = false) ∧
      (sendNackTracked (w.answering a) c i n nowMs (S a)).hub.pairing = afterSend ok x p := by
  have hsend := pairing_sendNackTracked (w := w.answering a) (c := c) n nowMs (h.active a) (h.linked a)
  rw [h.requester, h.pairing] at hsend
  exact hsend

theorem SameRequest.consumed (h : SameRequest S i nowMs x p) :
    SameRequest (fun a => consumeWindow (S a)) i nowMs x p.closePresenceWindow where
  requester := h.requester
  pairing a := by
    show (S a).hub.pairing.closePresenceWindow = _
    rw [h.pairing a]
  active a := ⟨(h.active a).1, (h.active a).2⟩
  linked := h.linked

theorem SameRequest.inst (h : SameRequest S i nowMs x p) (a : Answers ε) : ((S a).session i).instanceId = x.inst :=
  congrArg Requester.inst (h.requester a)

theorem SameRequest.sid (h : SameRequest S i nowMs x p) (a : Answers ε) : ((S a).session i).sessionId = x.sid :=
  congrArg Requester.sid (h.requester a)

/-- A queued knock touches only the knock of its device. -/
theorem onlySelf_queueKnock {inst : InstanceId} {l : PendingPairingList} (s : Sys ε)
    (hadd : s.hub.pairing.pending.add inst (s.session i).sessionId (nowMs + pairingWindowMs)
      PairingModes.knockApprove = some l) : OnlySelf inst s.hub.pairing (queueKnock w c i inst nowMs s).hub.pairing := by
  unfold queueKnock
  simp only [hadd]
  rw [pairing_publishPending, pairing_emitPairingEvent]
  refine PairingManager.onlySelf_withKnocks (PairingManager.onlySelf_of_eq rfl rfl) rfl ?_
  refine (sameKnocks_add hadd).trans (SameOthers.modifyUsed (fun _ hk => beq_iff_eq.mp hk) fun k b hk hb => ?_)
  cases hb
  exact beq_iff_eq.mp hk

/-- A knock touches only its own instance exactly when it is safe. -/
theorem handleKnock_onlySelf_iff (h : SameRequest S i nowMs x p) (inst : InstanceId) :
    AlwaysOnlySelf x.inst p (fun a => (handleKnock (w.answering a) c i inst nowMs (S a)).hub.pairing) ↔
      SafeKnock x p inst nowMs := by
  unfold handleKnock SafeKnock
  simp only [h.inst, h.pairing]
  by_cases hinst : x.inst ≠ inst
  · simp only [if_pos hinst]
    exact refused_iff rfl rfl (h.refused _)
  simp only [if_neg hinst]
  obtain rfl : x.inst = inst := not_not.mp hinst
  cases hopen : p.presenceWindowOpen nowMs with
  | true =>
    simp only [if_true]
    cases hcan : p.canGrant x.inst with
    | true =>
      rw [if_pos (by rfl)]
      refine regranted_own_iff fun a => ?_
      have hcan' : (S a).hub.pairing.canGrant x.inst = true := by
        rw [h.pairing]
        exact hcan
      obtain ⟨hpend, token, hgrant⟩ := ledger_presenceKnock (w := w.answering a) (c := c) i nowMs hcan'
      rw [h.pairing] at hpend hgrant
      refine ⟨?_, token, hgrant⟩
      unfold SameKnocks
      rw [hpend]
      exact sameKnocks_remove x.inst p
    | false =>
      rw [if_neg Bool.false_ne_true]
      refine refused_iff (q := p.closePresenceWindow) rfl rfl fun a => ?_
      rw [presenceKnock_refused i nowMs (by rw [h.pairing]; exact hcan)]
      exact h.consumed.refused _ a
  | false =>
    simp only [Bool.false_eq_true, if_false]
    cases hen : p.knockApproveEnabled with
    | false =>
      simp only [Bool.not_false, if_true]
      exact refused_iff rfl rfl (h.refused _)
    | true =>
      simp only [Bool.not_true, Bool.false_eq_true, if_false]
      cases hadd : p.pending.add x.inst x.sid (nowMs + pairingWindowMs) PairingModes.knockApprove with
      | none =>
        rw [if_pos (by rfl)]
        refine refused_iff rfl rfl fun a => ?_
        unfold queueKnock
        simp only [h.pairing, h.sid, hadd]
        exact h.refused _ a
      | some l =>
        rw [if_neg (by rw [Option.isNone_some]; exact Bool.false_ne_true)]
        refine iff_of_true (fun a => ?_) trivial
        have hadd' : (S a).hub.pairing.pending.add x.inst ((S a).session i).sessionId (nowMs + pairingWindowMs)
            PairingModes.knockApprove = some l := by
          rw [h.pairing, h.sid]
          exact hadd
        have honly := onlySelf_queueKnock (w := w.answering a) (c := c) (S a) hadd'
        rwa [h.pairing] at honly

/-- A PIN proof touches only its own instance exactly when it is safe. -/
theorem handlePinProof_onlySelf_iff (h : SameRequest S i nowMs x p) (inst : InstanceId) (proof : Token) :
    AlwaysOnlySelf x.inst p (fun a => (handlePinProof (w.answering a) c i inst proof nowMs (S a)).hub.pairing) ↔
      SafeProof x p inst proof nowMs := by
  have hnonce : ∀ a, ((S a).slot i).nonce = x.nonce := fun a => congrArg Requester.nonce (h.requester a)
  have hledger : ∀ a : Answers ε, _ := fun a =>
    ledger_handlePinProof (w := w.answering a) (c := c) i inst proof nowMs (S a)
  simp only [PinGrants, h.pairing, hnonce] at hledger
  unfold SafeProof
  by_cases hgranted : p.windowOpen nowMs = true ∧ pairingPinProof p.pin x.nonce = proof ∧ p.canGrant inst = true
  · rw [imp_iff_right hgranted]
    have hknocks : ∀ a : Answers ε, SameKnocks x.inst p
        (handlePinProof (w.answering a) c i inst proof nowMs (S a)).hub.pairing := by
      intro a
      unfold SameKnocks
      rw [(hledger a).1]
      exact SameOthers.refl _
    by_cases hinst : inst = x.inst
    · subst hinst
      rw [and_iff_right rfl]
      exact regranted_own_iff fun a => ⟨hknocks a, _, (hledger a).2.1 hgranted⟩
    · refine iff_of_false (fun hall => ?_) fun hown => hinst hown.1
      -- a token the ledger does not have yet shows that the other device's entry was written
      obtain ⟨token, hfresh⟩ := p.exists_fresh_token
      let a : Answers ε := ⟨fun n e => (if hn : n = 16 then hn ▸ token else ByteArr.zero n, e), fun _ _ e => (true, e)⟩
      exact ((hledger a).2.1 hgranted).not_sameEntries hinst hfresh (hall a).entries
  · refine iff_of_true (fun a => ?_) fun hyes => absurd hyes hgranted
    exact PairingManager.onlySelf_of_eq ((hledger a).2.2 hgranted) (hledger a).1

/-- A PAIR_REQ touches only its own instance exactly when it is safe. -/
theorem handlePairReq_onlySelf_iff (h : SameRequest S i nowMs x p) (msg : Option PairReqMsg) :
    AlwaysOnlySelf x.inst p (fun a => (handlePairReq (w.answering a) c i msg nowMs (S a)).hub.pairing) ↔
      SafeRequest x p nowMs msg := by
  cases msg with
  | none =>
    refine iff_of_true (fun a => ?_) trivial
    unfold handlePairReq
    dsimp only
    rw [hub_sendNack]
    exact PairingManager.onlySelf_of_eq (by rw [h.pairing]) (by rw [h.pairing])
  | some m =>
    unfold handlePairReq SafeRequest
    dsimp only
    cases m.pinProof with
    | none => exact handleKnock_onlySelf_iff h m.instanceId
    | some proof => exact handlePinProof_onlySelf_iff h m.instanceId proof

/-- Reading a frame changes nothing a pairing request depends on. -/
theorem slot_heard (w : World ε) (i : SlotIdx) (seq : UInt16) (s : Sys ε) :
    (heard w s i seq).hub.pairing = s.hub.pairing ∧ ((heard w s i seq).slot i).transport = (s.slot i).transport ∧
      ((heard w s i seq).session i).occupied = (s.session i).occupied ∧
      requester ((heard w s i seq).slot i) s.hub.monoMs.ms = requester (s.slot i) s.hub.monoMs.ms := by
  have hrevive : ∀ t : Sys ε, (reviveIfStale w i s.hub.monoMs.ms t).hub.pairing = t.hub.pairing ∧
      ((reviveIfStale w i s.hub.monoMs.ms t).slot i).transport = (t.slot i).transport ∧
      ((reviveIfStale w i s.hub.monoMs.ms t).session i).occupied = (t.session i).occupied ∧
      requester ((reviveIfStale w i s.hub.monoMs.ms t).slot i) s.hub.monoMs.ms =
        requester (t.slot i) s.hub.monoMs.ms := by
    intro t
    unfold reviveIfStale
    dsimp only
    split
    · rename_i hst
      have hemit := emits_emitSessionEvent (w := w) SessionEventKinds.sessionResumed
        ((t.modSession i fun se => { se with state := .live, staleSinceMs := 0 }).session i).sessionId
        s.hub.monoMs.ms (t.modSession i fun se => { se with state := .live, staleSinceMs := 0 })
      have hslot := hemit.slot i
      rw [Sys.modSession, Sys.slot_modSlot_self] at hslot
      refine ⟨hemit.pairing, ?_, ?_, ?_⟩
      · rw [Sys.slot, Sys.modSession, hslot]
        rfl
      · rw [Sys.session, Sys.modSession, hslot]
        show HubSession.occupied _ = HubSession.occupied _
        unfold HubSession.occupied
        rw [hst]
        rfl
      · rw [Sys.slot, Sys.modSession, hslot]
        rfl
    · exact ⟨rfl, rfl, rfl, rfl⟩
  unfold heard noteRx
  dsimp only
  split
  · obtain ⟨hp, ht, ho, hr⟩ := hrevive ((s.log (.read i)).modSession i fun se =>
      { se with lastRxMs := s.hub.monoMs.ms })
    have hslot : ((s.log (.read i)).modSession i fun se => { se with lastRxMs := s.hub.monoMs.ms }).hub.slots i =
        { s.slot i with session := { s.session i with lastRxMs := s.hub.monoMs.ms } } := by
      rw [Sys.modSession, Sys.slot_modSlot_self]
      rfl
    refine ⟨hp, ht.trans ?_, ho.trans ?_, hr.trans ?_⟩
    · rw [Sys.slot, hslot]
    · rw [Sys.session, hslot]
      rfl
    · rw [Sys.slot, hslot]
      rfl
  · exact hrevive (s.log (.read i))

/-- **A session pairs only itself exactly when its request is safe.**  Whatever token is drawn and whichever sends
fail, a PAIR_REQ leaves the entries and the knocks of other devices alone and lowers no trusted device's role, iff the
request meets the condition in the state it arrives in. -/
theorem pairs_only_self_iff {i : SlotIdx} (seq : UInt16) (msg : Option PairReqMsg)
    (hlink : (s.slot i).transport.isSome) :
    AlwaysOnlySelf (s.session i).instanceId s.hub.pairing
      (fun a => (move (w.answering a) c s (.frame i (.frame seq (.pairReq msg)))).hub.pairing) ↔
      ((s.session i).occupied = true →
        SafeRequest (requester (s.slot i) s.hub.monoMs.ms) s.hub.pairing s.hub.monoMs.ms msg) := by
  have hframe : ∀ a : Answers ε, (move (w.answering a) c s (.frame i (.frame seq (.pairReq msg)))).hub.pairing =
      (dispatch (w.answering a) c i (.pairReq msg) s.hub.monoMs.ms (heard (w.answering a) s i seq)).hub.pairing := by
    intro a
    rw [move_frame, pairing_setDispatchSeq]
  cases hsess : (s.session i).occupied with
  | false =>
    refine iff_of_true (fun a => ?_) fun h => nomatch h
    dsimp only
    rw [hframe, dispatch_free (m := .pairReq msg) ((slot_heard (w.answering a) i seq s).2.2.1.trans hsess)
      fun _ h => nomatch h]
    have hsame := (slot_heard (w.answering a) i seq s).1
    exact PairingManager.onlySelf_of_eq (by rw [hsame]) (by rw [hsame])
  | true =>
    rw [imp_iff_right rfl]
    have hrequest : SameRequest (fun a => heard (w.answering a) s i seq) i s.hub.monoMs.ms
        (requester (s.slot i) s.hub.monoMs.ms) s.hub.pairing :=
      { requester := fun a => (slot_heard (w.answering a) i seq s).2.2.2
        pairing := fun a => (slot_heard (w.answering a) i seq s).1
        active := fun a => awake_heard i seq s ((slot_heard (w.answering a) i seq s).2.2.1.trans hsess)
        linked := fun a => by rw [(slot_heard (w.answering a) i seq s).2.1]; exact hlink }
    refine Iff.trans ?_ (handlePairReq_onlySelf_iff (w := w) (c := c) hrequest msg)
    refine forall_congr' fun a => ?_
    have hdispatch : dispatch (w.answering a) c i (.pairReq msg) s.hub.monoMs.ms (heard (w.answering a) s i seq) =
        handlePairReq (w.answering a) c i msg s.hub.monoMs.ms (heard (w.answering a) s i seq) := by
      have hocc' := (slot_heard (w.answering a) i seq s).2.2.1.trans hsess
      simp [dispatch, hocc']
    dsimp only
    rw [hframe, hdispatch]
    exact Iff.rfl

end

/-- A client has said hello to a hub that knows another device and has its PIN window open. -/
def Bench.beside : Sys Bench :=
  run Bench.world Bench.config {}
    [.attachTransport 0, Bench.reads 1000 0 [.hello (some (Bench.hello 1))],
      .pairing ((({} : PairingManager).grant (Bench.client 2) .configure PairingModes.knockApprove
        ⟨List.replicate 16 7, rfl⟩).openWindow [1, 2, 3, 4] 1)]

/-- It knocks for itself. -/
theorem pairs_only_self_knock :
    AlwaysOnlySelf (Bench.beside.session 0).instanceId Bench.beside.hub.pairing
      (fun a => (move (Bench.world.answering a) Bench.config Bench.beside
        (.frame 0 (.frame 1 (.pairReq (some { instanceId := Bench.client 1 }))))).hub.pairing) := by
  have hlink : (Bench.beside.slot 0).transport.isSome = true := by decide +kernel
  refine (pairs_only_self_iff 1 (some { instanceId := Bench.client 1 }) hlink).mpr fun _ => ?_
  have hown : ¬(requester (Bench.beside.slot 0) Bench.beside.hub.monoMs.ms).inst ≠ Bench.client 1 := by decide +kernel
  have hclosed : ¬Bench.beside.hub.pairing.presenceWindowOpen Bench.beside.hub.monoMs.ms = true := by decide +kernel
  have hknocks : ¬(!Bench.beside.hub.pairing.knockApproveEnabled) = true := by decide +kernel
  have hroom : ¬(Bench.beside.hub.pairing.pending.add (Bench.client 1)
      (requester (Bench.beside.slot 0) Bench.beside.hub.monoMs.ms).sid
      (Bench.beside.hub.monoMs.ms + pairingWindowMs) PairingModes.knockApprove).isNone = true := by decide +kernel
  show SafeKnock _ _ (Bench.client 1) _
  unfold SafeKnock
  rw [if_neg hown, if_neg hclosed, if_neg hknocks, if_neg hroom]
  trivial

/-- It proves the PIN and names the other device. -/
def Bench.pinned : Move Bench :=
  .frame 0 (.frame 1 (.pairReq (some
    { instanceId := Bench.client 2, pinProof := some (pairingPinProof [1, 2, 3, 4] (ByteArr.zero 8)) })))

/-- With the PIN it pairs as the other device, whose token it takes and whose role it lowers. -/
theorem pairs_another :
    ¬∀ s : Sys Bench, Reachable Bench.world Bench.config s → ∀ (i : SlotIdx) (seq : UInt16) (msg : Option PairReqMsg),
      OnlySelf (s.session i).instanceId s.hub.pairing
        (move Bench.world Bench.config s (.frame i (.frame seq (.pairReq msg)))).hub.pairing := by
  intro h
  have honly : OnlySelf _ _ (move Bench.world Bench.config Bench.beside Bench.pinned).hub.pairing :=
    h Bench.beside ⟨{}, _, rfl⟩ 0 1 _
  have hbefore : (Bench.beside.hub.pairing.slot 0).map (fun e => (e.instanceId, e.token)) =
      some (Bench.client 2, ⟨List.replicate 16 7, rfl⟩) := by decide +kernel
  have hafter : ((move Bench.world Bench.config Bench.beside Bench.pinned).hub.pairing.slot 0).map
      (fun e => (e.instanceId, e.token)) = some (Bench.client 2, ByteArr.zero 16) := by decide +kernel
  have hown : (Bench.beside.session 0).instanceId = Bench.client 1 := by decide +kernel
  obtain ⟨e, hslot, he⟩ := Option.map_eq_some_iff.mp hbefore
  have hother : e.instanceId ≠ (Bench.beside.session 0).instanceId := by
    have hinst : e.instanceId = Bench.client 2 := congrArg Prod.fst he
    rw [hown, hinst]
    decide
  have hkept := (honly.entries 0 e hother).mpr (PairingManager.slot_eq_some.mp hslot)
  rw [PairingManager.slot_eq_some.mpr hkept, Option.map_some, he] at hafter
  exact absurd (congrArg Prod.snd (Option.some.inj hafter)) (by decide)

end SlopSync
