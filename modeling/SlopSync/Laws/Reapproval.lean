import SlopSync.Laws.Refusals

/-! # Asking again

The change tripwire suspends a device and queues a question for the operator.  The question is bound to the session
that tripped the wire and is asked once: a device that comes back suspended is not queued again, and an approval that
names no role grants `control` (`reapprovable`). -/

namespace SlopSync

open Keyed Labelled

/-! ## The list -/

namespace PendingPairingList

variable {l l' : PendingPairingList} {inst : InstanceId} {sid ms : UInt32} {mode : UInt8}

/-- A re-approval of `inst` waits, bound to the session `sid`. -/
def Awaits (l : PendingPairingList) (inst : InstanceId) (sid : UInt32) : Prop :=
  ∃ k, some k ∈ l.slots ∧ k.instanceId = inst ∧ k.sessionId = sid ∧ k.reapproval = true

/-- As many other instances wait as the list can hold. -/
def FullOfOthers (l : PendingPairingList) (inst : InstanceId) : Prop :=
  ∀ o ∈ l.slots, ∃ k, o = some k ∧ k.instanceId ≠ inst

/-- Nobody waits in an empty list. -/
theorem not_awaits_of_empty {n : Nat} (h : l.slots = List.replicate n none) : ¬l.Awaits inst sid := by
  rintro ⟨k, hk, -⟩
  rw [h] at hk
  cases List.eq_of_mem_replicate hk

/-- An empty list is not full of others. -/
theorem not_fullOfOthers_of_empty {n : Nat} (h : l.slots = List.replicate (n + 1) none) : ¬l.FullOfOthers inst := by
  intro hfull
  obtain ⟨k, hk, -⟩ := hfull none (by rw [h]; exact List.mem_replicate.mpr ⟨Nat.succ_ne_zero n, rfl⟩)
  cases hk

/-- A knock changed in place is found where it was. -/
theorem find_modify {f : PendingKnock → PendingKnock} (hf : ∀ k, (f k).instanceId = k.instanceId) :
    (l.modify inst f).find inst = (l.find inst).map f := by
  refine findUsed_modifyFirst_self (fun k hk => ?_) l.slots
  unfold isFor at hk ⊢
  rw [hf]
  exact hk

/-- A knock that is added is found, bound to its session. -/
theorem find_add (h : l.add inst sid ms mode = some l') : ∃ k, l'.find inst = some k ∧ k.sessionId = sid := by
  unfold add at h
  split at h
  · rename_i hsome
    obtain ⟨k, hk⟩ := Option.isSome_iff_exists.mp hsome
    cases h
    have hfound : (l.modify inst fun k => { k with sessionId := sid, expiresAtMs := ms, mode }).find inst =
        (l.find inst).map fun k => { k with sessionId := sid, expiresAtMs := ms, mode } :=
      find_modify (f := fun k => { k with sessionId := sid, expiresAtMs := ms, mode }) fun _ => rfl
    refine ⟨{ k with sessionId := sid, expiresAtMs := ms, mode }, hfound.trans ?_, rfl⟩
    rw [hk]
    rfl
  · rename_i hnone
    split at h
    · cases h
    · rename_i slots hfill
      cases h
      rw [Option.not_isSome_iff_eq_none] at hnone
      have hfor : isFor inst { instanceId := inst, sessionId := sid, expiresAtMs := ms, mode } = true :=
        beq_self_eq_true inst
      exact ⟨_, findUsed_fillFirst hfor hfill hnone, rfl⟩

/-- An add that fails met a list full of others. -/
theorem fullOfOthers_of_add (h : l.add inst sid ms mode = none) : l.FullOfOthers inst := by
  unfold add at h
  split at h
  · cases h
  · rename_i hnone
    rw [Option.not_isSome_iff_eq_none] at hnone
    split at h
    · rename_i hfill
      intro o ho
      obtain ⟨k, rfl⟩ := Option.isSome_iff_exists.mp (fillFirst_eq_none.mp hfill o ho)
      refine ⟨k, rfl, fun hk => ?_⟩
      have hmiss := findUsed_eq_none.mp hnone k ho
      unfold isFor at hmiss
      rw [hk, beq_self_eq_true] at hmiss
      cases hmiss
    · cases h

/-- An add that succeeds leaves the instance waiting, marked as a re-approval. -/
theorem awaits_marked {f : PendingKnock → PendingKnock} (h : l.add inst sid ms mode = some l')
    (hf : ∀ k, (f k).instanceId = k.instanceId ∧ (f k).sessionId = k.sessionId ∧ (f k).reapproval = true) :
    (l'.modify inst f).Awaits inst sid := by
  obtain ⟨k, hk, hsid⟩ := find_add h
  have hfound : (l'.modify inst f).find inst = some (f k) := by
    rw [find_modify fun k => (hf k).1, hk]
    rfl
  have hfor : isFor inst k = true := findUsed_some hk
  have hinst : k.instanceId = inst := beq_iff_eq.mp hfor
  exact ⟨f k, mem_of_findUsed hfound, (hf k).1.trans hinst, (hf k).2.1.trans hsid, (hf k).2.2⟩

/-! ### Dropping knocks -/

/-- A drop keeps the knocks it is not about. -/
theorem mem_drop {p : PendingKnock → Bool} {k : PendingKnock} :
    some k ∈ (l.drop p).slots ↔ some k ∈ l.slots ∧ p k = false := by
  show some k ∈ l.slots.map _ ↔ _
  rw [List.mem_map]
  constructor
  · rintro ⟨o, ho, heq⟩
    split at heq
    · cases heq
    · rename_i hp
      subst heq
      exact ⟨ho, Bool.eq_false_iff.mpr hp⟩
  · rintro ⟨hk, hp⟩
    exact ⟨some k, hk, by simp [hp]⟩

/-- A list that is full after knocks were dropped was full, and none were. -/
theorem FullOfOthers.of_drop {p : PendingKnock → Bool} (h : (l.drop p).FullOfOthers inst) : l.FullOfOthers inst := by
  intro o ho
  obtain ⟨k, hk, hinst⟩ := h _ (List.mem_map_of_mem (f := fun o => if o.any p then none else o) ho)
  split at hk
  · cases hk
  · exact ⟨k, hk, hinst⟩

end PendingPairingList

section

variable {ε : Type} {w : World ε} {c : Config} {s t u : Sys ε} {i j : SlotIdx} {nowMs : UInt32}

/-! ## The observation -/

theorem PairingManager.findByInstance_congr {p q : PairingManager} (h : q.entries = p.entries) (inst : InstanceId) :
    q.findByInstance inst = p.findByInstance inst := by
  unfold PairingManager.findByInstance
  rw [h]

/-- What an observation of the session `sid` of the known device `inst`, so far `e`, makes of the manager. -/
structure Observed (inst : InstanceId) (sid : UInt32) (e : PairedEntry) (p p' : PairingManager) : Prop where
  /-- It tripped the wire just now: the question is queued, if there is room for it. -/
  asked : e.state = .trusted → (∀ e', p'.findByInstance inst = some e' → e'.state = .recognizedPending) →
    p'.pending.Awaits inst sid ∨ p.pending.FullOfOthers inst
  /-- It was suspended before: nothing is queued. -/
  silent : e.state = .recognizedPending → p'.pending = p.pending

/-- Queueing a re-approval changes the pending list and nothing else of the ledger. -/
theorem pairing_queue (i : SlotIdx) (r : AccessLevel) (nowMs : UInt32) (s : Sys ε) :
    (queueReapproval w c i r nowMs s).hub.pairing =
      match s.hub.pairing.pending.add (s.session i).instanceId (s.session i).sessionId (nowMs + pairingWindowMs)
        PairingModes.knockApprove with
      | none => s.hub.pairing
      | some l => { s.hub.pairing with pending := l.modify (s.session i).instanceId fun k =>
          { k with reapproval := true, kind := .assign (s.session i).clientKind.data
                   name := .assign (s.session i).clientName.data, version := .assign (s.session i).clientVer.data } } := by
  unfold queueReapproval
  dsimp only
  rw [pairing_publishRoster, pairing_publishPending, pairing_emitPairingEvent]
  cases s.hub.pairing.pending.add (s.session i).instanceId (s.session i).sessionId (nowMs + pairingWindowMs)
    PairingModes.knockApprove <;> rfl

/-- A device of the ledger that is observed is as the observation says. -/
theorem observed_applyTrustObservation {e : PairedEntry} (i : SlotIdx) (nowMs : UInt32) (s : Sys ε)
    (hent : s.hub.pairing.findByInstance (s.session i).instanceId = some e) :
    Observed (s.session i).instanceId (s.session i).sessionId e s.hub.pairing
      (applyTrustObservation w c i nowMs s).2.hub.pairing := by
  obtain ⟨hknown, hsusp, -, hentries⟩ := PairingManager.observeHello_known hent (s.session i).clientKind.data
    (s.session i).clientName.data (if (s.session i).hasClientVer then some (s.session i).clientVer.data else none)
    (s.session i).presentationMode
  have hpending : (observe s.hub.pairing (s.session i)).2.pending = s.hub.pairing.pending :=
    (PairingManager.keeps_observeHello _ _ _ _ _ _).pending
  have hfind : (s.hub.pairing.modify (s.session i).instanceId fun _ => s.hub.pairing.observedEntry e
      (s.session i).clientKind.data (s.session i).clientName.data
      (if (s.session i).hasClientVer then some (s.session i).clientVer.data else none)
      (s.session i).presentationMode).findByInstance (s.session i).instanceId = _ :=
    PairingManager.findByInstance_modify_self fun _ _ =>
      (PairingManager.observedEntry_fixed _ e _ _ _ _).1.trans (PairingManager.findByInstance_some hent)
  rw [hent, Option.map_some] at hfind
  have hstate := PairingManager.state_observedEntry s.hub.pairing e (s.session i).clientKind.data
    (s.session i).clientName.data (if (s.session i).hasClientVer then some (s.session i).clientVer.data else none)
    (s.session i).presentationMode
  change (observe s.hub.pairing (s.session i)).1.known = true at hknown
  change (observe s.hub.pairing (s.session i)).1.suspended = _ at hsusp
  change (observe s.hub.pairing (s.session i)).2.entries = _ at hentries
  unfold applyTrustObservation
  dsimp only
  rw [hknown, Bool.not_true, if_neg Bool.false_ne_true, hsusp]
  generalize (if (s.session i).hasClientVer then some (s.session i).clientVer.data else none) = ver at *
  dsimp only
  refine ⟨fun htrusted hpend => ?_, fun hpend => ?_⟩
  · have hnow : s.hub.pairing.suspends e ver = true := by
      by_contra hno
      rw [if_neg hno] at hpend
      have hlater := hpend _ ((PairingManager.findByInstance_congr hentries _).trans hfind)
      rcases hstate.mp hlater with hbefore | hnow
      · rw [htrusted] at hbefore
        cases hbefore
      · exact hno hnow
    rw [if_pos hnow, pairing_queue]
    change PendingPairingList.Awaits (PairingManager.pending (match (observe s.hub.pairing (s.session i)).2.pending.add
      (s.session i).instanceId (s.session i).sessionId (nowMs + pairingWindowMs) PairingModes.knockApprove with
      | none => (observe s.hub.pairing (s.session i)).2
      | some l => { (observe s.hub.pairing (s.session i)).2 with pending := l.modify (s.session i).instanceId fun k =>
          { k with reapproval := true, kind := .assign (s.session i).clientKind.data
                   name := .assign (s.session i).clientName.data
                   version := .assign (s.session i).clientVer.data } })) _ _ ∨ _
    rw [hpending]
    cases hadd : s.hub.pairing.pending.add (s.session i).instanceId (s.session i).sessionId (nowMs + pairingWindowMs)
      PairingModes.knockApprove with
    | none => exact .inr (PendingPairingList.fullOfOthers_of_add hadd)
    | some l => exact .inl (PendingPairingList.awaits_marked hadd fun _ => ⟨rfl, rfl, rfl⟩)
  · have hnot : s.hub.pairing.suspends e ver = false := by
      unfold PairingManager.suspends PairingManager.tripped
      cases ver <;> simp [hpend]
    rw [hnot, if_neg Bool.false_ne_true]
    exact hpending

/-- Only a HELLO that shows a token is observed. -/
theorem observed_observeRole {e : PairedEntry} {h : HelloMsg} (i : SlotIdx) (nowMs : UInt32) (s : Sys ε)
    (htok : h.token.isSome = true) (hent : s.hub.pairing.findByInstance (s.session i).instanceId = some e) :
    Observed (s.session i).instanceId (s.session i).sessionId e s.hub.pairing (observeRole w c i h nowMs s).hub.pairing := by
  unfold observeRole
  rw [if_pos htok]
  dsimp only
  rw [setRole, Sys.modSession, Sys.pairing_modSlot]
  exact observed_applyTrustObservation i nowMs s hent

/-! ## Up to the decision -/

/-- The knocks of the slot's session. -/
def knocksOf (s : Sys ε) (v : SlotIdx) (k : PendingKnock) : Bool :=
  (s.session v).occupied && PendingPairingList.ofSession (s.session v).sessionId k

/-- Tearing a session down drops its knocks from the list and leaves the entries. -/
theorem pairing_teardown (v : SlotIdx) (nowMs : UInt32) (s : Sys ε) : (teardownSession w c v nowMs s).hub.pairing =
    { s.hub.pairing with pending := s.hub.pairing.pending.drop (knocksOf s v) } := by
  unfold teardownSession
  dsimp only
  rw [Sys.pairing_modSlot]
  split
  · rename_i hocc
    obtain ⟨retained, hv, -⟩ := releaseSessionSources_view (w := w) (c := c) (s.session v).sessionId 4 s
    have hrel : (releaseSessionSources w c (s.session v).sessionId 4 s).hub.pairing = s.hub.pairing :=
      congrArg View.pairing hv
    have hof : knocksOf s v = PendingPairingList.ofSession (s.session v).sessionId := by
      funext k
      rw [knocksOf, hocc, Bool.true_and]
    show (dropKnocksOf w c (s.session v).sessionId nowMs _).hub.pairing = _
    rw [pairing_dropKnocksOf, hrel, hof]
  · rename_i hfree
    have hnone : s.hub.pairing.pending.drop (knocksOf s v) = s.hub.pairing.pending := by
      refine PendingPairingList.drop_false fun k _ => ?_
      rw [knocksOf, Bool.eq_false_iff.mpr hfree, Bool.false_and]
    rw [hnone]
    rfl

/-- Knocks were dropped, and that is all. -/
def Thinned (p p' : PairingManager) : Prop := ∃ q, p' = { p with pending := p.pending.drop q }

theorem Thinned.trans {p p' p'' : PairingManager} (h : Thinned p p') (h' : Thinned p' p'') : Thinned p p'' := by
  obtain ⟨q, rfl⟩ := h
  obtain ⟨q', rfl⟩ := h'
  exact ⟨fun k => q k || q' k, by rw [PendingPairingList.drop_drop]⟩

theorem Thinned.refl (p : PairingManager) : Thinned p p :=
  ⟨fun _ => false, by rw [PendingPairingList.drop_false fun _ _ => rfl]⟩

/-- Thinning the list loses no entry. -/
theorem Thinned.find {p p' : PairingManager} (h : Thinned p p') (inst : InstanceId) :
    p'.findByInstance inst = p.findByInstance inst := by
  obtain ⟨q, rfl⟩ := h
  rfl

/-- Ending another session only thins the list. -/
theorem thinned_goodbye (v : SlotIdx) (code : NackCode) (nowMs : UInt32) (s : Sys ε) :
    Thinned s.hub.pairing (teardownSession w c v nowMs (sendGoodbye w v code s)).hub.pairing := by
  have hemit := emits_sendGoodbye (w := w) v code s
  refine ⟨knocksOf (sendGoodbye w v code s) v, ?_⟩
  rw [pairing_teardown, hemit.pairing]

/-- Making room and ending the slot's own session: its link stays. -/
theorem fresh_thinned {a b : Sys ε} (hmake : makeRoom w c i nowMs a = some b) :
    Thinned a.hub.pairing (teardownSession w c i nowMs b).hub.pairing ∧
      ((teardownSession w c i nowMs b).slot i).transport = (a.slot i).transport := by
  obtain ⟨-, hcase⟩ := makeRoom_some hmake
  have hown : Thinned a.hub.pairing b.hub.pairing ∧ (b.slot i).transport = (a.slot i).transport := by
    rcases hcase with rfl | ⟨v, hvi, -, rfl⟩
    · exact ⟨Thinned.refl _, rfl⟩
    · exact ⟨thinned_goodbye v .slotReclaimed nowMs a,
        (SlotView.link_inj ((goodbye_evicts v .slotReclaimed nowMs a).rest i hvi.symm)).1⟩
  refine ⟨hown.1.trans ⟨_, pairing_teardown i nowMs b⟩, ?_⟩
  exact (teardownSession_evicts (w := w) (c := c) i nowMs b).link.trans hown.2

/-! ## Session ids -/

/-- The WELCOME leaves the session its id. -/
theorem sid_welcomeSession (h : HelloMsg) (nowMs : UInt32) (hs : Served s i) :
    ((welcomeSession w c i h nowMs s).session i).sessionId = (s.session i).sessionId := by
  obtain ⟨t, hgrants, hcase⟩ : ∃ t, Does c nowMs (some i) (Label.Grants i) s t ∧ _ :=
    welcomeSession_cases (w := w) h nowMs hs
  have hlink := hgrants.link_eq (j := i) fun l hl => by cases l <;> first | exact trivial | exact hl.elim
  have hsid : (t.session i).sessionId = (s.session i).sessionId := (SlotView.link_inj hlink).2.2.1
  rcases hcase with hv | hv
  · exact (congrArg (fun v => (v.slots i).sessionId) hv).trans hsid
  · refine (congrArg (fun v => (v.slots i).sessionId) hv).trans ?_
    rw [Sys.modSession, view_modSlot, View.slots_set_self]
    exact hsid

/-- The WELCOME of a resumed session leaves it its id. -/
theorem sid_welcomeBack (nowMs : UInt32) (hlink : (s.slot i).transport.isSome) :
    ((welcomeBack w c i nowMs s).session i).sessionId = (s.session i).sessionId := by
  obtain ⟨t, hsend, hcase⟩ : ∃ t, Does c nowMs (some i) (· = .chatter) s t ∧ _ :=
    welcomeBack_cases (w := w) nowMs hlink
  have hkept := hsend.link_eq (j := i) fun l hl => by subst hl; trivial
  have hsid : (t.session i).sessionId = (s.session i).sessionId := (SlotView.link_inj hkept).2.2.1
  rcases hcase with hv | htell
  · exact (congrArg (fun v => (v.slots i).sessionId) hv).trans hsid
  · have htold := htell.link_eq (j := i) fun l hl => by subst hl; trivial
    refine (SlotView.link_inj htold).2.2.1.trans ?_
    rw [Sys.modSession, view_modSlot, View.slots_set_self]
    exact hsid

/-! ## HELLO -/

/-- What a HELLO that shows a token makes of the manager, seen from the session `sid` it opens or resumes. -/
structure Greeted (s : Sys ε) (i : SlotIdx) (h : HelloMsg) (e : PairedEntry) (sid : UInt32) (p' : PairingManager) :
    Prop where
  observed : ∃ p, Thinned s.hub.pairing p ∧ Observed h.instanceId sid e p p' ∧
    ∀ j, Rejoins s i h j → p = { s.hub.pairing with pending := s.hub.pairing.pending.drop (knocksOf s i) }
  resumed : ∀ j, Rejoins s i h j → sid = (s.session j).sessionId

/-- A HELLO for a new session, of a device in the ledger, is observed. -/
theorem observed_helloFresh {h : HelloMsg} {e : PairedEntry} {a b : Sys ε} (hlink : (a.slot i).transport.isSome)
    (htok : h.token.isSome = true) (hent : a.hub.pairing.findByInstance h.instanceId = some e)
    (hmake : makeRoom w c i nowMs a = some b) : ∃ p, Thinned a.hub.pairing p ∧ Observed h.instanceId
      ((helloFresh w c i h nowMs a).session i).sessionId e p (helloFresh w c i h nowMs a).hub.pairing := by
  obtain ⟨hthin, htransport⟩ := fresh_thinned (w := w) (c := c) hmake
  refine ⟨_, hthin, ?_⟩
  unfold helloFresh
  rw [hmake]
  dsimp only
  generalize hu : teardownSession w c i nowMs b = u at hthin htransport ⊢
  have hhub := (validateHello_keeps (w := w) h (drawSession w u).2).1
  have hpair : (openSession w c i h nowMs u).hub.pairing = u.hub.pairing := by
    unfold openSession
    dsimp only
    rw [Sys.pairing_modSlot, hhub]
    rfl
  have hopened : ((openSession w c i h nowMs u).session i).instanceId = h.instanceId ∧
      ((openSession w c i h nowMs u).session i).occupied = true ∧
      ((openSession w c i h nowMs u).slot i).transport = (u.slot i).transport := by
    unfold openSession
    dsimp only
    rw [Sys.session, Sys.slot, Sys.slot_modSlot_self, hhub]
    exact ⟨rfl, rfl, rfl⟩
  have hobs := observed_observeRole (w := w) (c := c) (e := e) (h := h) i nowMs (openSession w c i h nowMs u) htok (by
    rw [hpair, hopened.1, hthin.find]
    exact hent)
  have hkept := SlotView.link_inj (observeRole_link (w := w) (c := c) i h nowMs (openSession w c i h nowMs u) i)
  have hserved : Served (admitSession w c i h nowMs u) i := by
    refine ⟨?_, ?_⟩
    · rw [← occupied_view]
      exact (SlotView.occupied_of_link (observeRole_link (w := w) (c := c) i h nowMs _ i)).mpr
        ((occupied_view _ i).mpr hopened.2.1)
    · refine Eq.trans (congrArg Option.isSome (hkept.1.trans hopened.2.2)) ?_
      rw [htransport]
      exact hlink
  rw [(welcomeSession_sameTrust i h nowMs _).pairing, sid_welcomeSession h nowMs hserved]
  rw [hpair, hopened.1] at hobs
  have hsid : ((admitSession w c i h nowMs u).session i).sessionId = ((openSession w c i h nowMs u).session i).sessionId :=
    hkept.2.2.1
  rw [hsid]
  exact hobs

/-- A HELLO that resumes a session is observed. -/
theorem observed_resume {h : HelloMsg} {e : PairedEntry} (nowMs : UInt32) (htok : h.token.isSome = true)
    (hent : s.hub.pairing.findByInstance h.instanceId = some e) (hinst : (s.session i).instanceId = h.instanceId) :
    Observed h.instanceId (s.session i).sessionId e s.hub.pairing (resume w c i h nowMs s).hub.pairing ∧
      ((resume w c i h nowMs s).session i).sessionId = (s.session i).sessionId ∧
      ((resume w c i h nowMs s).slot i).transport = (s.slot i).transport := by
  unfold resume
  dsimp only
  have hhub := (validateHello_keeps (w := w) h s).1
  generalize validateHello w h s = r at hhub
  have hsession : ∀ se : HubSession, (resumeSession c h nowMs se).sessionId = se.sessionId := by
    intro se
    unfold resumeSession
    dsimp only
    split <;> rfl
  obtain ⟨u, hu⟩ : ∃ u, u = r.2.modSlot i (reintroduce h r.1) := ⟨_, rfl⟩
  have hslot : u.slot i = reintroduce h r.1 (s.slot i) := by
    rw [hu, Sys.slot, Sys.slot_modSlot_self, hhub]
  have hpair : u.hub.pairing = s.hub.pairing := by
    rw [hu, Sys.pairing_modSlot, hhub]
  have hi : (u.session i).instanceId = h.instanceId := by
    show (u.slot i).session.instanceId = _
    rw [hslot]
    exact hinst
  have hs : (u.session i).sessionId = (s.session i).sessionId := by
    show (u.slot i).session.sessionId = _
    rw [hslot]
    rfl
  have ht : (u.slot i).transport = (s.slot i).transport := by
    rw [hslot]
    rfl
  rw [← hu]
  have hobs := observed_observeRole (w := w) (c := c) (e := e) (h := h) i nowMs u htok (by
    rw [hpair, hi]
    exact hent)
  rw [hi, hs, hpair] at hobs
  have hkept := SlotView.link_inj (observeRole_link (w := w) (c := c) i h nowMs u i)
  refine ⟨hobs, ?_, ?_⟩
  · rw [Sys.session_modSession, hsession]
    exact hkept.2.2.1.trans hs
  · rw [Sys.slot, Sys.modSession, Sys.slot_modSlot_self]
    exact hkept.1.trans ht

/-- A stale session that the slot takes over. -/
theorem greeted_handleReattach {j : SlotIdx} {h : HelloMsg} {e : PairedEntry} (nowMs : UInt32)
    (hlink : (s.slot i).transport.isSome) (htok : h.token.isSome = true)
    (hent : s.hub.pairing.findByInstance h.instanceId = some e)
    (hfind : findSlotByInstance s.hub h.instanceId i = some j) :
    Greeted s i h e ((handleReattach w c i j h nowMs s).session i).sessionId
      (handleReattach w c i j h nowMs s).hub.pairing := by
  obtain ⟨hji, -, hinst⟩ := findSlotByInstance_some hfind
  have hslot := SlotView.link_inj (y := { s.view.slots j with transport := (s.view.slots i).transport })
    (takeOver_slot (w := w) (c := c) nowMs s hji.symm)
  have hclose : (closeSlot w j (teardownSession w c i nowMs s)).hub.pairing =
      (teardownSession w c i nowMs s).hub.pairing := congrArg View.pairing (view_closeSlot (w := w) j _)
  have hpair : (takeOver w c i j nowMs s).hub.pairing =
      { s.hub.pairing with pending := s.hub.pairing.pending.drop (knocksOf s i) } :=
    hclose.trans (pairing_teardown i nowMs s)
  obtain ⟨hobs, hsid, htr⟩ := observed_resume (w := w) (c := c) (e := e) nowMs htok (by
    rw [hpair]
    exact hent) (hslot.2.2.2.1.trans hinst)
  rw [hpair] at hobs
  have htu : ((resume w c i h nowMs (takeOver w c i j nowMs s)).slot i).transport.isSome :=
    (congrArg Option.isSome (htr.trans hslot.1)).trans hlink
  have hsj : ((takeOver w c i j nowMs s).session i).sessionId = (s.session j).sessionId := hslot.2.2.1
  rw [handleReattach, sid_welcomeBack nowMs htu, (welcomeBack_sameTrust i nowMs _).pairing, hsid]
  refine ⟨⟨_, ⟨_, rfl⟩, hobs, fun _ _ => rfl⟩, fun k hk => ?_⟩
  rw [hk.1] at hfind
  cases hfind
  exact hsj

/-- Any HELLO with a token that is admitted is observed. -/
theorem greeted_handleHello {h : HelloMsg} {e : PairedEntry} (nowMs : UInt32) (hlink : (s.slot i).transport.isSome)
    (htok : h.token.isSome = true) (hent : s.hub.pairing.findByInstance h.instanceId = some e)
    (hadm : (decidedIn w c i h nowMs s).isSome) :
    Greeted s i h e ((handleHello w c i (some h) nowMs s).session i).sessionId
      (handleHello w c i (some h) nowMs s).hub.pairing := by
  -- a fresh session, after `s` became `a`
  have hfresh : ∀ a : Sys ε, (a.slot i).transport = (s.slot i).transport → Thinned s.hub.pairing a.hub.pairing →
      ((makeRoom w c i nowMs a).map fun s => (drawSession w (teardownSession w c i nowMs s)).2).isSome →
      (∀ j, ¬Rejoins s i h j) → Greeted s i h e ((helloFresh w c i h nowMs a).session i).sessionId
        (helloFresh w c i h nowMs a).hub.pairing := by
    intro a hta hthin hsome hno
    rw [Option.isSome_map] at hsome
    obtain ⟨b, hb⟩ := Option.isSome_iff_exists.mp hsome
    obtain ⟨p, hp, hobs⟩ := observed_helloFresh (e := e) (by rw [hta]; exact hlink) htok
      ((hthin.find _).trans hent) hb
    exact ⟨⟨p, hthin.trans hp, hobs, fun j hj => absurd hj (hno j)⟩, fun j hj => absurd hj (hno j)⟩
  unfold decidedIn at hadm
  unfold handleHello
  dsimp only at hadm ⊢
  cases hfind : findSlotByInstance s.hub h.instanceId i with
  | none =>
    rw [hfind] at hadm
    refine hfresh s rfl (Thinned.refl _) hadm fun j hj => ?_
    rw [hj.1] at hfind
    cases hfind
  | some j =>
    rw [hfind] at hadm
    dsimp only at hadm ⊢
    have hji := (findSlotByInstance_some hfind).1
    by_cases hst : (s.session j).state = .stale
    · rw [if_pos hst]
      exact greeted_handleReattach nowMs hlink htok hent hfind
    · rw [if_neg hst] at hadm ⊢
      refine hfresh _ ?_ (thinned_goodbye j .duplicateInstance nowMs s) hadm fun k hk => ?_
      · exact (SlotView.link_inj ((goodbye_evicts j .duplicateInstance nowMs s).rest i hji.symm)).1
      · rw [hk.1] at hfind
        cases hfind
        exact hst hk.2

/-! ## AUTH -/

theorem hub_sendEncoded (i : SlotIdx) (type : FrameType) (payload : Option Bytes) (s : Sys ε) :
    (sendEncoded w i type payload s).hub = s.hub := by
  unfold sendEncoded
  split
  · rfl
  · exact hub_sendFrameTo _ _ _ _ _ s

theorem session_publishRoster (s : Sys ε) (j : SlotIdx) : (publishPairedRosterState c s).session j = s.session j := by
  unfold publishPairedRosterState retain
  split
  · rfl
  · split <;> rfl

/-- A proof accepted in AUTH is observed too. -/
theorem observed_acceptProof {e : PairedEntry} (proved : AccessLevel) (i : SlotIdx) (nowMs : UInt32) (s : Sys ε)
    (hent : s.hub.pairing.findByInstance (s.session i).instanceId = some e) :
    Observed (s.session i).instanceId (s.session i).sessionId e s.hub.pairing
        (acceptProof w c i proved nowMs s).hub.pairing ∧
      ((acceptProof w c i proved nowMs s).session i).sessionId = (s.session i).sessionId := by
  obtain ⟨u, hu⟩ : ∃ u, u = setRole i proved (s.modSlot i fun sl => { sl with authFailures := 0 }) := ⟨_, rfl⟩
  have hslot : u.slot i = { s.slot i with authFailures := 0, session := { s.session i with role := proved } } := by
    rw [hu, setRole, Sys.modSession, Sys.slot, Sys.slot_modSlot_self, Sys.slot_modSlot_self]
  have hpair : u.hub.pairing = s.hub.pairing := by
    rw [hu, setRole, Sys.modSession, Sys.pairing_modSlot, Sys.pairing_modSlot]
  have hi : (u.session i).instanceId = (s.session i).instanceId := by
    show (u.slot i).session.instanceId = _
    rw [hslot]
  have hs : (u.session i).sessionId = (s.session i).sessionId := by
    show (u.slot i).session.sessionId = _
    rw [hslot]
  have hobs := observed_applyTrustObservation (w := w) (c := c) (e := e) i nowMs u (by
    rw [hpair, hi]
    exact hent)
  rw [hi, hs, hpair] at hobs
  have hdoes : Does c nowMs (some i) (Label.Observes i) u (applyTrustObservation w c i nowMs u).2 :=
    applyTrustObservation_does i nowMs u
  have hkept := SlotView.link_inj (hdoes.link_eq (j := i) fun l hl => hl.keeps i)
  unfold acceptProof
  dsimp only
  rw [← hu]
  generalize applyTrustObservation w c i nowMs u = r at hobs hkept
  rw [pairing_publishRoster, session_publishRoster, hub_sendEncoded]
  refine ⟨hobs, ?_⟩
  show ((sendEncoded w i .grant _ (setRole i r.1 r.2)).hub.slots i).session.sessionId = _
  rw [hub_sendEncoded, setRole, Sys.modSession, Sys.slot_modSlot_self]
  exact hkept.2.2.1.trans hs

/-! ## Approval -/

/-- The credential a grant leaves is what a search for its instance finds, when the ledger knew the instance. -/
theorem find_issuePairGrant {inst : InstanceId} (role : AccessLevel) (mode : UInt8) {e : PairedEntry} (nowMs : UInt32)
    (j : SlotIdx)
    (hent : s.hub.pairing.findByInstance inst = some e) :
    ∃ e', (issuePairGrant w c j inst role mode nowMs s).2.hub.pairing.findByInstance inst = some e' ∧
      e'.state = .trusted ∧ e'.role = role := by
  have hcan : s.hub.pairing.canGrant inst = true := by
    rw [PairingManager.canGrant, hent]
    rfl
  have henc := pairGrant_encodes (w := w) (w.fill 16 s.env).1 role
  obtain ⟨e', hgrant, hstate, hrole⟩ : ∃ e', (s.hub.pairing.grant inst role mode (w.fill 16 s.env).1).findByInstance inst =
      some e' ∧ e'.state = .trusted ∧ e'.role = role := by
    unfold PairingManager.grant
    rw [hent, Option.isSome_some, if_pos rfl]
    refine ⟨{ e with token := (w.fill 16 s.env).1, role, pairingMode := mode, state := .trusted
                     lastSeen := s.hub.pairing.wallSeconds }, ?_, rfl, rfl⟩
    have hset := PairingManager.findByInstance_modify_self (m := s.hub.pairing) (f := fun e : PairedEntry =>
      { e with token := (w.fill 16 s.env).1, role, pairingMode := mode, state := .trusted
               lastSeen := s.hub.pairing.wallSeconds }) fun (x : PairedEntry) (h : x.instanceId = inst) => h
    rw [hent, Option.map_some] at hset
    exact (PairingManager.findByInstance_congr rfl inst).trans hset
  have hlabelled : ((s.hub.pairing.grant inst role mode (w.fill 16 s.env).1).modify inst
      (labelEntry (s.session j))).findByInstance inst = some (labelEntry (s.session j) e') := by
    rw [PairingManager.findByInstance_modify_self (f := labelEntry (s.session j)) fun _ h => h, hgrant, Option.map_some]
  unfold issuePairGrant
  rw [mintEntry_eq _ _ hcan]
  dsimp only
  split
  · rename_i hnone
    rw [hnone] at henc
    cases henc
  · rw [pairing_publishRoster, pairing_publishPending, pairing_emitPairingEvent]
    unfold modPending modPairing setPairing setRole Sys.modSession
    dsimp only
    rw [Sys.pairing_modSlot, hub_sendFrameTo]
    exact ⟨_, hlabelled, hstate, hrole⟩

/-- Accepting an intent changes no entry. -/
theorem ledger_acceptIntent (i : SlotIdx) (m : IntentMsg) (echo : Option Bytes) (nowMs : UInt32) (s : Sys ε) :
    (acceptIntent w c i m echo nowMs s).hub.pairing.entries = s.hub.pairing.entries := by
  unfold acceptIntent
  dsimp only
  split
  · rfl
  · rename_i bytes
    have hsend : ∀ t : Sys ε, Does c nowMs none (Label.Parks i) t
        (sendFrameToTracked w c i .echo m.channelId bytes nowMs 0 t).2 :=
      fun t => sendFrameToTracked_does t (by decide) (by decide)
    exact (Spared.of_does (hsend _) fun _ => Label.Parks.harmless).ledger.trans rfl

/-- An approved knock leaves its device trusted, with the role that was named, or `control`. -/
theorem find_approved {m : IntentMsg} {inst : InstanceId} {r : AccessLevel} {e : PairedEntry}
    (hperf : Performed c s i m nowMs) (happ : Approves s i m inst j r)
    (hent : s.hub.pairing.findByInstance inst = some e) :
    ∃ e', (handleIntent w c i (some m) nowMs s).hub.pairing.findByInstance inst = some e' ∧
      e'.state = .trusted ∧ e'.role = r := by
  obtain ⟨hch, hop, hlevel, hrole, htarget, ⟨k, hk, hj⟩, hcan⟩ := happ
  have hview : (spendIntent i nowMs s).view = s.view := view_modSlot_of_slotView rfl
  rw [handleIntent_performed nowMs hperf]
  have hent' : (spendIntent i nowMs s).hub.pairing.findByInstance inst = some e := hent
  have hj' : joinerOf (spendIntent i nowMs s).hub k = some j := (joinerOf_view hview k).trans hj
  have hk' : (spendIntent i nowMs s).hub.pairing.pending.find inst = some k := hk
  have hrole' : ¬((spendIntent i nowMs s).session i).role < r := by
    rw [show ((spendIntent i nowMs s).session i).role = (s.session i).role from
      congrArg (fun v => (v.slots i).role) hview]
    exact fun hlt => absurd (Nat.lt_of_lt_of_le hlt hrole) (Nat.lt_irrefl _)
  have hcan' : (spendIntent i nowMs s).hub.pairing.canGrant inst = true := hcan
  generalize spendIntent i nowMs s = u at hent' hj' hk' hrole' hcan'
  have hsafety : safetyOp m = none := by
    unfold safetyOp
    rw [hch, if_neg (by decide)]
  have hok := (ledger_issuePairGrant (w := w) (c := c) j inst r k.mode nowMs u hcan').1
  unfold performIntent handleAdminIntent
  rw [hsafety, if_neg (by decide), if_neg (by decide), if_pos hch]
  dsimp only
  rw [hop]
  dsimp only
  rw [if_neg (by decide), if_pos rfl]
  unfold adminApprove
  rw [htarget, hlevel]
  dsimp only
  rw [if_neg hrole', hk']
  dsimp only
  rw [hj']
  dsimp only
  rw [hok, Bool.not_true, if_neg Bool.false_ne_true]
  obtain ⟨e', hfind, hrest⟩ := find_issuePairGrant (w := w) (c := c) r k.mode nowMs j hent'
  refine ⟨e', (PairingManager.findByInstance_congr ?_ inst).trans hfind, hrest⟩
  exact ledger_acceptIntent i m _ nowMs _

/-! ## Suspended devices -/

/-- The frame, dispatched for slot `i` in the state `s`, proves that the device holds the token of its entry `e`: a HELLO
that is admitted and shows it, or an AUTH with the proof. -/
inductive ShowsToken (w : World ε) (c : Config) (s : Sys ε) (i : SlotIdx) (e : PairedEntry) : Inbound → Prop
  | hello {h : HelloMsg} (hent : s.hub.pairing.findByInstance h.instanceId = some e) (htok : h.token = some e.token)
      (hadm : (decidedIn w c i h s.hub.monoMs.ms s).isSome) : ShowsToken w c s i e (.hello (some h))
  | auth {t : TrustMap} {proof : Token} (hocc : (s.session i).occupied = true)
      (hleft : ¬Limits.authAttemptsMax ≤ (s.slot i).authFailures)
      (hent : s.hub.pairing.findByInstance (s.session i).instanceId = some e) (hproof : t.tokenProof = some proof)
      (hmac : w.hmac e.token (s.slot i).nonce = some proof) : ShowsToken w c s i e (.auth (some t))

/-- The ledger holds the device as `recognized_pending`. -/
def Suspended (s : Sys ε) (inst : InstanceId) : Prop :=
  ∃ e, s.hub.pairing.findByInstance inst = some e ∧ e.state = .recognizedPending

/-- After the step from `s` to `t` the re-approval of `inst` waits for the session in slot `i`, or there was no room. -/
def Reasked (s : Sys ε) (i : SlotIdx) (inst : InstanceId) (t : Sys ε) : Prop :=
  t.hub.pairing.pending.Awaits inst (t.session i).sessionId ∨ s.hub.pairing.pending.FullOfOthers inst

/-- The frame trips the wire itself, or the question waits already for the session that it resumes or proves. -/
def Asks (s : Sys ε) (i : SlotIdx) (e : PairedEntry) : Inbound → Prop
  | .hello (some h) => e.state = .trusted ∨ ∃ j, Rejoins s i h j ∧
      s.hub.pairing.pending.Awaits e.instanceId (s.session j).sessionId ∧
      ((s.session i).occupied = true → (s.session i).sessionId ≠ (s.session j).sessionId)
  | .auth _ => e.state = .trusted ∨ s.hub.pairing.pending.Awaits e.instanceId (s.session i).sessionId
  | _ => False

/-- A device whose entry is suspended by the observation has asked again, when there was a place for it. -/
theorem observed_reasked {inst : InstanceId} {sid : UInt32} {e : PairedEntry} {p p' : PairingManager}
    (h : Observed inst sid e p p') (hthin : Thinned s.hub.pairing p) (htrusted : e.state = .trusted)
    (hpend : ∃ e', p'.findByInstance inst = some e' ∧ e'.state = .recognizedPending) :
    p'.pending.Awaits inst sid ∨ s.hub.pairing.pending.FullOfOthers inst := by
  obtain ⟨e', hfind, hstate⟩ := hpend
  refine (h.asked htrusted fun e'' h'' => ?_).imp id fun hfull => ?_
  · cases hfind.symm.trans h''
    exact hstate
  · obtain ⟨q, rfl⟩ := hthin
    exact hfull.of_drop

/-- A session that the frame opens gets an id that no waiting knock has. -/
def FreshId (s : Sys ε) (i : SlotIdx) (msg : Inbound) (sid : UInt32) : Prop :=
  ∀ h, msg = .hello (some h) → (∀ j, ¬Rejoins s i h j) → ∀ k, some k ∈ s.hub.pairing.pending.slots → k.sessionId ≠ sid

/-- So a HELLO of a suspended device asks again. -/
theorem reasked_hello {h : HelloMsg} {e : PairedEntry} (hlink : (s.slot i).transport.isSome)
    (hent : s.hub.pairing.findByInstance h.instanceId = some e) (htok : h.token = some e.token)
    (hadm : (decidedIn w c i h nowMs s).isSome) (hsusp : Suspended (handleHello w c i (some h) nowMs s) e.instanceId) :
    (Asks s i e (.hello (some h)) → Reasked s i e.instanceId (handleHello w c i (some h) nowMs s)) ∧
      (FreshId s i (.hello (some h)) ((handleHello w c i (some h) nowMs s).session i).sessionId →
        Reasked s i e.instanceId (handleHello w c i (some h) nowMs s) →
        Asks s i e (.hello (some h)) ∨ s.hub.pairing.pending.FullOfOthers e.instanceId) := by
  have hinst : e.instanceId = h.instanceId := PairingManager.findByInstance_some hent
  have hgreeted := greeted_handleHello (w := w) (c := c) nowMs hlink (by rw [htok]; rfl) hent hadm
  obtain ⟨p, hthin, hobs, hexact⟩ := hgreeted.observed
  rw [hinst] at hsusp ⊢
  refine ⟨fun hasks => ?_, fun hfresh hre => ?_⟩
  · cases hstate : e.state with
    | trusted => exact observed_reasked hobs hthin hstate hsusp
    | recognizedPending =>
      rcases hasks with htrusted | ⟨j, hj, ⟨k, hk, hki, hks, hkr⟩, hother⟩
      · rw [hstate] at htrusted
        cases htrusted
      · refine .inl ⟨k, ?_, hki.trans hinst, hks.trans (hgreeted.resumed j hj).symm, hkr⟩
        rw [hobs.silent hstate, hexact j hj]
        refine PendingPairingList.mem_drop.mpr ⟨hk, Bool.eq_false_iff.mpr fun hgone => ?_⟩
        rw [knocksOf, Bool.and_eq_true] at hgone
        exact hother hgone.1 ((beq_iff_eq.mp hgone.2).symm.trans hks)
  · cases hstate : e.state with
    | trusted => exact .inl (.inl hstate)
    | recognizedPending =>
      refine hre.imp (fun hawaits => ?_) id
      obtain ⟨k, hk, hki, hks, hkr⟩ := hawaits
      rw [hobs.silent hstate] at hk
      obtain ⟨q, hq⟩ := hthin
      have hk' := hk
      rw [hq] at hk'
      have hmem := (PendingPairingList.mem_drop.mp hk').1
      by_cases hj : ∃ j, Rejoins s i h j
      · obtain ⟨j, hj⟩ := hj
        have hsid := hgreeted.resumed j hj
        refine .inr ⟨j, hj, ⟨k, hmem, hki.trans hinst.symm, hks.trans hsid, hkr⟩, fun hocc heq => ?_⟩
        rw [hexact j hj] at hk
        have hstays := (PendingPairingList.mem_drop.mp hk).2
        have hof : PendingPairingList.ofSession (s.session i).sessionId k = true :=
          beq_iff_eq.mpr ((hks.trans hsid).trans heq.symm)
        rw [knocksOf, hocc, hof] at hstays
        cases hstays
      · exact absurd hks (hfresh h rfl (not_exists.mp hj) k hmem)

/-- A proof that verifies is accepted. -/
theorem dispatch_auth {t : TrustMap} {proof : Token} {e : PairedEntry} (nowMs : UInt32) (hocc : (s.session i).occupied = true)
    (hleft : ¬Limits.authAttemptsMax ≤ (s.slot i).authFailures) (hproof : t.tokenProof = some proof)
    (hent : s.hub.pairing.findByInstance (s.session i).instanceId = some e)
    (hmac : w.hmac e.token (s.slot i).nonce = some proof) :
    ∃ proved, dispatch w c i (.auth (some t)) nowMs s =
      acceptProof w c i proved nowMs (s.modSession i (presented t)) := by
  have hdispatch : dispatch w c i (.auth (some t)) nowMs s = handleAuth w c i (some t) nowMs s := by
    simp [dispatch, hocc]
  have hslot : (s.modSession i (presented t)).slot i = { s.slot i with session := presented t (s.session i) } := by
    rw [Sys.modSession, Sys.slot, Sys.slot_modSlot_self]
  have hi : ((s.modSession i (presented t)).session i).instanceId = (s.session i).instanceId :=
    congrArg (fun sl => sl.session.instanceId) hslot
  have hn : ((s.modSession i (presented t)).slot i).nonce = (s.slot i).nonce := by rw [hslot]
  have hp : (s.modSession i (presented t)).hub.pairing = s.hub.pairing := rfl
  have hok : (s.hub.pairing.validateProof w.hmac (s.session i).instanceId proof (s.slot i).nonce).2 = true := by
    unfold PairingManager.validateProof
    rw [hent]
    dsimp only
    rw [hmac]
    dsimp only
    rw [if_neg (not_not.mpr rfl)]
    split <;> rfl
  refine ⟨(s.hub.pairing.validateProof w.hmac (s.session i).instanceId proof (s.slot i).nonce).1, ?_⟩
  rw [hdispatch]
  unfold handleAuth
  rw [if_neg hleft, Option.bind_some, hproof, Option.map_some]
  dsimp only
  rw [hi, hn, hp, hok, Bool.not_true, if_neg Bool.false_ne_true]

/-- The AUTH of a suspended device asks again. -/
theorem reasked_auth {t : TrustMap} {proof : Token} {e : PairedEntry} (hocc : (s.session i).occupied = true)
    (hleft : ¬Limits.authAttemptsMax ≤ (s.slot i).authFailures) (hproof : t.tokenProof = some proof)
    (hent : s.hub.pairing.findByInstance (s.session i).instanceId = some e)
    (hmac : w.hmac e.token (s.slot i).nonce = some proof)
    (hsusp : Suspended (dispatch w c i (.auth (some t)) nowMs s) e.instanceId) :
    (Asks s i e (.auth (some t)) → Reasked s i e.instanceId (dispatch w c i (.auth (some t)) nowMs s)) ∧
      (Reasked s i e.instanceId (dispatch w c i (.auth (some t)) nowMs s) →
        Asks s i e (.auth (some t)) ∨ s.hub.pairing.pending.FullOfOthers e.instanceId) := by
  have hinst : e.instanceId = (s.session i).instanceId := PairingManager.findByInstance_some hent
  obtain ⟨proved, hdispatch⟩ := dispatch_auth (w := w) (c := c) nowMs hocc hleft hproof hent hmac
  have hslot : (s.modSession i (presented t)).session i = presented t (s.session i) := Sys.session_modSession s i _
  have hi : ((s.modSession i (presented t)).session i).instanceId = (s.session i).instanceId := by rw [hslot]; rfl
  have hs : ((s.modSession i (presented t)).session i).sessionId = (s.session i).sessionId := by rw [hslot]; rfl
  obtain ⟨hobs, hsid⟩ := observed_acceptProof (w := w) (c := c) (e := e) proved i nowMs
    (s.modSession i (presented t)) (by rw [hi]; exact hent)
  rw [hi, hs] at hobs
  rw [hs] at hsid
  rw [hdispatch] at hsusp ⊢
  rw [hinst] at hsusp ⊢
  have hsame : (s.modSession i (presented t)).hub.pairing = s.hub.pairing := rfl
  rw [hsame] at hobs
  generalize acceptProof w c i proved nowMs (s.modSession i (presented t)) = u at hobs hsid hsusp
  refine ⟨fun hasks => ?_, fun hre => ?_⟩
  · cases hstate : e.state with
    | trusted =>
      refine (observed_reasked hobs (Thinned.refl _) hstate hsusp).imp (fun h => ?_) id
      rw [hsid]
      exact h
    | recognizedPending =>
      rcases hasks with htrusted | hawaits
      · rw [hstate] at htrusted
        cases htrusted
      · refine .inl ?_
        rw [hsid, hobs.silent hstate, ← hinst]
        exact hawaits
  · cases hstate : e.state with
    | trusted => exact .inl (.inl hstate)
    | recognizedPending =>
      refine hre.imp (fun hawaits => .inr ?_) id
      rw [hsid, hobs.silent hstate, ← hinst] at hawaits
      exact hawaits

/-! ## Every run -/

theorem suspended_setDispatchSeq {seq : Option UInt16} {inst : InstanceId} :
    Suspended (setDispatchSeq seq t) inst ↔ Suspended t inst := Iff.rfl

theorem session_setDispatchSeq {seq : Option UInt16} : (setDispatchSeq seq t).session i = t.session i := rfl

theorem reasked_setDispatchSeq {seq : Option UInt16} {inst : InstanceId} :
    Reasked s i inst (setDispatchSeq seq t) ↔ Reasked s i inst t := Iff.rfl

/-- What becomes of the re-approval of suspended devices when slot `i` sends the frame `msg`. -/
structure Reapprovable (w : World ε) (c : Config) (s : Sys ε) (i : SlotIdx) (seq : UInt16) (msg : Inbound) : Prop where
  asked : ∀ e, ShowsToken w c (heard w s i seq) i e msg →
    Suspended (move w c s (.frame i (.frame seq msg))) e.instanceId → Asks (heard w s i seq) i e msg →
      Reasked (heard w s i seq) i e.instanceId (move w c s (.frame i (.frame seq msg)))
  only : ∀ e, ShowsToken w c (heard w s i seq) i e msg →
    Suspended (move w c s (.frame i (.frame seq msg))) e.instanceId →
      FreshId (heard w s i seq) i msg ((move w c s (.frame i (.frame seq msg))).session i).sessionId →
        Reasked (heard w s i seq) i e.instanceId (move w c s (.frame i (.frame seq msg))) →
          Asks (heard w s i seq) i e msg ∨ (heard w s i seq).hub.pairing.pending.FullOfOthers e.instanceId
  approved : ∀ m inst j e, msg = .intent (some m) → ((heard w s i seq).session i).occupied = true →
    Performed c (heard w s i seq) i m s.hub.monoMs.ms → Approves (heard w s i seq) i m inst j .control →
      (adminOp m).role = none → s.hub.pairing.findByInstance inst = some e → e.state = .recognizedPending →
        ((∃ e', (move w c s (.frame i (.frame seq msg))).hub.pairing.findByInstance inst = some e' ∧
          e'.state = .trusted ∧ e'.role = e.role) ↔ e.role = .control)

/-- **A suspended device is asked about when it trips the wire**, and an approval that names no role gives it back what
it had when that was `control`. -/
theorem reapprovable {seq : UInt16} {msg : Inbound} (h : Taken w c s (.frame i (.frame seq msg))) :
    Reapprovable w c s i seq msg := by
  have hlink : ((heard w s i seq).slot i).transport.isSome :=
    (congrArg Option.isSome (slot_heard w i seq s).2.1).trans h.enabled
  have hclock : (heard w s i seq).hub.monoMs.ms = s.hub.monoMs.ms := congrArg MonotonicMs.ms (clock_heard i seq s)
  have hmove : move w c s (.frame i (.frame seq msg)) =
      setDispatchSeq none (dispatch w c i msg s.hub.monoMs.ms (heard w s i seq)) := rfl
  rw [← hclock] at hmove
  have hhello : ∀ x, dispatch w c i (.hello x) (heard w s i seq).hub.monoMs.ms (heard w s i seq) =
      handleHello w c i x (heard w s i seq).hub.monoMs.ms (heard w s i seq) := fun _ => rfl
  refine ⟨fun e hshow hsusp hasks => ?_, fun e hshow hsusp hfresh hre => ?_, ?_⟩
  · rw [hmove, suspended_setDispatchSeq] at hsusp
    rw [hmove, reasked_setDispatchSeq]
    cases hshow with
    | hello hent htok hadm =>
      rw [hhello] at hsusp ⊢
      exact (reasked_hello hlink hent htok hadm hsusp).1 hasks
    | auth hocc hleft hent hproof hmac => exact (reasked_auth hocc hleft hproof hent hmac hsusp).1 hasks
  · rw [hmove, suspended_setDispatchSeq] at hsusp
    rw [hmove, reasked_setDispatchSeq] at hre
    cases hshow with
    | hello hent htok hadm =>
      rw [hmove, session_setDispatchSeq, hhello] at hfresh
      rw [hhello] at hsusp hre
      exact (reasked_hello hlink hent htok hadm hsusp).2 hfresh hre
    | auth hocc hleft hent hproof hmac => exact (reasked_auth hocc hleft hproof hent hmac hsusp).2 hre
  · rintro m inst j e rfl hocc hperf happ - hent -
    rw [← (slot_heard w i seq s).1] at hent
    obtain ⟨e', hfind, hstate, hrole⟩ := find_approved (w := w) hperf happ hent
    have hdispatch : dispatch w c i (.intent (some m)) s.hub.monoMs.ms (heard w s i seq) =
        handleIntent w c i (some m) s.hub.monoMs.ms (heard w s i seq) := by
      simp [dispatch, hocc]
    rw [hmove, hclock, hdispatch]
    show (∃ e', (handleIntent w c i (some m) s.hub.monoMs.ms (heard w s i seq)).hub.pairing.findByInstance inst =
      some e' ∧ e'.state = .trusted ∧ e'.role = e.role) ↔ _
    refine ⟨?_, fun hcontrol => ⟨e', hfind, hstate, hrole.trans hcontrol.symm⟩⟩
    rintro ⟨e'', hfind', -, hrole'⟩
    cases hfind.symm.trans hfind'
    exact hrole'.symm.trans hrole

end

/-- The device shows its token and a version that is not the recorded one. -/
def Bench.updated : HelloMsg := { Bench.helloWith 1 0 with trust := some { clientVer := some [2] } }

def Bench.return : Move Bench := .frame 0 (.frame 1 (.hello (some Bench.updated)))

theorem Bench.return_eq : Bench.return = .frame 0 (.frame 1 (.hello (some Bench.updated))) := rfl

/-- The device is about to trip the wire. -/
def Bench.tripping : Sys Bench :=
  move Bench.world Bench.config (run Bench.world Bench.config {}
    [.pairing (({} : PairingManager).importEntry Bench.paired), .attachTransport 0]) (.tick 1000)

/-- The device tripped the wire and left. -/
def Bench.forgotten : Sys Bench :=
  move Bench.world Bench.config (run Bench.world Bench.config {}
    [.pairing (({} : PairingManager).importEntry Bench.paired), .attachTransport 0,
      Bench.reads 1000 0 [.hello (some Bench.updated), .goodbye]]) (.tick 2000)

/-- The device tripped the wire, and an operator is there. -/
def Bench.reapproving : Sys Bench :=
  move Bench.world Bench.config (run Bench.world Bench.config {}
    [.pairing (({} : PairingManager).importEntry Bench.paired), .world { answer := .configure }, .attachTransport 0,
      .attachTransport 1, Bench.reads 1000 0 [.hello (some Bench.updated)],
      Bench.reads 1000 1 [.hello (some (Bench.hello 2))]]) (.tick 2000)

def Bench.approval : IntentMsg :=
  { intentId := 1, channelId := Channels.sessionAdmin
    value := [⟨1, .u64 SessionAdminOps.pairApprove.toUInt64⟩, ⟨3, .bstr (Bench.client 1).val⟩] }

theorem Bench.taken_return {s : Sys Bench} {calls : List (Call Bench)} {nowUs : UInt32}
    (hs : s = move Bench.world Bench.config (run Bench.world Bench.config {} calls) (.tick nowUs))
    (hlink : (s.slot 0).transport.isSome) : Taken Bench.world Bench.config s Bench.return := by
  unfold Bench.return
  exact taken_frame (i := 0) _ hs hlink

/-- A device that returns updated has asked to be approved again. -/
theorem reapprovable_tripping : Reasked (heard Bench.world Bench.tripping 0 1) 0 Bench.paired.instanceId
    (move Bench.world Bench.config Bench.tripping Bench.return) := by
  have hlink : (Bench.tripping.slot 0).transport.isSome := by decide +kernel
  have hfind : (heard Bench.world Bench.tripping 0 1).hub.pairing.findByInstance Bench.updated.instanceId =
      some Bench.paired := by decide +kernel
  have hadm : (decidedIn Bench.world Bench.config 0 Bench.updated
      (heard Bench.world Bench.tripping 0 1).hub.monoMs.ms (heard Bench.world Bench.tripping 0 1)).isSome := by
    decide +kernel
  have hsusp : (((move Bench.world Bench.config Bench.tripping Bench.return).hub.pairing.findByInstance
      (Bench.client 1)).map PairedEntry.state) = some .recognizedPending := by decide +kernel
  exact (reapprovable (Bench.taken_return rfl hlink)).asked Bench.paired (.hello hfind rfl hadm)
    (Option.map_eq_some_iff.mp hsusp) (.inl rfl)

/-- A device that left and comes back is not asked about, and approving it without a role takes `configure` from it. -/
theorem suspended_forgotten :
    (¬∀ (s : Sys Bench) (i : SlotIdx) (seq : UInt16) (msg : Inbound),
      Taken Bench.world Bench.config s (.frame i (.frame seq msg)) → ∀ e, ShowsToken Bench.world Bench.config
        (heard Bench.world s i seq) i e msg →
        Suspended (move Bench.world Bench.config s (.frame i (.frame seq msg))) e.instanceId →
        Reasked (heard Bench.world s i seq) i e.instanceId
          (move Bench.world Bench.config s (.frame i (.frame seq msg)))) ∧
    ¬∀ (s : Sys Bench) (i : SlotIdx) (seq : UInt16) (m : IntentMsg) (e : PairedEntry),
      Taken Bench.world Bench.config s (.frame i (.frame seq (.intent (some m)))) →
      (adminOp m).op = some SessionAdminOps.pairApprove.toUInt64 → (adminOp m).target = some e.instanceId →
      (adminOp m).role = none → s.hub.pairing.findByInstance e.instanceId = some e → e.state = .recognizedPending →
      (∃ e', (move Bench.world Bench.config s (.frame i (.frame seq (.intent (some m))))).hub.pairing.findByInstance
        e.instanceId = some e' ∧ e'.state = .trusted) →
      ∃ e', (move Bench.world Bench.config s (.frame i (.frame seq (.intent (some m))))).hub.pairing.findByInstance
        e.instanceId = some e' ∧ e'.role = e.role := by
  refine ⟨fun h => ?_, fun h => ?_⟩
  · have hlink : (Bench.forgotten.slot 0).transport.isSome := by decide +kernel
    have hent : ((heard Bench.world Bench.forgotten 0 1).hub.pairing.findByInstance Bench.updated.instanceId).map
        (fun e => (e.token, e.instanceId)) = some (ByteArr.zero 16, Bench.client 1) := by decide +kernel
    obtain ⟨e, hfind, he⟩ := Option.map_eq_some_iff.mp hent
    have hinst : e.instanceId = Bench.client 1 := congrArg Prod.snd he
    have hadm : (decidedIn Bench.world Bench.config 0 Bench.updated
        (heard Bench.world Bench.forgotten 0 1).hub.monoMs.ms (heard Bench.world Bench.forgotten 0 1)).isSome := by
      decide +kernel
    have hsusp : (((move Bench.world Bench.config Bench.forgotten Bench.return).hub.pairing.findByInstance
        (Bench.client 1)).map PairedEntry.state) = some .recognizedPending := by decide +kernel
    have hbefore : (heard Bench.world Bench.forgotten 0 1).hub.pairing.pending.slots = List.replicate 4 none := by
      decide +kernel
    have hafter : (move Bench.world Bench.config Bench.forgotten Bench.return).hub.pairing.pending.slots =
        List.replicate 4 none := by decide +kernel
    have htoken : Bench.updated.token = some e.token := by
      rw [show e.token = ByteArr.zero 16 from congrArg Prod.fst he]
      decide
    rw [← hinst] at hsusp
    have hstill : Suspended (move Bench.world Bench.config Bench.forgotten Bench.return) e.instanceId :=
      Option.map_eq_some_iff.mp hsusp
    have hasked := h Bench.forgotten 0 1 (.hello (some Bench.updated))
    rw [← Bench.return_eq] at hasked
    have hre : Reasked (heard Bench.world Bench.forgotten 0 1) 0 e.instanceId
        (move Bench.world Bench.config Bench.forgotten Bench.return) :=
      hasked (Bench.taken_return rfl hlink) e (.hello hfind htoken hadm) hstill
    rcases hre with hwaits | hfull
    · exact PendingPairingList.not_awaits_of_empty hafter hwaits
    · exact PendingPairingList.not_fullOfOthers_of_empty hbefore hfull
  · have hlink : (Bench.reapproving.slot 1).transport.isSome := by decide +kernel
    have htaken : Taken Bench.world Bench.config Bench.reapproving (.frame 1 (.frame 1 (.intent (some Bench.approval)))) :=
      taken_frame (i := 1) _ rfl hlink
    have hent : (Bench.reapproving.hub.pairing.findByInstance (Bench.client 1)).map
        (fun e => (e.state, e.role)) = some (.recognizedPending, .configure) := by decide +kernel
    obtain ⟨e, hfind, he⟩ := Option.map_eq_some_iff.mp hent
    have hinst : e.instanceId = Bench.client 1 := PairingManager.findByInstance_some hfind
    have hafter : ((move Bench.world Bench.config Bench.reapproving
        (.frame 1 (.frame 1 (.intent (some Bench.approval))))).hub.pairing.findByInstance (Bench.client 1)).map
        (fun e => (e.state, e.role)) = some (.trusted, .control) := by decide +kernel
    obtain ⟨e', hfind', he'⟩ := Option.map_eq_some_iff.mp hafter
    have htarget : (adminOp Bench.approval).target = some (Bench.client 1) := by decide
    rw [← hinst] at hfind hfind' htarget
    obtain ⟨e'', hfind'', hrole⟩ := h Bench.reapproving 1 1 Bench.approval e htaken (by decide) htarget (by decide) hfind
      (congrArg Prod.fst he) ⟨e', hfind', congrArg Prod.fst he'⟩
    cases hfind'.symm.trans hfind''
    have hboth : AccessLevel.control = .configure :=
      (congrArg Prod.snd he').symm.trans (hrole.trans (congrArg Prod.snd he))
    cases hboth

end SlopSync
