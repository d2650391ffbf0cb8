import SlopSync.Hub.Bench
import SlopSync.Refine.Run

/-! # What a HELLO can do to the ledger

A HELLO may end sessions, and their knocks go with them (`LosesKnocks`).  Only one that carries a token is
observed, and an observation changes the entry of its own instance. -/

namespace SlopSync

open Keyed Labelled

/-! ## Lost knocks -/

/-- Of the ledger nothing changed, and of the knocks only those of the sessions in `D` are gone. -/
structure LosesKnocks (D : UInt32 → Prop) (p p' : PairingManager) : Prop where
  rest : ∃ l, p' = { p with pending := l }
  kept : ∀ inst k, p.pending.find inst = some k → ¬D k.sessionId → p'.pending.find inst = some k
  none : ∀ inst, p.pending.find inst = none → p'.pending.find inst = none

namespace LosesKnocks

variable {D D' : UInt32 → Prop} {p p' p'' : PairingManager}

protected theorem refl (p : PairingManager) : LosesKnocks D p p := ⟨⟨p.pending, rfl⟩, fun _ _ h _ => h, fun _ h => h⟩

protected theorem trans (h : LosesKnocks D p p') (h' : LosesKnocks D p' p'') : LosesKnocks D p p'' := by
  refine ⟨?_, fun inst k hk hD => h'.kept inst k (h.kept inst k hk hD) hD, fun inst hn => h'.none inst (h.none inst hn)⟩
  obtain ⟨l, rfl⟩ := h.rest
  obtain ⟨l', rfl⟩ := h'.rest
  exact ⟨l', rfl⟩

/-- More sessions may be allowed to lose knocks. -/
theorem mono (h : LosesKnocks D p p') (hD : ∀ sid, D sid → D' sid) : LosesKnocks D' p p' :=
  ⟨h.rest, fun inst k hk hn => h.kept inst k hk fun hd => hn (hD _ hd), h.none⟩

/-- A ledger left alone loses nothing. -/
theorem of_eq (h : p' = p) : LosesKnocks D p p' := by
  rw [h]
  exact LosesKnocks.refl p

end LosesKnocks

section

variable {ε : Type} {w : World ε} {c : Config} {now : UInt32} {rx : Option SlotIdx} {s t : Sys ε}

/-- Acts of the ledger or its knocks. -/
def Label.OfLedger : Label → Prop
  | .knocks | .knock _ | .ledger | .mint _ _ | .window | .narrow | .restore => True
  | _ => False

/-- An act that is none of the ledger's leaves it alone. -/
theorem Act.pairing_eq {l : Label} {v v' : View} (hl : ¬l.OfLedger) (h : Act c now rx l v v') :
    v'.pairing = v.pairing := by
  cases h <;> first | rfl | exact absurd trivial hl

/-- A sequence of acts none of which is of the ledger leaves it alone. -/
theorem pairing_of_does {P : Label → Prop} (h : Does c now rx P s t) (hP : ∀ l, P l → ¬l.OfLedger) :
    t.hub.pairing = s.hub.pairing :=
  Path.frame (f := View.pairing) h fun l _ _ hl ha => Act.pairing_eq (hP l hl) ha

/-- Dropping a knock loses it to its session alone. -/
theorem losesKnocks_dropKnock (nowMs : UInt32) (s : Sys ε) (k : PendingKnock) :
    LosesKnocks (· = k.sessionId) s.hub.pairing (dropKnock w c nowMs s k).hub.pairing := by
  unfold dropKnock
  dsimp only
  have hp := (emits_emitPairingEvent (w := w) c PairingEventKinds.expired k.instanceId.val k.name.data k.mode .watch []
    nowMs s).pairing
  rw [hp]
  refine ⟨⟨_, rfl⟩, fun inst x hx hne => ?_, fun inst hn => findUsed_clear_none hn⟩
  refine findUsed_clear hx (beq_eq_false_iff_ne.mpr fun he => hne ?_)
  rw [he]

/-- Dropping a list of one session's knocks loses them to that session alone. -/
theorem losesKnocks_dropKnocks (sid nowMs : UInt32) : ∀ (ks : List PendingKnock) (s : Sys ε),
    (∀ k ∈ ks, k.sessionId = sid) →
    LosesKnocks (· = sid) s.hub.pairing (ks.foldl (dropKnock w c nowMs) s).hub.pairing
  | [], _, _ => LosesKnocks.refl _
  | k :: ks, s, h => by
    rw [List.foldl_cons]
    have hone := losesKnocks_dropKnock (w := w) (c := c) nowMs s k
    rw [h k List.mem_cons_self] at hone
    exact hone.trans (losesKnocks_dropKnocks sid nowMs ks _ fun x hx => h x (List.mem_cons_of_mem k hx))

theorem losesKnocks_dropKnocksOf (sid nowMs : UInt32) (s : Sys ε) :
    LosesKnocks (· = sid) s.hub.pairing (dropKnocksOf w c sid nowMs s).hub.pairing := by
  unfold dropKnocksOf
  dsimp only
  split
  · exact LosesKnocks.refl _
  · have hall : ∀ k ∈ s.hub.pairing.pending.select (PendingPairingList.ofSession sid), k.sessionId = sid := by
      intro k hk
      simp only [PendingPairingList.select, List.mem_filterMap] at hk
      obtain ⟨o, _, ho⟩ := hk
      have hsid := (Option.filter_eq_some_iff.mp ho).2
      simpa [PendingPairingList.ofSession] using hsid
    refine (losesKnocks_dropKnocks (w := w) (c := c) sid nowMs _ s hall).trans (LosesKnocks.of_eq ?_)
    unfold publishPendingPairingState
    split
    · rfl
    · exact congrArg View.pairing (view_retain _ _ _)

/-- Ending a session takes its knocks along, if there was a session. -/
theorem losesKnocks_teardown (v : SlotIdx) (nowMs : UInt32) (s : Sys ε) :
    LosesKnocks (fun sid => (s.session v).occupied = true ∧ (s.session v).sessionId = sid) s.hub.pairing
      (teardownSession w c v nowMs s).hub.pairing := by
  unfold teardownSession
  dsimp only
  rw [Sys.pairing_modSlot]
  split
  · rename_i hocc
    obtain ⟨retained, hv, -⟩ := releaseSessionSources_view (w := w) (c := c) (s.session v).sessionId 4 s
    have hrel : (releaseSessionSources w c (s.session v).sessionId 4 s).hub.pairing = s.hub.pairing :=
      congrArg View.pairing hv
    have hdrop := losesKnocks_dropKnocksOf (w := w) (c := c) (s.session v).sessionId nowMs
      (releaseSessionSources w c (s.session v).sessionId 4 s)
    rw [hrel] at hdrop
    exact hdrop.mono fun sid hsid => ⟨hocc, hsid.symm⟩
  · exact LosesKnocks.refl _

/-- Ending a session loses that session's knocks. -/
theorem losesKnocks_goodbye (v : SlotIdx) (code : NackCode) (nowMs : UInt32) (s : Sys ε) :
    LosesKnocks (fun sid => (s.session v).occupied = true ∧ (s.session v).sessionId = sid) s.hub.pairing
      (teardownSession w c v nowMs (sendGoodbye w v code s)).hub.pairing := by
  have hemit := emits_sendGoodbye (w := w) v code s
  have htear := losesKnocks_teardown (w := w) (c := c) v nowMs (sendGoodbye w v code s)
  rw [hemit.occupied v, hemit.sessionId v, hemit.pairing] at htear
  exact htear

/-! ## Up to the decision -/

/-- The state in which the HELLO's role is decided: whoever had to go is gone.  `none` when the HELLO is refused. -/
def decidedIn (w : World ε) (c : Config) (i : SlotIdx) (h : HelloMsg) (nowMs : UInt32) (s : Sys ε) : Option (Sys ε) :=
  let fresh (s : Sys ε) := (makeRoom w c i nowMs s).map fun s => (drawSession w (teardownSession w c i nowMs s)).2
  match findSlotByInstance s.hub h.instanceId i with
  | none => fresh s
  | some j =>
    if (s.session j).state = .stale then some (takeOver w c i j nowMs s)
    else fresh (teardownSession w c j nowMs (sendGoodbye w j .duplicateInstance s))

/-- Slot `v` loses its session when one is opened in slot `i`: it is slot `i` itself or, if all places are taken, the
stale session that yields; none if nobody yields. -/
def Displaces (h : Hub) (i v : SlotIdx) : Prop :=
  if occupiedCount h i < kHubMaxSessions then v = i
  else ∃ u, findEvictableStale h (some i) = some u ∧ (v = u ∨ v = i)

/-- A HELLO of this instance in slot `i` ends the session of slot `v`.  A stale session of the instance is not ended but
brought back. -/
def Ends (s : Sys ε) (i : SlotIdx) (inst : InstanceId) (v : SlotIdx) : Prop :=
  match findSlotByInstance s.hub inst i with
  | none => Displaces s.hub i v
  | some j => if (s.session j).state = .stale then v = i else v = j ∨ v = i

/-- The ids of the sessions it ends. -/
def Ended (s : Sys ε) (i : SlotIdx) (inst : InstanceId) (sid : UInt32) : Prop :=
  ∃ v, Ends s i inst v ∧ (s.session v).occupied = true ∧ (s.session v).sessionId = sid

/-- The link of a slot tells who occupies it. -/
theorem session_of_link {i : SlotIdx} (h : (t.view.slots i).link = (s.view.slots i).link) :
    (t.session i).occupied = (s.session i).occupied ∧ (t.session i).sessionId = (s.session i).sessionId := by
  have hl := SlotView.link_inj h
  refine ⟨?_, hl.2.2.1⟩
  unfold HubSession.occupied
  rw [show (t.session i).state = (s.session i).state from hl.2.1]

/-- Room for a session: whom it displaces goes. -/
theorem losesKnocks_fresh {i : SlotIdx} {nowMs : UInt32} {a b : Sys ε} {D : UInt32 → Prop}
    (hmake : makeRoom w c i nowMs a = some b)
    (hD : ∀ v, Displaces a.hub i v → (a.session v).occupied = true → D (a.session v).sessionId) :
    LosesKnocks D a.hub.pairing (teardownSession w c i nowMs b).hub.pairing := by
  have hown : LosesKnocks D a.hub.pairing b.hub.pairing ∧ (b.view.slots i).link = (a.view.slots i).link ∧
      Displaces a.hub i i := by
    unfold makeRoom at hmake
    unfold Displaces at hD ⊢
    split at hmake
    · rename_i hroom
      cases hmake
      exact ⟨LosesKnocks.refl _, rfl, by rw [if_pos hroom]⟩
    · rename_i hfull
      rw [if_neg hfull]
      split at hmake
      · cases hmake
      · rename_i v hv
        cases hmake
        have hvi : v ≠ i := fun h => (findEvictableStale_some hv).2 (congrArg some h.symm)
        refine ⟨(losesKnocks_goodbye v .slotReclaimed nowMs a).mono ?_,
          (goodbye_evicts v .slotReclaimed nowMs a).rest i hvi.symm, v, hv, .inr rfl⟩
        rintro sid ⟨hocc, rfl⟩
        exact hD v (by rw [if_neg hfull]; exact ⟨v, hv, .inl rfl⟩) hocc
  obtain ⟨hlost, hlink, hself⟩ := hown
  obtain ⟨hocc, hsid⟩ := session_of_link hlink
  refine hlost.trans ((losesKnocks_teardown i nowMs b).mono ?_)
  rintro sid ⟨ho, rfl⟩
  rw [hocc] at ho
  rw [hsid]
  exact hD i hself ho

/-- A LIVE session of the same instance is among those ended. -/
theorem ends_duplicate {i j : SlotIdx} {h : HelloMsg} (hj : findSlotByInstance s.hub h.instanceId i = some j)
    (hst : (s.session j).state ≠ .stale) (v : SlotIdx) : Ends s i h.instanceId v ↔ v = j ∨ v = i := by
  unfold Ends
  rw [hj]
  dsimp only
  rw [if_neg hst]

/-- So ending it loses its knocks. -/
theorem losesKnocks_duplicate {i j : SlotIdx} {h : HelloMsg} (nowMs : UInt32)
    (hj : findSlotByInstance s.hub h.instanceId i = some j) (hst : (s.session j).state ≠ .stale) :
    LosesKnocks (Ended s i h.instanceId) s.hub.pairing
      (teardownSession w c j nowMs (sendGoodbye w j .duplicateInstance s)).hub.pairing := by
  refine (losesKnocks_goodbye j .duplicateInstance nowMs s).mono ?_
  rintro sid ⟨ho, hsid⟩
  exact ⟨j, (ends_duplicate hj hst j).mpr (.inl rfl), ho, hsid⟩

/-- Once the session of the same instance is gone there is room, so that only the slot's own goes as well. -/
theorem ended_evicted {i j : SlotIdx} {h : HelloMsg} (hj : findSlotByInstance s.hub h.instanceId i = some j)
    (hst : (s.session j).state ≠ .stale) (hev : Evicted s t j) {v : SlotIdx} (hv : Displaces t.hub i v)
    (hocc : (t.session v).occupied = true) : Ended s i h.instanceId (t.session v).sessionId := by
  obtain ⟨hji, hoccj, -⟩ := findSlotByInstance_some hj
  have hroom : occupiedCount t.hub i < kHubMaxSessions := by
    rw [occupiedCount_eq]
    exact others_card_evicted hev hji ((occupied_view s j).mpr hoccj)
  have hvi : v = i := by
    unfold Displaces at hv
    rwa [if_pos hroom] at hv
  subst hvi
  obtain ⟨ho, hsid⟩ := session_of_link (hev.rest v hji.symm)
  exact ⟨v, (ends_duplicate hj hst v).mpr (.inr rfl), ho ▸ hocc, hsid.symm⟩

/-- A takeover loses the knocks of the sessions the HELLO ends. -/
theorem losesKnocks_takeOver {i j : SlotIdx} {h : HelloMsg} (nowMs : UInt32) (s : Sys ε)
    (hj : findSlotByInstance s.hub h.instanceId i = some j) (hst : (s.session j).state = .stale) :
    LosesKnocks (Ended s i h.instanceId) s.hub.pairing (takeOver w c i j nowMs s).hub.pairing := by
  have htear := losesKnocks_teardown (w := w) (c := c) i nowMs s
  have hclose : (closeSlot w j (teardownSession w c i nowMs s)).hub.pairing =
      (teardownSession w c i nowMs s).hub.pairing := congrArg View.pairing (view_closeSlot (w := w) j _)
  have hmove : (takeOver w c i j nowMs s).hub.pairing = (teardownSession w c i nowMs s).hub.pairing := hclose
  have hself : Ends s i h.instanceId i := by
    unfold Ends
    rw [hj]
    dsimp only
    rw [if_pos hst]
  rw [hmove]
  exact htear.mono fun sid hsid => ⟨i, hself, hsid⟩

/-- Up to the decision a HELLO only takes the knocks of the sessions it ends. -/
theorem losesKnocks_decidedIn {i : SlotIdx} {h : HelloMsg} {nowMs : UInt32}
    (hdec : decidedIn w c i h nowMs s = some t) :
    LosesKnocks (Ended s i h.instanceId) s.hub.pairing t.hub.pairing := by
  unfold decidedIn at hdec
  dsimp only at hdec
  split at hdec
  · rename_i hj
    obtain ⟨b, hb, rfl⟩ := Option.map_eq_some_iff.mp hdec
    refine losesKnocks_fresh hb fun v hv hocc => ⟨v, ?_, hocc, rfl⟩
    unfold Ends
    rw [hj]
    exact hv
  · rename_i j hj
    split at hdec
    · rename_i hst
      cases hdec
      exact losesKnocks_takeOver nowMs s hj hst
    · rename_i hst
      obtain ⟨b, hb, rfl⟩ := Option.map_eq_some_iff.mp hdec
      refine (losesKnocks_duplicate (w := w) (c := c) nowMs hj hst).trans ?_
      exact losesKnocks_fresh hb fun v hv hocc => ended_evicted hj hst (goodbye_evicts j _ nowMs s) hv hocc

/-! ## The observation -/

/-- Nobody else's entry changed, and the entry of `inst` kept its role and its token. -/
structure KeepsCredentials (inst : InstanceId) (p p' : PairingManager) : Prop where
  others : ∀ x, x ≠ inst → p'.findByInstance x = p.findByInstance x
  own : ∀ e, p.findByInstance inst = some e →
    ∃ e', p'.findByInstance inst = some e' ∧ e'.role = e.role ∧ e'.token = e.token

/-- Credentials are read off the entries. -/
theorem KeepsCredentials.of_entries {inst : InstanceId} {p p' q q' : PairingManager} (h : KeepsCredentials inst p p')
    (hq : q.entries = p.entries) (hq' : q'.entries = p'.entries) : KeepsCredentials inst q q' := by
  have hfind : ∀ x, q.findByInstance x = p.findByInstance x := fun x => by
    unfold PairingManager.findByInstance
    rw [hq]
  have hfind' : ∀ x, q'.findByInstance x = p'.findByInstance x := fun x => by
    unfold PairingManager.findByInstance
    rw [hq']
  refine ⟨fun x hx => ?_, fun e he => ?_⟩
  · rw [hfind, hfind']
    exact h.others x hx
  · rw [hfind] at he
    rw [hfind']
    exact h.own e he

theorem KeepsCredentials.refl (inst : InstanceId) (p : PairingManager) : KeepsCredentials inst p p :=
  ⟨fun _ _ => rfl, fun e he => ⟨e, he, rfl, rfl⟩⟩

/-- An observation keeps them: it may suspend an entry or note a version. -/
theorem keepsCredentials_observe (p : PairingManager) (se : HubSession) :
    KeepsCredentials se.instanceId p (observe p se).2 := by
  unfold observe
  cases hf : p.findByInstance se.instanceId with
  | none =>
    rw [PairingManager.observeHello, hf]
    exact KeepsCredentials.refl _ p
  | some e =>
    obtain ⟨-, -, -, hent⟩ := PairingManager.observeHello_known hf se.clientKind.data se.clientName.data
      (if se.hasClientVer then some se.clientVer.data else none) se.presentationMode
    obtain ⟨hinst, htok, hrole⟩ := PairingManager.observedEntry_fixed p e se.clientKind.data se.clientName.data
      (if se.hasClientVer then some se.clientVer.data else none) se.presentationMode
    have hkey : ∀ x : PairedEntry, x.instanceId = se.instanceId → (p.observedEntry e se.clientKind.data
        se.clientName.data (if se.hasClientVer then some se.clientVer.data else none) se.presentationMode).instanceId =
          se.instanceId := fun _ _ => hinst.trans (PairingManager.findByInstance_some hf)
    refine KeepsCredentials.of_entries ⟨fun x hx => ?_, fun e' he' => ?_⟩ rfl hent
    · exact PairingManager.findByInstance_modify_other hkey hx
    · rw [hf] at he'
      cases he'
      refine ⟨_, (PairingManager.findByInstance_modify_self hkey).trans (by rw [hf]; rfl), hrole, htok⟩

/-- Queueing a re-approval keeps the entries. -/
theorem pairing_queueReapproval (i : SlotIdx) (r : AccessLevel) (nowMs : UInt32) (s : Sys ε) :
    (queueReapproval w c i r nowMs s).hub.pairing.entries = s.hub.pairing.entries := by
  refine Path.frame (f := fun v => v.pairing.entries) (queueReapproval_does (w := w) (c := c) i r nowMs s)
    fun l v v' hl ha => ?_
  cases ha <;> first | rfl | exact hl.elim

/-- Only a HELLO with a token is observed, and that changes nobody's credentials. -/
theorem pairing_observeRole (i : SlotIdx) (h : HelloMsg) (nowMs : UInt32) (s : Sys ε) :
    (h.token = none → (observeRole w c i h nowMs s).hub.pairing = s.hub.pairing) ∧
      KeepsCredentials (s.session i).instanceId s.hub.pairing (observeRole w c i h nowMs s).hub.pairing := by
  unfold observeRole
  dsimp only
  split
  · rename_i htok
    refine ⟨fun hnone => absurd htok (by rw [hnone]; decide), ?_⟩
    rw [setRole, Sys.modSession, Sys.pairing_modSlot]
    refine (keepsCredentials_observe s.hub.pairing (s.session i)).of_entries rfl ?_
    unfold applyTrustObservation
    dsimp only
    split
    · rfl
    · split
      · exact pairing_queueReapproval i _ nowMs _
      · rfl
  · exact ⟨fun _ => rfl, KeepsCredentials.refl _ _⟩

/-! ## The whole HELLO -/

/-- The ledger and the roles are as before. -/
structure SameTrust (s t : Sys ε) : Prop where
  pairing : t.hub.pairing = s.hub.pairing
  role : ∀ i, (t.session i).role = (s.session i).role

namespace SameTrust

theorem of_hub (h : t.hub = s.hub) : SameTrust s t := by
  refine ⟨congrArg Hub.pairing h, fun i => ?_⟩
  rw [Sys.session, h]

protected theorem trans {t' : Sys ε} (h : SameTrust s t) (h' : SameTrust t t') : SameTrust s t' :=
  ⟨h'.pairing.trans h.pairing, fun i => (h'.role i).trans (h.role i)⟩

/-- A change of a slot that leaves its role keeps trust. -/
theorem modSlot {f : Slot → Slot} {i : SlotIdx} (h : SameTrust s t)
    (hf : ∀ sl : Slot, (f sl).session.role = sl.session.role) : SameTrust s (t.modSlot i f) := by
  refine h.trans ⟨rfl, fun j => ?_⟩
  by_cases hj : j = i
  · subst hj
    rw [Sys.session, Sys.slot_modSlot_self]
    exact hf _
  · rw [Sys.session, Sys.slot_modSlot_ne t hj]

theorem modSession {f : HubSession → HubSession} {i : SlotIdx} (h : SameTrust s t)
    (hf : (f (t.session i)).role = (t.session i).role) : SameTrust s (t.modSession i f) := by
  refine h.trans ⟨rfl, fun j => ?_⟩
  by_cases hj : j = i
  · subst hj
    rw [Sys.session_modSession]
    exact hf
  · rw [Sys.session, Sys.modSession, Sys.slot_modSlot_ne t hj]

/-- Sending keeps trust. -/
theorem emits (h : Emits s t) : SameTrust s t := by
  refine ⟨h.pairing, fun i => ?_⟩
  rw [Sys.session, h.slot i]
  rfl

theorem foldl {α β : Type} {f : β × Sys ε → α → β × Sys ε} (hf : ∀ acc a, SameTrust acc.2 (f acc a).2) :
    ∀ (l : List α) (acc : β × Sys ε), SameTrust acc.2 (l.foldl f acc).2
  | [], _ => of_hub rfl
  | a :: l, acc => (hf acc a).trans (foldl hf l (f acc a))

theorem each {α : Type} {f : Sys ε → α → Sys ε} (hf : ∀ s a, SameTrust s (f s a)) :
    ∀ (l : List α) (s : Sys ε), SameTrust s (l.foldl f s)
  | [], _ => of_hub rfl
  | a :: l, s => (hf s a).trans (each hf l (f s a))

end SameTrust

theorem replayEventsOnGrant_sameTrust (i : SlotIdx) (ch : UInt16) (s : Sys ε) :
    SameTrust s (replayEventsOnGrant c i ch s) := by
  unfold replayEventsOnGrant
  split
  · exact .of_hub rfl
  · split
    · exact .of_hub rfl
    · refine .each (fun t bytes => ?_) _ s
      unfold offerEvent
      exact SameTrust.modSession (.of_hub rfl) rfl

/-- A subscription keeps it. -/
theorem trySubscribe_sameTrust (i : SlotIdx) (wish : SubscriptionWish) (s : Sys ε) :
    SameTrust s (trySubscribe c i wish s).2 := by
  unfold trySubscribe
  split
  · exact .of_hub rfl
  · split
    · exact .of_hub rfl
    · split
      · exact .of_hub rfl
      · dsimp only
        split
        · exact .of_hub rfl
        · exact ((SameTrust.of_hub rfl).modSession rfl).trans (replayEventsOnGrant_sameTrust i wish.channelId _)

theorem helloSubscribeOne_sameTrust (i : SlotIdx) (acc : List Grant × Sys ε) (wish : SubscriptionWish) :
    SameTrust acc.2 (helloSubscribeOne c i acc wish).2 := by
  have h := trySubscribe_sameTrust (c := c) i wish acc.2
  unfold helloSubscribeOne
  split <;> (rename_i heq; rw [heq] at h; exact h)

theorem publishOne_sameTrust (i : SlotIdx) (nowMs : UInt32) (acc : List GrantedPublish × Sys ε) (wish : PublishWish) :
    SameTrust acc.2 (publishOne w c i nowMs acc wish).2 := by
  have hfam : ∀ (f : Option UInt8) (s : Sys ε), (effectiveFamily w wish.channelId f s).2.hub = s.hub := by
    intro f s
    cases f <;> rfl
  have hone : ∀ s : Sys ε, SameTrust s (grantPublishWish w c i wish nowMs s).2 := by
    intro s
    unfold grantPublishWish
    split
    · exact .of_hub rfl
    · split
      · exact .of_hub rfl
      · dsimp only
        split
        · exact .of_hub rfl
        · split
          · exact .of_hub (hfam _ s)
          · rename_i se hse
            have hrole := congrArg HubSession.role (HubSession.addPublishGrant_some hse).1
            exact (SameTrust.of_hub (hfam wish.curveFamily s)).modSession (f := fun _ => se) hrole
  unfold publishOne
  dsimp only
  split <;> exact hone acc.2

/-- The WELCOME keeps trust. -/
theorem sendWelcome_sameTrust (i : SlotIdx) (grants : List Grant) (pubs : List GrantedPublish) (nowMs : UInt32)
    (s : Sys ε) : SameTrust s (sendWelcome w c i grants pubs nowMs s).2 := by
  have hnonce : SameTrust s (freshNonce w i s) := by
    unfold freshNonce
    exact SameTrust.modSlot (SameTrust.of_hub rfl) fun _ => rfl
  have harm : ∀ (m : WelcomeMsg) (s : Sys ε), SameTrust s (armWelcomeSignature w i m s).2 := by
    intro m s
    unfold armWelcomeSignature
    split
    · split
      · exact .of_hub rfl
      · dsimp only
        split
        · have hsigned : ∀ env, SameTrust s (({ s with env } : Sys ε).modSlot i fun sl => { sl with signDelivered := true }) :=
            fun _ => SameTrust.modSlot (.of_hub rfl) fun _ => rfl
          exact hsigned _
        · exact .of_hub rfl
    · exact .of_hub rfl
  unfold sendWelcome
  dsimp only
  have hpre := hnonce.trans (harm (buildWelcome w c i grants pubs nowMs (freshNonce w i s).hub) _)
  generalize armWelcomeSignature w i (buildWelcome w c i grants pubs nowMs (freshNonce w i s).hub) (freshNonce w i s) = r
    at hpre
  obtain ⟨⟨arm, m⟩, s₁⟩ := r
  dsimp only at hpre ⊢
  split
  · exact hpre
  · dsimp only
    split
    · exact (hpre.trans (.of_hub (hub_sendFrameTo _ _ _ _ _ _))).modSlot fun _ => rfl
    · exact hpre.trans (.of_hub (hub_sendFrameTo _ _ _ _ _ _))

/-- The grants and the WELCOME of a new session. -/
theorem welcomeSession_sameTrust (i : SlotIdx) (h : HelloMsg) (nowMs : UInt32) (s : Sys ε) :
    SameTrust s (welcomeSession w c i h nowMs s) := by
  unfold welcomeSession
  dsimp only
  have hsubs := SameTrust.foldl (helloSubscribeOne_sameTrust (c := c) i) h.subscriptions ([], s)
  generalize h.subscriptions.foldl (helloSubscribeOne c i) ([], s) = r₁ at hsubs
  obtain ⟨grants, s₁⟩ := r₁
  have hpubs := SameTrust.foldl (publishOne_sameTrust (w := w) (c := c) i nowMs) h.publishes ([], s₁)
  dsimp only at hsubs hpubs ⊢
  generalize h.publishes.foldl (publishOne w c i nowMs) ([], s₁) = r₂ at hpubs
  obtain ⟨pubs, s₂⟩ := r₂
  have hsent := (hsubs.trans hpubs).trans (sendWelcome_sameTrust (w := w) (c := c) i grants pubs nowMs s₂)
  dsimp only
  split
  · have hlive : SameTrust s ((sendWelcome w c i grants pubs nowMs s₂).2.modSession i fun se =>
        { se with state := .live }) := hsent.modSession rfl
    exact hlive.trans (.of_hub rfl)
  · exact hsent

/-- The WELCOME of a resumed session keeps trust. -/
theorem welcomeBack_sameTrust (i : SlotIdx) (nowMs : UInt32) (s : Sys ε) : SameTrust s (welcomeBack w c i nowMs s) := by
  unfold welcomeBack
  dsimp only
  have hrearm : SameTrust s (s.modSession i fun se => { se with subs := rearmPushes se.subs }) :=
    (SameTrust.of_hub rfl).modSession rfl
  have hsent : ∀ grants pubs, SameTrust s (sendWelcome w c i grants pubs nowMs
      (s.modSession i fun se => { se with subs := rearmPushes se.subs })).2 :=
    fun grants pubs => hrearm.trans (sendWelcome_sameTrust i grants pubs nowMs _)
  split
  · exact SameTrust.trans ((hsent _ _).modSession rfl) (.emits (emits_emitSessionEvent _ _ nowMs _))
  · exact hsent _ _

/-- A HELLO decided in `t` is a fresh session once there is room, or a stale one taken over. -/
theorem handleHello_decided {P : Sys ε → Prop} {i : SlotIdx} {h : HelloMsg} {nowMs : UInt32}
    (hdec : decidedIn w c i h nowMs s = some t)
    (hfresh : ∀ {a b : Sys ε}, makeRoom w c i nowMs a = some b →
      (drawSession w (teardownSession w c i nowMs b)).2 = t → P (helloFresh w c i h nowMs a))
    (hback : (t.session i).instanceId = h.instanceId → P (welcomeBack w c i nowMs (resume w c i h nowMs t))) :
    P (handleHello w c i (some h) nowMs s) := by
  unfold decidedIn at hdec
  unfold handleHello
  dsimp only at hdec ⊢
  cases hj : findSlotByInstance s.hub h.instanceId i with
  | none =>
    rw [hj] at hdec
    obtain ⟨b, hb, ht⟩ := Option.map_eq_some_iff.mp hdec
    exact hfresh hb ht
  | some j =>
    rw [hj] at hdec
    dsimp only at hdec ⊢
    obtain ⟨hji, _, hinst⟩ := findSlotByInstance_some hj
    split at hdec
    · rename_i hst
      cases hdec
      rw [if_pos hst, handleReattach]
      have hslot := SlotView.link_inj (y := { s.view.slots j with transport := (s.view.slots i).transport })
        (takeOver_slot (w := w) (c := c) nowMs s hji.symm)
      exact hback (hslot.2.2.2.1.trans hinst)
    · rename_i hst
      rw [if_neg hst]
      obtain ⟨b, hb, ht⟩ := Option.map_eq_some_iff.mp hdec
      exact hfresh hb ht

/-- The observation of the instance the slot already has. -/
theorem pairing_resume {i : SlotIdx} {h : HelloMsg} (nowMs : UInt32) (hinst : (t.session i).instanceId = h.instanceId) :
    (h.token = none → (resume w c i h nowMs t).hub.pairing = t.hub.pairing) ∧
      KeepsCredentials h.instanceId t.hub.pairing (resume w c i h nowMs t).hub.pairing := by
  unfold resume
  dsimp only
  have hhub := (validateHello_keeps (w := w) h t).1
  generalize validateHello w h t = r at hhub
  have hobs := pairing_observeRole (w := w) (c := c) i h nowMs (r.2.modSlot i (reintroduce h r.1))
  have hin : ((r.2.modSlot i (reintroduce h r.1)).session i).instanceId = h.instanceId := by
    rw [Sys.session, Sys.slot_modSlot_self, hhub]
    exact hinst
  rw [hin, Sys.pairing_modSlot, hhub] at hobs
  exact hobs

/-- From the decision on, a HELLO touches the ledger only by the observation. -/
theorem pairing_handleHello {i : SlotIdx} {h : HelloMsg} {nowMs : UInt32} (hdec : decidedIn w c i h nowMs s = some t) :
    (h.token = none → (handleHello w c i (some h) nowMs s).hub.pairing = t.hub.pairing) ∧
      KeepsCredentials h.instanceId t.hub.pairing (handleHello w c i (some h) nowMs s).hub.pairing := by
  refine handleHello_decided (P := fun u => (h.token = none → u.hub.pairing = t.hub.pairing) ∧
    KeepsCredentials h.instanceId t.hub.pairing u.hub.pairing) hdec ?_ fun hinst => ?_
  · rintro a b hb rfl
    have hobs := pairing_observeRole (w := w) (c := c) i h nowMs (openSession w c i h nowMs (teardownSession w c i nowMs b))
    have hhub := (validateHello_keeps (w := w) h (drawSession w (teardownSession w c i nowMs b)).2).1
    have hpair : (openSession w c i h nowMs (teardownSession w c i nowMs b)).hub.pairing =
        (teardownSession w c i nowMs b).hub.pairing := by
      unfold openSession
      dsimp only
      rw [Sys.pairing_modSlot, hhub]
      rfl
    have hinst : ((openSession w c i h nowMs (teardownSession w c i nowMs b)).session i).instanceId = h.instanceId := by
      unfold openSession
      dsimp only
      rw [Sys.session, Sys.slot_modSlot_self]
      rfl
    rw [hpair, hinst] at hobs
    unfold helloFresh
    rw [hb]
    dsimp only
    rw [(welcomeSession_sameTrust i h nowMs _).pairing]
    exact hobs
  · rw [(welcomeBack_sameTrust i nowMs _).pairing]
    exact pairing_resume nowMs hinst

/-- A refused HELLO touches no entry. -/
theorem losesKnocks_refused {i : SlotIdx} {h : HelloMsg} {nowMs : UInt32} (hdec : decidedIn w c i h nowMs s = none) :
    LosesKnocks (Ended s i h.instanceId) s.hub.pairing (handleHello w c i (some h) nowMs s).hub.pairing := by
  have hbusy : ∀ {a : Sys ε}, ((makeRoom w c i nowMs a).map fun a =>
      (drawSession w (teardownSession w c i nowMs a)).2) = none →
      (helloFresh w c i h nowMs a).hub.pairing = a.hub.pairing := by
    intro a ha
    rw [Option.map_eq_none_iff] at ha
    unfold helloFresh
    rw [ha]
    exact congrArg Hub.pairing (hub_sendNack i _ a)
  unfold decidedIn at hdec
  unfold handleHello
  dsimp only at hdec ⊢
  cases hj : findSlotByInstance s.hub h.instanceId i with
  | none =>
    rw [hj] at hdec
    exact LosesKnocks.of_eq (hbusy hdec)
  | some j =>
    rw [hj] at hdec
    dsimp only at hdec ⊢
    split at hdec
    · cases hdec
    · rename_i hst
      rw [if_neg hst]
      exact (losesKnocks_duplicate (w := w) (c := c) nowMs hj hst).trans (LosesKnocks.of_eq (hbusy hdec))

/-- **A HELLO without a token cannot touch the ledger**, and no HELLO can touch credentials. -/
theorem hello_spares_ledger (i : SlotIdx) (h : HelloMsg) (nowMs : UInt32) (s : Sys ε) {e : PairedEntry}
    (hent : s.hub.pairing.findByInstance h.instanceId = some e) :
    (h.token = none →
      (handleHello w c i (some h) nowMs s).hub.pairing.entries = s.hub.pairing.entries ∧
      (handleHello w c i (some h) nowMs s).hub.pairing.generation = s.hub.pairing.generation ∧
      ((∀ k, s.hub.pairing.pending.find h.instanceId = some k → ¬Ended s i h.instanceId k.sessionId) →
        (handleHello w c i (some h) nowMs s).hub.pairing.pending.find h.instanceId =
          s.hub.pairing.pending.find h.instanceId)) ∧
    (∀ x, x ≠ h.instanceId →
      (handleHello w c i (some h) nowMs s).hub.pairing.findByInstance x = s.hub.pairing.findByInstance x) ∧
    ∃ e', (handleHello w c i (some h) nowMs s).hub.pairing.findByInstance h.instanceId = some e' ∧
      e'.role = e.role ∧ e'.token = e.token := by
  have hall : (h.token = none → LosesKnocks (Ended s i h.instanceId) s.hub.pairing
        (handleHello w c i (some h) nowMs s).hub.pairing) ∧
      KeepsCredentials h.instanceId s.hub.pairing (handleHello w c i (some h) nowMs s).hub.pairing := by
    have hloses : ∀ {p : PairingManager}, LosesKnocks (Ended s i h.instanceId) s.hub.pairing p →
        p.entries = s.hub.pairing.entries := fun hl => by
      obtain ⟨l, rfl⟩ := hl.rest
      rfl
    cases hdec : decidedIn w c i h nowMs s with
    | none =>
      have hl := losesKnocks_refused hdec
      exact ⟨fun _ => hl, (KeepsCredentials.refl _ s.hub.pairing).of_entries rfl (hloses hl)⟩
    | some t =>
      have hl := losesKnocks_decidedIn hdec
      obtain ⟨hnone, hkeep⟩ := pairing_handleHello hdec
      exact ⟨fun ht => (hnone ht).symm ▸ hl, hkeep.of_entries (hloses hl).symm rfl⟩
  refine ⟨fun hnone => ?_, hall.2.others, hall.2.own e hent⟩
  have hl := hall.1 hnone
  obtain ⟨l, hrest⟩ := hl.rest
  refine ⟨by rw [hrest], by rw [hrest], fun hkept => ?_⟩
  cases hk : s.hub.pairing.pending.find h.instanceId with
  | none => exact hl.none _ hk
  | some k => exact hl.kept _ k hk (hkept k hk)

end

/-- A device the ledger trusts with everything. -/
def Bench.paired : PairedEntry :=
  { instanceId := Bench.client 1, token := ByteArr.zero 16, role := .configure, version := .assign [1] }

/-- The host restores the device's entry; the device is on the first link without showing its token, and knocks. -/
def Bench.knocked : List (Call Bench) :=
  [.pairing (({} : PairingManager).importEntry Bench.paired), .attachTransport 0, .attachTransport 1,
    Bench.reads 1000 0 [.hello (some (Bench.hello 1)), .pairReq (some { instanceId := Bench.client 1 })]]

/-- A stranger that claims the device's instance on the other link, without a token. -/
theorem hello_spares_ledger_knocked :
    (handleHello Bench.world Bench.config 1 (some (Bench.hello 1)) 1
        (run Bench.world Bench.config {} Bench.knocked)).hub.pairing.findByInstance (Bench.client 1) =
      some Bench.paired := by
  have hent : (run Bench.world Bench.config {} Bench.knocked).hub.pairing.findByInstance (Bench.hello 1).instanceId =
      some Bench.paired := by decide +kernel
  have hspared := hello_spares_ledger (w := Bench.world) (c := Bench.config) 1 (Bench.hello 1) 1 _ hent
  refine Eq.trans ?_ hent
  unfold PairingManager.findByInstance
  rw [(hspared.1 rfl).1]
  rfl

/-- Saying HELLO again on the same link takes the device's own knock away; a wrong token relabels its entry. -/
theorem hello_touches_ledger :
    (¬∀ s i h nowMs e, Reachable Bench.world Bench.config s →
      s.hub.pairing.findByInstance h.instanceId = some e → h.token = none →
      (handleHello Bench.world Bench.config i (some h) nowMs s).hub.pairing.pending.find h.instanceId =
        s.hub.pairing.pending.find h.instanceId) ∧
    ¬∀ s i h nowMs e, Reachable Bench.world Bench.config s →
      s.hub.pairing.findByInstance h.instanceId = some e → h.token ≠ some e.token →
      (handleHello Bench.world Bench.config i (some h) nowMs s).hub.pairing.entries = s.hub.pairing.entries := by
  have hreach : Reachable Bench.world Bench.config (run Bench.world Bench.config {} Bench.knocked) :=
    ⟨{}, Bench.knocked, rfl⟩
  have hent : (run Bench.world Bench.config {} Bench.knocked).hub.pairing.findByInstance (Bench.client 1) =
      some Bench.paired := by decide +kernel
  refine ⟨fun h => ?_, fun h => ?_⟩
  · have hsame := h _ 0 (Bench.hello 1) 2 Bench.paired hreach hent rfl
    revert hsame
    decide +kernel
  · have hsame := h _ 1 { Bench.helloWith 1 1 with clientName := [65] } 2 Bench.paired hreach hent (by decide)
    revert hsame
    decide +kernel

end SlopSync
