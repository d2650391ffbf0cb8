import SlopSync.Hub.Acts
import SlopSync.Hub.Hello
import SlopSync.Refine.Grants
import SlopSync.Refine.Pairing

/-! # Admission, as acts

A HELLO either opens a session (`Act.enrol`) or moves a stale one (`Act.migrate`, `Act.resume`).  On the way it
may end the session in its own slot, the session of the same instance, and one stale session; no other. -/

namespace SlopSync

open Keyed Labelled

/-! ## Roles -/

/-- What the ledger and, failing that, the delegate's answer give a HELLO. -/
def helloRole (p : PairingManager) (h : HelloMsg) (answer : AccessLevel) : AccessLevel :=
  if ledgerRole p h = .watch then answer else ledgerRole p h

/-- The role a session ends up with when this HELLO (re)introduces it. -/
def settledRole (p : PairingManager) (h : HelloMsg) (answer : AccessLevel) : AccessLevel :=
  if h.token.isSome then
    observedRole p (introduce h { instanceId := h.instanceId, role := helloRole p h answer })
  else helloRole p h answer

/-! A knock in the pending list is no part of anybody's trust. -/

/-- The tripwire does not look at the pending list. -/
theorem observe_pending (p : PairingManager) (l : PendingPairingList) (se : HubSession) :
    (observe { p with pending := l } se).1 = (observe p se).1 := by
  have hfind : PairingManager.findByInstance { p with pending := l } se.instanceId =
      p.findByInstance se.instanceId := rfl
  unfold observe PairingManager.observeHello
  rw [hfind]
  split <;> rfl

/-- The role a HELLO settles on does not look at the pending list. -/
theorem settledRole_pending (p : PairingManager) (l : PendingPairingList) (h : HelloMsg) (answer : AccessLevel) :
    settledRole { p with pending := l } h answer = settledRole p h answer := by
  have hrole : helloRole { p with pending := l } h answer = helloRole p h answer := rfl
  unfold settledRole observedRole
  rw [hrole, observe_pending]

/-- A session that the tripwire suspends is left with `watch`. -/
theorem observedRole_of_suspended {p : PairingManager} {se : HubSession} (h : (observe p se).1.suspended = true) :
    observedRole p se = .watch := by
  unfold observedRole
  unfold observe at h ⊢
  cases hf : p.findByInstance se.instanceId with
  | none =>
    rw [PairingManager.observeHello, hf] at h
    cases h
  | some e =>
    obtain ⟨hknown, hsus, hrole, -⟩ := PairingManager.observeHello_known hf se.clientKind.data se.clientName.data
      (if se.hasClientVer then some se.clientVer.data else none) se.presentationMode
    rw [hsus] at h
    rw [if_pos hknown, hrole, if_pos (.inr h)]

/-- Only the introduction and the role matter to the observation. -/
theorem observedRole_introduce (p : PairingManager) (h : HelloMsg) (se : HubSession) :
    observedRole p (introduce h se) = observedRole p (introduce h { instanceId := se.instanceId, role := se.role }) := by
  have hobs : observe p (introduce h se) = observe p (introduce h { instanceId := se.instanceId, role := se.role }) := by
    unfold observe introduce
    dsimp only
    cases h.trust.bind TrustMap.clientVer <;> rfl
  unfold observedRole
  rw [hobs]
  rfl

theorem observedRole_reintroduce (p : PairingManager) (h : HelloMsg) (role : AccessLevel) (sl : Slot) :
    observedRole p (reintroduce h role sl).session =
      observedRole p (introduce h { instanceId := sl.session.instanceId, role }) :=
  observedRole_introduce p h { sl.session with role }

section

variable {ε : Type} {w : World ε} {c : Config} {now : UInt32} {rx : Option SlotIdx} {P : Label → Prop}

/-- The role a HELLO is answered with is the ledger's, or that of a token the host accepts. -/
theorem validateHello_role (h : HelloMsg) (s : Sys ε) :
    (validateHello w h s).1 = helloRole s.hub.pairing h (w.validateToken h.instanceId h.token s.env).1 := by
  unfold validateHello helloRole
  dsimp only
  split <;> rfl

/-- Validating a HELLO changes nothing. -/
theorem validateHello_keeps (h : HelloMsg) (s : Sys ε) :
    (validateHello w h s).2.hub = s.hub ∧ (validateHello w h s).2.view = s.view := by
  unfold validateHello
  dsimp only
  split <;> exact ⟨rfl, rfl⟩

/-- An observation that suspends nobody only changes the ledger. -/
theorem applyTrustObservation_calm (i : SlotIdx) (nowMs : UInt32) (s : Sys ε)
    (h : (observe s.hub.pairing (s.session i)).1.suspended = false) :
    (applyTrustObservation w c i nowMs s).2 = setPairing (observe s.hub.pairing (s.session i)).2 s := by
  unfold applyTrustObservation
  dsimp only
  split
  · rfl
  · rw [h]
    rfl

/-! ## A fresh session -/

/-- The acts that open a session in slot `i`; `E`: the client has the hub's catalog. -/
def Label.Opens (i : SlotIdx) (E : Prop) : Label → Prop
  | .enrol j r => j = i ∧ (r = true → E)
  | .settle j | .live j | .knock j => j = i
  | .ledger => True
  | l => l.Grants i ∨ l.Tells

/-- Admission may take place: the slot is free, the instance has no other session, and there is room. -/
structure Room (v : View) (i : SlotIdx) (inst : InstanceId) : Prop where
  free : ¬(v.slots i).occupied
  link : (v.slots i).transport.isSome
  inst : ∀ j, j ≠ i → (v.slots j).occupied → (v.slots j).instanceId ≠ inst
  room : (v.others i).card < kHubMaxSessions

/-- The deadman granted never exceeds the limit. -/
theorem appliedDeadman_le (wish : UInt32) : appliedDeadman wish ≤ Limits.deadmanMaxMs := by
  unfold appliedDeadman
  split
  · decide
  · split
    · decide
    · split
      · exact UInt32.le_refl _
      · rename_i h
        exact UInt32.not_lt.mp h

/-- Opening a session is one `enrol` act, and needs room and an instance not in use. -/
theorem openSession_act {i : SlotIdx} {h : HelloMsg} {nowMs : UInt32} {s : Sys ε}
    (hroom : Room s.view i h.instanceId) :
    Act c nowMs (some i) (.enrol i (etagMatches c h)) s.view (openSession w c i h nowMs s).view := by
  unfold openSession
  dsimp only
  have hkeep := (validateHello_keeps (w := w) h (drawSession w s).2).2
  rw [view_modSlot, hkeep]
  have hhub := (validateHello_keeps (w := w) h (drawSession w s).2).1
  rw [hhub]
  generalize hrole : (validateHello w h (drawSession w s).2).1 = role
  refine Act.enrol i (slotView (introduceSlot h
    { s.hub.slots i with session := freshSession c h (drawSession w s).1 role nowMs })) rfl hroom.free hroom.link ?_
    hroom.inst hroom.room rfl rfl rfl rfl ?_ ⟨rfl, rfl, rfl⟩
  · exact w.draw_ne_zero s.env
  · exact appliedDeadman_le h.deadmanWishMs

/-- Nothing was granted to the slot's session yet. -/
def SlotView.Bare (v : SlotView) : Prop := v.subs = [] ∧ v.pubs = [] ∧ v.events = []

/-- Observing trust takes no bare slot's bareness away. -/
theorem observes_bare {l : Label} {v v' : View} {i j : SlotIdx} (hl : l.Observes j) (h : Act c now rx l v v')
    (hb : (v.slots i).Bare) : (v'.slots i).Bare := by
  cases h with
  | chatter q _ hq _ =>
    refine ⟨hb.1, hb.2.1, List.eq_nil_iff_forall_not_mem.mpr fun ch hch => ?_⟩
    rcases hq i ch hch with h | h
    · rw [hb.2.2] at h
      cases h
    · rw [hb.1] at h
      cases h.2
  | retain | knocks | knock | ledger => exact hb
  | _ => exact hl.elim

/-- The role of a session without grants is settled. -/
def Label.Settles (i : SlotIdx) : Label → Prop
  | .settle j => j = i
  | l => l.Observes i

/-- The role a fresh session starts from is settled before anything is sent on it. -/
theorem observeRole_settles {i : SlotIdx} (h : HelloMsg) (nowMs : UInt32) {s : Sys ε}
    (hb : (s.view.slots i).Bare) : Does c nowMs (some i) (Label.Settles i) s (observeRole w c i h nowMs s) := by
  unfold observeRole
  dsimp only
  split
  · have hobs : Does c nowMs (some i) (Label.Observes i) s (applyTrustObservation w c i nowMs s).2 :=
      applyTrustObservation_does i nowMs s
    have hb' : ((applyTrustObservation w c i nowMs s).2.view.slots i).Bare :=
      Path.invariant (I := fun v => (v.slots i).Bare) hobs (fun _ _ _ hl ha => observes_bare hl ha) hb
    refine (hobs.mono fun l hl => ?_).trans (Does.act (l := .settle i) rfl ?_)
    · cases l <;> first | exact hl | exact hl.elim
    · rw [setRole, Sys.modSession, view_modSlot]
      exact Act.settle i _ hb'
  · exact Does.refl s

/-! ## WELCOME -/

/-- Queueing the signature of a WELCOME is invisible in the view. -/
theorem view_armWelcomeSignature (i : SlotIdx) (m : WelcomeMsg) (s : Sys ε) :
    (armWelcomeSignature w i m s).2.view = s.view := by
  unfold armWelcomeSignature
  split
  · split
    · rfl
    · dsimp only
      split
      · exact view_modSlot_of_slotView rfl
      · rfl
  · rfl

/-- Sending the WELCOME is chatter. -/
theorem sendWelcome_does {i : SlotIdx} (grants : List Grant) (pubs : List GrantedPublish) (nowMs : UInt32)
    {s : Sys ε} (hlink : (s.slot i).transport.isSome) :
    Does c now rx (· = .chatter) s (sendWelcome w c i grants pubs nowMs s).2 := by
  have harm : ∀ t : Sys ε, (t.modSlot i fun sl => { sl with signPending := true }).view = t.view :=
    fun _ => view_modSlot_of_slotView rfl
  have hnonce : (freshNonce w i s).view = s.view := view_modSlot_of_slotView rfl
  unfold sendWelcome
  dsimp only
  have hpre := (view_armWelcomeSignature (w := w) i (buildWelcome w c i grants pubs nowMs (freshNonce w i s).hub)
    (freshNonce w i s)).trans hnonce
  generalize armWelcomeSignature w i (buildWelcome w c i grants pubs nowMs (freshNonce w i s).hub)
    (freshNonce w i s) = r at hpre
  obtain ⟨⟨arm, m⟩, s₁⟩ := r
  dsimp only at hpre ⊢
  split
  · exact Does.of_view hpre
  · rename_i bytes _
    have hlink₁ : (s₁.view.slots i).transport.isSome := by
      rw [hpre]
      exact hlink
    have hsend : Does c now rx (· = .chatter) s (sendFrameTo w i .welcome 0 bytes 0 s₁).2 :=
      (Does.of_view hpre).trans ((emits_sendFrameTo hlink₁ (by decide) (by decide)).does rfl)
    dsimp only
    split
    · exact hsend.trans (Does.of_view (harm _))
    · exact hsend

/-- One wish of the HELLO becomes one grant or none. -/
theorem helloSubscribeOne_does {i : SlotIdx} (wish : SubscriptionWish) (acc : List Grant × Sys ε)
    (hs : Served acc.2 i) : Does c now rx (Label.Grants i) acc.2 (helloSubscribeOne c i acc wish).2 := by
  have h : Does c now rx (Label.Grants i) acc.2 (trySubscribe c i wish acc.2).2 := trySubscribe_does wish hs.occupied
  unfold helloSubscribeOne
  split
  · rename_i hres
    rw [hres] at h
    exact h
  · rename_i hres
    rw [hres] at h
    exact h

/-- The slot's session was heard just now, on a transport. -/
structure Heard (v : View) (i : SlotIdx) (nowMs : UInt32) : Prop where
  occupied : (v.slots i).occupied
  last : (v.slots i).lastRxMs = nowMs
  link : (v.slots i).transport.isSome

theorem Heard.of_link {v v' : View} {i : SlotIdx} {nowMs : UInt32} (h : Heard v i nowMs)
    (heq : (v'.slots i).link = (v.slots i).link) : Heard v' i nowMs := by
  obtain ⟨ht, _, _, _, hlast⟩ := SlotView.link_inj heq
  refine ⟨(SlotView.occupied_of_link heq).mpr h.occupied, hlast.trans h.last, ?_⟩
  rw [ht]
  exact h.link

/-- Going LIVE is one act, of a session just heard. -/
theorem goLive_act {i : SlotIdx} {nowMs : UInt32} {s : Sys ε} (h : Heard s.view i nowMs) :
    Act c nowMs (some i) (.live i) s.view (s.modSession i fun se => { se with state := .live }).view := by
  rw [Sys.modSession, view_modSlot]
  exact Act.live i rfl h.occupied h.last h.link

/-- The wishes are granted and the WELCOME is sent; then, if it went out, the session goes live. -/
theorem welcomeSession_cases {i : SlotIdx} (h : HelloMsg) (nowMs : UInt32) {s : Sys ε}
    (hs : Served s i) : ∃ t, Does c now rx (Label.Grants i) s t ∧
      ((welcomeSession w c i h nowMs s).view = t.view ∨
        (welcomeSession w c i h nowMs s).view = (t.modSession i fun se => { se with state := .live }).view) := by
  unfold welcomeSession
  dsimp only
  have hsubs : Does c now rx (Label.Grants i) s (h.subscriptions.foldl (helloSubscribeOne c i) ([], s)).2 :=
    foldl_grants_does (fun acc b => helloSubscribeOne_does b acc) h.subscriptions ([], s) hs
  have hs₁ := hs.of_grants hsubs
  generalize h.subscriptions.foldl (helloSubscribeOne c i) ([], s) = r₁ at hsubs hs₁
  obtain ⟨grants, s₁⟩ := r₁
  dsimp only at hsubs hs₁ ⊢
  have hpubs : Does c now rx (Label.Grants i) s₁ (h.publishes.foldl (publishOne w c i nowMs) ([], s₁)).2 :=
    foldl_grants_does (fun acc b _ => publishOne_does nowMs b acc) h.publishes ([], s₁) hs₁
  have hs₂ := hs₁.of_grants hpubs
  generalize h.publishes.foldl (publishOne w c i nowMs) ([], s₁) = r₂ at hpubs hs₂
  obtain ⟨pubs, s₂⟩ := r₂
  dsimp only at hpubs hs₂ ⊢
  have hsend : Does c now rx (Label.Grants i) s₂ (sendWelcome w c i grants pubs nowMs s₂).2 :=
    (sendWelcome_does grants pubs nowMs hs₂.link).mono fun l hl => by subst hl; trivial
  refine ⟨_, (hsubs.trans hpubs).trans hsend, ?_⟩
  split
  · exact .inr (view_notify _ _ trivial)
  · exact .inl rfl

/-- The WELCOME of a fresh session: grants, publishes, and the session LIVE. -/
theorem welcomeSession_does {i : SlotIdx} (h : HelloMsg) (nowMs : UInt32) {s : Sys ε} (hh : Heard s.view i nowMs)
    {E : Prop} : Does c nowMs (some i) (Label.Opens i E) s (welcomeSession w c i h nowMs s) := by
  obtain ⟨t, hgrants, hcase⟩ : ∃ t, Does c nowMs (some i) (Label.Grants i) s t ∧ _ :=
    welcomeSession_cases (w := w) h nowMs ⟨(occupied_view s i).mp hh.occupied, hh.link⟩
  have hopens : Does c nowMs (some i) (Label.Opens i E) s t :=
    hgrants.mono fun l hl => by cases l <;> first | exact .inl hl | exact hl.elim
  rcases hcase with hv | hv
  · exact hopens.trans (Does.of_view hv)
  · have hlink := hgrants.link_eq (j := i) fun l hl => by cases l <;> first | exact trivial | exact hl.elim
    exact (hopens.trans (Does.act (l := .live i) rfl (goLive_act (hh.of_link hlink)))).trans (Does.of_view hv)

/-! ## Making room -/

/-- The session of slot `v` is gone and nothing else about the sessions changed. -/
structure Evicted (s s' : Sys ε) (v : SlotIdx) : Prop where
  gone : ¬(s'.view.slots v).occupied
  link : (s'.view.slots v).transport = (s.view.slots v).transport
  rest : ∀ j, j ≠ v → (s'.view.slots j).link = (s.view.slots j).link

/-- Tearing a session down frees its slot and no other. -/
theorem teardownSession_evicts (v : SlotIdx) (nowMs : UInt32) (s : Sys ε) :
    Evicted s (teardownSession w c v nowMs s) v := by
  have hself := slots_teardownSession (w := w) (c := c) v nowMs s v
  rw [if_pos rfl] at hself
  refine ⟨?_, ?_, fun j hj => ?_⟩
  · rw [hself]
    exact SlotView.not_occupied_cleared _
  · rw [hself]
    rfl
  · rw [slots_teardownSession, if_neg hj]
    rfl

/-! A session is ended with a GOODBYE. -/

theorem goodbye_does (v : SlotIdx) (code : NackCode) (nowMs : UInt32) (s : Sys ε) :
    Does c now rx (Label.Ends v) s (teardownSession w c v nowMs (sendGoodbye w v code s)) :=
  ((emits_sendGoodbye v code s).does trivial).trans (teardownSession_does v nowMs _)

theorem goodbye_evicts (v : SlotIdx) (code : NackCode) (nowMs : UInt32) (s : Sys ε) :
    Evicted s (teardownSession w c v nowMs (sendGoodbye w v code s)) v := by
  have hbye : Does c nowMs none (· = .chatter) s (sendGoodbye w v code s) := (emits_sendGoodbye v code s).does rfl
  have hlink : ∀ j, ((sendGoodbye w v code s).view.slots j).link = (s.view.slots j).link :=
    fun j => hbye.link_eq fun l hl => by subst hl; trivial
  have hev := teardownSession_evicts (w := w) (c := c) v nowMs (sendGoodbye w v code s)
  refine ⟨hev.gone, ?_, ?_⟩
  · exact hev.link.trans (SlotView.link_inj (hlink v)).1
  · exact fun j hj => (hev.rest j hj).trans (hlink j)

/-- The source's count of occupied slots is the number of other sessions. -/
theorem occupiedCount_eq (s : Sys ε) (i : SlotIdx) : occupiedCount s.hub i = (s.view.others i).card := by
  have hl : (allSlots.filter fun j => j ≠ i ∧ (s.hub.slots j).session.occupied = true).toFinset = s.view.others i := by
    ext j
    simp [View.others, mem_allSlots, occupied_view]
  unfold occupiedCount
  rw [← hl, List.toFinset_card_of_nodup (List.Nodup.filter _ (by decide))]

/-- There are never more of them than slots. -/
theorem others_card_le (v : View) (i : SlotIdx) : (v.others i).card ≤ kHubMaxSessions := by
  have hsub : v.others i ⊆ Finset.univ.erase i := by
    intro j hj
    have := (Finset.mem_filter.mp hj).2.1
    exact Finset.mem_erase.mpr ⟨this, Finset.mem_univ j⟩
  have := Finset.card_le_card hsub
  rw [Finset.card_erase_of_mem (Finset.mem_univ i)] at this
  exact this

/-- Ending another slot's session makes room. -/
theorem others_card_evicted {s s' : Sys ε} {i v : SlotIdx} (hev : Evicted s s' v) (hvi : v ≠ i)
    (hocc : (s.view.slots v).occupied) : (s'.view.others i).card < kHubMaxSessions := by
  have hv : v ∈ s.view.others i := Finset.mem_filter.mpr ⟨Finset.mem_univ v, hvi, hocc⟩
  have hsub : s'.view.others i ⊆ (s.view.others i).erase v := by
    intro j hj
    obtain ⟨_, hji, hoj⟩ := Finset.mem_filter.mp hj
    have hjv : j ≠ v := by
      intro h
      subst h
      exact hev.gone hoj
    refine Finset.mem_erase.mpr ⟨hjv, Finset.mem_filter.mpr ⟨Finset.mem_univ j, hji, ?_⟩⟩
    exact (SlotView.occupied_of_link (hev.rest j hjv)).mp hoj
  have hlt := Finset.card_erase_lt_of_mem hv
  have := Finset.card_le_card hsub
  have := others_card_le s.view i
  omega

/-- Ending the slot's own session does not change the number of the others. -/
theorem others_evicted_self {s s' : Sys ε} {i : SlotIdx} (hev : Evicted s s' i) :
    s'.view.others i = s.view.others i := by
  ext j
  simp only [View.others, Finset.mem_filter, Finset.mem_univ, true_and]
  constructor
  · exact fun h => ⟨h.1, (SlotView.occupied_of_link (hev.rest j h.1)).mp h.2⟩
  · exact fun h => ⟨h.1, (SlotView.occupied_of_link (hev.rest j h.1)).mpr h.2⟩

/-- Room is made by ending one STALE session, or was there already. -/
theorem makeRoom_some {i : SlotIdx} {nowMs : UInt32} {s s' : Sys ε} (h : makeRoom w c i nowMs s = some s') :
    (s'.view.others i).card < kHubMaxSessions ∧
      (s' = s ∨ ∃ v, v ≠ i ∧ (s.session v).state = .stale ∧
        s' = teardownSession w c v nowMs (sendGoodbye w v .slotReclaimed s)) := by
  unfold makeRoom at h
  split at h
  · rename_i hlt
    cases h
    rw [occupiedCount_eq] at hlt
    exact ⟨hlt, .inl rfl⟩
  · split at h
    · cases h
    · rename_i v hv
      cases h
      obtain ⟨hst, hex⟩ := findEvictableStale_some hv
      have hvi : v ≠ i := fun h => hex (congrArg some h.symm)
      refine ⟨others_card_evicted (goodbye_evicts v _ nowMs s) hvi ?_, .inr ⟨v, hvi, hst, rfl⟩⟩
      rw [occupied_view, HubSession.occupied_iff, hst]
      decide

/-! ## HELLO for a new session -/

/-- The acts of a HELLO in slot `i` that opens a session: those in `K` may end. -/
def Label.Admits (i : SlotIdx) (E : Prop) (K : SlotIdx → Prop) : Label → Prop
  | .free j => K j
  | .release j reason => K j ∧ reason = 4
  | l => l.Opens i E

/-- Opening a session is part of admitting one. -/
theorem Label.Opens.admits {l : Label} {i : SlotIdx} {E : Prop} (h : l.Opens i E) (K : SlotIdx → Prop) :
    l.Admits i E K := by
  cases l <;> first | exact h | exact h.elim False.elim False.elim

theorem Label.Ends.admits {l : Label} {v : SlotIdx} (h : l.Ends v) {i : SlotIdx} {E : Prop} {K : SlotIdx → Prop}
    (hK : K v) : l.Admits i E K := by
  cases l <;> first
    | exact .inr h | exact h.elim | exact h | exact (show _ = v from h) ▸ hK
    | exact ⟨(show _ = v from h.1) ▸ hK, h.2⟩

/-- An enrolled slot starts bare and has just been heard. -/
theorem Act.admitted {i : SlotIdx} {r : Bool} {v v' : View} (h : Act c now rx (.enrol i r) v v') :
    (v'.slots i).Bare ∧ Heard v' i now := by
  cases h with
  | enrol _ x hrx hfree ht hsid hinst hroom htr hst hlast hgr hdead hgrants =>
    have hx : (({ v.set i x with drawn := x.sessionId :: v.drawn } : View).slots i) = x := View.slots_set_self v i x
    refine ⟨by rw [hx]; exact hgrants, ?_, ?_, ?_⟩
    · rw [hx]
      unfold SlotView.occupied
      rw [hst]
      decide
    · rw [hx]
      exact hlast
    · rw [hx, htr]
      exact ht

/-- Admission whole: the session, its role, its WELCOME. -/
theorem admitSession_does {i : SlotIdx} {h : HelloMsg} (nowMs : UInt32) {s : Sys ε}
    (hroom : Room s.view i h.instanceId) :
    Does c nowMs (some i) (Label.Opens i (etagMatches c h = true)) s (admitSession w c i h nowMs s) ∧
      Heard (admitSession w c i h nowMs s).view i nowMs := by
  have hact : Act c nowMs (some i) (.enrol i (etagMatches c h)) s.view (openSession w c i h nowMs s).view :=
    openSession_act hroom
  obtain ⟨hbare, hheard⟩ := hact.admitted
  have hsettle : Does c nowMs (some i) (Label.Settles i) _ (admitSession w c i h nowMs s) :=
    observeRole_settles h nowMs hbare
  have hopen : Does c nowMs (some i) (Label.Opens i (etagMatches c h = true)) s (openSession w c i h nowMs s) :=
    Does.act (l := .enrol i (etagMatches c h)) ⟨rfl, id⟩ hact
  refine ⟨hopen.trans (hsettle.mono ?_), hheard.of_link (hsettle.link_eq ?_)⟩
  · intro l hl
    cases l <;> first | exact hl | exact .inr hl | exact hl.elim
  · intro l hl
    cases l <;> first | exact trivial | exact hl.elim

/-- A HELLO of a new session is turned away, or admitted once there is room for it. -/
theorem helloFresh_cases {i : SlotIdx} (h : HelloMsg) (nowMs : UInt32) {s : Sys ε}
    (hlink : (s.view.slots i).transport.isSome)
    (hinst : ∀ j, j ≠ i → (s.view.slots j).occupied → (s.view.slots j).instanceId ≠ h.instanceId) :
    helloFresh w c i h nowMs s =
        sendNack w i { code := .busy, retryAfterMs := some Limits.busyRetryAfterDefaultMs } s ∨
      ∃ s₁, (s₁ = s ∨ ∃ v, v ≠ i ∧ (s.session v).state = .stale ∧
          s₁ = teardownSession w c v nowMs (sendGoodbye w v .slotReclaimed s)) ∧
        Room (teardownSession w c i nowMs s₁).view i h.instanceId ∧
        helloFresh w c i h nowMs s =
          welcomeSession w c i h nowMs (admitSession w c i h nowMs (teardownSession w c i nowMs s₁)) := by
  unfold helloFresh
  split
  · exact .inl rfl
  · rename_i s₁ hmake
    obtain ⟨hcard, hcase⟩ := makeRoom_some hmake
    refine .inr ⟨s₁, hcase, ?_, rfl⟩
    -- making room leaves the transport of slot `i` and all instances
    have hmade : (s₁.view.slots i).transport = (s.view.slots i).transport ∧
        ∀ j, (s₁.view.slots j).occupied → (s.view.slots j).occupied ∧
          (s₁.view.slots j).instanceId = (s.view.slots j).instanceId := by
      rcases hcase with rfl | ⟨v, hvi, hst, rfl⟩
      · exact ⟨rfl, fun j hj => ⟨hj, rfl⟩⟩
      · have hev := goodbye_evicts (w := w) (c := c) v .slotReclaimed nowMs s
        refine ⟨(SlotView.link_inj (hev.rest i hvi.symm)).1, fun j hj => ?_⟩
        have hjv : j ≠ v := by
          intro h
          subst h
          exact hev.gone hj
        have hl := hev.rest j hjv
        exact ⟨(SlotView.occupied_of_link hl).mp hj, (SlotView.link_inj hl).2.2.2.1⟩
    obtain ⟨htr, hkeep⟩ := hmade
    have hev := teardownSession_evicts (w := w) (c := c) i nowMs s₁
    refine ⟨hev.gone, ?_, fun j hj hocc => ?_, ?_⟩
    · rw [hev.link, htr]
      exact hlink
    · have hl := hev.rest j hj
      obtain ⟨ho, hi⟩ := hkeep j ((SlotView.occupied_of_link hl).mp hocc)
      rw [(SlotView.link_inj hl).2.2.2.1, hi]
      exact hinst j hj ho
    · rw [others_evicted_self hev]
      exact hcard

/-- A HELLO that meets no session of its instance is admitted when there is room. -/
theorem helloFresh_does {i : SlotIdx} (h : HelloMsg) (nowMs : UInt32) {s : Sys ε} {K : SlotIdx → Prop}
    (hlink : (s.view.slots i).transport.isSome)
    (hinst : ∀ j, j ≠ i → (s.view.slots j).occupied → (s.view.slots j).instanceId ≠ h.instanceId)
    (hKi : K i) (hKst : ∀ v, (s.session v).state = .stale → K v) :
    Does c nowMs (some i) (Label.Admits i (etagMatches c h = true) K) s (helloFresh w c i h nowMs s) := by
  rcases helloFresh_cases (w := w) (c := c) h nowMs hlink hinst with heq | ⟨s₁, hcase, hroom, heq⟩
  · rw [heq]
    exact (emits_sendNack _ hlink).does (.inr trivial)
  · rw [heq]
    have hmade : Does c nowMs (some i) (Label.Admits i (etagMatches c h = true) K) s s₁ := by
      rcases hcase with rfl | ⟨v, -, hst, rfl⟩
      · exact Does.refl _
      · exact (goodbye_does v _ nowMs s).mono fun _ hl => hl.admits (hKst v hst)
    obtain ⟨henrol, hheard⟩ := admitSession_does (w := w) (c := c) nowMs hroom
    have htear : Does c nowMs (some i) (Label.Ends i) s₁ _ := teardownSession_does (w := w) i nowMs s₁
    refine (hmade.trans (htear.mono fun _ hl => hl.admits hKi)).trans ?_
    exact (henrol.trans (welcomeSession_does h nowMs hheard)).mono fun _ hl => hl.admits K

/-! ## HELLO for a stale session -/

/-- Migration moves the old session onto the new link and clears its former slot. -/
theorem view_migrate {i j : SlotIdx} (hij : i ≠ j) (s : Sys ε) : (migrate i j s).view =
    (s.view.set j (s.view.slots j).cleared).set i { s.view.slots j with transport := (s.view.slots i).transport } := by
  refine View.ext ?_ rfl rfl rfl rfl rfl rfl rfl rfl rfl rfl rfl rfl rfl rfl
  funext k
  show slotView (if k = i then migrateInto (s.hub.slots j) (s.hub.slots i)
    else if k = j then vacate (s.hub.slots j) else s.hub.slots k) = _
  by_cases hki : k = i
  · subst hki
    rw [if_pos rfl, View.slots_set_self]
    rfl
  · rw [if_neg hki, View.slots_set_ne _ hki]
    by_cases hkj : k = j
    · subst hkj
      rw [if_pos rfl, View.slots_set_self]
      rfl
    · rw [if_neg hkj, View.slots_set_ne _ hkj]
      rfl

/-- The acts of a HELLO that brings the stale session of slot `j` back, in slot `i`, with a role of `R`. -/
def Label.Reattaches (i j : SlotIdx) (R : AccessLevel → Prop) : Label → Prop
  | .free k => k = i
  | .detach k => k = j
  | .migrate a b => a = i ∧ b = j
  | .resume a r => a = i ∧ R r
  | .live a | .knock a => a = i
  | .release k reason => k = i ∧ reason = 4
  | .ledger => True
  | l => l.Tells

/-- Taking over a STALE session keeps its id and its role. -/
theorem takeOver_does {i j : SlotIdx} (nowMs : UInt32) {s : Sys ε} (R : AccessLevel → Prop)
    (hij : i ≠ j) (hst : (s.session j).state = .stale) (hlink : (s.view.slots i).transport.isSome) :
    Does c nowMs (some i) (Label.Reattaches i j R) s (takeOver w c i j nowMs s) := by
  have hev := teardownSession_evicts (w := w) (c := c) i nowMs s
  have hj := SlotView.link_inj (hev.rest j hij.symm)
  have hstale : ((teardownSession w c i nowMs s).view.slots j).state = .stale := hj.2.1.trans hst
  have htear : Does c nowMs (some i) (Label.Ends i) s (teardownSession w c i nowMs s) := teardownSession_does i nowMs s
  have hclose : Does c nowMs (some i) (Label.Reattaches i j R) (teardownSession w c i nowMs s)
      (closeSlot w j (teardownSession w c i nowMs s)) := closeSlot_does rfl fun _ => hstale
  refine ((htear.mono fun l hl => ?_).trans hclose).trans (Does.act (l := .migrate i j) ⟨rfl, rfl⟩ ?_)
  · cases l <;> first | exact hl | exact hl.elim
  have hi : (closeSlot w j (teardownSession w c i nowMs s)).view.slots i =
      (teardownSession w c i nowMs s).view.slots i := by rw [view_closeSlot, View.slots_set_ne _ hij]
  have hjc : (closeSlot w j (teardownSession w c i nowMs s)).view.slots j =
      { (teardownSession w c i nowMs s).view.slots j with transport := none } := by
    rw [view_closeSlot, View.slots_set_self]
  rw [takeOver, view_migrate hij]
  refine Act.migrate i j rfl hij ?_ ?_ ?_ ?_
  · rw [hi]
    exact hev.gone
  · rw [hi, hev.link]
    exact hlink
  · rw [hjc]
    exact hstale
  · rw [hjc]

/-- The acts of a resumption. -/
def Label.Resumes (i : SlotIdx) (R : AccessLevel → Prop) : Label → Prop
  | .resume j r => j = i ∧ R r
  | l => l.Observes i

/-- What the HELLO says of itself changes the role alone, as far as the view goes. -/
theorem slotView_reintroduce (h : HelloMsg) (role : AccessLevel) (sl : Slot) :
    slotView (reintroduce h role sl) = { slotView sl with role } := rfl

/-- Resuming clears what the session had learnt of the catalog, and stamps it as heard. -/
theorem slotView_resumeSession (h : HelloMsg) (nowMs : UInt32) (sl : Slot) :
    slotView { sl with session := resumeSession c h nowMs sl.session } =
      if etagMatches c h then { slotView sl with lastRxMs := nowMs }
      else { slotView sl with ready := false, grantedAtMs := nowMs, lastRxMs := nowMs } := by
  unfold resumeSession
  dsimp only
  split <;> rfl

/-- A session that is stale resumes with the role `f` gives it. -/
theorem resumeSession_act {i : SlotIdx} {h : HelloMsg} {nowMs : UInt32} {role : AccessLevel} {f : Slot → Slot}
    {s : Sys ε} (hst : (s.session i).state = .stale)
    (hf : slotView (f (s.slot i)) = { slotView (s.slot i) with role }) :
    Act c nowMs (some i) (.resume i role) s.view ((s.modSlot i f).modSession i (resumeSession c h nowMs)).view := by
  rw [Sys.modSession, Sys.modSlot_modSlot, view_modSlot, slotView_resumeSession, hf]
  split
  · exact Act.resume i role (s.session i).ready (s.session i).grantedAtMs nowMs rfl hst (.inl ⟨rfl, rfl⟩) (.inr rfl)
  · exact Act.resume i role false nowMs nowMs rfl hst (.inr ⟨rfl, rfl⟩) (.inr rfl)

/-- A resumption that nobody objects to gives the observed role at once. -/
theorem resume_calm {i : SlotIdx} {h : HelloMsg} {nowMs : UInt32} {role : AccessLevel} {s t : Sys ε}
    (hst : (s.session i).state = .stale) (ht : t = s.modSlot i (reintroduce h role))
    (hcalm : (observe t.hub.pairing (t.session i)).1.suspended = false) (r : AccessLevel) :
    Does c nowMs (some i) (Label.Resumes i (· = r)) s
      ((setRole i r (applyTrustObservation w c i nowMs t).2).modSession i (resumeSession c h nowMs)) := by
  rw [applyTrustObservation_calm i nowMs t hcalm]
  have hkeeps : s.hub.pairing.Keeps (observe t.hub.pairing (t.session i)).2 := by
    have hpair : t.hub.pairing = s.hub.pairing := by rw [ht, Sys.pairing_modSlot]
    rw [hpair]
    exact PairingManager.keeps_observeHello _ _ _ _ _ _
  generalize (observe t.hub.pairing (t.session i)).2 = p at hkeeps
  have hledger : Does c nowMs (some i) (Label.Resumes i (· = r)) s (setPairing p s) := setPairing_does hkeeps trivial
  have hcomm : setPairing p t = (setPairing p s).modSlot i (reintroduce h role) := by
    rw [ht]
    rfl
  have hrole : setRole i r ((setPairing p s).modSlot i (reintroduce h role)) = (setPairing p s).modSlot i fun sl =>
      { reintroduce h role sl with session := { (reintroduce h role sl).session with role := r } } :=
    by rw [setRole, Sys.modSession]; exact Sys.modSlot_modSlot ..
  rw [hcomm, hrole]
  exact hledger.trans (Does.act (l := .resume i r) ⟨rfl, rfl⟩ (resumeSession_act hst rfl))

/-- A resumption that is suspended: everyone is told while the session has the role it came with, and it is left with
`watch`. -/
theorem resume_suspended {i : SlotIdx} {h : HelloMsg} {nowMs : UInt32} {role : AccessLevel} {s t : Sys ε}
    (hst : (s.session i).state = .stale) (ht : t = s.modSlot i (reintroduce h role)) :
    Does c nowMs (some i) (Label.Resumes i (AccessLevel.watch ≤ ·)) s
      ((setRole i .watch (applyTrustObservation w c i nowMs t).2).modSession i (resumeSession c h nowMs)) := by
  have hrole : Does c nowMs (some i) (Label.Resumes i (AccessLevel.watch ≤ ·)) s t := by
    refine Does.act (l := .resume i role) ⟨rfl, AccessLevel.watch_le role⟩ ?_
    rw [ht, view_modSlot, slotView_reintroduce]
    exact Act.resume i role (s.session i).ready (s.session i).grantedAtMs (s.session i).lastRxMs rfl hst
      (.inl ⟨rfl, rfl⟩) (.inl rfl)
  have hobserved : Does c nowMs (some i) (Label.Observes i) t (applyTrustObservation w c i nowMs t).2 :=
    applyTrustObservation_does i nowMs t
  have hlink := SlotView.link_inj (hobserved.link_eq (j := i) fun l hl => hl.keeps i)
  have hstale : ((applyTrustObservation w c i nowMs t).2.session i).state = .stale := by
    refine hlink.2.1.trans ?_
    show (t.slot i).session.state = .stale
    rw [ht, Sys.slot, Sys.slot_modSlot_self]
    exact hst
  refine (hrole.trans (hobserved.mono fun l hl => ?_)).trans
    (Does.act (l := .resume i .watch) ⟨rfl, AccessLevel.le_refl _⟩ (resumeSession_act hstale rfl))
  cases l <;> first | exact hl | exact hl.elim

/-- Resuming settles the role, and then clears `ready` where the etag does not match. -/
theorem resume_does {i : SlotIdx} {h : HelloMsg} (nowMs : UInt32) {s : Sys ε} (hst : (s.session i).state = .stale)
    (hinst : (s.session i).instanceId = h.instanceId) :
    Does c nowMs (some i) (Label.Resumes i fun r => settledRole s.hub.pairing h
      (w.validateToken h.instanceId h.token s.env).1 ≤ r) s (resume w c i h nowMs s) := by
  unfold resume settledRole
  dsimp only
  have hrole := validateHello_role (w := w) h s
  obtain ⟨hhub, hview⟩ := validateHello_keeps (w := w) h s
  generalize validateHello w h s = r at hrole hhub hview
  obtain ⟨role, s₁⟩ := r
  dsimp only at hrole hhub hview ⊢
  have hsi : s₁.session i = s.session i := by rw [Sys.session, hhub]
  rw [← hrole, ← hhub]
  have hst₁ : (s₁.session i).state = .stale := hsi ▸ hst
  refine (Does.of_view hview).trans ?_
  obtain ⟨t, ht⟩ : ∃ t, t = s₁.modSlot i (reintroduce h role) := ⟨_, rfl⟩
  rw [← ht]
  have hslot : t.slot i = reintroduce h role (s₁.slot i) := by rw [ht, Sys.slot, Sys.slot_modSlot_self]
  have hpair : t.hub.pairing = s₁.hub.pairing := by rw [ht, Sys.pairing_modSlot]
  have hobs : observedRole t.hub.pairing (t.session i) =
      observedRole s₁.hub.pairing (introduce h { instanceId := h.instanceId, role }) := by
    have hsess : t.session i = (reintroduce h role (s₁.slot i)).session := congrArg Slot.session hslot
    rw [hsess, hpair, observedRole_reintroduce]
    exact congrArg (fun x => observedRole s₁.hub.pairing (introduce h { instanceId := x, role }))
      ((congrArg HubSession.instanceId hsi).trans hinst)
  unfold observeRole
  dsimp only
  split
  · rw [applyTrustObservation_role, hobs]
    cases hsus : (observe t.hub.pairing (t.session i)).1.suspended with
    | true =>
      have hwatch := observedRole_of_suspended hsus
      rw [hobs] at hwatch
      rw [hwatch]
      exact resume_suspended hst₁ ht
    | false =>
      refine (resume_calm hst₁ ht hsus _).mono fun l hl => ?_
      cases l <;> first | exact hl | exact ⟨hl.1, hl.2 ▸ AccessLevel.le_refl _⟩
  · rw [ht]
    exact Does.act (l := .resume i role) ⟨rfl, AccessLevel.le_refl _⟩ (resumeSession_act hst₁ rfl)

/-- Observing a role touches no link. -/
theorem observeRole_link (i : SlotIdx) (h : HelloMsg) (nowMs : UInt32) (s : Sys ε) (j : SlotIdx) :
    ((observeRole w c i h nowMs s).view.slots j).link = (s.view.slots j).link := by
  unfold observeRole
  dsimp only
  split
  · have hobs : Does c nowMs (some i) (Label.Observes i) s (applyTrustObservation w c i nowMs s).2 :=
      applyTrustObservation_does i nowMs s
    have hlink := hobs.link_eq (j := j) fun l hl => hl.keeps j
    rw [← hlink, setRole, Sys.modSession, view_modSlot]
    exact link_set fun h => by subst h; rfl
  · rfl

/-- A resumed session was heard just now. -/
theorem resume_heard {i : SlotIdx} (h : HelloMsg) (nowMs : UInt32) {s : Sys ε} (hst : (s.session i).state = .stale)
    (hlink : (s.view.slots i).transport.isSome) : Heard (resume w c i h nowMs s).view i nowMs := by
  unfold resume
  dsimp only
  obtain ⟨hhub, hview⟩ := validateHello_keeps (w := w) h s
  generalize validateHello w h s = r at hhub hview
  obtain ⟨role, s₁⟩ := r
  dsimp only at hhub hview ⊢
  have hlink₁ := SlotView.link_inj (observeRole_link (w := w) (c := c) i h nowMs (s₁.modSlot i (reintroduce h role)) i)
  rw [view_modSlot, View.slots_set_self, slotView_reintroduce, hhub] at hlink₁
  generalize observeRole w c i h nowMs (s₁.modSlot i (reintroduce h role)) = t at hlink₁
  have hview : (t.modSession i (resumeSession c h nowMs)).view.slots i = if etagMatches c h then
      { slotView (t.slot i) with lastRxMs := nowMs }
      else { slotView (t.slot i) with ready := false, grantedAtMs := nowMs, lastRxMs := nowMs } := by
    rw [Sys.modSession, view_modSlot, View.slots_set_self, slotView_resumeSession]
  have hst' : (slotView (t.slot i)).state = .stale := hlink₁.2.1.trans hst
  have hlink' : (slotView (t.slot i)).transport.isSome := hlink₁.1 ▸ hlink
  constructor
  all_goals
    rw [hview]
    split
  · exact occupied_stale hst'
  · exact occupied_stale hst'
  · rfl
  · rfl
  · exact hlink'
  · exact hlink'

/-- Rearming pushes keeps the subscriptions. -/
theorem channels_rearmPushes (t : SubscriptionTable) : (rearmPushes t).channels = t.channels := by
  simp [SubscriptionTable.channels, rearmPushes, List.map_map, Function.comp_def]

/-- The WELCOME is sent; then, if it went out, the session goes live and everyone is told. -/
theorem welcomeBack_cases {i : SlotIdx} (nowMs : UInt32) {s : Sys ε} (hlink : (s.slot i).transport.isSome) :
    ∃ t, Does c now rx (· = .chatter) s t ∧
    ((welcomeBack w c i nowMs s).view = t.view ∨ Does c now rx (· = .chatter)
      (t.modSession i fun se => { se with state := .live }) (welcomeBack w c i nowMs s)) := by
  unfold welcomeBack
  dsimp only
  have hrearm : (s.modSession i fun se => { se with subs := rearmPushes se.subs }).view = s.view := by
    refine view_modSlot_of_slotView ?_
    simp only [slotView, channels_rearmPushes]
  have hlink₁ : ((s.modSession i fun se => { se with subs := rearmPushes se.subs }).view.slots i).transport.isSome := by
    rw [hrearm]
    exact hlink
  generalize (s.modSession i fun se => { se with subs := rearmPushes se.subs }) = s₁ at hrearm hlink₁
  generalize ((s₁.session i).subs.entries.map grantOf).take kWelcomeMaxGrants = grants
  generalize ((s₁.session i).publishGrants.grants.map grantedPublishOf).take kWelcomeMaxGrantedPublishes = pubs
  have hsend : Does c now rx (· = .chatter) s (sendWelcome w c i grants pubs nowMs s₁).2 :=
    (Does.of_view hrearm).trans (sendWelcome_does grants pubs nowMs hlink₁)
  generalize sendWelcome w c i grants pubs nowMs s₁ = r at hsend
  obtain ⟨ok, s₂⟩ := r
  dsimp only at hsend ⊢
  refine ⟨s₂, hsend, ?_⟩
  split
  · exact .inr ((emits_emitSessionEvent _ _ _ _).does rfl)
  · exact .inl rfl

/-- The WELCOME of a resumed session is chatter until it goes LIVE. -/
theorem welcomeBack_does {i : SlotIdx} {nowMs : UInt32} {s : Sys ε} (hh : Heard s.view i nowMs) :
    Does c nowMs (some i) (fun l => l = .chatter ∨ l = .live i) s (welcomeBack w c i nowMs s) := by
  obtain ⟨t, hsend, hcase⟩ : ∃ t, Does c nowMs (some i) (· = .chatter) s t ∧ _ :=
    welcomeBack_cases (w := w) nowMs hh.link
  have hmono := hsend.mono (Q := fun l => l = .chatter ∨ l = .live i) fun _ => .inl
  rcases hcase with hv | htell
  · exact hmono.trans (Does.of_view hv)
  · have hlink := hsend.link_eq (j := i) fun l hl => by subst hl; trivial
    exact (hmono.trans (Does.act (l := .live i) (.inr rfl) (goLive_act (hh.of_link hlink)))).trans
      (htell.mono fun _ => .inl)

/-- What the moved session looks like. -/
theorem takeOver_slot {i j : SlotIdx} (nowMs : UInt32) (s : Sys ε) (hij : i ≠ j) :
    ((takeOver w c i j nowMs s).view.slots i).link =
      ((s.view.slots i).transport, ((s.view.slots j).link).2) := by
  have hev := teardownSession_evicts (w := w) (c := c) i nowMs s
  have hj := SlotView.link_inj (hev.rest j hij.symm)
  rw [takeOver, view_migrate hij, View.slots_set_self, view_closeSlot, View.slots_set_self, View.slots_set_ne _ hij]
  simp only [SlotView.link, hev.link, hj]

/-- Ending a session drops knocks and touches nothing else of the ledger. -/
theorem pairing_of_ends {i : SlotIdx} {s s' : Sys ε} (h : Does c now rx (Label.Ends i) s s') :
    ∃ l, s'.hub.pairing = { s.hub.pairing with pending := l } := by
  refine Path.invariant h (I := fun v => ∃ l, v.pairing = { s.hub.pairing with pending := l }) ?_ ⟨_, rfl⟩
  intro l v v' hl ha hv
  cases ha with
  | knocks l =>
    obtain ⟨_, hp⟩ := hv
    exact ⟨l, by rw [hp]⟩
  | chatter | free | release | retain => exact hv
  | _ => exact hl.elim

/-- A takeover changes nothing of the ledger but the pending list. -/
theorem pairing_takeOver (i j : SlotIdx) (nowMs : UInt32) (s : Sys ε) :
    ∃ l, (takeOver w c i j nowMs s).hub.pairing = { s.hub.pairing with pending := l } := by
  have htear : Does c nowMs none (Label.Ends i) s (teardownSession w c i nowMs s) := teardownSession_does i nowMs s
  obtain ⟨l, hl⟩ := pairing_of_ends htear
  refine ⟨l, ?_⟩
  have hclose : (closeSlot w j (teardownSession w c i nowMs s)).hub.pairing =
      (teardownSession w c i nowMs s).hub.pairing := congrArg View.pairing (view_closeSlot (w := w) j _)
  exact hclose.trans hl

/-- What the delegate answers when a reattaching HELLO is validated. -/
def reattachAnswer (w : World ε) (c : Config) (i j : SlotIdx) (h : HelloMsg) (nowMs : UInt32) (s : Sys ε) :
    AccessLevel :=
  (w.validateToken h.instanceId h.token (takeOver w c i j nowMs s).env).1

/-- `handleReattach` whole. -/
theorem handleReattach_does {i j : SlotIdx} {h : HelloMsg} (nowMs : UInt32) {s : Sys ε} (hij : i ≠ j)
    (hst : (s.session j).state = .stale) (hinst : (s.session j).instanceId = h.instanceId)
    (hlink : (s.view.slots i).transport.isSome) :
    Does c nowMs (some i) (Label.Reattaches i j fun r =>
      settledRole s.hub.pairing h (reattachAnswer w c i j h nowMs s) ≤ r) s (handleReattach w c i j h nowMs s) := by
  have hslot := SlotView.link_inj (y := { s.view.slots j with transport := (s.view.slots i).transport })
    (takeOver_slot (w := w) (c := c) nowMs s hij)
  obtain ⟨l, hp⟩ := pairing_takeOver (w := w) (c := c) i j nowMs s
  have hst' : ((takeOver w c i j nowMs s).session i).state = .stale := hslot.2.1.trans hst
  have hres : Does c nowMs (some i) _ (takeOver w c i j nowMs s) _ :=
    resume_does (w := w) (h := h) nowMs hst' (hslot.2.2.2.1.trans hinst)
  rw [hp, settledRole_pending] at hres
  have hlink' : ((takeOver w c i j nowMs s).view.slots i).transport.isSome := by
    rw [hslot.1]
    exact hlink
  have hheard : Heard (resume w c i h nowMs (takeOver w c i j nowMs s)).view i nowMs := resume_heard h nowMs hst' hlink'
  refine ((takeOver_does nowMs _ hij hst hlink).trans (hres.mono fun l hl => ?_)).trans
    ((welcomeBack_does hheard).mono fun l hl => ?_)
  · cases l <;> first | exact hl | exact hl.elim
  · rcases hl with rfl | rfl
    · exact trivial
    · rfl

/-! ## HELLO -/

/-- The sessions a HELLO in slot `i` may end or move. -/
def Yields (s : Sys ε) (i : SlotIdx) (inst : InstanceId) (v : SlotIdx) : Prop :=
  v = i ∨ (s.session v).state = .stale ∨ ((s.session v).occupied = true ∧ (s.session v).instanceId = inst)

/-- The HELLO in slot `i` is of the stale session of slot `j`. -/
def Rejoins (s : Sys ε) (i : SlotIdx) (h : HelloMsg) (j : SlotIdx) : Prop :=
  findSlotByInstance s.hub h.instanceId i = some j ∧ (s.session j).state = .stale

/-- A slot found by instance is another one, occupied by a session of that instance. -/
theorem findSlotByInstance_some {h : Hub} {inst : InstanceId} {i j : SlotIdx}
    (hf : findSlotByInstance h inst i = some j) :
    j ≠ i ∧ (h.slots j).session.occupied = true ∧ (h.slots j).session.instanceId = inst := by
  have hj := List.find?_some hf
  simp only [Bool.and_eq_true, decide_eq_true_eq, beq_iff_eq] at hj
  exact ⟨hj.1.1, hj.1.2, hj.2⟩

/-- When none is found, no other session has that instance. -/
theorem findSlotByInstance_none {h : Hub} {inst : InstanceId} {i : SlotIdx} (hf : findSlotByInstance h inst i = none)
    (j : SlotIdx) (hj : j ≠ i) (hocc : (h.slots j).session.occupied = true) : (h.slots j).session.instanceId ≠ inst := by
  have hn := List.find?_eq_none.mp hf j (mem_allSlots j)
  simp only [Bool.and_eq_true, decide_eq_true_eq, beq_iff_eq, not_and] at hn
  exact hn ⟨hj, hocc⟩

/-- A HELLO that rejoins a STALE session resumes it. -/
theorem handleHello_reattaches {i j : SlotIdx} {h : HelloMsg} (nowMs : UInt32) {s : Sys ε}
    (hlink : (s.view.slots i).transport.isSome) (hj : Rejoins s i h j) :
    Does c nowMs (some i) (Label.Reattaches i j fun r =>
      settledRole s.hub.pairing h (reattachAnswer w c i j h nowMs s) ≤ r) s (handleHello w c i (some h) nowMs s) := by
  obtain ⟨hji, -, hinst⟩ := findSlotByInstance_some hj.1
  unfold handleHello
  dsimp only
  rw [hj.1]
  dsimp only
  rw [if_pos hj.2]
  exact handleReattach_does nowMs hji.symm hj.2 hinst hlink

/-- A HELLO that rejoins no session is one for a new session, once an older session of its instance has ended. -/
theorem handleHello_fresh {i : SlotIdx} {h : HelloMsg} (nowMs : UInt32) {s : Sys ε} (hd : s.view.Distinct)
    (hlink : (s.view.slots i).transport.isSome) (hno : ∀ j, ¬Rejoins s i h j) :
    ∃ s₁, (s₁ = s ∨ ∃ j, j ≠ i ∧ (s.session j).occupied = true ∧ (s.session j).instanceId = h.instanceId ∧
        s₁ = teardownSession w c j nowMs (sendGoodbye w j .duplicateInstance s)) ∧
      (s₁.view.slots i).transport.isSome ∧
      (∀ j, j ≠ i → (s₁.view.slots j).occupied → (s₁.view.slots j).instanceId ≠ h.instanceId) ∧
      (∀ v, (s₁.session v).state = .stale → (s.session v).state = .stale) ∧
      handleHello w c i (some h) nowMs s = helloFresh w c i h nowMs s₁ := by
  unfold handleHello
  dsimp only
  split
  · rename_i hnone
    exact ⟨s, .inl rfl, hlink, fun j hj hocc => findSlotByInstance_none hnone j hj ((occupied_view s j).mp hocc),
      fun _ hv => hv, rfl⟩
  · rename_i j hj
    obtain ⟨hji, hocc, hinst⟩ := findSlotByInstance_some hj
    rw [if_neg fun hst => hno j ⟨hj, hst⟩]
    -- the older session of the instance is ended first
    have hev := goodbye_evicts (w := w) (c := c) j .duplicateInstance nowMs s
    refine ⟨_, .inr ⟨j, hji, hocc, hinst, rfl⟩, ?_, fun k hk hoc => ?_, fun v hv => ?_, rfl⟩
    · rw [(SlotView.link_inj (hev.rest i hji.symm)).1]
      exact hlink
    · have hkj : k ≠ j := by
        intro he
        subst he
        exact hev.gone hoc
      have hl := hev.rest k hkj
      rw [(SlotView.link_inj hl).2.2.2.1, ← hinst]
      exact hd k j hkj ((SlotView.occupied_of_link hl).mp hoc) ((occupied_view s j).mpr hocc)
    · have hvj : v ≠ j := by
        intro he
        subst he
        refine hev.gone ?_
        rw [occupied_view, HubSession.occupied_iff, hv]
        decide
      exact (SlotView.link_inj (hev.rest v hvj)).2.1.symm.trans hv

/-- Any other HELLO admits a session, or refuses. -/
theorem handleHello_admits {i : SlotIdx} {h : HelloMsg} (nowMs : UInt32) {s : Sys ε} (hd : s.view.Distinct)
    (hlink : (s.view.slots i).transport.isSome) (hno : ∀ j, ¬Rejoins s i h j) :
    Does c nowMs (some i) (Label.Admits i (etagMatches c h = true) (Yields s i h.instanceId)) s
      (handleHello w c i (some h) nowMs s) := by
  obtain ⟨s₁, hcase, hlink₁, hinst, hstale, heq⟩ := handleHello_fresh (w := w) (c := c) nowMs hd hlink hno
  rw [heq]
  have hended : Does c nowMs (some i) (Label.Admits i (etagMatches c h = true) (Yields s i h.instanceId)) s s₁ := by
    rcases hcase with rfl | ⟨j, -, hocc, hsame, rfl⟩
    · exact Does.refl _
    · exact (goodbye_does (w := w) j .duplicateInstance nowMs s).mono fun _ hl => hl.admits (.inr (.inr ⟨hocc, hsame⟩))
  exact hended.trans (helloFresh_does h nowMs hlink₁ hinst (.inl rfl) fun v hv => .inr (.inl (hstale v hv)))

end

end SlopSync
