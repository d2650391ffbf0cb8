import SlopSync.Hub.Bench
import SlopSync.Laws.Ledger

/-! # What a HELLO's credentials are worth

The role a HELLO ends up with (`role_handleHello`), and when that role is backed by a credential. -/

namespace SlopSync

open Keyed Labelled

section

variable {ε : Type} {w : World ε} {c : Config} {now : UInt32} {rx : Option SlotIdx} {s t : Sys ε}

/-! ## The role of the resulting session -/

/-- The version the HELLO reports, as it is kept. -/
def reportedVer (h : HelloMsg) : Option Bytes :=
  (h.trust.bind TrustMap.clientVer).map fun v => (BoundedString.assign v : VersionStr).data

/-- What the delegate says to the HELLO, if it is asked. -/
def delegateAnswer (w : World ε) (h : HelloMsg) (s : Sys ε) : AccessLevel := (w.validateToken h.instanceId h.token s.env).1

theorem role_observeRole (i : SlotIdx) (h : HelloMsg) (nowMs : UInt32) (s : Sys ε) :
    ((observeRole w c i h nowMs s).session i).role =
      if h.token.isSome then observedRole s.hub.pairing (s.session i) else (s.session i).role := by
  unfold observeRole
  dsimp only
  split
  · rw [setRole, Sys.session_modSession, applyTrustObservation_role]
  · rfl

theorem role_admitSession (i : SlotIdx) (h : HelloMsg) (nowMs : UInt32) (s : Sys ε) :
    ((admitSession w c i h nowMs s).session i).role =
      settledRole s.hub.pairing h (delegateAnswer w h (drawSession w s).2) := by
  have hrole := validateHello_role (w := w) h (drawSession w s).2
  have hhub := (validateHello_keeps (w := w) h (drawSession w s).2).1
  have hsess : (openSession w c i h nowMs s).session i =
      freshSession c h (drawSession w s).1 (validateHello w h (drawSession w s).2).1 nowMs := by
    unfold openSession
    dsimp only
    rw [Sys.session, Sys.slot_modSlot_self]
    rfl
  have hpair : (openSession w c i h nowMs s).hub.pairing = s.hub.pairing := by
    unfold openSession
    dsimp only
    rw [Sys.pairing_modSlot, hhub]
    rfl
  rw [admitSession, role_observeRole, hsess, hpair, hrole]
  unfold settledRole freshSession
  split
  · exact observedRole_introduce s.hub.pairing h _
  · rfl

theorem role_resume (i : SlotIdx) (h : HelloMsg) (nowMs : UInt32) (s : Sys ε)
    (hinst : (s.session i).instanceId = h.instanceId) :
    ((resume w c i h nowMs s).session i).role = settledRole s.hub.pairing h (delegateAnswer w h s) := by
  have hrole := validateHello_role (w := w) h s
  have hhub := (validateHello_keeps (w := w) h s).1
  have hkeeps : ∀ se : HubSession, (resumeSession c h nowMs se).role = se.role := by
    intro se
    unfold resumeSession
    dsimp only
    split <;> rfl
  unfold resume
  dsimp only
  rw [Sys.session_modSession, hkeeps, role_observeRole, Sys.session, Sys.slot_modSlot_self, Sys.pairing_modSlot, hhub,
    hrole]
  unfold settledRole
  split
  · refine (observedRole_reintroduce s.hub.pairing h _ _).trans ?_
    rw [show (s.hub.slots i).session.instanceId = h.instanceId from hinst]
    rfl
  · rfl

/-- **The role of the session a HELLO leaves behind.** -/
theorem role_handleHello {i : SlotIdx} {h : HelloMsg} {nowMs : UInt32} (hdec : decidedIn w c i h nowMs s = some t) :
    ((handleHello w c i (some h) nowMs s).session i).role = settledRole t.hub.pairing h (delegateAnswer w h t) := by
  refine handleHello_decided (P := fun u => (u.session i).role = settledRole t.hub.pairing h (delegateAnswer w h t))
    hdec ?_ fun hinst => ?_
  · rintro a b hb rfl
    unfold helloFresh
    rw [hb]
    dsimp only
    rw [(welcomeSession_sameTrust i h nowMs _).role, role_admitSession]
    rfl
  · rw [(welcomeBack_sameTrust i nowMs _).role]
    exact role_resume i h nowMs t hinst

/-! ## Credentials -/

/-- The role has a credential behind it: the delegate was asked and answered it, or the ledger has it for a trusted
entry of this instance with this very token. -/
def Backed (p : PairingManager) (h : HelloMsg) (answer role : AccessLevel) : Prop :=
  (ledgerRole p h = .watch ∧ answer = role) ∨
    ∃ e, p.findByInstance h.instanceId = some e ∧ e.state = .trusted ∧ h.token = some e.token ∧ e.role = role

/-- A wrong token is presented for a trusted device that has more than `watch`, does not get itself suspended by the
version it reports, and is not vouched for by the delegate. -/
def Impostor (p : PairingManager) (h : HelloMsg) (answer : AccessLevel) : Prop :=
  ∃ tok e, h.token = some tok ∧ p.findByInstance h.instanceId = some e ∧ e.token ≠ tok ∧ e.state = .trusted ∧
    p.suspends e (reportedVer h) = false ∧ .watch < e.role ∧ answer ≠ e.role

theorem observedRole_unknown {p : PairingManager} {se : HubSession} (hf : p.findByInstance se.instanceId = none) :
    observedRole p se = se.role := by
  unfold observedRole observe PairingManager.observeHello
  rw [hf]
  rfl

theorem observedRole_entry {p : PairingManager} {se : HubSession} {e : PairedEntry} {ver : Option Bytes}
    (hf : p.findByInstance se.instanceId = some e)
    (hver : (if se.hasClientVer then some se.clientVer.data else none) = ver) :
    observedRole p se = if e.state = .recognizedPending ∨ p.suspends e ver = true then .watch else e.role := by
  subst hver
  obtain ⟨hknown, -, hrole, -⟩ := PairingManager.observeHello_known hf se.clientKind.data se.clientName.data
    (if se.hasClientVer then some se.clientVer.data else none) se.presentationMode
  unfold observedRole observe
  rw [if_pos hknown]
  exact hrole

theorem observedRole_known {p : PairingManager} {h : HelloMsg} {role : AccessLevel} {e : PairedEntry}
    (hf : p.findByInstance h.instanceId = some e) :
    observedRole p (introduce h { instanceId := h.instanceId, role }) =
      if e.state = .recognizedPending ∨ p.suspends e (reportedVer h) = true then .watch else e.role := by
  refine observedRole_entry hf ?_
  unfold introduce reportedVer
  dsimp only
  cases h.trust.bind TrustMap.clientVer <;> rfl

theorem ledgerRole_wrong {p : PairingManager} {h : HelloMsg} {tok : Token} {e : PairedEntry} (htok : h.token = some tok)
    (hf : p.findByInstance h.instanceId = some e) (hne : e.token ≠ tok) : ledgerRole p h = .watch := by
  unfold ledgerRole PairingManager.validate
  rw [htok]
  dsimp only
  rw [hf]
  dsimp only
  rw [if_pos hne]

/-- A role that the ledger did not give is the delegate's. -/
theorem backed_helloRole {p : PairingManager} {h : HelloMsg} {answer : AccessLevel} (hl : ledgerRole p h = .watch) :
    Backed p h answer (helloRole p h answer) := .inl ⟨hl, by rw [helloRole, if_pos hl]⟩

/-- A settled role above `watch` is backed, unless the HELLO is an impostor's. -/
theorem backed_iff (p : PairingManager) (h : HelloMsg) (answer : AccessLevel) :
    (.watch < settledRole p h answer → Backed p h answer (settledRole p h answer)) ↔ ¬Impostor p h answer := by
  cases htok : h.token with
  | none =>
    have hl : ledgerRole p h = .watch := by rw [ledgerRole, htok]
    have hset : settledRole p h answer = helloRole p h answer := by rw [settledRole, htok]; rfl
    rw [hset]
    refine iff_of_true (fun _ => backed_helloRole hl) ?_
    rintro ⟨tok, e, ht, -⟩
    rw [htok] at ht
    cases ht
  | some tok =>
    have hset : settledRole p h answer =
        observedRole p (introduce h { instanceId := h.instanceId, role := helloRole p h answer }) := by
      rw [settledRole, htok]
      rfl
    cases hf : p.findByInstance h.instanceId with
    | none =>
      have hl : ledgerRole p h = .watch := by
        rw [ledgerRole, htok]
        dsimp only
        rw [PairingManager.validate, hf]
      have hrole : settledRole p h answer = helloRole p h answer := by
        rw [hset]
        exact observedRole_unknown hf
      rw [hrole]
      refine iff_of_true (fun _ => backed_helloRole hl) ?_
      rintro ⟨tok, e, -, he, -⟩
      rw [hf] at he
      cases he
    | some e =>
      rw [hset, observedRole_known hf]
      by_cases hsus : e.state = .recognizedPending ∨ p.suspends e (reportedVer h) = true
      · -- suspended: the role is `watch`
        rw [if_pos hsus]
        refine iff_of_true (fun hlt => absurd hlt (by decide)) ?_
        rintro ⟨_, e', -, he', -, hst, hns, -⟩
        rw [hf] at he'
        cases he'
        rcases hsus with hsus | hsus
        · rw [hst] at hsus
          cases hsus
        · rw [hsus] at hns
          cases hns
      · rw [if_neg hsus]
        rw [not_or, Bool.not_eq_true] at hsus
        have hst : e.state = .trusted := by
          cases he : e.state with
          | trusted => rfl
          | recognizedPending => exact absurd he hsus.1
        by_cases hmatch : e.token = tok
        · refine iff_of_true (fun _ => .inr ⟨e, hf, hst, ?_, rfl⟩) ?_
          · rw [htok, hmatch]
          · rintro ⟨tok', e', ht, he', hne, -⟩
            rw [hf] at he'
            cases he'
            rw [htok] at ht
            cases ht
            exact hne hmatch
        · constructor
          · rintro hback ⟨_, e', -, he', -, -, -, hlt, hne⟩
            rw [hf] at he'
            cases he'
            rcases hback hlt with ⟨-, ha⟩ | ⟨e', he', -, ht, -⟩
            · exact hne ha
            · rw [hf] at he'
              cases he'
              rw [htok] at ht
              cases ht
              exact hmatch rfl
          · intro hno hlt
            refine .inl ⟨ledgerRole_wrong htok hf hmatch, ?_⟩
            by_contra hne
            exact hno ⟨tok, e, htok, hf, hmatch, hst, hsus.2, hlt, hne⟩

/-- **A HELLO's role is backed by a credential exactly when the HELLO is no impostor's.** -/
theorem role_backed_iff {i : SlotIdx} {h : HelloMsg} {nowMs : UInt32} (hdec : decidedIn w c i h nowMs s = some t) :
    (.watch < ((handleHello w c i (some h) nowMs s).session i).role →
      Backed s.hub.pairing h (delegateAnswer w h t) ((handleHello w c i (some h) nowMs s).session i).role) ↔
    ¬Impostor s.hub.pairing h (delegateAnswer w h t) := by
  obtain ⟨l, hl⟩ := (losesKnocks_decidedIn hdec).rest
  rw [role_handleHello hdec, hl, settledRole_pending]
  exact backed_iff s.hub.pairing h _

end

/-- The device is known to the ledger; a link is open. -/
def Bench.known : List (Call Bench) :=
  [.pairing (({} : PairingManager).importEntry Bench.paired), .attachTransport 0]

theorem Bench.find_known (h : HelloMsg) (hi : h.instanceId = Bench.client 1) :
    (run Bench.world Bench.config {} Bench.known).hub.pairing.findByInstance h.instanceId = some Bench.paired := by
  rw [hi]
  decide +kernel

/-- The device itself, with its token, gets the role the ledger has for it. -/
theorem role_backed_known :
    ((handleHello Bench.world Bench.config 0 (some (Bench.helloWith 1 0)) 1
      (run Bench.world Bench.config {} Bench.known)).session 0).role = .configure ∧
    ∃ answer, Backed (run Bench.world Bench.config {} Bench.known).hub.pairing (Bench.helloWith 1 0) answer .configure := by
  obtain ⟨t, hdec⟩ : ∃ t, decidedIn Bench.world Bench.config 0 (Bench.helloWith 1 0) 1
      (run Bench.world Bench.config {} Bench.known) = some t := Option.isSome_iff_exists.mp (by decide +kernel)
  have hrole : ((handleHello Bench.world Bench.config 0 (some (Bench.helloWith 1 0)) 1
      (run Bench.world Bench.config {} Bench.known)).session 0).role = .configure := by decide +kernel
  have hback := (role_backed_iff hdec).mpr (by
    rintro ⟨tok, e, htok, he, hne, -⟩
    cases htok
    rw [Bench.find_known _ rfl] at he
    cases he
    exact hne rfl)
  rw [hrole] at hback
  exact ⟨hrole, _, hback (by decide)⟩

/-- Anybody who claims the device's instance and shows any token gets the device's role. -/
theorem impostor_admitted : ¬∀ s i h nowMs t, Reachable Bench.world Bench.config s →
    decidedIn Bench.world Bench.config i h nowMs s = some t →
    .watch < ((handleHello Bench.world Bench.config i (some h) nowMs s).session i).role →
    Backed s.hub.pairing h (delegateAnswer Bench.world h t)
      ((handleHello Bench.world Bench.config i (some h) nowMs s).session i).role := by
  intro h
  have hanswer : (decidedIn Bench.world Bench.config 0 (Bench.helloWith 1 1) 1
      (run Bench.world Bench.config {} Bench.known)).map (delegateAnswer Bench.world (Bench.helloWith 1 1)) =
        some .watch := by decide +kernel
  obtain ⟨t, hdec, hwatch⟩ := Option.map_eq_some_iff.mp hanswer
  have hrole : ((handleHello Bench.world Bench.config 0 (some (Bench.helloWith 1 1)) 1
      (run Bench.world Bench.config {} Bench.known)).session 0).role = .configure := by decide +kernel
  have hback := h _ 0 (Bench.helloWith 1 1) 1 t ⟨{}, Bench.known, rfl⟩ hdec (by rw [hrole]; decide)
  rw [hrole, hwatch] at hback
  rcases hback with ⟨-, ha⟩ | ⟨e, he, -, ht, -⟩
  · cases ha
  · rw [Bench.find_known _ rfl] at he
    cases he
    revert ht
    decide

end SlopSync
