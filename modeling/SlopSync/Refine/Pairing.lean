import SlopSync.Hub.Pairing
import SlopSync.Refine.Lifecycle

/-! # Pairing and authentication, as acts

`Act.ledger` makes no credential; `Act.mint` does, and `Act.knock` asks for one.  What matters is which ceremony
can give which role, to which session and to which ledger entry: `Label.Pairs i R M` allows slot `i` the roles in
`R` and no other slot any, and the credentials in `M`. -/

namespace SlopSync

open Keyed Labelled

/-! ## Changes of the ledger -/

namespace PairingManager

variable {p : PairingManager} {inst : InstanceId}

theorem vouches_self {e : PairedEntry} (h : some e ∈ p.entries.slots) : p.Vouches e := ⟨e, h, rfl, rfl, rfl, id⟩

/-- A change that leaves entries, windows and knocks alone keeps every promise of the ledger. -/
theorem keeps_of_entries {q : PairingManager} (he : q.entries = p.entries) (hw : q.windows = p.windows)
    (hp : q.pending = p.pending) : p.Keeps q :=
  ⟨fun _ h => vouches_self (he ▸ h), hw, hp⟩

/-- An entry changed in place without a better credential. -/
theorem keeps_modify {f : PairedEntry → PairedEntry} (hf : ∀ e, p.findByInstance inst = some e → e.Backs (f e)) :
    p.Keeps (p.modify inst f) := by
  refine ⟨fun e' he' => ?_, rfl, rfl⟩
  rcases mem_modifyUsed he' with h | ⟨e, he, rfl⟩
  · exact vouches_self h
  · exact ⟨e, mem_of_findUsed he, hf e he⟩

theorem Keeps.of_eq {q q' : PairingManager} (h : p.Keeps q) (he : q'.entries = q.entries)
    (hw : q'.windows = q.windows) (hp : q'.pending = q.pending) : p.Keeps q' :=
  ⟨fun e' h' => h.vouched e' (he ▸ h'), hw.trans h.windows, hp.trans h.pending⟩

/-- Revoking keeps the ledger: the entry goes, and no other gains anything. -/
theorem keeps_revoke {q : PairingManager} (h : p.revoke inst = some q) : p.Keeps q := by
  unfold revoke at h
  split at h
  · cases h
    exact ⟨fun _ he => vouches_self (mem_removeUsed he), rfl, rfl⟩
  · cases h

/-- `grant` gives that instance that role and touches no other entry. -/
theorem mints_grant (p : PairingManager) (inst : InstanceId) (role : AccessLevel) (mode : UInt8) (token : Token) :
    p.Mints inst role (p.grant inst role mode token) := by
  unfold grant
  split
  · refine ⟨fun e' he' => ?_, rfl, rfl⟩
    rcases mem_modifyUsed he' with h | ⟨e, he, rfl⟩
    · exact .inl (vouches_self h)
    · have hinst : e.instanceId = inst := findByInstance_some he
      exact .inr ⟨hinst, rfl⟩
  · dsimp only
    split
    · exact ⟨fun _ h => .inl (vouches_self h), rfl, rfl⟩
    · rename_i hfill
      refine ⟨fun e' he' => ?_, rfl, rfl⟩
      rcases mem_fillFirst hfill he' with h | h
      · exact .inl (vouches_self h)
      · cases h
        exact .inr ⟨rfl, rfl⟩

/-- An observation makes no credential. -/
theorem keeps_observeHello (p : PairingManager) (inst : InstanceId) (kind name : Bytes) (ver : Option Bytes) (pm : UInt8) :
    p.Keeps (p.observeHello inst kind name ver pm).2 := by
  unfold observeHello
  split
  · exact keeps_of_entries rfl rfl rfl
  · rename_i e he
    obtain ⟨hinst, htok, hrole⟩ := observedEntry_fixed p e kind name ver pm
    have hback : e.Backs (p.observedEntry e kind name ver pm) := by
      refine ⟨hinst, htok, hrole, fun ht => ?_⟩
      have hst := mt (state_observedEntry p e kind name ver pm).mpr
        (show (p.observedEntry e kind name ver pm).state ≠ .recognizedPending by rw [ht]; decide)
      cases hes : e.state with
      | trusted => rfl
      | recognizedPending => exact absurd (.inl hes) hst
    have hmod : p.Keeps (p.modify inst fun _ => p.observedEntry e kind name ver pm) := by
      refine keeps_modify fun e₁ he₁ => ?_
      rw [he] at he₁
      cases he₁
      exact hback
    dsimp only
    split
    · exact hmod.of_eq rfl rfl rfl
    · split
      · exact hmod.of_eq rfl rfl rfl
      · exact hmod

end PairingManager

theorem labelEntry_backs (se : HubSession) (e : PairedEntry) : e.Backs (labelEntry se e) := ⟨rfl, rfl, rfl, id⟩

/-! ## Changes of the pending list -/

namespace PendingPairingList

variable {l l' : PendingPairingList} {inst : InstanceId} {sid now : UInt32} {mode : UInt8}

/-- What a lookup finds carries the instance it was asked for. -/
theorem find_some {k : PendingKnock} (h : l.find inst = some k) : k.instanceId = inst := by
  have hk := findUsed_some h
  unfold isFor at hk
  exact beq_iff_eq.mp hk

/-- What is in the list after a knock: the old ones and the new one, which a search for the instance finds. -/
theorem add_spec (h : l.add inst sid (now + pairingWindowMs) mode = some l') :
    (∀ k, some k ∈ l'.slots → some k ∈ l.slots ∨ k.From inst sid now) ∧
      ∀ k, l'.find inst = some k → k.From inst sid now := by
  unfold add at h
  split at h
  · cases h
    have hfrom : ∀ k, l.find inst = some k →
        ({ k with sessionId := sid, expiresAtMs := now + pairingWindowMs, mode } : PendingKnock).From inst sid now := by
      intro k hk
      have hinst := find_some hk
      exact ⟨hinst, rfl, rfl⟩
    refine ⟨fun k hk => ?_, fun k hk => ?_⟩
    · rcases mem_modifyUsed hk with h | ⟨k₀, hk₀, rfl⟩
      · exact .inl h
      · exact .inr (hfrom k₀ hk₀)
    · have hfound : (l.modify inst fun k => { k with sessionId := sid, expiresAtMs := now + pairingWindowMs, mode }).find
          inst = (l.find inst).map fun k => { k with sessionId := sid, expiresAtMs := now + pairingWindowMs, mode } :=
        findUsed_modifyFirst_self (p := isFor inst)
          (f := fun k => { k with sessionId := sid, expiresAtMs := now + pairingWindowMs, mode }) (fun _ h => h) l.slots
      rw [hfound] at hk
      obtain ⟨k₀, hk₀, rfl⟩ := Option.map_eq_some_iff.mp hk
      exact hfrom k₀ hk₀
  · rename_i hnone
    split at h
    · cases h
    · rename_i hfill
      cases h
      refine ⟨fun k hk => ?_, fun k hk => ?_⟩
      · rcases mem_fillFirst hfill hk with h | h
        · exact .inl h
        · cases h
          exact .inr ⟨rfl, rfl, rfl⟩
      · have hself : isFor inst { instanceId := inst, sessionId := sid, expiresAtMs := now + pairingWindowMs, mode } =
            true := beq_self_eq_true inst
        rw [find, findUsed_fillFirst hself hfill (by simpa [find] using hnone)] at hk
        cases hk
        exact ⟨rfl, rfl, rfl⟩

/-- A knock that is labelled is still the same knock. -/
theorem knock_spec (h : l.add inst sid (now + pairingWindowMs) mode = some l') {f : PendingKnock → PendingKnock}
    (hf : ∀ k, k.From inst sid now → (f k).From inst sid now) (k : PendingKnock)
    (hk : some k ∈ (l'.modify inst f).slots) : some k ∈ l.slots ∨ k.From inst sid now := by
  obtain ⟨hmem, hfind⟩ := add_spec h
  rcases mem_modifyUsed hk with h | ⟨k₀, hk₀, rfl⟩
  · exact hmem k h
  · exact .inr (hf k₀ (hfind k₀ hk₀))

end PendingPairingList

/-! ## Labels -/

/-- Slot `i` may be given a role of `R` and the ledger a credential of `M`; the link of slot `i` may be let go. -/
def Label.Pairs (i : SlotIdx) (R : AccessLevel → Prop) (M : InstanceId → AccessLevel → Prop) : Label → Prop
  | .ledger => True
  | .knock j => j = i
  | .mint inst r => M inst r
  | .role j r => j = i ∧ R r
  | l => l.Parks i

/-- Parking a session is among the acts of pairing. -/
theorem Label.Parks.pairs {l : Label} {i : SlotIdx} (h : l.Parks i) {R : AccessLevel → Prop}
    {M : InstanceId → AccessLevel → Prop} : l.Pairs i R M := by
  cases l <;> first | exact h | exact h.elim

/-- The same without a knock: a grant that is handed out. -/
def Label.Issues (i : SlotIdx) (R : AccessLevel → Prop) (M : InstanceId → AccessLevel → Prop) : Label → Prop
  | .ledger => True
  | .mint inst r => M inst r
  | .role j r => j = i ∧ R r
  | l => l.Parks i

theorem Label.Parks.issues {l : Label} {i : SlotIdx} (h : l.Parks i) {R : AccessLevel → Prop}
    {M : InstanceId → AccessLevel → Prop} : l.Issues i R M := by
  cases l <;> first | exact h | exact h.elim

theorem Label.Tells.issues {l : Label} (h : l.Tells) {i : SlotIdx} {R : AccessLevel → Prop}
    {M : InstanceId → AccessLevel → Prop} : l.Issues i R M :=
  (h.parks i).issues

/-- Issuing a token is among the acts of pairing. -/
theorem Label.Issues.pairs {l : Label} {i : SlotIdx} {R : AccessLevel → Prop} {M : InstanceId → AccessLevel → Prop}
    (h : l.Issues i R M) : l.Pairs i R M := by
  cases l <;> first | exact h | exact h.elim

theorem Label.Tells.pairs {l : Label} (h : l.Tells) {i : SlotIdx} {R : AccessLevel → Prop}
    {M : InstanceId → AccessLevel → Prop} : l.Pairs i R M :=
  (h.parks i).pairs

/-- A pairing request may use a window up as well. -/
def Label.Requests (i : SlotIdx) (R : AccessLevel → Prop) (M : InstanceId → AccessLevel → Prop) : Label → Prop
  | .narrow => True
  | l => l.Pairs i R M

theorem Label.Pairs.requests {l : Label} {i : SlotIdx} {R : AccessLevel → Prop} {M : InstanceId → AccessLevel → Prop}
    (h : l.Pairs i R M) : l.Requests i R M := by
  cases l <;> first | exact h | exact trivial

/-- The ledger and its snapshots; no session is touched and no credential made. -/
def Label.Trusts : Label → Prop
  | .ledger => True
  | l => l.Tells

/-- Telling sessions something is among the acts of observing trust. -/
theorem Label.Tells.trusts {l : Label} (h : l.Tells) : l.Trusts := by
  cases l <;> first | exact h | exact h.elim

/-- Slot `i` knocks. -/
def Label.Knocks (i : SlotIdx) : Label → Prop
  | .knock j => j = i
  | l => l.Tells

/-- Telling sessions something is among the acts of queueing a knock. -/
theorem Label.Tells.knocks {l : Label} (h : l.Tells) (i : SlotIdx) : l.Knocks i := by
  cases l <;> first | exact h | exact h.elim

/-- The ledger observes the session of slot `i`, which may be queued for re-approval. -/
def Label.Observes (i : SlotIdx) : Label → Prop
  | .ledger => True
  | .knock j => j = i
  | l => l.Tells

theorem Label.Knocks.observes {l : Label} {i : SlotIdx} (h : l.Knocks i) : l.Observes i := by
  cases l <;> first | exact h | exact h.elim

theorem Label.Observes.pairs {l : Label} {i : SlotIdx} (h : l.Observes i) {R : AccessLevel → Prop}
    {M : InstanceId → AccessLevel → Prop} : l.Pairs i R M := by
  cases l <;> first | exact h | exact h.elim

theorem Label.Observes.keeps {l : Label} {i : SlotIdx} (h : l.Observes i) (j : SlotIdx) : l.Keeps j := by
  cases l <;> first | exact trivial | exact h.elim

/-- The role the ledger's observation of this session gives; a device it does not know keeps its own. -/
def observedRole (p : PairingManager) (se : HubSession) : AccessLevel :=
  if (observe p se).1.known then (observe p se).1.effectiveRole else se.role

section

variable {ε : Type} {w : World ε} {c : Config} {now : UInt32} {rx : Option SlotIdx} {P : Label → Prop}

/-- A slot that keeps its link has a transport afterwards if it had one before. -/
theorem Does.linked {i : SlotIdx} {s s' : Sys ε} (h : Does c now rx P s s') (hP : ∀ l, P l → l.Keeps i)
    (hlink : (s.slot i).transport.isSome) : (s'.slot i).transport.isSome := by
  show (s'.view.slots i).transport.isSome
  rw [(SlotView.link_inj (h.link_eq hP)).1]
  exact hlink

/-- Storing a changed ledger is one act when the change keeps what the ledger vouches for. -/
theorem setPairing_does {p : PairingManager} {s : Sys ε} (hk : s.hub.pairing.Keeps p) (hP : P .ledger) :
    Does c now rx P s (setPairing p s) :=
  Does.act hP (Act.ledger p hk)

theorem modPairing_does {f : PairingManager → PairingManager} {s : Sys ε}
    (hk : s.hub.pairing.Keeps (f s.hub.pairing)) (hP : P .ledger) : Does c now rx P s (modPairing f s) :=
  setPairing_does hk hP

/-- The presence window is closed. -/
theorem shutPresence_does (s : Sys ε) (hP : P .narrow) :
    Does c now rx P s (modPairing PairingManager.closePresenceWindow s) :=
  Does.act hP (Act.narrow s.hub.pairing.windowOpenFlag false s.hub.pairing.failCount id fun h => nomatch h)

/-- Dropping a knock is one act. -/
theorem removePending_does (inst : InstanceId) (s : Sys ε) (hP : P .knocks) :
    Does c now rx P s (modPending (fun l => l.remove inst) s) :=
  Does.act hP (Act.knocks _ fun _ => mem_removeUsed)

/-- Setting a session's role is one act. -/
theorem setRole_does (i : SlotIdx) (r : AccessLevel) (s : Sys ε) (hP : P (.role i r)) :
    Does c now rx P s (setRole i r s) := by
  refine Does.act hP ?_
  rw [setRole, Sys.modSession, view_modSlot]
  exact Act.role i r

/-- A pairing event is sent and nothing else happens. -/
theorem emitPairingEvent_does (kind : UInt8) (inst name : Bytes) (mode : UInt8) (role : AccessLevel)
    (version : Bytes) (nowMs : UInt32) (s : Sys ε) :
    Does c now rx Label.Tells s (emitPairingEvent w c kind inst name mode role version nowMs s) :=
  (emits_emitPairingEvent c _ _ _ _ _ _ nowMs s).does trivial

/-- Both pairing snapshots. -/
theorem publishPairing_does (nowMs : UInt32) (s : Sys ε) :
    Does c now rx Label.Tells s (publishPairedRosterState c (publishPendingPairingState c nowMs s)) :=
  (publishPendingPairingState_does nowMs s).trans (publishPairedRosterState_does _)

/-! ## The tripwire -/

/-- A suspended instance is queued as a knock and told of; its session keeps its role. -/
theorem queueReapproval_does (i : SlotIdx) (r : AccessLevel) (nowMs : UInt32) (s : Sys ε) :
    Does c nowMs (some i) (Label.Knocks i) s (queueReapproval w c i r nowMs s) := by
  unfold queueReapproval
  dsimp only
  have htell : ∀ t : Sys ε, Does c nowMs (some i) (Label.Knocks i) t (publishPairedRosterState c
      (publishPendingPairingState c nowMs (emitPairingEvent w c PairingEventKinds.recognizedPending
        (s.session i).instanceId.val (s.session i).clientName.data PairingModes.knockApprove r
        (s.session i).clientVer.data nowMs t))) := fun t =>
    ((emitPairingEvent_does _ _ _ _ _ _ nowMs t).trans (publishPairing_does nowMs _)).mono fun _ h => h.knocks i
  refine Does.trans ?_ (htell _)
  split
  · exact Does.refl s
  · rename_i l hl
    refine Does.act (l := .knock i) rfl (Act.knock i _ rfl ?_)
    exact PendingPairingList.knock_spec hl fun k hk => ⟨hk.inst, hk.sid, hk.expires⟩

/-- Observation is the ledger's change, then the announcement of a suspension. -/
theorem applyTrustObservation_does (i : SlotIdx) (nowMs : UInt32) (s : Sys ε) :
    Does c nowMs (some i) (Label.Observes i) s (applyTrustObservation w c i nowMs s).2 := by
  have hobs : Does c nowMs (some i) (Label.Observes i) s (setPairing (observe s.hub.pairing (s.session i)).2 s) :=
    setPairing_does (PairingManager.keeps_observeHello _ _ _ _ _ _) trivial
  unfold applyTrustObservation
  dsimp only
  split
  · exact hobs
  · refine hobs.trans ?_
    dsimp only
    split
    · exact (queueReapproval_does i _ nowMs _).mono fun _ h => h.observes
    · exact Does.refl _

/-- The role the tripwire returns is the one observed in the ledger. -/
theorem applyTrustObservation_role (i : SlotIdx) (nowMs : UInt32) (s : Sys ε) :
    (applyTrustObservation w c i nowMs s).1 = observedRole s.hub.pairing (s.session i) := by
  unfold applyTrustObservation observedRole
  dsimp only
  split <;> rename_i h
  · rw [Bool.not_eq_true'] at h
    rw [h]
    rfl
  · rw [Bool.not_eq_true', Bool.not_eq_false] at h
    rw [h]
    rfl

/-! ## AUTH -/

/-- No credential is made. -/
def NoMint : InstanceId → AccessLevel → Prop := fun _ _ => False

/-- AUTH may end the session if this strike is the last one. -/
def Label.Proves (i : SlotIdx) (last : Prop) (R : AccessLevel → Prop) : Label → Prop
  | .free j => j = i ∧ last
  | l => l.Pairs i R NoMint

theorem Label.Tells.proves {l : Label} (h : l.Tells) (i : SlotIdx) (last : Prop) (R : AccessLevel → Prop) :
    l.Proves i last R := by
  cases l <;> first | exact h | exact h.elim

theorem Label.Ends.proves {l : Label} {i : SlotIdx} (h : l.Ends i) {last : Prop} (hlast : last)
    (R : AccessLevel → Prop) : l.Proves i last R := by
  cases l <;> first | exact h | exact ⟨h, hlast⟩ | exact h.elim

/-- A failed AUTH counts a strike; the last one allowed ends the session. -/
theorem authStrike_does {i : SlotIdx} (nowMs : UInt32) {s : Sys ε} (hlink : (s.slot i).transport.isSome)
    (R : AccessLevel → Prop) :
    Does c now rx (Label.Proves i (Limits.authAttemptsMax ≤ (s.slot i).authFailures + 1) R) s
      (authStrike w c i nowMs s) := by
  unfold authStrike
  dsimp only
  have hlink₁ : ((s.modSlot i fun sl => { sl with authFailures := sl.authFailures + 1 }).slot i).transport.isSome := by
    rw [Sys.slot, Sys.slot_modSlot_self]
    exact hlink
  have hemits : Emits (s.modSlot i fun sl => { sl with authFailures := sl.authFailures + 1 }) (sendNack w i
      { code := .unauthorized } (s.modSlot i fun sl => { sl with authFailures := sl.authFailures + 1 })) :=
    emits_sendNack _ hlink₁
  have hstrike : Does c now rx Label.Tells s (sendNack w i { code := .unauthorized }
      (s.modSlot i fun sl => { sl with authFailures := sl.authFailures + 1 })) :=
    (Does.of_view (view_modSlot_of_slotView rfl)).trans (hemits.does trivial)
  have hcount : ((sendNack w i { code := .unauthorized }
      (s.modSlot i fun sl => { sl with authFailures := sl.authFailures + 1 })).slot i).authFailures =
        (s.slot i).authFailures + 1 := by
    rw [Sys.slot, hemits.slot i]
    simp [withEvents]
  refine (hstrike.mono fun _ h => h.proves i _ R).trans ?_
  split
  · rename_i hmax
    rw [hcount] at hmax
    have hlink₂ := hlink₁
    rw [← hemits.transport i] at hlink₂
    have hends : ∀ t : Sys ε, (t.slot i).transport.isSome → Does c now rx (Label.Ends i) t
        (teardownSession w c i nowMs (sendEncoded w i .goodbye (encodeGoodbye { code := .unauthorized } 64) t)) :=
      fun t ht => ((emits_sendEncoded _ ht (by decide) (by decide)).does trivial).trans
        (teardownSession_does i nowMs _)
    exact (hends _ hlink₂).mono fun _ h => h.proves hmax R
  · exact Does.refl _

/-- A proof that holds gives the session the role proved, or the lower one the tripwire observed. -/
theorem acceptProof_does {i : SlotIdx} {proved : AccessLevel} (nowMs : UInt32) {s : Sys ε} {R : AccessLevel → Prop}
    (hlink : (s.slot i).transport.isSome) (hproved : R proved)
    (hseen : R (observedRole s.hub.pairing { s.session i with role := proved })) :
    Does c nowMs (some i) (Label.Pairs i R NoMint) s (acceptProof w c i proved nowMs s) := by
  unfold acceptProof
  dsimp only
  have hreset : (s.modSlot i fun sl => { sl with authFailures := 0 }).view = s.view := view_modSlot_of_slotView rfl
  have hset : Does c nowMs (some i) (Label.Pairs i R NoMint) s
      (setRole i proved (s.modSlot i fun sl => { sl with authFailures := 0 })) :=
    (Does.of_view hreset).trans (setRole_does i proved _ ⟨rfl, hproved⟩)
  have hlink₁ : ((setRole i proved (s.modSlot i fun sl => { sl with authFailures := 0 })).slot i).transport.isSome := by
    simpa [setRole, Sys.modSession] using hlink
  have hobs := applyTrustObservation_does (w := w) (c := c) i nowMs
    (setRole i proved (s.modSlot i fun sl => { sl with authFailures := 0 }))
  have hrole := applyTrustObservation_role (w := w) (c := c) i nowMs
    (setRole i proved (s.modSlot i fun sl => { sl with authFailures := 0 }))
  have hlink₂ := hobs.linked (fun _ h => h.keeps i) hlink₁
  have hseen' : R (observedRole (setRole i proved (s.modSlot i fun sl => { sl with authFailures := 0 })).hub.pairing
      ((setRole i proved (s.modSlot i fun sl => { sl with authFailures := 0 })).session i)) := by
    simpa [setRole, Sys.modSession] using hseen
  rw [← hrole] at hseen'
  generalize applyTrustObservation w c i nowMs (setRole i proved (s.modSlot i fun sl => { sl with authFailures := 0 })) = r
    at hobs hlink₂ hseen'
  obtain ⟨role, t⟩ := r
  dsimp only at hobs hlink₂ hseen' ⊢
  have hlink₃ : ((setRole i role t).slot i).transport.isSome := by
    simpa [setRole, Sys.modSession] using hlink₂
  refine Does.trans ?_ ((publishPairedRosterState_does _).mono fun _ h => h.pairs)
  refine Does.trans ?_ ((emits_sendEncoded _ hlink₃ (by decide) (by decide)).does trivial)
  exact (hset.trans (hobs.mono fun _ h => h.pairs)).trans (setRole_does i role _ ⟨rfl, hseen'⟩)

/-- The roles an AUTH gives: the one its proof earns, and what the tripwire makes of it. -/
def AuthRole (w : World ε) (s : Sys ε) (i : SlotIdx) (msg : Option TrustMap) (r : AccessLevel) : Prop :=
  ¬Limits.authAttemptsMax ≤ (s.slot i).authFailures ∧ ∃ t proof proved, msg = some t ∧ t.tokenProof = some proof ∧
    s.hub.pairing.validateProof w.hmac (s.session i).instanceId proof (s.slot i).nonce = (proved, true) ∧
    (r = proved ∨ r = observedRole s.hub.pairing { presented t (s.session i) with role := proved })

/-- `handleAuth` whole: a strike, or a role that the proof or the observation backs. -/
theorem handleAuth_does {i : SlotIdx} (msg : Option TrustMap) (nowMs : UInt32) {s : Sys ε}
    (hlink : (s.slot i).transport.isSome) :
    Does c nowMs (some i) (Label.Proves i (Limits.authAttemptsMax ≤ (s.slot i).authFailures + 1) (AuthRole w s i msg)) s
      (handleAuth w c i msg nowMs s) := by
  unfold handleAuth
  split
  · exact Does.refl s
  · rename_i hstrikes
    split
    · exact (emits_sendNack _ hlink).does trivial
    · rename_i t proof hmsg
      have hp : msg = some t ∧ t.tokenProof = some proof := by
        cases msg with
        | none => cases hmsg
        | some t' =>
          simp only [Option.bind_some, Option.map_eq_some_iff, Prod.mk.injEq] at hmsg
          obtain ⟨p', hp', rfl, rfl⟩ := hmsg
          exact ⟨rfl, hp'⟩
      have hpres : Does c nowMs (some i) (Label.Proves i (Limits.authAttemptsMax ≤ (s.slot i).authFailures + 1)
          (AuthRole w s i msg)) s (s.modSession i (presented t)) :=
        Does.of_view (view_modSlot_of_slotView (f := fun sl => { sl with session := presented t sl.session }) rfl)
      have hinst : ((s.modSession i (presented t)).session i).instanceId = (s.session i).instanceId := by
        rw [Sys.session_modSession]
        rfl
      have hnonce : ((s.modSession i (presented t)).slot i).nonce = (s.slot i).nonce := by
        simp [Sys.modSession]
      have hfail : ((s.modSession i (presented t)).slot i).authFailures = (s.slot i).authFailures := by
        simp [Sys.modSession]
      have hlink₁ : ((s.modSession i (presented t)).slot i).transport.isSome := by
        simpa [Sys.modSession] using hlink
      dsimp only
      refine hpres.trans ?_
      rw [hinst, hnonce]
      cases hval : s.hub.pairing.validateProof w.hmac (s.session i).instanceId proof (s.slot i).nonce with
      | mk proved proofOk =>
        rw [show (s.modSession i (presented t)).hub.pairing = s.hub.pairing from rfl, hval]
        dsimp only
        cases proofOk with
        | false =>
          have hstrike : Does c nowMs (some i) _ (s.modSession i (presented t)) _ :=
            authStrike_does (w := w) nowMs hlink₁ (AuthRole w s i msg)
          rw [hfail] at hstrike
          exact hstrike
        | true =>
          refine Does.mono (acceptProof_does nowMs (R := AuthRole w s i msg) hlink₁ ?_ ?_) fun l hl => ?_
          · exact ⟨hstrikes, t, proof, proved, hp.1, hp.2, hval, .inl rfl⟩
          · refine ⟨hstrikes, t, proof, proved, hp.1, hp.2, hval, .inr ?_⟩
            rw [Sys.session_modSession]
            rfl
          · cases l <;> first | exact hl | exact hl.elim

/-! ## Ceremonies -/

/-- A minted entry is one `mint` act, and only where the ledger can grant. -/
theorem mintEntry_does {inst : InstanceId} {role : AccessLevel} {mode : UInt8} {s s' : Sys ε} {token : Token}
    (h : mintEntry w inst role mode s = some (token, s'))
    (hP : s.hub.pairing.canGrant inst = true → P (.mint inst role)) :
    Does c now rx P s s' ∧ s.hub.pairing.canGrant inst = true ∧ s'.hub.slots = s.hub.slots := by
  unfold mintEntry at h
  split at h
  · cases h
  · rename_i hcan
    have hcan' : s.hub.pairing.canGrant inst = true := by simpa using hcan
    cases h
    refine ⟨?_, hcan', rfl⟩
    have henv : Does c now rx P s { s with env := (w.fill 16 s.env).2 } := Does.of_view rfl
    exact henv.trans (Does.act (hP hcan') (Act.mint inst role _ (PairingManager.mints_grant _ _ _ _ _)))

/-- A grant of `role` to `inst`, while there is room in the ledger. -/
def Grants (s : Sys ε) (inst : InstanceId) (role : AccessLevel) (x : InstanceId) (r : AccessLevel) : Prop :=
  x = inst ∧ s.hub.pairing.canGrant inst = true ∧ r = role

/-- A grant mints the entry, sends PAIR_GRANT and raises the session to the role minted. -/
theorem issuePairGrant_does {i : SlotIdx} (inst : InstanceId) (role : AccessLevel) (mode : UInt8) (nowMs : UInt32)
    {s : Sys ε} (hlink : (s.slot i).transport.isSome) :
    Does c now rx (Label.Issues i (Grants s inst role inst) (Grants s inst role)) s
      (issuePairGrant w c i inst role mode nowMs s).2 := by
  unfold issuePairGrant
  split
  · exact Does.refl s
  · rename_i token s₁ hmint
    obtain ⟨hdo, hcan, hslots⟩ : Does c now rx (Label.Issues i (Grants s inst role inst) (Grants s inst role)) s s₁ ∧ _ :=
      mintEntry_does hmint fun hcan => ⟨rfl, hcan, rfl⟩
    have hlabel : Does c now rx (Label.Issues i (Grants s inst role inst) (Grants s inst role)) s₁
        (modPairing (fun p => p.modify inst (labelEntry (s₁.session i))) s₁) :=
      modPairing_does (PairingManager.keeps_modify fun e _ => labelEntry_backs _ e) trivial
    have hlink₁ : ((modPairing (fun p => p.modify inst (labelEntry (s₁.session i))) s₁).slot i).transport.isSome := by
      show (s₁.hub.slots i).transport.isSome
      rw [hslots]
      exact hlink
    refine (hdo.trans hlabel).trans ?_
    dsimp only
    split
    · exact Does.refl _
    · dsimp only
      refine Does.trans ?_ ((publishPairing_does nowMs _).mono fun _ h => h.issues)
      refine Does.trans ?_ ((emitPairingEvent_does _ _ _ _ _ _ nowMs _).mono fun _ h => h.issues)
      refine Does.trans ?_ (removePending_does inst _ trivial)
      exact ((emits_sendFrameTo hlink₁ (by decide) (by decide)).does trivial).trans
        (setRole_does i role _ ⟨rfl, rfl, hcan, rfl⟩)

/-- A knock inside a presence window is granted the window's role at once. -/
theorem presenceKnock_does {i : SlotIdx} (inst : InstanceId) (nowMs : UInt32) {s : Sys ε}
    (hlink : (s.slot i).transport.isSome) :
    Does c now rx (Label.Requests i (Grants s inst s.hub.pairing.presenceGrantRole inst)
      (Grants s inst s.hub.pairing.presenceGrantRole)) s (presenceKnock w c i inst nowMs s) := by
  unfold presenceKnock
  dsimp only
  obtain ⟨t, ht⟩ : ∃ t : Sys ε, t = { modPairing PairingManager.closePresenceWindow s with
      hub := { (modPairing PairingManager.closePresenceWindow s).hub with presenceWasOpen := false } } := ⟨_, rfl⟩
  have hclose : ∀ R M, Does c now rx (Label.Requests i R M) s t := by
    intro R M
    rw [ht]
    exact Does.trans (shutPresence_does s trivial) (Does.of_view rfl)
  have hlink₁ : (t.slot i).transport.isSome := by
    rw [ht]
    exact hlink
  -- closing the window does not change whom the ledger has room for
  have hcan : t.hub.pairing.canGrant inst = s.hub.pairing.canGrant inst := by
    rw [ht]
    rfl
  have hissue : ∀ role mode, Does c now rx (Label.Requests i (Grants s inst role inst) (Grants s inst role)) s
      (issuePairGrant w c i inst role mode nowMs t).2 := by
    intro role mode
    refine (hclose _ _).trans ?_
    unfold Grants
    rw [← hcan]
    exact (issuePairGrant_does inst role mode nowMs hlink₁).mono fun _ h => h.pairs.requests
  rw [← ht]
  split
  · exact (hissue _ _).trans ((sendNackTracked_does i _ nowMs _).mono fun _ h => h.pairs.requests)
  · refine Does.trans ?_ ((publishPendingPairingState_does nowMs _).mono fun _ h => h.pairs.requests)
    exact (hissue _ _).trans ((emitPairingEvent_does _ _ _ _ _ _ nowMs _).mono fun _ h => h.pairs.requests)

/-- Outside a window the knock waits and nothing is minted. -/
theorem queueKnock_does {i : SlotIdx} {inst : InstanceId} (nowMs : UInt32) {s : Sys ε}
    (hinst : (s.session i).instanceId = inst) {R : AccessLevel → Prop} {M : InstanceId → AccessLevel → Prop} :
    Does c nowMs (some i) (Label.Pairs i R M) s (queueKnock w c i inst nowMs s) := by
  unfold queueKnock
  dsimp only
  split
  · exact (sendNackTracked_does i _ nowMs s).mono fun _ h => h.pairs
  · rename_i l hl
    refine Does.trans ?_ ((publishPendingPairingState_does nowMs _).mono fun _ h => h.pairs)
    refine Does.trans ?_ ((emitPairingEvent_does _ _ _ _ _ _ nowMs _).mono fun _ h => h.pairs)
    refine Does.act (l := .knock i) rfl (Act.knock i _ rfl ?_)
    show ∀ k : PendingKnock, _ → _ ∨ k.From (s.session i).instanceId _ _
    rw [hinst]
    exact PendingPairingList.knock_spec hl fun k hk => ⟨hk.inst, hk.sid, hk.expires⟩

/-- The role a pairing request gives. -/
def PairRole (w : World ε) (s : Sys ε) (i : SlotIdx) (nowMs : UInt32) (m : PairReqMsg) (r : AccessLevel) : Prop :=
  s.hub.pairing.canGrant m.instanceId = true ∧ match m.pinProof with
    | none => (s.session i).instanceId = m.instanceId ∧ s.hub.pairing.presenceWindowOpen nowMs = true ∧
        r = s.hub.pairing.presenceGrantRole
    | some proof => s.hub.pairing.windowOpen nowMs = true ∧ pairingPinProof s.hub.pairing.pin (s.slot i).nonce = proof ∧
        r = .control

/-- The credential a pairing request makes. -/
def PairMint (w : World ε) (s : Sys ε) (i : SlotIdx) (nowMs : UInt32) (m : PairReqMsg) (inst : InstanceId)
    (r : AccessLevel) : Prop :=
  inst = m.instanceId ∧ PairRole w s i nowMs m r

/-- A PAIR_REQ without a proof: granted in a window, queued outside it. -/
theorem handleKnock_does {i : SlotIdx} {m : PairReqMsg} (nowMs : UInt32) {s : Sys ε}
    (hlink : (s.slot i).transport.isSome) (hpin : m.pinProof = none) :
    Does c nowMs (some i) (Label.Requests i (PairRole w s i nowMs m) (PairMint w s i nowMs m)) s
      (handleKnock w c i m.instanceId nowMs s) := by
  unfold handleKnock
  split
  · exact (sendNackTracked_does i _ nowMs s).mono fun _ h => h.pairs.requests
  · rename_i hinst
    split
    · rename_i hopen
      have hrole : ∀ x r, Grants s m.instanceId s.hub.pairing.presenceGrantRole x r → PairRole w s i nowMs m r := by
        rintro x r ⟨-, hcan, hr⟩
        refine ⟨hcan, ?_⟩
        rw [hpin]
        exact ⟨not_not.mp hinst, hopen, hr⟩
      refine (presenceKnock_does m.instanceId nowMs hlink).mono fun l hl => ?_
      cases l with
      | role j r => exact ⟨hl.1, hrole _ r hl.2⟩
      | mint x r => exact ⟨hl.1, hrole x r hl⟩
      | _ => exact hl
    · split
      · exact (sendNackTracked_does i _ nowMs s).mono fun _ h => h.pairs.requests
      · exact (queueKnock_does nowMs (not_not.mp hinst)).mono fun _ h => h.requests

/-- A correct PIN gives the session the control role and mints nothing further. -/
theorem pinGrant_does {i : SlotIdx} (inst : InstanceId) (token : Token) (nowMs : UInt32) {s : Sys ε}
    (hlink : (s.slot i).transport.isSome) :
    Does c now rx (Label.Requests i (· = .control) NoMint) s (pinGrant w c i inst token nowMs s) := by
  unfold pinGrant
  dsimp only
  have hreset : Does c now rx (Label.Requests i (· = .control) NoMint) s (modPairing (fun p => { p with failCount := 0 }) s) :=
    Does.act (l := .narrow) trivial (Act.narrow s.hub.pairing.windowOpenFlag s.hub.pairing.presenceOpenFlag 0 id id)
  have hlabel : ∀ t : Sys ε, Does c now rx (Label.Requests i (· = .control) NoMint) t
      (modPairing (fun p => p.modify inst (labelEntry (s.session i))) t) := fun t =>
    modPairing_does (PairingManager.keeps_modify fun e _ => labelEntry_backs _ e) trivial
  refine Does.trans ?_ ((publishPairedRosterState_does _).mono fun _ h => h.pairs.requests)
  refine Does.trans ?_ ((emitPairingEvent_does _ _ _ _ _ _ nowMs _).mono fun _ h => h.pairs.requests)
  refine Does.trans ?_ (setRole_does i .control _ ⟨rfl, rfl⟩)
  refine Does.trans ?_ (hlabel _)
  refine hreset.trans (Emits.does (emits_sendEncoded _ ?_ (by decide) (by decide)) trivial)
  exact hlink

theorem notePinFailure_does (s : Sys ε) (hP : P .narrow) :
    Does c now rx P s (modPairing PairingManager.notePinFailure s) := by
  refine Does.act hP (Act.narrow (if 3 ≤ s.hub.pairing.failCount + 1 then false else s.hub.pairing.windowOpenFlag)
    s.hub.pairing.presenceOpenFlag (s.hub.pairing.failCount + 1) (fun h => ?_) id)
  split at h
  · cases h
  · exact h

/-- A PAIR_REQ with a proof: granted when the PIN window is open and the proof holds, counted as a failure otherwise.
-/
theorem handlePinProof_does {i : SlotIdx} {m : PairReqMsg} {proof : Token} (nowMs : UInt32) {s : Sys ε}
    (hlink : (s.slot i).transport.isSome) (hpin : m.pinProof = some proof) :
    Does c now rx (Label.Requests i (PairRole w s i nowMs m) (PairMint w s i nowMs m)) s
      (handlePinProof w c i m.instanceId proof nowMs s) := by
  unfold handlePinProof
  split
  · exact (emits_sendNack _ hlink).does trivial
  · rename_i hopen
    split
    · refine (notePinFailure_does s trivial).trans (Emits.does (emits_sendNack _ ?_) trivial)
      exact hlink
    · rename_i hproof
      split
      · exact (emits_sendNack _ hlink).does trivial
      · rename_i token s₁ hmint
        have hrole : s.hub.pairing.canGrant m.instanceId = true → PairRole w s i nowMs m .control := by
          intro hcan
          refine ⟨hcan, ?_⟩
          rw [hpin]
          exact ⟨by simpa using hopen, not_not.mp hproof, rfl⟩
        obtain ⟨hdo, hcan, hslots⟩ : Does c now rx (Label.Requests i (PairRole w s i nowMs m) (PairMint w s i nowMs m)) s s₁ ∧ _ :=
          mintEntry_does hmint fun hcan => ⟨rfl, hrole hcan⟩
        have hlink₁ : (s₁.slot i).transport.isSome := by
          show (s₁.hub.slots i).transport.isSome
          rw [hslots]
          exact hlink
        refine hdo.trans ((pinGrant_does m.instanceId token nowMs hlink₁).mono fun l hl => ?_)
        cases l with
        | role j r =>
          obtain ⟨hj, rfl⟩ := hl
          exact ⟨hj, hrole hcan⟩
        | mint => exact hl.elim
        | _ => exact hl

/-- `handlePairReq` whole. -/
theorem handlePairReq_does {i : SlotIdx} (m : PairReqMsg) (nowMs : UInt32) {s : Sys ε}
    (hlink : (s.slot i).transport.isSome) :
    Does c nowMs (some i) (Label.Requests i (PairRole w s i nowMs m) (PairMint w s i nowMs m)) s
      (handlePairReq w c i (some m) nowMs s) := by
  unfold handlePairReq
  dsimp only
  split
  · rename_i hpin
    exact handleKnock_does nowMs hlink hpin
  · rename_i proof hpin
    exact handlePinProof_does nowMs hlink hpin

/-! ## Windows -/

theorem windowEvent_does (kind : UInt8) (role : AccessLevel) (nowMs : UInt32) (s : Sys ε) :
    Does c now rx Label.Tells s (pairingWindowEvent w c kind role nowMs s) :=
  emitPairingEvent_does _ _ _ _ _ _ nowMs s

/-- The presence window is opened and announced. -/
def Label.Invites : Label → Prop
  | .window => True
  | l => l.Tells

theorem Label.Tells.invites {l : Label} (h : l.Tells) : l.Invites := by
  cases l <;> first | exact h | exact trivial

/-- A window is closed. -/
def Label.Shuts : Label → Prop
  | .narrow => True
  | l => l.Tells

theorem Label.Tells.shuts {l : Label} (h : l.Tells) : l.Shuts := by
  cases l <;> first | exact h | exact trivial

/-- Opening a presence window invites, and raises no session by itself. -/
theorem openPresenceWindow_does (s : Sys ε) : Does c now rx Label.Invites s (openPresenceWindow w c s) := by
  unfold openPresenceWindow
  dsimp only
  split
  · exact Does.refl s
  · have hopen : Does c now rx Label.Invites s (modPairing (fun p => p.openPresenceWindow (clockMs w s)) s) :=
      Does.act (l := .window) trivial (Act.window _ rfl rfl)
    refine Does.trans ?_ ((publishPendingPairingState_does _ _).mono fun _ h => h.invites)
    refine Does.trans ?_ ((windowEvent_does _ _ _ _).mono fun _ h => h.invites)
    exact hopen.trans (Does.of_view rfl)

/-- Closing it shuts the window and nothing else. -/
theorem closePresenceWindow_does (s : Sys ε) : Does c now rx Label.Shuts s (closePresenceWindow w c s) := by
  unfold closePresenceWindow
  dsimp only
  split
  · exact Does.refl s
  · refine Does.trans ?_ ((publishPendingPairingState_does _ _).mono fun _ h => h.shuts)
    refine Does.trans ?_ ((windowEvent_does _ _ _ _).mono fun _ h => h.shuts)
    exact Does.trans (shutPresence_does s trivial) (Does.of_view rfl)

/-- A window that ran out is told of once. -/
theorem noticeWindow_does (nowMs : UInt32) (anyExpired : Bool) (s : Sys ε) :
    Does c now rx Label.Tells s (noticeWindow w c nowMs anyExpired s) := by
  unfold noticeWindow
  dsimp only
  have hnote : Does c now rx Label.Tells s
      { s with hub := { s.hub with presenceWasOpen := s.hub.pairing.presenceWindowOpen nowMs } } := Does.of_view rfl
  by_cases hclosed : (s.hub.presenceWasOpen && !s.hub.pairing.presenceWindowOpen nowMs) = true
  · rw [if_pos hclosed, if_pos (by rw [hclosed]; rfl)]
    exact (hnote.trans (windowEvent_does _ _ nowMs _)).trans (publishPendingPairingState_does nowMs _)
  · rw [if_neg hclosed]
    split
    · exact hnote.trans (publishPendingPairingState_does nowMs _)
    · exact hnote

theorem pumpPairing_does (nowMs : UInt32) (s : Sys ε) : Does c now rx Label.Tells s (pumpPairing w c nowMs s) :=
  (Does.foldl (dropKnock_does nowMs) _ s).trans (noticeWindow_does nowMs _ _)

/-! ## The hub signature -/

/-- Taking a signing job leaves the sessions as they are. -/
theorem view_takePendingSignJob {s s' : Sys ε} {job : UInt32 × Bytes} (h : takePendingSignJob s = some (job, s')) :
    s'.view = s.view := by
  unfold takePendingSignJob at h
  simp only [Option.map_eq_some_iff, Prod.mk.injEq] at h
  obtain ⟨i, _, _, rfl⟩ := h
  exact view_modSlot_of_slotView rfl

/-- A signature is sent to the session that asked for it and to no other. -/
theorem emitHubSig_does {i : SlotIdx} (sig : Bytes) {s : Sys ε} (hlink : (s.slot i).transport.isSome) :
    Does c now rx Label.Tells s (emitHubSig w i sig s) :=
  (emits_sendEncoded _ hlink (by decide) (by decide)).does trivial

/-- A signature that comes back late is dropped, or sent to the session it belongs to. -/
theorem submitSignature_does (sid : UInt32) (sig : Bytes) (s : Sys ε) :
    Does c now rx Label.Tells s (submitSignature w sid sig s).2 := by
  unfold submitSignature
  split
  · exact Does.refl s
  · split
    · exact Does.refl s
    · split
      · exact Does.refl s
      · rename_i hlink
        rw [Bool.or_eq_true, not_or] at hlink
        have hmark : ∀ (i : SlotIdx) (t : Sys ε),
            Does c now rx Label.Tells t (t.modSlot i fun sl => { sl with signDelivered := true }) :=
          fun _ _ => Does.of_view (view_modSlot_of_slotView rfl)
        exact (emitHubSig_does sig (isSome_of_not_isNone hlink.2)).trans (hmark _ _)

theorem signPendingNow_does (maxJobs : Nat) : ∀ (fuel done : Nat) (s : Sys ε),
    Does c now rx Label.Tells s (signPendingNow w maxJobs fuel done s)
  | 0, _, s => Does.refl s
  | fuel + 1, done, s => by
    unfold signPendingNow
    split
    · exact Does.refl s
    · split
      · exact Does.refl s
      · rename_i sid msg s₁ hjob
        have hview : s₁.view = s.view := view_takePendingSignJob hjob
        have htake : Does c now rx Label.Tells s { s₁ with env := (w.signP256 msg s₁.env).2 } := Does.of_view hview
        dsimp only
        split
        · exact htake.trans (signPendingNow_does maxJobs fuel done _)
        · exact (htake.trans (submitSignature_does sid _ _)).trans (signPendingNow_does maxJobs fuel _ _)

end

end SlopSync
