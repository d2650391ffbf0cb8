import SlopSync.LedgerCodec

/-! # Revocation

A device is looked up by its instance id, and the search returns the first entry it finds.  Revoking a device ends
its trust only if the ledger has one entry a device.  `grant` searches before it fills a slot; `importEntry` and
`decodeLedger` do not.  `Distinguishes` says when they may be used, and `revocation_complete_iff` that nothing else is
needed. -/

namespace SlopSync

open Keyed

namespace PairingManager

/-- The devices in the ledger. -/
def instances (m : PairingManager) : List InstanceId := usedKeys PairedEntry.instanceId m.entries.slots

/-- The PIN ceremony of the manager alone; `pinProof` is the truncated HMAC. -/
def handlePairReq (pinProof : Bytes → Nonce → Token) (m : PairingManager) (inst : InstanceId) (proof : Token)
    (nonce : Nonce) (token : Token) (nowMs : UInt32) (grantRole : AccessLevel) : PairOutcome × PairingManager :=
  if !m.windowOpen nowMs then (.windowClosed, m)
  else if pinProof m.pin nonce ≠ proof then (.denied, m.notePinFailure)
  else if !m.canGrant inst then (.denied, m)
  else (.granted, { m.grant inst grantRole PairingModes.pinProof token with failCount := 0 })

section

variable {m m' : PairingManager} {inst : InstanceId}

theorem findByInstance_eq_none : m.findByInstance inst = none ↔ inst ∉ m.instances := by
  unfold findByInstance instances
  rw [findUsed_eq_none, mem_usedKeys]
  constructor
  · rintro h ⟨e, he, rfl⟩
    have hf := h e he
    rw [isFor_iff.mpr rfl] at hf
    cases hf
  · intro h e he
    refine Bool.eq_false_iff.mpr fun hp => h ⟨e, he, isFor_iff.mp hp⟩

theorem instances_modify {f : PairedEntry → PairedEntry} (hf : ∀ e, e.instanceId = inst → (f e).instanceId = inst) :
    (m.modify inst f).instances = m.instances := by
  refine usedKeys_modifyUsed (fun e he => ?_) m.entries.slots
  rw [isFor_iff] at he
  rw [hf e he, he]

/-- A grant brings its device in, if there is room, and moves no other. -/
theorem instances_grant (role : AccessLevel) (mode : UInt8) (token : Token) :
    (m.grant inst role mode token).instances = m.instances ∨
      (inst ∉ m.instances ∧ (m.grant inst role mode token).instances.Perm (inst :: m.instances)) := by
  unfold grant
  split
  · exact .inl (instances_modify fun _ h => h)
  · rename_i hnone
    have hnew : inst ∉ m.instances := by
      rw [← findByInstance_eq_none]
      simpa using hnone
    dsimp only
    split
    · exact .inl rfl
    · rename_i slots hslots
      exact .inr ⟨hnew, usedKeys_fillFirst hslots⟩

theorem instances_observeHello (kind name : Bytes) (ver : Option Bytes) (pm : UInt8) :
    (m.observeHello inst kind name ver pm).2.instances = m.instances := by
  cases h : m.findByInstance inst with
  | none =>
    unfold observeHello
    rw [h]
  | some e =>
    have he : e.instanceId = inst := findByInstance_some h
    unfold instances
    rw [(observeHello_known h kind name ver pm).2.2.2]
    refine instances_modify fun _ _ => ?_
    rw [(observedEntry_fixed m e kind name ver pm).1, he]

theorem instances_revoke (h : m.revoke inst = some m') : m.instances.Perm (inst :: m'.instances) := by
  unfold revoke at h
  split at h
  · rename_i hsome
    obtain ⟨e, he⟩ := Option.isSome_iff_exists.mp hsome
    cases h
    have hperm : m.instances.Perm _ := usedKeys_removeUsed he
    rwa [findByInstance_some he] at hperm
  · cases h

theorem entryCount_eq : m.entryCount = m.instances.length := (length_usedKeys _ _).symm

theorem instances_importEntry (e : PairedEntry) :
    ((∀ o ∈ m.entries.slots, o.isSome) ∧ (m.importEntry e).instances = m.instances) ∨
      ((∃ o ∈ m.entries.slots, o.isSome = false) ∧ (m.importEntry e).instances.Perm (e.instanceId :: m.instances)) := by
  unfold importEntry
  split
  · rename_i hfull
    exact .inl ⟨fillFirst_eq_none.mp hfull, rfl⟩
  · rename_i slots hslots
    refine .inr ⟨?_, usedKeys_fillFirst hslots⟩
    by_contra hno
    have hfull : ∀ o ∈ m.entries.slots, o.isSome := by
      intro o ho
      by_contra hn
      exact hno ⟨o, ho, Bool.eq_false_iff.mpr hn⟩
    rw [fillFirst_eq_none.mpr hfull] at hslots
    cases hslots

/-- A persisted ledger replaces all entries by its own. -/
theorem instances_decodeLedger {blob : Bytes} (h : m.decodeLedger blob = some m') :
    ∃ es, stageLedger blob = some es ∧ m'.instances = es.map PairedEntry.instanceId := by
  unfold decodeLedger at h
  split at h
  · cases h
  · rename_i es hes
    cases h
    refine ⟨es, hes, ?_⟩
    show usedKeys _ (es.map some ++ List.replicate _ none) = _
    simp [usedKeys, List.filterMap_append, List.filterMap_map, List.filterMap_eq_map']

theorem decodeLedger_none {blob : Bytes} (h : m.decodeLedger blob = none) : stageLedger blob = none := by
  unfold decodeLedger at h
  split at h
  · assumption
  · cases h

end

end PairingManager

/-! ## Runs of the manager -/

/-- What can be done to a manager. -/
inductive LedgerOp
  | openWindow (pinAscii : Bytes) (nowMs : UInt32)
  | grant (inst : InstanceId) (role : AccessLevel) (mode : UInt8) (token : Token)
  | handlePairReq (inst : InstanceId) (proof : Token) (nonce : Nonce) (token : Token) (nowMs : UInt32)
      (grantRole : AccessLevel)
  | observeHello (inst : InstanceId) (kind name : Bytes) (ver : Option Bytes) (pm : UInt8)
  | importEntry (e : PairedEntry)
  | decodeLedger (blob : Bytes)
  | revoke (inst : InstanceId)

namespace LedgerOp

def apply (pinProof : Bytes → Nonce → Token) (m : PairingManager) : LedgerOp → PairingManager
  | .openWindow pin nowMs => m.openWindow pin nowMs
  | .grant inst role mode token => m.grant inst role mode token
  | .handlePairReq inst proof nonce token nowMs role =>
    (m.handlePairReq pinProof inst proof nonce token nowMs role).2
  | .observeHello inst kind name ver pm => (m.observeHello inst kind name ver pm).2
  | .importEntry e => m.importEntry e
  | .decodeLedger blob => (m.decodeLedger blob).getD m
  | .revoke inst => (m.revoke inst).getD m

/-- An import finds no entry of its device, or no room; a persisted ledger has one entry a device. -/
def Distinguishes (m : PairingManager) : LedgerOp → Prop
  | .importEntry e => e.instanceId ∉ m.instances ∨ ∀ o ∈ m.entries.slots, o.isSome
  | .decodeLedger blob => ∀ es, PairingManager.stageLedger blob = some es → (es.map PairedEntry.instanceId).Nodup
  | _ => True

/-- The device is neither granted anything nor imported. -/
def Spares (inst : InstanceId) : LedgerOp → Prop
  | .grant x _ _ _ | .handlePairReq x _ _ _ _ _ => x ≠ inst
  | .importEntry e => e.instanceId ≠ inst
  | .decodeLedger blob => ∀ es, PairingManager.stageLedger blob = some es → inst ∉ es.map PairedEntry.instanceId
  | _ => True

variable {pinProof : Bytes → Nonce → Token} {m : PairingManager} {inst : InstanceId}

/-- The PIN ceremony does to the ledger what a grant does, or nothing. -/
theorem instances_handlePairReq (x : InstanceId) (proof : Token) (nonce : Nonce) (token : Token) (nowMs : UInt32)
    (role : AccessLevel) : (m.handlePairReq pinProof x proof nonce token nowMs role).2.instances = m.instances ∨
      (x ∉ m.instances ∧ (m.handlePairReq pinProof x proof nonce token nowMs role).2.instances.Perm (x :: m.instances)) := by
  unfold PairingManager.handlePairReq
  split
  · exact .inl rfl
  · split
    · exact .inl rfl
    · split
      · exact .inl rfl
      · exact PairingManager.instances_grant role PairingModes.pinProof token

/-- **The condition is exact**: a step keeps one entry a device iff it meets it. -/
theorem nodup_apply (hm : m.instances.Nodup) (op : LedgerOp) :
    (op.apply pinProof m).instances.Nodup ↔ op.Distinguishes m := by
  have hadded : ∀ {l : List InstanceId} {x : InstanceId}, l = m.instances ∨ (x ∉ m.instances ∧ l.Perm (x :: m.instances)) →
      l.Nodup := by
    rintro l x (rfl | ⟨hx, hperm⟩)
    · exact hm
    · exact hperm.nodup_iff.mpr (List.nodup_cons.mpr ⟨hx, hm⟩)
  cases op with
  | openWindow pin nowMs => exact iff_of_true hm trivial
  | grant x role mode token => exact iff_of_true (hadded (PairingManager.instances_grant role mode token)) trivial
  | handlePairReq x proof nonce token nowMs role =>
    exact iff_of_true (hadded (instances_handlePairReq x proof nonce token nowMs role)) trivial
  | observeHello x kind name ver pm =>
    refine iff_of_true ?_ trivial
    show (m.observeHello x kind name ver pm).2.instances.Nodup
    rw [PairingManager.instances_observeHello]
    exact hm
  | importEntry e =>
    show (m.importEntry e).instances.Nodup ↔ _
    rcases PairingManager.instances_importEntry (m := m) e with ⟨hfull, heq⟩ | ⟨⟨o, ho, hfree⟩, hperm⟩
    · rw [heq]
      exact iff_of_true hm (.inr hfull)
    · rw [hperm.nodup_iff, List.nodup_cons]
      constructor
      · exact fun h => .inl h.1
      · rintro (h | h)
        · exact ⟨h, hm⟩
        · rw [h o ho] at hfree
          cases hfree
  | decodeLedger blob =>
    show ((m.decodeLedger blob).getD m).instances.Nodup ↔ _
    cases hdec : m.decodeLedger blob with
    | none =>
      refine iff_of_true hm fun es hes => ?_
      rw [PairingManager.decodeLedger_none hdec] at hes
      cases hes
    | some m' =>
      obtain ⟨es, hes, heq⟩ := PairingManager.instances_decodeLedger hdec
      rw [Option.getD_some, heq]
      constructor
      · intro h es' hes'
        cases hes.symm.trans hes'
        exact h
      · exact fun h => h es hes
  | revoke x =>
    refine iff_of_true ?_ trivial
    show ((m.revoke x).getD m).instances.Nodup
    cases hrev : m.revoke x with
    | none => exact hm
    | some m' => exact (List.nodup_cons.mp ((PairingManager.instances_revoke hrev).nodup_iff.mp hm)).2

/-- A device that is not in the ledger stays out, unless it is granted something or imported. -/
theorem absent_apply {op : LedgerOp} (hop : op.Spares inst) (hm : inst ∉ m.instances) :
    inst ∉ (op.apply pinProof m).instances := by
  have hadded : ∀ {l : List InstanceId} {x : InstanceId}, x ≠ inst →
      l = m.instances ∨ (x ∉ m.instances ∧ l.Perm (x :: m.instances)) → inst ∉ l := by
    rintro l x hx (rfl | ⟨-, hperm⟩)
    · exact hm
    · rw [hperm.mem_iff, List.mem_cons, not_or]
      exact ⟨hx.symm, hm⟩
  cases op with
  | openWindow pin nowMs => exact hm
  | grant x role mode token => exact hadded hop (PairingManager.instances_grant role mode token)
  | handlePairReq x proof nonce token nowMs role =>
    exact hadded hop (instances_handlePairReq x proof nonce token nowMs role)
  | observeHello x kind name ver pm =>
    show inst ∉ (m.observeHello x kind name ver pm).2.instances
    rw [PairingManager.instances_observeHello]
    exact hm
  | importEntry e =>
    show inst ∉ (m.importEntry e).instances
    rcases PairingManager.instances_importEntry (m := m) e with ⟨-, heq⟩ | ⟨-, hperm⟩
    · rw [heq]
      exact hm
    · rw [hperm.mem_iff, List.mem_cons, not_or]
      exact ⟨fun h => hop h.symm, hm⟩
  | decodeLedger blob =>
    show inst ∉ ((m.decodeLedger blob).getD m).instances
    cases hdec : m.decodeLedger blob with
    | none => exact hm
    | some m' =>
      obtain ⟨es, hes, heq⟩ := PairingManager.instances_decodeLedger hdec
      rw [Option.getD_some, heq]
      exact hop es hes
  | revoke x =>
    show inst ∉ ((m.revoke x).getD m).instances
    cases hrev : m.revoke x with
    | none => exact hm
    | some m' => exact fun h => hm ((PairingManager.instances_revoke hrev).mem_iff.mpr (List.mem_cons_of_mem x h))

end LedgerOp

namespace PairingManager

def run (pinProof : Bytes → Nonce → Token) (m : PairingManager) (ops : List LedgerOp) : PairingManager :=
  ops.foldl (LedgerOp.apply pinProof) m

variable {pinProof : Bytes → Nonce → Token} {hmac : Token → Nonce → Option Token} {m m' : PairingManager}
  {inst : InstanceId}

theorem absent_run : ∀ {ops : List LedgerOp} {m : PairingManager}, (∀ op ∈ ops, op.Spares inst) →
    inst ∉ m.instances → inst ∉ (m.run pinProof ops).instances
  | [], _, _, hm => hm
  | op :: ops, m, hops, hm => by
    have hnext : inst ∉ (op.apply pinProof m).instances := LedgerOp.absent_apply (hops op List.mem_cons_self) hm
    have hrest : ∀ o ∈ ops, o.Spares inst := fun o ho => hops o (List.mem_cons_of_mem op ho)
    show inst ∉ ((op.apply pinProof m).run pinProof ops).instances
    exact absent_run hrest hnext

/-- A device that is not in the ledger is trusted with nothing. -/
theorem validate_absent (h : inst ∉ m.instances) (token : Token) : m.validate inst token = .watch := by
  unfold validate
  rw [findByInstance_eq_none.mpr h]

theorem validateProof_absent (h : inst ∉ m.instances) (proof : Token) (nonce : Nonce) :
    m.validateProof hmac inst proof nonce = (.watch, false) := by
  unfold validateProof
  rw [findByInstance_eq_none.mpr h]

/-- One entry a device, and a revocation that succeeds frees one slot and ends the device's trust until the next grant
or import for it. -/
structure Revocable (pinProof : Bytes → Nonce → Token) (hmac : Token → Nonce → Option Token) (m : PairingManager) :
    Prop where
  distinct : m.instances.Nodup
  frees : ∀ inst m', m.revoke inst = some m' → m'.entryCount + 1 = m.entryCount
  ends : ∀ inst m' ops, m.revoke inst = some m' → (∀ op ∈ ops, LedgerOp.Spares inst op) → ∀ token proof nonce,
    (m'.run pinProof ops).validate inst token = .watch ∧
      ((m'.run pinProof ops).validateProof hmac inst proof nonce).1 = .watch

theorem revocable_of_nodup (hm : m.instances.Nodup) : Revocable pinProof hmac m := by
  refine ⟨hm, fun inst m' hrev => ?_, fun inst m' ops hrev hops token proof nonce => ?_⟩
  · rw [entryCount_eq, entryCount_eq, (instances_revoke hrev).length_eq]
    rfl
  · have hgone : inst ∉ m'.instances := (List.nodup_cons.mp ((instances_revoke hrev).nodup_iff.mp hm)).1
    have hend : inst ∉ (m'.run pinProof ops).instances := absent_run hops hgone
    exact ⟨validate_absent hend token, by rw [validateProof_absent hend]⟩

/-- Each of the steps meets the condition where it is taken. -/
def Distinguishing (pinProof : Bytes → Nonce → Token) : List LedgerOp → PairingManager → Prop
  | [], _ => True
  | op :: ops, m => op.Distinguishes m ∧ Distinguishing pinProof ops (op.apply pinProof m)

theorem revocable_prefixes : ∀ {ops : List LedgerOp} {m : PairingManager}, m.instances.Nodup →
    ((∀ pre, pre <+: ops → Revocable pinProof hmac (m.run pinProof pre)) ↔ Distinguishing pinProof ops m)
  | [], m, hm => by
    refine iff_of_true (fun pre hpre => ?_) trivial
    rw [List.prefix_nil.mp hpre]
    exact revocable_of_nodup hm
  | op :: ops, m, hm => by
    constructor
    · intro h
      have hone := h [op] (by simp)
      have hop := (LedgerOp.nodup_apply hm op).mp hone.distinct
      refine ⟨hop, (revocable_prefixes hone.distinct).mp fun pre hpre => ?_⟩
      exact h (op :: pre) (List.cons_prefix_cons.mpr ⟨rfl, hpre⟩)
    · rintro ⟨hop, hrest⟩ pre hpre
      have hnd : (op.apply pinProof m).instances.Nodup := (LedgerOp.nodup_apply hm op).mpr hop
      cases pre with
      | nil => exact revocable_of_nodup hm
      | cons o pre =>
        obtain ⟨rfl, hpre'⟩ := List.cons_prefix_cons.mp hpre
        exact (revocable_prefixes hnd).mpr hrest pre hpre'

/-- **Revocation is complete exactly when imports and persisted ledgers keep one entry a device.**  A run of the
manager has the property in every state it passes iff each of its steps meets the condition. -/
theorem revocation_complete_iff (pinProof : Bytes → Nonce → Token) (hmac : Token → Nonce → Option Token)
    (ops : List LedgerOp) : (∀ pre, pre <+: ops → Revocable pinProof hmac (({} : PairingManager).run pinProof pre)) ↔
      Distinguishing pinProof ops {} :=
  revocable_prefixes List.nodup_nil

/-- A persisted ledger with two entries of one device. -/
def twinBlob : Bytes :=
  [0x82, 0xA1, 0x01, 0x48, 0, 0, 0, 0, 0, 0, 0, 0, 0xA1, 0x01, 0x48, 0, 0, 0, 0, 0, 0, 0, 0]

/-- After the device was revoked once, its second entry still has it trusted with control. -/
theorem revocation_incomplete :
    ¬∀ (ops : List LedgerOp), Revocable (fun _ _ => ByteArr.zero 16) (fun t _ => some t)
      (({} : PairingManager).run (fun _ _ => ByteArr.zero 16) ops) := by
  intro h
  have hrev := h [.decodeLedger twinBlob]
  have hsome : ((({} : PairingManager).run (fun _ _ => ByteArr.zero 16) [.decodeLedger twinBlob]).revoke
      (ByteArr.zero 8)).map (fun m' => m'.validate (ByteArr.zero 8) (ByteArr.zero 16)) = some .control := by
    decide +kernel
  obtain ⟨m', hm', hval⟩ := Option.map_eq_some_iff.mp hsome
  have hwatch := (hrev.ends _ m' [] hm' (fun _ ho => absurd ho List.not_mem_nil) (ByteArr.zero 16) (ByteArr.zero 16)
    (ByteArr.zero 8)).1
  exact absurd (hval.symm.trans hwatch) (by decide)

end PairingManager

end SlopSync
