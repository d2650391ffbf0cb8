import SlopSync.Codec.Ledger
import SlopSync.Laws.Revocation

/-! # The ledger across a reboot

What `encodeLedger` writes is read back as it was, and every device that was trusted is trusted as before.  The other way
round there is a gap: the decoder asks an entry for its device and not for its token, and a token nobody gave is sixteen
zero bytes.  `persistent_iff` says for which blobs that matters. -/

namespace SlopSync

open CborWriter CborReader CborDecoder Keyed

/-- The byte string under a key. -/
def CborTree.bytesAt (t : CborTree) (k : Nat) : Option Bytes :=
  match t.get k with
  | some (.bytes s) => some s
  | _ => none

/-- The maps a persisted ledger consists of. -/
def EntryMaps (blob : Bytes) (ts : List CborTree) : Prop :=
  CborTree.Fits kMaxDepth (.array ts) ∧ ∃ rest, blob = (CborTree.array ts).encode ++ rest

theorem EntryMaps.unique {blob : Bytes} {ts us : List CborTree} (ht : EntryMaps blob ts) (hu : EntryMaps blob us) :
    ts = us := by
  obtain ⟨hts, rest, rfl⟩ := ht
  obtain ⟨hus, rest', hblob⟩ := hu
  have h := (CborTree.encode_unique hts hus hblob).1
  exact CborTree.array.inj h

theorem EntryMaps.fits {blob : Bytes} {ts : List CborTree} (h : EntryMaps blob ts) {t : CborTree} (ht : t ∈ ts) :
    CborTree.Fits kMaxDepth t := by
  obtain ⟨hts, -⟩ := h
  cases hts with
  | array _ hall => exact (hall t ht).mono (by decide)

/-- Each on the left has one on the right. -/
theorem forall₂_left {α β : Type} {R : α → β → Prop} {as : List α} {bs : List β} (h : List.Forall₂ R as bs) :
    ∀ a ∈ as, ∃ b ∈ bs, R a b := by
  induction h with
  | nil => simp
  | cons hab _ ih =>
    refine List.forall_mem_cons.mpr ⟨⟨_, List.mem_cons_self, hab⟩, fun a ha => ?_⟩
    obtain ⟨b, hb, hr⟩ := ih a ha
    exact ⟨b, List.mem_cons_of_mem _ hb, hr⟩

namespace PairingManager

/-- The token of an entry is the one of its map, or all zero when the map has none. -/
theorem entry_token {d : Nat} {t : CborTree} {e : PairedEntry} (ht : CborTree.Fits d t)
    (h : entryDecoder.ofTree t = some e) :
    t.bytesAt TrustLedgerKey.token = some e.token.val ∨
      t.get TrustLedgerKey.token = none ∧ e.token = ByteArr.zero 16 := by
  rw [entryDecoder, andThen_ofTree, Option.bind_eq_some_iff] at h
  obtain ⟨st, hst, he⟩ := h
  have hentry : st.entry = e := by
    split_ifs at he
    · exact Option.some.inj he
    · cases he
  rcases record_get (fun st : StagedEntry => st.entry.token) TrustLedgerKey.token
    (fun _ _ hj => by simp [StagedEntry.field, hj]) ht hst with ⟨hnone, htok⟩ | ⟨v, s₁, s₂, hv, hstep, htok⟩
  · rw [hentry] at htok
    exact .inr ⟨hnone, htok⟩
  · have hkey : StagedEntry.field TrustLedgerKey.token s₁ =
        (arr 16).map fun v => { s₁ with entry := { s₁.entry with token := v } } := rfl
    rw [hkey, map_ofTree] at hstep
    obtain ⟨a, ha, rfl⟩ := Option.map_eq_some_iff.mp hstep
    have hbytes : v = .bytes a.val := by
      rw [arr, andThen_ofTree, Option.bind_eq_some_iff] at ha
      obtain ⟨s, hs, ha⟩ := ha
      split_ifs at ha with hlen
      · obtain rfl := Option.some.inj ha
        cases v <;> cases hs
        rfl
      · cases ha
    rw [hentry] at htok
    exact .inl (by rw [CborTree.bytesAt, hv, hbytes, htok])

/-- A blob that loads is an array of maps, one for each entry. -/
theorem entryMaps_of_stageLedger {blob : Bytes} {es : List PairedEntry} (h : stageLedger blob = some es) :
    ∃ ts, EntryMaps blob ts ∧ List.Forall₂ (fun t e => entryDecoder.ofTree t = some e) ts es := by
  rw [stageLedger_eq] at h
  have hrun : ledgerDecoder.run blob = .ok es := by
    cases hr : ledgerDecoder.run blob with
    | error e => simp [hr, Except.toOption] at h
    | ok es' =>
      rw [hr] at h
      rw [Option.some.inj h]
  obtain ⟨t, rest, ht, hblob, hof⟩ := run_ok.mp hrun
  obtain ⟨ts, rfl, hts⟩ := list_some hof
  exact ⟨ts, ⟨ht, rest, hblob⟩, hts⟩

theorem used_decodeLedger {m m' : PairingManager} {blob : Bytes} (h : m.decodeLedger blob = some m') :
    stageLedger blob = some m'.used := by
  unfold decodeLedger at h
  split at h
  · cases h
  · rename_i es hes
    obtain rfl := Option.some.inj h
    refine hes.trans (congrArg some ?_)
    change es = (es.map some ++ List.replicate (Limits.pairedDevicesMax - es.length) none).reduceOption
    rw [List.reduceOption_append, List.reduceOption_replicate_none, List.append_nil, List.reduceOption, List.filterMap_map]
    simp

/-- Who is trusted is a matter of the entries in use and their order. -/
theorem findByInstance_used (m : PairingManager) (inst : InstanceId) :
    m.findByInstance inst = m.used.find? (isFor inst) := by
  unfold findByInstance used
  induction m.entries.slots with
  | nil => rfl
  | cons o l ih =>
    cases o with
    | none => rw [findUsed_none_cons, List.reduceOption_cons_of_none, ih]
    | some e =>
      rw [findUsed_cons, List.reduceOption_cons_of_some, List.find?_cons, ih]
      cases isFor inst e <;> rfl

/-- Two managers that trust the same. -/
structure SameAnswers (hmac : Token → Nonce → Option Token) (m m' : PairingManager) : Prop where
  validate : ∀ inst token, m'.validate inst token = m.validate inst token
  validateProof : ∀ inst proof nonce, m'.validateProof hmac inst proof nonce = m.validateProof hmac inst proof nonce

theorem sameAnswers_of_used (hmac : Token → Nonce → Option Token) {m m' : PairingManager} (h : m'.used = m.used) :
    SameAnswers hmac m m' := by
  have hfind : ∀ inst, m'.findByInstance inst = m.findByInstance inst := fun inst => by
    rw [findByInstance_used, findByInstance_used, h]
  constructor
  · intro inst token
    unfold PairingManager.validate
    rw [hfind]
  · intro inst proof nonce
    unfold PairingManager.validateProof
    rw [hfind]

theorem decodeLedger_isSome (m : PairingManager) {blob : Bytes} {es : List PairedEntry} (h : stageLedger blob = some es) :
    ∃ m', m.decodeLedger blob = some m' ∧ m'.used = es := by
  cases hdec : m.decodeLedger blob with
  | none => rw [decodeLedger_none hdec] at h; cases h
  | some m' => exact ⟨m', rfl, (Option.some.inj (h.symm.trans (used_decodeLedger hdec))).symm⟩

/-- The blob names a token of sixteen bytes under key 11 of one of its entries. -/
def NamesToken (blob : Bytes) (token : Token) : Prop :=
  ∃ ts, EntryMaps blob ts ∧ ∃ t ∈ ts, t.bytesAt TrustLedgerKey.token = some token.val

/-- The ledger survives a reboot, and `blob` gives nobody trust it does not spell out. -/
structure Persistent (pinProof : Bytes → Nonce → Token) (hmac : Token → Nonce → Option Token) (m : PairingManager)
    (blob : Bytes) : Prop where
  survives : ∀ cap, Limits.trustLedgerMaxBytes ≤ cap → ∃ bs, m.encodeLedger cap = some bs ∧
    bs.length ≤ Limits.trustLedgerMaxBytes ∧
      ∃ m', ({} : PairingManager).decodeLedger bs = some m' ∧ m'.used = m.used ∧ SameAnswers hmac m m'
  whole : m.decodeLedger blob = none → (LedgerOp.decodeLedger blob).apply pinProof m = m
  named : ∀ m', m.decodeLedger blob = some m' → ∀ e ∈ m'.used, NamesToken blob e.token

theorem survives_encode (hmac : Token → Nonce → Option Token) (m : PairingManager) {cap : Nat}
    (hcap : Limits.trustLedgerMaxBytes ≤ cap) : ∃ bs, m.encodeLedger cap = some bs ∧
    bs.length ≤ Limits.trustLedgerMaxBytes ∧
      ∃ m', ({} : PairingManager).decodeLedger bs = some m' ∧ m'.used = m.used ∧ SameAnswers hmac m m' := by
  obtain ⟨henc, hlen⟩ := m.encodeLedger_eq hcap
  obtain ⟨m', hdec, hused⟩ := decodeLedger_isSome {} m.stageLedger_encode
  exact ⟨_, henc, hlen, m', hdec, hused, sameAnswers_of_used hmac hused⟩

/-- Every entry of the blob has a token, or one of them has the token that is made up for the others. -/
def TokensGiven (blob : Bytes) : Prop :=
  ∀ ts, EntryMaps blob ts → (∀ t ∈ ts, (t.get TrustLedgerKey.token).isSome) ∨
    ∃ t ∈ ts, t.bytesAt TrustLedgerKey.token = some (ByteArr.zero 16).val

theorem named_iff {blob : Bytes} {es : List PairedEntry} (h : stageLedger blob = some es) :
    (∀ e ∈ es, NamesToken blob e.token) ↔ TokensGiven blob := by
  obtain ⟨ts, hmaps, hall⟩ := entryMaps_of_stageLedger h
  have hof := forall₂_left hall
  have hfrom := forall₂_left hall.flip
  constructor
  · intro hnamed us hus
    obtain rfl := hmaps.unique hus
    by_contra hbad
    rw [not_or, not_forall] at hbad
    obtain ⟨⟨t, hbad⟩, hzero⟩ := hbad
    obtain ⟨ht, hnone⟩ := Classical.not_imp.mp hbad
    obtain ⟨e, he, hte⟩ := hof t ht
    obtain ⟨us, hus, u, hu, htok⟩ := hnamed e he
    obtain rfl := hmaps.unique hus
    rcases entry_token (hmaps.fits ht) hte with hsome | ⟨-, hz⟩
    · rw [CborTree.bytesAt, Option.not_isSome_iff_eq_none.mp hnone] at hsome
      cases hsome
    · rw [hz] at htok
      exact hzero ⟨u, hu, htok⟩
  · intro hgiven e he
    obtain ⟨t, ht, hte⟩ := hfrom e he
    rcases entry_token (hmaps.fits ht) hte with hsome | ⟨hnone, hz⟩
    · exact ⟨ts, hmaps, t, ht, hsome⟩
    · rcases hgiven ts hmaps with hsome | ⟨u, hu, htok⟩
      · have := hsome t ht
        rw [hnone] at this
        cases this
      · rw [hz]
        exact ⟨ts, hmaps, u, hu, htok⟩

/-- **A persisted ledger is as good as the ledger exactly when the blob, if it loads, gives its tokens.** -/
theorem persistent_iff (pinProof : Bytes → Nonce → Token) (hmac : Token → Nonce → Option Token) (m : PairingManager)
    (blob : Bytes) : Persistent pinProof hmac m blob ↔ ((stageLedger blob).isSome → TokensGiven blob) := by
  constructor
  · intro h hsome
    obtain ⟨es, hes⟩ := Option.isSome_iff_exists.mp hsome
    obtain ⟨m', hdec, rfl⟩ := decodeLedger_isSome m hes
    exact (named_iff hes).mp (h.named m' hdec)
  · intro h
    refine ⟨fun cap hcap => survives_encode hmac m hcap, fun hnone => ?_, fun m' hdec => ?_⟩
    · rw [LedgerOp.apply, hnone]
      rfl
    · have hes := used_decodeLedger hdec
      exact (named_iff hes).mpr (h (Option.isSome_of_eq_some hes))

/-- A persisted ledger whose only entry has a device and nothing else. -/
def tokenlessBlob : Bytes := [0x81, 0xA1, 0x01, 0x48, 1, 2, 3, 4, 5, 6, 7, 8]

/-- It loads, and sixteen zero bytes, which it does not contain, are then a token for control. -/
theorem tokenless_trusted :
    (({} : PairingManager).decodeLedger tokenlessBlob).map (fun m' =>
      m'.validate ⟨[1, 2, 3, 4, 5, 6, 7, 8], rfl⟩ (ByteArr.zero 16)) = some .control ∧
      ¬(ByteArr.zero 16).val <:+: tokenlessBlob ∧
      ¬∀ (m : PairingManager) (blob : Bytes), Persistent (fun _ _ => ByteArr.zero 16) (fun t _ => some t) m blob := by
  refine ⟨by decide +kernel, by decide, fun h => ?_⟩
  have hload : (stageLedger tokenlessBlob).isSome = true := by decide +kernel
  obtain ⟨es, hes⟩ := Option.isSome_iff_exists.mp hload
  obtain ⟨m', hdec, rfl⟩ := decodeLedger_isSome {} hes
  have hgiven := (named_iff hes).mp ((h {} tokenlessBlob).named m' hdec)
  have hmaps : EntryMaps tokenlessBlob [.map [(1, .bytes [1, 2, 3, 4, 5, 6, 7, 8])]] := by
    refine ⟨.array (by decide) ?_, [], by decide⟩
    simp only [List.forall_mem_singleton]
    refine .map (by decide) ?_ ?_ ?_
    · exact List.pairwise_singleton ..
    · simp
    · simp only [List.forall_mem_singleton]
      exact .bytes (by decide)
  rcases hgiven _ hmaps with hsome | ⟨t, ht, htok⟩
  · exact absurd (hsome _ List.mem_cons_self) (by decide)
  · rw [List.mem_singleton] at ht
    subst ht
    exact absurd htok (by decide)

end PairingManager

end SlopSync
