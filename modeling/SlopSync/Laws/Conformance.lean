import SlopSync.CatalogCheck
import SlopSync.Laws.CatalogRoundTrip

/-! # What the catalog check vouches for

* `checkCatalog_ok` — the report is empty just when the catalog conforms, however many entries there are;
* `checkCatalog_encodes` — what passed with a buffer is encoded wherever there is room, and how much that takes;
* `decodeCatalog_checked` — what a decoder took is wrong in what it says only, never in its form. -/

namespace SlopSync.Builder

open CborWriter CborReader CborDecoder

variable {caps : Capacities} {c c' : BasicCatalog caps} {scratch : Nat} {prev : Option UInt16} {e : CatalogEntry}
  {es : List CatalogEntry}

/-! ## Conformance -/

/-- What is asked of an entry. -/
structure EntryConforms (c : BasicCatalog caps) (scratch : Nat) (e : CatalogEntry) : Prop where
  named : e.name ≠ []
  name : e.name.length ≤ 32
  some : e.fieldCount ≠ 0
  resolves : resolves c e = true
  sample : e.cls = .state → layoutWireSize (c.layoutFields e) ≤ Limits.minTransportPayload
  tab : e.hasCategory = true → 0x40 ≤ e.category → e.category ≤ 0x7E → e.categoryLabel ≠ []
  writable : ∀ f ∈ c.layoutFields e, f.hasSettingKey = true → e.hasSettingChannel = true
  measured : scratch ≠ 0 → Sent c e ∧ (c.wireContent e).tree.encode.length ≤ scratch
  safety : e.id = Channels.safety → e.cls = .state
  safetyIntents : e.id = Channels.safetyIntents → e.cls = .intent

structure Conforms (c : BasicCatalog caps) (scratch : Nat) : Prop where
  ids : (c.entries.live.map CatalogEntry.id).Pairwise (· < ·)
  entries : ∀ e ∈ c.entries.live, EntryConforms c scratch e

/-! ## One entry -/

/-- The pool of the form holds the payload. -/
theorem wrongFieldForm_iff (hsome : e.fieldCount ≠ 0) : wrongFieldForm c e = false ↔ resolves c e = true := by
  have hcount : (e.fieldCount != 0) = true := bne_iff_ne.mpr hsome
  unfold wrongFieldForm resolves
  rw [hcount, Bool.true_and]
  cases hform : e.form with
  | layout => simp
  | schema => simp
  | store =>
    constructor
    · intro h
      simpa using (Bool.or_eq_false_iff.mp h).2
    · intro h
      have hone : e.fieldCount = 1 := by
        unfold BasicCatalog.storeDescriptor at h
        split_ifs at h with hstore
        · exact hstore.2
        · cases h
      simpa [hone] using h

/-- An entry of more fields than an encoder takes leaves the buffer as it is. -/
theorem encodeEntry_long (hres : resolves c e = true) (hlong : CatalogEntry.kMaxFields < e.fieldCount.toNat)
    (w : CborWriter) : encodeEntry w c e = w := by
  unfold resolves at hres
  cases hform : e.form with
  | layout =>
    simp only [hform] at hres
    simp only [encodeEntry, hform, eq_of_beq hres, if_pos hlong]
  | schema =>
    simp only [hform] at hres
    simp only [encodeEntry, hform, eq_of_beq hres, if_pos hlong]
  | store =>
    simp only [hform, BasicCatalog.storeDescriptor] at hres
    split_ifs at hres with hstore
    · rw [hstore.2] at hlong
      exact absurd hlong (by decide)
    · cases hres

/-- **What was measured can be sent.** -/
theorem entryTooLarge_iff (hscratch : scratch < 2 ^ 64) (hne : scratch ≠ 0) (hres : resolves c e = true) :
    entryTooLarge c scratch e = false ↔ Sent c e ∧ (c.wireContent e).tree.encode.length ≤ scratch := by
  have hmeasured : (scratch != 0) = true := bne_iff_ne.mpr hne
  unfold entryTooLarge
  rw [hmeasured, Bool.true_and]
  rcases Nat.lt_or_ge CatalogEntry.kMaxFields e.fieldCount.toNat with hlong | hbounded
  · have hnil : (encodeEntry { cap := scratch } c e).result = Option.some [] := by
      rw [encodeEntry_long hres hlong]
      rfl
    constructor
    · intro h
      rw [hnil] at h
      cases h
    · rintro ⟨hsent, -⟩
      exact absurd hsent.resolved.bounded (Nat.not_le.mpr hlong)
  · have hresolved : Resolved c e := ⟨hres, hbounded⟩
    rw [encodeEntry_emit _ hresolved]
    constructor
    · intro h
      cases hbs : (emit (c.wireContent e).tree { cap := scratch }).result with
      | none =>
        rw [hbs] at h
        cases h
      | some bs =>
        obtain ⟨rfl, hfits, hcap⟩ := result_emit
          (typed_content (x := c.wireContent e) hresolved.length_payload sized_payload) hscratch hbs
        rw [hbs] at h
        have hmax := of_decide_eq_false (Bool.or_eq_false_iff.mp h).2
        exact ⟨⟨hresolved, hfits, Nat.not_lt.mp hmax⟩, hcap⟩
    · rintro ⟨hsent, hcap⟩
      rw [emit_result hsent.fits hcap]
      simp [encode_tree_ne_nil, hsent.length]

/-- Nothing is wrong with an entry that conforms, and comes behind the one before. -/
theorem faults_nil (hscratch : scratch < 2 ^ 64) :
    faults c scratch prev e = [] ↔ prev.any (e.id ≤ ·) = false ∧ EntryConforms c scratch e := by
  have hall : faults c scratch prev e = [] ↔ ∀ x ∈ checks c scratch prev e, x.2 = false := by
    rw [faults, List.map_eq_nil_iff, List.filter_eq_nil_iff]
    simp only [Bool.not_eq_true]
  have hmeasured : resolves c e = true → (entryTooLarge c scratch e = false ↔
      (scratch ≠ 0 → Sent c e ∧ (c.wireContent e).tree.encode.length ≤ scratch)) := fun hres => by
    rcases Nat.eq_zero_or_pos scratch with rfl | hpos
    · simp [entryTooLarge]
    · rw [entryTooLarge_iff hscratch (Nat.ne_of_gt hpos) hres]
      exact ⟨fun h _ => h, fun h => h (Nat.ne_of_gt hpos)⟩
  rw [hall]
  simp only [checks, List.forall_mem_cons]
  constructor
  · rintro ⟨hid, hnamed, hname, hsome, hform, hsample, htab, hwritable, hlarge, hsafety, hintents, -⟩
    have hnamed : e.name ≠ [] := by simpa using hnamed
    have hsome : e.fieldCount ≠ 0 := by simpa using hsome
    have hres := (wrongFieldForm_iff hsome).mp hform
    refine ⟨hid, hnamed, by simpa [hnamed] using hname, hsome, hres, fun hcls => ?_, by simpa using htab, ?_,
      (hmeasured hres).mp hlarge, by simpa using hsafety, by simpa using hintents⟩
    · have hlayout : e.form = .layout := by rw [CatalogEntry.form, hcls]
      simpa [hcls, hlayout] using hsample
    · intro f hf hkey
      by_contra hnone
      have hany : (c.layoutFields e).any LayoutField.hasSettingKey = true := List.any_eq_true.mpr ⟨f, hf, hkey⟩
      simp [hany, hnone] at hwritable
  · rintro ⟨hid, hconforms⟩
    obtain ⟨hnamed, hname, hsome, hres, hsample, htab, hwritable, hlarge, hsafety, hintents⟩ := hconforms
    refine ⟨hid, by simpa using hnamed, by simpa using fun _ => hname, by simpa using hsome,
      (wrongFieldForm_iff hsome).mpr hres, ?_, by simpa using htab, ?_, (hmeasured hres).mpr hlarge,
      by simpa using hsafety, by simpa using hintents, by simp⟩
    · simpa using fun _ hcls => hsample hcls
    · rw [Bool.and_eq_false_iff, Bool.not_eq_false', List.any_eq_false]
      by_cases hchannel : e.hasSettingChannel = true
      · exact .inl hchannel
      · exact .inr fun f hf hkey => hchannel (hwritable f hf hkey)

/-! ## A catalog -/

theorem faultsFrom_nil (hscratch : scratch < 2 ^ 64) :
    faultsFrom c scratch prev es = [] ↔
      ((prev.toList ++ es.map CatalogEntry.id).Pairwise (· < ·)) ∧ ∀ e ∈ es, EntryConforms c scratch e := by
  induction es generalizing prev with
  | nil => cases prev <;> simp [faultsFrom]
  | cons e es ih =>
    rw [faultsFrom, List.append_eq_nil_iff, faults_nil hscratch, ih, List.forall_mem_cons, List.map_cons]
    have hids : (prev.toList ++ e.id :: es.map CatalogEntry.id).Pairwise (· < ·) ↔
        prev.any (e.id ≤ ·) = false ∧ ((some e.id).toList ++ es.map CatalogEntry.id).Pairwise (· < ·) := by
      cases prev with
      | none => simp
      | some i =>
        simp only [Option.toList_some, List.singleton_append, List.pairwise_cons, List.forall_mem_cons, Option.any_some,
          decide_eq_false_iff_not, UInt16.not_le]
        constructor
        · rintro ⟨⟨hlt, -⟩, habove, hpair⟩
          exact ⟨hlt, habove, hpair⟩
        · rintro ⟨hlt, habove, hpair⟩
          exact ⟨⟨hlt, fun j hj => UInt16.lt_trans hlt (habove j hj)⟩, habove, hpair⟩
    rw [hids]
    constructor
    · rintro ⟨⟨hprev, he⟩, hpair, hall⟩
      exact ⟨⟨hprev, hpair⟩, he, hall⟩
    · rintro ⟨⟨hprev, hpair⟩, he, hall⟩
      exact ⟨⟨hprev, he⟩, hpair, hall⟩

theorem ok_nil : (checkCatalog c scratch).ok = true ↔ faultsFrom c scratch none c.entries.live = [] := by
  rw [ConformanceReport.ok, checkCatalog_violations, List.isEmpty_iff, List.take_eq_nil_iff]
  exact ⟨fun h => h.resolve_left (by decide), .inr⟩

theorem ok_iff (hscratch : scratch < 2 ^ 64) : (checkCatalog c scratch).ok = true ↔ Conforms c scratch := by
  rw [ok_nil, faultsFrom_nil hscratch]
  exact ⟨fun h => ⟨h.1, h.2⟩, fun h => ⟨h.ids, h.entries⟩⟩

/-- **The report is empty just when the catalog conforms.**  What did not fit into a full report does not matter, and
neighbours that ascend are enough for all. -/
theorem checkCatalog_ok (hscratch : scratch < 2 ^ 64) :
    ((checkCatalog c scratch).ok = true ↔ Conforms c scratch) ∧
      (checkCatalog c scratch).violations = (faultsFrom c scratch none c.entries.live).take ConformanceReport.kMax :=
  ⟨ok_iff hscratch, checkCatalog_violations c scratch⟩

/-- The two safety channels, a state of two fields of which one can be set, and a store. -/
def boiler : Option (BasicCatalog smallCapacities) := do
  let c ← BasicCatalog.empty.poolAddLayoutField { name := textBytes "latched" }
  let c ← c.addEntryVerbatim { id := 0x0003, name := textBytes "safety", fieldCount := 1 }
  let c ← c.poolAddLabel (textBytes "off")
  let c ← c.poolAddLabel (textBytes "eco")
  let c ← c.poolAddLabel (textBytes "full")
  let c ← c.poolSetLabelAccess 2 .configure
  let c ← c.poolAddSchemaField
    { key := 1, name := textBytes "mode", options := { offset := 0, count := 3 }, hasAccess := true, access := .control
      hasOptionAccess := true }
  let c ← c.addEntryVerbatim
    { id := 0x0005, name := textBytes "safety-intents", cls := .intent, dir := .c2h, access := .control, fieldCount := 1 }
  let c ← c.poolAddLabel (textBytes "pump")
  let c ← c.poolAddLayoutField { name := textBytes "relays", type := .bitfield8, bits := { offset := 3, count := 1 } }
  let c ← c.poolAddLayoutField
    { name := textBytes "target", type := .f32, unit := textBytes "C", hasMin := true, min := 0x41200000, hasMax := true
      max := 0x42A00000, hasSettingKey := true, settingKey := 1 }
  let c ← c.addEntryVerbatim
    { id := 0x0100, name := textBytes "boiler", maxRateHz := 0x41200000, fieldCount := 2, fieldOffset := 1
      hasCategory := true, category := 0x40, categoryLabel := textBytes "Heating"
      hasSettingChannel := true, settingChannel := 0x0005 }
  let c ← c.poolAddStore { storeId := 7, kind := textBytes "curves", capacity := 8, perItemMax := 512, nameMax := 24 }
  c.addEntryVerbatim { id := 0x0101, name := textBytes "curves", cls := .store, fieldCount := 1 }

theorem boiler_ok : ∃ c, boiler = some c ∧ (checkCatalog c 128).ok = true ∧ (checkCatalog c 64).ok = false := by
  have h : (boiler.map fun c => ((checkCatalog c 128).ok, (checkCatalog c 64).ok)) = some (true, false) := by
    decide +kernel
  obtain ⟨c, hc, hpair⟩ := Option.map_eq_some_iff.mp h
  exact ⟨c, hc, congrArg Prod.fst hpair, congrArg Prod.snd hpair⟩

/-- An entry of the boiler takes more than 64 bytes and no more than 128. -/
theorem checkCatalog_ok_boiler : ∃ c, boiler = some c ∧ Conforms c 128 ∧ ¬Conforms c 64 := by
  obtain ⟨c, hc, hwide, hnarrow⟩ := boiler_ok
  refine ⟨c, hc, (checkCatalog_ok (by decide)).1.mp hwide, fun h => ?_⟩
  rw [(checkCatalog_ok (by decide)).1.mpr h] at hnarrow
  cases hnarrow

/-- What all entries take, each within its bound. -/
theorem length_encodings {l : List WireContent} {n : Nat} (h : ∀ x ∈ l, x.tree.encode.length ≤ n) :
    (encodings l).length ≤ l.length * n := by
  induction l with
  | nil => exact Nat.zero_le _
  | cons x l ih =>
    obtain ⟨hx, hl⟩ := List.forall_mem_cons.mp h
    have hrest := ih hl
    have hsplit : encodings (x :: l) = x.tree.encode ++ encodings l := by
      rw [encodings, List.flatMap_cons]
      rfl
    rw [hsplit, List.length_append, List.length_cons, Nat.succ_mul]
    omega

/-- **What passed is encoded wherever it fits**, and a buffer is known to be large enough beforehand. -/
theorem checkCatalog_encodes (hscratch : scratch < 2 ^ 64) (hne : scratch ≠ 0)
    (hok : (checkCatalog c scratch).ok = true) {room : Nat} (hroom : room < 2 ^ 64) :
    (∀ bs, encodeCatalog c room = some bs ↔
      bs = head 4 c.entries.used.toNat ++ encodings c.wireContents ∧ bs.length ≤ room) ∧
      (3 + c.entries.used.toNat * min scratch catalogMaxEntryBytes ≤ room → (encodeCatalog c room).isSome = true) := by
  obtain ⟨hids, hentries⟩ := (ok_iff hscratch).mp hok
  have hiff : ∀ bs, encodeCatalog c room = some bs ↔
      bs = head 4 c.entries.used.toNat ++ encodings c.wireContents ∧ bs.length ≤ room := fun bs => by
    rw [encodeCatalog_iff hroom]
    exact ⟨fun h => h.2.2, fun h => ⟨hids, fun e he => ((hentries e he).measured hne).1, h⟩⟩
  refine ⟨hiff, fun hlarge => ?_⟩
  have hhead := head_length_u16 4 (Nat.le_of_lt_succ c.entries.used.toNat_lt)
  have hlen : (encodings c.wireContents).length ≤ c.entries.used.toNat * min scratch catalogMaxEntryBytes := by
    rw [← length_contents]
    refine length_encodings fun x hx => ?_
    obtain ⟨e, he, rfl⟩ := List.mem_map.mp hx
    obtain ⟨hsent, hcap⟩ := (hentries e he).measured hne
    exact Nat.le_min.mpr ⟨hcap, hsent.length⟩
  rw [(hiff _).mpr ⟨rfl, by rw [List.length_append]; omega⟩]
  rfl

theorem checkCatalog_encodes_boiler : ∃ c, boiler = some c ∧ (encodeCatalog c 515).isSome = true := by
  obtain ⟨c, hc, hok, -⟩ := boiler_ok
  have hfour : c.entries.used.toNat = 4 := by
    have h : boiler.map (fun c => c.entries.used.toNat) = some 4 := by decide +kernel
    rw [hc] at h
    exact Option.some.inj h
  exact ⟨c, hc, (checkCatalog_encodes (by decide) (by decide) hok (by decide)).2 (by rw [hfour]; decide)⟩

/-! ## What came over the wire -/

/-- The kinds that are about the form of a catalog. -/
def ViolationKind.formal : ViolationKind → Bool
  | .idsNotAscending | .nameTooLong | .nameEmpty | .wrongFieldForm | .noFields => true
  | .stateTooLarge | .coreChannelMisclass | .entryTooLarge | .categoryLabelMissing | .settingChannelMissing => false

theorem WellFormed.fieldCount (h : WellFormed c) (he : e ∈ c.entries.live) : e.fieldCount ≠ 0 := by
  have hres := (h.resolved he).resolves
  have hsome := (h.bounded _ (List.mem_map_of_mem he)).payload.some
  intro hzero
  unfold resolves at hres
  unfold BasicCatalog.wireContent BasicCatalog.payload at hsome
  cases hform : e.form with
  | layout =>
    simp only [hform, hzero] at hres hsome
    exact hsome (List.map_eq_nil_iff.mpr (List.length_eq_zero_iff.mp (eq_of_beq hres)))
  | schema =>
    simp only [hform, hzero] at hres hsome
    exact hsome (List.map_eq_nil_iff.mpr (List.length_eq_zero_iff.mp (eq_of_beq hres)))
  | store => simp [hform, hzero, BasicCatalog.storeDescriptor] at hres

theorem WellFormed.formal (h : WellFormed c) {v : Violation} (hv : v ∈ faultsFrom c scratch none c.entries.live) :
    v.kind.formal = false := by
  obtain ⟨before, e, after, hlive, hfault⟩ := mem_faultsFrom hv
  obtain ⟨-, hwrong⟩ := mem_faults.mp hfault
  have he : e ∈ c.entries.live := by simp [hlive]
  have hbounded := h.bounded _ (List.mem_map_of_mem he)
  have hsome := h.fieldCount he
  have hids := h.ids
  have hnamed : e.name ≠ [] := hbounded.named
  have hname : e.name.length ≤ 32 := hbounded.header.name
  have hform := (wrongFieldForm_iff hsome).mpr (h.resolved he).resolves
  have hafter : ((before.getLast?.map CatalogEntry.id).or none).any (e.id ≤ ·) = false := by
    rw [hlive, List.map_append, List.pairwise_append] at hids
    cases hlast : before.getLast? with
    | none => rfl
    | some e' =>
      have hlt : e'.id < e.id := hids.2.2 e'.id (List.mem_map_of_mem (List.mem_of_getLast? hlast)) e.id (by simp)
      simpa using hlt
  simp only [checks, List.mem_cons, List.not_mem_nil, or_false, Prod.mk.injEq] at hwrong
  rw [hafter, hform] at hwrong
  cases hkind : v.kind <;> simp [hkind, hnamed, hsome, Nat.not_lt.mpr hname, ViolationKind.formal] at hwrong ⊢

/-- **What a decoder took is in form**: a report says of it only that what it describes is not allowed. -/
theorem decodeCatalog_checked (hcap : Counted caps) {bs : Bytes} (h : decodeCatalog bs c = .ok c') {v : Violation}
    (hv : v ∈ (checkCatalog c' scratch).violations) :
    v.kind ∈ [ViolationKind.stateTooLarge, .coreChannelMisclass, .entryTooLarge, .categoryLabelMissing,
      .settingChannelMissing] := by
  obtain ⟨n, r, -, hentries⟩ := decodeCatalog_entries h
  obtain ⟨hsound, -⟩ := decodeEntries_ok hcap (wellFormed_clear c) hentries
  rw [checkCatalog_violations] at hv
  have hformal := hsound.formal (List.mem_of_mem_take hv)
  cases hkind : v.kind <;> simp [hkind, ViolationKind.formal] at hformal ⊢

/-- The store of the lamp has the number of the safety channel, which is a state. -/
theorem decodeCatalog_checked_lamp : ∃ (c : BasicCatalog smallCapacities) (v : Violation),
    decodeCatalog lampBytes .empty = .ok c ∧ v ∈ (checkCatalog c 0).violations ∧
      v.kind ∈ [ViolationKind.stateTooLarge, .coreChannelMisclass, .entryTooLarge, .categoryLabelMissing,
        .settingChannelMissing] := by
  obtain ⟨c, hc⟩ := lamp_decodes
  have hv : ((decodeCatalog lampBytes (.empty : BasicCatalog smallCapacities)).toOption.map
      fun c => (checkCatalog c 0).violations) = some [⟨.coreChannelMisclass, 3⟩] := by decide +kernel
  rw [hc] at hv
  have hv : (checkCatalog c 0).violations = [⟨.coreChannelMisclass, 3⟩] := Option.some.inj hv
  have hmem : (⟨.coreChannelMisclass, 3⟩ : Violation) ∈ (checkCatalog c 0).violations := by
    rw [hv]
    exact List.mem_singleton_self _
  exact ⟨c, _, hc, hmem, decodeCatalog_checked counted_small hc hmem⟩

end SlopSync.Builder
