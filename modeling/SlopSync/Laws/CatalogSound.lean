import SlopSync.Laws.CatalogDecode

/-! # A catalog that decoded

An entry gets to the catalog after its payload, which is then the last of the pool of its form.  So the payloads lie one
behind the other, in the order of the entries, and nothing else is in the pools.

* `decodeEntry_ok` — an entry that was read, and its payload;
* `decodeCatalog_sound` — whatever the bytes, a catalog that decoded is well formed. -/

namespace SlopSync.Builder

open CborWriter CborReader CborDecoder

variable {caps : Capacities} {c c' : BasicCatalog caps} {t : CborTree} {form : FieldForm} {l : List WireItem} {e : CatalogEntry}

/-! ## Contents -/

/-- The texts are within their bounds, and a value without its flag is not set. -/
structure CatalogEntry.Bounded (e : CatalogEntry) : Prop where
  name : e.name.length ≤ 32
  categoryLabel : e.categoryLabel.length ≤ 24
  category : e.hasCategory = false → e.category = 0
  replayDepth : e.hasReplayDepth = false → e.replayDepth = 0
  settingChannel : e.hasSettingChannel = false → e.settingChannel = 0
  rank : e.hasRank = false → e.rank = 0

/-- An entry within its bounds is what the wire makes of it. -/
theorem CatalogEntry.Bounded.onWire (h : e.Bounded) : e.onWire = e := by
  simp only [CatalogEntry.onWire, getD_given h.category, getD_given h.replayDepth, getD_given h.settingChannel,
    getD_given h.rank]

/-- An entry with its payload, as the decoder leaves them. -/
structure WireContent.Bounded (x : WireContent) : Prop where
  header : x.header.Bounded
  plain : x.header.header = x.header
  named : x.header.name ≠ []
  payload : PayloadBounded x.header.form x.items

/-- Items in key order are sorted already. -/
theorem sortItems_sorted (h : (l.map WireItem.key).Pairwise (· < ·)) : sortItems l = l := by
  refine List.mergeSort_of_pairwise ?_
  rw [List.pairwise_map] at h
  exact h.imp fun hlt => by simpa using Nat.le_of_lt hlt

/-- Contents within their bounds are in order already. -/
theorem WireContent.Bounded.ordered {x : WireContent} (h : x.Bounded) : x.ordered = x.items := by
  unfold WireContent.ordered
  split_ifs with hform
  · exact sortItems_sorted (h.payload.keys hform)
  · rfl

/-- Bounded contents are what the wire keeps of them. -/
theorem WireContent.Bounded.onWire {x : WireContent} (h : x.Bounded) : x.onWire = x := by
  have hitems : x.items.map WireItem.onWire = x.items := by
    conv_rhs => rw [← List.map_id x.items]
    exact List.map_congr_left fun i hi => (h.payload.each i hi).1.onWire
  rw [WireContent.onWire, h.header.onWire, h.ordered, hitems]

/-! ## Slices of the pools -/

/-- The items of a form are counted by that form's pool. -/
theorem length_items (c : BasicCatalog caps) (form : FieldForm) : (c.poolItems form).length =
    match form with
    | .layout => c.layoutPool.used.toNat
    | .schema => c.schemaPool.used.toNat
    | .store => c.storePool.used.toNat := by
  cases form <;> simp only [BasicCatalog.poolItems, List.length_map, Pool.length_live]

/-- The payload of an entry whose slice lies in its pool is that slice. -/
theorem payload_eq (hin : e.fieldOffset.toNat + e.fieldCount.toNat ≤ (c.poolItems e.form).length)
    (hstore : e.form = .store → e.fieldCount = 1) :
    c.payload e = ((c.poolItems e.form).drop e.fieldOffset.toNat).take e.fieldCount.toNat := by
  rw [length_items] at hin
  cases hform : e.form with
  | layout =>
    simp only [hform] at hin
    simp only [BasicCatalog.payload, BasicCatalog.layoutFields, hform, if_true, Pool.slice_eq hin, Option.getD_some,
      BasicCatalog.poolItems, List.map_take, List.map_drop]
  | schema =>
    simp only [hform] at hin
    simp only [BasicCatalog.payload, BasicCatalog.schemaFields, hform, if_true, Pool.slice_eq hin, Option.getD_some,
      BasicCatalog.poolItems, List.map_take, List.map_drop]
  | store =>
    have hcount := hstore hform
    have hone : e.fieldCount.toNat = 1 := by rw [hcount]; rfl
    simp only [hform, hone] at hin
    simp only [BasicCatalog.payload, BasicCatalog.storeDescriptor, hform, hcount, and_self, if_true, Pool.slice_eq hin,
      Option.bind_some, BasicCatalog.poolItems, UInt8.toNat_one, ← List.map_drop]
    cases c.storePool.live.drop e.fieldOffset.toNat <;> rfl

/-- An entry with a payload has it in the pool. -/
theorem payload_some (h : c.payload e ≠ []) :
    e.fieldOffset.toNat + e.fieldCount.toNat ≤ (c.poolItems e.form).length ∧ (e.form = .store → e.fieldCount = 1) := by
  rw [length_items]
  cases hform : e.form with
  | layout =>
    simp only [BasicCatalog.payload, BasicCatalog.layoutFields, hform, if_true] at h
    refine ⟨?_, fun h => FieldForm.noConfusion h⟩
    by_contra hout
    rw [Pool.slice, if_neg hout] at h
    exact h rfl
  | schema =>
    simp only [BasicCatalog.payload, BasicCatalog.schemaFields, hform, if_true] at h
    refine ⟨?_, fun h => FieldForm.noConfusion h⟩
    by_contra hout
    rw [Pool.slice, if_neg hout] at h
    exact h rfl
  | store =>
    simp only [BasicCatalog.payload, BasicCatalog.storeDescriptor, hform, true_and] at h
    split_ifs at h with hcount
    · refine ⟨?_, fun _ => hcount⟩
      by_contra hout
      rw [hcount, UInt8.toNat_one] at hout
      rw [Pool.slice, if_neg hout] at h
      exact h rfl
    · exact absurd rfl h

/-- Payloads stay while the pools grow. -/
theorem payload_grows (hgrow : ∀ form, c.poolItems form <+: c'.poolItems form) (h : c.payload e ≠ []) :
    c'.payload e = c.payload e := by
  obtain ⟨hin, hstore⟩ := payload_some h
  obtain ⟨l, hl⟩ := hgrow e.form
  have hin' : e.fieldOffset.toNat + e.fieldCount.toNat ≤ (c'.poolItems e.form).length := by
    rw [← hl, List.length_append]
    omega
  rw [payload_eq hin hstore, payload_eq hin' hstore, ← hl, List.drop_append_of_le_length (by omega),
    List.take_append_of_le_length (by rw [List.length_drop]; omega)]

/-! ## Entries -/

/-- The key of a payload. -/
def payloadKey : FieldForm → Nat
  | .layout => 8
  | .schema => 9
  | .store => 12

/-- The payload of an entry has been read. -/
structure PayloadRead (c : BasicCatalog caps) (k : Nat) (s : EntryReading caps) (form : FieldForm) (l : List WireItem) :
    Prop where
  past : payloadKey form < k
  got : ∀ other, s.got other = decide (other = form)
  adds : Adds c s.catalog form l
  payload : PayloadBounded form l
  offset : s.entry.fieldOffset.toNat = (c.poolItems form).length
  count : s.entry.fieldCount.toNat = l.length

/-- An entry that has been read up to key `k`. -/
structure EntrySeen (c : BasicCatalog caps) (k : Nat) (s : EntryReading caps) : Prop where
  header : s.entry.Bounded
  named : s.gotName = true → s.entry.name ≠ []
  payload : (s.catalog = c ∧ ∀ form, s.got form = false) ∨ ∃ form l, PayloadRead c k s form l

variable {k j : Nat} {s s' : EntryReading caps}

/-- A key that has nothing to do with the payload. -/
theorem EntrySeen.pure (h : EntrySeen c k s) (hk : k ≤ j) (hcatalog : s'.catalog = s.catalog)
    (hgot : ∀ form, s'.got form = s.got form) (hoffset : s'.entry.fieldOffset = s.entry.fieldOffset)
    (hcount : s'.entry.fieldCount = s.entry.fieldCount) (hheader : s'.entry.Bounded)
    (hnamed : s'.gotName = true → s'.entry.name ≠ []) : EntrySeen c (j + 1) s' := by
  refine ⟨hheader, hnamed, h.payload.imp (fun ⟨hsame, hnone⟩ => ?_) fun ⟨form, l, hread⟩ => ?_⟩
  · exact ⟨hcatalog.trans hsame, fun form => (hgot form).trans (hnone form)⟩
  · refine ⟨form, l, ?_, fun other => (hgot other).trans (hread.got other), hcatalog ▸ hread.adds, hread.payload,
      hoffset ▸ hread.offset, hcount ▸ hread.count⟩
    have hpast := hread.past
    omega

/-- The key of a payload comes first, and after no other. -/
theorem EntrySeen.fresh (form : FieldForm) (h : EntrySeen c k s) (hk : k ≤ payloadKey form)
    (hothers : ∀ other, other ≠ form → s.got other = false) : s.catalog = c ∧ ∀ form, s.got form = false := by
  rcases h.payload with hnone | ⟨other, l, hread⟩
  · exact hnone
  · by_cases hother : other = form
    · have hpast := hread.past
      rw [hother] at hpast
      omega
    · have hgot := hread.got other
      rw [hothers other hother, decide_eq_true rfl] at hgot
      cases hgot

/-- A field count within the limit fits its byte. -/
theorem count_ofNat (hlen : l.length ≤ CatalogEntry.kMaxFields) : (UInt8.ofNat l.length).toNat = l.length := by
  have hmax : CatalogEntry.kMaxFields = 64 := rfl
  rw [UInt8.toNat_ofNat']
  omega

/-- An optional key keeps the entry within its bounds and leaves its name and slice alone. -/
theorem optionalKey_ok {e' : CatalogEntry} (hb : e.Bounded) (hof : (optionalKey j e).ofTree t = some e') :
    e'.Bounded ∧ e'.name = e.name ∧ e'.fieldOffset = e.fieldOffset ∧ e'.fieldCount = e.fieldCount := by
  unfold optionalKey at hof
  split_ifs at hof
  · obtain ⟨v, -, rfl⟩ := Option.map_eq_some_iff.mp hof
    exact ⟨{ hb with category := fun h => Bool.noConfusion h }, rfl, rfl, rfl⟩
  · obtain ⟨v, hv, rfl⟩ := Option.map_eq_some_iff.mp hof
    exact ⟨{ hb with categoryLabel := (label_ofTree.mp hv).2.2 }, rfl, rfl, rfl⟩
  · obtain ⟨v, -, rfl⟩ := Option.map_eq_some_iff.mp hof
    exact ⟨{ hb with replayDepth := fun h => Bool.noConfusion h }, rfl, rfl, rfl⟩
  · obtain ⟨v, -, rfl⟩ := Option.map_eq_some_iff.mp hof
    exact ⟨{ hb with settingChannel := fun h => Bool.noConfusion h }, rfl, rfl, rfl⟩
  · obtain ⟨v, -, rfl⟩ := Option.map_eq_some_iff.mp hof
    exact ⟨{ hb with name := hb.name }, rfl, rfl, rfl⟩
  · obtain ⟨v, -, rfl⟩ := Option.map_eq_some_iff.mp hof
    exact ⟨{ hb with rank := fun h => Bool.noConfusion h }, rfl, rfl, rfl⟩
  · obtain rfl := Option.some.inj hof
    exact ⟨hb, rfl, rfl, rfl⟩

/-- Each header key that is read adds what the header has been seen to have. -/
theorem headerKey_ok (h : EntrySeen c k s) (hk : k ≤ j) (hof : (headerKey j s).ofTree t = some s') :
    EntrySeen c (j + 1) s' := by
  have hb := h.header
  unfold headerKey at hof
  split_ifs at hof
  · obtain ⟨v, -, rfl⟩ := Option.map_eq_some_iff.mp hof
    exact h.pure hk rfl (fun form => by cases form <;> rfl) rfl rfl { hb with name := hb.name } h.named
  · obtain ⟨v, hv, rfl⟩ := Option.map_eq_some_iff.mp hof
    obtain ⟨-, hne, hlen⟩ := label_ofTree.mp hv
    exact h.pure hk rfl (fun form => by cases form <;> rfl) rfl rfl { hb with name := hlen } fun _ => hne
  · obtain ⟨v, -, rfl⟩ := Option.map_eq_some_iff.mp hof
    exact h.pure hk rfl (fun form => by cases form <;> rfl) rfl rfl { hb with name := hb.name } h.named
  · obtain ⟨v, -, rfl⟩ := Option.map_eq_some_iff.mp hof
    exact h.pure hk rfl (fun form => by cases form <;> rfl) rfl rfl { hb with name := hb.name } h.named
  · obtain ⟨v, -, rfl⟩ := Option.map_eq_some_iff.mp hof
    exact h.pure hk rfl (fun form => by cases form <;> rfl) rfl rfl { hb with name := hb.name } h.named
  · obtain ⟨v, -, rfl⟩ := Option.map_eq_some_iff.mp hof
    exact h.pure hk rfl (fun form => by cases form <;> rfl) rfl rfl { hb with name := hb.name } h.named
  · obtain ⟨v, -, rfl⟩ := Option.map_eq_some_iff.mp hof
    exact h.pure hk rfl (fun form => by cases form <;> rfl) rfl rfl { hb with name := hb.name } h.named
  · obtain ⟨e', he', rfl⟩ := Option.map_eq_some_iff.mp hof
    obtain ⟨hb', hname, hoffset, hcount⟩ := optionalKey_ok hb he'
    exact h.pure hk rfl (fun form => by cases form <;> rfl) hoffset hcount hb' fun hgot => hname ▸ h.named hgot

/-- **One key of an entry.** -/
theorem entryKey_ok (hcap : Counted caps) (hlabelled : Labelled c) {d : Nat} (h : EntrySeen c k s) (hk : k ≤ j)
    (ht : CborTree.Fits d t) (hof : (entryKey c j s).ofTree t = some s') : EntrySeen c (j + 1) s' := by
  have hb := h.header
  unfold entryKey at hof
  split_ifs at hof with h8 hgot h9 hgot h12 hgot
  · cases hof
  · subst h8
    simp only [not_or, Bool.not_eq_true] at hgot
    obtain ⟨hsame, hnone⟩ := h.fresh .layout hk (fun other hother => by
      cases other with
      | layout => exact absurd rfl hother
      | schema => exact hgot.1
      | store => exact hgot.2)
    rw [hsame] at hof
    obtain ⟨v, hv, rfl⟩ := Option.map_eq_some_iff.mp hof
    have hv : (decodeLayout c).ofTree t = some (v.1, v.2) := hv
    obtain ⟨l, hlen, hadds, hpayload⟩ := decodeLayout_ok hcap hlabelled ht hv
    refine ⟨{ hb with name := hb.name }, h.named, .inr ⟨.layout, l, Nat.lt_succ_self 8, fun other => ?_, hadds, hpayload,
      (length_items c .layout).symm, ?_⟩⟩
    · cases other with
      | layout => rfl
      | schema => exact hgot.1
      | store => exact hgot.2
    · rw [← hlen]
      exact count_ofNat hpayload.count
  · cases hof
  · subst h9
    simp only [not_or, Bool.not_eq_true] at hgot
    obtain ⟨hsame, hnone⟩ := h.fresh .schema hk (fun other hother => by
      cases other with
      | layout => exact hgot.1
      | schema => exact absurd rfl hother
      | store => exact hgot.2)
    rw [hsame] at hof
    obtain ⟨v, hv, rfl⟩ := Option.map_eq_some_iff.mp hof
    have hv : (decodeSchema c).ofTree t = some (v.1, v.2) := hv
    obtain ⟨l, hlen, hadds, hpayload⟩ := decodeSchema_ok hcap hlabelled ht hv
    refine ⟨{ hb with name := hb.name }, h.named, .inr ⟨.schema, l, Nat.lt_succ_self 9, fun other => ?_, hadds, hpayload,
      (length_items c .schema).symm, ?_⟩⟩
    · cases other with
      | layout => exact hgot.1
      | schema => rfl
      | store => exact hgot.2
    · rw [← hlen]
      exact count_ofNat hpayload.count
  · cases hof
  · subst h12
    simp only [not_or, Bool.not_eq_true] at hgot
    obtain ⟨hsame, hnone⟩ := h.fresh .store hk (fun other hother => by
      cases other with
      | layout => exact hgot.1
      | schema => exact hgot.2
      | store => exact absurd rfl hother)
    rw [andThen_ofTree, hsame] at hof
    obtain ⟨d, hd, hof⟩ := Option.bind_eq_some_iff.mp hof
    rw [map_toOption, pooled_toOption] at hof
    obtain ⟨c₁, hadd, rfl⟩ := Option.map_eq_some_iff.mp hof
    have hbounded := decodeStoreDescriptor_ok ht hd
    refine ⟨{ hb with name := hb.name }, h.named, .inr ⟨.store, [.store d], Nat.lt_succ_self 12, fun other => ?_,
      addStore_adds hcap hlabelled hadd, ⟨by simp, Nat.le_of_ble_eq_true rfl, by simpa using ⟨hbounded, rfl⟩,
        fun h => FieldForm.noConfusion h, fun _ => rfl⟩, (length_items c .store).symm, rfl⟩⟩
    cases other with
    | layout => exact hgot.1
    | schema => exact hgot.2
    | store => rfl
  · exact headerKey_ok h hk hof

/-- An entry that was read, its payload behind what was there. -/
structure EntryRead (c c' : BasicCatalog caps) (e : CatalogEntry) (l : List WireItem) : Prop where
  adds : Adds c c' e.form l
  offset : e.fieldOffset.toNat = (c.poolItems e.form).length
  count : e.fieldCount.toNat = l.length
  bounded : (WireContent.mk e.header l).Bounded

/-- **An entry that was read is within its bounds.** -/
theorem decodeEntry_ok (hcap : Counted caps) (hlabelled : Labelled c) {d : Nat} (ht : CborTree.Fits d t)
    (hof : (decodeEntry c).ofTree t = some (e, c')) : ∃ l, EntryRead c c' e l := by
  rw [decodeEntry, andThen_ofTree] at hof
  obtain ⟨s, hs, hdone⟩ := Option.bind_eq_some_iff.mp hof
  have hinit : EntrySeen c 0 { catalog := c } :=
    ⟨⟨Nat.zero_le _, Nat.zero_le _, fun _ => rfl, fun _ => rfl, fun _ => rfl, fun _ => rfl⟩, fun h => Bool.noConfusion h,
      .inl ⟨rfl, fun form => by cases form <;> rfl⟩⟩
  obtain ⟨k, h⟩ := record_ascending (fun k j s v s' d hk h hv hof => entryKey_ok hcap hlabelled h hk hv hof) hinit ht hs
  split_ifs at hdone with hcomplete
  · obtain ⟨rfl, rfl⟩ := Prod.mk.inj (Option.some.inj hdone)
    simp only [EntryReading.complete, Bool.and_eq_true] at hcomplete
    obtain ⟨⟨⟨⟨⟨⟨⟨⟨-, hname⟩, -⟩, -⟩, -⟩, -⟩, -⟩, -⟩, hgot⟩ := hcomplete
    rcases h.payload with ⟨-, hnone⟩ | ⟨form, l, hread⟩
    · rw [hnone] at hgot
      cases hgot
    · rw [hread.got] at hgot
      obtain rfl := of_decide_eq_true hgot
      have hb := h.header
      exact ⟨l, hread.adds, hread.offset, hread.count, { hb with name := hb.name }, rfl, h.named hname, hread.payload⟩
  · cases hdone

/-! ## Catalogs -/

/-- The payloads lie one behind the other, in the order of the entries, and fill the pools; each is within its bounds. -/
structure WellFormed (c : BasicCatalog caps) : Prop where
  ids : (c.entries.live.map CatalogEntry.id).Pairwise (· < ·)
  tiled : ∀ form, c.entries.live.flatMap (CatalogEntry.cells form) = List.range (c.poolItems form).length
  whole : ∀ form, c.poolItems form = (c.wireContents.flatMap WireContent.items).filter fun i => i.form = form
  used : c.labelPool.used.toNat = ((c.wireContents.flatMap WireContent.items).map WireItem.labels).sum
  labelled : Labelled c
  bounded : ∀ x ∈ c.wireContents, x.Bounded

theorem wellFormed_clear (c : BasicCatalog caps) : WellFormed c.clear where
  ids := List.Pairwise.nil
  tiled form := by cases form <;> rfl
  whole form := by cases form <;> rfl
  used := rfl
  labelled := ⟨List.Perm.refl _⟩
  bounded := fun x hx => by cases hx

/-- The payload of an entry that was read is the items that were read for it. -/
theorem EntryRead.payload (h : EntryRead c c' e l) : c'.payload e = l := by
  have hitems := h.adds.items e.form
  rw [if_pos rfl] at hitems
  rw [payload_eq (by rw [hitems, List.length_append, h.offset, h.count]) fun hform => ?_, hitems, h.offset, h.count,
    List.drop_left, List.take_length]
  have hsingle := h.bounded.payload.single hform
  exact UInt8.toNat_inj.mp (by rw [h.count, hsingle]; rfl)

/-- A payload is of one form. -/
theorem PayloadBounded.filter (h : PayloadBounded form l) (other : FieldForm) :
    (l.filter fun i => i.form = other) = if other = form then l else [] := by
  split_ifs with hother
  · exact List.filter_eq_self.mpr fun i hi => by rw [(h.each i hi).2, hother, decide_eq_true rfl]
  · refine List.filter_eq_nil_iff.mpr fun i hi => ?_
    rw [(h.each i hi).2, decide_eq_true_eq]
    exact Ne.symm hother

/-- What was there does not change, and the new entry comes last. -/
theorem EntryRead.wireContents (h : WellFormed c) (hread : EntryRead c c' e l) {p : Pool CatalogEntry caps.entries}
    (hlive : p.live = c.entries.live ++ [e]) :
    BasicCatalog.wireContents { c' with entries := p } = c.wireContents ++ [⟨e.header, l⟩] := by
  have hitems : ∀ form, BasicCatalog.poolItems { c' with entries := p } form = c'.poolItems form := fun form => by
    cases form <;> rfl
  have hgrows : ∀ form, c.poolItems form <+: BasicCatalog.poolItems { c' with entries := p } form := fun form => by
    rw [hitems, hread.adds.items]
    exact List.prefix_append _ _
  rw [BasicCatalog.wireContents, hlive, List.map_append, List.map_singleton, BasicCatalog.wireContents]
  congr 1
  · refine List.map_congr_left fun e' he' => ?_
    have hbounded := h.bounded _ (List.mem_map_of_mem he')
    rw [BasicCatalog.wireContent, payload_grows hgrows hbounded.payload.some]
    rfl
  · have hpayload : BasicCatalog.payload { c' with entries := p } e = c'.payload e := rfl
    rw [BasicCatalog.wireContent, hpayload, hread.payload]

/-- **One entry more.** -/
theorem WellFormed.add (hcap : Counted caps) (h : WellFormed c) (hread : EntryRead c c' e l)
    (hid : ∀ e' ∈ c.entries.live, e'.id < e.id) {c'' : BasicCatalog caps} (hadd : c'.addEntryVerbatim e = some c'') :
    WellFormed c'' ∧ c''.entries.live = c.entries.live ++ [e] ∧ c''.wireContents = c.wireContents ++ [⟨e.header, l⟩] := by
  obtain ⟨p, hp, rfl⟩ := Option.map_eq_some_iff.mp hadd
  have hlive := Pool.live_push (.inl hcap.entries) hp
  rw [hread.adds.entries] at hlive
  have hcontents := hread.wireContents h hlive
  have hitems : ∀ form, BasicCatalog.poolItems { c' with entries := p } form = c'.poolItems form := fun form => by
    cases form <;> rfl
  refine ⟨⟨?_, fun form => ?_, fun form => ?_, ?_, ⟨hread.adds.labelled.cells⟩, ?_⟩, hlive, hcontents⟩
  · change (p.live.map CatalogEntry.id).Pairwise (· < ·)
    rw [hlive, List.map_append, List.pairwise_append]
    refine ⟨h.ids, List.pairwise_singleton _ _, fun i hi i' hi' => ?_⟩
    obtain ⟨e', he', rfl⟩ := List.mem_map.mp hi
    obtain rfl := List.mem_singleton.mp hi'
    exact hid e' he'
  · change p.live.flatMap (CatalogEntry.cells form) = _
    rw [hlive, List.flatMap_append, List.flatMap_singleton, h.tiled, hitems, hread.adds.items, List.length_append,
      List.range_add, ← List.range'_eq_map_range, CatalogEntry.cells]
    by_cases hform : e.form = form
    · rw [if_pos hform, if_pos hform.symm, hread.offset, hread.count, hform]
    · rw [if_neg hform, if_neg (Ne.symm hform), List.length_nil]
      rfl
  · rw [hcontents, List.flatMap_append, List.filter_append, List.flatMap_singleton, hitems, hread.adds.items,
      h.whole, hread.bounded.payload.filter]
    rfl
  · rw [hcontents, List.flatMap_append, List.map_append, List.sum_append, List.flatMap_singleton, ← h.used]
    exact hread.adds.used
  · rw [hcontents]
    intro x hx
    rcases List.mem_append.mp hx with hx | hx
    · exact h.bounded x hx
    · obtain rfl := List.mem_singleton.mp hx
      exact hread.bounded

/-- The identifier that the next one must be above. -/
def lastId (c : BasicCatalog caps) : Option UInt16 := (c.entries.live.map CatalogEntry.id).getLast?

/-- An id above the last of an ascending list is above all of them. -/
theorem above_last {ids : List UInt16} (hids : ids.Pairwise (· < ·)) {i : UInt16} (h : ¬ids.getLast?.any (i ≤ ·)) :
    ∀ i' ∈ ids, i' < i := by
  rcases List.eq_nil_or_concat ids with rfl | ⟨front, last, rfl⟩
  · simp
  · rw [List.concat_eq_append] at hids h ⊢
    rw [List.getLast?_concat, Option.any_some, decide_eq_true_eq, UInt16.not_le] at h
    rw [List.pairwise_append] at hids
    intro i' hi'
    rcases List.mem_append.mp hi' with hi' | hi'
    · exact UInt16.lt_trans (hids.2.2 i' hi' last (List.mem_singleton_self last)) h
    · obtain rfl := List.mem_singleton.mp hi'
      exact h

/-- The entries that decode keep the catalog well formed and are counted. -/
theorem decodeEntries_ok (hcap : Counted caps) {bs : Bytes} {n pos : Nat} (h : WellFormed c)
    (hok : decodeEntries bs n pos (lastId c) c = .ok c') : WellFormed c' ∧ c'.entries.used.toNat = c.entries.used.toNat + n := by
  induction n generalizing c pos with
  | zero =>
    obtain rfl := Except.ok.inj hok
    exact ⟨h, rfl⟩
  | succ n ih =>
    rw [decodeEntries] at hok
    split_ifs at hok with hpos
    obtain ⟨⟨⟨e, c₁⟩, r⟩, hread, hok⟩ := bind_ok hok
    obtain ⟨t, ht, -, -, hof⟩ := (decodeEntry c).takes.sound (Nat.zero_le _) (Nat.zero_le _) hread
    obtain ⟨l, hentry⟩ := decodeEntry_ok hcap h.labelled ht hof
    dsimp only at hok
    split_ifs at hok with hlow
    obtain ⟨c₂, hadd, hok⟩ := bind_ok hok
    rw [pooled] at hadd
    have hadd : c₁.addEntryVerbatim e = some c₂ := by
      rw [← pooled_toOption (c₁.addEntryVerbatim e), pooled, hadd]
      rfl
    obtain ⟨hsound, hlive, -⟩ := h.add hcap hentry (fun e' he' => above_last h.ids hlow e'.id (List.mem_map_of_mem he'))
      hadd
    have hlast : lastId c₂ = some e.id := by
      rw [lastId, hlive, List.map_append, List.map_singleton, List.getLast?_concat]
    rw [← hlast] at hok
    obtain ⟨hsound', hused⟩ := ih hsound hok
    refine ⟨hsound', ?_⟩
    rw [hused, ← Pool.length_live c₂.entries, hlive, List.length_append, Pool.length_live, List.length_singleton]
    omega

/-- A catalog that decoded was an array header and that many entries. -/
theorem decodeCatalog_entries {bs : Bytes} (h : decodeCatalog bs c = .ok c') :
    ∃ n r, readArrayHeader { rest := bs } = .ok (n, r) ∧
      decodeEntries bs n (bs.length - r.rest.length) (lastId c.clear) c.clear = .ok c' := by
  obtain ⟨⟨n, r⟩, hread, h⟩ := bind_ok h
  dsimp only at h
  split_ifs at h with hroom
  exact ⟨n, r, hread, h⟩

/-- **A catalog that decoded is well formed**, whatever the bytes, and has as many entries as they say. -/
theorem decodeCatalog_sound (hcap : Counted caps) {bs : Bytes} (h : decodeCatalog bs c = .ok c') :
    WellFormed c' ∧ ∃ r, readArrayHeader { rest := bs } = .ok (c'.entries.used.toNat, r) := by
  obtain ⟨n, r, hread, hentries⟩ := decodeCatalog_entries h
  obtain ⟨hsound, hused⟩ := decodeEntries_ok hcap (wellFormed_clear c) hentries
  have hzero : c.clear.entries.used.toNat = 0 := rfl
  rw [hzero, Nat.zero_add] at hused
  exact ⟨hsound, r, by rw [hused]; exact hread⟩

/-! ### A lamp -/

def smallCapacities : Capacities := { entries := 4, layoutFields := 4, schemaFields := 4, labels := 8, stores := 2 }

/-- The small pools have counted capacities. -/
theorem counted_small : Counted smallCapacities := ⟨by decide, by decide, by decide, by decide, by decide⟩

/-- A state with named bits, an intent whose options have levels, and a store. -/
def lamp : Option (BasicCatalog smallCapacities) := do
  let c ← BasicCatalog.empty.poolAddLabel [0x61]
  let c ← c.poolAddLabel []
  let c ← c.poolAddLabel [0x62]
  let c ← c.poolAddLayoutField { name := [0x66], type := .bitfield8, bits := { count := 3 }, hasMin := true, min := 5 }
  let c ← c.addEntryVerbatim { id := 1, name := [0x6C], fieldCount := 1 }
  let c ← c.poolAddLabel [0x70]
  let c ← c.poolSetLabelAccess 3 .configure
  let c ← c.poolAddSchemaField
    { key := 3, name := [0x67], options := { offset := 3, count := 1 }, hasOptionAccess := true, dflt := .int (-4) }
  let c ← c.addEntryVerbatim { id := 2, name := [0x6D], cls := .intent, dir := .c2h, fieldCount := 1 }
  let c ← c.poolAddStore { storeId := 7, kind := [0x6B], capacity := 2, perItemMax := 64, nameMax := 8 }
  c.addEntryVerbatim { id := 3, name := [0x6E], cls := .store, fieldCount := 1 }

def lampBytes : Bytes := (lamp.bind (encodeCatalog · 200)).getD []

theorem lamp_decodes : ∃ c, decodeCatalog lampBytes (.empty : BasicCatalog smallCapacities) = .ok c := by
  have h : (decodeCatalog lampBytes (.empty : BasicCatalog smallCapacities)).isOk = true := by decide +kernel
  cases hc : decodeCatalog lampBytes (.empty : BasicCatalog smallCapacities) with
  | ok c => exact ⟨c, rfl⟩
  | error e => rw [hc] at h; cases h

theorem decodeCatalog_sound_lamp :
    ∃ c, decodeCatalog lampBytes (.empty : BasicCatalog smallCapacities) = .ok c ∧ WellFormed c := by
  obtain ⟨c, hc⟩ := lamp_decodes
  exact ⟨c, hc, (decodeCatalog_sound counted_small hc).1⟩

end SlopSync.Builder
