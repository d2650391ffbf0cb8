import SlopSync.Laws.CatalogFields

/-! # What a decoded catalog is

The decoder fills the pools while it reads, and an entry gets to the catalog after its payload.  `Adds` is what reading a
payload comes to: so many items at the end of the pool of one form, with the labels they need, and nothing else.

* `decodeLayout_ok`, `decodeSchema_ok` — a payload that was read. -/

namespace SlopSync.Builder

open CborWriter CborReader CborDecoder

variable {caps : Capacities} {c c' c'' : BasicCatalog caps} {t : CborTree} {form : FieldForm} {l l' : List WireItem}
  {e : CatalogEntry}

/-! ## Pools -/

/-- Every capacity has a counter that can reach it. -/
structure Counted (caps : Capacities) : Prop where
  entries : caps.entries < 2 ^ 16
  layoutFields : caps.layoutFields < 2 ^ 16
  schemaFields : caps.schemaFields < 2 ^ 16
  labels : caps.labels < 2 ^ 16
  stores : caps.stores < 2 ^ 16

namespace BasicCatalog

/-- The items of a pool, for any form. -/
def poolItems (c : BasicCatalog caps) : FieldForm → List WireItem
  | .layout => c.layoutPool.live.map c.layoutItem
  | .schema => c.schemaPool.live.map c.schemaItem
  | .store => c.storePool.live.map .store

end BasicCatalog

/-- Every reference is to labels in use, and each label has one. -/
structure Labelled (c : BasicCatalog caps) : Prop where
  cells : (c.refs.flatMap LabelRef.cells).Perm (List.range c.labelPool.used.toNat)

theorem Labelled.known (h : Labelled c) : ∀ x ∈ c.refs.flatMap LabelRef.cells, x < c.labelPool.used.toNat :=
  fun _ hx => List.mem_range.mp (h.cells.mem_iff.mp hx)

theorem cells_refAt {n : Nat} {l : List Label} (hn : n < 2 ^ 16) (hlen : l.length ≤ 255) :
    (refAt n l).cells = List.range' n l.length := by
  by_cases hl : l = []
  · rw [hl]
    rfl
  · obtain ⟨hoffset, hcount⟩ := refAt_options hl hlen hn
    rw [LabelRef.cells, hoffset, hcount]

theorem labels_refAt {front l back : List Label} (hcount : l.length ≤ 255)
    (hlive : c.labelPool.live = front ++ (l ++ back)) : c.labels (refAt front.length l) = l := by
  by_cases hl : l = []
  · rw [hl]
    rfl
  · have hlt : front.length < 2 ^ 16 := by
      have hused := Pool.length_live c.labelPool
      have hmax := c.labelPool.used.toNat_lt
      rw [hlive, List.length_append] at hused
      omega
    rw [refAt, if_neg hl]
    exact labels_refTo hcount hlive (by rw [UInt16.toNat_ofNat', Nat.mod_eq_of_lt hlt])

/-- The labels of a new field are the last ones of the pool. -/
theorem Labelled.grow {labels : List Label} {new : List LabelRef} (h : Labelled c) (hpool : Extends c c' labels)
    (hrefs : c''.refs.Perm (c.refs ++ new))
    (hcells : new.flatMap LabelRef.cells = List.range' c.labelPool.used.toNat labels.length)
    (hsame : c''.labelPool = c'.labelPool) : Labelled c'' := by
  refine ⟨(hrefs.flatMap_right LabelRef.cells).trans ?_⟩
  rw [List.flatMap_append, hcells, hsame, hpool.used, List.range_add, ← List.range'_eq_map_range]
  exact h.cells.append_right _

/-! ## Items -/

/-- The number of its labels. -/
def WireItem.labels : WireItem → Nat
  | .layout _ bits options => bits.length + options.length
  | .schema _ options _ => options.length
  | .store _ => 0

/-- So many items came to the pool of one form. -/
structure Adds (c c' : BasicCatalog caps) (form : FieldForm) (l : List WireItem) : Prop where
  entries : c'.entries = c.entries
  items : ∀ other, c'.poolItems other = c.poolItems other ++ if other = form then l else []
  used : c'.labelPool.used.toNat = c.labelPool.used.toNat + (l.map WireItem.labels).sum
  labelled : Labelled c'

theorem Adds.refl (h : Labelled c) (form : FieldForm) : Adds c c form [] :=
  ⟨rfl, fun other => by rw [ite_self, List.append_nil], rfl, h⟩

theorem Adds.trans (h : Adds c c' form l) (h' : Adds c' c'' form l') : Adds c c'' form (l ++ l') := by
  refine ⟨h'.entries.trans h.entries, fun other => ?_, ?_, h'.labelled⟩
  · rw [h'.items, h.items]
    split_ifs
    · rw [List.append_assoc]
    · rw [List.append_nil]
  · rw [h'.used, h.used, List.map_append, List.sum_append, Nat.add_assoc]

/-- Fields that were there keep their labels. -/
theorem items_extends {labels : List Label} (h : Labelled c) (hpool : Extends c c' labels) (form : FieldForm) :
    c'.poolItems form = c.poolItems form := by
  have hsame := hpool.same
  have hkeep : ∀ ref ∈ c.refs, c'.labels ref = c.labels ref := fun ref href =>
    labels_extends hpool fun x hx => h.known x (List.mem_flatMap.mpr ⟨ref, href, hx⟩)
  cases form with
  | layout =>
    have hlive : c'.layoutPool = c.layoutPool := by rw [hsame]
    rw [BasicCatalog.poolItems, hlive]
    refine List.map_congr_left fun f hf => ?_
    have hmem : ∀ ref ∈ [f.bits, f.options], ref ∈ c.refs := fun ref hr =>
      List.mem_append_left _ (List.mem_flatMap.mpr ⟨f, hf, hr⟩)
    simp only [BasicCatalog.layoutItem, BasicCatalog.bitLabels, BasicCatalog.optionLabels,
      hkeep f.bits (hmem _ (by simp)), hkeep f.options (hmem _ (by simp))]
  | schema =>
    have hlive : c'.schemaPool = c.schemaPool := by rw [hsame]
    rw [BasicCatalog.poolItems, hlive]
    refine List.map_congr_left fun f hf => ?_
    have hmem : f.options ∈ c.refs :=
      List.mem_append_right _ (List.mem_flatMap.mpr ⟨f, hf, List.mem_singleton_self _⟩)
    simp only [BasicCatalog.schemaItem, BasicCatalog.optionAccess, BasicCatalog.optionLabels, hkeep f.options hmem]
  | store => rw [hsame]; rfl

theorem used_lt (c : BasicCatalog caps) : c.labelPool.used.toNat < 2 ^ 16 := c.labelPool.used.toNat_lt

section

variable {bits options : List Label}

theorem length_options_le {texts : List Label} (h : texts.map Label.text ≠ [] → OptionTexts (texts.map Label.text)) :
    texts.length ≤ 255 := by
  by_cases hnil : texts.map Label.text = []
  · rw [List.map_eq_nil_iff.mp hnil]
    exact Nat.zero_le 255
  · have hcount := (h hnil).count
    rwa [List.length_map] at hcount

/-- **A layout field and its labels.** -/
theorem addLayoutField_adds (hcap : Counted caps) (h : Labelled c) {f : LayoutField} (hread : LayoutRead c c' f bits options)
    (hadd : c'.poolAddLayoutField f = some c'') :
    Adds c c'' .layout [.layout f.plain (bits.map Label.text) (options.map Label.text)] := by
  obtain ⟨p, hp, rfl⟩ := Option.map_eq_some_iff.mp hadd
  obtain ⟨hpool, hbits, hoptions, -, -, -, htexts, hopts, -⟩ := hread
  have hlive := Pool.live_push (.inl hcap.layoutFields) hp
  have hsame := hpool.same
  have hlayout : c'.layoutPool = c.layoutPool := by rw [hsame]
  have hbitsLen : bits.length ≤ 255 := by
    have hcount := htexts.count
    rw [List.length_map] at hcount
    omega
  have hoptionsLen := length_options_le hopts
  have hroom := hpool.room
  rw [List.length_append] at hroom
  have hlabels : c'.labels f.bits = bits ∧ c'.labels f.options = options := by
    refine ⟨?_, ?_⟩
    · rw [hbits, ← Pool.length_live]
      exact labels_refAt hbitsLen hpool.live
    · have hfront : c.labelPool.used.toNat + bits.length = (c.labelPool.live ++ bits).length := by
        rw [List.length_append, Pool.length_live]
      rw [hoptions, hfront]
      have hlive : c'.labelPool.live = (c.labelPool.live ++ bits) ++ (options ++ []) := by
        rw [hpool.live, List.append_nil, List.append_assoc]
      exact labels_refAt hoptionsLen hlive
  have hcells : [f.bits, f.options].flatMap LabelRef.cells =
      List.range' c.labelPool.used.toNat (bits ++ options).length := by
    have hmax := hcap.labels
    rw [List.flatMap_cons, List.flatMap_singleton, hbits, hoptions, cells_refAt (used_lt c) hbitsLen,
      cells_refAt (by omega) hoptionsLen, List.length_append, ← List.range'_append_1]
  refine ⟨by rw [hsame], fun other => ?_, ?_, h.grow hpool ?_ hcells rfl⟩
  · have hitems := items_extends h hpool other
    cases other with
    | layout =>
      rw [if_pos rfl, ← hitems]
      change p.live.map c'.layoutItem = c'.layoutPool.live.map c'.layoutItem ++ _
      rw [hlive, List.map_append, List.map_singleton]
      simp only [BasicCatalog.layoutItem, BasicCatalog.bitLabels, BasicCatalog.optionLabels, hlabels.1, hlabels.2]
    | schema =>
      rw [if_neg (fun h => FieldForm.noConfusion h), List.append_nil]
      exact hitems
    | store =>
      rw [if_neg (fun h => FieldForm.noConfusion h), List.append_nil]
      exact hitems
  · have hused := hpool.used
    rw [List.length_append] at hused
    simpa [WireItem.labels] using hused
  · change (p.live.flatMap (fun f => [f.bits, f.options]) ++ c'.schemaPool.live.flatMap fun f => [f.options]).Perm _
    rw [hlive, hlayout, List.flatMap_append, List.flatMap_singleton, List.append_assoc, hsame, BasicCatalog.refs,
      List.append_assoc]
    exact List.Perm.append_left _ List.perm_append_comm

/-- **A field of a schema and its labels.** -/
theorem addSchemaField_adds (hcap : Counted caps) (h : Labelled c) {f : SchemaField} (hread : SchemaRead c c' f options)
    (hadd : c'.poolAddSchemaField f = some c'') :
    Adds c c'' .schema [.schema f.plain (options.map Label.text) (levelsOf f options)] := by
  obtain ⟨p, hp, rfl⟩ := Option.map_eq_some_iff.mp hadd
  obtain ⟨hpool, hoptions, -, -, -, -, hopts, -, -⟩ := hread
  have hlive := Pool.live_push (.inl hcap.schemaFields) hp
  have hsame := hpool.same
  have hschema : c'.schemaPool = c.schemaPool := by rw [hsame]
  have hoptionsLen := length_options_le hopts
  have hlabels : c'.labels f.options = options := by
    rw [hoptions, ← Pool.length_live]
    have hlive : c'.labelPool.live = c.labelPool.live ++ (options ++ []) := by rw [hpool.live, List.append_nil]
    exact labels_refAt hoptionsLen hlive
  have hcells : [f.options].flatMap LabelRef.cells = List.range' c.labelPool.used.toNat options.length := by
    rw [List.flatMap_singleton, hoptions, cells_refAt (used_lt c) hoptionsLen]
  refine ⟨by rw [hsame], fun other => ?_, ?_, h.grow hpool ?_ hcells rfl⟩
  · have hitems := items_extends h hpool other
    cases other with
    | layout =>
      rw [if_neg (fun h => FieldForm.noConfusion h), List.append_nil]
      exact hitems
    | schema =>
      rw [if_pos rfl, ← hitems]
      change p.live.map c'.schemaItem = c'.schemaPool.live.map c'.schemaItem ++ _
      rw [hlive, List.map_append, List.map_singleton]
      simp only [BasicCatalog.schemaItem, BasicCatalog.optionAccess, BasicCatalog.optionLabels, hlabels, levelsOf]
    | store =>
      rw [if_neg (fun h => FieldForm.noConfusion h), List.append_nil]
      exact hitems
  · simpa [WireItem.labels] using hpool.used
  · change (c'.layoutPool.live.flatMap (fun f => [f.bits, f.options]) ++ p.live.flatMap fun f => [f.options]).Perm _
    rw [hlive, hschema, List.flatMap_append, List.flatMap_singleton, ← List.append_assoc, hsame]
    exact List.Perm.refl _

end

theorem addStore_adds (hcap : Counted caps) (h : Labelled c) {d : StoreDescriptor} (hadd : c.poolAddStore d = some c') :
    Adds c c' .store [.store d] := by
  obtain ⟨p, hp, rfl⟩ := Option.map_eq_some_iff.mp hadd
  have hlive := Pool.live_push (.inl hcap.stores) hp
  refine ⟨rfl, fun other => ?_, rfl, ⟨h.cells⟩⟩
  cases other with
  | store =>
    rw [if_pos rfl]
    change p.live.map WireItem.store = _
    rw [hlive, List.map_append]
    rfl
  | layout =>
    rw [if_neg (fun h => FieldForm.noConfusion h), List.append_nil]
    rfl
  | schema =>
    rw [if_neg (fun h => FieldForm.noConfusion h), List.append_nil]
    rfl

/-! ## Payloads -/

/-- A payload of one form. -/
structure PayloadBounded (form : FieldForm) (l : List WireItem) : Prop where
  some : l ≠ []
  count : l.length ≤ CatalogEntry.kMaxFields
  each : ∀ i ∈ l, i.Bounded ∧ i.form = form
  keys : form = .schema → (l.map WireItem.key).Pairwise (· < ·)
  single : form = .store → l.length = 1

theorem decodeLayout_array {ts : List CborTree} : (decodeLayout c).ofTree (.array ts) =
    if ts.length = 0 ∨ CatalogEntry.kMaxFields < ts.length then none
    else (ts.foldlM (fun c t => ((decodeLayoutField c).ofTree t).bind fun v => v.2.poolAddLayoutField v.1) c).map
      (Prod.mk ts.length) := by
  simp only [decodeLayout, array, andThen_ofTree, pooled_toOption]

theorem foldlM_layout (hcap : Counted caps) {ts : List CborTree} {d : Nat} (h : Labelled c)
    (hts : ∀ t ∈ ts, CborTree.Fits d t)
    (hfold : ts.foldlM (fun c t => ((decodeLayoutField c).ofTree t).bind fun v => v.2.poolAddLayoutField v.1) c = some c') :
    ∃ l, l.length = ts.length ∧ Adds c c' .layout l ∧ ∀ i ∈ l, i.Bounded ∧ i.form = .layout := by
  induction ts generalizing c with
  | nil =>
    obtain rfl := Option.some.inj hfold
    exact ⟨[], rfl, .refl h _, by simp⟩
  | cons t ts ih =>
    obtain ⟨ht, hts⟩ := List.forall_mem_cons.mp hts
    rw [List.foldlM_cons] at hfold
    obtain ⟨c₂, hstep, hfold⟩ := Option.bind_eq_some_iff.mp hfold
    obtain ⟨v, hv, hadd⟩ := Option.bind_eq_some_iff.mp hstep
    have hv : (decodeLayoutField c).ofTree t = some (v.1, v.2) := hv
    obtain ⟨bits, options, hread⟩ := decodeLayoutField_ok hcap.labels ht hv
    have hadds := addLayoutField_adds hcap h hread hadd
    obtain ⟨l, hlen, hrest, hall⟩ := ih hadds.labelled hts hfold
    exact ⟨_ :: l, by rw [List.length_cons, List.length_cons, hlen], hadds.trans hrest,
      List.forall_mem_cons.mpr ⟨⟨hread.bounded, rfl⟩, hall⟩⟩

/-- **The fields of a layout.** -/
theorem decodeLayout_ok (hcap : Counted caps) {n d : Nat} (h : Labelled c) (ht : CborTree.Fits d t)
    (hof : (decodeLayout c).ofTree t = some (n, c')) :
    ∃ l, l.length = n ∧ Adds c c' .layout l ∧ PayloadBounded .layout l := by
  cases ht with
  | @array d ts _ hts =>
    rw [decodeLayout_array] at hof
    split_ifs at hof with hbad
    push Not at hbad
    obtain ⟨c₁, hfold, hpair⟩ := Option.map_eq_some_iff.mp hof
    obtain ⟨rfl, rfl⟩ := Prod.mk.inj hpair
    obtain ⟨l, hlen, hadds, hall⟩ := foldlM_layout hcap h hts hfold
    refine ⟨l, hlen, hadds, fun hnil => hbad.1 (by rw [← hlen, hnil]; rfl), by rw [hlen]; exact hbad.2, hall,
      fun h => FieldForm.noConfusion h, fun h => FieldForm.noConfusion h⟩
  | _ => cases hof

def schemaStep (c : BasicCatalog caps) (p : Nat × CborTree) : Option (BasicCatalog caps) :=
  if 0xFF < p.1 then none
  else ((decodeSchemaField c (UInt8.ofNat p.1)).ofTree p.2).bind fun v => v.2.poolAddSchemaField v.1

theorem decodeSchema_map {ps : List (Nat × CborTree)} : (decodeSchema c).ofTree (.map ps) =
    if ps.length = 0 ∨ CatalogEntry.kMaxFields < ps.length then none
    else (ps.foldlM schemaStep c).map (Prod.mk ps.length) := by
  simp only [decodeSchema, mapOf]
  congr 2
  refine congrArg (fun step => ps.foldlM step c) ?_
  funext s p
  rw [schemaStep]
  split_ifs
  · rfl
  · simp only [andThen_ofTree, pooled_toOption]

theorem foldlM_schema (hcap : Counted caps) {ps : List (Nat × CborTree)} {d : Nat} (h : Labelled c)
    (hps : ∀ p ∈ ps, CborTree.Fits d p.2) (hfold : ps.foldlM schemaStep c = some c') :
    ∃ l, l.map WireItem.key = ps.map Prod.fst ∧ Adds c c' .schema l ∧ ∀ i ∈ l, i.Bounded ∧ i.form = .schema := by
  induction ps generalizing c with
  | nil =>
    obtain rfl := Option.some.inj hfold
    exact ⟨[], rfl, .refl h _, by simp⟩
  | cons p ps ih =>
    obtain ⟨hp, hps⟩ := List.forall_mem_cons.mp hps
    rw [List.foldlM_cons] at hfold
    obtain ⟨c₂, hstep, hfold⟩ := Option.bind_eq_some_iff.mp hfold
    rw [schemaStep] at hstep
    split_ifs at hstep with hkey
    obtain ⟨v, hv, hadd⟩ := Option.bind_eq_some_iff.mp hstep
    have hv : (decodeSchemaField c (UInt8.ofNat p.1)).ofTree p.2 = some (v.1, v.2) := hv
    obtain ⟨hfield, options, hread⟩ := decodeSchemaField_ok hcap.labels hp hv
    have hadds := addSchemaField_adds hcap h hread hadd
    obtain ⟨l, hkeys, hrest, hall⟩ := ih hadds.labelled hps hfold
    refine ⟨_ :: l, ?_, hadds.trans hrest, List.forall_mem_cons.mpr ⟨⟨hread.bounded, rfl⟩, hall⟩⟩
    rw [List.map_cons, List.map_cons, hkeys]
    congr 1
    change v.1.key.toNat = p.1
    rw [hfield, UInt8.toNat_ofNat']
    omega

/-- **The fields of a schema.** -/
theorem decodeSchema_ok (hcap : Counted caps) {n d : Nat} (h : Labelled c) (ht : CborTree.Fits d t)
    (hof : (decodeSchema c).ofTree t = some (n, c')) :
    ∃ l, l.length = n ∧ Adds c c' .schema l ∧ PayloadBounded .schema l := by
  cases ht with
  | @map d ps _ hasc _ hps =>
    rw [decodeSchema_map] at hof
    split_ifs at hof with hbad
    push Not at hbad
    obtain ⟨c₁, hfold, hpair⟩ := Option.map_eq_some_iff.mp hof
    obtain ⟨rfl, rfl⟩ := Prod.mk.inj hpair
    obtain ⟨l, hkeys, hadds, hall⟩ := foldlM_schema hcap h hps hfold
    have hlen : l.length = ps.length := by rw [← List.length_map WireItem.key, hkeys, List.length_map]
    refine ⟨l, hlen, hadds, fun hnil => hbad.1 (by rw [← hlen, hnil]; rfl), by rw [hlen]; exact hbad.2, hall,
      fun _ => ?_, fun h => FieldForm.noConfusion h⟩
    rw [hkeys]
    exact hasc
  | _ => cases hof

end SlopSync.Builder
