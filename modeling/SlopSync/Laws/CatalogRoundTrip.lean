import SlopSync.Laws.CatalogSentFields

/-! # A catalog there and back

What was sent comes back as the wire keeps it, if it is within the bounds of the decoder and the target has room.  The
target need not be of the size of the source.

* `decodeCatalog_encodeCatalog` — the contents of a catalog that was sent;
* `decodeCatalog_again` — a catalog that decoded can be sent on: what arrives is the same, and encodes to the same bytes. -/

namespace SlopSync.Builder

open CborWriter CborReader CborDecoder

variable {caps : Capacities} {c c' : BasicCatalog caps} {l : List WireItem} {x : WireContent} {e : CatalogEntry}

/-! ## Payloads -/

/-- The size of the pool of a form. -/
def roomFor (caps : Capacities) : FieldForm → Nat
  | .layout => caps.layoutFields
  | .schema => caps.schemaFields
  | .store => caps.stores

/-- An item keeps its form on the wire. -/
@[simp] theorem form_onWire (i : WireItem) : i.onWire.form = i.form := by
  cases i <;> rfl

/-- An item keeps its key on the wire. -/
@[simp] theorem key_onWire (i : WireItem) : i.onWire.key = i.key := by
  cases i <;> rfl

/-- Items of one form that are sent to a catalog with room for them. -/
structure Arrive (c : BasicCatalog caps) (form : FieldForm) (l : List WireItem) : Prop where
  each : ∀ i ∈ l, i.onWire.Bounded ∧ i.form = form
  labels : c.labelPool.used.toNat + ((l.map WireItem.onWire).map WireItem.labels).sum ≤ caps.labels
  items : (c.poolItems form).length + l.length ≤ roomFor caps form

/-- The first of them is in, the others are still to come. -/
theorem Arrive.tail {form : FieldForm} {i : WireItem} (h : Arrive c form (i :: l)) (hadds : Adds c c' form [i.onWire]) :
    Arrive c' form l := by
  obtain ⟨hall, hlabels, hitems⟩ := h
  have hused := hadds.used
  have hcount := congrArg List.length (hadds.items form)
  rw [if_pos rfl, List.length_append, List.length_singleton] at hcount
  simp only [List.map_cons, List.sum_cons, List.length_cons, List.map_nil, List.sum_nil] at hlabels hitems hused
  exact ⟨(List.forall_mem_cons.mp hall).2, by omega, by omega⟩

/-- The layout fields that were written are read back into the pools, in order. -/
theorem foldlM_layout_some (hcap : Counted caps) (hl : Labelled c) (h : Arrive c .layout l) :
    ∃ c', (l.map WireItem.tree).foldlM
        (fun c t => ((decodeLayoutField c).ofTree t).bind fun v => v.2.poolAddLayoutField v.1) c = some c' ∧
      Adds c c' .layout (l.map WireItem.onWire) := by
  induction l generalizing c with
  | nil => exact ⟨c, rfl, .refl hl _⟩
  | cons i l ih =>
    obtain ⟨hbounded, hform⟩ := h.each i (List.mem_cons_self ..)
    have hlabels := h.labels
    have hitems := h.items
    cases i with
    | layout f bits options =>
      simp only [List.map_cons, List.sum_cons, List.length_cons, WireItem.onWire, WireItem.labels] at hlabels hitems
      obtain ⟨f', c₁, bits', options', hof, hread, hitem⟩ := decodeLayoutField_tree (c := c) hcap.labels hbounded (by omega)
      have hpool : c₁.layoutPool = c.layoutPool := by rw [hread.pool.same]
      have hroom : c₁.layoutPool.used.toNat < caps.layoutFields := by
        have hcount : (c.poolItems .layout).length = c.layoutPool.used.toNat := length_items c .layout
        have hmax : roomFor caps .layout = caps.layoutFields := rfl
        rw [hpool]
        omega
      obtain ⟨p, hp⟩ := push_some f' hroom
      have hadd : c₁.poolAddLayoutField f' = some { c₁ with layoutPool := p } := by
        rw [BasicCatalog.poolAddLayoutField, hp]
        rfl
      have hadds := addLayoutField_adds hcap hl hread hadd
      rw [hitem] at hadds
      obtain ⟨c', hfold, hrest⟩ := ih hadds.labelled (h.tail hadds)
      refine ⟨c', ?_, hadds.trans hrest⟩
      rw [List.map_cons, List.foldlM_cons, hof, Option.bind_some, hadd]
      exact hfold
    | _ => cases hform

/-- The schema fields that were written are read back into the pools, in order. -/
theorem foldlM_schema_some (hcap : Counted caps) (hl : Labelled c) (h : Arrive c .schema l) :
    ∃ c', (l.map WireItem.pair).foldlM schemaStep c = some c' ∧ Adds c c' .schema (l.map WireItem.onWire) := by
  induction l generalizing c with
  | nil => exact ⟨c, rfl, .refl hl _⟩
  | cons i l ih =>
    obtain ⟨hbounded, hform⟩ := h.each i (List.mem_cons_self ..)
    have hlabels := h.labels
    have hitems := h.items
    cases i with
    | schema f options levels =>
      simp only [List.map_cons, List.sum_cons, List.length_cons, WireItem.onWire, WireItem.labels] at hlabels hitems
      obtain ⟨f', c₁, options', hof, hread, hitem⟩ := decodeSchemaField_tree (c := c) hcap.labels hbounded (by omega)
      have hpool : c₁.schemaPool = c.schemaPool := by rw [hread.pool.same]
      have hroom : c₁.schemaPool.used.toNat < caps.schemaFields := by
        have hcount : (c.poolItems .schema).length = c.schemaPool.used.toNat := length_items c .schema
        have hmax : roomFor caps .schema = caps.schemaFields := rfl
        rw [hpool]
        omega
      obtain ⟨p, hp⟩ := push_some f' hroom
      have hadd : c₁.poolAddSchemaField f' = some { c₁ with schemaPool := p } := by
        rw [BasicCatalog.poolAddSchemaField, hp]
        rfl
      have hadds := addSchemaField_adds hcap hl hread hadd
      rw [hitem] at hadds
      obtain ⟨c', hfold, hrest⟩ := ih hadds.labelled (h.tail hadds)
      have hkey := f.key.toNat_lt
      have hstep : schemaStep c (WireItem.schema f options levels).pair = some { c₁ with schemaPool := p } := by
        rw [schemaStep, WireItem.pair, WireItem.key, if_neg (by omega), UInt8.ofNat_toNat, hof, Option.bind_some, hadd]
      refine ⟨c', ?_, hadds.trans hrest⟩
      rw [List.map_cons, List.foldlM_cons, hstep]
      exact hfold
    | _ => cases hform

/-- `decodeLayout` reads a written layout back. -/
theorem decodeLayout_tree (hcap : Counted caps) (hl : Labelled c) (h : Arrive c .layout l)
    (hpayload : PayloadBounded .layout (l.map WireItem.onWire)) :
    ∃ c', (decodeLayout c).ofTree (.arrayOf WireItem.tree l) = some (l.length, c') ∧
      Adds c c' .layout (l.map WireItem.onWire) := by
  obtain ⟨c', hfold, hadds⟩ := foldlM_layout_some hcap hl h
  have hpos := List.length_pos_of_ne_nil hpayload.some
  have hcount := hpayload.count
  rw [List.length_map] at hpos hcount
  refine ⟨c', ?_, hadds⟩
  rw [CborTree.arrayOf, decodeLayout_array, if_neg (by rw [List.length_map]; omega), hfold, List.length_map]
  rfl

/-- `decodeSchema` reads a written schema back. -/
theorem decodeSchema_tree (hcap : Counted caps) (hl : Labelled c) (h : Arrive c .schema l)
    (hpayload : PayloadBounded .schema (l.map WireItem.onWire)) :
    ∃ c', (decodeSchema c).ofTree (.map (l.map WireItem.pair)) = some (l.length, c') ∧
      Adds c c' .schema (l.map WireItem.onWire) := by
  obtain ⟨c', hfold, hadds⟩ := foldlM_schema_some hcap hl h
  have hpos := List.length_pos_of_ne_nil hpayload.some
  have hcount := hpayload.count
  rw [List.length_map] at hpos hcount
  refine ⟨c', ?_, hadds⟩
  rw [decodeSchema_map, if_neg (by rw [List.length_map]; omega), hfold, List.length_map]
  rfl

/-! ## Entries -/

def optionalStep (e : CatalogEntry) (p : Nat × CborTree) : Option CatalogEntry := (optionalKey p.1 e).ofTree p.2

namespace CatalogEntry

variable (e)

/-- What is known of an entry behind its payload. -/
def begun (offset : UInt16) (count : UInt8) : CatalogEntry where
  id := e.id
  name := e.name
  cls := e.cls
  dir := e.dir
  access := e.access
  maxRateHz := e.maxRateHz
  defaultPriority := e.defaultPriority
  fieldOffset := offset
  fieldCount := count

/-- Behind key 11. -/
def categorized (offset : UInt16) (count : UInt8) : CatalogEntry :=
  { e.begun offset count with
    hasCategory := e.hasCategory, category := e.onWire.category, categoryLabel := e.categoryLabel }

/-- An entry while it comes back. -/
def reading (e : CatalogEntry) (c : BasicCatalog caps) (got : Option FieldForm) : EntryReading caps where
  entry := e
  catalog := c
  gotId := true
  gotName := true
  gotCls := true
  gotDir := true
  gotAccess := true
  gotRate := true
  gotPrio := true
  gotLayout := got = some .layout
  gotSchema := got = some .schema
  gotStore := got = some .store

end CatalogEntry

variable {offset : UInt16} {count : UInt8} {got : Option FieldForm} {c₀ : BasicCatalog caps}

/-- The optional category keys set the category and its label, and nothing else. -/
theorem foldlM_category (hb : x.header.onWire.Bounded) :
    x.categoryPairs.foldlM optionalStep (x.header.begun offset count) = some (x.header.categorized offset count) := by
  rw [WireContent.categoryPairs, foldlM_optPair (fun e o => { e with category := o.getD 0, hasCategory := o.isSome }) id rfl
      (by simp [optionalStep, optionalKey]),
    foldlM_optPair_last (fun e o => { e with categoryLabel := o.getD [] }) id rfl (by
      intro s hs
      obtain ⟨rfl, hne⟩ := mem_nonempty.mp hs
      simp [optionalStep, optionalKey, label_ofTree.mpr ⟨rfl, hne, hb.categoryLabel⟩])]
  simp only [Option.map_id, id, isSome_given, getD_nonempty]
  rfl

/-- The keys after the category complete the header. -/
theorem foldlM_back :
    x.back.foldlM optionalStep (x.header.categorized offset count) =
      some { x.header.onWire with fieldOffset := offset, fieldCount := count } := by
  simp only [WireContent.back, List.append_assoc]
  rw [foldlM_optPair (fun e o => { e with replayDepth := o.getD 0, hasReplayDepth := o.isSome }) id rfl
      (by simp [optionalStep, optionalKey]),
    foldlM_optPair (fun e o => { e with settingChannel := o.getD 0, hasSettingChannel := o.isSome }) id rfl
      (by simp [optionalStep, optionalKey]),
    foldlM_optPair (fun e o => { e with streamKind := o.getD 0 }) id rfl (by simp [optionalStep, optionalKey]),
    foldlM_optPair_last (fun e o => { e with rank := o.getD 0, hasRank := o.isSome }) id rfl
      (by simp [optionalStep, optionalKey])]
  simp only [Option.map_id, id, isSome_given, getD_nonzero8]
  rfl

/-- Keys that may be missing do not touch the pools. -/
theorem foldlM_optional {ps : List (Nat × CborTree)} {e e' : CatalogEntry} (h : ps.foldlM optionalStep e = some e')
    (hps : ∀ p ∈ ps, p.1 ∉ [1, 2, 3, 4, 5, 6, 7, 8, 9, 12]) :
    ps.foldlM (fun s p => (entryKey c₀ p.1 s).ofTree p.2) (e.reading c got) = some (e'.reading c got) := by
  refine foldlM_within (f := fun e => CatalogEntry.reading e c got) (fun e p hp => ?_) h
  have hk := hps p hp
  simp only [List.mem_cons, List.not_mem_nil, or_false, not_or] at hk
  obtain ⟨h1, h2, h3, h4, h5, h6, h7, h8, h9, h12⟩ := hk
  rw [entryKey, if_neg h8, if_neg h9, if_neg h12, headerKey, if_neg h1, if_neg h2, if_neg h3, if_neg h4, if_neg h5,
    if_neg h6, if_neg h7, map_ofTree]
  rfl

/-- The keys before the payload set the header that the payload is added to. -/
theorem foldlM_front (hb : x.onWire.Bounded) :
    x.front.foldlM (fun s p => (entryKey c₀ p.1 s).ofTree p.2) { catalog := c } =
      some ((x.header.begun 0 0).reading c none) := by
  have hcls : x.header.cls ∈ classes := by cases x.header.cls <;> decide
  have hdir : x.header.dir ∈ directions := by cases x.header.dir <;> decide
  have hprio : x.header.defaultPriority ∈ priorities := by cases x.header.defaultPriority <;> decide
  have hname : (label 32).ofTree (.text x.header.name) = some x.header.name :=
    label_ofTree.mpr ⟨rfl, hb.named, hb.header.name⟩
  have hcls' : (enum classes).ofTree (enumTree classes x.header.cls) = some x.header.cls := enum_ofTree hcls (by decide)
  have hdir' : (enum directions).ofTree (enumTree directions x.header.dir) = some x.header.dir :=
    enum_ofTree hdir (by decide)
  have hprio' : (enum priorities).ofTree (enumTree priorities x.header.defaultPriority) =
      some x.header.defaultPriority := enum_ofTree hprio (by decide)
  simp only [WireContent.front, List.foldlM_cons, List.foldlM_nil, entryKey, headerKey]
  simp [hname, hcls', hdir', hprio', level_ofTree, CatalogEntry.reading, CatalogEntry.begun]

/-- The category keys are none of those that must be given. -/
theorem optional_category (x : WireContent) : ∀ p ∈ x.categoryPairs, p.1 ∉ [1, 2, 3, 4, 5, 6, 7, 8, 9, 12] := by
  simp only [WireContent.categoryPairs, List.forall_mem_append, forall_mem_optPair]
  simp

/-- The keys after the category are none of those that must be given. -/
theorem optional_back (x : WireContent) : ∀ p ∈ x.back, p.1 ∉ [1, 2, 3, 4, 5, 6, 7, 8, 9, 12] := by
  simp only [WireContent.back, List.forall_mem_append, forall_mem_optPair]
  simp

/-- All keys have been met. -/
theorem decodeEntry_done (offset : UInt16) (count : UInt8) (hb : x.onWire.Bounded) (hadds : Adds c c' x.header.form x.onWire.items)
    (hoffset : offset.toNat = (c.poolItems x.header.form).length) (hcount : count.toNat = x.onWire.items.length)
    (hall : x.pairs.foldlM (fun s p => (entryKey c p.1 s).ofTree p.2) { catalog := c } =
      some (CatalogEntry.reading { x.header.onWire with fieldOffset := offset, fieldCount := count } c'
        (some x.header.form))) :
    ∃ e c', (decodeEntry c).ofTree x.tree = some (e, c') ∧ EntryRead c c' e x.onWire.items ∧
      e.header = x.onWire.header := by
  have hform : ({ x.header.onWire with fieldOffset := offset, fieldCount := count } : CatalogEntry).form =
      x.header.form := rfl
  have hheader : ({ x.header.onWire with fieldOffset := offset, fieldCount := count } : CatalogEntry).header =
      x.onWire.header := hb.plain
  refine ⟨{ x.header.onWire with fieldOffset := offset, fieldCount := count }, c', ?_,
    ⟨hform ▸ hadds, hform ▸ hoffset, hcount, by rw [hheader]; exact hb⟩, hheader⟩
  rw [decodeEntry, andThen_ofTree, WireContent.tree, record_ofTree, hall, Option.bind_some]
  have hcomplete : (CatalogEntry.reading { x.header.onWire with fieldOffset := offset, fieldCount := count } c'
      (some x.header.form)).complete = true := by
    rw [EntryReading.complete]
    have hgot : (CatalogEntry.reading { x.header.onWire with fieldOffset := offset, fieldCount := count } c'
      (some x.header.form)).entry.form = x.header.form := rfl
    rw [hgot]
    cases x.header.form <;> rfl
  rw [if_pos hcomplete]
  rfl

/-- The items of an entry that are to arrive. -/
theorem arrive_ordered (hb : x.onWire.Bounded)
    (hlabels : c.labelPool.used.toNat + (x.onWire.items.map WireItem.labels).sum ≤ caps.labels)
    (hitems : (c.poolItems x.header.form).length + x.onWire.items.length ≤ roomFor caps x.header.form) :
    Arrive c x.header.form x.ordered := by
  refine ⟨fun i hi => ?_, hlabels, by rwa [WireContent.onWire, List.length_map] at hitems⟩
  obtain ⟨hbounded, hform⟩ := hb.payload.each i.onWire (List.mem_map_of_mem hi)
  exact ⟨hbounded, (form_onWire i).symm.trans hform⟩

/-- **An entry that was sent comes back.** -/
theorem decodeEntry_tree (hcap : Counted caps) (hl : Labelled c) (hb : x.onWire.Bounded)
    (hlabels : c.labelPool.used.toNat + (x.onWire.items.map WireItem.labels).sum ≤ caps.labels)
    (hitems : (c.poolItems x.header.form).length + x.onWire.items.length ≤ roomFor caps x.header.form) :
    ∃ e c', (decodeEntry c).ofTree x.tree = some (e, c') ∧ EntryRead c c' e x.onWire.items ∧
      e.header = x.onWire.header := by
  have harrive := arrive_ordered hb hlabels hitems
  have hpayload : PayloadBounded x.header.form (x.ordered.map WireItem.onWire) := hb.payload
  have hcount := hpayload.count
  rw [List.length_map] at hcount
  have hcategory : ∀ got (c' : BasicCatalog caps) offset count,
      x.categoryPairs.foldlM (fun s p => (entryKey c p.1 s).ofTree p.2) ((x.header.begun offset count).reading c' got) =
        some ((x.header.categorized offset count).reading c' got) :=
    fun _ _ _ _ => foldlM_optional (foldlM_category hb.header) (optional_category x)
  have hback : ∀ got (c' : BasicCatalog caps) offset count,
      x.back.foldlM (fun s p => (entryKey c p.1 s).ofTree p.2) ((x.header.categorized offset count).reading c' got) =
        some (CatalogEntry.reading { x.header.onWire with fieldOffset := offset, fieldCount := count } c' got) :=
    fun _ _ _ _ => foldlM_optional foldlM_back (optional_back x)
  cases hform : x.header.form with
  | layout =>
    rw [hform] at harrive hpayload
    obtain ⟨c', hof, hadds⟩ := decodeLayout_tree hcap hl harrive hpayload
    have hordered : x.ordered = x.items := by
      rw [WireContent.ordered, if_neg (by rw [hform]; exact fun h => FieldForm.noConfusion h)]
    have hkey : ∀ t, (entryKey c 8 ((x.header.begun 0 0).reading c none)).ofTree t =
        ((decodeLayout c).ofTree t).map fun v =>
          (x.header.begun c.layoutPool.used (UInt8.ofNat v.1)).reading v.2 (some .layout) := fun t => rfl
    have hfields : x.fieldPairs.foldlM (fun s p => (entryKey c p.1 s).ofTree p.2) ((x.header.begun 0 0).reading c none) =
        some ((x.header.begun c.layoutPool.used (UInt8.ofNat x.ordered.length)).reading c' (some .layout)) := by
      rw [WireContent.fieldPairs, hform, ← hordered]
      simp only [List.foldlM_cons, hkey, hof]
      rfl
    have hstore : x.storePairs = [] := by rw [WireContent.storePairs, hform]
    refine decodeEntry_done c.layoutPool.used (UInt8.ofNat x.ordered.length) hb (by rw [hform]; exact hadds) (by rw [hform]; exact (length_items c .layout).symm)
      (by rw [count_ofNat hcount, WireContent.onWire, List.length_map]) ?_
    rw [WireContent.pairs, hstore, List.append_nil, hform]
    exact foldlM_then (foldlM_then (foldlM_then (foldlM_front hb) hfields) (hcategory _ _ _ _)) (hback _ _ _ _)
  | schema =>
    rw [hform] at harrive hpayload
    obtain ⟨c', hof, hadds⟩ := decodeSchema_tree hcap hl harrive hpayload
    have hkey : ∀ t, (entryKey c 9 ((x.header.begun 0 0).reading c none)).ofTree t =
        ((decodeSchema c).ofTree t).map fun v =>
          (x.header.begun c.schemaPool.used (UInt8.ofNat v.1)).reading v.2 (some .schema) := fun t => rfl
    have hfields : x.fieldPairs.foldlM (fun s p => (entryKey c p.1 s).ofTree p.2) ((x.header.begun 0 0).reading c none) =
        some ((x.header.begun c.schemaPool.used (UInt8.ofNat x.ordered.length)).reading c' (some .schema)) := by
      rw [WireContent.fieldPairs, hform]
      simp only [List.foldlM_cons, hkey, hof]
      rfl
    have hstore : x.storePairs = [] := by rw [WireContent.storePairs, hform]
    refine decodeEntry_done c.schemaPool.used (UInt8.ofNat x.ordered.length) hb (by rw [hform]; exact hadds) (by rw [hform]; exact (length_items c .schema).symm)
      (by rw [count_ofNat hcount, WireContent.onWire, List.length_map]) ?_
    rw [WireContent.pairs, hstore, List.append_nil, hform]
    exact foldlM_then (foldlM_then (foldlM_then (foldlM_front hb) hfields) (hcategory _ _ _ _)) (hback _ _ _ _)
  | store =>
    rw [hform] at harrive hpayload
    have hordered : x.ordered = x.items := by
      rw [WireContent.ordered, if_neg (by rw [hform]; exact fun h => FieldForm.noConfusion h)]
    obtain ⟨i, hsingle⟩ : ∃ i, x.ordered = [i] := by
      have hone := hpayload.single rfl
      rw [List.length_map] at hone
      exact List.length_eq_one_iff.mp hone
    obtain ⟨hbounded, hstored⟩ := harrive.each i (by rw [hsingle]; exact List.mem_singleton_self i)
    cases i with
    | store d =>
      have hroom : c.storePool.used.toNat < caps.stores := by
        have hitems := harrive.items
        have hstores : (c.poolItems .store).length = c.storePool.used.toNat := length_items c .store
        have hmax : roomFor caps .store = caps.stores := rfl
        rw [hsingle, List.length_singleton] at hitems
        omega
      obtain ⟨p, hp⟩ := push_some d hroom
      have hadd : c.poolAddStore d = some { c with storePool := p } := by
        rw [BasicCatalog.poolAddStore, hp]
        rfl
      have hadds := addStore_adds hcap hl hadd
      have hkey : ∀ t, (entryKey c 12 ((x.header.categorized 0 0).reading c none)).ofTree t =
          (decodeStoreDescriptor.ofTree t).bind fun d => ((pooled (c.poolAddStore d)).map fun c' =>
            (x.header.categorized c.storePool.used 1).reading c' (some .store)).toOption := fun t => rfl
      have hstore : x.storePairs.foldlM (fun s p => (entryKey c p.1 s).ofTree p.2)
          ((x.header.categorized 0 0).reading c none) =
          some ((x.header.categorized c.storePool.used 1).reading { c with storePool := p } (some .store)) := by
        have htree := decodeStoreDescriptor_tree hbounded
        rw [WireContent.storePairs, hform, ← hordered, hsingle, List.head?_cons]
        simp only [optPair_some, List.foldlM_cons, hkey, WireItem.tree]
        rw [htree, Option.bind_some, hadd]
        rfl
      have hfields : x.fieldPairs = [] := by rw [WireContent.fieldPairs, hform]
      have hwire : x.onWire.items = [.store d] := by rw [WireContent.onWire, hsingle]; rfl
      refine decodeEntry_done c.storePool.used 1 hb (by rw [hform, hwire]; exact hadds)
        (by rw [hform]; exact (length_items c .store).symm) (by rw [hwire]; rfl) ?_
      rw [WireContent.pairs, hfields, List.append_nil, hform]
      exact foldlM_then (foldlM_then (foldlM_then (foldlM_front hb) (hcategory _ _ _ _)) hstore) (hback _ _ _ _)
    | _ => cases hstored

/-! ## Catalogs -/

/-- A catalog of these capacities has room for the contents. -/
structure Holds (caps : Capacities) (l : List WireContent) : Prop where
  entries : l.length ≤ caps.entries
  items : ∀ form, ((l.flatMap WireContent.items).filter fun i => i.form = form).length ≤ roomFor caps form
  labels : ((l.flatMap WireContent.items).map WireItem.labels).sum ≤ caps.labels

theorem length_contents (c : BasicCatalog caps) : c.wireContents.length = c.entries.used.toNat := by
  rw [BasicCatalog.wireContents, List.length_map, Pool.length_live]

/-- **What decoded fits its catalog.** -/
theorem WellFormed.holds (h : WellFormed c) : Holds caps c.wireContents := by
  refine ⟨?_, fun form => ?_, h.used ▸ c.labelPool.fits⟩
  · rw [length_contents]
    exact c.entries.fits
  · rw [← h.whole, length_items]
    cases form with
    | layout => exact c.layoutPool.fits
    | schema => exact c.schemaPool.fits
    | store => exact c.storePool.fits

/-- It is what the wire keeps of it. -/
theorem WellFormed.onWire (h : WellFormed c) : c.wireContents.map WireContent.onWire = c.wireContents := by
  conv_rhs => rw [← List.map_id c.wireContents]
  exact List.map_congr_left fun x hx => (h.bounded x hx).onWire

/-- A content that can be sent, and read by a decoder. -/
structure WireContent.Passes (x : WireContent) : Prop where
  fits : CborTree.Fits kMaxDepth x.tree
  length : x.tree.encode.length ≤ catalogMaxEntryBytes
  bounded : x.onWire.Bounded

def WireContent.id (x : WireContent) : UInt16 := x.header.id

/-- The contents of a catalog have its entries' ids, in order. -/
theorem ids_contents (c : BasicCatalog caps) : c.wireContents.map WireContent.id = c.entries.live.map CatalogEntry.id := by
  rw [BasicCatalog.wireContents, List.map_map]
  rfl

/-- There is room for one more entry. -/
theorem Holds.next {xs : List WireContent} (h : Holds caps (c.wireContents ++ x :: xs)) (hsound : WellFormed c)
    (hb : PayloadBounded x.header.form x.items) :
    c.entries.used.toNat < caps.entries ∧
      c.labelPool.used.toNat + (x.items.map WireItem.labels).sum ≤ caps.labels ∧
      (c.poolItems x.header.form).length + x.items.length ≤ roomFor caps x.header.form := by
  obtain ⟨hentries, hitems, hlabels⟩ := h
  have hform := hitems x.header.form
  rw [List.length_append, List.length_cons, length_contents] at hentries
  rw [List.flatMap_append, List.flatMap_cons, List.filter_append, List.filter_append, List.length_append,
    List.length_append, ← hsound.whole, hb.filter, if_pos rfl] at hform
  rw [List.flatMap_append, List.flatMap_cons, List.map_append, List.map_append, List.sum_append, List.sum_append,
    ← hsound.used] at hlabels
  omega

/-- One entry that decodes takes the loop to the next with its id as the last. -/
theorem decodeEntries_step {bs : Bytes} {n pos : Nat} {last : Option UInt16} {c₁ c₂ : BasicCatalog caps}
    {r : CborReader} (hpos : pos ≤ bs.length)
    (hread : (decodeEntry c).read { rest := (bs.drop pos).take catalogMaxEntryBytes } = .ok ((e, c₁), r))
    (hlow : ¬last.any (e.id ≤ ·)) (hadd : c₁.addEntryVerbatim e = some c₂) :
    decodeEntries bs (n + 1) pos last c = decodeEntries bs n
      (pos + (((bs.drop pos).take catalogMaxEntryBytes).length - r.rest.length)) (some e.id) c₂ := by
  rw [decodeEntries, if_neg (Nat.not_lt.mpr hpos)]
  simp only [hread, ok_bind]
  rw [if_neg hlow, hadd]
  rfl

/-- **One entry after the other comes back.** -/
theorem decodeEntries_encodings (front u : Bytes) (hcap : Counted caps) {xs : List WireContent} (h : WellFormed c)
    (hxs : ∀ x ∈ xs, x.Passes) (hids : ((c.wireContents ++ xs).map WireContent.id).Pairwise (· < ·))
    (hholds : Holds caps (c.wireContents ++ xs.map WireContent.onWire)) :
    ∃ c', decodeEntries (front ++ encodings xs ++ u) xs.length front.length (lastId c) c = .ok c' ∧
      WellFormed c' ∧ c'.wireContents = c.wireContents ++ xs.map WireContent.onWire := by
  induction xs generalizing c front with
  | nil => exact ⟨c, rfl, h, (List.append_nil _).symm⟩
  | cons x xs ih =>
    obtain ⟨hx, hxs⟩ := List.forall_mem_cons.mp hxs
    obtain ⟨hentries, hlabels, hitems⟩ := hholds.next h hx.bounded.payload
    obtain ⟨e, c₁, hof, hread, hheader⟩ := decodeEntry_tree hcap h.labelled hx.bounded hlabels hitems
    have hid : e.header.id = x.onWire.header.id := by rw [hheader]
    have hid : e.id = x.id := hid
    have hsame : x.onWire.id = x.id := rfl
    have habove : ∀ e' ∈ c.entries.live, e'.id < e.id := by
      intro e' he'
      rw [List.map_append, List.pairwise_append, ids_contents] at hids
      rw [hid]
      exact hids.2.2 e'.id (List.mem_map_of_mem he') x.id (List.mem_cons_self ..)
    obtain ⟨p, hp⟩ := push_some (p := c₁.entries) e (by rw [hread.adds.entries]; exact hentries)
    have hadd : c₁.addEntryVerbatim e = some { c₁ with entries := p } := by
      rw [BasicCatalog.addEntryVerbatim, hp]
      rfl
    obtain ⟨hsound, hlive, hcontents⟩ := h.add hcap hread habove hadd
    have hcontents : BasicCatalog.wireContents { c₁ with entries := p } = c.wireContents ++ [x.onWire] := by
      rw [hcontents, hheader]
    obtain ⟨c', hok, hsound', hcontents'⟩ := ih (front ++ x.tree.encode) hsound hxs
      (by
        rw [hcontents, List.append_assoc, List.singleton_append]
        simpa only [List.map_append, List.map_cons, hsame] using hids)
      (by
        rw [hcontents, List.append_assoc, List.singleton_append]
        exact hholds)
    refine ⟨c', ?_, hsound', by rw [hcontents', hcontents, List.append_assoc, List.singleton_append, List.map_cons]⟩
    have hsplit : front ++ encodings (x :: xs) ++ u = front ++ (x.tree.encode ++ (encodings xs ++ u)) := by
      rw [encodings, List.flatMap_cons, List.append_assoc, List.append_assoc]
      rfl
    have hwindow : ((front ++ encodings (x :: xs) ++ u).drop front.length).take catalogMaxEntryBytes =
        x.tree.encode ++ (encodings xs ++ u).take (catalogMaxEntryBytes - x.tree.encode.length) := by
      rw [hsplit, List.drop_left, List.take_append, List.take_of_length_le hx.length]
    have hdone := (decodeEntry c).takes.complete
      (u := (encodings xs ++ u).take (catalogMaxEntryBytes - x.tree.encode.length)) (s := []) (Nat.zero_le _)
      (Nat.zero_le _) hx.fits hof
    have hlow : ¬(lastId c).any (e.id ≤ ·) := by
      intro hany
      obtain ⟨last, hlast, hle⟩ := (Option.any_eq_true _ _).mp hany
      obtain ⟨e', he', rfl⟩ := List.mem_map.mp (List.mem_of_getLast? hlast)
      exact absurd (habove e' he') (UInt16.not_lt.mpr (of_decide_eq_true hle))
    have hlast : lastId { c₁ with entries := p } = some e.id := by
      rw [lastId, hlive, List.map_append, List.map_singleton, List.getLast?_concat]
    have hconsumed : front.length + ((x.tree.encode ++ (encodings xs ++ u).take
        (catalogMaxEntryBytes - x.tree.encode.length)).length - ((encodings xs ++ u).take
        (catalogMaxEntryBytes - x.tree.encode.length)).length) = (front ++ x.tree.encode).length := by
      rw [List.length_append, List.length_append]
      omega
    have hjoin : front ++ x.tree.encode ++ encodings xs ++ u = front ++ encodings (x :: xs) ++ u := by
      rw [hsplit, List.append_assoc, List.append_assoc]
    rw [hjoin, hlast] at hok
    rw [List.length_cons, decodeEntries_step (by simp only [List.length_append]; omega) (by rw [hwindow]; exact hdone) hlow
      hadd, hwindow, hconsumed]
    exact hok

/-- A written catalog decodes into cleared pools of any size that holds it, whatever follows it. -/
theorem decodeCatalog_head (hcap : Counted caps) {xs : List WireContent} {u : Bytes} (hxs : ∀ x ∈ xs, x.Passes)
    (hids : (xs.map WireContent.id).Pairwise (· < ·)) (hholds : Holds caps (xs.map WireContent.onWire)) :
    ∃ c', decodeCatalog (head 4 xs.length ++ encodings xs ++ u) c = .ok c' ∧ WellFormed c' ∧
      c'.wireContents = xs.map WireContent.onWire := by
  have hentries := hholds.entries
  have hmax := hcap.entries
  rw [List.length_map] at hentries
  obtain ⟨c', hok, hsound, hcontents⟩ := decodeEntries_encodings (head 4 xs.length) u hcap (wellFormed_clear c) hxs hids hholds
  refine ⟨c', ?_, hsound, hcontents⟩
  have hread : readArrayHeader { rest := head 4 xs.length ++ encodings xs ++ u } =
      .ok (xs.length, ⟨encodings xs ++ u, opened ⟨false, slotsOf false xs.length, none⟩ []⟩) := by
    rw [readArrayHeader, List.append_assoc]
    exact enterContainer_head (by decide) (by omega) (by decide)
  have hpos : (head 4 xs.length ++ encodings xs ++ u).length - (encodings xs ++ u).length = (head 4 xs.length).length := by
    simp only [List.length_append]
    omega
  rw [decodeCatalog, hread]
  simp only [ok_bind]
  rw [if_neg (Nat.not_lt.mpr hentries), hpos]
  exact hok

/-- **A catalog that was sent comes back as the wire keeps it.**  The target may be of another size, and bytes behind the
catalog are not looked at. -/
theorem decodeCatalog_encodeCatalog {caps' : Capacities} (hcap : Counted caps') {room : Nat} {bs u : Bytes}
    (hroom : room < 2 ^ 64) (henc : encodeCatalog c room = some bs) (hb : ∀ x ∈ c.wireContents, x.onWire.Bounded)
    (hholds : Holds caps' (c.wireContents.map WireContent.onWire)) (c₀ : BasicCatalog caps') :
    ∃ c', decodeCatalog (bs ++ u) c₀ = .ok c' ∧ WellFormed c' ∧ c'.wireContents = c.wireContents.map WireContent.onWire := by
  obtain ⟨hids, hsent, rfl, -⟩ := (encodeCatalog_iff hroom).mp henc
  rw [← length_contents]
  refine decodeCatalog_head hcap (fun x hx => ?_) (by rw [ids_contents]; exact hids) hholds
  have hbounded := hb x hx
  obtain ⟨e, he, rfl⟩ := List.mem_map.mp hx
  exact ⟨(hsent e he).fits, (hsent e he).length, hbounded⟩

/-- The lamp's catalog fits in two hundred bytes. -/
theorem lamp_encodes {c : BasicCatalog smallCapacities} (h : decodeCatalog lampBytes .empty = .ok c) :
    ∃ bs, encodeCatalog c 200 = some bs := by
  have hsome : ((decodeCatalog lampBytes (.empty : BasicCatalog smallCapacities)).toOption.bind
      (encodeCatalog · 200)).isSome = true := by decide +kernel
  rw [h] at hsome
  exact Option.isSome_iff_exists.mp hsome

theorem decodeCatalog_encodeCatalog_lamp : ∃ (c c' : BasicCatalog smallCapacities) (bs : Bytes),
    encodeCatalog c 200 = some bs ∧ decodeCatalog (bs ++ [0xFF]) .empty = .ok c' ∧
      c'.wireContents = c.wireContents.map WireContent.onWire := by
  obtain ⟨c, hc⟩ := lamp_decodes
  obtain ⟨bs, hbs⟩ := lamp_encodes hc
  obtain ⟨n, r, -, hentries⟩ := decodeCatalog_entries hc
  obtain ⟨hsound, -⟩ := decodeEntries_ok counted_small (wellFormed_clear _) hentries
  obtain ⟨c', hc', -, hcontents⟩ := decodeCatalog_encodeCatalog (u := [0xFF]) counted_small (by decide) hbs
    (fun x hx => by rw [(hsound.bounded x hx).onWire]; exact hsound.bounded x hx)
    (by rw [hsound.onWire]; exact hsound.holds) .empty
  exact ⟨c, c', bs, hbs, hc', hcontents⟩

/-! ## What was received is sent on -/

/-- The payload of every entry can be read in full. -/
theorem WellFormed.resolved (h : WellFormed c) (he : e ∈ c.entries.live) : Resolved c e := by
  have hbounded := h.bounded _ (List.mem_map_of_mem he)
  have hcount := hbounded.payload.count
  obtain ⟨hin, hstore⟩ := payload_some hbounded.payload.some
  have hlen : (c.payload e).length = e.fieldCount.toNat := by
    rw [payload_eq hin hstore, List.length_take, List.length_drop]
    omega
  refine ⟨?_, ?_⟩
  · unfold resolves
    unfold BasicCatalog.payload at hlen
    cases hform : e.form with
    | layout => simpa [hform] using hlen
    | schema => simpa [hform] using hlen
    | store =>
      simp only [hform, List.length_map, hstore hform] at hlen
      refine Option.isSome_iff_ne_none.mpr fun hnone => ?_
      rw [hnone] at hlen
      cases hlen
  · rw [← hlen]
    exact hcount

/-- **The encoding is of the contents**, wherever they lie in the pools. -/
theorem encodeCatalog_contents {caps' : Capacities} {c : BasicCatalog caps} {c' : BasicCatalog caps'} (h' : WellFormed c')
    (hsame : c'.wireContents = c.wireContents) {room : Nat} {bs : Bytes} (hroom : room < 2 ^ 64)
    (henc : encodeCatalog c room = some bs) : encodeCatalog c' room = some bs := by
  obtain ⟨-, hsent, rfl, hlen⟩ := (encodeCatalog_iff hroom).mp henc
  have hused : c'.entries.used.toNat = c.entries.used.toNat := by
    rw [← length_contents, ← length_contents, hsame]
  refine (encodeCatalog_iff hroom).mpr ⟨h'.ids, fun e he => ?_, by rw [hsame, hused], hlen⟩
  have hmem : c'.wireContent e ∈ c.wireContents := by
    rw [← hsame]
    exact List.mem_map_of_mem he
  obtain ⟨e', he', heq⟩ := List.mem_map.mp hmem
  have hpassed := hsent e' he'
  exact ⟨h'.resolved he, heq ▸ hpassed.fits, heq ▸ hpassed.length⟩

/-- **What was received can be sent on.**  It arrives with the same contents, and has the same encoding there. -/
theorem decodeCatalog_again (hcap : Counted caps) {room : Nat} {bs bs' u : Bytes} (hroom : room < 2 ^ 64)
    (h : decodeCatalog bs c = .ok c') (henc : encodeCatalog c' room = some bs') (c₀ : BasicCatalog caps) :
    ∃ c'', decodeCatalog (bs' ++ u) c₀ = .ok c'' ∧ c''.wireContents = c'.wireContents ∧ encodeCatalog c'' room = some bs' := by
  obtain ⟨n, r, -, hentries⟩ := decodeCatalog_entries h
  obtain ⟨hsound, -⟩ := decodeEntries_ok hcap (wellFormed_clear c) hentries
  obtain ⟨hids, hsent, rfl, -⟩ := (encodeCatalog_iff hroom).mp henc
  have hpasses : ∀ x ∈ c'.wireContents, x.Passes := by
    intro x hx
    have hbounded := hsound.bounded x hx
    obtain ⟨e, he, rfl⟩ := List.mem_map.mp hx
    exact ⟨(hsent e he).fits, (hsent e he).length, by rw [hbounded.onWire]; exact hbounded⟩
  obtain ⟨c'', hok, hsound'', hcontents⟩ := decodeCatalog_head (c := c₀) (u := u) hcap hpasses
    (by rw [ids_contents]; exact hids) (by rw [hsound.onWire]; exact hsound.holds)
  rw [hsound.onWire] at hcontents
  rw [length_contents] at hok
  exact ⟨c'', hok, hcontents, encodeCatalog_contents hsound'' hcontents hroom henc⟩

theorem decodeCatalog_again_lamp : ∃ (c c' : BasicCatalog smallCapacities) (bs : Bytes),
    decodeCatalog lampBytes .empty = .ok c ∧ encodeCatalog c 200 = some bs ∧ decodeCatalog (bs ++ [0xFF]) .empty = .ok c' ∧
      c'.wireContents = c.wireContents ∧ encodeCatalog c' 200 = some bs := by
  obtain ⟨c, hc⟩ := lamp_decodes
  obtain ⟨bs, hbs⟩ := lamp_encodes hc
  obtain ⟨c', hc', hcontents, hagain⟩ := decodeCatalog_again (u := [0xFF]) counted_small (by decide) hc hbs .empty
  exact ⟨c, c', bs, hc, hbs, hc', hcontents, hagain⟩

end SlopSync.Builder
