import SlopSync.CatalogCodec
import SlopSync.Contents

/-! # What a catalog says

The contents of a catalog as the encoder asks for them, labels apart from the levels of their options, and the tree of each
entry.  `WireContent.onWire` is what the wire keeps of an entry: values whose flag is not set are not sent, nor are the
unnamed bits behind the last named one, and the fields of a schema come in the order of their keys.

* `encodeEntry_emit` — the codec writes the tree of the contents;
* `encodeCatalog_iff` — what it wrote is the array of them. -/

namespace SlopSync.Builder

open CborWriter CborReader CborDecoder

/-! ## Contents -/

/-- A field with the texts of its labels, and the levels of its options where it has such. -/
inductive WireItem
  | layout (f : LayoutField) (bits options : List Bytes)
  | schema (f : SchemaField) (options : List Bytes) (optionAccess : List AccessLevel)
  | store (d : StoreDescriptor)
  deriving DecidableEq

/-- A catalog entry as the wire shows it: its header, and its fields in pool order. -/
structure WireContent where
  header : CatalogEntry
  items : List WireItem
  deriving DecidableEq

namespace BasicCatalog

variable {caps : Capacities}

/-- A layout field with the labels its references name. -/
def layoutItem (c : BasicCatalog caps) (f : LayoutField) : WireItem :=
  .layout f.plain (c.bitLabels f) (c.optionLabels f.toAnnotations)

/-- A schema field with the labels and levels its references name. -/
def schemaItem (c : BasicCatalog caps) (f : SchemaField) : WireItem :=
  .schema f.plain (c.optionLabels f.toAnnotations) (c.optionAccess f)

/-- The payload of an entry, as the accessors give it. -/
def payload (c : BasicCatalog caps) (e : CatalogEntry) : List WireItem :=
  match e.form with
  | .layout => (c.layoutFields e).map c.layoutItem
  | .schema => (c.schemaFields e).map c.schemaItem
  | .store => (c.storeDescriptor e).toList.map .store

/-- One entry of a catalog. -/
def wireContent (c : BasicCatalog caps) (e : CatalogEntry) : WireContent := ⟨e.header, c.payload e⟩

/-- All entries of a catalog, in order. -/
def wireContents (c : BasicCatalog caps) : List WireContent := c.entries.live.map c.wireContent

end BasicCatalog

/-! ## What the wire keeps -/

/-- Rendering keys that are not sent read back as zero. -/
def renderingOnWire (r : Rendering) : Rendering :=
  { r with
    rank := (given r.hasRank r.rank).getD 0
    aspect := (given r.hasAspect r.aspect).getD 0
    scope := (given r.hasScope r.scope).getD 0
    provenance := (given r.hasProvenance r.provenance).getD 0
    unitId := (given r.hasUnitId r.unitId).getD 0 }

/-- So do annotations; a text that is not sent reads back empty. -/
def Annotations.onWire (a : Annotations) : Annotations :=
  { a with
    toRendering := renderingOnWire a.toRendering
    min := (given a.hasMin a.min).getD 0
    max := (given a.hasMax a.max).getD 0
    step := (given a.hasStep a.step).getD 0 }

namespace WireItem

/-- The key a field is sorted by; only schema fields have one. -/
def key : WireItem → Nat
  | .schema f _ _ => f.key.toNat
  | _ => 0

/-- The pool a field stands in. -/
def form : WireItem → FieldForm
  | .layout _ _ _ => .layout
  | .schema _ _ _ => .schema
  | .store _ => .store

/-- A field as it reads back. -/
def onWire : WireItem → WireItem
  | .layout f bits options =>
    .layout { f with
      toAnnotations := f.toAnnotations.onWire
      settingKey := (given f.hasSettingKey f.settingKey).getD 0 } (BasicCatalog.trimmed bits) options
  | .schema f options optionAccess =>
    .schema { f with
      toAnnotations := f.toAnnotations.onWire
      access := (given f.hasAccess f.access).getD .watch
      hasOptionAccess := !optionAccess.isEmpty } options optionAccess
  | .store d => .store d

end WireItem

/-- The fields in the order the encoder writes them. -/
def sortItems (l : List WireItem) : List WireItem := l.mergeSort fun a b => decide (a.key ≤ b.key)

/-- The header as it reads back. -/
def CatalogEntry.onWire (e : CatalogEntry) : CatalogEntry :=
  { e with
    category := (given e.hasCategory e.category).getD 0
    replayDepth := (given e.hasReplayDepth e.replayDepth).getD 0
    settingChannel := (given e.hasSettingChannel e.settingChannel).getD 0
    rank := (given e.hasRank e.rank).getD 0 }

/-- The fields in the order in which they are sent. -/
def WireContent.ordered (x : WireContent) : List WireItem := if x.header.form = .schema then sortItems x.items else x.items

/-- An entry as it reads back. -/
def WireContent.onWire (x : WireContent) : WireContent := ⟨x.header.onWire, x.ordered.map WireItem.onWire⟩

/-! ## Trees -/

/-- An enumeration is its code. -/
def enumTree {α : Type} [DecidableEq α] (vs : List α) (a : α) : CborTree := .uint (vs.idxOf a)

/-- A default is a bare value of its kind. -/
def SettingDefault.tree : SettingDefault → CborTree
  | .int v => .ofInt v.toInt
  | .float bits => .f32 bits
  | .bool v => .bool v
  | .tstr s => .text s
  | .none => .null

section Trees

/-- Keys 5 and 6 of a field, where they are given. -/
def Annotations.rangePairs (a : Annotations) : List (Nat × CborTree) :=
  optPair 5 (given a.hasMin a.min) .f32 ++ optPair 6 (given a.hasMax a.max) .f32

/-- Keys 9 to 15. -/
def Annotations.hintPairs (a : Annotations) (options : List Bytes) : List (Nat × CborTree) :=
  optPair 9 a.dflt.given SettingDefault.tree ++ optPair 10 (listOpt options) (.arrayOf .text) ++
    optPair 11 (nonempty a.group) .text ++ optPair 12 (nonempty a.desc) .text ++ optPair 13 (nonempty a.role) .text ++
    optPair 14 (given a.hasStep a.step) .f32 ++ optPair 15 (nonzero8 a.flags) .u8

/-- Keys 19 to 23. -/
def renderingPairs (r : Rendering) : List (Nat × CborTree) :=
  optPair 19 (given r.hasRank r.rank) .u8 ++ optPair 20 (given r.hasAspect r.aspect) .u8 ++
    optPair 21 (given r.hasScope r.scope) .u8 ++ optPair 22 (given r.hasProvenance r.provenance) .u8 ++
    optPair 23 (given r.hasUnitId r.unitId) .u8

/-- A named bit: its index and its label. -/
def bitPair (b : Bytes × Nat) : Nat × CborTree := (b.2, .text b.1)

/-- A layout field, key by key. -/
def LayoutField.pairs (f : LayoutField) (bits options : List Bytes) : List (Nat × CborTree) :=
  [(1, .text f.name), (2, enumTree packedTypes f.type), (3, .text f.unit), (4, .f32 f.scale)] ++ f.rangePairs ++
    optPair 7 (listOpt (namedBits bits)) (fun l => .map (l.map bitPair)) ++
    optPair 8 (given f.hasSettingKey f.settingKey) .u8 ++ f.hintPairs options ++ renderingPairs f.toRendering

/-- A schema field, key by key. -/
def SchemaField.pairs (f : SchemaField) (options : List Bytes) (optionAccess : List AccessLevel) :
    List (Nat × CborTree) :=
  [(1, .text f.name), (2, enumTree cborTypes f.type), (3, .text f.unit)] ++ f.rangePairs ++ f.hintPairs options ++
    optPair 16 (given f.hasAccess f.access) (enumTree accessLevels) ++
    optPair 17 (listOpt optionAccess) (.arrayOf (enumTree accessLevels)) ++ renderingPairs f.toRendering

/-- A store descriptor, all of whose keys are always sent. -/
def storeTree (d : StoreDescriptor) : CborTree :=
  .map [(1, .u8 d.storeId), (2, .text d.kind), (3, .u16 d.capacity), (4, .u32 d.perItemMax), (5, .u16 d.nameMax)]

/-- A field. -/
def WireItem.tree : WireItem → CborTree
  | .layout f bits options => .map (f.pairs bits options)
  | .schema f options optionAccess => .map (f.pairs options optionAccess)
  | .store d => storeTree d

/-- A schema field under its own key. -/
def WireItem.pair (i : WireItem) : Nat × CborTree := (i.key, i.tree)

namespace WireContent

variable (x : WireContent)

/-- The keys every entry has. -/
def front : List (Nat × CborTree) :=
  [(1, .u16 x.header.id), (2, .text x.header.name), (3, enumTree classes x.header.cls),
    (4, enumTree directions x.header.dir), (5, enumTree accessLevels x.header.access), (6, .f32 x.header.maxRateHz),
    (7, enumTree priorities x.header.defaultPriority)]

/-- Keys 8 and 9. -/
def fieldPairs : List (Nat × CborTree) :=
  match x.header.form with
  | .layout => [(8, .arrayOf WireItem.tree x.items)]
  | .schema => [(9, .map (x.ordered.map WireItem.pair))]
  | .store => []

/-- Key 12. -/
def storePairs : List (Nat × CborTree) :=
  match x.header.form with
  | .store => optPair 12 x.items.head? WireItem.tree
  | _ => []

/-- The category, where there is one. -/
def categoryPairs : List (Nat × CborTree) :=
  optPair 10 (given x.header.hasCategory x.header.category) .u8 ++ optPair 11 (nonempty x.header.categoryLabel) .text

/-- The keys behind the payload. -/
def back : List (Nat × CborTree) :=
  optPair 13 (given x.header.hasReplayDepth x.header.replayDepth) .u16 ++
    optPair 14 (given x.header.hasSettingChannel x.header.settingChannel) .u16 ++
    optPair 15 (nonzero8 x.header.streamKind) .u8 ++ optPair 16 (given x.header.hasRank x.header.rank) .u8

/-- An entry, key by key. -/
def pairs : List (Nat × CborTree) := x.front ++ x.fieldPairs ++ x.categoryPairs ++ x.storePairs ++ x.back

/-- An entry is one map. -/
def tree : CborTree := .map x.pairs

end WireContent

end Trees

/-! ## The encoder writes the trees -/

section Emit

variable {α : Type} (w : CborWriter)

/-- A loop that writes a key and a value at each step writes the pairs of the list. -/
theorem foldl_emitPairs {f : α → Nat × CborTree} {g : CborWriter → α → CborWriter}
    (h : ∀ a w, g w a = emit (f a).2 (w.key (f a).1)) (l : List α) (w : CborWriter) :
    l.foldl g w = emitPairs (l.map f) w := by
  induction l generalizing w with
  | nil => rfl
  | cons a l ih =>
    rw [List.foldl_cons, h]
    exact ih _

/-- A default is written as its tree. -/
theorem encodeSettingDefault_emit {d : SettingDefault} (hd : d ∈ d.given) : encodeSettingDefault w d = emit d.tree w := by
  cases d with
  | none => cases hd
  | int v =>
    rw [encodeSettingDefault, SettingDefault.tree]
    generalize v.toInt = k
    cases k with
    | ofNat n =>
      rw [intVal, if_pos (show 0 ≤ Int.ofNat n from Int.natCast_nonneg n)]
      rfl
    | negSucc n =>
      rw [CborTree.ofInt, emit]
      congr 1
      omega
  | float bits => rfl
  | bool v => rfl
  | tstr s => rfl

theorem mem_given {d d' : SettingDefault} (h : d' ∈ d.given) : d' = d ∧ d ∈ d.given := by
  cases d with
  | none => cases h
  | _ => exact ⟨(Option.some.inj h).symm, rfl⟩

/-- The range keys, where they are given. -/
theorem encodeRange_emit (a : Annotations) : encodeRange w a = emitPairs a.rangePairs w := by
  simp only [encodeRange, Annotations.rangePairs, emitPairs_append, emitPairs_f32]

/-- The default, where it is given. -/
theorem optKey_default (d : SettingDefault) :
    w.optKey 9 d.given encodeSettingDefault = emitPairs (optPair 9 d.given SettingDefault.tree) w := by
  cases h : d.given with
  | none => rfl
  | some d' =>
    obtain ⟨rfl, hd⟩ := mem_given (Option.mem_def.mpr h)
    exact encodeSettingDefault_emit _ hd

/-- The keys of the annotations that hint at a widget. -/
theorem encodeHints_emit (a : Annotations) (options : List Bytes) :
    encodeHints w a options = emitPairs (a.hintPairs options) w := by
  have hoptions := fun w => emitPairs_arrayOf (f := CborTree.text) (g := tstrVal) 10 w (fun _ _ => rfl) (listOpt options)
  simp only [encodeHints, optU8, optKey_default, Annotations.hintPairs, emitPairs_append, emitPairs_f32, emitPairs_text,
    emitPairs_u8, hoptions]

/-- The rendering keys. -/
theorem encodeRendering_emit (r : Rendering) : encodeRendering w r = emitPairs (renderingPairs r) w := by
  simp only [encodeRendering, optU8, renderingPairs, emitPairs_append, emitPairs_u8]

/-- As many range pairs as `rangeKeys` counts. -/
@[simp] theorem length_rangePairs (a : Annotations) : a.rangePairs.length = a.rangeKeys := by
  simp [Annotations.rangePairs, Annotations.rangeKeys]

/-- As many hint pairs as `hintKeys` counts. -/
@[simp] theorem length_hintPairs (a : Annotations) (options : List Bytes) :
    (a.hintPairs options).length = a.hintKeys options := by
  simp only [Annotations.hintPairs, Annotations.hintKeys, List.length_append, length_optPair]

/-- As many rendering pairs as `renderingKeys` counts. -/
@[simp] theorem length_renderingPairs (r : Rendering) : (renderingPairs r).length = renderingKeys r := by
  simp only [renderingPairs, renderingKeys, List.length_append, length_optPair]

/-- The named bits, where there are any. -/
theorem optKey_bits (named : List (Bytes × Nat)) :
    (w.optKey 7 (listOpt named) fun w l => l.foldl (fun w b => (w.key b.2).tstrVal b.1) (w.mapHeader l.length)) =
      emitPairs (optPair 7 (listOpt named) fun l => .map (l.map bitPair)) w := by
  rw [emitPairs_optPair]
  congr 1
  funext w l
  rw [emit, List.length_map]
  exact foldl_emitPairs (f := bitPair) (fun _ _ => rfl) l _

/-- A layout field is written as its map. -/
theorem encodeLayoutField_emit (f : LayoutField) (bits options : List Bytes) :
    encodeLayoutField w f bits options = emit (.map (f.pairs bits options)) w := by
  rw [encodeLayoutField, emit]
  simp only [LayoutField.pairs, List.length_append, length_optPair, List.length_cons, List.length_nil,
    length_rangePairs, length_hintPairs, length_renderingPairs, emitPairs_append, encodeRange_emit, encodeHints_emit,
    encodeRendering_emit, optKey_bits, optU8, emitPairs_u8]
  rfl

/-- A schema field is written as its map. -/
theorem encodeSchemaField_emit (f : SchemaField) (options : List Bytes) (optionAccess : List AccessLevel) :
    encodeSchemaField w f options optionAccess = emit (.map (f.pairs options optionAccess)) w := by
  have haccess := fun w => emitPairs_optPair 16 w (given f.hasAccess f.access) (enumTree accessLevels)
  have hlevels := fun w => emitPairs_arrayOf (f := enumTree accessLevels) (g := levelVal) 17 w (fun _ _ => rfl)
    (listOpt optionAccess)
  rw [encodeSchemaField, emit]
  simp only [SchemaField.pairs, List.length_append, length_optPair, List.length_cons, List.length_nil,
    length_rangePairs, length_hintPairs, length_renderingPairs, emitPairs_append, encodeRange_emit, encodeHints_emit,
    encodeRendering_emit, haccess, hlevels]
  rfl

end Emit

section Entries

variable {caps : Capacities} {c : BasicCatalog caps} {e : CatalogEntry}

/-- The encoder goes on with the entry: its payload can be read, and is not too long. -/
structure Resolved (c : BasicCatalog caps) (e : CatalogEntry) : Prop where
  resolves : resolves c e = true
  bounded : e.fieldCount.toNat ≤ CatalogEntry.kMaxFields

/-- An entry that resolves has no more fields than the limit. -/
theorem Resolved.length_payload (h : Resolved c e) : (c.payload e).length ≤ CatalogEntry.kMaxFields := by
  obtain ⟨hres, hle⟩ := h
  unfold Builder.resolves at hres
  unfold BasicCatalog.payload
  cases hform : e.form <;> simp only [hform] at hres ⊢
  · rw [List.length_map, eq_of_beq hres]
    exact hle
  · rw [List.length_map, eq_of_beq hres]
    exact hle
  · obtain ⟨d, hd⟩ := Option.isSome_iff_exists.mp hres
    rw [hd, Option.toList_some, List.length_map, List.length_singleton]
    decide

/-- The fields of a schema, sorted before or after they were resolved. -/
theorem map_byKey (l : List SchemaField) : (byKey l).map c.schemaItem = sortItems (l.map c.schemaItem) := by
  refine List.map_mergeSort fun a _ b _ => ?_
  rw [decide_eq_decide]
  exact UInt8.le_iff_toNat_le

/-- The fields of a layout are written as their trees. -/
theorem foldl_layout (l : List LayoutField) (w : CborWriter) :
    l.foldl (fun w f => encodeLayoutField w f (c.bitLabels f) (c.optionLabels f.toAnnotations)) (w.arrayHeader l.length) =
      emit (.arrayOf WireItem.tree (l.map c.layoutItem)) w := by
  rw [CborTree.arrayOf, emit, List.length_map, List.length_map, List.map_map]
  exact foldl_emit (f := WireItem.tree ∘ c.layoutItem) (fun f w => encodeLayoutField_emit w f _ _) l _

/-- Those of a schema, with their keys. -/
theorem foldl_schema (l : List SchemaField) (w : CborWriter) :
    (byKey l).foldl
        (fun w f => encodeSchemaField (w.key f.key.toNat) f (c.optionLabels f.toAnnotations) (c.optionAccess f))
        (w.mapHeader l.length) =
      emit (.map ((sortItems (l.map c.schemaItem)).map WireItem.pair)) w := by
  rw [emit, List.length_map, ← map_byKey, List.length_map, List.map_map, byKey, List.length_mergeSort]
  exact foldl_emitPairs (f := WireItem.pair ∘ c.schemaItem) (fun f w => encodeSchemaField_emit _ f _ _) _ _

theorem length_categoryPairs (x : WireContent) : x.categoryPairs.length = x.header.categoryKeys := by
  simp only [WireContent.categoryPairs, CatalogEntry.categoryKeys, List.length_append, length_optPair]

theorem length_back (x : WireContent) : x.back.length = x.header.backKeys := by
  simp only [WireContent.back, CatalogEntry.backKeys, List.length_append, length_optPair]

/-- The payload has one key. -/
theorem length_payloadPairs {x : WireContent} (h : x.header.form = .store → x.items ≠ []) :
    x.fieldPairs.length + x.storePairs.length = 1 := by
  unfold WireContent.fieldPairs WireContent.storePairs
  cases hform : x.header.form with
  | layout => rfl
  | schema => rfl
  | store =>
    obtain ⟨i, l, hitems⟩ := List.exists_cons_of_ne_nil (h hform)
    rw [hitems]
    rfl

/-- The map header of an entry counts the pairs that follow it. -/
theorem length_pairs {x : WireContent} (h : x.header.form = .store → x.items ≠ []) :
    x.pairs.length = 8 + x.header.categoryKeys + x.header.backKeys := by
  have hone := length_payloadPairs h
  have hfront : x.front.length = 7 := rfl
  simp only [WireContent.pairs, List.length_append, length_categoryPairs, length_back]
  omega

/-- **The codec writes the tree of what the entry contains.** -/
theorem encodeEntry_emit (w : CborWriter) (h : Resolved c e) : encodeEntry w c e = emit (c.wireContent e).tree w := by
  have hlen := h.length_payload
  have hres := h.resolves
  have hheader : (c.wireContent e).header.form = e.form := rfl
  have hfront : ∀ w, encodeFront w e = emitPairs (c.wireContent e).front w := fun _ => rfl
  have hcategory : ∀ w, encodeCategory w e = emitPairs (c.wireContent e).categoryPairs w := fun w => by
    simp only [encodeCategory, optU8, WireContent.categoryPairs, emitPairs_append, emitPairs_u8, emitPairs_text]
    rfl
  have hback : ∀ w, encodeBack w e = emitPairs (c.wireContent e).back w := fun w => by
    simp only [encodeBack, optU8, WireContent.back, emitPairs_append, emitPairs_u8, emitPairs_u16]
    rfl
  have hcount : (c.wireContent e).pairs.length = 8 + e.categoryKeys + e.backKeys := by
    refine length_pairs fun hstore hnone => ?_
    have hstore := hheader.symm.trans hstore
    rw [Builder.resolves, hstore] at hres
    obtain ⟨d, hd⟩ := Option.isSome_iff_exists.mp hres
    simp [BasicCatalog.wireContent, BasicCatalog.payload, hstore, hd] at hnone
  rw [WireContent.tree, emit, hcount, WireContent.pairs]
  simp only [emitPairs_append, ← hfront, ← hcategory, ← hback]
  unfold Builder.resolves at hres
  unfold BasicCatalog.payload at hlen
  unfold encodeEntry
  cases hform : e.form with
  | layout =>
    have hpayload : (c.wireContent e).items = (c.layoutFields e).map c.layoutItem := by
      simp only [BasicCatalog.wireContent, BasicCatalog.payload, hform]
    simp only [hform, List.length_map] at hlen
    rw [if_neg (by simpa using hlen), if_neg (by simp)]
    simp only [WireContent.fieldPairs, WireContent.storePairs, hheader, hform, foldl_layout, hpayload]
    rfl
  | schema =>
    have hpayload : (c.wireContent e).ordered = sortItems ((c.schemaFields e).map c.schemaItem) := by
      rw [WireContent.ordered, if_pos (hheader.trans hform), BasicCatalog.wireContent, BasicCatalog.payload, hform]
    simp only [hform, List.length_map] at hlen
    rw [if_neg (by simpa using hlen), if_neg (by simp)]
    simp only [WireContent.fieldPairs, WireContent.storePairs, hheader, hform, foldl_schema, hpayload]
    rfl
  | store =>
    simp only [hform] at hres
    obtain ⟨d, hd⟩ := Option.isSome_iff_exists.mp hres
    have hpayload : (c.wireContent e).items = [.store d] := by
      simp [BasicCatalog.wireContent, BasicCatalog.payload, hform, hd]
    rw [if_neg (by simp), if_neg (by simp [hd])]
    simp only [WireContent.fieldPairs, WireContent.storePairs, hheader, hform, hpayload, hd]
    rfl

/-! ## Whole catalogs -/

theorem length_labels_le (c : BasicCatalog caps) (ref : LabelRef) : (c.labels ref).length ≤ 255 := by
  unfold BasicCatalog.labels
  split_ifs with hzero
  · exact Nat.zero_le 255
  · cases hslice : c.labelPool.slice ref.offset.toNat ref.count.toNat with
    | none => exact Nat.zero_le 255
    | some l =>
      have hlt := ref.count.toNat_lt
      rw [Option.getD_some, Pool.length_slice hslice]
      omega

/-- The lists of an item are no longer than a reference can say. -/
def WireItem.Sized : WireItem → Prop
  | .layout _ bits options => bits.length ≤ 255 ∧ options.length ≤ 255
  | .schema _ options optionAccess => options.length ≤ 255 ∧ optionAccess.length ≤ 255
  | .store _ => True

/-- Every field of a payload that resolves is within the sizes the codec can count. -/
theorem sized_payload : ∀ i ∈ c.payload e, i.Sized := by
  intro i hi
  unfold BasicCatalog.payload at hi
  split at hi
  · obtain ⟨f, -, rfl⟩ := List.mem_map.mp hi
    simp only [BasicCatalog.layoutItem, WireItem.Sized, BasicCatalog.bitLabels, BasicCatalog.optionLabels, List.length_map]
    exact ⟨length_labels_le c _, length_labels_le c _⟩
  · obtain ⟨f, -, rfl⟩ := List.mem_map.mp hi
    refine ⟨by rw [BasicCatalog.optionLabels, List.length_map]; exact length_labels_le c _, ?_⟩
    unfold BasicCatalog.optionAccess
    split_ifs
    · rw [List.length_map]
      exact length_labels_le c _
    · exact Nat.zero_le 255
  · obtain ⟨d, -, rfl⟩ := List.mem_map.mp hi
    trivial

end Entries

/-! ### The trees are those a writer can be asked for -/

section Typed

variable {α : Type}

theorem typed_enum [DecidableEq α] {vs : List α} (hlen : vs.length < 2 ^ 64) (a : α) : Typed (enumTree vs a) :=
  .uint (Nat.lt_of_le_of_lt List.idxOf_le_length hlen)

/-- The tree of a default is one a writer can be asked for. -/
theorem typed_default (d : SettingDefault) : Typed d.tree := by
  cases d with
  | none => exact .null
  | int v =>
    have hlt := v.toInt_lt
    have hle := v.le_toInt
    rw [SettingDefault.tree]
    generalize v.toInt = k at hlt hle
    cases k with
    | ofNat n => exact .uint (by have h : Int.ofNat n = (n : Int) := rfl; omega)
    | negSucc n => exact .negInt (by omega)
  | float bits => exact .f32 bits
  | bool v => exact .bool v
  | tstr s => exact .text s

/-- A pair that the calls can be asked for. -/
def TypedPair (p : Nat × CborTree) : Prop := p.1 < 2 ^ 64 ∧ Typed p.2

theorem typed_pair {k : Nat} {t : CborTree} (hk : k < 2 ^ 64) (ht : Typed t) : TypedPair (k, t) := ⟨hk, ht⟩

theorem mem_listOpt {l l' : List α} (h : l' ∈ listOpt l) : l' = l ∧ l ≠ [] := by
  rw [listOpt, Option.mem_def] at h
  split_ifs at h with hl
  exact ⟨(Option.some.inj h).symm, by simpa using hl⟩

/-- A map of typed pairs is one a writer can be asked for. -/
theorem typed_map {ps : List (Nat × CborTree)} (hn : ps.length < 2 ^ 32) (h : ∀ p ∈ ps, TypedPair p) : Typed (.map ps) :=
  .map hn (fun p hp => (h p hp).1) fun p hp => (h p hp).2

theorem typed_optPair {k : Nat} {o : Option α} {f : α → CborTree} (hk : k < 2 ^ 64) (h : ∀ a ∈ o, Typed (f a)) :
    ∀ p ∈ optPair k o f, TypedPair p :=
  forall_mem_optPair.mpr fun a ha => ⟨hk, h a ha⟩

theorem typed_rangePairs (a : Annotations) : ∀ p ∈ a.rangePairs, TypedPair p :=
  List.forall_mem_append.mpr ⟨typed_optPair (by decide) fun v _ => .f32 v, typed_optPair (by decide) fun v _ => .f32 v⟩

theorem typed_texts {l : List Bytes} (h : l.length ≤ 255) : Typed (.arrayOf .text l) :=
  typed_arrayOf (fun s => .text s) (by omega)

/-- The hints of a field with at most 255 options are typed pairs. -/
theorem typed_hintPairs (a : Annotations) {options : List Bytes} (h : options.length ≤ 255) :
    ∀ p ∈ a.hintPairs options, TypedPair p := by
  simp only [Annotations.hintPairs, List.append_assoc, List.forall_mem_append]
  refine ⟨typed_optPair (by decide) fun d _ => typed_default d, typed_optPair (by decide) fun l hl => ?_,
    typed_optPair (by decide) fun s _ => .text s, typed_optPair (by decide) fun s _ => .text s,
    typed_optPair (by decide) fun s _ => .text s, typed_optPair (by decide) fun v _ => .f32 v,
    typed_optPair (by decide) fun v _ => typed_u8 v⟩
  obtain ⟨rfl, -⟩ := mem_listOpt hl
  exact typed_texts h

theorem typed_renderingPairs (r : Rendering) : ∀ p ∈ renderingPairs r, TypedPair p := by
  simp only [renderingPairs, List.append_assoc, List.forall_mem_append]
  exact ⟨typed_optPair (by decide) fun v _ => typed_u8 v, typed_optPair (by decide) fun v _ => typed_u8 v,
    typed_optPair (by decide) fun v _ => typed_u8 v, typed_optPair (by decide) fun v _ => typed_u8 v,
    typed_optPair (by decide) fun v _ => typed_u8 v⟩

theorem length_namedBits_le (bits : List Bytes) : (namedBits bits).length ≤ bits.length := by
  have h := List.length_filter_le (fun b : Bytes × Nat => decide (b.1 ≠ [])) bits.zipIdx
  rwa [List.length_zipIdx] at h

/-- The map of a field's named bits is typed. -/
theorem typed_bits {bits : List Bytes} (h : bits.length ≤ 255) : Typed (.map ((namedBits bits).map bitPair)) := by
  have hle := length_namedBits_le bits
  refine typed_map (by rw [List.length_map]; omega) fun p hp => ?_
  obtain ⟨b, hb, rfl⟩ := List.mem_map.mp hp
  obtain ⟨hmem, -⟩ := List.mem_filter.mp hb
  obtain ⟨-, hlt, -⟩ := List.mem_zipIdx (x := b.1) (i := b.2) hmem
  exact ⟨by simp only [bitPair]; omega, .text b.1⟩

theorem typed_levels {l : List AccessLevel} (h : l.length ≤ 255) : Typed (.arrayOf (enumTree accessLevels) l) :=
  typed_arrayOf (typed_enum (by decide)) (by omega)

/-- The optional keys of a field number at most 14. -/
theorem optCount_sum_le (a : Annotations) (options : List Bytes) :
    a.rangeKeys + a.hintKeys options + renderingKeys a.toRendering ≤ 14 := by
  have hle := fun {α : Type} (o : Option α) => optCount_le o
  have h₁ := hle (given a.hasMin a.min)
  have h₂ := hle (given a.hasMax a.max)
  have h₃ := hle a.dflt.given
  have h₄ := hle (listOpt options)
  have h₅ := hle (nonempty a.group)
  have h₆ := hle (nonempty a.desc)
  have h₇ := hle (nonempty a.role)
  have h₈ := hle (given a.hasStep a.step)
  have h₉ := hle (nonzero8 a.flags)
  have h₁₀ := hle (given a.hasRank a.rank)
  have h₁₁ := hle (given a.hasAspect a.aspect)
  have h₁₂ := hle (given a.hasScope a.scope)
  have h₁₃ := hle (given a.hasProvenance a.provenance)
  have h₁₄ := hle (given a.hasUnitId a.unitId)
  simp only [Annotations.rangeKeys, Annotations.hintKeys, renderingKeys]
  omega

/-- So the tree of every field is one a writer can be asked for. -/
theorem typed_item {i : WireItem} (h : i.Sized) : Typed i.tree := by
  cases i with
  | layout f bits options =>
    obtain ⟨hbits, hoptions⟩ := h
    have hsum := optCount_sum_le f.toAnnotations options
    have h₁ := optCount_le (listOpt (namedBits bits))
    have h₂ := optCount_le (given f.hasSettingKey f.settingKey)
    refine typed_map ?_ ?_
    · simp only [LayoutField.pairs, List.length_append, length_optPair, length_rangePairs, length_hintPairs,
        length_renderingPairs, List.length_cons, List.length_nil]
      omega
    · simp only [LayoutField.pairs, List.append_assoc, List.forall_mem_append]
      refine ⟨?_, typed_rangePairs _, typed_optPair (by decide) fun l hl => ?_,
        typed_optPair (by decide) fun v _ => typed_u8 v, typed_hintPairs _ hoptions, typed_renderingPairs _⟩
      · simp only [List.forall_mem_cons]
        exact ⟨typed_pair (by decide) (.text _), typed_pair (by decide) (typed_enum (by decide) _),
          typed_pair (by decide) (.text _), typed_pair (by decide) (.f32 _), by simp⟩
      · obtain ⟨rfl, -⟩ := mem_listOpt hl
        exact typed_bits hbits
  | schema f options optionAccess =>
    obtain ⟨hoptions, haccess⟩ := h
    have hsum := optCount_sum_le f.toAnnotations options
    have h₁ := optCount_le (given f.hasAccess f.access)
    have h₂ := optCount_le (listOpt optionAccess)
    refine typed_map ?_ ?_
    · simp only [SchemaField.pairs, List.length_append, length_optPair, length_rangePairs, length_hintPairs,
        length_renderingPairs, List.length_cons, List.length_nil]
      omega
    · simp only [SchemaField.pairs, List.append_assoc, List.forall_mem_append]
      refine ⟨?_, typed_rangePairs _, typed_hintPairs _ hoptions,
        typed_optPair (by decide) fun v _ => typed_enum (by decide) v, typed_optPair (by decide) fun l hl => ?_,
        typed_renderingPairs _⟩
      · simp only [List.forall_mem_cons]
        exact ⟨typed_pair (by decide) (.text _), typed_pair (by decide) (typed_enum (by decide) _),
          typed_pair (by decide) (.text _), by simp⟩
      · obtain ⟨rfl, -⟩ := mem_listOpt hl
        exact typed_levels haccess
  | store d =>
    refine typed_map (by simp) ?_
    simp only [List.forall_mem_cons]
    exact ⟨typed_pair (by decide) (typed_u8 _), typed_pair (by decide) (.text _), typed_pair (by decide) (typed_u16 _),
      typed_pair (by decide) (typed_u32 _), typed_pair (by decide) (typed_u16 _), by simp⟩

theorem key_lt (i : WireItem) : i.key < 256 := by
  cases i with
  | schema f options optionAccess => exact f.key.toNat_lt
  | _ => exact Nat.zero_lt_succ 255

/-- Ordering an entry's fields by key loses none of them. -/
theorem mem_ordered {x : WireContent} {i : WireItem} : i ∈ x.ordered ↔ i ∈ x.items := by
  unfold WireContent.ordered
  split_ifs
  · exact List.mem_mergeSort
  · exact Iff.rfl

@[simp] theorem length_ordered (x : WireContent) : x.ordered.length = x.items.length := by
  unfold WireContent.ordered
  split_ifs
  · exact List.length_mergeSort _
  · rfl

/-- The entries of a catalog have trees that the writer can be asked for. -/
theorem typed_content {x : WireContent} (hlen : x.items.length ≤ CatalogEntry.kMaxFields) (h : ∀ i ∈ x.items, i.Sized) :
    Typed x.tree := by
  have hmax : CatalogEntry.kMaxFields = 64 := rfl
  have hfields : x.fieldPairs.length + x.storePairs.length ≤ 2 := by
    unfold WireContent.fieldPairs WireContent.storePairs
    have h12 := length_optPair 12 x.items.head? WireItem.tree
    have hle := optCount_le x.items.head?
    cases x.header.form with
    | layout => exact Nat.le_succ 1
    | schema => exact Nat.le_succ 1
    | store =>
      rw [List.length_nil, h12]
      omega
  have h₁ := optCount_le (given x.header.hasCategory x.header.category)
  have h₂ := optCount_le (nonempty x.header.categoryLabel)
  have h₃ := optCount_le (given x.header.hasReplayDepth x.header.replayDepth)
  have h₄ := optCount_le (given x.header.hasSettingChannel x.header.settingChannel)
  have h₅ := optCount_le (nonzero8 x.header.streamKind)
  have h₆ := optCount_le (given x.header.hasRank x.header.rank)
  refine typed_map ?_ ?_
  · have hfront : x.front.length = 7 := rfl
    simp only [WireContent.pairs, List.length_append, length_categoryPairs, length_back, CatalogEntry.categoryKeys,
      CatalogEntry.backKeys]
    omega
  · simp only [WireContent.pairs, List.append_assoc, List.forall_mem_append]
    refine ⟨?_, ?_, ?_, ?_, ?_⟩
    · simp only [WireContent.front, List.forall_mem_cons]
      exact ⟨typed_pair (by decide) (typed_u16 _), typed_pair (by decide) (.text _),
        typed_pair (by decide) (typed_enum (by decide) _), typed_pair (by decide) (typed_enum (by decide) _),
        typed_pair (by decide) (typed_enum (by decide) _), typed_pair (by decide) (.f32 _),
        typed_pair (by decide) (typed_enum (by decide) _), by simp⟩
    · unfold WireContent.fieldPairs
      split
      · simp only [List.forall_mem_singleton]
        refine typed_pair (by decide) (.array (by rw [List.length_map]; omega) fun t ht => ?_)
        obtain ⟨i, hi, rfl⟩ := List.mem_map.mp ht
        exact typed_item (h i hi)
      · simp only [List.forall_mem_singleton]
        refine typed_pair (by decide) (typed_map (by rw [List.length_map, length_ordered]; omega) fun p hp => ?_)
        obtain ⟨i, hi, rfl⟩ := List.mem_map.mp hp
        exact ⟨Nat.lt_trans (key_lt i) (by decide), typed_item (h i (mem_ordered.mp hi))⟩
      · simp
    · simp only [WireContent.categoryPairs, List.forall_mem_append]
      exact ⟨typed_optPair (by decide) fun v _ => typed_u8 v, typed_optPair (by decide) fun s _ => .text s⟩
    · unfold WireContent.storePairs
      split
      · exact typed_optPair (by decide) fun i hi => typed_item (h i (List.mem_of_mem_head? hi))
      · simp
    · simp only [WireContent.back, List.append_assoc, List.forall_mem_append]
      exact ⟨typed_optPair (by decide) fun v _ => typed_u16 v, typed_optPair (by decide) fun v _ => typed_u16 v,
        typed_optPair (by decide) fun v _ => typed_u8 v, typed_optPair (by decide) fun v _ => typed_u8 v⟩

end Typed

/-! ### What was written -/

section Written

variable {caps : Capacities} {c : BasicCatalog caps} {es : List CatalogEntry} {out bs : Bytes} {room : Nat}

/-- An entry that can be sent: it can be read, its tree is one of the profile, and it is not too long. -/
structure Sent (c : BasicCatalog caps) (e : CatalogEntry) : Prop where
  resolved : Resolved c e
  fits : CborTree.Fits kMaxDepth (c.wireContent e).tree
  length : (c.wireContent e).tree.encode.length ≤ catalogMaxEntryBytes

/-- The entries one after another, as the encoder writes them. -/
def encodings (l : List WireContent) : Bytes := l.flatMap fun x => x.tree.encode

/-- No tree is written as nothing. -/
theorem encode_tree_ne_nil (t : CborTree) : t.encode ≠ [] := by
  obtain ⟨b, bs, h, -⟩ := t.encode_first
  rw [h]
  exact List.cons_ne_nil b bs

/-- One entry after the other. -/
theorem encodeEntries_iff (hroom : room < 2 ^ 64) (hout : out.length ≤ room) :
    encodeEntries c room es out = some bs ↔
      (∀ e ∈ es, Sent c e) ∧ bs = out ++ encodings (es.map c.wireContent) ∧ bs.length ≤ room := by
  induction es generalizing out with
  | nil =>
    simp only [encodeEntries, encodings, List.map_nil, List.flatMap_nil, List.append_nil, Option.some.injEq]
    constructor
    · rintro rfl
      exact ⟨by simp, rfl, hout⟩
    · rintro ⟨-, rfl, -⟩
      rfl
  | cons e es ih =>
    have hencodings : encodings ((e :: es).map c.wireContent) = (c.wireContent e).tree.encode ++ encodings (es.map c.wireContent) := by
      rw [List.map_cons, encodings, List.flatMap_cons]
      rfl
    constructor
    · intro h
      rw [encodeEntries] at h
      split_ifs at h with hmax hpos hres
      have hresolved : Resolved c e := ⟨by simpa using hres, by omega⟩
      obtain ⟨bs', hbs', h⟩ := Option.bind_eq_some_iff.mp h
      rw [encodeEntry_emit _ hresolved] at hbs'
      obtain ⟨rfl, hfits, hcap⟩ := result_emit
        (typed_content (x := c.wireContent e) hresolved.length_payload sized_payload) (by omega) hbs'
      split_ifs at h with hnil hlong
      obtain ⟨hsent, rfl, hlen⟩ := (ih (by rw [List.length_append]; omega)).mp h
      refine ⟨List.forall_mem_cons.mpr ⟨⟨hresolved, hfits, by omega⟩, hsent⟩, ?_, hlen⟩
      rw [hencodings, List.append_assoc]
    · rintro ⟨hall, rfl, hlen⟩
      obtain ⟨hsent, hall⟩ := List.forall_mem_cons.mp hall
      rw [hencodings, List.length_append, List.length_append] at hlen
      rw [encodeEntries, if_neg (Nat.not_lt.mpr hsent.resolved.bounded), if_neg (by omega),
        if_neg (by simpa using hsent.resolved.resolves), encodeEntry_emit _ hsent.resolved,
        emit_result hsent.fits (by omega)]
      simp only [Option.bind_eq_bind, Option.bind_some]
      rw [if_neg (encode_tree_ne_nil _), if_neg (Nat.not_lt.mpr hsent.length),
        ih (by rw [List.length_append]; omega)]
      refine ⟨hall, by rw [hencodings, List.append_assoc], ?_⟩
      rw [hencodings, List.length_append, List.length_append]
      exact hlen

/-- The builder's ascending test says that ids ascend strictly. -/
theorem ascending_iff : ascending es = true ↔ (es.map CatalogEntry.id).Pairwise (· < ·) := by
  induction es with
  | nil => simp [ascending]
  | cons e es ih =>
    cases es with
    | nil => simp [ascending]
    | cons e' es =>
      rw [ascending, Bool.and_eq_true, ih, decide_eq_true_eq, List.map_cons (a := e), List.pairwise_cons]
      constructor
      · rintro ⟨hlt, hpair⟩
        refine ⟨fun i hi => ?_, hpair⟩
        rw [List.map_cons] at hi hpair
        rcases List.mem_cons.mp hi with rfl | hi
        · exact hlt
        · exact UInt16.lt_trans hlt ((List.pairwise_cons.mp hpair).1 i hi)
      · rintro ⟨hall, hpair⟩
        exact ⟨hall e'.id (by simp), hpair⟩

/-- The head of the array. -/
theorem header_eq (n : UInt16) : (arrayHeader { cap := 9 } n.toNat).result = some (head 4 n.toNat) := by
  have hn := n.toNat_lt
  have hlen := head_length_u16 4 (v := n.toNat) (by omega)
  rw [arrayHeader_wrote ⟨rfl, by simp only [List.length_nil, Nat.zero_add]; omega⟩ (by decide)]
  simp [result, wrote]

/-- **What the codec wrote is the array of the contents.** -/
theorem encodeCatalog_iff (hroom : room < 2 ^ 64) : encodeCatalog c room = some bs ↔
    (c.entries.live.map CatalogEntry.id).Pairwise (· < ·) ∧ (∀ e ∈ c.entries.live, Sent c e) ∧
      bs = head 4 c.entries.used.toNat ++ encodings c.wireContents ∧ bs.length ≤ room := by
  have hne : head 4 c.entries.used.toNat ≠ [] := by
    obtain ⟨b, bs, h, -⟩ := head_first (m := 4) (v := c.entries.used.toNat) (by decide)
    rw [h]
    exact List.cons_ne_nil b bs
  unfold encodeCatalog
  rw [← ascending_iff]
  by_cases hasc : ascending c.entries.live = true
  · rw [if_neg (by simpa using hasc), header_eq]
    simp only [Option.bind_eq_bind, Option.bind_some]
    by_cases hlen : room < (head 4 c.entries.used.toNat).length
    · rw [if_pos (.inr hlen)]
      constructor
      · intro h
        cases h
      · rintro ⟨-, -, rfl, hle⟩
        rw [List.length_append] at hle
        omega
    · rw [if_neg (by simp [hne, hlen]), encodeEntries_iff hroom (by omega)]
      exact ⟨fun h => ⟨hasc, h⟩, fun h => h.2⟩
  · rw [if_pos (by simpa using hasc)]
    constructor
    · intro h
      cases h
    · rintro ⟨h, -⟩
      exact absurd h hasc

end Written

end SlopSync.Builder
