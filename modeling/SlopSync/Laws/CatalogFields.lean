import SlopSync.Laws.CatalogLabels

/-! # Fields of a decoder

What is known of a field while it is read: its labels are those the pool got since, and every text it has is within its
bounds.  The keys of a map ascend, so the bits of a field come before its options, and those before their levels.

* `decodeLayoutField_ok`, `decodeSchemaField_ok`, `decodeStoreDescriptor_ok` — a field that was read. -/

namespace SlopSync.Builder

open CborWriter CborReader CborDecoder

/-! ## Bounds -/

/-- The texts are within their bounds, and a value without its flag is not set. -/
structure Annotations.Bounded (a : Annotations) : Prop where
  name : a.name.length ≤ 24
  unit : a.unit.length ≤ 8
  group : a.group.length ≤ 24
  desc : a.desc.length ≤ descMaxBytes
  role : a.role.length ≤ 24
  min : a.hasMin = false → a.min = 0
  max : a.hasMax = false → a.max = 0
  step : a.hasStep = false → a.step = 0
  rank : a.hasRank = false → a.rank = 0
  aspect : a.hasAspect = false → a.aspect = 0
  scope : a.hasScope = false → a.scope = 0
  provenance : a.hasProvenance = false → a.provenance = 0
  unitId : a.hasUnitId = false → a.unitId = 0

/-- A field, as the decoder leaves it. -/
def WireItem.Bounded : WireItem → Prop
  | .layout f bits options =>
    f.toAnnotations.Bounded ∧ f.name ≠ [] ∧ (f.hasSettingKey = false → f.settingKey = 0) ∧ BitTexts bits ∧
      (options ≠ [] → OptionTexts options) ∧ f.plain = f
  | .schema f options optionAccess =>
    f.toAnnotations.Bounded ∧ f.name ≠ [] ∧ (f.hasAccess = false → f.access = .watch) ∧
      f.hasOptionAccess = !optionAccess.isEmpty ∧ (options ≠ [] → OptionTexts options) ∧
      (optionAccess ≠ [] → optionAccess.length = options.length) ∧ f.plain = f
  | .store d => d.kind ≠ [] ∧ d.kind.length ≤ 32

section Given

variable {α : Type} {has : Bool} {a b : α}

theorem getD_given (h : has = false → a = b) : (given has a).getD b = a := by
  cases has with
  | false => exact (h rfl).symm
  | true => rfl

end Given

theorem Annotations.Bounded.onWire {a : Annotations} (h : a.Bounded) : a.onWire = a := by
  simp only [Annotations.onWire, renderingOnWire, getD_given h.min, getD_given h.max, getD_given h.step,
    getD_given h.rank, getD_given h.aspect, getD_given h.scope, getD_given h.provenance, getD_given h.unitId]

/-- A bounded item is what the wire keeps of it. -/
theorem WireItem.Bounded.onWire {i : WireItem} (h : i.Bounded) : i.onWire = i := by
  cases i with
  | layout f bits options =>
    obtain ⟨ha, -, hkey, hbits, -⟩ := h
    simp only [WireItem.onWire, ha.onWire, getD_given hkey, hbits.trimmed]
  | schema f options optionAccess =>
    obtain ⟨ha, -, haccess, hhas, -, -⟩ := h
    simp only [WireItem.onWire, ha.onWire, getD_given haccess, ← hhas]
  | store d => rfl

/-! ## The keys that mean the same in both kinds of field -/

/-- A reference to labels from cell `n` on, or none where there are none. -/
def refAt (n : Nat) (l : List Label) : LabelRef := if l = [] then {} else refTo (UInt16.ofNat n) l

variable {caps : Capacities} {c c' : BasicCatalog caps} {t : CborTree} {α : Type} {s s' : Reading caps α} {k j : Nat}
  {a a' : Annotations} {bits options : List Label} {put : Annotations → α}

/-- A field that has been read up to key `k`, from the catalog `c` on: its labels are `bits` and `options`. -/
structure Seen (c : BasicCatalog caps) (k : Nat) (s : Reading caps α) (a : Annotations) (bits options : List Label) :
    Prop where
  pool : Extends c s.catalog (bits ++ options)
  ref : a.options = refAt (c.labelPool.used.toNat + bits.length) options
  fresh : k ≤ 10 → options = []
  texts : options ≠ [] → OptionTexts (options.map Label.text)
  bounded : a.Bounded
  named : s.gotName = true → a.name ≠ []

namespace Seen

/-- A key that has nothing to do with the pool. -/
theorem pure (h : Seen c k s a bits options) (hk : k ≤ j) (hcatalog : s'.catalog = s.catalog)
    (hoptions : a'.options = a.options) (hbounded : a'.Bounded) (hnamed : s'.gotName = true → a'.name ≠ []) :
    Seen c (j + 1) s' a' bits options where
  pool := hcatalog ▸ h.pool
  ref := hoptions.trans h.ref
  fresh hj := h.fresh (by omega)
  texts := h.texts
  bounded := hbounded
  named := hnamed

end Seen

theorem refAt_used {c : BasicCatalog caps} {l : List Label} (h : l ≠ []) : refAt c.labelPool.used.toNat l =
    refTo c.labelPool.used l := by
  rw [refAt, if_neg h, UInt16.ofNat_toNat]

theorem map_text_unlevelled (texts : List Bytes) : (unlevelled texts).map Label.text = texts := by
  rw [unlevelled, List.map_map]
  exact List.map_id texts

theorem unlevelled_ne_nil {texts : List Bytes} (h : texts ≠ []) : unlevelled texts ≠ [] := by
  simpa [unlevelled] using h

theorem unitText_length {s : Bytes} (h : unitText.ofTree t = some s) : s.length ≤ 8 := by
  rw [unitText, andThen_ofTree] at h
  obtain ⟨s', -, h⟩ := Option.bind_eq_some_iff.mp h
  split_ifs at h with hlong
  · cases h
  · obtain rfl := Option.some.inj h
    exact Nat.not_lt.mp hlong

/-- Options that were read. -/
theorem Seen.withOptions (hcap : caps.labels < 2 ^ 16) (h : Seen c k s a bits options) (hk : k ≤ 10) {ref : LabelRef}
    (hof : (decodeOptions s.catalog).ofTree t = some (ref, c')) (field : α) :
    ∃ options', Seen c 11 { s with field, catalog := c' } { a with options := ref } bits options' := by
  obtain ⟨texts, -, htexts, hext, rfl⟩ := decodeOptions_ok hcap hof
  obtain rfl := h.fresh hk
  have hb := h.bounded
  have hpool := h.pool
  rw [List.append_nil] at hpool
  refine ⟨unlevelled texts, hpool.trans hext, ?_, fun hle => absurd hle (by omega), fun _ => ?_,
    { hb with name := hb.name }, h.named⟩
  · rw [← hpool.used, refAt_used (unlevelled_ne_nil htexts.some)]
  · rw [map_text_unlevelled]
    exact htexts

/-- Values without their flag stay as they are. -/
theorem renderingKey_ok {r r' : Rendering} (hrank : r.hasRank = false → r.rank = 0)
    (haspect : r.hasAspect = false → r.aspect = 0) (hscope : r.hasScope = false → r.scope = 0)
    (hprovenance : r.hasProvenance = false → r.provenance = 0) (hunit : r.hasUnitId = false → r.unitId = 0)
    (hof : (renderingKey j r).ofTree t = some r') :
    (r'.hasRank = false → r'.rank = 0) ∧ (r'.hasAspect = false → r'.aspect = 0) ∧ (r'.hasScope = false → r'.scope = 0) ∧
      (r'.hasProvenance = false → r'.provenance = 0) ∧ (r'.hasUnitId = false → r'.unitId = 0) := by
  unfold renderingKey at hof
  split_ifs at hof
  · obtain ⟨v, -, rfl⟩ := Option.map_eq_some_iff.mp hof
    exact ⟨fun h => Bool.noConfusion h, haspect, hscope, hprovenance, hunit⟩
  · obtain ⟨v, -, rfl⟩ := Option.map_eq_some_iff.mp hof
    exact ⟨hrank, fun h => Bool.noConfusion h, hscope, hprovenance, hunit⟩
  · obtain ⟨v, -, rfl⟩ := Option.map_eq_some_iff.mp hof
    exact ⟨hrank, haspect, fun h => Bool.noConfusion h, hprovenance, hunit⟩
  · obtain ⟨v, -, rfl⟩ := Option.map_eq_some_iff.mp hof
    exact ⟨hrank, haspect, hscope, fun h => Bool.noConfusion h, hunit⟩
  · obtain ⟨v, -, rfl⟩ := Option.map_eq_some_iff.mp hof
    exact ⟨hrank, haspect, hscope, hprovenance, fun h => Bool.noConfusion h⟩
  · obtain rfl := Option.some.inj hof
    exact ⟨hrank, haspect, hscope, hprovenance, hunit⟩

theorem annotationKey_ok (hb : a.Bounded) (hof : (annotationKey j a).ofTree t = some a') :
    a'.Bounded ∧ a'.options = a.options ∧ a'.name = a.name := by
  unfold annotationKey at hof
  split_ifs at hof
  · obtain ⟨v, -, rfl⟩ := Option.map_eq_some_iff.mp hof
    exact ⟨{ hb with min := fun h => Bool.noConfusion h }, rfl, rfl⟩
  · obtain ⟨v, -, rfl⟩ := Option.map_eq_some_iff.mp hof
    exact ⟨{ hb with max := fun h => Bool.noConfusion h }, rfl, rfl⟩
  · obtain ⟨v, -, rfl⟩ := Option.map_eq_some_iff.mp hof
    exact ⟨{ hb with name := hb.name }, rfl, rfl⟩
  · obtain ⟨v, hv, rfl⟩ := Option.map_eq_some_iff.mp hof
    exact ⟨{ hb with group := (label_ofTree.mp hv).2.2 }, rfl, rfl⟩
  · obtain ⟨v, hv, rfl⟩ := Option.map_eq_some_iff.mp hof
    exact ⟨{ hb with desc := (label_ofTree.mp hv).2.2 }, rfl, rfl⟩
  · obtain ⟨v, hv, rfl⟩ := Option.map_eq_some_iff.mp hof
    exact ⟨{ hb with role := (label_ofTree.mp hv).2.2 }, rfl, rfl⟩
  · obtain ⟨v, -, rfl⟩ := Option.map_eq_some_iff.mp hof
    exact ⟨{ hb with step := fun h => Bool.noConfusion h }, rfl, rfl⟩
  · obtain ⟨v, -, rfl⟩ := Option.map_eq_some_iff.mp hof
    exact ⟨{ hb with name := hb.name }, rfl, rfl⟩
  · obtain ⟨r, hr, rfl⟩ := Option.map_eq_some_iff.mp hof
    obtain ⟨hrank, haspect, hscope, hprovenance, hunit⟩ :=
      renderingKey_ok hb.rank hb.aspect hb.scope hb.provenance hb.unitId hr
    exact ⟨{ hb with rank := hrank, aspect := haspect, scope := hscope, provenance := hprovenance, unitId := hunit },
      rfl, rfl⟩

/-- **One key.** -/
theorem commonKey_ok (hcap : caps.labels < 2 ^ 16) (h : Seen c k s a bits options) (hk : k ≤ j)
    (hof : (commonKey j a put s).ofTree t = some s') :
    ∃ a' options', s'.field = put a' ∧ Seen c (j + 1) s' a' bits options' ∧ (options ≠ [] → options' = options) := by
  have hb := h.bounded
  unfold commonKey at hof
  split_ifs at hof with h1 h3 h10
  · obtain ⟨v, hv, rfl⟩ := Option.map_eq_some_iff.mp hof
    obtain ⟨-, hne, hlen⟩ := label_ofTree.mp hv
    exact ⟨{ a with name := v }, options, rfl, h.pure hk rfl rfl { hb with name := hlen } fun _ => hne,
      fun _ => rfl⟩
  · obtain ⟨v, hv, rfl⟩ := Option.map_eq_some_iff.mp hof
    exact ⟨{ a with unit := v }, options, rfl, h.pure hk rfl rfl { hb with unit := unitText_length hv } h.named,
      fun _ => rfl⟩
  · subst h10
    obtain ⟨v, hv, rfl⟩ := Option.map_eq_some_iff.mp hof
    obtain ⟨options', hseen⟩ := h.withOptions hcap hk hv (put { a with options := v.1 })
    exact ⟨{ a with options := v.1 }, options', rfl, hseen, fun hne => absurd (h.fresh hk) hne⟩
  · obtain ⟨a', ha', rfl⟩ := Option.map_eq_some_iff.mp hof
    obtain ⟨hb', hoptions, hname⟩ := annotationKey_ok hb ha'
    exact ⟨a', options, rfl, h.pure hk rfl hoptions hb' (fun hgot => hname ▸ h.named hgot), fun _ => rfl⟩

/-! ## Fields -/

/-- A layout field that has been read up to key `k`. -/
structure LayoutSeen (c : BasicCatalog caps) (k : Nat) (s : Reading caps LayoutField) (bits options : List Label) :
    Prop where
  seen : Seen c k s s.field.toAnnotations bits options
  ref : s.field.bits = refAt c.labelPool.used.toNat bits
  fresh : k ≤ 7 → bits = []
  texts : BitTexts (bits.map Label.text)
  settingKey : s.field.hasSettingKey = false → s.field.settingKey = 0

theorem bitTexts_nil : BitTexts [] := ⟨rfl, Nat.zero_le 8, by simp⟩

theorem layoutKey_ok (hcap : caps.labels < 2 ^ 16) {s s' : Reading caps LayoutField} {d : Nat}
    (h : LayoutSeen c k s bits options) (hk : k ≤ j) (ht : CborTree.Fits d t)
    (hof : (layoutKey j s).ofTree t = some s') : ∃ bits' options', LayoutSeen c (j + 1) s' bits' options' := by
  have hb := h.seen.bounded
  unfold layoutKey at hof
  split_ifs at hof with h2 h4 h7 h8
  · obtain ⟨v, -, rfl⟩ := Option.map_eq_some_iff.mp hof
    exact ⟨bits, options, h.seen.pure hk rfl rfl hb h.seen.named, h.ref, fun hj => h.fresh (by omega), h.texts, h.settingKey⟩
  · obtain ⟨v, -, rfl⟩ := Option.map_eq_some_iff.mp hof
    exact ⟨bits, options, h.seen.pure hk rfl rfl hb h.seen.named, h.ref, fun hj => h.fresh (by omega), h.texts, h.settingKey⟩
  · subst h7
    obtain ⟨v, hv, rfl⟩ := Option.map_eq_some_iff.mp hof
    have hv : (decodeBits s.catalog).ofTree t = some (v.1, v.2) := hv
    obtain ⟨texts, hne, htexts, hext, href⟩ := decodeBits_ok hcap ht hv
    obtain rfl := h.fresh hk
    obtain rfl := h.seen.fresh (by omega)
    have hpool : Extends c s.catalog [] := h.seen.pool
    have hused := hpool.used
    rw [List.length_nil, Nat.add_zero] at hused
    have hall := hpool.trans hext
    refine ⟨unlevelled texts, [], ⟨by rw [List.append_nil]; exact hall, h.seen.ref, fun _ => rfl,
      fun hne => absurd rfl hne, hb, h.seen.named⟩, ?_, fun hj => absurd hj (by omega), ?_, h.settingKey⟩
    · rw [refAt, if_neg (unlevelled_ne_nil hne), ← hused, UInt16.ofNat_toNat]
      exact href
    · rw [map_text_unlevelled]
      exact htexts
  · obtain ⟨v, -, rfl⟩ := Option.map_eq_some_iff.mp hof
    exact ⟨bits, options, h.seen.pure hk rfl rfl hb h.seen.named, h.ref, fun hj => h.fresh (by omega), h.texts,
      fun h => Bool.noConfusion h⟩
  · obtain ⟨a', options', hfield, hseen, -⟩ := commonKey_ok hcap h.seen hk hof
    rw [← show s'.field.toAnnotations = a' by rw [hfield]] at hseen
    exact ⟨bits, options', hseen, by rw [hfield]; exact h.ref, fun hj => h.fresh (by omega), h.texts,
      by rw [hfield]; exact h.settingKey⟩

/-- A layout field that was read, and its labels. -/
structure LayoutRead (c c' : BasicCatalog caps) (f : LayoutField) (bits options : List Label) : Prop where
  pool : Extends c c' (bits ++ options)
  bitsRef : f.bits = refAt c.labelPool.used.toNat bits
  optionsRef : f.options = refAt (c.labelPool.used.toNat + bits.length) options
  bounded : (WireItem.layout f.plain (bits.map Label.text) (options.map Label.text)).Bounded

/-- **A layout field that was read is within its bounds.** -/
theorem decodeLayoutField_ok (hcap : caps.labels < 2 ^ 16) {f : LayoutField} {d : Nat} (ht : CborTree.Fits d t)
    (hof : (decodeLayoutField c).ofTree t = some (f, c')) : ∃ bits options, LayoutRead c c' f bits options := by
  rw [decodeLayoutField, andThen_ofTree] at hof
  obtain ⟨s, hs, hdone⟩ := Option.bind_eq_some_iff.mp hof
  have hinit : ∃ bits options, LayoutSeen c 0 { field := {}, catalog := c } bits options :=
    ⟨[], [], ⟨.refl c, rfl, fun _ => rfl, fun h => absurd rfl h,
      ⟨Nat.zero_le _, Nat.zero_le _, Nat.zero_le _, Nat.zero_le _, Nat.zero_le _, fun _ => rfl, fun _ => rfl, fun _ => rfl,
        fun _ => rfl, fun _ => rfl, fun _ => rfl, fun _ => rfl, fun _ => rfl⟩, fun h => Bool.noConfusion h⟩, rfl,
      fun _ => rfl, bitTexts_nil, fun _ => rfl⟩
  obtain ⟨k, bits, options, h⟩ := record_ascending (P := fun k s => ∃ bits options, LayoutSeen c k s bits options)
    (fun k j s v s' d hk ⟨bits, options, h⟩ hv hof => layoutKey_ok hcap h hk hv hof) hinit ht hs
  split_ifs at hdone with hgot
  · obtain ⟨rfl, rfl⟩ := Prod.mk.inj (Option.some.inj hdone)
    have hb := h.seen.bounded
    refine ⟨bits, options, h.seen.pool, h.ref, h.seen.ref, { hb with name := hb.name }, h.seen.named hgot.1, h.settingKey,
      h.texts, fun hne => h.seen.texts fun hnil => hne (by rw [hnil]; rfl), rfl⟩
  · cases hdone

/-- A field of a schema that has been read up to key `k`. -/
structure SchemaSeen (c : BasicCatalog caps) (key : UInt8) (k : Nat) (s : Reading caps SchemaField)
    (options : List Label) : Prop where
  seen : Seen c k s s.field.toAnnotations [] options
  key : s.field.key = key
  access : s.field.hasAccess = false → s.field.access = .watch
  levels : s.field.hasOptionAccess = true → options ≠ []

theorem length_relevel {l : List Label} {levels : List AccessLevel} (h : levels.length = l.length) :
    (relevel l levels).length = l.length := by
  rw [relevel, List.length_zipWith, h, Nat.min_self]

theorem map_text_relevel {l : List Label} {levels : List AccessLevel} (h : levels.length = l.length) :
    (relevel l levels).map Label.text = l.map Label.text := by
  induction l generalizing levels with
  | nil => simp [relevel]
  | cons x l ih =>
    cases levels with
    | nil => cases h
    | cons a levels =>
      have hlen : levels.length = l.length := by simpa using h
      have hrest := ih hlen
      rw [relevel] at hrest
      rw [relevel, List.zipWith_cons_cons, List.map_cons, hrest, List.map_cons]

theorem map_access_relevel {l : List Label} {levels : List AccessLevel} (h : levels.length = l.length) :
    (relevel l levels).map Label.access = levels := by
  induction l generalizing levels with
  | nil =>
    obtain rfl := List.eq_nil_of_length_eq_zero h
    rfl
  | cons x l ih =>
    cases levels with
    | nil => cases h
    | cons a levels =>
      have hlen : levels.length = l.length := by simpa using h
      have hrest := ih hlen
      rw [relevel] at hrest
      rw [relevel, List.zipWith_cons_cons, List.map_cons, hrest]

theorem refAt_length {n : Nat} {l l' : List Label} (h : l.length = l'.length) : refAt n l = refAt n l' := by
  have hnil : l = [] ↔ l' = [] := by
    rw [← List.length_eq_zero_iff, ← List.length_eq_zero_iff, h]
  by_cases hl : l = []
  · rw [refAt, refAt, if_pos hl, if_pos (hnil.mp hl)]
  · rw [refAt, refAt, if_neg hl, if_neg (fun h' => hl (hnil.mpr h')), refTo, refTo, h]

/-- The reference to options that are there. -/
theorem refAt_options {n : Nat} {l : List Label} (hne : l ≠ []) (hcount : l.length ≤ 255) (hn : n < 2 ^ 16) :
    (refAt n l).offset.toNat = n ∧ (refAt n l).count.toNat = l.length := by
  rw [refAt, if_neg hne, refTo]
  refine ⟨?_, ?_⟩
  · rw [UInt16.toNat_ofNat']
    omega
  · rw [UInt8.toNat_ofNat']
    omega

/-- The options of a schema field get their levels. -/
theorem decodeOptionAccess_seen (hcap : caps.labels < 2 ^ 16) (h : Seen c k s a [] options) (hj : 17 ≤ j)
    (hof : (decodeOptionAccess a.options s.catalog).ofTree t = some c') (field : α) :
    ∃ options', options' ≠ [] ∧ Seen c (j + 1) { s with field, catalog := c' } a [] options' := by
  have hpool := h.pool
  rw [List.nil_append] at hpool
  have hroom := hpool.room
  have href := h.ref
  rw [List.length_nil, Nat.add_zero] at href
  by_cases hnil : options = []
  · rw [decodeOptionAccess_none (by rw [href, hnil]; rfl)] at hof
    cases hof
  · have htexts := h.texts hnil
    have hcount := htexts.count
    rw [List.length_map] at hcount
    obtain ⟨hoffset, hlength⟩ := refAt_options (n := c.labelPool.used.toNat) hnil hcount (by
      have := c.labelPool.used.toNat_lt
      omega)
    obtain ⟨levels, hlen, -, hrelabels⟩ := decodeOptionAccess_ok hcap
      hpool.live (by rw [href, hoffset, Pool.length_live]) (by rw [href, hlength]) hof
    refine ⟨relevel options levels, ?_, ⟨?_, hrelabels.live⟩, ?_, fun hle => absurd hle (by omega), fun _ => ?_, h.bounded,
      h.named⟩
    · rw [← List.length_pos_iff, length_relevel hlen]
      exact List.length_pos_of_ne_nil hnil
    · exact hrelabels.same.trans (by rw [hpool.same])
    · rw [List.length_nil, Nat.add_zero, href]
      exact refAt_length (length_relevel hlen).symm
    · rw [map_text_relevel hlen]
      exact htexts

theorem schemaKey_ok (hcap : caps.labels < 2 ^ 16) {key : UInt8} {s s' : Reading caps SchemaField}
    (h : SchemaSeen c key k s options) (hk : k ≤ j) (hof : (schemaKey j s).ofTree t = some s') :
    ∃ options', SchemaSeen c key (j + 1) s' options' := by
  have hb := h.seen.bounded
  unfold schemaKey at hof
  split_ifs at hof with h2 h16 h17
  · obtain ⟨v, -, rfl⟩ := Option.map_eq_some_iff.mp hof
    exact ⟨options, h.seen.pure hk rfl rfl hb h.seen.named, h.key, h.access, h.levels⟩
  · obtain ⟨v, -, rfl⟩ := Option.map_eq_some_iff.mp hof
    exact ⟨options, h.seen.pure hk rfl rfl hb h.seen.named, h.key, fun h => Bool.noConfusion h, h.levels⟩
  · subst h17
    obtain ⟨v, hv, rfl⟩ := Option.map_eq_some_iff.mp hof
    obtain ⟨options', hne, hseen⟩ := decodeOptionAccess_seen hcap h.seen (Nat.le_refl 17) hv
      { s.field with hasOptionAccess := true }
    exact ⟨options', hseen, h.key, h.access, fun _ => hne⟩
  · obtain ⟨a', options', hfield, hseen, hsame⟩ := commonKey_ok hcap h.seen hk hof
    rw [← show s'.field.toAnnotations = a' by rw [hfield]] at hseen
    refine ⟨options', hseen, by rw [hfield]; exact h.key, by rw [hfield]; exact h.access, fun hhas => ?_⟩
    rw [hfield] at hhas
    have hne := h.levels hhas
    rw [hsame hne]
    exact hne

/-- The levels of a field that has some. -/
def levelsOf (f : SchemaField) (options : List Label) : List AccessLevel :=
  if f.hasOptionAccess then options.map Label.access else []

structure SchemaRead (c c' : BasicCatalog caps) (f : SchemaField) (options : List Label) : Prop where
  pool : Extends c c' options
  optionsRef : f.options = refAt c.labelPool.used.toNat options
  bounded : (WireItem.schema f.plain (options.map Label.text) (levelsOf f options)).Bounded

/-- **A field of a schema that was read is within its bounds.** -/
theorem decodeSchemaField_ok (hcap : caps.labels < 2 ^ 16) {key : UInt8} {f : SchemaField} {d : Nat}
    (ht : CborTree.Fits d t) (hof : (decodeSchemaField c key).ofTree t = some (f, c')) :
    f.key = key ∧ ∃ options, SchemaRead c c' f options := by
  rw [decodeSchemaField, andThen_ofTree] at hof
  obtain ⟨s, hs, hdone⟩ := Option.bind_eq_some_iff.mp hof
  have hinit : ∃ options, SchemaSeen c key 0 { field := { key }, catalog := c } options :=
    ⟨[], ⟨.refl c, rfl, fun _ => rfl, fun h => absurd rfl h,
      ⟨Nat.zero_le _, Nat.zero_le _, Nat.zero_le _, Nat.zero_le _, Nat.zero_le _, fun _ => rfl, fun _ => rfl, fun _ => rfl,
        fun _ => rfl, fun _ => rfl, fun _ => rfl, fun _ => rfl, fun _ => rfl⟩, fun h => Bool.noConfusion h⟩, rfl,
      fun _ => rfl, fun h => Bool.noConfusion h⟩
  obtain ⟨k, options, h⟩ := record_ascending (P := fun k s => ∃ options, SchemaSeen c key k s options)
    (fun k j s v s' d hk ⟨options, h⟩ _ hof => schemaKey_ok hcap h hk hof) hinit ht hs
  split_ifs at hdone with hgot
  · obtain ⟨rfl, rfl⟩ := Prod.mk.inj (Option.some.inj hdone)
    have hb := h.seen.bounded
    have href := h.seen.ref
    rw [List.length_nil, Nat.add_zero] at href
    refine ⟨h.key, options, h.seen.pool, href, { hb with name := hb.name }, h.seen.named hgot.1, h.access, ?_,
      fun hne => h.seen.texts fun hnil => hne (by rw [hnil]; rfl), fun hne => ?_, rfl⟩
    · change s.field.hasOptionAccess = _
      unfold levelsOf
      cases hhas : s.field.hasOptionAccess with
      | false => rfl
      | true => simp [h.levels hhas]
    · unfold levelsOf at hne ⊢
      split_ifs at hne ⊢
      · rw [List.length_map, List.length_map]
      · exact absurd rfl hne
  · cases hdone

/-! ## Descriptors -/

/-- **A descriptor that was read is within its bounds.** -/
theorem decodeStoreDescriptor_ok {d : StoreDescriptor} {n : Nat} (ht : CborTree.Fits n t)
    (hof : decodeStoreDescriptor.ofTree t = some d) : (WireItem.store d).Bounded := by
  rw [decodeStoreDescriptor, andThen_ofTree] at hof
  obtain ⟨s, hs, hdone⟩ := Option.bind_eq_some_iff.mp hof
  obtain ⟨-, h⟩ := record_ascending
    (P := fun _ s => s.gotKind = true → s.store.kind ≠ [] ∧ s.store.kind.length ≤ 32) (fun k j s v s' d _ h _ hof => by
      unfold storeKey at hof
      split_ifs at hof
      · obtain ⟨v, -, rfl⟩ := Option.map_eq_some_iff.mp hof
        exact h
      · obtain ⟨v, hv, rfl⟩ := Option.map_eq_some_iff.mp hof
        exact fun _ => (label_ofTree.mp hv).2
      · obtain ⟨v, -, rfl⟩ := Option.map_eq_some_iff.mp hof
        exact h
      · obtain ⟨v, -, rfl⟩ := Option.map_eq_some_iff.mp hof
        exact h
      · obtain ⟨v, -, rfl⟩ := Option.map_eq_some_iff.mp hof
        exact h
      · obtain rfl := Option.some.inj hof
        exact h) (fun h => Bool.noConfusion h) ht hs
  split_ifs at hdone with hgot
  · obtain rfl := Option.some.inj hdone
    exact h hgot.2.1
  · cases hdone

end SlopSync.Builder
