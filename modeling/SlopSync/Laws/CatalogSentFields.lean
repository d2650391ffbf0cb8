import SlopSync.Laws.CatalogSound

/-! # Fields that were sent

What the decoder makes of the tree of a field.  The keys come in the order in which they were written.  Those that have
nothing to do with the pool go into the annotations (`foldlM_within`); the labels go into the pool, bits first.

* `decodeLayoutField_tree`, `decodeSchemaField_tree`, `decodeStoreDescriptor_tree` — a field comes back as the wire keeps
  it. -/

namespace SlopSync.Builder

open CborWriter CborReader CborDecoder

variable {caps : Capacities} {c : BasicCatalog caps} {α β : Type} {bits options : List Bytes}

/-! ## Annotations -/

section Given

variable {has : Bool} {a v : α}

theorem isSome_given : (given has a).isSome = has := by
  cases has <;> rfl

theorem mem_nonempty {s s' : Bytes} : s' ∈ nonempty s ↔ s' = s ∧ s ≠ [] := by
  unfold nonempty
  split_ifs with h
  · simp [h]
  · simp [h, eq_comm]

theorem getD_nonempty (s : Bytes) : (nonempty s).getD [] = s := by
  cases s <;> rfl

theorem getD_nonzero8 (v : UInt8) : (nonzero8 v).getD 0 = v := by
  unfold nonzero8
  split_ifs with h
  · exact h.symm
  · rfl

end Given

/-- An integer reads back as itself. -/
theorem readInt_ofInt (v : Int64) : readInt.ofTree (.ofInt v.toInt) = some v := by
  cases h : v.toInt with
  | ofNat n =>
    refine congrArg some ?_
    rw [← Int64.ofInt_eq_ofNat, ← Int64.ofInt_toInt v, h]
    rfl
  | negSucc n =>
    refine congrArg some ?_
    have hn : Int.negSucc n = -1 - (n : Int) := by omega
    rw [← Int64.ofInt_eq_ofNat, ← Int64.ofInt_toInt v, h, hn, Int64.ofInt_sub]
    rfl

/-- A default that was given reads back as itself. -/
theorem decodeSettingDefault_tree {d : SettingDefault} (hd : d ∈ d.given) :
    decodeSettingDefault.ofTree d.tree = some d := by
  cases d with
  | none => cases hd
  | int v =>
    have hlt := v.toInt_lt
    have hle := v.le_toInt
    have hread := readInt_ofInt v.toInt64
    rw [Int32.toInt_toInt64] at hread
    have hof : (readInt.andThen fun v =>
        if 2147483647 < v.toInt ∨ v.toInt < -2147483648 then .error .malformed else .ok (.int v.toInt32)).ofTree
        (CborTree.ofInt v.toInt) = some (SettingDefault.int v) := by
      rw [andThen_ofTree, hread, Option.bind_some, Int32.toInt_toInt64, if_neg (by omega), Int32.toInt32_toInt64]
      rfl
    rw [decodeSettingDefault, byType_ofTree, SettingDefault.tree]
    cases h : v.toInt with
    | ofNat n =>
      rw [h] at hof
      exact hof
    | negSucc n =>
      rw [h] at hof
      exact hof
  | float bits => rfl
  | bool v => rfl
  | tstr s => rfl

def annotationStep (a : Annotations) (p : Nat × CborTree) : Option Annotations := (annotationKey p.1 a).ofTree p.2

/-- Keys 11 to 15. -/
def Annotations.textPairs (a : Annotations) : List (Nat × CborTree) :=
  optPair 11 (nonempty a.group) .text ++ optPair 12 (nonempty a.desc) .text ++ optPair 13 (nonempty a.role) .text ++
    optPair 14 (given a.hasStep a.step) .f32 ++ optPair 15 (nonzero8 a.flags) .u8

/-- The hints in the order they stand on the wire: default, options, texts. -/
theorem hintPairs_eq (a : Annotations) (options : List Bytes) : a.hintPairs options =
    optPair 9 a.dflt.given SettingDefault.tree ++ (optPair 10 (listOpt options) (.arrayOf .text) ++ a.textPairs) := by
  simp only [Annotations.hintPairs, Annotations.textPairs, List.append_assoc]

namespace Annotations

variable (a : Annotations)

/-- What is known of a field behind key 6. -/
def ranged : Annotations where
  name := a.name
  unit := a.unit
  hasMin := a.hasMin
  hasMax := a.hasMax
  min := a.onWire.min
  max := a.onWire.max

def defaulted : Annotations := { a.ranged with dflt := a.dflt }

/-- Behind key 15. -/
def hinted (options : LabelRef) : Annotations :=
  { a.defaulted with
    options, group := a.group, desc := a.desc, role := a.role, hasStep := a.hasStep, step := a.onWire.step, flags := a.flags }

/-- The range pairs set the range. -/
theorem foldlM_range : a.rangePairs.foldlM annotationStep { name := a.name, unit := a.unit } = some a.ranged := by
  rw [rangePairs, foldlM_optPair (fun b o => { b with min := o.getD 0, hasMin := o.isSome }) id rfl (by
      simp [annotationStep, annotationKey]),
    foldlM_optPair_last (fun b o => { b with max := o.getD 0, hasMax := o.isSome }) id rfl (by
      simp [annotationStep, annotationKey])]
  simp only [Option.map_id, id, isSome_given]
  rfl

/-- The default pair sets the default. -/
theorem foldlM_default :
    (optPair 9 a.dflt.given SettingDefault.tree).foldlM annotationStep a.ranged = some a.defaulted := by
  rw [foldlM_optPair_last (fun b o => { b with dflt := o.getD .none }) id rfl (by
      intro d hd
      obtain ⟨rfl, hd⟩ := mem_given hd
      simp [annotationStep, annotationKey, decodeSettingDefault_tree hd])]
  rw [Option.map_id]
  cases h : a.dflt <;> simp [SettingDefault.given, defaulted, h]

/-- The text pairs set the texts, when they are bounded. -/
theorem foldlM_texts (h : a.onWire.Bounded) (options : LabelRef) :
    a.textPairs.foldlM annotationStep { a.defaulted with options } = some (a.hinted options) := by
  simp only [textPairs, List.append_assoc]
  rw [foldlM_optPair (fun b o => { b with group := o.getD [] }) id rfl (by
      intro s hs
      obtain ⟨rfl, hne⟩ := mem_nonempty.mp hs
      simp [annotationStep, annotationKey, label_ofTree.mpr ⟨rfl, hne, h.group⟩]),
    foldlM_optPair (fun b o => { b with desc := o.getD [] }) id rfl (by
      intro s hs
      obtain ⟨rfl, hne⟩ := mem_nonempty.mp hs
      simp [annotationStep, annotationKey, label_ofTree.mpr ⟨rfl, hne, h.desc⟩]),
    foldlM_optPair (fun b o => { b with role := o.getD [] }) id rfl (by
      intro s hs
      obtain ⟨rfl, hne⟩ := mem_nonempty.mp hs
      simp [annotationStep, annotationKey, label_ofTree.mpr ⟨rfl, hne, h.role⟩]),
    foldlM_optPair (fun b o => { b with step := o.getD 0, hasStep := o.isSome }) id rfl (by
      simp [annotationStep, annotationKey]),
    foldlM_optPair_last (fun b o => { b with flags := o.getD 0 }) id rfl (by
      simp [annotationStep, annotationKey])]
  simp only [Option.map_id, id, isSome_given, getD_nonempty, getD_nonzero8]
  rfl

/-- The rendering pairs set the rendering. -/
theorem foldlM_rendering (options : LabelRef) :
    (renderingPairs a.toRendering).foldlM annotationStep (a.hinted options) = some { a.onWire with options } := by
  simp only [renderingPairs, List.append_assoc]
  rw [foldlM_optPair (fun b o => { b with rank := o.getD 0, hasRank := o.isSome }) id rfl (by
      simp [annotationStep, annotationKey, renderingKey]),
    foldlM_optPair (fun b o => { b with aspect := o.getD 0, hasAspect := o.isSome }) id rfl (by
      simp [annotationStep, annotationKey, renderingKey]),
    foldlM_optPair (fun b o => { b with scope := o.getD 0, hasScope := o.isSome }) id rfl (by
      simp [annotationStep, annotationKey, renderingKey]),
    foldlM_optPair (fun b o => { b with provenance := o.getD 0, hasProvenance := o.isSome }) id rfl (by
      simp [annotationStep, annotationKey, renderingKey]),
    foldlM_optPair_last (fun b o => { b with unitId := o.getD 0, hasUnitId := o.isSome }) id rfl (by
      simp [annotationStep, annotationKey, renderingKey])]
  simp only [Option.map_id, id, isSome_given]
  rfl

end Annotations

/-- Keys that have nothing to do with the pool, and mean the same in both kinds of field. -/
def apart (k : Nat) : Prop := k ∉ [1, 2, 3, 4, 7, 8, 10, 16, 17]

/-- A loop over a part of the state is a loop over the state. -/
theorem foldlM_within {σ τ ι : Type} {f : σ → τ} {step : σ → ι → Option σ} {step' : τ → ι → Option τ} {ps : List ι} {s s' : σ}
    (hstep : ∀ s, ∀ p ∈ ps, step' (f s) p = (step s p).map f) (h : ps.foldlM step s = some s') :
    ps.foldlM step' (f s) = some (f s') := by
  induction ps generalizing s with
  | nil =>
    obtain rfl := Option.some.inj h
    rfl
  | cons p ps ih =>
    rw [List.foldlM_cons] at h
    obtain ⟨s₁, hs₁, h⟩ := Option.bind_eq_some_iff.mp h
    rw [List.foldlM_cons, hstep s p (List.mem_cons_self ..), hs₁]
    exact ih (fun s q hq => hstep s q (List.mem_cons_of_mem p hq)) h

/-- A key that belongs to the annotations changes the annotations only. -/
theorem commonKey_apart {k : Nat} (hk : apart k) (a : Annotations) (put : Annotations → α) (s : Reading caps α) (t : CborTree) :
    (commonKey k a put s).ofTree t = ((annotationKey k a).ofTree t).map fun a => { s with field := put a } := by
  simp only [apart, List.mem_cons, List.not_mem_nil, or_false, not_or] at hk
  rw [commonKey, if_neg hk.1, if_neg hk.2.2.1, if_neg hk.2.2.2.2.2.2.1, map_ofTree]

/-- The annotations of a layout field are read as they are. -/
theorem foldlM_layoutKey {ps : List (Nat × CborTree)} {a a' : Annotations} (h : ps.foldlM annotationStep a = some a')
    (hps : ∀ p ∈ ps, apart p.1) (s : Reading caps LayoutField) :
    ps.foldlM (fun s p => (layoutKey p.1 s).ofTree p.2) { s with field := { s.field with toAnnotations := a } } =
      some { s with field := { s.field with toAnnotations := a' } } := by
  refine foldlM_within (f := fun a => { s with field := { s.field with toAnnotations := a } }) (fun a p hp => ?_) h
  have hk := hps p hp
  have hk' := hk
  simp only [apart, List.mem_cons, List.not_mem_nil, or_false, not_or] at hk'
  rw [layoutKey, if_neg hk'.2.1, if_neg hk'.2.2.2.1, if_neg hk'.2.2.2.2.1, if_neg hk'.2.2.2.2.2.1, commonKey_apart hk]
  rfl

/-- So a loop over such keys runs inside the reading of a schema field. -/
theorem foldlM_schemaKey {ps : List (Nat × CborTree)} {a a' : Annotations} (h : ps.foldlM annotationStep a = some a')
    (hps : ∀ p ∈ ps, apart p.1) (s : Reading caps SchemaField) :
    ps.foldlM (fun s p => (schemaKey p.1 s).ofTree p.2) { s with field := { s.field with toAnnotations := a } } =
      some { s with field := { s.field with toAnnotations := a' } } := by
  refine foldlM_within (f := fun a => { s with field := { s.field with toAnnotations := a } }) (fun a p hp => ?_) h
  have hk := hps p hp
  have hk' := hk
  simp only [apart, List.mem_cons, List.not_mem_nil, or_false, not_or] at hk'
  rw [schemaKey, if_neg hk'.2.1, if_neg hk'.2.2.2.2.2.2.2.1, if_neg hk'.2.2.2.2.2.2.2.2, commonKey_apart hk]
  rfl

theorem apart_range (a : Annotations) : ∀ p ∈ a.rangePairs, apart p.1 := by
  simp only [Annotations.rangePairs, List.forall_mem_append, forall_mem_optPair]
  simp [apart]

theorem apart_default (a : Annotations) : ∀ p ∈ optPair 9 a.dflt.given SettingDefault.tree, apart p.1 := by
  rw [forall_mem_optPair]
  simp [apart]

theorem apart_texts (a : Annotations) : ∀ p ∈ a.textPairs, apart p.1 := by
  simp only [Annotations.textPairs, List.forall_mem_append, forall_mem_optPair]
  simp [apart]

theorem apart_rendering (r : Rendering) : ∀ p ∈ renderingPairs r, apart p.1 := by
  simp only [renderingPairs, List.forall_mem_append, forall_mem_optPair]
  simp [apart]

/-! ## Labels -/

section Labels

variable {c' : BasicCatalog caps}

theorem length_unlevelled (texts : List Bytes) : (unlevelled texts).length = texts.length := by
  rw [unlevelled, List.length_map]

theorem refAt_nil (n : Nat) : refAt n (unlevelled []) = {} := rfl

/-- Key 10. -/
theorem foldlM_optionsKey (hcap : caps.labels < 2 ^ 16) {s : Reading caps α} {a : Annotations} (put : Annotations → α)
    {step : Reading caps α → Nat × CborTree → Option (Reading caps α)}
    (hstep : ∀ t, step s (10, t) = (commonKey 10 a put s).ofTree t) (hput : s.field = put a) (hnone : a.options = {})
    (h : options ≠ [] → OptionTexts options)
    (hroom : s.catalog.labelPool.used.toNat + options.length ≤ caps.labels) :
    ∃ c', (optPair 10 (listOpt options) (.arrayOf .text)).foldlM step s =
        some { s with
          field := put { a with options := refAt s.catalog.labelPool.used.toNat (unlevelled options) }, catalog := c' } ∧
      Extends s.catalog c' (unlevelled options) := by
  by_cases hnil : options = []
  · refine ⟨s.catalog, ?_, by rw [hnil]; exact .refl _⟩
    rw [hnil, refAt_nil, ← hnone]
    exact congrArg some (by rw [← hput])
  · obtain ⟨c', hof, hext⟩ := decodeOptions_some hcap (h hnil) hroom
    refine ⟨c', ?_, hext⟩
    rw [listOpt, if_neg (by simpa using hnil), optPair_some, List.foldlM_cons, hstep, commonKey, if_neg (by decide),
      if_neg (by decide), if_pos rfl, map_ofTree, hof, refAt_used (unlevelled_ne_nil hnil)]
    rfl

end Labels

/-! ## Fields -/

/-- A unit of at most eight bytes reads back. -/
theorem unitText_text {s : Bytes} (h : s.length ≤ 8) : unitText.ofTree (.text s) = some s := by
  rw [unitText, andThen_ofTree, tstr_ofTree, Option.bind_some, if_neg (by omega)]
  rfl

/-- The one list of keys after the other. -/
theorem foldlM_then {σ ι : Type} {step : σ → ι → Option σ} {l l' : List ι} {s s' s'' : σ} (h : l.foldlM step s = some s')
    (h' : l'.foldlM step s' = some s'') : (l ++ l').foldlM step s = some s'' := by
  rw [foldlM_resume s' h, h']

/-- A layout field while it comes back. -/
def LayoutField.reading (f : LayoutField) (c : BasicCatalog caps) (a : Annotations) (bits : LabelRef)
    (key : Option UInt8) : Reading caps LayoutField where
  field := { toAnnotations := a, type := f.type, scale := f.scale, bits, settingKey := key.getD 0, hasSettingKey := key.isSome }
  catalog := c
  gotName := true
  gotType := true
  gotUnit := true
  gotScale := true

/-- The four keys every layout field has. -/
theorem foldlM_layoutFront {f : LayoutField} (ha : f.onWire.Bounded) (hname : f.name ≠ []) :
    [(1, .text f.name), (2, enumTree packedTypes f.type), (3, .text f.unit), (4, .f32 f.scale)].foldlM
      (fun s p => (layoutKey p.1 s).ofTree p.2) { field := {}, catalog := c } =
      some (f.reading c { name := f.name, unit := f.unit } {} none) := by
  have hmem : f.type ∈ packedTypes := by cases f.type <;> decide
  have htext : (label 24).ofTree (.text f.name) = some f.name := label_ofTree.mpr ⟨rfl, hname, ha.name⟩
  have htype : (enum packedTypes).ofTree (enumTree packedTypes f.type) = some f.type := enum_ofTree hmem (by decide)
  have hunit : unitText.ofTree (.text f.unit) = some f.unit := unitText_text ha.unit
  simp only [List.foldlM_cons, List.foldlM_nil, layoutKey, commonKey]
  simp [htext, htype, hunit, LayoutField.reading]

/-- The annotations' keys of a layout field. -/
theorem LayoutField.foldlM_reading (f : LayoutField) {ps : List (Nat × CborTree)} {a a' : Annotations} {ref : LabelRef}
    {key : Option UInt8} (h : ps.foldlM annotationStep a = some a') (hps : ∀ p ∈ ps, apart p.1) :
    ps.foldlM (fun s p => (layoutKey p.1 s).ofTree p.2) (f.reading c a ref key) = some (f.reading c a' ref key) :=
  foldlM_layoutKey h hps (f.reading c a ref key)

/-- The setting key, where there is one. -/
theorem LayoutField.foldlM_settingKey (f : LayoutField) {a : Annotations} {ref : LabelRef} :
    (optPair 8 (given f.hasSettingKey f.settingKey) .u8).foldlM (fun s p => (layoutKey p.1 s).ofTree p.2)
      (f.reading c a ref none) = some (f.reading c a ref (given f.hasSettingKey f.settingKey)) := by
  rw [foldlM_optPair_last
    (fun s o => { s with field := { s.field with settingKey := o.getD 0, hasSettingKey := o.isSome } }) id rfl (by
      simp [layoutKey]), Option.map_id]
  rfl

/-- The bit labels, which go into the pool. -/
theorem LayoutField.foldlM_bits (f : LayoutField) {a : Annotations} (hcap : caps.labels < 2 ^ 16)
    (h : BitTexts (BasicCatalog.trimmed bits))
    (hroom : c.labelPool.used.toNat + (BasicCatalog.trimmed bits).length ≤ caps.labels) :
    ∃ c', (optPair 7 (listOpt (namedBits bits)) fun l => .map (l.map bitPair)).foldlM
          (fun s p => (layoutKey p.1 s).ofTree p.2) (f.reading c a {} none) =
        some (f.reading c' a (refAt c.labelPool.used.toNat (unlevelled (BasicCatalog.trimmed bits))) none) ∧
      Extends c c' (unlevelled (BasicCatalog.trimmed bits)) := by
  by_cases hnamed : namedBits bits = []
  · have htrimmed : BasicCatalog.trimmed bits = [] := by
      rw [← bitTexts_named bits 0]
      exact congrArg (bitTexts 0) hnamed
    refine ⟨c, ?_, by rw [htrimmed]; exact .refl _⟩
    rw [hnamed, htrimmed, refAt_nil]
    rfl
  · have htrimmed : BasicCatalog.trimmed bits ≠ [] := by
      intro hnil
      have hlen := length_named_le 0 (namedBits bits)
      have htexts : bitTexts 0 (namedBits bits) = BasicCatalog.trimmed bits := bitTexts_named bits 0
      rw [htexts, hnil] at hlen
      exact hnamed (List.eq_nil_of_length_eq_zero (Nat.le_zero.mp hlen))
    obtain ⟨c', hof, hext⟩ := decodeBits_some hcap hnamed h hroom
    have hkey : ∀ t, (layoutKey 7 (f.reading c a {} none)).ofTree t =
        ((decodeBits c).ofTree t).map fun v => f.reading v.2 a v.1 none := fun t => rfl
    refine ⟨c', ?_, hext⟩
    rw [listOpt, if_neg (by simpa using hnamed), optPair_some, List.foldlM_cons, hkey, hof,
      refAt_used (unlevelled_ne_nil htrimmed)]
    rfl

/-- The option labels, which go into the pool after them. -/
theorem LayoutField.foldlM_options (f : LayoutField) (ref : LabelRef) (key : Option UInt8) (hcap : caps.labels < 2 ^ 16)
    (h : options ≠ [] → OptionTexts options) (hroom : c.labelPool.used.toNat + options.length ≤ caps.labels) :
    ∃ c', (optPair 10 (listOpt options) (.arrayOf .text)).foldlM (fun s p => (layoutKey p.1 s).ofTree p.2)
          (f.reading c f.defaulted ref key) =
        some (f.reading c' { f.defaulted with options := refAt c.labelPool.used.toNat (unlevelled options) } ref key) ∧
      Extends c c' (unlevelled options) :=
  foldlM_optionsKey hcap (fun a => (f.reading c a ref key).field) (fun _ => rfl) rfl rfl h hroom

/-- What has been read is the field as the wire keeps it. -/
theorem LayoutField.plain_reading (f : LayoutField)
    (hplain : LayoutField.plain { f with
      toAnnotations := f.onWire, settingKey := (given f.hasSettingKey f.settingKey).getD 0 } =
      { f with toAnnotations := f.onWire, settingKey := (given f.hasSettingKey f.settingKey).getD 0 })
    (c : BasicCatalog caps) (options bits : LabelRef) :
    (f.reading c { f.onWire with options } bits (given f.hasSettingKey f.settingKey)).field.plain =
      { f with toAnnotations := f.onWire, settingKey := (given f.hasSettingKey f.settingKey).getD 0 } := by
  rw [← hplain, LayoutField.reading, isSome_given]
  rfl

/-- **A layout field that was sent comes back**, and its labels are in the pool. -/
theorem decodeLayoutField_tree (hcap : caps.labels < 2 ^ 16) {f : LayoutField}
    (h : (WireItem.layout f bits options).onWire.Bounded)
    (hroom : c.labelPool.used.toNat + ((BasicCatalog.trimmed bits).length + options.length) ≤ caps.labels) :
    ∃ f' c' bits' options', (decodeLayoutField c).ofTree (WireItem.layout f bits options).tree = some (f', c') ∧
      LayoutRead c c' f' bits' options' ∧
      WireItem.layout f'.plain (bits'.map Label.text) (options'.map Label.text) = (WireItem.layout f bits options).onWire := by
  obtain ⟨ha, hname, -, hbits, hoptions, hplain⟩ := id h
  obtain ⟨c₁, hbitsKey, hext₁⟩ := f.foldlM_bits (a := f.ranged) hcap hbits (c := c) (by omega)
  have hused := hext₁.used
  rw [length_unlevelled] at hused
  obtain ⟨c₂, hoptionsKey, hext₂⟩ := f.foldlM_options
    (refAt c.labelPool.used.toNat (unlevelled (BasicCatalog.trimmed bits)))
    (given f.hasSettingKey f.settingKey) hcap hoptions (c := c₁) (by omega)
  have hall := foldlM_then (foldlM_layoutFront (c := c) ha hname) <|
    foldlM_then (f.foldlM_reading f.foldlM_range (apart_range _)) <|
    foldlM_then hbitsKey <| foldlM_then f.foldlM_settingKey <|
    foldlM_then (f.foldlM_reading f.foldlM_default (apart_default _)) <| foldlM_then hoptionsKey <|
    foldlM_then (f.foldlM_reading (f.foldlM_texts ha _) (apart_texts _)) <|
    f.foldlM_reading (f.foldlM_rendering _) (apart_rendering _)
  have hsame := f.plain_reading hplain c₂ (refAt c₁.labelPool.used.toNat (unlevelled options))
    (refAt c.labelPool.used.toNat (unlevelled (BasicCatalog.trimmed bits)))
  have hitem : WireItem.layout (f.reading c₂ { f.onWire with options := refAt c₁.labelPool.used.toNat (unlevelled options) }
      (refAt c.labelPool.used.toNat (unlevelled (BasicCatalog.trimmed bits)))
      (given f.hasSettingKey f.settingKey)).field.plain
      ((unlevelled (BasicCatalog.trimmed bits)).map Label.text) ((unlevelled options).map Label.text) =
      (WireItem.layout f bits options).onWire := by
    rw [map_text_unlevelled, map_text_unlevelled, hsame]
    rfl
  refine ⟨_, c₂, _, _, ?_, ⟨hext₁.trans hext₂, rfl, ?_, by rw [hitem]; exact h⟩, hitem⟩
  · rw [decodeLayoutField, andThen_ofTree, WireItem.tree, record_ofTree, LayoutField.pairs, hintPairs_eq]
    simp only [List.append_assoc]
    rw [hall]
    rfl
  · rw [length_unlevelled, ← hused]
    rfl

/-! ### Schemas -/

/-- A field of a schema while it comes back. -/
def SchemaField.reading (f : SchemaField) (c : BasicCatalog caps) (a : Annotations) (access : Option AccessLevel)
    (levels : Bool) : Reading caps SchemaField where
  field := { toAnnotations := a, key := f.key, type := f.type, access := access.getD .watch, hasAccess := access.isSome
             hasOptionAccess := levels }
  catalog := c
  gotName := true
  gotType := true
  gotUnit := true

/-- The labels of options with levels, or without. -/
def levelled (options : List Bytes) (levels : List AccessLevel) : List Label :=
  if levels = [] then unlevelled options else relevel (unlevelled options) levels

variable {levels : List AccessLevel}

theorem length_levelled (h : levels ≠ [] → levels.length = options.length) :
    (levelled options levels).length = options.length := by
  unfold levelled
  split_ifs with hnil
  · exact length_unlevelled options
  · rw [length_relevel (by rw [length_unlevelled]; exact h hnil), length_unlevelled]

theorem map_text_levelled (h : levels ≠ [] → levels.length = options.length) :
    (levelled options levels).map Label.text = options := by
  unfold levelled
  split_ifs with hnil
  · exact map_text_unlevelled options
  · rw [map_text_relevel (by rw [length_unlevelled]; exact h hnil), map_text_unlevelled]

/-- The annotations' keys of a schema field. -/
theorem SchemaField.foldlM_reading (f : SchemaField) {ps : List (Nat × CborTree)} {a a' : Annotations}
    {access : Option AccessLevel} {has : Bool} (h : ps.foldlM annotationStep a = some a') (hps : ∀ p ∈ ps, apart p.1) :
    ps.foldlM (fun s p => (schemaKey p.1 s).ofTree p.2) (f.reading c a access has) = some (f.reading c a' access has) :=
  foldlM_schemaKey h hps (f.reading c a access has)

/-- The three keys every schema field has. -/
theorem foldlM_schemaFront {f : SchemaField} (ha : f.onWire.Bounded) (hname : f.name ≠ []) :
    [(1, .text f.name), (2, enumTree cborTypes f.type), (3, .text f.unit)].foldlM
      (fun s p => (schemaKey p.1 s).ofTree p.2) { field := { key := f.key }, catalog := c } =
      some (f.reading c { name := f.name, unit := f.unit } none false) := by
  have hmem : f.type ∈ cborTypes := by cases f.type <;> decide
  have htext : (label 24).ofTree (.text f.name) = some f.name := label_ofTree.mpr ⟨rfl, hname, ha.name⟩
  have htype : (enum cborTypes).ofTree (enumTree cborTypes f.type) = some f.type := enum_ofTree hmem (by decide)
  have hunit : unitText.ofTree (.text f.unit) = some f.unit := unitText_text ha.unit
  simp only [List.foldlM_cons, List.foldlM_nil, schemaKey, commonKey]
  simp [htext, htype, hunit, SchemaField.reading]

/-- Its option labels. -/
theorem SchemaField.foldlM_options (f : SchemaField) (hcap : caps.labels < 2 ^ 16)
    (h : options ≠ [] → OptionTexts options) (hroom : c.labelPool.used.toNat + options.length ≤ caps.labels) :
    ∃ c', (optPair 10 (listOpt options) (.arrayOf .text)).foldlM (fun s p => (schemaKey p.1 s).ofTree p.2)
          (f.reading c f.defaulted none false) =
        some (f.reading c' { f.defaulted with options := refAt c.labelPool.used.toNat (unlevelled options) } none false) ∧
      Extends c c' (unlevelled options) :=
  foldlM_optionsKey hcap (fun a => (f.reading c a none false).field) (fun _ => rfl) rfl rfl h hroom

/-- The access level of a schema field, where there is one. -/
theorem SchemaField.foldlM_access (f : SchemaField) {a : Annotations} :
    (optPair 16 (given f.hasAccess f.access) (enumTree accessLevels)).foldlM (fun s p => (schemaKey p.1 s).ofTree p.2)
      (f.reading c a none false) = some (f.reading c a (given f.hasAccess f.access) false) := by
  rw [foldlM_optPair_last
    (fun s o => { s with field := { s.field with access := o.getD .watch, hasAccess := o.isSome } }) id rfl (by
      simp [schemaKey, level_ofTree]), Option.map_id]
  rfl

/-- Key 17, for the options that have come last. -/
theorem SchemaField.foldlM_levels (f : SchemaField) {c' : BasicCatalog caps} {a : Annotations}
    (access : Option AccessLevel) (hcap : caps.labels < 2 ^ 16) (hext : Extends c c' (unlevelled options))
    (href : a.options = refAt c.labelPool.used.toNat (unlevelled options)) (hcount : options.length ≤ 255)
    (hlen : levels ≠ [] → levels.length = options.length) :
    ∃ c'', (optPair 17 (listOpt levels) (.arrayOf (enumTree accessLevels))).foldlM
          (fun s p => (schemaKey p.1 s).ofTree p.2) (f.reading c' a access false) =
        some (f.reading c'' a access (!levels.isEmpty)) ∧
      Extends c c'' (levelled options levels) := by
  unfold levelled
  by_cases hnil : levels = []
  · rw [if_pos hnil, hnil]
    exact ⟨c', rfl, hext⟩
  · rw [if_neg hnil]
    have hlen := hlen hnil
    have hoptions : unlevelled options ≠ [] := by
      rw [← List.length_pos_iff, length_unlevelled, ← hlen]
      exact List.length_pos_of_ne_nil hnil
    have hlt := c.labelPool.used.toNat_lt
    obtain ⟨hoffset, hrefCount⟩ := refAt_options (n := c.labelPool.used.toNat) hoptions
      (by rwa [length_unlevelled]) hlt
    obtain ⟨c'', hof, hrelabels⟩ : ∃ c'', (decodeOptionAccess a.options c').ofTree
        (.arrayOf (enumTree accessLevels) levels) = some c'' ∧
        Relabels c' c'' (c.labelPool.live ++ relevel (unlevelled options) levels) := decodeOptionAccess_some hcap hext.live
      (by rw [href, hoffset, Pool.length_live]) (by rw [href, hrefCount]) (by rw [hlen, length_unlevelled]) hnil
    have hkey : ∀ t, (schemaKey 17 (f.reading c' a access false)).ofTree t =
        ((decodeOptionAccess a.options c').ofTree t).map fun v => f.reading v a access true := fun t => rfl
    refine ⟨c'', ?_, hrelabels.same.trans (by rw [hext.same]), hrelabels.live⟩
    rw [listOpt, if_neg (by simpa using hnil), optPair_some, List.foldlM_cons, hkey, hof]
    cases levels with
    | nil => exact absurd rfl hnil
    | cons a levels => rfl

theorem SchemaField.plain_reading (f : SchemaField)
    (hplain : SchemaField.plain { f with
      toAnnotations := f.onWire, access := (given f.hasAccess f.access).getD .watch
      hasOptionAccess := !levels.isEmpty } =
      { f with
        toAnnotations := f.onWire, access := (given f.hasAccess f.access).getD .watch, hasOptionAccess := !levels.isEmpty })
    (c : BasicCatalog caps) (options : LabelRef) :
    (f.reading c { f.onWire with options } (given f.hasAccess f.access) (!levels.isEmpty)).field.plain =
      { f with
        toAnnotations := f.onWire, access := (given f.hasAccess f.access).getD .watch
        hasOptionAccess := !levels.isEmpty } := by
  rw [← hplain, SchemaField.reading, isSome_given]
  rfl

theorem levelsOf_levelled {f : SchemaField} (hhas : f.hasOptionAccess = !levels.isEmpty)
    (hlen : levels ≠ [] → levels.length = options.length) : levelsOf f (levelled options levels) = levels := by
  unfold levelsOf levelled
  by_cases hnil : levels = []
  · rw [if_neg (by rw [hhas, hnil]; decide), hnil]
  · rw [if_pos (by rw [hhas]; simpa using hnil), if_neg hnil,
      map_access_relevel (by rw [length_unlevelled]; exact hlen hnil)]

/-- **A field of a schema that was sent comes back**, and its labels are in the pool. -/
theorem decodeSchemaField_tree (hcap : caps.labels < 2 ^ 16) {f : SchemaField}
    (h : (WireItem.schema f options levels).onWire.Bounded)
    (hroom : c.labelPool.used.toNat + options.length ≤ caps.labels) :
    ∃ f' c' options', (decodeSchemaField c f.key).ofTree (WireItem.schema f options levels).tree = some (f', c') ∧
      SchemaRead c c' f' options' ∧
      WireItem.schema f'.plain (options'.map Label.text) (levelsOf f' options') = (WireItem.schema f options levels).onWire := by
  obtain ⟨ha, hname, -, -, hoptions, hlevels, hplain⟩ := id h
  have hcount : options.length ≤ 255 := by
    by_cases hnil : options = []
    · rw [hnil]
      exact Nat.zero_le 255
    · exact (hoptions hnil).count
  obtain ⟨c₁, hoptionsKey, hext₁⟩ := f.foldlM_options hcap hoptions hroom
  obtain ⟨c₂, hlevelsKey, hext₂⟩ := f.foldlM_levels (given f.hasAccess f.access)
    (a := f.hinted (refAt c.labelPool.used.toNat (unlevelled options))) hcap hext₁ rfl hcount hlevels
  have hall := foldlM_then (foldlM_schemaFront (c := c) ha hname) <|
    foldlM_then (f.foldlM_reading f.foldlM_range (apart_range _)) <|
    foldlM_then (f.foldlM_reading f.foldlM_default (apart_default _)) <| foldlM_then hoptionsKey <|
    foldlM_then (f.foldlM_reading (f.foldlM_texts ha _) (apart_texts _)) <| foldlM_then f.foldlM_access <|
    foldlM_then hlevelsKey <| f.foldlM_reading (f.foldlM_rendering _) (apart_rendering _)
  have hsame := f.plain_reading hplain c₂ (refAt c.labelPool.used.toNat (unlevelled options))
  have hitem : WireItem.schema (f.reading c₂
      { f.onWire with options := refAt c.labelPool.used.toNat (unlevelled options) } (given f.hasAccess f.access)
      (!levels.isEmpty)).field.plain ((levelled options levels).map Label.text)
      (levelsOf (f.reading c₂
        { f.onWire with options := refAt c.labelPool.used.toNat (unlevelled options) } (given f.hasAccess f.access)
        (!levels.isEmpty)).field (levelled options levels)) = (WireItem.schema f options levels).onWire := by
    rw [map_text_levelled hlevels, levelsOf_levelled rfl hlevels, hsame]
    rfl
  refine ⟨_, c₂, levelled options levels, ?_, ⟨hext₂, ?_, by rw [hitem]; exact h⟩, hitem⟩
  · rw [decodeSchemaField, andThen_ofTree, WireItem.tree, record_ofTree, SchemaField.pairs, hintPairs_eq]
    simp only [List.append_assoc]
    rw [hall]
    rfl
  · exact refAt_length (by rw [length_levelled hlevels, length_unlevelled])

/-! ### Stores -/

/-- **A descriptor that was sent comes back.** -/
theorem decodeStoreDescriptor_tree {d : StoreDescriptor} (h : (WireItem.store d).Bounded) :
    decodeStoreDescriptor.ofTree (storeTree d) = some d := by
  have hkind : (label 32).ofTree (.text d.kind) = some d.kind := label_ofTree.mpr ⟨rfl, h⟩
  rw [decodeStoreDescriptor, andThen_ofTree, storeTree, record_ofTree]
  simp only [List.foldlM_cons, List.foldlM_nil, storeKey]
  simp [hkind]
  rfl

end SlopSync.Builder
