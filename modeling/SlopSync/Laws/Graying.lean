import Mathlib.Data.List.MinMax
import SlopSync.Js.Catalog

/-! # What is grayed and what is refused

The hub takes the greatest of all levels that apply to a value.  The client takes the most specific one: the level of the
option, else that of the field, else that of the channel. -/

namespace SlopSync

variable {e : CatalogEntry} {sorted : List SchemaField} {f l : SchemaField} {key : UInt8} {value : UInt64} {a need role : AccessLevel}

/-! ## The hub -/

theorem AccessLevel.raise_le {r : AccessLevel} : need.raise a ≤ r ↔ need ≤ r ∧ a ≤ r := by
  unfold AccessLevel.raise
  simp only [AccessLevel.le_def, AccessLevel.lt_def]
  split <;> omega

theorem foldl_raise_le {r : AccessLevel} : ∀ {levels : List AccessLevel} {need : AccessLevel},
    levels.foldl AccessLevel.raise need ≤ r ↔ need ≤ r ∧ ∀ a ∈ levels, a ≤ r
  | [], need => by simp
  | a :: levels, need => by
    rw [List.foldl_cons, foldl_raise_le, AccessLevel.raise_le, List.forall_mem_cons, and_assoc]

/-- The level an option has of its own. -/
def SchemaField.named (f : SchemaField) (value : UInt64) : Option AccessLevel :=
  f.optionAccess.bind (fun levels => levels[value.toNat]?)

/-- The levels a field has for a value: past the end of the options, all of them count. -/
def SchemaField.levels (f : SchemaField) (value : UInt64) : List AccessLevel :=
  f.access.toList ++ match f.named value with
    | some a => [a]
    | none => f.optionAccess.getD []

theorem raiseForValue_found {schema : List SchemaField} (hf : schema.find? (fun sf => sf.key == key) = some f) :
    raiseForValue schema need ⟨key, .u64 value⟩ = (f.levels value).foldl AccessLevel.raise need := by
  unfold raiseForValue
  rw [hf]
  obtain ⟨fieldKey, access, optionAccess⟩ := f
  cases access <;> cases optionAccess with
  | none => rfl
  | some levels => cases hidx : levels[value.toNat]? <;> simp [SchemaField.levels, SchemaField.named, hidx]

/-- The hub asks for every level that applies. -/
theorem requiredAccessFor_le (hs : e.usesSchema = true) (hf : e.schema.find? (fun sf => sf.key == key) = some f) :
    e.requiredAccessFor [⟨key, .u64 value⟩] ≤ role ↔ ∀ a ∈ e.access :: f.levels value, a ≤ role := by
  unfold CatalogEntry.requiredAccessFor
  simp only [hs, Bool.not_true, Bool.false_eq_true, if_false, List.foldl_cons, List.foldl_nil]
  rw [raiseForValue_found hf, foldl_raise_le, List.forall_mem_cons]

/-! ## The client -/

theorem Js.toInt32_rank (role : AccessLevel) : Js.toInt32 role.rank = role.rank := by
  cases role <;> rfl

/-- The most specific level for a value. -/
def SchemaField.specific (f : SchemaField) (floor : AccessLevel) (value : UInt64) : AccessLevel :=
  (f.named value).getD (f.access.getD floor)

theorem schemaByKey_decoded (hs : e.usesSchema = true) :
    (Js.schemaByKey (some (e.decoded sorted))).get key.toNat =
      (sorted.reverse.find? (fun sf => sf.key == key)).map SchemaField.decoded := by
  unfold Js.schemaByKey CatalogEntry.decoded
  simp only [hs, if_true, Option.bind_some, Option.getD_some]
  rw [OrderedMap.get_ofList, ← List.map_reverse, List.find?_map]
  congr 2
  funext sf
  simp [SchemaField.decoded, ← UInt8.toNat_inj, Function.comp]

theorem optionAccessFor_decoded (hs : e.usesSchema = true)
    (hl : sorted.reverse.find? (fun sf => sf.key == key) = some l) :
    Js.optionAccessFor (some (e.decoded sorted)) key.toNat value.toNat = (l.specific e.access value).rank := by
  unfold Js.optionAccessFor SchemaField.specific SchemaField.named
  simp only [schemaByKey_decoded hs, hl, Option.map_some, Option.bind_some]
  have hfloor : (l.decoded.access).getD (e.decoded sorted).access = (l.access.getD e.access).rank := by
    unfold SchemaField.decoded CatalogEntry.decoded
    cases l.access <;> rfl
  rw [hfloor]
  unfold SchemaField.decoded
  cases l.optionAccess with
  | none => rfl
  | some levels =>
    cases levels with
    | nil => rfl
    | cons o levels =>
      simp only [Option.filter_some, List.isEmpty_cons, Bool.not_false, if_true, Option.map_some, Option.bind_some,
        List.getElem?_map]
      cases (o :: levels)[value.toNat]? <;> rfl

/-- The client asks for the most specific level alone. -/
theorem canUseOption_decoded (hs : e.usesSchema = true)
    (hl : sorted.reverse.find? (fun sf => sf.key == key) = some l) :
    Js.canUseOption (some (e.decoded sorted)) key.toNat value.toNat role.rank = true ↔ l.specific e.access value ≤ role := by
  unfold Js.canUseOption
  rw [decide_eq_true_iff, Js.toInt32_rank, optionAccessFor_decoded hs hl, AccessLevel.le_def]
  exact Int.ofNat_le

/-! ## Where they agree -/

/-- The most specific level is the greatest that applies.  A key that is declared twice is read from its first
declaration by the hub and from its last one by the client. -/
def Consistent (floor : AccessLevel) (f l : SchemaField) (value : UInt64) : Prop :=
  match l.named value, l.access with
  | some o, _ => floor ≤ o ∧ (∀ a ∈ f.levels value, a ≤ o) ∧ o ∈ floor :: f.levels value
  | none, some a => floor ≤ a ∧ (∀ b ∈ f.levels value, b ≤ a) ∧ a ∈ floor :: f.levels value
  | none, none => ∀ b ∈ f.levels value, b ≤ floor

theorem consistent_iff {floor : AccessLevel} : Consistent floor f l value ↔
    (∀ a ∈ floor :: f.levels value, a ≤ l.specific floor value) ∧ l.specific floor value ∈ floor :: f.levels value := by
  unfold Consistent SchemaField.specific
  cases l.named value with
  | some o => simp [and_assoc]
  | none =>
    cases l.access with
    | some a => simp [and_assoc]
    | none => simp [AccessLevel.le_refl]

theorem AccessLevel.le_antisymm {b : AccessLevel} (h : a ≤ b) (h' : b ≤ a) : a = b := by
  rw [AccessLevel.le_def] at h h'
  cases a <;> cases b <;> simp_all [AccessLevel.rank]

theorem exists_greatest {levels : List AccessLevel} (hne : levels ≠ []) : ∃ g ∈ levels, ∀ a ∈ levels, a ≤ g := by
  have hsome : levels.argmax AccessLevel.rank ≠ none := by simpa [List.argmax_eq_none] using hne
  obtain ⟨g, hg⟩ := Option.ne_none_iff_exists'.mp hsome
  exact ⟨g, List.argmax_mem hg, fun a ha => List.le_of_mem_argmax ha hg⟩

/-- What bounds exactly the roles above all levels is the greatest of them. -/
theorem forall_le_iff {levels : List AccessLevel} {x : AccessLevel} (hne : levels ≠ []) :
    (∀ role, x ≤ role ↔ ∀ a ∈ levels, a ≤ role) ↔ (∀ a ∈ levels, a ≤ x) ∧ x ∈ levels := by
  constructor
  · intro h
    have hupper : ∀ a ∈ levels, a ≤ x := (h x).mp (AccessLevel.le_refl x)
    obtain ⟨g, hg, hgreatest⟩ := exists_greatest hne
    have hxg : x = g := AccessLevel.le_antisymm ((h g).mpr hgreatest) (hupper g hg)
    exact ⟨hupper, hxg ▸ hg⟩
  · rintro ⟨hupper, hmem⟩ role
    exact ⟨fun hx a ha => AccessLevel.le_trans (hupper a ha) hx, fun h => h x hmem⟩

/-- Client and hub read the same level for a value. -/
def ReadAlike (e : CatalogEntry) (sorted : List SchemaField) (key : UInt8) (value : UInt64) : Prop :=
  ∃ f l, e.schema.find? (fun sf => sf.key == key) = some f ∧ sorted.reverse.find? (fun sf => sf.key == key) = some l ∧
    Consistent e.access f l value

theorem find?_key {schema : List SchemaField} (h : key ∈ schema.map SchemaField.key) :
    ∃ f, schema.find? (fun sf => sf.key == key) = some f := by
  obtain ⟨f, hf, hkey⟩ := List.mem_map.mp h
  exact Option.isSome_iff_exists.mp (List.find?_isSome.mpr ⟨f, hf, beq_iff_eq.mpr hkey⟩)

/-- **The client grays what the hub refuses exactly where the catalog is consistent.** -/
theorem canUseOption_iff_required (e : CatalogEntry) (hs : e.usesSchema = true) (hsort : sorted.Perm e.schema)
    (key : UInt8) (hkey : key ∈ e.schema.map SchemaField.key) (value : UInt64) :
    (∀ role : AccessLevel, Js.canUseOption (some (e.decoded sorted)) key.toNat value.toNat role.rank = true ↔
      e.requiredAccessFor [⟨key, .u64 value⟩] ≤ role) ↔ ReadAlike e sorted key value := by
  obtain ⟨f, hf⟩ := find?_key hkey
  obtain ⟨l, hl⟩ : ∃ l, sorted.reverse.find? (fun sf => sf.key == key) = some l := by
    refine find?_key ?_
    rw [List.map_reverse, List.mem_reverse]
    exact (hsort.map SchemaField.key).mem_iff.mpr hkey
  have halike : ReadAlike e sorted key value ↔ Consistent e.access f l value := by
    constructor
    · rintro ⟨f', l', hf', hl', hcon⟩
      rw [Option.some.inj (hf.symm.trans hf'), Option.some.inj (hl.symm.trans hl')]
      exact hcon
    · exact fun hcon => ⟨f, l, hf, hl, hcon⟩
  rw [halike, consistent_iff, ← forall_le_iff (List.cons_ne_nil e.access _)]
  refine forall_congr' fun role => ?_
  rw [canUseOption_decoded hs hl, requiredAccessFor_le hs hf]

/-- The safety intents as the bench hub declares them: anyone may send `stop` and `estop`, the rest needs `control`. -/
def safetyIntents : CatalogEntry where
  id := Channels.safetyIntents
  cls := .intent
  dir := .c2h
  schema := [{
    key := 1
    optionAccess := some [.control, .control, .watch, .control, .control, .control, .watch, .control, .control, .control,
      .control] }]

theorem canUse_stop :
    Js.canUseOption (some (safetyIntents.decoded safetyIntents.schema)) 1 2 AccessLevel.watch.rank = true ↔
      safetyIntents.requiredAccessFor [⟨1, .u64 2⟩] ≤ .watch :=
  (canUseOption_iff_required safetyIntents rfl (List.Perm.refl _) 1 (by decide) 2).mpr
    ⟨_, _, rfl, rfl, AccessLevel.le_refl .watch, by decide, by decide⟩ .watch

/-- A viewer is offered an operation that is past the end of the options, and is refused. -/
theorem canUse_unknown_option :
    ¬∀ (e : CatalogEntry) (key : UInt8) (value : UInt64) (role : AccessLevel), e.usesSchema = true →
      key ∈ e.schema.map SchemaField.key →
      (Js.canUseOption (some (e.decoded e.schema)) key.toNat value.toNat role.rank = true ↔
        e.requiredAccessFor [⟨key, .u64 value⟩] ≤ role) := by
  intro h
  have hunknown := (h safetyIntents 1 11 .watch rfl (by decide)).mp (by decide)
  exact absurd hunknown (by decide)

end SlopSync
