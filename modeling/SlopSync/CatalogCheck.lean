import SlopSync.CatalogCodec

/-! # The catalog check

`checkCatalog` of `conformance/catalog_check.hpp`: what is wrong with each entry of a catalog, until the report is full.
With a scratch buffer the entries are encoded too, to see how long they are. -/

namespace SlopSync.Builder

inductive ViolationKind
  | stateTooLarge | idsNotAscending | nameTooLong | nameEmpty | wrongFieldForm | noFields | coreChannelMisclass
  | entryTooLarge | categoryLabelMissing | settingChannelMissing
  deriving DecidableEq, Repr

structure Violation where
  kind : ViolationKind
  channelId : UInt16
  deriving DecidableEq, Repr

def ConformanceReport.kMax : Nat := 32

structure ConformanceReport where
  violations : List Violation := []
  bound : violations.length ≤ ConformanceReport.kMax := by decide

namespace ConformanceReport

def ok (r : ConformanceReport) : Bool := r.violations.isEmpty

/-- What does not fit is dropped. -/
def add (r : ConformanceReport) (v : Violation) : ConformanceReport :=
  if h : r.violations.length < kMax then
    { violations := r.violations ++ [v]
      bound := by rw [List.length_append]; exact h }
  else r

end ConformanceReport

def layoutWireSize (fields : List LayoutField) : Nat := (fields.map fun f => f.type.wireSize).sum

section

variable {caps : Capacities} (c : BasicCatalog caps) (scratch : Nat)

/-- The pool of the form of the entry does not hold what the entry counts. -/
def wrongFieldForm (e : CatalogEntry) : Bool :=
  e.fieldCount != 0 &&
    match e.form with
    | .layout => (c.layoutFields e).length != e.fieldCount.toNat
    | .schema => (c.schemaFields e).length != e.fieldCount.toNat
    | .store => e.fieldCount != 1 || (c.storeDescriptor e).isNone

/-- Nothing is measured without a buffer; what does not encode into it is too large. -/
def entryTooLarge (e : CatalogEntry) : Bool :=
  scratch != 0 &&
    match (encodeEntry { cap := scratch } c e).result with
    | none => true
    | some bs => bs.isEmpty || decide (catalogMaxEntryBytes < bs.length)

/-- What is looked at in an entry, in this order, and whether it is wrong; `prev` is the identifier of the entry before. -/
def checks (prev : Option UInt16) (e : CatalogEntry) : List (ViolationKind × Bool) := [
  (.idsNotAscending, prev.any (e.id ≤ ·)),
  (.nameEmpty, e.name.isEmpty),
  (.nameTooLong, !e.name.isEmpty && decide (32 < e.name.length)),
  (.noFields, e.fieldCount == 0),
  (.wrongFieldForm, wrongFieldForm c e),
  (.stateTooLarge, e.form == .layout && e.cls == .state &&
    decide (Limits.minTransportPayload < layoutWireSize (c.layoutFields e))),
  (.categoryLabelMissing, e.hasCategory && decide (0x40 ≤ e.category) && decide (e.category ≤ 0x7E) &&
    e.categoryLabel.isEmpty),
  (.settingChannelMissing, !e.hasSettingChannel && (c.layoutFields e).any LayoutField.hasSettingKey),
  (.entryTooLarge, entryTooLarge c scratch e),
  (.coreChannelMisclass, e.id == Channels.safety && e.cls != .state),
  (.coreChannelMisclass, e.id == Channels.safetyIntents && e.cls != .intent)]

def checkEntry (prev : Option UInt16) (e : CatalogEntry) (r : ConformanceReport) : ConformanceReport :=
  (checks c scratch prev e).foldl (fun r x => if x.2 then r.add ⟨x.1, e.id⟩ else r) r

def checkEntries : Option UInt16 → List CatalogEntry → ConformanceReport → ConformanceReport
  | _, [], r => r
  | prev, e :: es, r => checkEntries (some e.id) es (checkEntry c scratch prev e r)

/-- A `scratch` of no bytes is none. -/
def checkCatalog : ConformanceReport := checkEntries c scratch none c.entries.live {}

/-! ## What is reported -/

/-- What is wrong with an entry. -/
def faults (prev : Option UInt16) (e : CatalogEntry) : List Violation :=
  ((checks c scratch prev e).filter Prod.snd).map fun x => ⟨x.1, e.id⟩

def faultsFrom : Option UInt16 → List CatalogEntry → List Violation
  | _, [] => []
  | prev, e :: es => faults c scratch prev e ++ faultsFrom (some e.id) es

end

section

variable {caps : Capacities} {c : BasicCatalog caps} {scratch : Nat}

theorem add_violations (r : ConformanceReport) (v : Violation) :
    (r.add v).violations = (r.violations ++ [v]).take ConformanceReport.kMax := by
  unfold ConformanceReport.add
  split
  · rename_i h
    rw [List.take_of_length_le (by rw [List.length_append]; exact h)]
  · rename_i h
    have hfull : r.violations.length = ConformanceReport.kMax := by
      have := r.bound
      omega
    rw [← hfull, List.take_left]

/-- A report that takes more is cut where it is full. -/
theorem take_append_take (l m : List Violation) (k : Nat) : (l.take k ++ m).take k = (l ++ m).take k := by
  rcases Nat.le_total l.length k with h | h
  · rw [List.take_of_length_le h]
  · rw [List.take_append_of_le_length h, List.take_append_of_le_length (by rw [List.length_take]; omega), List.take_take,
      Nat.min_self]

theorem checkEntry_violations (prev : Option UInt16) (e : CatalogEntry) (r : ConformanceReport) :
    (checkEntry c scratch prev e r).violations =
      (r.violations ++ faults c scratch prev e).take ConformanceReport.kMax := by
  unfold checkEntry faults
  generalize checks c scratch prev e = l
  induction l generalizing r with
  | nil => rw [List.filter_nil, List.map_nil, List.append_nil, List.take_of_length_le r.bound, List.foldl_nil]
  | cons x l ih =>
    rw [List.foldl_cons, ih]
    cases hx : x.2 with
    | true =>
      rw [if_pos rfl, add_violations, take_append_take, List.filter_cons_of_pos hx, List.map_cons, List.append_assoc]
      rfl
    | false => rw [if_neg Bool.false_ne_true, List.filter_cons_of_neg (by rw [hx]; exact Bool.false_ne_true)]

/-- **The report is what is wrong, as far as it goes.** -/
theorem checkCatalog_violations (c : BasicCatalog caps) (scratch : Nat) :
    (checkCatalog c scratch).violations = (faultsFrom c scratch none c.entries.live).take ConformanceReport.kMax := by
  have hall : ∀ (es : List CatalogEntry) (prev : Option UInt16) (r : ConformanceReport),
      (checkEntries c scratch prev es r).violations =
        (r.violations ++ faultsFrom c scratch prev es).take ConformanceReport.kMax := by
    intro es
    induction es with
    | nil =>
      intro prev r
      rw [checkEntries, faultsFrom, List.append_nil, List.take_of_length_le r.bound]
    | cons e es ih =>
      intro prev r
      rw [checkEntries, ih, checkEntry_violations, take_append_take, faultsFrom, List.append_assoc]
  exact hall c.entries.live none {}

theorem mem_faults {prev : Option UInt16} {e : CatalogEntry} {v : Violation} :
    v ∈ faults c scratch prev e ↔ v.channelId = e.id ∧ (v.kind, true) ∈ checks c scratch prev e := by
  simp only [faults, List.mem_map, List.mem_filter]
  constructor
  · rintro ⟨⟨k, b⟩, ⟨hmem, rfl⟩, rfl⟩
    exact ⟨rfl, hmem⟩
  · rintro ⟨hid, hmem⟩
    exact ⟨(v.kind, true), ⟨hmem, rfl⟩, by rw [← hid]⟩

theorem mem_faultsFrom {prev : Option UInt16} {es : List CatalogEntry} {v : Violation}
    (h : v ∈ faultsFrom c scratch prev es) :
    ∃ before e after, es = before ++ e :: after ∧ v ∈ faults c scratch ((before.getLast?.map CatalogEntry.id).or prev) e := by
  induction es generalizing prev with
  | nil => cases h
  | cons e es ih =>
    rcases List.mem_append.mp h with h | h
    · exact ⟨[], e, es, rfl, h⟩
    · obtain ⟨before, e', after, rfl, hv⟩ := ih h
      refine ⟨e :: before, e', after, rfl, ?_⟩
      rw [List.getLast?_cons]
      cases hlast : before.getLast? with
      | none => simpa [hlast] using hv
      | some x => simpa [hlast] using hv

end

end SlopSync.Builder
