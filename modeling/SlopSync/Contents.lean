import SlopSync.Builder

/-! # What a catalog contains

The entries of a catalog with their fields and labels, and without the offsets at which they lie.  Each call of the builder
has a meaning on such lists (`Call.asks`), and asks the counters of the catalog for so much (`Call.needs`). -/

namespace SlopSync.Builder

/-! ## Contents -/

/-- A field with its labels in place of the references to them. -/
inductive Item
  | layout (f : LayoutField) (bits options : List Label)
  | schema (f : SchemaField) (options : List Label)
  | store (d : StoreDescriptor)

structure Content where
  header : CatalogEntry
  items : List Item

def LayoutField.plain (f : LayoutField) : LayoutField := { f with bits := {}, options := {} }
def SchemaField.plain (f : SchemaField) : SchemaField := { f with options := {} }
def CatalogEntry.header (e : CatalogEntry) : CatalogEntry := { e with fieldCount := 0, fieldOffset := 0 }

def Item.labels : Item → List Label
  | .layout _ bits options => bits ++ options
  | .schema _ options => options
  | .store _ => []

namespace BasicCatalog

variable {caps : Capacities}

def item (c : BasicCatalog caps) : (form : FieldForm) → Payload form → Item
  | .layout, f => .layout f.plain (c.labels f.bits) (c.labels f.options)
  | .schema, f => .schema f.plain (c.labels f.options)
  | .store, d => .store d

/-- As the accessors give them. -/
def items (c : BasicCatalog caps) (e : CatalogEntry) : List Item :=
  match e.form with
  | .layout => (c.layoutFields e).map (c.item .layout)
  | .schema => (c.schemaFields e).map (c.item .schema)
  | .store => (c.storeDescriptor e).toList.map (c.item .store)

def content (c : BasicCatalog caps) (e : CatalogEntry) : Content := ⟨e.header, c.items e⟩

def contents (c : BasicCatalog caps) : List Content := c.entries.live.map c.content

end BasicCatalog

/-- One more item for the last entry. -/
def addItem (l : List Content) (item : Item) : List Content :=
  l.dropLast ++ (l.getLast?.map fun e => { e with items := e.items ++ [item] }).toList

@[simp] theorem addItem_concat (l : List Content) (e : Content) (item : Item) :
    addItem (l ++ [e]) item = l ++ [{ e with items := e.items ++ [item] }] := by
  simp [addItem]

/-- Without levels of their own, labels are for all. -/
def labelled (options : List Bytes) : List AccessLevel → List Label
  | [] => options.map fun text => { text }
  | access => List.zipWith (fun text access => { text, access }) options access

/-- What a call that succeeds makes of the contents. -/
def Call.asks (l : List Content) : Call → List Content
  | .addEntry header => l ++ [⟨header.header, []⟩]
  | .addLayoutField f => addItem l (.layout f.plain [] [])
  | .addBitfieldField f bits => addItem l (.layout f.plain (labelled (BasicCatalog.trimmed bits) []) [])
  | .addSelectField f options => addItem l (.layout f.plain [] (labelled options []))
  | .addSchemaField f => addItem l (.schema f.plain [])
  | .addSelectSchemaField f options optionAccess =>
    addItem l (.schema { f.plain with hasOptionAccess := f.hasOptionAccess || !optionAccess.isEmpty }
      (labelled options optionAccess))
  | .addStoreDescriptor d => addItem l (.store d)
  | .addEntryFrom _ src e => l ++ [src.content e]

/-! ## Cells -/

/-- The cells of the label pool that a reference stands for. -/
def LabelRef.cells (ref : LabelRef) : List Nat := List.range' ref.offset.toNat ref.count.toNat

/-- The cells of the pool of a form that an entry has. -/
def CatalogEntry.cells (form : FieldForm) (e : CatalogEntry) : List Nat :=
  if e.form = form then List.range' e.fieldOffset.toNat e.fieldCount.toNat else []

def Payload.refs : (form : FieldForm) → Payload form → List LabelRef
  | .layout, f => [f.bits, f.options]
  | .schema, f => [f.options]
  | .store, _ => []

namespace BasicCatalog

variable {caps : Capacities}

/-- The references of all fields. -/
def refs (c : BasicCatalog caps) : List LabelRef :=
  c.layoutPool.live.flatMap (Payload.refs .layout) ++ c.schemaPool.live.flatMap (Payload.refs .schema)

/-- No cell has two owners. -/
structure Apart (c : BasicCatalog caps) : Prop where
  fields : ∀ form, (c.entries.live.flatMap (CatalogEntry.cells form)).Nodup
  labels : (c.refs.flatMap LabelRef.cells).Nodup

end BasicCatalog

/-! ## What a call must meet -/

inductive Counter
  | entries
  | fields (form : FieldForm)
  | labels
  deriving DecidableEq

def Capacities.counter (caps : Capacities) : Counter → Nat
  | .entries => caps.entries
  | .fields form => caps.of form
  | .labels => caps.labels

/-- `n` of one counter, and nothing of the others. -/
def only (k : Counter) (n : Nat) (x : Counter) : Nat := if x = k then n else 0

namespace BasicCatalog

variable {caps : Capacities}

def used (c : BasicCatalog caps) : Counter → Nat
  | .entries => c.entries.used.toNat
  | .fields form => (c.pool form).used.toNat
  | .labels => c.labelPool.used.toNat

/-- No counter wraps. -/
def Room (c : BasicCatalog caps) (needs : Counter → Nat) : Prop :=
  ∀ k, caps.counter k < 2 ^ 16 ∨ c.used k + needs k < 2 ^ 16

/-- A reference that is absent or in use. -/
def Known (c : BasicCatalog caps) (ref : LabelRef) : Prop :=
  ref.count = 0 ∨ ref.offset.toNat + ref.count.toNat ≤ c.labelPool.used.toNat

/-- The payload of an entry and its labels can be read. -/
def Resolves (c : BasicCatalog caps) (e : CatalogEntry) : Prop :=
  match e.form with
  | .layout => ∀ f ∈ c.layoutFields e, c.Known f.bits ∧ c.Known f.options
  | .schema => ∀ f ∈ c.schemaFields e, c.Known f.options
  | .store => (c.storeDescriptor e).isSome = true

end BasicCatalog

namespace Call

/-- The cells a call takes when it succeeds. -/
def needs : Call → Counter → Nat
  | .addEntry _ => only .entries 1
  | .addLayoutField _ => only (.fields .layout) 1
  | .addBitfieldField _ bits => only (.fields .layout) 1 + only .labels (BasicCatalog.trimmed bits).length
  | .addSelectField _ options => only (.fields .layout) 1 + only .labels options.length
  | .addSchemaField _ => only (.fields .schema) 1
  | .addSelectSchemaField _ options _ => only (.fields .schema) 1 + only .labels options.length
  | .addStoreDescriptor _ => only (.fields .store) 1
  | .addEntryFrom _ src e =>
    only .entries 1 + only (.fields e.form) (src.items e).length + only .labels ((src.items e).flatMap Item.labels).length

/-- A field comes without references, but for one that the call replaces; an entry to copy can be read in its catalog. -/
def Meant : Call → Prop
  | .addEntry _ => True
  | .addLayoutField f => f.bits.count = 0 ∧ f.options.count = 0
  | .addBitfieldField f _ => f.options.count = 0
  | .addSelectField f _ => f.bits.count = 0
  | .addSchemaField f => f.options.count = 0
  | .addSelectSchemaField _ _ _ => True
  | .addStoreDescriptor _ => True
  | .addEntryFrom _ src e => src.Resolves e

end Call

/-- Every call of a sequence is meant, and makes no counter wrap. -/
def BasicCatalog.Allows {caps : Capacities} : BasicCatalog caps → List Call → Prop
  | _, [] => True
  | c, x :: calls => (x.Meant ∧ c.Room x.needs) ∧ (c.call x).catalog.Allows calls

end SlopSync.Builder
