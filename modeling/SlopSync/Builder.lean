import Mathlib.Data.List.DropRight
import SlopSync.Catalog
import SlopSync.Packed
import SlopSync.Pools

/-! # The catalog builder

`BasicCatalog` of `channel/catalog.hpp` as it lies in memory: entries with an offset and a count into the pool of their form,
fields with references into the pool of labels.  A call answers nothing when it fails, and leaves the catalog as it then is;
`ok` is the catalog's own record of failures. -/

namespace SlopSync.Builder

/-! ## Entries and fields -/

/-- The factory value of a setting. -/
inductive SettingDefault
  | none
  | int (v : Int32)
  | float (bits : UInt32)     -- binary32
  | bool (v : Bool)
  | tstr (s : Bytes)
  deriving DecidableEq

/-- A slice of the label pool; a count of zero is absent. -/
structure LabelRef where
  offset : UInt16 := 0xFFFF
  count : UInt8 := 0
  deriving DecidableEq

def LabelRef.kMaxCount : Nat := 255

/-- The axes of the rendering metamodel, each with its presence. -/
structure Rendering where
  hasRank : Bool := false
  rank : UInt8 := 0
  hasAspect : Bool := false
  aspect : UInt8 := 0
  hasScope : Bool := false
  scope : UInt8 := 0
  hasProvenance : Bool := false
  provenance : UInt8 := 0
  hasUnitId : Bool := false
  unitId : UInt8 := 0
  deriving DecidableEq

/-- What `LayoutField` and `SchemaField` have in common. -/
structure Annotations extends Rendering where
  name : Bytes := []
  unit : Bytes := []
  hasMin : Bool := false
  hasMax : Bool := false
  min : UInt32 := 0           -- binary32
  max : UInt32 := 0
  options : LabelRef := {}
  dflt : SettingDefault := .none
  group : Bytes := []
  desc : Bytes := []
  role : Bytes := []
  step : UInt32 := 0
  flags : UInt8 := 0
  hasStep : Bool := false
  deriving DecidableEq

structure LayoutField extends Annotations where
  type : PackedFieldType := .u8
  scale : UInt32 := 0x3F800000
  bits : LabelRef := {}
  settingKey : UInt8 := 0
  hasSettingKey : Bool := false
  deriving DecidableEq

inductive CborFieldType
  | uint_t | int_t | f32_t | bool_t | tstr_t | bstr_t
  deriving DecidableEq, Repr

structure SchemaField extends Annotations where
  key : UInt8 := 0
  type : CborFieldType := .uint_t
  access : AccessLevel := .watch
  hasAccess : Bool := false
  hasOptionAccess : Bool := false
  deriving DecidableEq

structure StoreDescriptor where
  storeId : UInt8 := 0
  kind : Bytes := []
  capacity : UInt16 := 0
  perItemMax : UInt32 := 0
  nameMax : UInt16 := 0
  deriving DecidableEq

inductive FieldForm
  | layout | schema | store
  deriving DecidableEq, Repr

structure CatalogEntry where
  id : UInt16 := 0
  name : Bytes := []
  cls : ChannelClass := .state
  dir : Direction := .h2c
  access : AccessLevel := .watch
  maxRateHz : UInt32 := 0     -- binary32
  defaultPriority : Priority := .normal
  fieldCount : UInt8 := 0
  fieldOffset : UInt16 := 0
  hasCategory : Bool := false
  category : UInt8 := 0
  categoryLabel : Bytes := []
  hasReplayDepth : Bool := false
  replayDepth : UInt16 := 0
  hasSettingChannel : Bool := false
  settingChannel : UInt16 := 0
  streamKind : UInt8 := 0
  hasRank : Bool := false
  rank : UInt8 := 0
  deriving DecidableEq

namespace CatalogEntry

def kMaxFields : Nat := 64

def form (e : CatalogEntry) : FieldForm :=
  match e.cls with
  | .state | .stream => .layout
  | .intent | .event => .schema
  | .store => .store

end CatalogEntry

/-! ## Pools -/

/-- A label and, slot for slot, the level of its option. -/
structure Label where
  text : Bytes
  access : AccessLevel := .watch
  deriving DecidableEq

structure Capacities where
  entries : Nat := 32
  layoutFields : Nat := 200
  schemaFields : Nat := 48
  labels : Nat := 128
  stores : Nat := 4
  deriving DecidableEq

/-- What the pool of a form holds. -/
abbrev Payload : FieldForm → Type
  | .layout => LayoutField
  | .schema => SchemaField
  | .store => StoreDescriptor

def Capacities.of (caps : Capacities) : FieldForm → Nat
  | .layout => caps.layoutFields
  | .schema => caps.schemaFields
  | .store => caps.stores

structure BasicCatalog (caps : Capacities) where
  entries : Pool CatalogEntry caps.entries
  layoutPool : Pool LayoutField caps.layoutFields
  schemaPool : Pool SchemaField caps.schemaFields
  storePool : Pool StoreDescriptor caps.stores
  labelPool : Pool Label caps.labels
  overflow : Bool := false

namespace BasicCatalog

variable {caps : Capacities}

def empty : BasicCatalog caps where
  entries := .empty {}
  layoutPool := .empty {}
  schemaPool := .empty {}
  storePool := .empty {}
  labelPool := .empty { text := [] }

def ok (c : BasicCatalog caps) : Bool := !c.overflow

def clear (c : BasicCatalog caps) : BasicCatalog caps where
  entries := c.entries.clear
  layoutPool := c.layoutPool.clear
  schemaPool := c.schemaPool.clear
  storePool := c.storePool.clear
  labelPool := c.labelPool.clear

def pool (c : BasicCatalog caps) : (form : FieldForm) → Pool (Payload form) (caps.of form)
  | .layout => c.layoutPool
  | .schema => c.schemaPool
  | .store => c.storePool

def setPool (c : BasicCatalog caps) : (form : FieldForm) → Pool (Payload form) (caps.of form) → BasicCatalog caps
  | .layout, p => { c with layoutPool := p }
  | .schema, p => { c with schemaPool := p }
  | .store, p => { c with storePool := p }

/-! ## Access -/

/-- The labels a reference resolves to, with their levels. -/
def labels (c : BasicCatalog caps) (ref : LabelRef) : List Label :=
  if ref.count = 0 then [] else (c.labelPool.slice ref.offset.toNat ref.count.toNat).getD []

def layoutFields (c : BasicCatalog caps) (e : CatalogEntry) : List LayoutField :=
  if e.form = .layout then (c.layoutPool.slice e.fieldOffset.toNat e.fieldCount.toNat).getD [] else []

def schemaFields (c : BasicCatalog caps) (e : CatalogEntry) : List SchemaField :=
  if e.form = .schema then (c.schemaPool.slice e.fieldOffset.toNat e.fieldCount.toNat).getD [] else []

def storeDescriptor (c : BasicCatalog caps) (e : CatalogEntry) : Option StoreDescriptor :=
  if e.form = .store ∧ e.fieldCount = 1 then (c.storePool.slice e.fieldOffset.toNat 1).bind List.head? else none

end BasicCatalog

/-! ## Calls -/

/-- What a call answers, nothing when it fails, and the catalog after it. -/
structure Result (caps : Capacities) (α : Type) where
  answer : Option α
  catalog : BasicCatalog caps

/-- Go on where a call succeeded. -/
def Result.andThen {caps : Capacities} {α β : Type} (r : Result caps α) (next : α → BasicCatalog caps → Result caps β) :
    Result caps β :=
  match r.answer with
  | some a => next a r.catalog
  | none => ⟨none, r.catalog⟩

namespace BasicCatalog

variable {caps : Capacities}

def latch {α : Type} (c : BasicCatalog caps) : Result caps α := ⟨none, { c with overflow := true }⟩

def addEntry (c : BasicCatalog caps) (header : CatalogEntry) : Result caps Unit :=
  match c.entries.push { header with fieldCount := 0, fieldOffset := (c.pool header.form).used } with
  | some entries => ⟨some (), { c with entries }⟩
  | none => c.latch

/-- One more for the most recent entry, which must have the form and end where the pool of the form ends.  An entry has at
most `limit`. -/
def attach (c : BasicCatalog caps) (form : FieldForm) (limit : Nat) (a : Payload form) : Result caps Unit :=
  match c.entries.live.getLast?, (c.pool form).push a with
  | some e, some p =>
    if e.form ≠ form ∨ e.fieldOffset.toNat + e.fieldCount.toNat ≠ (c.pool form).used.toNat then c.latch
    else if limit ≤ e.fieldCount.toNat then c.latch
    else
      ⟨some (), { c.setPool form p with
        entries := c.entries.modify (c.entries.used.toNat - 1) fun e => { e with fieldCount := e.fieldCount + 1 } }⟩
  | _, _ => c.latch

def addLayoutField (c : BasicCatalog caps) (f : LayoutField) : Result caps Unit :=
  c.attach .layout CatalogEntry.kMaxFields f

def addSchemaField (c : BasicCatalog caps) (f : SchemaField) : Result caps Unit :=
  c.attach .schema CatalogEntry.kMaxFields f

/-- An entry has one descriptor. -/
def addStoreDescriptor (c : BasicCatalog caps) (d : StoreDescriptor) : Result caps Unit := c.attach .store 1 d

/-! ### Labels -/

/-- The loop over `poolAddLabel`, and the reference to what it added. -/
def poolLabels (c : BasicCatalog caps) (labels : List Label) (count : UInt8) : Result caps LabelRef :=
  let (ok, labelPool) := Pool.pushAll labels c.labelPool
  if ok then ⟨some { offset := c.labelPool.used, count }, { c with labelPool }⟩
  else ⟨none, { c with labelPool, overflow := true }⟩

/-- Trailing empty labels cost nothing. -/
def trimmed (labels : List Bytes) : List Bytes := labels.rdropWhile List.isEmpty

def internLabels (c : BasicCatalog caps) (labels : List Bytes) (maxCount : Nat) : Result caps LabelRef :=
  let p := trimmed labels
  if p = [] then ⟨some {}, c⟩
  else if maxCount < p.length then c.latch
  else c.poolLabels (p.map fun text => { text }) (UInt8.ofNat p.length)

/-- An option without a label cannot be shown. -/
def checkOptionLabels (c : BasicCatalog caps) (options : List Bytes) : Result caps Unit :=
  if options.any List.isEmpty then c.latch else ⟨some (), c⟩

/-- Levels for the labels from `offset` on. -/
def setAccess (c : BasicCatalog caps) : Nat → List AccessLevel → BasicCatalog caps
  | _, [] => c
  | offset, a :: access =>
    setAccess { c with labelPool := c.labelPool.modify offset fun label => { label with access := a } } (offset + 1) access

def addBitfieldField (c : BasicCatalog caps) (f : LayoutField) (bits : List Bytes) : Result caps Unit :=
  (c.internLabels bits 8).andThen fun bits c => c.addLayoutField { f with bits }

def addSelectField (c : BasicCatalog caps) (f : LayoutField) (options : List Bytes) : Result caps Unit :=
  (c.checkOptionLabels options).andThen fun _ c =>
    (c.internLabels options LabelRef.kMaxCount).andThen fun options c => c.addLayoutField { f with options }

def addSelectSchemaField (c : BasicCatalog caps) (f : SchemaField) (options : List Bytes)
    (optionAccess : List AccessLevel) : Result caps Unit :=
  if optionAccess.length ≠ 0 ∧ optionAccess.length ≠ options.length then c.latch
  else
    (c.checkOptionLabels options).andThen fun _ c =>
      (c.internLabels options LabelRef.kMaxCount).andThen fun options c =>
        if optionAccess.length ≠ 0 then
          (c.setAccess options.offset.toNat (optionAccess.take options.count.toNat)).addSchemaField
            { f with options, hasOptionAccess := true }
        else c.addSchemaField { f with options }

/-! ### Copies -/

section

variable {theirs : Capacities}

/-- A reference that does not resolve fails without a record of it. -/
def reintern (c : BasicCatalog caps) (src : BasicCatalog theirs) (ref : LabelRef) : Result caps LabelRef :=
  if ref.count = 0 then ⟨some {}, c⟩
  else if (src.labels ref).length ≠ ref.count.toNat then ⟨none, c⟩
  else c.poolLabels (src.labels ref) ref.count

def copyLayoutField (src : BasicCatalog theirs) (c : BasicCatalog caps) (f : LayoutField) : Result caps Unit :=
  (c.reintern src f.bits).andThen fun bits c =>
    (c.reintern src f.options).andThen fun options c => c.addLayoutField { f with bits, options }

def copySchemaField (src : BasicCatalog theirs) (c : BasicCatalog caps) (f : SchemaField) : Result caps Unit :=
  (c.reintern src f.options).andThen fun options c => c.addSchemaField { f with options }

/-- A loop that ends with the first call that fails. -/
def forEach {α : Type} (call : BasicCatalog caps → α → Result caps Unit) : BasicCatalog caps → List α → Result caps Unit
  | c, [] => ⟨some (), c⟩
  | c, a :: l => (call c a).andThen fun _ c => forEach call c l

/-- The payload of an entry, which the most recent entry here gets. -/
def copyPayload (c : BasicCatalog caps) (src : BasicCatalog theirs) (e : CatalogEntry) : Result caps Unit :=
  match e.form with
  | .layout => forEach (copyLayoutField src) c (src.layoutFields e)
  | .schema => forEach (copySchemaField src) c (src.schemaFields e)
  | .store =>
    match src.storeDescriptor e with
    | none => ⟨none, c⟩
    | some d => c.addStoreDescriptor d

def addEntryFrom (c : BasicCatalog caps) (src : BasicCatalog theirs) (e : CatalogEntry) : Result caps Unit :=
  (c.addEntry e).andThen fun _ c => c.copyPayload src e

end

end BasicCatalog

/-! ## Sequences of calls -/

inductive Call
  | addEntry (header : CatalogEntry)
  | addLayoutField (f : LayoutField)
  | addBitfieldField (f : LayoutField) (bits : List Bytes)
  | addSelectField (f : LayoutField) (options : List Bytes)
  | addSchemaField (f : SchemaField)
  | addSelectSchemaField (f : SchemaField) (options : List Bytes) (optionAccess : List AccessLevel)
  | addStoreDescriptor (d : StoreDescriptor)
  | addEntryFrom (theirs : Capacities) (src : BasicCatalog theirs) (e : CatalogEntry)

namespace BasicCatalog

variable {caps : Capacities}

def call (c : BasicCatalog caps) : Call → Result caps Unit
  | .addEntry header => c.addEntry header
  | .addLayoutField f => c.addLayoutField f
  | .addBitfieldField f bits => c.addBitfieldField f bits
  | .addSelectField f options => c.addSelectField f options
  | .addSchemaField f => c.addSchemaField f
  | .addSelectSchemaField f options optionAccess => c.addSelectSchemaField f options optionAccess
  | .addStoreDescriptor d => c.addStoreDescriptor d
  | .addEntryFrom _ src e => c.addEntryFrom src e

/-- Whatever the calls answer. -/
def run (c : BasicCatalog caps) (calls : List Call) : BasicCatalog caps := calls.foldl (fun c x => (c.call x).catalog) c

end BasicCatalog

end SlopSync.Builder
