import Mathlib.Data.List.Sort
import SlopSync.Builder
import SlopSync.Codec.Fields
import SlopSync.Profile.Choice

/-! # The catalog on the wire

`wire/catalog_codec.hpp`.  Each entry is written by a writer and read by a reader of its own, since the shape is deeper than
one of them goes; the head of the array has another.

The decoder fills the pools of the builder's catalog while it reads.  A catalog that did not decode is not looked at, so a
call on its pools that fails leaves no record. -/

namespace SlopSync.Builder

open CborWriter CborReader CborDecoder

/-! ## Calls on the catalog -/

namespace BasicCatalog

variable {caps : Capacities}

def bitLabels (c : BasicCatalog caps) (f : LayoutField) : List Bytes := (c.labels f.bits).map Label.text

def optionLabels (c : BasicCatalog caps) (a : Annotations) : List Bytes := (c.labels a.options).map Label.text

def optionAccess (c : BasicCatalog caps) (f : SchemaField) : List AccessLevel :=
  if f.hasOptionAccess then (c.labels f.options).map Label.access else []

/-! ### Pools -/

def poolAddLayoutField (c : BasicCatalog caps) (f : LayoutField) : Option (BasicCatalog caps) :=
  (c.layoutPool.push f).map fun layoutPool => { c with layoutPool }

def poolAddSchemaField (c : BasicCatalog caps) (f : SchemaField) : Option (BasicCatalog caps) :=
  (c.schemaPool.push f).map fun schemaPool => { c with schemaPool }

def poolAddStore (c : BasicCatalog caps) (d : StoreDescriptor) : Option (BasicCatalog caps) :=
  (c.storePool.push d).map fun storePool => { c with storePool }

def poolAddLabel (c : BasicCatalog caps) (text : Bytes) : Option (BasicCatalog caps) :=
  (c.labelPool.push { text }).map fun labelPool => { c with labelPool }

def poolSetLabelAccess (c : BasicCatalog caps) (index : UInt16) (access : AccessLevel) : Option (BasicCatalog caps) :=
  if index < c.labelPool.used then
    some { c with labelPool := c.labelPool.modify index.toNat fun label => { label with access } }
  else none

def addEntryVerbatim (c : BasicCatalog caps) (e : CatalogEntry) : Option (BasicCatalog caps) :=
  (c.entries.push e).map fun entries => { c with entries }

end BasicCatalog

/-! ## Wire values -/

def catalogMaxEntryBytes : Nat := 4096
def descMaxBytes : Nat := 128
def optionLabelMaxBytes : Nat := 24

/-- The values of an enumeration in the order of their wire values. -/
def packedTypes : List PackedFieldType := [.u8, .i8, .u16, .i16, .u32, .i32, .f32, .bitfield8, .str16, .str32, .str64]

def cborTypes : List CborFieldType := [.uint_t, .int_t, .f32_t, .bool_t, .tstr_t, .bstr_t]

def classes : List ChannelClass := [.state, .stream, .intent, .event, .store]

def directions : List Direction := [.h2c, .c2h]

def accessLevels : List AccessLevel := [.watch, .control, .configure]

def priorities : List Priority := [.background, .normal, .elevated, .critical]

/-- A value that is there when its flag is set. -/
def given {α : Type} (has : Bool) (a : α) : Option α := if has then some a else none

/-- A text that is there when it is not empty. -/
def nonempty (s : Bytes) : Option Bytes := if s = [] then none else some s

def nonzero8 (v : UInt8) : Option UInt8 := if v = 0 then none else some v

/-! ## Encoders -/

def encodeSettingDefault (w : CborWriter) : SettingDefault → CborWriter
  | .int v => w.intVal v.toInt
  | .float bits => w.f32Val bits
  | .bool v => w.boolVal v
  | .tstr s => w.tstrVal s
  | .none => w

/-- The default of a field that has one. -/
def SettingDefault.given : SettingDefault → Option SettingDefault
  | .none => Option.none
  | d => some d

def optU8 (k : Nat) (w : CborWriter) (o : Option UInt8) : CborWriter := w.optKey k o fun w v => w.uintVal v.toNat

/-- Keys 5 and 6. -/
def encodeRange (w : CborWriter) (a : Annotations) : CborWriter :=
  let w := w.optKey 5 (given a.hasMin a.min) f32Val
  w.optKey 6 (given a.hasMax a.max) f32Val

/-- Keys 9 to 15. -/
def encodeHints (w : CborWriter) (a : Annotations) (options : List Bytes) : CborWriter :=
  let w := w.optKey 9 a.dflt.given encodeSettingDefault
  let w := w.optKey 10 (listOpt options) fun w l => l.foldl tstrVal (w.arrayHeader l.length)
  let w := w.optKey 11 (nonempty a.group) tstrVal
  let w := w.optKey 12 (nonempty a.desc) tstrVal
  let w := w.optKey 13 (nonempty a.role) tstrVal
  let w := w.optKey 14 (given a.hasStep a.step) f32Val
  optU8 15 w (nonzero8 a.flags)

/-- Keys 19 to 23. -/
def encodeRendering (w : CborWriter) (r : Rendering) : CborWriter :=
  let w := optU8 19 w (given r.hasRank r.rank)
  let w := optU8 20 w (given r.hasAspect r.aspect)
  let w := optU8 21 w (given r.hasScope r.scope)
  let w := optU8 22 w (given r.hasProvenance r.provenance)
  optU8 23 w (given r.hasUnitId r.unitId)

def Annotations.rangeKeys (a : Annotations) : Nat := optCount (given a.hasMin a.min) + optCount (given a.hasMax a.max)

def Annotations.hintKeys (a : Annotations) (options : List Bytes) : Nat :=
  optCount a.dflt.given + optCount (listOpt options) + optCount (nonempty a.group) + optCount (nonempty a.desc) +
    optCount (nonempty a.role) + optCount (given a.hasStep a.step) + optCount (nonzero8 a.flags)

def renderingKeys (r : Rendering) : Nat :=
  optCount (given r.hasRank r.rank) + optCount (given r.hasAspect r.aspect) + optCount (given r.hasScope r.scope) +
    optCount (given r.hasProvenance r.provenance) + optCount (given r.hasUnitId r.unitId)

/-- The bits that have a name. -/
def namedBits (bits : List Bytes) : List (Bytes × Nat) := bits.zipIdx.filter fun b => b.1 ≠ []

def encodeLayoutField (w : CborWriter) (f : LayoutField) (bits options : List Bytes) : CborWriter :=
  let named := namedBits bits
  let w := w.mapHeader (4 + f.rangeKeys + optCount (listOpt named) + optCount (given f.hasSettingKey f.settingKey) +
    f.hintKeys options + renderingKeys f.toRendering)
  let w := (w.key 1).tstrVal f.name
  let w := (w.key 2).uintVal (packedTypes.idxOf f.type)
  let w := (w.key 3).tstrVal f.unit
  let w := (w.key 4).f32Val f.scale
  let w := encodeRange w f.toAnnotations
  let w := w.optKey 7 (listOpt named) fun w l => l.foldl (fun w b => (w.key b.2).tstrVal b.1) (w.mapHeader l.length)
  let w := optU8 8 w (given f.hasSettingKey f.settingKey)
  let w := encodeHints w f.toAnnotations options
  encodeRendering w f.toRendering

def levelVal (w : CborWriter) (a : AccessLevel) : CborWriter := w.uintVal (accessLevels.idxOf a)

def encodeSchemaField (w : CborWriter) (f : SchemaField) (options : List Bytes) (optionAccess : List AccessLevel) :
    CborWriter :=
  let w := w.mapHeader (3 + f.rangeKeys + f.hintKeys options + optCount (given f.hasAccess f.access) +
    optCount (listOpt optionAccess) + renderingKeys f.toRendering)
  let w := (w.key 1).tstrVal f.name
  let w := (w.key 2).uintVal (cborTypes.idxOf f.type)
  let w := (w.key 3).tstrVal f.unit
  let w := encodeRange w f.toAnnotations
  let w := encodeHints w f.toAnnotations options
  let w := w.optKey 16 (given f.hasAccess f.access) levelVal
  let w := w.optKey 17 (listOpt optionAccess) fun w l => l.foldl levelVal (w.arrayHeader l.length)
  encodeRendering w f.toRendering

def encodeStoreDescriptor (w : CborWriter) (d : StoreDescriptor) : CborWriter :=
  let w := w.mapHeader 5
  let w := (w.key 1).uintVal d.storeId.toNat
  let w := (w.key 2).tstrVal d.kind
  let w := (w.key 3).uintVal d.capacity.toNat
  let w := (w.key 4).uintVal d.perItemMax.toNat
  (w.key 5).uintVal d.nameMax.toNat

/-- The keys of a schema ascend on the wire.  Where two are the same the writer fails, whatever their order. -/
def byKey (l : List SchemaField) : List SchemaField := l.mergeSort fun a b => decide (a.key ≤ b.key)

/-- Keys 1 to 7. -/
def encodeFront (w : CborWriter) (e : CatalogEntry) : CborWriter :=
  let w := (w.key 1).uintVal e.id.toNat
  let w := (w.key 2).tstrVal e.name
  let w := (w.key 3).uintVal (classes.idxOf e.cls)
  let w := (w.key 4).uintVal (directions.idxOf e.dir)
  let w := (w.key 5).uintVal (accessLevels.idxOf e.access)
  let w := (w.key 6).f32Val e.maxRateHz
  (w.key 7).uintVal (priorities.idxOf e.defaultPriority)

/-- Keys 10 and 11. -/
def encodeCategory (w : CborWriter) (e : CatalogEntry) : CborWriter :=
  let w := optU8 10 w (given e.hasCategory e.category)
  w.optKey 11 (nonempty e.categoryLabel) tstrVal

/-- Keys 13 to 16. -/
def encodeBack (w : CborWriter) (e : CatalogEntry) : CborWriter :=
  let w := w.optKey 13 (given e.hasReplayDepth e.replayDepth) fun w v => w.uintVal v.toNat
  let w := w.optKey 14 (given e.hasSettingChannel e.settingChannel) fun w v => w.uintVal v.toNat
  let w := optU8 15 w (nonzero8 e.streamKind)
  optU8 16 w (given e.hasRank e.rank)

def CatalogEntry.categoryKeys (e : CatalogEntry) : Nat :=
  optCount (given e.hasCategory e.category) + optCount (nonempty e.categoryLabel)

def CatalogEntry.backKeys (e : CatalogEntry) : Nat :=
  optCount (given e.hasReplayDepth e.replayDepth) + optCount (given e.hasSettingChannel e.settingChannel) +
    optCount (nonzero8 e.streamKind) + optCount (given e.hasRank e.rank)

section

variable {caps : Capacities}

/-- Nothing is written for an entry whose payload cannot be read. -/
def encodeEntry (w : CborWriter) (c : BasicCatalog caps) (e : CatalogEntry) : CborWriter :=
  let layout := c.layoutFields e
  let schema := c.schemaFields e
  if CatalogEntry.kMaxFields < (match e.form with | .layout => layout.length | .schema => schema.length | .store => 0) then w
  else if e.form = .store ∧ c.storeDescriptor e = none then w
  else
    let w := encodeFront (w.mapHeader (8 + e.categoryKeys + e.backKeys)) e
    let w := match e.form with
      | .layout =>
        layout.foldl (fun w f => encodeLayoutField w f (c.bitLabels f) (c.optionLabels f.toAnnotations))
          ((w.key 8).arrayHeader layout.length)
      | .schema =>
        (byKey schema).foldl
          (fun w f => encodeSchemaField (w.key f.key.toNat) f (c.optionLabels f.toAnnotations) (c.optionAccess f))
          ((w.key 9).mapHeader schema.length)
      | .store => w
    let w := encodeCategory w e
    let w := match e.form with
      | .store => w.optKey 12 (c.storeDescriptor e) encodeStoreDescriptor
      | _ => w
    encodeBack w e

/-- The payload of an entry can be read in full. -/
def resolves (c : BasicCatalog caps) (e : CatalogEntry) : Bool :=
  match e.form with
  | .layout => (c.layoutFields e).length == e.fieldCount.toNat
  | .schema => (c.schemaFields e).length == e.fieldCount.toNat
  | .store => (c.storeDescriptor e).isSome

def encodeEntries (c : BasicCatalog caps) (room : Nat) : List CatalogEntry → Bytes → Option Bytes
  | [], out => some out
  | e :: es, out =>
    if CatalogEntry.kMaxFields < e.fieldCount.toNat then none
    else if room < out.length then none
    else if ¬resolves c e then none
    else do
      let bs ← (encodeEntry { cap := room - out.length } c e).result
      if bs = [] then none
      else if catalogMaxEntryBytes < bs.length then none
      else encodeEntries c room es (out ++ bs)

/-- The identifiers ascend, each above the one before. -/
def ascending : List CatalogEntry → Bool
  | e :: e' :: es => decide (e.id < e'.id) && ascending (e' :: es)
  | _ => true

/-- Into a buffer with room for so many bytes. -/
def encodeCatalog (c : BasicCatalog caps) (room : Nat) : Option Bytes :=
  if ¬ascending c.entries.live then none
  else do
    let header ← (arrayHeader { cap := 9 } c.entries.used.toNat).result
    if header = [] ∨ room < header.length then none else encodeEntries c room c.entries.live header

end

/-! ## Decoders -/

/-- A text of one to `max` bytes. -/
def label (max : Nat) : CborDecoder Bytes :=
  tstr.andThen fun s => if s = [] ∨ max < s.length then .error .malformed else .ok s

def unitText : CborDecoder Bytes := tstr.andThen fun s => if 8 < s.length then .error .malformed else .ok s

def readInt : CborDecoder Int64 where
  read := CborReader.readInt
  ofTree
    | .uint n => some (Int64.ofNat n)
    | .negInt n => some (-1 - Int64.ofNat n)
    | _ => none
  takes := takes_readInt.congr (fun _ => rfl) (fun t => by cases t <;> rfl)

/-- By the type of the value; a float is tried before a truth value. -/
def decodeSettingDefault : CborDecoder SettingDefault :=
  byType fun
    | .uint | .negInt => readInt.andThen fun v =>
      if 2147483647 < v.toInt ∨ v.toInt < -2147483648 then .error .malformed else .ok (.int v.toInt32)
    | .textString => tstr.map .tstr
    | .simple => (f32.map .float).orElse (bool.map .bool) .malformed
    | _ => refuse .malformed

/-- A call on the pools that may fail. -/
def orFail {α : Type} (e : DecodeError) (o : Option α) : Except DecodeError α := o.elim (.error e) .ok

def pooled {α : Type} (o : Option α) : Except DecodeError α := orFail .capacityExceeded o

section

variable {caps : Capacities} {α : Type}

/-- Labels for the pool, and the reference to them. -/
def decodeOptions (c : BasicCatalog caps) : CborDecoder (LabelRef × BasicCatalog caps) :=
  array (fun n => n = 0 ∨ LabelRef.kMaxCount < n) .malformed (fun _ => c)
    (fun c => (label optionLabelMaxBytes).andThen fun text => pooled (c.poolAddLabel text))
    fun n c' => ({ offset := c.labelPool.used, count := UInt8.ofNat n }, c')

/-- Empty labels up to the bit, and its name. -/
def fillTo (c : BasicCatalog caps) (filled bit : Nat) (text : Bytes) : Option (BasicCatalog caps) :=
  match Pool.pushAll (List.replicate (bit - filled) { text := [] } ++ [{ text }]) c.labelPool with
  | (true, labelPool) => some { c with labelPool }
  | (false, _) => none

def decodeBits (c : BasicCatalog caps) : CborDecoder (LabelRef × BasicCatalog caps) :=
  mapOf (fun n => n = 0 ∨ 8 < n) .malformed (fun _ => (0, c))
    (fun bit s =>
      if 8 ≤ bit then refuse .malformed
      else (label 24).andThen fun text => (pooled (fillTo s.2 s.1 bit text)).map fun c => (max s.1 bit + 1, c))
    fun _ s => ({ offset := c.labelPool.used, count := UInt8.ofNat s.1 }, s.2)

/-- A field while it is read. -/
structure Reading (caps : Capacities) (α : Type) where
  field : α
  catalog : BasicCatalog caps
  gotName : Bool := false
  gotType : Bool := false
  gotUnit : Bool := false
  gotScale : Bool := false

def renderingKey (k : Nat) (r : Rendering) : CborDecoder Rendering :=
  if k = 19 then u8.map fun v => { r with rank := v, hasRank := true }
  else if k = 20 then u8.map fun v => { r with aspect := v, hasAspect := true }
  else if k = 21 then u8.map fun v => { r with scope := v, hasScope := true }
  else if k = 22 then u8.map fun v => { r with provenance := v, hasProvenance := true }
  else if k = 23 then u8.map fun v => { r with unitId := v, hasUnitId := true }
  else skip r

def annotationKey (k : Nat) (a : Annotations) : CborDecoder Annotations :=
  if k = 5 then f32.map fun v => { a with min := v, hasMin := true }
  else if k = 6 then f32.map fun v => { a with max := v, hasMax := true }
  else if k = 9 then decodeSettingDefault.map fun v => { a with dflt := v }
  else if k = 11 then (label 24).map fun v => { a with group := v }
  else if k = 12 then (label descMaxBytes).map fun v => { a with desc := v }
  else if k = 13 then (label 24).map fun v => { a with role := v }
  else if k = 14 then f32.map fun v => { a with step := v, hasStep := true }
  else if k = 15 then u8.map fun v => { a with flags := v }
  else (renderingKey k a.toRendering).map fun r => { a with toRendering := r }

/-- The keys that mean the same in both kinds of field. -/
def commonKey (k : Nat) (a : Annotations) (put : Annotations → α) (s : Reading caps α) : CborDecoder (Reading caps α) :=
  if k = 1 then (label 24).map fun v => { s with field := put { a with name := v }, gotName := true }
  else if k = 3 then unitText.map fun v => { s with field := put { a with unit := v }, gotUnit := true }
  else if k = 10 then (decodeOptions s.catalog).map fun v =>
    { s with field := put { a with options := v.1 }, catalog := v.2 }
  else (annotationKey k a).map fun a => { s with field := put a }

def layoutKey (k : Nat) (s : Reading caps LayoutField) : CborDecoder (Reading caps LayoutField) :=
  if k = 2 then (enum packedTypes).map fun v => { s with field := { s.field with type := v }, gotType := true }
  else if k = 4 then f32.map fun v => { s with field := { s.field with scale := v }, gotScale := true }
  else if k = 7 then (decodeBits s.catalog).map fun v => { s with field := { s.field with bits := v.1 }, catalog := v.2 }
  else if k = 8 then u8.map fun v => { s with field := { s.field with settingKey := v, hasSettingKey := true } }
  else commonKey k s.field.toAnnotations (fun a => { s.field with toAnnotations := a }) s

def decodeLayoutField (c : BasicCatalog caps) : CborDecoder (LayoutField × BasicCatalog caps) :=
  (record { field := {}, catalog := c } layoutKey).andThen fun s =>
    if s.gotName ∧ s.gotType ∧ s.gotUnit ∧ s.gotScale then .ok (s.field, s.catalog) else .error .malformed

/-- Levels for options that have come before. -/
def decodeOptionAccess (ref : LabelRef) (c : BasicCatalog caps) : CborDecoder (BasicCatalog caps) :=
  array (fun n => ref.count = 0 ∨ n ≠ ref.count.toNat) .malformed (fun _ => (0, c))
    (fun s => (enum accessLevels).andThen fun a =>
      (orFail .malformed (s.2.poolSetLabelAccess (UInt16.ofNat (ref.offset.toNat + s.1)) a)).map fun c => (s.1 + 1, c))
    fun _ s => s.2

def schemaKey (k : Nat) (s : Reading caps SchemaField) : CborDecoder (Reading caps SchemaField) :=
  if k = 2 then (enum cborTypes).map fun v => { s with field := { s.field with type := v }, gotType := true }
  else if k = 16 then (enum accessLevels).map fun v => { s with field := { s.field with access := v, hasAccess := true } }
  else if k = 17 then (decodeOptionAccess s.field.options s.catalog).map fun v =>
    { s with field := { s.field with hasOptionAccess := true }, catalog := v }
  else commonKey k s.field.toAnnotations (fun a => { s.field with toAnnotations := a }) s

def decodeSchemaField (c : BasicCatalog caps) (key : UInt8) : CborDecoder (SchemaField × BasicCatalog caps) :=
  (record { field := { key }, catalog := c } schemaKey).andThen fun s =>
    if s.gotName ∧ s.gotType ∧ s.gotUnit then .ok (s.field, s.catalog) else .error .malformed

/-- A descriptor while it is read. -/
structure StoreReading where
  store : StoreDescriptor := {}
  gotId : Bool := false
  gotKind : Bool := false
  gotCap : Bool := false
  gotItemMax : Bool := false
  gotNameMax : Bool := false

def storeKey (k : Nat) (s : StoreReading) : CborDecoder StoreReading :=
  if k = 1 then u8.map fun v => { s with store := { s.store with storeId := v }, gotId := true }
  else if k = 2 then (label 32).map fun v => { s with store := { s.store with kind := v }, gotKind := true }
  else if k = 3 then u16.map fun v => { s with store := { s.store with capacity := v }, gotCap := true }
  else if k = 4 then u32.map fun v => { s with store := { s.store with perItemMax := v }, gotItemMax := true }
  else if k = 5 then u16.map fun v => { s with store := { s.store with nameMax := v }, gotNameMax := true }
  else skip s

def decodeStoreDescriptor : CborDecoder StoreDescriptor :=
  (record {} storeKey).andThen fun s =>
    if s.gotId ∧ s.gotKind ∧ s.gotCap ∧ s.gotItemMax ∧ s.gotNameMax then .ok s.store else .error .malformed

def decodeLayout (c : BasicCatalog caps) : CborDecoder (Nat × BasicCatalog caps) :=
  array (fun n => n = 0 ∨ CatalogEntry.kMaxFields < n) .malformed (fun _ => c)
    (fun c => (decodeLayoutField c).andThen fun v => pooled (v.2.poolAddLayoutField v.1)) Prod.mk

def decodeSchema (c : BasicCatalog caps) : CborDecoder (Nat × BasicCatalog caps) :=
  mapOf (fun n => n = 0 ∨ CatalogEntry.kMaxFields < n) .malformed (fun _ => c)
    (fun k c =>
      if 0xFF < k then refuse .malformed
      else (decodeSchemaField c (UInt8.ofNat k)).andThen fun v => pooled (v.2.poolAddSchemaField v.1)) Prod.mk

/-- An entry while it is read. -/
structure EntryReading (caps : Capacities) where
  entry : CatalogEntry := {}
  catalog : BasicCatalog caps
  gotId : Bool := false
  gotName : Bool := false
  gotCls : Bool := false
  gotDir : Bool := false
  gotAccess : Bool := false
  gotRate : Bool := false
  gotPrio : Bool := false
  gotLayout : Bool := false
  gotSchema : Bool := false
  gotStore : Bool := false

def EntryReading.got (s : EntryReading caps) : FieldForm → Bool
  | .layout => s.gotLayout
  | .schema => s.gotSchema
  | .store => s.gotStore

/-- The keys that may be missing. -/
def optionalKey (k : Nat) (e : CatalogEntry) : CborDecoder CatalogEntry :=
  if k = 10 then u8.map fun v => { e with category := v, hasCategory := true }
  else if k = 11 then (label 24).map fun v => { e with categoryLabel := v }
  else if k = 13 then u16.map fun v => { e with replayDepth := v, hasReplayDepth := true }
  else if k = 14 then u16.map fun v => { e with settingChannel := v, hasSettingChannel := true }
  else if k = 15 then u8.map fun v => { e with streamKind := v }
  else if k = 16 then u8.map fun v => { e with rank := v, hasRank := true }
  else skip e

def headerKey (k : Nat) (s : EntryReading caps) : CborDecoder (EntryReading caps) :=
  let e := s.entry
  if k = 1 then u16.map fun v => { s with entry := { e with id := v }, gotId := true }
  else if k = 2 then (label 32).map fun v => { s with entry := { e with name := v }, gotName := true }
  else if k = 3 then (enum classes).map fun v => { s with entry := { e with cls := v }, gotCls := true }
  else if k = 4 then (enum directions).map fun v => { s with entry := { e with dir := v }, gotDir := true }
  else if k = 5 then (enum accessLevels).map fun v => { s with entry := { e with access := v }, gotAccess := true }
  else if k = 6 then f32.map fun v => { s with entry := { e with maxRateHz := v }, gotRate := true }
  else if k = 7 then (enum priorities).map fun v => { s with entry := { e with defaultPriority := v }, gotPrio := true }
  else (optionalKey k e).map fun e => { s with entry := e }

/-- The payload begins where the pool of its form ended before the entry, in `c₀`. -/
def entryKey (c₀ : BasicCatalog caps) (k : Nat) (s : EntryReading caps) : CborDecoder (EntryReading caps) :=
  let e := s.entry
  if k = 8 then
    if s.gotSchema ∨ s.gotStore then refuse .malformed
    else (decodeLayout s.catalog).map fun v =>
      { s with entry := { e with fieldOffset := c₀.layoutPool.used, fieldCount := UInt8.ofNat v.1 }, catalog := v.2,
               gotLayout := true }
  else if k = 9 then
    if s.gotLayout ∨ s.gotStore then refuse .malformed
    else (decodeSchema s.catalog).map fun v =>
      { s with entry := { e with fieldOffset := c₀.schemaPool.used, fieldCount := UInt8.ofNat v.1 }, catalog := v.2,
               gotSchema := true }
  else if k = 12 then
    if s.gotLayout ∨ s.gotSchema then refuse .malformed
    else decodeStoreDescriptor.andThen fun d => (pooled (s.catalog.poolAddStore d)).map fun c =>
      { s with entry := { e with fieldOffset := c₀.storePool.used, fieldCount := 1 }, catalog := c, gotStore := true }
  else headerKey k s

/-- All that must be there is, and one payload, the one of the class. -/
def EntryReading.complete (s : EntryReading caps) : Bool :=
  s.gotId && s.gotName && s.gotCls && s.gotDir && s.gotAccess && s.gotRate && s.gotPrio &&
    decide (s.gotLayout.toNat + s.gotSchema.toNat + s.gotStore.toNat = 1) && s.got s.entry.form

def decodeEntry (c : BasicCatalog caps) : CborDecoder (CatalogEntry × BasicCatalog caps) :=
  (record { catalog := c } (entryKey c)).andThen fun s =>
    if s.complete then .ok (s.entry, s.catalog) else .error .malformed

/-- `n` entries from `pos` on, with identifiers above `prevId`. -/
def decodeEntries (bs : Bytes) : Nat → Nat → Option UInt16 → BasicCatalog caps → Except DecodeError (BasicCatalog caps)
  | 0, _, _, c => .ok c
  | n + 1, pos, prevId, c =>
    if bs.length < pos then .error .truncated
    else do
      let window := (bs.drop pos).take catalogMaxEntryBytes
      let ((e, c), r) ← (decodeEntry c).read { rest := window }
      if prevId.any (e.id ≤ ·) then .error .malformed
      else
        let c ← pooled (c.addEntryVerbatim e)
        decodeEntries bs n (pos + (window.length - r.rest.length)) (some e.id) c

/-- Into `c`, whose contents are discarded. -/
def decodeCatalog (bs : Bytes) (c : BasicCatalog caps) : Except DecodeError (BasicCatalog caps) := do
  let (n, r) ← readArrayHeader { rest := bs }
  if caps.entries < n then .error .capacityExceeded
  else decodeEntries bs n (bs.length - r.rest.length) none c.clear

end

end SlopSync.Builder
