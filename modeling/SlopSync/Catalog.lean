import SlopSync.Messages

/-! # The channel catalog

The resolved view of `channel/catalog.hpp`: what the hub reads of each entry, with the pools the source
indexes by offset replaced by the fields themselves. -/

namespace SlopSync

inductive Direction
  | h2c | c2h
  deriving DecidableEq, Repr

/-- One key of an INTENT or EVENT schema. -/
structure SchemaField where
  key : UInt8
  access : Option AccessLevel := none
  optionAccess : Option (List AccessLevel) := none
  deriving DecidableEq, Repr

structure StoreDescriptor where
  storeId : UInt8
  deriving DecidableEq, Repr

structure CatalogEntry where
  id : UInt16
  cls : ChannelClass
  dir : Direction := .h2c
  access : AccessLevel := .watch
  maxRateHz : F32 := 0
  defaultPriority : Priority := .normal
  replayDepth : Option Nat := none
  segments : Bool := false           -- `stream_kinds::segments`
  layoutWireSize : Nat := 0
  schema : List SchemaField := []
  store : Option StoreDescriptor := none
  deriving DecidableEq, Repr

abbrev Catalog := List CatalogEntry

def Catalog.find (c : Catalog) (id : UInt16) : Option CatalogEntry :=
  List.find? (fun e => e.id == id) c

/-- Only a STREAM channel can be segment-class. -/
def CatalogEntry.isSegmentClass (e : CatalogEntry) : Bool :=
  e.cls == .stream && e.segments

def CatalogEntry.usesSchema (e : CatalogEntry) : Bool :=
  e.cls == .intent || e.cls == .event

def AccessLevel.raise (need a : AccessLevel) : AccessLevel := if need < a then a else need

/-- The level one value of an intent asks for: its field's own level, and for an enumerated field the
level of the option named, or the strictest declared one when the option is unknown. -/
def raiseForValue (schema : List SchemaField) (need : AccessLevel) (f : IntentValueField) : AccessLevel :=
  match schema.find? (fun sf => sf.key == f.key) with
  | none => need
  | some sf =>
    let need := match sf.access with
      | none => need
      | some a => need.raise a
    match sf.optionAccess, f.value with
    | some oa, .u64 idx =>
      match oa[idx.toNat]? with
      | some a => need.raise a
      | none => oa.foldl AccessLevel.raise need
    | _, _ => need

/-- `Hub::requiredAccessFor`. -/
def CatalogEntry.requiredAccessFor (e : CatalogEntry) (value : IntentValueMap) : AccessLevel :=
  if !e.usesSchema then e.access else value.foldl (raiseForValue e.schema) e.access

/-! ## Stream bundles -/

/-- A parsed STREAM bundle. -/
structure BundleView where
  tBase : UInt32
  tOffs : List UInt16
  samples : List Bytes
  deriving DecidableEq, Repr

def BundleView.sampleCount (b : BundleView) : Nat := b.tOffs.length

/-- Little-endian value of a byte list. -/
def leNat : Bytes → Nat
  | [] => 0
  | b :: bs => b.toNat + 256 * leNat bs

/-- `n` consecutive pieces of `k` bytes. -/
def pieces (k : Nat) : Nat → Bytes → List Bytes
  | 0, _ => []
  | n + 1, bs => bs.take k :: pieces k n (bs.drop k)

/-- The first offset is zero and each later one is above the previous. -/
def offsetsIncrease : List UInt16 → Bool
  | [] => true
  | t :: ts => t == 0 && go t ts
where
  go : UInt16 → List UInt16 → Bool
    | _, [] => true
    | last, t :: ts => decide (last < t) && go t ts

/-- `BundleView::parse`: the caps of a bundle are checked before anything is built. -/
def BundleView.parse (bs : Bytes) (sampleSize : Nat) : Option BundleView :=
  if bs.length < 6 then none
  else
    let tBase := UInt32.ofNat (leNat (bs.take 4))
    let n := leNat ((bs.drop 4).take 1)
    if Limits.bundleMaxSamples < n then none
    else if bs.length < 6 + 2 * n then none
    else
      let tOffs := (pieces 2 n (bs.drop 6)).map (fun b => UInt16.ofNat (leNat b))
      if !offsetsIncrease tOffs then none
      else if tOffs.getLast?.any (fun t => decide (Limits.bundleMaxSpanMs * 1000 < t.toNat)) then none
      else if bs.length < 6 + 2 * n + n * sampleSize then none
      else some { tBase, tOffs, samples := pieces sampleSize n (bs.drop (6 + 2 * n)) }

end SlopSync
