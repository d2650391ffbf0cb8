import SlopSync.Catalog
import SlopSync.Js.OrderedMap
import SlopSync.Js.Int32

/-! # The catalog of the JavaScript client

What `decodeCatalog` makes of an entry, as far as the client asks it for access levels.  Levels are the numbers of the
wire: nothing holds them to the three that have names. -/

namespace SlopSync.Js

structure SchemaField where
  key : Nat
  access : Option Nat := none
  optionAccess : Option (List Nat) := none
  deriving DecidableEq, Repr

structure ChannelEntry where
  id : Nat
  cls : Nat := 0
  access : Nat := 0
  layout : Bool := false             -- it has one
  schema : Option (List SchemaField) := none
  deriving DecidableEq, Repr

/-- A later entry hides an earlier one of the same id. -/
def catalogChannelMap (entries : List ChannelEntry) : OrderedMap Nat ChannelEntry :=
  OrderedMap.ofList ChannelEntry.id entries

def schemaByKey (entry : Option ChannelEntry) : OrderedMap Nat SchemaField :=
  OrderedMap.ofList SchemaField.key ((entry.bind ChannelEntry.schema).getD [])

def optionAccessFor (entry : Option ChannelEntry) (key optionValue : Nat) : Nat :=
  match entry with
  | none => 0
  | some e =>
    let f := (schemaByKey entry).get key
    let floor := (f.bind SchemaField.access).getD e.access
    match f.bind SchemaField.optionAccess with
    | none => floor
    | some levels => levels[optionValue]?.getD floor

def canUseOption (entry : Option ChannelEntry) (key optionValue : Nat) (roles : Int) : Bool :=
  decide ((optionAccessFor entry key optionValue : Int) ≤ toInt32 roles)

end SlopSync.Js

namespace SlopSync

/-- The wire value. -/
def ChannelClass.code : ChannelClass → Nat
  | .state => 0 | .stream => 1 | .intent => 2 | .event => 3 | .store => 4

/-- A schema field as a client decodes it.  An empty vector of option levels is not written. -/
def SchemaField.decoded (f : SchemaField) : Js.SchemaField where
  key := f.key.toNat
  access := f.access.map AccessLevel.rank
  optionAccess := (f.optionAccess.filter (fun levels => !levels.isEmpty)).map (·.map AccessLevel.rank)

/-- An entry as a client decodes it, when the encoder has sorted its schema like this.  The sort goes by key and promises
no order of equal keys. -/
def CatalogEntry.decoded (e : CatalogEntry) (sorted : List SchemaField) : Js.ChannelEntry where
  id := e.id.toNat
  cls := e.cls.code
  access := e.access.rank
  layout := e.cls == .state || e.cls == .stream
  schema := if e.usesSchema then some (sorted.map SchemaField.decoded) else none

end SlopSync
