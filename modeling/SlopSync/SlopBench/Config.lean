import SlopSync.CNumbers
import SlopSync.Packed
import SlopSync.SlopBench.Hub

/-! # The configuration of the bench hub

`hub/slopbench/src/config/ConfigParser.cpp` with the records of `ConfigTypes.h`.  A byte of the file is the character of its
number.  An `unsigned long` has `bits` bits, 32 or 64 by the platform. -/

namespace SlopSync.BenchConfig

open SlopBench (ClassKind SchemaKind)

abbrev Token := List Char

/-! ## The records -/

inductive AccessKind
  | watch | control | configure
  deriving DecidableEq, Repr

inductive AnimKind
  | none | sine | ramp
  deriving DecidableEq, Repr

/-- A flag and the value it guards are an option. -/
structure FieldConfig where
  name : Token
  layoutType : PackedFieldType := .f32
  schemaType : SchemaKind := .f32
  unit : Token := []
  min : Option F32 := none
  max : Option F32 := none
  defaultValue : Option F32 := none
  key : Option UInt8 := none
  anim : AnimKind := .none
  animHz : F32 := 0
  animA : F32 := 0
  animB : F32 := 0
  deriving DecidableEq, Repr

structure ChannelConfig where
  id : UInt16
  name : Token
  cls : ClassKind
  access : AccessKind := .watch
  rateHz : F32 := 0
  category : Token := []
  writes : Option UInt16 := none
  echoDelay : Option UInt32 := none
  storeKind : Token := []
  storeCapacity : UInt16 := 0
  storePerItemMax : UInt32 := 0
  storeNameMax : UInt16 := 0
  fields : List FieldConfig := []
  deriving DecidableEq, Repr

structure HubConfig where
  name : Token := "slopbench".toList
  fwVersion : Token := "0.1.0".toList
  product : Token := "SlopBench".toList
  echoDelayMs : UInt32 := 0
  channels : List ChannelConfig := []
  deriving DecidableEq, Repr

def HubConfig.find (cfg : HubConfig) (id : UInt16) : Option ChannelConfig := cfg.channels.find? fun c => c.id = id

/-! ## Small helpers -/

def trim (s : List Char) : List Char :=
  let blank := fun c => c ∈ [' ', '\t', '\r', '\n']
  ((s.dropWhile blank).reverse.dropWhile blank).reverse

def tokenize (line : List Char) : List Token := (line.splitOnP isSpace).filter (· ≠ [])

/-- A token that is read as hexadecimal. -/
def hasHexPrefix (s : Token) : Bool := 2 < s.length && s[0]? = some '0' && (s[1]? = some 'x' || s[1]? = some 'X')

/-- The value, and whether all of the string was read. -/
def parseUintTok (bits : Nat) (s : Token) : UInt32 × Bool :=
  if s = [] then (0, false)
  else
    let (v, rest) := strtoul bits (if hasHexPrefix s then 16 else 10) (cString s)
    (UInt32.ofNat v, rest = [])

def parseFloatTok (s : Token) : F32 × Bool :=
  if s = [] then (0, false)
  else
    let (v, rest) := strtof (cString s)
    (v, rest = [])

def layoutKindNames (s : Token) : Option PackedFieldType :=
  [("u8", .u8), ("i8", .i8), ("u16", .u16), ("i16", .i16), ("u32", .u32), ("i32", .i32), ("f32", .f32),
    ("bitfield8", .bitfield8), ("str16", .str16), ("str32", .str32), ("str64", .str64)].lookup (String.ofList s)

def schemaKindNames (s : Token) : Option SchemaKind :=
  [("uint", .uint), ("int", .int), ("f32", .f32), ("bool", .bool), ("tstr", .tstr), ("bstr", .bstr)].lookup
    (String.ofList s)

def classFromKeyword (kw : Token) : Option ClassKind :=
  [("state", .state), ("intent", .intent), ("event", .event), ("stream", .stream), ("store", .store)].lookup
    (String.ofList kw)

/-! ## Failures -/

/-- `undefined`: the first token of a line without tokens is read. -/
inductive Failure
  | undefined
  | error (message : String)
  deriving DecidableEq, Repr

/-- The file and the line. -/
structure Place where
  path : String
  lineNo : Nat

def quoted (s : Token) : String := "'" ++ String.ofList s ++ "'"

def hex (n : Nat) : String := String.ofList (Nat.toDigits 16 n)

/-- `ParseState::fail` -/
def Place.fail {α : Type} (p : Place) (msg : String) : Except Failure α :=
  .error (.error (p.path ++ ":" ++ toString p.lineNo ++ ": " ++ msg))

/-- An error of the loop itself. -/
def Place.failLine {α : Type} (p : Place) (msg : String) : Except Failure α :=
  .error (.error ("line " ++ toString p.lineNo ++ ": " ++ msg))

/-! ## Fields -/

def isLayoutClass (cls : ClassKind) : Bool := cls = .state ∨ cls = .stream

/-- The key and the value of an attribute. -/
def splitAttr (t : Token) : Token × Token := (t.takeWhile (· ≠ '='), (t.dropWhile (· ≠ '=')).drop 1)

def parseAttr (bits : Nat) (p : Place) (f : FieldConfig) (t : Token) : Except Failure FieldConfig :=
  if '=' ∈ t then
    let (key, val) := splitAttr t
    if key = "key".toList then
      let (v, ok) := parseUintTok bits val
      if !ok ∨ 0xFF < v then p.fail "field key=... must be 0..255" else .ok { f with key := some v.toUInt8 }
    else if key = "default".toList then
      let (v, ok) := parseFloatTok val
      if !ok then p.fail ("field default=... is not a number: " ++ quoted val)
      else .ok { f with defaultValue := some v }
    else p.fail ("unknown field attribute '" ++ String.ofList key ++ "='")
  else
    let (v, ok) := parseFloatTok t
    if !ok then p.fail ("field: unexpected token " ++ quoted t ++ " (expected min/max number or key=/default=)")
    else if f.min.isNone then .ok { f with min := some v }
    else if f.max.isNone then .ok { f with max := some v }
    else p.fail "field: too many bare numbers (min and max already set)"

/-- The field of a name, a type and a unit. -/
def newField (p : Place) (cls : ClassKind) (name typeStr unit : Token) : Except Failure FieldConfig :=
  let f : FieldConfig := { name, unit := if unit = ['-'] then [] else unit }
  if isLayoutClass cls then
    match layoutKindNames typeStr with
    | none => p.fail ("unknown STATE/STREAM field type " ++ quoted typeStr)
    | some layoutType => .ok { f with layoutType }
  else
    match schemaKindNames typeStr with
    | none => p.fail ("unknown INTENT/EVENT field type " ++ quoted typeStr)
    | some schemaType => .ok { f with schemaType }

/-- What is checked of a field at the end of its line. -/
def checkField (p : Place) (cls : ClassKind) (f : FieldConfig) : Except Failure Unit :=
  if f.min.isSome ≠ f.max.isSome then p.fail "field: min and max must both be given, or neither"
  else if isLayoutClass cls = false ∧ f.key.isNone then
    p.fail ("INTENT/EVENT field " ++ quoted f.name ++ " needs key=N (the wire sub-map key)")
  else if isLayoutClass cls = true ∧ f.key.isSome then
    p.fail ("field " ++ quoted f.name ++ ": key= only applies to INTENT/EVENT fields")
  else .ok ()

def parseFieldLine (bits : Nat) (p : Place) (ch : ChannelConfig) (tok : List Token) : Except Failure ChannelConfig :=
  if ch.cls = .store then p.fail "store channels declare no fields (use kind/capacity/per_item_max/name_max)"
  else match tok with
    | _ :: name :: typeStr :: unit :: attrs =>
      if name ∈ ch.fields.map FieldConfig.name then
        p.fail ("duplicate field name " ++ quoted name ++ " in this channel")
      else do
        let f ← newField p ch.cls name typeStr unit
        let f ← attrs.foldlM (parseAttr bits p) f
        checkField p ch.cls f
        .ok { ch with fields := ch.fields ++ [f] }
    | _ => p.fail "field needs at least: field <name> <type> <unit>"

/-! ## Properties -/

def animKindOf (s : Token) : Option AnimKind :=
  if s = "sine".toList then some .sine else if s = "ramp".toList then some .ramp else none

def FieldConfig.animate (kind : AnimKind) (hz p2 p3 : F32) (f : FieldConfig) : FieldConfig :=
  { f with anim := kind, animHz := hz, animA := p2, animB := p3 }

def parseAnimateLine (p : Place) (ch : ChannelConfig) (tok : List Token) : Except Failure ChannelConfig :=
  if ch.cls ≠ .state then p.fail "animate is only meaningful on a state channel"
  else match tok with
    | [_, name, kindStr, hzStr, p2Str, p3Str] =>
      match ch.fields.findIdx? fun f => f.name = name with
      | none =>
        p.fail ("animate: no field " ++ quoted name ++ " declared yet in this channel (declare it before animating it)")
      | some j =>
        match animKindOf kindStr with
        | none => p.fail ("animate: kind must be 'sine' or 'ramp', got " ++ quoted kindStr)
        | some kind =>
          let (hz, ok1) := parseFloatTok hzStr
          let (p2, ok2) := parseFloatTok p2Str
          let (p3, ok3) := parseFloatTok p3Str
          if !ok1 ∨ !ok2 ∨ !ok3 then p.fail "animate: hz/p2/p3 must all be numbers"
          else .ok { ch with fields := ch.fields.modify j (FieldConfig.animate kind hz p2 p3) }
    | _ => p.fail "animate needs: animate <field> <sine|ramp> <hz> <p2> <p3>"

/-- `some` limit is the largest value that is taken. -/
def parseBounded (bits : Nat) (p : Place) (limit : Option UInt32) (v : Token) (msg : String) : Except Failure UInt32 :=
  let (n, ok) := parseUintTok bits v
  if !ok ∨ limit.any (· < n) then p.fail msg else .ok n

/-- A property that only one class of channels has. -/
def onlyFor (p : Place) (cls : ClassKind) (ch : ChannelConfig) (msg : String) : Except Failure Unit :=
  if ch.cls ≠ cls then p.fail msg else .ok ()

def parseChannelProp (bits : Nat) (p : Place) (ch : ChannelConfig) (tok : List Token) : Except Failure ChannelConfig :=
  match tok with
  | [] => .error .undefined
  | kw :: args =>
    if kw = "field".toList then parseFieldLine bits p ch tok
    else if kw = "animate".toList then parseAnimateLine p ch tok
    else match args with
      | [v] =>
        if kw = "category".toList then .ok { ch with category := v }
        else if kw = "rate_hz".toList then
          let (rateHz, ok) := parseFloatTok v
          if !ok then p.fail "rate_hz is not a number" else .ok { ch with rateHz }
        else if kw = "access".toList then
          if v = "watch".toList then .ok { ch with access := .watch }
          else if v = "control".toList then .ok { ch with access := .control }
          else if v = "configure".toList then .ok { ch with access := .configure }
          else p.fail ("access must be watch|control|configure, got " ++ quoted v)
        else if kw = "writes".toList then do
          onlyFor p .intent ch "'writes' only applies to an intent channel"
          let id ← parseBounded bits p (some 0xFFFF) v ("writes: bad channel id " ++ quoted v)
          .ok { ch with writes := some id.toUInt16 }
        else if kw = "echo_delay_ms".toList then do
          onlyFor p .intent ch "'echo_delay_ms' at channel scope only applies to an intent channel"
          let ms ← parseBounded bits p none v "echo_delay_ms is not an integer"
          .ok { ch with echoDelay := some ms }
        else if kw = "kind".toList then do
          onlyFor p .store ch "'kind' only applies to a store channel"
          .ok { ch with storeKind := v }
        else if kw = "capacity".toList then do
          onlyFor p .store ch "'capacity' only applies to a store channel"
          let n ← parseBounded bits p (some 0xFFFF) v "capacity is not a valid u16"
          .ok { ch with storeCapacity := n.toUInt16 }
        else if kw = "per_item_max".toList then do
          onlyFor p .store ch "'per_item_max' only applies to a store channel"
          let n ← parseBounded bits p none v "per_item_max is not an integer"
          .ok { ch with storePerItemMax := n }
        else if kw = "name_max".toList then do
          onlyFor p .store ch "'name_max' only applies to a store channel"
          let n ← parseBounded bits p (some 0xFFFF) v "name_max is not a valid u16"
          .ok { ch with storeNameMax := n.toUInt16 }
        else p.fail ("unknown channel property " ++ quoted kw)
      | _ => p.fail (quoted kw ++ " takes exactly one value")

def parseHubProp (bits : Nat) (p : Place) (cfg : HubConfig) (tok : List Token) : Except Failure HubConfig :=
  match tok with
  | [] => .error .undefined
  | [kw, v] =>
    if kw = "name".toList then .ok { cfg with name := v }
    else if kw = "fw_version".toList then .ok { cfg with fwVersion := v }
    else if kw = "product".toList then .ok { cfg with product := v }
    else if kw = "echo_delay_ms".toList then do
      let ms ← parseBounded bits p none v "echo_delay_ms is not an integer"
      .ok { cfg with echoDelayMs := ms }
    else p.fail ("unknown hub property " ++ quoted kw)
  | kw :: _ => p.fail (quoted kw ++ " takes exactly one value")

/-! ## Lines -/

/-- Where the lines belong; a channel by its index. -/
inductive Mode
  | none
  | hub
  | channel (i : Nat)
  deriving DecidableEq, Repr

structure ParseState where
  out : HubConfig := {}
  mode : Mode := .none
  lineNo : Nat := 0
  deriving DecidableEq, Repr

def parseBlock (bits : Nat) (p : Place) (cls : ClassKind) (kw : Token) (args : List Token) : Except Failure ChannelConfig :=
  match args with
  | [idStr, name] =>
    let (id, ok) := parseUintTok bits idStr
    if !ok ∨ 0xFFFF < id then p.failLine ("bad channel id " ++ quoted idStr)
    else .ok { id := id.toUInt16, name, cls }
  | _ => p.failLine (quoted kw ++ " needs: " ++ String.ofList kw ++ " <id> <name>")

/-- A line that is not empty, by its tokens. -/
def parseTokens (bits : Nat) (p : Place) (st : ParseState) (tok : List Token) : Except Failure ParseState :=
  match tok with
  | [] => .error .undefined
  | kw :: args =>
    if kw = "hub".toList then .ok { st with mode := .hub }
    else match classFromKeyword kw with
      | some cls => do
        let ch ← parseBlock bits p cls kw args
        .ok { st with
          out := { st.out with channels := st.out.channels ++ [ch] }
          mode := .channel st.out.channels.length }
      | none =>
        match st.mode with
        | .hub => do
          let out ← parseHubProp bits p st.out tok
          .ok { st with out }
        | .channel i =>
          match st.out.channels[i]? with
          | none => .error .undefined
          | some ch => do
            let ch ← parseChannelProp bits p ch tok
            .ok { st with out := { st.out with channels := st.out.channels.set i ch } }
        | .none => p.failLine (quoted kw ++ " outside any hub/state/intent/event/stream/store block")

/-- A line without its comment and the blanks around it. -/
def content (rawLine : List Char) : List Char := trim (rawLine.takeWhile (· ≠ '#'))

def parseLine (bits : Nat) (path : String) (st : ParseState) (rawLine : List Char) : Except Failure ParseState :=
  let st := { st with lineNo := st.lineNo + 1 }
  if content rawLine = [] then .ok st
  else parseTokens bits ⟨path, st.lineNo⟩ st (tokenize (content rawLine))

/-! ## Cross references -/

def failConfig {α : Type} (msg : String) : Except Failure α := .error (.error msg)

/-- The keys of the fields ascend, from above `lastKey` on. -/
def validateKeys (ch : ChannelConfig) : Option UInt8 → List FieldConfig → Except Failure Unit
  | _, [] => .ok ()
  | lastKey, f :: fields =>
    let key := f.key.getD 0
    match lastKey with
    | some last =>
      if key ≤ last then
        failConfig ("channel " ++ quoted ch.name ++ ": field keys must be strictly ascending (" ++ quoted f.name ++ " key=" ++
          toString key.toNat ++ " does not follow key=" ++ toString last.toNat ++ ")")
      else validateKeys ch (some key) fields
    | none => validateKeys ch (some key) fields

def validateFields (ch : ChannelConfig) : Except Failure Unit :=
  if ch.cls = .intent ∨ ch.cls = .event then validateKeys ch none ch.fields else .ok ()

def validateIds : List UInt16 → List ChannelConfig → Except Failure Unit
  | _, [] => .ok ()
  | seenIds, ch :: channels =>
    if ch.id < 0x0080 then
      failConfig ("channel " ++ quoted ch.name ++ " (id 0x" ++ hex ch.id.toNat ++
        ") is in the spec-core range 0x0001-0x007F, reserved by the protocol")
    else if ch.id ∈ seenIds then failConfig ("duplicate channel id 0x" ++ hex ch.id.toNat)
    else do
      validateFields ch
      validateIds (ch.id :: seenIds) channels

def validateWrites (cfg : HubConfig) : List ChannelConfig → Except Failure Unit
  | [] => .ok ()
  | ch :: channels =>
    if ch.cls ≠ .intent then validateWrites cfg channels
    else match ch.writes with
      | none => validateWrites cfg channels
      | some id =>
        match cfg.find id with
        | none => failConfig ("intent " ++ quoted ch.name ++ ": writes targets unknown channel id 0x" ++ hex id.toNat)
        | some target =>
          if target.cls ≠ .state then
            failConfig ("intent " ++ quoted ch.name ++ ": writes target " ++ quoted target.name ++ " is not a state channel")
          else validateWrites cfg channels

def validate (cfg : HubConfig) : Except Failure Unit := do
  validateIds [] cfg.channels
  validateWrites cfg cfg.channels

/-! ## The file -/

/-- The lines, as `std::getline` finds them; behind a last newline there may be one more, which is empty. -/
def lines (text : List Char) : List (List Char) := text.splitOn '\n'

/-- `none` is a file that cannot be opened. -/
def loadConfigFile (bits : Nat) (path : String) (file : Option (List Char)) : Except Failure HubConfig :=
  match file with
  | none => failConfig ("cannot open '" ++ path ++ "'")
  | some text => do
    let st ← (lines text).foldlM (parseLine bits path) {}
    validate st.out
    .ok st.out

end SlopSync.BenchConfig
