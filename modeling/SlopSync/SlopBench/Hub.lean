import Mathlib.Logic.Function.Basic
import SlopSync.Keyed
import SlopSync.Messages
import SlopSync.Packed
import SlopSync.Serial

/-! # The bench hub

`hub/slopbench/src/hub/BenchHub.cpp`: the tables it builds from a configuration, the intents it applies and the STATE
payloads it publishes.  An accepted value is echoed at once and shown later: `applyIntent` queues a mirror, and the tick
that finds it due writes the field and publishes the channel.

The parallel vectors `values` and `strValues` of a channel are the fields of its `FieldRuntime`s.  What an animation
computes is a function of the field and of the time since the start, handed in as `anim`. -/

namespace SlopSync.SlopBench

/-! ## Configurations -/

inductive ClassKind
  | state | intent | event | stream | store
  deriving DecidableEq, Repr

inductive SchemaKind
  | uint | int | f32 | bool | tstr | bstr
  deriving DecidableEq, Repr

/-- `layoutType` means something in a STATE or STREAM channel, `schemaType` and `key` in an INTENT or EVENT channel. -/
structure FieldConfig where
  name : String
  layoutType : PackedFieldType := .f32
  schemaType : SchemaKind := .f32
  min : Option UInt32 := none
  max : Option UInt32 := none
  defaultValue : Option UInt32 := none
  key : UInt8 := 0
  animated : Bool := false
  deriving DecidableEq, Repr

def FieldConfig.isStringLayout (f : FieldConfig) : Bool := f.layoutType.isString

def FieldConfig.isNumericSchema (f : FieldConfig) : Bool :=
  f.schemaType == .uint || f.schemaType == .int || f.schemaType == .f32

structure ChannelConfig where
  id : UInt16
  name : String
  cls : ClassKind
  writesChannelId : Option UInt16 := none
  echoDelayMs : Option UInt32 := none
  fields : List FieldConfig := []
  deriving DecidableEq, Repr

/-- `loadConfigFile` refuses a configuration that declares a channel id twice. -/
structure HubConfig where
  echoDelayMs : UInt32 := 0
  channels : List ChannelConfig := []
  distinct : (channels.map ChannelConfig.id).Nodup := by decide

/-! ## Runtime tables -/

/-- A field of a STATE channel with its values. -/
structure FieldRuntime where
  cfg : FieldConfig
  value : UInt32
  strValue : Bytes := []
  deriving DecidableEq, Repr

structure StateRuntime where
  id : UInt16
  fields : List FieldRuntime
  dirty : Bool := false
  deriving DecidableEq, Repr

/-- The STATE field an intent field is mirrored to. -/
structure MirrorTarget where
  stateId : UInt16
  fieldIndex : Nat
  isString : Bool
  deriving DecidableEq, Repr

structure IntentFieldLink where
  key : UInt8
  numeric : Bool
  min : Option UInt32
  max : Option UInt32
  target : Option MirrorTarget
  deriving DecidableEq, Repr

structure IntentRuntime where
  id : UInt16
  echoDelayMs : UInt32
  fields : List IntentFieldLink
  deriving DecidableEq, Repr

structure PendingMirror where
  stateId : UInt16
  fieldIndex : Nat
  isString : Bool
  value : UInt32 := 0
  strValue : Bytes := []
  dueMs : UInt32
  deriving DecidableEq, Repr

structure BenchHub where
  states : List StateRuntime
  intents : List IntentRuntime
  pending : List PendingMirror := []
  published : UInt16 → Option Bytes := fun _ => none   -- the payload last handed to `publishState`

/-- A field that declares no default starts at zero. -/
def FieldConfig.runtime (f : FieldConfig) : FieldRuntime := ⟨f, f.defaultValue.getD 0, []⟩

def ChannelConfig.state (ch : ChannelConfig) : StateRuntime := ⟨ch.id, ch.fields.map FieldConfig.runtime, false⟩

def buildStates (cfg : HubConfig) : List StateRuntime :=
  (cfg.channels.filter fun ch => ch.cls = .state).map ChannelConfig.state

def findState (states : List StateRuntime) (id : UInt16) : Option StateRuntime :=
  states.find? fun sr => sr.id = id

/-- An intent field and a STATE field of one name are linked. -/
def mirrorTarget (target : Option StateRuntime) (f : FieldConfig) : Option MirrorTarget := do
  let sr ← target
  let i ← sr.fields.findIdx? fun g => g.cfg.name = f.name
  let g ← sr.fields[i]?
  return ⟨sr.id, i, g.cfg.isStringLayout⟩

def FieldConfig.link (target : Option StateRuntime) (f : FieldConfig) : IntentFieldLink :=
  ⟨f.key, f.isNumericSchema, f.min, f.max, mirrorTarget target f⟩

def ChannelConfig.intent (states : List StateRuntime) (hubDelayMs : UInt32) (ch : ChannelConfig) : IntentRuntime :=
  let target := ch.writesChannelId.bind (findState states)
  ⟨ch.id, ch.echoDelayMs.getD hubDelayMs, ch.fields.map (FieldConfig.link target)⟩

/-- `buildRuntime`. -/
def buildIntents (cfg : HubConfig) : List IntentRuntime :=
  (cfg.channels.filter fun ch => ch.cls = .intent).map (ChannelConfig.intent (buildStates cfg) cfg.echoDelayMs)

/-! ## Publishing -/

def FieldRuntime.pack (f : FieldRuntime) : Bytes :=
  if f.cfg.isStringLayout then f.cfg.layoutType.packStringField f.strValue else f.cfg.layoutType.packField f.value

/-- The fields that fit the buffer, from `offset` on. -/
def packFields : Nat → List FieldRuntime → Bytes
  | _, [] => []
  | offset, f :: fs =>
    let n := f.cfg.layoutType.wireSize
    if Limits.minTransportPayload < offset + n then [] else f.pack ++ packFields (offset + n) fs

def StateRuntime.payload (sr : StateRuntime) : Bytes := packFields 0 sr.fields

def publishStateChannel (published : UInt16 → Option Bytes) (sr : StateRuntime) : UInt16 → Option Bytes :=
  Function.update published sr.id (some sr.payload)

/-- The constructor publishes every STATE channel once. -/
def boot (cfg : HubConfig) : BenchHub :=
  { states := buildStates cfg
    intents := buildIntents cfg
    published := (buildStates cfg).foldl publishStateChannel fun _ => none }

/-! ## Intents -/

/-- `float(v)` of a value that has one. -/
def numericValueOf : IntentValue → Option UInt32
  | .f32 bits => some bits
  | .u64 v => some (F32.bitsOfNat v.toNat)
  | .i64 v => some (F32.bitsOfInt v.toInt)
  | _ => none

/-- A NaN is not at or above zero. -/
def withNumericValue (physical : UInt32) : IntentValue → IntentValue
  | .f32 _ => .f32 physical
  | .u64 _ => .u64 (if F32.le 0 (.ofBits physical) then UInt64.ofInt (F32.ofBits physical).llround else 0)
  | .i64 _ => .i64 (Int64.ofInt (F32.ofBits physical).llround)
  | v => v

def clampLow (low : Option UInt32) (x : UInt32) : UInt32 :=
  match low with
  | some m => if F32.lt (.ofBits x) (.ofBits m) then m else x
  | none => x

def clampHigh (high : Option UInt32) (x : UInt32) : UInt32 :=
  match high with
  | some m => if F32.lt (.ofBits m) (.ofBits x) then m else x
  | none => x

/-- The clamped number of a value, when the intent field is a number and the value has one. -/
def IntentFieldLink.physical (l : IntentFieldLink) (v : IntentValue) : Option UInt32 :=
  if l.numeric then (numericValueOf v).map fun x => clampHigh l.max (clampLow l.min x) else none

/-- The value the ECHO reports for one requested value. -/
def IntentFieldLink.applied (l : IntentFieldLink) (v : IntentValue) : IntentValue :=
  match l.physical v with
  | some x => withNumericValue x v
  | none => v

/-- The mirror of one requested value: a text for a text field, else the clamped number, or zero without one. -/
def IntentFieldLink.mirror (l : IntentFieldLink) (v : IntentValue) (dueMs : UInt32) (t : MirrorTarget) : PendingMirror :=
  let pm : PendingMirror := { stateId := t.stateId, fieldIndex := t.fieldIndex, isString := t.isString, dueMs }
  match t.isString, v with
  | true, .tstr s => { pm with strValue := s }
  | _, _ => { pm with value := (l.physical v).getD 0 }

def IntentRuntime.findLink (rt : IntentRuntime) (key : UInt8) : Option IntentFieldLink :=
  rt.fields.find? fun l => l.key = key

/-- A key the configuration does not declare is echoed as it came. -/
def IntentRuntime.applyField (rt : IntentRuntime) (rf : IntentValueField) : IntentValueField :=
  match rt.findLink rf.key with
  | some l => { rf with value := l.applied rf.value }
  | none => rf

def IntentRuntime.mirrorOf (rt : IntentRuntime) (nowMs : UInt32) (rf : IntentValueField) : Option PendingMirror := do
  let l ← rt.findLink rf.key
  let t ← l.target
  return l.mirror rf.value (nowMs + rt.echoDelayMs) t

def findIntent (intents : List IntentRuntime) (id : UInt16) : Option IntentRuntime := intents.find? fun rt => rt.id = id

/-- `BenchHub::applyIntent`: what the ECHO reports, or nothing for a channel that takes no intents. -/
def applyIntent (h : BenchHub) (nowMs : UInt32) (channelId : UInt16) (requested : IntentValueMap) :
    Option IntentValueMap × BenchHub :=
  match findIntent h.intents channelId with
  | none => (none, h)
  | some rt =>
    let requested := requested.take kIntentMaxValueFields
    (some (requested.map rt.applyField), { h with pending := h.pending ++ requested.filterMap (rt.mirrorOf nowMs) })

/-! ## Ticks -/

variable (anim : FieldConfig → UInt32 → UInt32)

def FieldRuntime.animate (t : UInt32) (f : FieldRuntime) : FieldRuntime :=
  if f.cfg.animated then { f with value := anim f.cfg t } else f

def StateRuntime.animate (t : UInt32) (sr : StateRuntime) : StateRuntime :=
  { sr with
    fields := sr.fields.map (FieldRuntime.animate anim t)
    dirty := sr.dirty || sr.fields.any fun f => f.cfg.animated }

def tickAnimations (t : UInt32) (h : BenchHub) : BenchHub :=
  { h with states := h.states.map (StateRuntime.animate anim t) }

def FieldRuntime.set (pm : PendingMirror) (f : FieldRuntime) : FieldRuntime :=
  if pm.isString then { f with strValue := pm.strValue } else { f with value := pm.value }

def StateRuntime.set (pm : PendingMirror) (sr : StateRuntime) : StateRuntime :=
  if pm.fieldIndex < sr.fields.length then
    { sr with fields := sr.fields.modify pm.fieldIndex (FieldRuntime.set pm), dirty := true }
  else sr

/-- A due mirror writes the field of the first channel of its id. -/
def applyMirror (states : List StateRuntime) (pm : PendingMirror) : List StateRuntime :=
  Keyed.modifyFirst (fun sr => sr.id = pm.stateId) (StateRuntime.set pm) states

def publishDirty (published : UInt16 → Option Bytes) (sr : StateRuntime) : UInt16 → Option Bytes :=
  if sr.dirty then publishStateChannel published sr else published

def StateRuntime.clean (sr : StateRuntime) : StateRuntime := { sr with dirty := false }

def tickPendingMirrors (nowMs : UInt32) (h : BenchHub) : BenchHub :=
  let due := h.pending.filter fun pm => timeReached nowMs pm.dueMs
  let states := due.foldl applyMirror h.states
  { h with
    pending := h.pending.filter fun pm => !timeReached nowMs pm.dueMs
    states := states.map StateRuntime.clean
    published := states.foldl publishDirty h.published }

/-- What `BenchHub::tick` does once the transport and the hub have run. -/
def tick (startMs nowMs : UInt32) (h : BenchHub) : BenchHub :=
  tickPendingMirrors nowMs (tickAnimations anim (nowMs - startMs) h)

/-! ## What a client reads -/

/-- The value of field `i` in a payload of the layout. -/
def readAt : List FieldConfig → Nat → Bytes → Option PackedFieldType.Shown
  | [], _, _ => none
  | f :: _, 0, bs => if f.layoutType.wireSize ≤ bs.length then some (f.layoutType.readValue bs) else none
  | f :: fs, i + 1, bs => readAt fs i (bs.drop f.layoutType.wireSize)

end SlopSync.SlopBench
