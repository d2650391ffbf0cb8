import SlopSync.Codec.Fields
import SlopSync.IntentCodec

/-! # INTENT

`wire/messages/intent.hpp`.  The message as the two ends have it, with a precondition and a takeover flag that may be
absent, its encoder, and the decoder as one made of trees. -/

namespace SlopSync

open CborWriter CborReader CborDecoder

/-! ## Values -/

namespace IntentValue

def tree : IntentValue → CborTree
  | .u64 v => .u64 v
  | .i64 v => .ofInt v.toInt
  | .f32 bits => .f32 bits
  | .bool b => .bool b
  | .tstr s => .text s
  | .bstr s => .bytes s

/-- What a value is on the wire: a signed integer that is not negative has the form of an unsigned one. -/
def collapse : IntentValue → IntentValue
  | .i64 v => if 0 ≤ v.toInt then .u64 (UInt64.ofNat v.toInt.toNat) else .i64 v
  | v => v

/-- The value a tree stands for. -/
def ofTree : CborTree → Option IntentValue
  | .uint n => some (.u64 (UInt64.ofNat n))
  | .negInt n => some (.i64 (-1 - Int64.ofNat n))
  | .bytes s => some (.bstr s)
  | .text s => some (.tstr s)
  | .bool b => some (.bool b)
  | .f32 bits => some (.f32 bits)
  | .null | .array _ | .map _ => none

/-- The encoder of a value emits its tree. -/
theorem encodeIntentValue_emit (w : CborWriter) (v : IntentValue) : encodeIntentValue w v = emit v.tree w := by
  cases v with
  | i64 v =>
    rw [encodeIntentValue, tree]
    cases h : v.toInt with
    | ofNat n =>
      simp only [CborTree.ofInt, emit, intVal, uintVal]
      rw [if_pos (show 0 ≤ Int.ofNat n from Int.natCast_nonneg n)]
      rfl
    | negSucc n =>
      simp only [CborTree.ofInt, emit]
      rw [show (-1 - (n : Int)) = Int.negSucc n by omega]
  | u64 _ | f32 _ | bool _ | tstr _ | bstr _ => rfl

theorem typed_tree (v : IntentValue) : Typed v.tree := by
  cases v with
  | u64 v => exact typed_u64 v
  | i64 v =>
    have hlow := v.le_toInt
    have hhigh := v.toInt_lt
    rw [tree]
    cases h : v.toInt with
    | ofNat n => exact .uint (by rw [h, Int.ofNat_eq_natCast] at hhigh; omega)
    | negSucc n => exact .negInt (by omega)
  | f32 bits => exact .f32 bits
  | bool b => exact .bool b
  | tstr s => exact .text s
  | bstr s => exact .bytes s

/-- A value is read back from its tree as the wire keeps it. -/
theorem ofTree_tree (v : IntentValue) : ofTree v.tree = some v.collapse := by
  cases v with
  | u64 v => simp [tree, CborTree.u64, ofTree, collapse]
  | i64 v =>
    have hlow := v.le_toInt
    rw [tree, collapse]
    cases h : v.toInt with
    | ofNat n => simp [CborTree.ofInt, ofTree]
    | negSucc n =>
      have hneg : ¬0 ≤ Int.negSucc n := by omega
      have hval : (-1 - Int64.ofNat n) = v := by
        apply Int64.toInt_inj.mp
        have hn : (Int64.ofNat n).toInt = n := Int64.toInt_ofNat_of_lt (by omega)
        rw [Int64.toInt_sub, hn, show (-1 : Int64).toInt = -1 from rfl, h]
        rw [Int.bmod_eq_of_le (by omega) (by omega)]
        omega
      rw [if_neg hneg]
      simp only [CborTree.ofInt, ofTree, hval]
  | f32 _ | bool _ | tstr _ | bstr _ => rfl

end IntentValue

/-! ## Value maps -/

/-- The pairs of a value map. -/
def valuePairs (fields : IntentValueMap) : List (Nat × CborTree) := fields.map fun f => (f.key.toNat, f.value.tree)

/-- The encoder of a value map emits its pairs. -/
theorem encodeValueFields_emit (w : CborWriter) (fields : IntentValueMap) :
    encodeValueFields w fields = emitPairs (valuePairs fields) w := by
  induction fields generalizing w with
  | nil => rfl
  | cons f fields ih =>
    rw [encodeValueFields, List.foldl_cons, IntentValue.encodeIntentValue_emit]
    exact ih _

theorem typed_valuePairs {fields : IntentValueMap} (h : fields.length ≤ kIntentMaxValueFields) :
    Typed (.map (valuePairs fields)) := by
  have hcap : kIntentMaxValueFields = 8 := rfl
  refine .map (by rw [valuePairs, List.length_map]; omega) ?_ ?_
  · intro p hp
    obtain ⟨f, -, rfl⟩ := List.mem_map.mp hp
    have hkey := f.key.toNat_lt
    dsimp only
    omega
  · intro p hp
    obtain ⟨f, -, rfl⟩ := List.mem_map.mp hp
    exact IntentValue.typed_tree f.value

/-- What the values of a map are on the wire. -/
def collapseValues (fields : IntentValueMap) : IntentValueMap :=
  fields.map fun f => { f with value := f.value.collapse }

/-- One more field of a value map. -/
def pushValue (fields : IntentValueMap) (p : Nat × CborTree) : Option IntentValueMap :=
  if 0xFF < p.1 then none
  else (IntentValue.ofTree p.2).map fun v => fields ++ [⟨UInt8.ofNat p.1, v⟩]

/-- The written pairs are pushed one by one, as the wire keeps them. -/
theorem foldlM_pushValue (fields l : IntentValueMap) :
    (valuePairs fields).foldlM pushValue l = some (l ++ collapseValues fields) := by
  induction fields generalizing l with
  | nil => simp [valuePairs, collapseValues]
  | cons f fields ih =>
    have hkey := f.key.toNat_lt
    have hpush : pushValue l (f.key.toNat, f.value.tree) = some (l ++ [{ f with value := f.value.collapse }]) := by
      rw [pushValue, if_neg (by dsimp only; omega), IntentValue.ofTree_tree]
      simp
    rw [valuePairs, List.map_cons, List.foldlM_cons, hpush]
    exact (ih _).trans (by rw [List.append_assoc]; rfl)

/-! ## What the reader makes of a value -/

/-- A flag or a float; anything else of the kind is refused. -/
theorem takes_simpleValue : Takes 0 (fun r => match r.readBool with
    | .ok (b, r) => .ok (.bool b, r)
    | .error _ => do
      let (v, r) ← r.readF32
      return (.f32 v, r)) (fun t => if t.majorOf = 7 then IntentValue.ofTree t else none) := by
  refine takes_simple (k := fun h => IntentValue.ofTree h.tree) ?_ ?_ ?_
  · intro t a h
    split_ifs at h with hmajor
    exact hmajor
  · intro h
    rw [if_pos (majorOf_simple h)]
  · intro r a r'
    unfold readBool readF32
    cases parseSimpleRaw r with
    | error e => simp [bind, Except.bind]
    | ok h => cases hkind : h.kind <;> simp [hkind, SimpleHead.tree, IntentValue.ofTree, bind, Except.bind, pure, Except.pure, eq_comm]

/-- Read a value of this type. -/
def readValueOf (ty : MajorType) (r : CborReader) : Except DecodeError (IntentValue × CborReader) :=
  match ty with
  | .uint => do
    let (v, r) ← r.readUint
    return (.u64 v, r)
  | .negInt => do
    let (v, r) ← r.readInt
    return (.i64 v, r)
  | .textString => do
    let (v, r) ← r.readTstr
    return (.tstr v, r)
  | .byteString => do
    let (v, r) ← r.readBstr
    return (.bstr v, r)
  | .simple => match r.readBool with
    | .ok (b, r) => return (.bool b, r)
    | .error _ => do
      let (v, r) ← r.readF32
      return (.f32 v, r)
  | .array | .map | .tag => .error .malformed

/-- Reading a value takes exactly one item, whatever its type. -/
theorem takes_readValueOf (ty : MajorType) :
    ∃ g, Takes 0 (readValueOf ty) g ∧ ∀ t : CborTree, t.type = ty → g t = IntentValue.ofTree t := by
  cases ty with
  | uint =>
    refine ⟨_, takes_readUint.map IntentValue.u64, fun t ht => ?_⟩
    cases t <;> cases ht
    rfl
  | negInt =>
    refine ⟨_, takes_readInt.map IntentValue.i64, fun t ht => ?_⟩
    cases t <;> cases ht
    rfl
  | textString =>
    refine ⟨_, takes_readTstr.map IntentValue.tstr, fun t ht => ?_⟩
    cases t <;> cases ht
    rfl
  | byteString =>
    refine ⟨_, takes_readBstr.map IntentValue.bstr, fun t ht => ?_⟩
    cases t <;> cases ht
    rfl
  | simple =>
    refine ⟨_, takes_simpleValue, fun t ht => ?_⟩
    cases t <;> cases ht <;> rfl
  | array | map =>
    refine ⟨_, takes_error .malformed, fun t ht => ?_⟩
    cases t <;> cases ht
    rfl
  | tag =>
    refine ⟨_, takes_error .malformed, fun t ht => ?_⟩
    cases t <;> cases ht

/-- `decodeIntentValue` as a decoder. -/
def intentValue : CborDecoder IntentValue where
  read := decodeIntentValue
  ofTree := IntentValue.ofTree
  takes := by
    choose g hg hvalue using takes_readValueOf
    refine (takes_peek hg).congr (fun r => ?_) (fun t => (hvalue t.type t rfl).symm)
    rw [decodeIntentValue]
    congr 1

/-- The value map, field by field. -/
theorem decodeValueFields_pairs (n : Nat) (l : IntentValueMap) (r : CborReader) :
    pairs (fun k l r => if 0xFF < k then .error .malformed else do
      let (v, r) ← decodeIntentValue r
      return (l ++ [⟨UInt8.ofNat k, v⟩], r)) n l r = (do
      let (fields, r) ← decodeValueFields n r
      return (l ++ fields, r)) := by
  induction n generalizing l r with
  | zero => simp [pairs, decodeValueFields, bind, Except.bind, pure, Except.pure]
  | succ n ih =>
    rw [pairs, decodeValueFields]
    cases hk : r.readKey with
    | error e => rfl
    | ok x =>
      obtain ⟨k, r₁⟩ := x
      simp only [ok_bind]
      split_ifs with hkey
      · rfl
      · cases hv : decodeIntentValue r₁ with
        | error e => rfl
        | ok y =>
          obtain ⟨v, r₂⟩ := y
          simp only [ok_bind]
          refine (ih _ r₂).trans ?_
          cases decodeValueFields n r₂ with
          | error e => rfl
          | ok z => simp [bind, Except.bind, pure, Except.pure]

def valueField (k : Nat) (l : IntentValueMap) : CborDecoder IntentValueMap where
  read r := if 0xFF < k then .error .malformed else do
    let (v, r) ← decodeIntentValue r
    return (l ++ [⟨UInt8.ofNat k, v⟩], r)
  ofTree t := pushValue l (k, t)
  takes := (Takes.ite (fun _ => takes_error .malformed) fun _ =>
    intentValue.takes.map fun v => l ++ [⟨UInt8.ofNat k, v⟩]).congr (fun _ => rfl) (fun _ => rfl)

/-- `decodeIntentValueMap` as a decoder. -/
def intentValueMap : CborDecoder IntentValueMap where
  read := decodeIntentValueMap
  ofTree
    | .map ps => if kIntentMaxValueFields < ps.length then none else ps.foldlM pushValue []
    | _ => none
  takes := by
    refine (takes_map (fun k l => (valueField k l).takes.mono (Nat.zero_le _)) (kIntentMaxValueFields < ·)
      .capacityExceeded (fun _ => []) (fun _ l => l)).congr (fun r => ?_) (fun t => ?_)
    · rw [decodeIntentValueMap]
      congr 1
      funext ⟨n, r'⟩
      dsimp only
      split_ifs
      · rfl
      · refine Eq.trans ?_ (congrArg (fun x => x >>= fun y => pure (y.1, y.2)) (decodeValueFields_pairs n [] r')).symm
        cases decodeValueFields n r' <;> rfl
    · cases t <;> simp [valueField]

/-- A value map within the limit is read back as the wire keeps it. -/
theorem intentValueMap_ofTree {fields : IntentValueMap} (h : fields.length ≤ kIntentMaxValueFields) :
    intentValueMap.ofTree (.map (valuePairs fields)) = some (collapseValues fields) := by
  have hlen : ¬kIntentMaxValueFields < (valuePairs fields).length := by
    rw [valuePairs, List.length_map]
    omega
  simp only [intentValueMap, if_neg hlen]
  rw [foldlM_pushValue, List.nil_append]

/-! ## The message -/

namespace Wire

structure IntentMsg where
  channelId : UInt16
  intentId : UInt16
  value : IntentValueMap := []
  precondition : Option UInt16 := none
  takeover : Option Bool := none
  deriving DecidableEq, Repr

def encodeIntent (m : IntentMsg) (cap : Nat) : Option Bytes :=
  if kIntentMaxValueFields < m.value.length then none
  else
    let w : CborWriter := { cap }
    let w := w.mapHeader (3 + optCount m.precondition + optCount m.takeover)
    let w := (w.key CborKey.channelId).uintVal m.channelId.toNat
    let w := (w.key CborKey.intentId).uintVal m.intentId.toNat
    let w := encodeValueFields ((w.key CborKey.value).mapHeader m.value.length) m.value
    let w := w.optKey CborKey.precondition m.precondition fun w v => w.uintVal v.toNat
    let w := w.optKey CborKey.takeover m.takeover CborWriter.boolVal
    w.result

end Wire

namespace IntentFields

/-- The value of a key; unknown ones are skipped. -/
def field (k : Nat) (f : IntentFields) : CborDecoder IntentFields :=
  if k = CborKey.channelId then uint.map fun v => { f with channelId := some v }
  else if k = CborKey.intentId then uint.map fun v => { f with intentId := some v }
  else if k = CborKey.value then intentValueMap.map fun v => { f with value := some v }
  else if k = CborKey.precondition then uint.map fun v => { f with precondition := some v }
  else if k = CborKey.takeover then bool.map fun v => { f with takeover := some v }
  else skip f

def decoder : CborDecoder IntentFields := record {} field

/-- The field decoder reads as `readField` does. -/
theorem field_read (k : Nat) (f : IntentFields) (r : CborReader) : (f.field k).read r = f.readField k r := by
  unfold field readField
  split_ifs <;> rfl

/-- The record decoder reads as the loop of `readFields` does. -/
theorem pairs_readFields (n : Nat) (f : IntentFields) (r : CborReader) :
    (do let (f, _) ← pairs (fun k f => (field k f).read) n f r; return f) = readFields n f r := by
  induction n generalizing f r with
  | zero => rfl
  | succ n ih =>
    rw [pairs, readFields]
    cases hk : r.readKey with
    | error e => rfl
    | ok x =>
      obtain ⟨k, r₁⟩ := x
      simp only [ok_bind, field_read]
      cases hf : f.readField k r₁ with
      | error e => rfl
      | ok y => exact ih y.1 y.2

/-- What an INTENT payload carries, by its tree. -/
theorem ofPayload_run (bs : Bytes) : ofPayload bs = decoder.run bs := by
  rw [ofPayload, CborDecoder.run]
  simp only [decoder, record]
  cases h : readMapHeader ⟨bs, []⟩ with
  | error e => rfl
  | ok x => exact (pairs_readFields x.1 {} x.2).symm

/-- The message with everything that was in it. -/
def wireMsg (f : IntentFields) : Except DecodeError Wire.IntentMsg :=
  match f.channelId, f.intentId, f.value with
  | some channelId, some intentId, some value =>
    .ok { channelId := channelId.toUInt16, intentId := intentId.toUInt16, value
          precondition := f.precondition.map UInt64.toUInt16, takeover := f.takeover }
  | _, _, _ => .error .malformed

end IntentFields

namespace Wire

def decodeIntent (payload : Bytes) : Except DecodeError IntentMsg := do
  let f ← IntentFields.ofPayload payload
  f.wireMsg

namespace IntentMsg

/-- The message as the hub has it. -/
def msg (m : IntentMsg) : SlopSync.IntentMsg :=
  { channelId := m.channelId, intentId := m.intentId, value := m.value, precondition := m.precondition
    takeover := m.takeover.getD false }

def fields (m : IntentMsg) : IntentFields :=
  { channelId := some m.channelId.toUInt64, intentId := some m.intentId.toUInt64, value := some m.value
    precondition := m.precondition.map UInt16.toUInt64, takeover := m.takeover }

def collapse (m : IntentMsg) : IntentMsg := { m with value := collapseValues m.value }

def pairs (m : IntentMsg) : List (Nat × CborTree) :=
  [(CborKey.channelId, .u16 m.channelId), (CborKey.intentId, .u16 m.intentId),
    (CborKey.value, .map (valuePairs m.value))] ++
    optPair CborKey.precondition m.precondition .u16 ++ optPair CborKey.takeover m.takeover .bool

def tree (m : IntentMsg) : CborTree := .map m.pairs

theorem typed_tree {m : IntentMsg} (h : m.value.length ≤ kIntentMaxValueFields) : Typed m.tree := by
  have h₁ := optCount_le m.precondition
  have h₂ := optCount_le m.takeover
  refine .map ?_ ?_ ?_
  · simp only [pairs, List.length_append, length_optPair, List.length_cons, List.length_nil]
    omega
  · simp only [pairs, List.forall_mem_append, forall_mem_optPair, List.forall_mem_cons]
    simp [CborKey.channelId, CborKey.intentId, CborKey.value, CborKey.precondition, CborKey.takeover]
  · simp only [pairs, List.append_assoc, List.forall_mem_append, forall_mem_optPair, List.forall_mem_cons]
    exact ⟨⟨typed_u16 _, typed_u16 _, typed_valuePairs h, by simp⟩, fun v _ => typed_u16 v, fun b _ => .bool b⟩

/-- `encodeIntent` emits the message's tree when its values are within the limit. -/
theorem encodeIntent_emit {m : IntentMsg} (h : m.value.length ≤ kIntentMaxValueFields) (cap : Nat) :
    encodeIntent m cap = (emit m.tree { cap }).result := by
  rw [encodeIntent, if_neg (by omega), tree, emit]
  simp only [pairs, List.length_append, length_optPair, List.length_cons, List.length_nil, emitPairs_append,
    emitPairs_u16, emitPairs_bool, encodeValueFields_emit]
  simp [emit, CborTree.u16, valuePairs]

/-- A message is read back from its tree as the wire keeps it. -/
theorem ofTree_tree {m : IntentMsg} (h : m.value.length ≤ kIntentMaxValueFields) :
    IntentFields.decoder.ofTree m.tree = some m.collapse.fields := by
  rw [tree, IntentFields.decoder, record_ofTree]
  simp only [pairs, List.append_assoc]
  rw [foldlM_resume { channelId := some m.channelId.toUInt64, intentId := some m.intentId.toUInt64
                      value := some (collapseValues m.value) } (by
      simp +decide [IntentFields.field, intentValueMap_ofTree h]),
    foldlM_optPair (fun f o => { f with precondition := o }) UInt16.toUInt64 rfl (by
      simp +decide [IntentFields.field]),
    foldlM_optPair_last (fun f o => { f with takeover := o }) id rfl (by
      simp +decide [IntentFields.field])]
  simp [fields, collapse]

/-- The fields of a message give the message back. -/
theorem fields_wireMsg (m : IntentMsg) : m.fields.wireMsg = .ok m := by
  simp [fields, IntentFields.wireMsg, Function.comp_def]

/-- **A message that was encoded decodes to itself**, its integers in the form they have on the wire. -/
theorem decode_encode {m : IntentMsg} {cap : Nat} {bs : Bytes} (hcap : cap < 2 ^ 64)
    (h : encodeIntent m cap = some bs) : decodeIntent bs = .ok m.collapse := by
  have hlen : m.value.length ≤ kIntentMaxValueFields := by
    by_contra hlong
    rw [encodeIntent, if_pos (by omega)] at h
    cases h
  rw [encodeIntent_emit hlen] at h
  obtain ⟨rfl, hfits, -⟩ := result_emit (typed_tree hlen) hcap h
  rw [decodeIntent, IntentFields.ofPayload_run]
  exact (run_bind_encode hfits).mpr ⟨_, ofTree_tree hlen, fields_wireMsg _⟩

end IntentMsg

/-- The hub decodes an INTENT and forgets whether the takeover flag was there. -/
theorem decodeIntent_msg (payload : Bytes) :
    SlopSync.decodeIntent payload = (do return (← decodeIntent payload).msg) := by
  rw [SlopSync.decodeIntent, decodeIntent]
  cases IntentFields.ofPayload payload with
  | error e => rfl
  | ok f =>
    obtain ⟨channelId, intentId, value, precondition, takeover⟩ := f
    cases channelId <;> cases intentId <;> cases value <;> rfl

/-- The client's INTENT always carries the flag. -/
theorem encodeIntent_msg (m : SlopSync.IntentMsg) (cap : Nat) :
    SlopSync.encodeIntent m cap = encodeIntent
      { channelId := m.channelId, intentId := m.intentId, value := m.value, precondition := m.precondition
        takeover := some m.takeover } cap := by
  simp only [SlopSync.encodeIntent, encodeIntent, optCount, CborWriter.optKey, Option.isSome_some, if_true,
    Nat.add_right_comm]

end Wire

end SlopSync
