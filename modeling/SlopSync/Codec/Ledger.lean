import SlopSync.Codec.Fields
import SlopSync.LedgerCodec
import Mathlib.Data.List.ReduceOption

/-! # The persisted ledger, both ways

`PairingManager::encodeLedger` of `session/pairing.hpp`, and what `decodeLedger` makes of a blob as a tree.  The token is
written under a key of its own, which the wire form does not have; nothing asks for it when the blob is read. -/

namespace SlopSync

open CborWriter CborReader CborDecoder

/-- The entries in use, in slot order. -/
def PairingManager.used (m : PairingManager) : List PairedEntry := m.entries.slots.reduceOption

/-! ## What is written -/

/-- One entry, token included. -/
def encodePersisted (w : CborWriter) (e : PairedEntry) : CborWriter :=
  let kind := textOpt e.kind.data
  let name := textOpt e.name.data
  let version := textOpt e.version.data
  let firstSeen := nonzero e.firstSeen
  let lastSeen := nonzero e.lastSeen
  let w := w.mapHeader (6 + optCount kind + optCount name + optCount version + optCount firstSeen + optCount lastSeen)
  let w := (w.key TrustLedgerKey.instanceId).bstrVal e.instanceId.val
  let w := w.optKey TrustLedgerKey.kind kind CborWriter.tstrVal
  let w := w.optKey TrustLedgerKey.name name CborWriter.tstrVal
  let w := w.optKey TrustLedgerKey.version version CborWriter.tstrVal
  let w := w.optKey TrustLedgerKey.firstSeen firstSeen fun w v => w.uintVal v.toNat
  let w := w.optKey TrustLedgerKey.lastSeen lastSeen fun w v => w.uintVal v.toNat
  let w := (w.key TrustLedgerKey.role).uintVal e.role.code.toNat
  let w := (w.key TrustLedgerKey.state).uintVal e.state.code.toNat
  let w := (w.key TrustLedgerKey.presentationMode).uintVal e.presentationMode.toNat
  let w := (w.key TrustLedgerKey.pairingMode).uintVal e.pairingMode.toNat
  (w.key TrustLedgerKey.token).bstrVal e.token.val

/-- A slot that is not in use is passed over. -/
def encodeSlot (w : CborWriter) : Option PairedEntry → CborWriter
  | none => w
  | some e => encodePersisted w e

/-- The whole ledger, for a buffer of `cap` bytes. -/
def PairingManager.encodeLedger (m : PairingManager) (cap : Nat) : Option Bytes :=
  let w : CborWriter := { cap }
  let w := w.arrayHeader m.entryCount
  let w := m.entries.slots.foldl encodeSlot w
  w.result

namespace PairedEntry

def pairs (e : PairedEntry) : List (Nat × CborTree) :=
  [(TrustLedgerKey.instanceId, .arr e.instanceId)] ++
    optPair TrustLedgerKey.kind (textOpt e.kind.data) .text ++
    optPair TrustLedgerKey.name (textOpt e.name.data) .text ++
    optPair TrustLedgerKey.version (textOpt e.version.data) .text ++
    optPair TrustLedgerKey.firstSeen (nonzero e.firstSeen) .u32 ++
    optPair TrustLedgerKey.lastSeen (nonzero e.lastSeen) .u32 ++
    [(TrustLedgerKey.role, .u8 e.role.code), (TrustLedgerKey.state, .u8 e.state.code),
      (TrustLedgerKey.presentationMode, .u8 e.presentationMode), (TrustLedgerKey.pairingMode, .u8 e.pairingMode),
      (TrustLedgerKey.token, .arr e.token)]

def tree (e : PairedEntry) : CborTree := .map e.pairs

/-- An entry is written as its map. -/
theorem encodePersisted_emit (e : PairedEntry) (w : CborWriter) : encodePersisted w e = emit e.tree w := by
  rw [tree, emit]
  simp only [pairs, List.length_append, length_optPair, List.length_cons, List.length_nil, emitPairs_append,
    emitPairs_text, emitPairs_u32]
  rw [show 0 + 1 + optCount (textOpt e.kind.data) + optCount (textOpt e.name.data) + optCount (textOpt e.version.data) +
    optCount (nonzero e.firstSeen) + optCount (nonzero e.lastSeen) + (0 + 1 + 1 + 1 + 1 + 1) =
      6 + optCount (textOpt e.kind.data) + optCount (textOpt e.name.data) + optCount (textOpt e.version.data) +
        optCount (nonzero e.firstSeen) + optCount (nonzero e.lastSeen) by omega]
  rfl

theorem mem_textOpt {s t : Bytes} (h : t ∈ textOpt s) : t = s := by
  rw [textOpt, Option.mem_def] at h
  split_ifs at h
  exact (Option.some.inj h).symm

end PairedEntry

namespace PairingManager

def ledgerTree (m : PairingManager) : CborTree := .arrayOf PairedEntry.tree m.used

/-- The count written is the number of slots in use. -/
theorem entryCount_used (m : PairingManager) : m.entryCount = m.used.length := by
  rw [used, List.reduceOption_length_eq, entryCount]

/-- The slots in use are written in order. -/
theorem foldl_encodeSlot (l : List (Option PairedEntry)) (w : CborWriter) :
    l.foldl encodeSlot w = emitItems (l.reduceOption.map PairedEntry.tree) w := by
  induction l generalizing w with
  | nil => rfl
  | cons o l ih =>
    cases o with
    | none => exact ih w
    | some e =>
      rw [List.foldl_cons, List.reduceOption_cons_of_some, List.map_cons, emitItems_cons, ← e.encodePersisted_emit]
      exact ih _

/-- So the ledger is written as its tree. -/
theorem encodeLedger_emit (m : PairingManager) (cap : Nat) :
    m.encodeLedger cap = (emit m.ledgerTree { cap }).result := by
  rw [encodeLedger, ledgerTree, CborTree.arrayOf, emit, List.length_map, ← entryCount_used]
  rw [foldl_encodeSlot, used]

/-! ## How long it is -/

end PairingManager

namespace PairedEntry

theorem keys_optPair {α : Type} (k : Nat) (o : Option α) (f : α → CborTree) :
    ((optPair k o f).map Prod.fst).Sublist [k] := by
  cases o <;> simp

/-- The keys of an entry ascend. -/
theorem ascending_pairs (e : PairedEntry) : CborTree.Ascending e.pairs := by
  have hall : (e.pairs.map Prod.fst).Sublist [1, 2, 3, 4, 5, 6, 7, 8, 9, 10, 11] := by
    simp only [pairs, List.map_append]
    exact (((((List.Sublist.refl [1]).append (keys_optPair ..)).append (keys_optPair ..)).append (keys_optPair ..)).append
      (keys_optPair ..)).append (keys_optPair ..) |>.append (List.Sublist.refl [7, 8, 9, 10, 11])
  exact List.Pairwise.sublist hall (by decide)

/-- An entry has at most eleven of them. -/
theorem length_pairs_le (e : PairedEntry) : e.pairs.length ≤ 11 := by
  have h₁ := optCount_le (textOpt e.kind.data)
  have h₂ := optCount_le (textOpt e.name.data)
  have h₃ := optCount_le (textOpt e.version.data)
  have h₄ := optCount_le (nonzero e.firstSeen)
  have h₅ := optCount_le (nonzero e.lastSeen)
  simp only [pairs, List.length_append, length_optPair, List.length_cons, List.length_nil]
  omega

/-- An entry nests no deeper than the profile allows. -/
theorem fits_tree (e : PairedEntry) : CborTree.Fits 1 e.tree := by
  have hkind := e.kind.fits
  have hname := e.name.fits
  have hver := e.version.fits
  have hlims : Limits.trustLedgerKindMaxBytes = 16 ∧ Limits.trustLedgerNameMaxBytes = 16 ∧ Limits.clientVerMaxBytes = 24 :=
    ⟨rfl, rfl, rfl⟩
  refine .map ?_ e.ascending_pairs ?_ ?_
  · exact e.length_pairs_le.trans_lt (by decide)
  · simp only [pairs, List.forall_mem_append, forall_mem_optPair, List.forall_mem_cons]
    simp [TrustLedgerKey.instanceId, TrustLedgerKey.kind, TrustLedgerKey.name, TrustLedgerKey.version,
      TrustLedgerKey.firstSeen, TrustLedgerKey.lastSeen, TrustLedgerKey.role, TrustLedgerKey.state,
      TrustLedgerKey.presentationMode, TrustLedgerKey.pairingMode, TrustLedgerKey.token]
  · have hbyte : ∀ v : UInt8, CborTree.Fits 0 (.u8 v) := fun v => .uint (by have := v.toNat_lt; omega)
    have hword : ∀ v : UInt32, CborTree.Fits 0 (.u32 v) := fun v => .uint (by have := v.toNat_lt; omega)
    have harr : ∀ {n : Nat} (a : ByteArr n), n < 2 ^ 64 → CborTree.Fits 0 (.arr a) := fun a hn =>
      .bytes (by rwa [a.property])
    simp only [pairs, List.append_assoc, List.forall_mem_append, forall_mem_optPair, List.forall_mem_cons]
    refine ⟨⟨harr _ (by decide), by simp⟩, ?_, ?_, ?_, fun v _ => hword v, fun v _ => hword v, hbyte _, hbyte _, hbyte _,
      hbyte _, harr _ (by decide), by simp⟩
    · intro s hs
      rw [mem_textOpt hs]
      exact .text (by omega)
    · intro s hs
      rw [mem_textOpt hs]
      exact .text (by omega)
    · intro s hs
      rw [mem_textOpt hs]
      exact .text (by omega)

/-- Pairs of bounded values are of bounded length. -/
theorem length_encodePairs_le {b : Nat} {ps : List (Nat × CborTree)}
    (h : ∀ p ∈ ps, p.1 ≤ 23 ∧ p.2.encode.length ≤ b) : (CborTree.encodePairs ps).length ≤ ps.length * (b + 1) := by
  induction ps with
  | nil => simp
  | cons p ps ih =>
    obtain ⟨⟨hk, hp⟩, hps⟩ := List.forall_mem_cons.mp h
    have hrest := ih hps
    rw [CborTree.encodePairs_cons, List.length_append, List.length_append, head_length_small 0 hk, List.length_cons,
      Nat.succ_mul]
    omega

/-- An optional pair of a bounded value is of bounded length. -/
theorem length_encodePairs_optPair {α : Type} {k b : Nat} {o : Option α} {f : α → CborTree} (hk : k ≤ 23)
    (h : ∀ a ∈ o, (f a).encode.length ≤ b) : (CborTree.encodePairs (optPair k o f)).length ≤ b + 1 := by
  have hlen := length_encodePairs_le (forall_mem_optPair.mpr fun a ha => ⟨hk, h a ha⟩)
  have hcount := Nat.mul_le_mul_right (b + 1) (optCount_le o)
  rw [length_optPair] at hlen
  omega

theorem length_text {s : Bytes} {n : Nat} (hs : s.length ≤ n) (hn : n ≤ 0xFF) :
    (CborTree.text s).encode.length ≤ n + 2 := by
  have h := head_length_u8 3 (hs.trans hn)
  rw [CborTree.encode, List.length_append]
  omega

theorem length_arr {n : Nat} (a : ByteArr n) (hn : n ≤ 0xFF) : (CborTree.arr a).encode.length ≤ n + 2 := by
  have ha := a.property
  have h := head_length_u8 2 (v := a.val.length) (by omega)
  rw [CborTree.arr, CborTree.encode, List.length_append]
  omega

/-- The version is the longest field. -/
theorem length_encode_tree (e : PairedEntry) : e.tree.encode.length ≤ 219 := by
  have hbyte : ∀ v : UInt8, (CborTree.u8 v).encode.length ≤ 18 := fun v =>
    (head_length_u8 0 (by have := v.toNat_lt; omega)).trans (by decide)
  have hword : ∀ v : UInt32, (CborTree.u32 v).encode.length ≤ 18 := fun v =>
    (head_length_u32 0 (by have := v.toNat_lt; omega)).trans (by decide)
  have hinst : (CborTree.encodePairs [(TrustLedgerKey.instanceId, .arr e.instanceId)]).length ≤ 1 * 19 :=
    length_encodePairs_le (by simpa using ⟨by decide, (length_arr e.instanceId (by decide)).trans (by decide)⟩)
  have hkind := length_encodePairs_optPair (k := TrustLedgerKey.kind) (b := 18) (f := .text) (by decide)
    fun s (hs : s ∈ textOpt e.kind.data) => by
      rw [mem_textOpt hs]
      exact length_text e.kind.fits (by decide)
  have hname := length_encodePairs_optPair (k := TrustLedgerKey.name) (b := 18) (f := .text) (by decide)
    fun s (hs : s ∈ textOpt e.name.data) => by
      rw [mem_textOpt hs]
      exact length_text e.name.fits (by decide)
  have hversion := length_encodePairs_optPair (k := TrustLedgerKey.version) (b := 26) (f := .text) (by decide)
    fun s (hs : s ∈ textOpt e.version.data) => by
      rw [mem_textOpt hs]
      exact length_text e.version.fits (by decide)
  have hfirst := length_encodePairs_optPair (k := TrustLedgerKey.firstSeen) (b := 18) (f := .u32) (by decide)
    fun v (_ : v ∈ nonzero e.firstSeen) => hword v
  have hlast := length_encodePairs_optPair (k := TrustLedgerKey.lastSeen) (b := 18) (f := .u32) (by decide)
    fun v (_ : v ∈ nonzero e.lastSeen) => hword v
  have hrest : (CborTree.encodePairs [(TrustLedgerKey.role, .u8 e.role.code), (TrustLedgerKey.state, .u8 e.state.code),
      (TrustLedgerKey.presentationMode, .u8 e.presentationMode), (TrustLedgerKey.pairingMode, .u8 e.pairingMode),
      (TrustLedgerKey.token, .arr e.token)]).length ≤ 5 * 19 := by
    refine length_encodePairs_le ?_
    simp only [List.forall_mem_cons]
    exact ⟨⟨by decide, hbyte _⟩, ⟨by decide, hbyte _⟩, ⟨by decide, hbyte _⟩, ⟨by decide, hbyte _⟩,
      ⟨by decide, length_arr e.token (by decide)⟩, by simp⟩
  have hhead := head_length_u8 5 (e.length_pairs_le.trans (by decide))
  rw [tree, CborTree.encode, List.length_append]
  simp only [pairs, CborTree.encodePairs_append, List.length_append] at *
  omega

end PairedEntry

namespace PairingManager

/-- No more entries are written than the ledger has slots. -/
theorem length_used (m : PairingManager) : m.used.length ≤ Limits.pairedDevicesMax :=
  (List.reduceOption_length_le _).trans (Nat.le_of_eq m.entries.size)

/-- So the ledger's tree fits the profile. -/
theorem fits_ledgerTree (m : PairingManager) : CborTree.Fits kMaxDepth m.ledgerTree := by
  refine CborTree.Fits.mono (d := 2) (.array ?_ fun t ht => ?_) (by decide)
  · rw [List.length_map]
    exact m.length_used.trans_lt (by decide)
  · obtain ⟨e, -, rfl⟩ := List.mem_map.mp ht
    exact e.fits_tree

/-- Items of bounded length are of bounded length together. -/
theorem length_encodeItems_le {b : Nat} (ts : List CborTree) (h : ∀ t ∈ ts, t.encode.length ≤ b) :
    (CborTree.encodeItems ts).length ≤ ts.length * b := by
  induction ts with
  | nil => simp
  | cons t ts ih =>
    obtain ⟨ht, hts⟩ := List.forall_mem_cons.mp h
    have hrest := ih hts
    rw [CborTree.encodeItems_cons, List.length_append, List.length_cons, Nat.succ_mul]
    omega

/-- **The blob of a ledger always fits.** -/
theorem encodeLedger_eq (m : PairingManager) {cap : Nat} (hcap : Limits.trustLedgerMaxBytes ≤ cap) :
    m.encodeLedger cap = some m.ledgerTree.encode ∧ m.ledgerTree.encode.length ≤ Limits.trustLedgerMaxBytes := by
  have hused := m.length_used
  have hitems := length_encodeItems_le (b := 219) (m.used.map PairedEntry.tree) fun t ht => by
    obtain ⟨e, -, rfl⟩ := List.mem_map.mp ht
    exact e.length_encode_tree
  have hhead := head_length_u8 4 (v := m.used.length) (hused.trans (by decide))
  have hlen : m.ledgerTree.encode.length ≤ Limits.trustLedgerMaxBytes := by
    rw [ledgerTree, CborTree.arrayOf, CborTree.encode, List.length_append, List.length_map]
    rw [List.length_map] at hitems
    simp only [Limits.pairedDevicesMax, Limits.trustLedgerMaxBytes] at *
    omega
  exact ⟨(m.encodeLedger_emit cap).trans (emit_result m.fits_ledgerTree (hlen.trans hcap)), hlen⟩

end PairingManager

/-! ## What is read -/

namespace StagedEntry

/-- The value of a key. -/
def field (k : Nat) (st : StagedEntry) : CborDecoder StagedEntry :=
  let put (e : PairedEntry) : StagedEntry := { st with entry := e }
  let e := st.entry
  if k = TrustLedgerKey.instanceId then (arr 8).map fun v => { entry := { e with instanceId := v }, gotInstance := true }
  else if k = TrustLedgerKey.kind then
    (text Limits.trustLedgerKindMaxBytes).map fun v => put { e with kind := .assign v }
  else if k = TrustLedgerKey.name then
    (text Limits.trustLedgerNameMaxBytes).map fun v => put { e with name := .assign v }
  else if k = TrustLedgerKey.version then (text Limits.clientVerMaxBytes).map fun v => put { e with version := .assign v }
  else if k = TrustLedgerKey.firstSeen then uint.map fun v => put { e with firstSeen := v.toUInt32 }
  else if k = TrustLedgerKey.lastSeen then uint.map fun v => put { e with lastSeen := v.toUInt32 }
  else if k = TrustLedgerKey.role then
    (uint.andThen fun v => (AccessLevel.ofCode v.toNat).elim (.error .malformed) .ok).map fun v => put { e with role := v }
  else if k = TrustLedgerKey.state then
    (uint.andThen fun v => (TrustState.ofCode v.toNat).elim (.error .malformed) .ok).map fun v => put { e with state := v }
  else if k = TrustLedgerKey.presentationMode then u8.map fun v => put { e with presentationMode := v }
  else if k = TrustLedgerKey.pairingMode then u8.map fun v => put { e with pairingMode := v }
  else if k = TrustLedgerKey.token then (arr 16).map fun v => put { e with token := v }
  else skip st

theorem toOption_bind {α β : Type} (x : Except DecodeError α) (f : α → Except DecodeError β) :
    (x >>= f).toOption = x.toOption.bind fun a => (f a).toOption := by
  cases x <;> rfl

theorem toOption_map {α : Type} (d : CborDecoder α) {β : Type} (f : α → β) (r : CborReader) :
    ((d.map f).read r).toOption = (d.read r).toOption.map fun p => (f p.1, p.2) := by
  change ((d.read r) >>= _).toOption = _
  rw [toOption_bind]
  cases d.read r <;> rfl

theorem toOption_andThen {α β : Type} (d : CborDecoder α) (k : α → Except DecodeError β) (r : CborReader) :
    ((d.andThen k).read r).toOption = (d.read r).toOption.bind fun p => (k p.1).toOption.map fun b => (b, p.2) := by
  change ((d.read r) >>= _).toOption = _
  rw [toOption_bind]
  cases d.read r with
  | error e => rfl
  | ok p =>
    dsimp only [Except.toOption, Option.bind_some]
    cases k p.1 <;> rfl

theorem text_read (max : Nat) (r : CborReader) : ((text max).read r).toOption = readText max r := by
  rw [text, toOption_andThen, readText]
  cases h : (tstr.read r).toOption with
  | none => simp [show r.readTstr.toOption = none from h]
  | some p =>
    simp only [show r.readTstr.toOption = some p from h, Option.bind_some, Option.bind_eq_bind]
    split_ifs <;> rfl

theorem u8_read (r : CborReader) :
    (u8.read r).toOption = (readUpTo 0xFF r).map fun p => (UInt8.ofNat p.1, p.2) := by
  rw [u8, toOption_map, uintWithin, toOption_andThen, readUpTo]
  cases h : (uint.read r).toOption with
  | none => simp [show r.readUint.toOption = none from h]
  | some p =>
    simp only [show r.readUint.toOption = some p from h, Option.bind_some, Option.bind_eq_bind]
    split_ifs <;> rfl

theorem arr_read {n : Nat} (r : CborReader) :
    ((arr n).read r).toOption = r.readBstr.toOption.bind fun p => (ByteArr.of n p.1).map fun v => (v, p.2) := by
  rw [arr, toOption_andThen]
  refine congrArg _ (funext fun p => ?_)
  rw [ByteArr.of]
  split_ifs <;> rfl

theorem code_read {α : Type} (ofCode : Nat → Option α) (r : CborReader) :
    ((uint.andThen fun v => (ofCode v.toNat).elim (.error .malformed) .ok).read r).toOption =
      r.readUint.toOption.bind fun p => (ofCode p.1.toNat).map fun v => (v, p.2) := by
  rw [toOption_andThen]
  refine congrArg _ (funext fun p => ?_)
  cases ofCode p.1.toNat <;> rfl

theorem ite_read {α : Type} {c : Prop} [Decidable c] {d d' : CborDecoder α} {r : CborReader}
    {x y : Option (α × CborReader)} (hx : x = (d.read r).toOption) (hy : y = (d'.read r).toOption) :
    (if c then x else y) = ((if c then d else d').read r).toOption := by
  split_ifs
  · exact hx
  · exact hy

/-- `readField` is the decoder of its key. -/
theorem readField_eq (st : StagedEntry) (k : Nat) (r : CborReader) :
    st.readField k r = ((st.field k).read r).toOption := by
  unfold readField field
  refine ite_read ?_ <| ite_read ?_ <| ite_read ?_ <| ite_read ?_ <| ite_read ?_ <| ite_read ?_ <| ite_read ?_ <|
    ite_read ?_ <| ite_read ?_ <| ite_read ?_ <| ite_read ?_ ?_
  · rw [toOption_map, arr_read]
    cases r.readBstr.toOption with
    | none => rfl
    | some p => cases h : ByteArr.of 8 p.1 <;> simp [h]
  · rw [toOption_map, text_read]
    cases readText Limits.trustLedgerKindMaxBytes r <;> rfl
  · rw [toOption_map, text_read]
    cases readText Limits.trustLedgerNameMaxBytes r <;> rfl
  · rw [toOption_map, text_read]
    cases readText Limits.clientVerMaxBytes r <;> rfl
  · rw [toOption_map]
    change _ = r.readUint.toOption.map _
    cases r.readUint.toOption <;> rfl
  · rw [toOption_map]
    change _ = r.readUint.toOption.map _
    cases r.readUint.toOption <;> rfl
  · rw [toOption_map, code_read]
    cases r.readUint.toOption with
    | none => rfl
    | some p => cases h : AccessLevel.ofCode p.1.toNat <;> simp [h]
  · rw [toOption_map, code_read]
    cases r.readUint.toOption with
    | none => rfl
    | some p => cases h : TrustState.ofCode p.1.toNat <;> simp [h]
  · rw [toOption_map, u8_read]
    cases readUpTo 0xFF r <;> rfl
  · rw [toOption_map, u8_read]
    cases readUpTo 0xFF r <;> rfl
  · rw [toOption_map, arr_read]
    cases r.readBstr.toOption with
    | none => rfl
    | some p => cases h : ByteArr.of 16 p.1 <;> simp [h]
  · change _ = (r.skipValue >>= fun r' => Except.ok (st, r')).toOption
    cases r.skipValue <;> rfl

end StagedEntry

namespace PairingManager

/-- An entry must name its device. -/
def entryDecoder : CborDecoder PairedEntry :=
  (record {} StagedEntry.field).andThen fun st => if st.gotInstance then .ok st.entry else .error .malformed

def ledgerDecoder : CborDecoder (List PairedEntry) := list Limits.pairedDevicesMax entryDecoder

/-- The fields of an entry are read as the record decoder reads them. -/
theorem readFields_eq (n : Nat) (st : StagedEntry) (r : CborReader) :
    StagedEntry.readFields n st r = (CborReader.pairs (fun k st => (StagedEntry.field k st).read) n st r).toOption := by
  induction n generalizing st r with
  | zero => rfl
  | succ n ih =>
    rw [StagedEntry.readFields, CborReader.pairs, StagedEntry.toOption_bind]
    refine congrArg _ (funext fun p => ?_)
    dsimp only
    rw [StagedEntry.toOption_bind, StagedEntry.readField_eq]
    exact congrArg _ (funext fun q => ih q.1 q.2)

/-- An entry is read as the record decoder reads it. -/
theorem readEntry_eq (r : CborReader) : readEntry r = (entryDecoder.read r).toOption := by
  rw [entryDecoder, StagedEntry.toOption_andThen, readEntry]
  change _ = Option.bind (r.readMapHeader >>= fun p =>
    CborReader.pairs (fun k st => (StagedEntry.field k st).read) p.1 {} p.2).toOption _
  rw [StagedEntry.toOption_bind, Option.bind_assoc]
  refine congrArg _ (funext fun p => ?_)
  dsimp only
  rw [readFields_eq]
  refine congrArg _ (funext fun q => ?_)
  split_ifs <;> rfl

/-- The entries are read one after another, as the list decoder reads them. -/
theorem readEntries_eq (n : Nat) (l : List PairedEntry) (r : CborReader) :
    (items (fun l => (entryDecoder.map fun e => l ++ [e]).read) n l r).toOption.map Prod.fst =
      (readEntries n r).map (l ++ ·) := by
  induction n generalizing l r with
  | zero => simp [items, readEntries, Except.toOption]
  | succ n ih =>
    rw [items, StagedEntry.toOption_bind, StagedEntry.toOption_map, readEntries, readEntry_eq]
    cases (entryDecoder.read r).toOption with
    | none => rfl
    | some p =>
      refine (ih (l ++ [p.1]) p.2).trans ?_
      cases h : readEntries n p.2 <;> simp [h]

/-- Reading the blob is running the decoder. -/
theorem stageLedger_eq (blob : Bytes) : stageLedger blob = (ledgerDecoder.run blob).toOption := by
  rw [stageLedger, run, StagedEntry.toOption_bind]
  change _ = Option.bind (CborReader.readArrayHeader { rest := blob } >>= fun p => _).toOption _
  rw [StagedEntry.toOption_bind, Option.bind_assoc]
  refine congrArg _ (funext fun p => ?_)
  dsimp only
  split_ifs
  · rfl
  · have h := readEntries_eq p.1 [] p.2
    rw [show ([] ++ · : List PairedEntry → List PairedEntry) = id from rfl, Option.map_id, id] at h
    rw [← h, StagedEntry.toOption_bind, Option.bind_assoc]
    cases (items (fun l => (entryDecoder.map fun e => l ++ [e]).read) p.1 [] p.2).toOption <;> rfl

end PairingManager

/-! ## The round trip -/

namespace PairedEntry

theorem assign_data {n : Nat} (b : BoundedString n) : BoundedString.assign b.data = b := by
  obtain ⟨d, hd⟩ := b
  simp [BoundedString.assign, List.take_of_length_le hd]

theorem getD_assign {n : Nat} (b : BoundedString n) :
    ((textOpt b.data).map BoundedString.assign).getD ⟨[], Nat.zero_le _⟩ = b := by
  obtain ⟨d, hd⟩ := b
  cases d with
  | nil => rfl
  | cons a d => exact assign_data ⟨a :: d, hd⟩

/-- An entry is read as it was written. -/
theorem ofTree_tree (e : PairedEntry) : PairingManager.entryDecoder.ofTree e.tree = some e := by
  have hrole : AccessLevel.ofCode e.role.code.toNat = some e.role := by cases e.role <;> rfl
  have hstate : TrustState.ofCode e.state.code.toNat = some e.state := by cases e.state <;> rfl
  have hrec : (record {} StagedEntry.field).ofTree e.tree = some { entry := e, gotInstance := true } := by
    rw [tree, record_ofTree]
    simp only [pairs, List.append_assoc]
    rw [foldlM_resume { entry := { instanceId := e.instanceId, token := ByteArr.zero 16 }, gotInstance := true } (by
        simp +decide [StagedEntry.field]),
      foldlM_optPair (fun st (o : Option KindStr) => { st with entry := { st.entry with kind := o.getD ⟨[], Nat.zero_le _⟩ } }) BoundedString.assign rfl (by
        intro s hs
        simp +decide [StagedEntry.field, mem_textOpt hs, e.kind.fits]),
      foldlM_optPair (fun st (o : Option NameStr) => { st with entry := { st.entry with name := o.getD ⟨[], Nat.zero_le _⟩ } }) BoundedString.assign rfl (by
        intro s hs
        simp +decide [StagedEntry.field, mem_textOpt hs, e.name.fits]),
      foldlM_optPair (fun st (o : Option VersionStr) => { st with entry := { st.entry with version := o.getD ⟨[], Nat.zero_le _⟩ } }) BoundedString.assign rfl
        (by
          intro s hs
          simp +decide [StagedEntry.field, mem_textOpt hs, e.version.fits]),
      foldlM_optPair (fun st (o : Option UInt32) => { st with entry := { st.entry with firstSeen := o.getD 0 } }) id rfl (by
        simp +decide [StagedEntry.field]),
      foldlM_optPair (fun st (o : Option UInt32) => { st with entry := { st.entry with lastSeen := o.getD 0 } }) id rfl (by
        simp +decide [StagedEntry.field])]
    simp +decide [StagedEntry.field, getD_assign, getD_nonzero, hrole, hstate, Except.toOption]
  rw [PairingManager.entryDecoder, andThen_ofTree, hrec]
  rfl

end PairedEntry

namespace PairingManager

/-- The ledger that was written is read back. -/
theorem stageLedger_encode (m : PairingManager) : stageLedger m.ledgerTree.encode = some m.used := by
  have hof : ledgerDecoder.ofTree m.ledgerTree = some (m.used.map id) := list_ofTree PairedEntry.ofTree_tree m.length_used
  have hrun := (run_encode (u := []) m.fits_ledgerTree).mpr hof
  rw [List.append_nil] at hrun
  rw [stageLedger_eq, hrun, List.map_id]
  rfl

end PairingManager

end SlopSync
