import SlopSync.CborReader
import SlopSync.Pairing

/-! # The persisted ledger

`PairingManager::decodeLedger` of `session/pairing.hpp`: the whole ledger is one CBOR array of maps.  Every entry is
staged first; a blob that fails anywhere changes nothing. -/

namespace SlopSync

/-- A byte string of exactly `n` bytes. -/
def ByteArr.of (n : Nat) (bs : Bytes) : Option (ByteArr n) :=
  if h : bs.length = n then some ⟨bs, h⟩ else none

/-- The level with this wire value. -/
def AccessLevel.ofCode : Nat → Option AccessLevel
  | 0 => some .watch | 1 => some .control | 2 => some .configure
  | _ => none

/-- The trust state with this wire value. -/
def TrustState.ofCode : Nat → Option TrustState
  | 0 => some .trusted | 1 => some .recognizedPending
  | _ => none

namespace TrustLedgerKey

def instanceId : Nat := 1
def kind : Nat := 2
def name : Nat := 3
def version : Nat := 4
def firstSeen : Nat := 5
def lastSeen : Nat := 6
def role : Nat := 7
def state : Nat := 8
def presentationMode : Nat := 9
def pairingMode : Nat := 10
/-- Only in the persisted form. -/
def token : Nat := 11

end TrustLedgerKey

/-- An entry that is being read, and whether it has named its device. -/
structure StagedEntry where
  entry : PairedEntry := { instanceId := ByteArr.zero 8, token := ByteArr.zero 16 }
  gotInstance : Bool := false
  deriving DecidableEq

namespace StagedEntry

open CborReader

variable (st : StagedEntry)

/-- A text of at most `max` bytes. -/
def readText (max : Nat) (r : CborReader) : Option (Bytes × CborReader) := do
  let (v, r) ← r.readTstr.toOption
  if max < v.length then none else some (v, r)

/-- An unsigned value of at most `max`. -/
def readUpTo (max : Nat) (r : CborReader) : Option (Nat × CborReader) := do
  let (v, r) ← r.readUint.toOption
  if max < v.toNat then none else some (v.toNat, r)

/-- The field under this key; unknown ones are skipped. -/
def readField (k : Nat) (r : CborReader) : Option (StagedEntry × CborReader) :=
  let put (e : PairedEntry) (r : CborReader) : StagedEntry × CborReader := ({ st with entry := e }, r)
  let e := st.entry
  if k = TrustLedgerKey.instanceId then do
    let (v, r) ← r.readBstr.toOption
    let instanceId ← ByteArr.of 8 v
    return ({ entry := { e with instanceId }, gotInstance := true }, r)
  else if k = TrustLedgerKey.kind then do
    let (v, r) ← readText Limits.trustLedgerKindMaxBytes r
    return put { e with kind := .assign v } r
  else if k = TrustLedgerKey.name then do
    let (v, r) ← readText Limits.trustLedgerNameMaxBytes r
    return put { e with name := .assign v } r
  else if k = TrustLedgerKey.version then do
    let (v, r) ← readText Limits.clientVerMaxBytes r
    return put { e with version := .assign v } r
  else if k = TrustLedgerKey.firstSeen then do
    let (v, r) ← r.readUint.toOption
    return put { e with firstSeen := v.toUInt32 } r
  else if k = TrustLedgerKey.lastSeen then do
    let (v, r) ← r.readUint.toOption
    return put { e with lastSeen := v.toUInt32 } r
  else if k = TrustLedgerKey.role then do
    let (v, r) ← r.readUint.toOption
    let role ← AccessLevel.ofCode v.toNat
    return put { e with role } r
  else if k = TrustLedgerKey.state then do
    let (v, r) ← r.readUint.toOption
    let state ← TrustState.ofCode v.toNat
    return put { e with state } r
  else if k = TrustLedgerKey.presentationMode then do
    let (v, r) ← readUpTo 0xFF r
    return put { e with presentationMode := UInt8.ofNat v } r
  else if k = TrustLedgerKey.pairingMode then do
    let (v, r) ← readUpTo 0xFF r
    return put { e with pairingMode := UInt8.ofNat v } r
  else if k = TrustLedgerKey.token then do
    let (v, r) ← r.readBstr.toOption
    let token ← ByteArr.of 16 v
    return put { e with token } r
  else do
    let r ← r.skipValue.toOption
    return (st, r)

/-- The next `n` fields. -/
def readFields : Nat → StagedEntry → CborReader → Option (StagedEntry × CborReader)
  | 0, st, r => some (st, r)
  | n + 1, st, r => do
    let (k, r) ← r.readKey.toOption
    let (st, r) ← st.readField k r
    readFields n st r

end StagedEntry

namespace PairingManager

/-- One entry, which must name its device. -/
def readEntry (r : CborReader) : Option (PairedEntry × CborReader) := do
  let (n, r) ← r.readMapHeader.toOption
  let (st, r) ← StagedEntry.readFields n {} r
  if st.gotInstance then some (st.entry, r) else none

/-- The next `n` entries. -/
def readEntries : Nat → CborReader → Option (List PairedEntry)
  | 0, _ => some []
  | n + 1, r => do
    let (e, r) ← readEntry r
    let es ← readEntries n r
    return e :: es

/-- The entries of a persisted ledger. -/
def stageLedger (blob : Bytes) : Option (List PairedEntry) := do
  let (n, r) ← CborReader.readArrayHeader { rest := blob } |>.toOption
  if Limits.pairedDevicesMax < n then none else readEntries n r

theorem length_readEntries : ∀ {n : Nat} {r : CborReader} {es : List PairedEntry}, readEntries n r = some es →
    es.length = n
  | 0, _, _, h => by
    cases h
    rfl
  | n + 1, r, es, h => by
    simp only [readEntries, Option.bind_eq_bind, Option.bind_eq_some_iff, Option.pure_def, Option.some.injEq] at h
    obtain ⟨⟨e, r'⟩, -, rest, hrest, rfl⟩ := h
    rw [List.length_cons, length_readEntries hrest]

theorem length_stageLedger {blob : Bytes} {es : List PairedEntry} (h : stageLedger blob = some es) :
    es.length ≤ Limits.pairedDevicesMax := by
  simp only [stageLedger, Option.bind_eq_bind, Option.bind_eq_some_iff] at h
  obtain ⟨⟨n, r⟩, -, hes⟩ := h
  split at hes
  · cases hes
  · rw [length_readEntries hes]
    omega

/-- The entries in the first slots. -/
def Ledger.ofEntries (es : List PairedEntry) (h : es.length ≤ Limits.pairedDevicesMax) : Ledger where
  slots := es.map some ++ List.replicate (Limits.pairedDevicesMax - es.length) none
  size := by
    rw [List.length_append, List.length_map, List.length_replicate]
    omega

/-- Replace the ledger by a persisted one, whole or not at all. -/
def decodeLedger (m : PairingManager) (blob : Bytes) : Option PairingManager :=
  match h : stageLedger blob with
  | none => none
  | some es => some (m.loadLedger (Ledger.ofEntries es (length_stageLedger h)))

end PairingManager

end SlopSync
