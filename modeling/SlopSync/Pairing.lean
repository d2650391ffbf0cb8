import SlopSync.Keyed
import SlopSync.Messages
import SlopSync.Serial

/-! # The trust ledger and the pairing ceremonies

`session/pairing.hpp`.  `PairingManager` keeps the paired devices, the knocks that wait for an answer and
the two pairing windows.  Tokens come from the injected random source, so `grant` takes the fresh one. -/

namespace SlopSync

open Keyed

/-! ## Short strings -/

/-- A text cut to `n` bytes. -/
structure BoundedString (n : Nat) where
  data : Bytes := []
  fits : data.length ≤ n := by first | exact Nat.zero_le _ | simp
  deriving DecidableEq

namespace BoundedString

def assign {n : Nat} (s : Bytes) : BoundedString n :=
  ⟨s.take n, by rw [List.length_take]; exact Nat.min_le_left n s.length⟩

/-- Equal to the cut form of `s`. -/
def sameAs {n : Nat} (b : BoundedString n) (s : Bytes) : Bool := s.take n == b.data

def empty {n : Nat} (b : BoundedString n) : Bool := b.data.isEmpty

end BoundedString

abbrev KindStr := BoundedString Limits.trustLedgerKindMaxBytes
abbrev NameStr := BoundedString Limits.trustLedgerNameMaxBytes
abbrev VersionStr := BoundedString Limits.clientVerMaxBytes

/-! ## Pending knocks -/

structure PendingKnock where
  instanceId : InstanceId
  sessionId : UInt32
  expiresAtMs : UInt32
  mode : UInt8
  kind : KindStr := {}
  name : NameStr := {}
  version : VersionStr := {}
  reapproval : Bool := false
  deriving DecidableEq

theorem PendingPairingList.length_blank :
    (List.replicate Limits.pairingPendingMax (none : Option PendingKnock)).length = Limits.pairingPendingMax :=
  List.length_replicate

structure PendingPairingList where
  slots : List (Option PendingKnock) := List.replicate Limits.pairingPendingMax none
  size : slots.length = Limits.pairingPendingMax := by first | exact PendingPairingList.length_blank | decide
  deriving DecidableEq

namespace PendingPairingList

def isFor (inst : InstanceId) (k : PendingKnock) : Bool := k.instanceId == inst

def find (l : PendingPairingList) (inst : InstanceId) : Option PendingKnock := findUsed (isFor inst) l.slots

/-- Change the knock of `inst` in place. -/
def modify (l : PendingPairingList) (inst : InstanceId) (f : PendingKnock → PendingKnock) : PendingPairingList where
  slots := modifyFirst (fun o => o.any (isFor inst)) (Option.map f) l.slots
  size := by rw [length_modifyFirst]; exact l.size

/-- Add a knock, or refresh the one of this instance.  Refused when four other instances wait. -/
def add (l : PendingPairingList) (inst : InstanceId) (sid expiresAtMs : UInt32) (mode : UInt8) :
    Option PendingPairingList :=
  if (l.find inst).isSome then
    some (l.modify inst fun k => { k with sessionId := sid, expiresAtMs, mode })
  else match h : fillFirst { instanceId := inst, sessionId := sid, expiresAtMs, mode } l.slots with
    | none => none
    | some slots => some ⟨slots, (length_fillFirst h).trans l.size⟩

def remove (l : PendingPairingList) (inst : InstanceId) : PendingPairingList where
  slots := modifyFirst (fun o => o.any (isFor inst)) (fun _ => none) l.slots
  size := by rw [length_modifyFirst]; exact l.size

/-- The knocks `p` accepts, in slot order. -/
def select (l : PendingPairingList) (p : PendingKnock → Bool) : List PendingKnock :=
  l.slots.filterMap (fun o => o.filter p)

def drop (l : PendingPairingList) (p : PendingKnock → Bool) : PendingPairingList where
  slots := l.slots.map (fun o => if o.any p then none else o)
  size := by rw [List.length_map]; exact l.size

def expired (nowMs : UInt32) (k : PendingKnock) : Bool := timeReached nowMs k.expiresAtMs
def ofSession (sid : UInt32) (k : PendingKnock) : Bool := k.sessionId == sid

def count (l : PendingPairingList) : Nat := (l.slots.filter Option.isSome).length

end PendingPairingList

/-! ## The ledger -/

inductive TrustState
  | trusted | recognizedPending
  deriving DecidableEq, Repr

def TrustState.code : TrustState → UInt8
  | .trusted => 0 | .recognizedPending => 1

structure PairedEntry where
  instanceId : InstanceId
  token : Token
  role : AccessLevel := .control
  state : TrustState := .trusted
  presentationMode : UInt8 := 0
  pairingMode : UInt8 := PairingModes.knockApprove
  kind : KindStr := {}
  name : NameStr := {}
  version : VersionStr := {}
  firstSeen : UInt32 := 0
  lastSeen : UInt32 := 0
  deriving DecidableEq

theorem Ledger.length_blank :
    (List.replicate Limits.pairedDevicesMax (none : Option PairedEntry)).length = Limits.pairedDevicesMax :=
  List.length_replicate

structure Ledger where
  slots : List (Option PairedEntry) := List.replicate Limits.pairedDevicesMax none
  size : slots.length = Limits.pairedDevicesMax := by first | exact Ledger.length_blank | decide
  deriving DecidableEq

structure PairingManager where
  entries : Ledger := {}
  pending : PendingPairingList := {}
  pin : Bytes := []
  windowOpenedMs : UInt32 := 0
  presenceOpenedMs : UInt32 := 0
  wallSeconds : UInt32 := 0
  generation : UInt16 := 1
  presenceDefaultRole : AccessLevel := .control
  autoKeepMax : AccessLevel := .watch
  windowOpenFlag : Bool := false
  presenceOpenFlag : Bool := false
  knockApproveEnabled : Bool := true
  dirty : Bool := false
  failCount : UInt8 := 0
  deriving DecidableEq

namespace PairingManager

def touch (m : PairingManager) : PairingManager :=
  { m with generation := m.generation + 1, dirty := true }

def isFor (inst : InstanceId) (e : PairedEntry) : Bool := e.instanceId == inst

def findByInstance (m : PairingManager) (inst : InstanceId) : Option PairedEntry :=
  findUsed (isFor inst) m.entries.slots

/-- Change the entry of `inst` in place. -/
def modify (m : PairingManager) (inst : InstanceId) (f : PairedEntry → PairedEntry) : PairingManager :=
  { m with entries :=
    { slots := modifyFirst (fun o => o.any (isFor inst)) (Option.map f) m.entries.slots
      size := by rw [length_modifyFirst]; exact m.entries.size } }

/-! ### Windows -/

def openWindow (m : PairingManager) (pinAscii : Bytes) (nowMs : UInt32) : PairingManager :=
  { m with pin := pinAscii, windowOpenedMs := nowMs, windowOpenFlag := true, failCount := 0 }

def windowOpen (m : PairingManager) (nowMs : UInt32) : Bool :=
  m.windowOpenFlag && !timeReached nowMs (m.windowOpenedMs + Limits.pairingWindowDefaultS * 1000)

def openPresenceWindow (m : PairingManager) (nowMs : UInt32) : PairingManager :=
  { m with presenceOpenedMs := nowMs, presenceOpenFlag := true }

def closePresenceWindow (m : PairingManager) : PairingManager := { m with presenceOpenFlag := false }

def presenceWindowOpen (m : PairingManager) (nowMs : UInt32) : Bool :=
  m.presenceOpenFlag && !timeReached nowMs (m.presenceOpenedMs + Limits.pairingWindowDefaultS * 1000)

def hasConfigureToken (m : PairingManager) : Bool :=
  m.entries.slots.any (fun o => o.any (fun e => e.role == .configure))

/-- Nobody has claimed a factory-fresh machine yet, so presence grants `configure` there. -/
def presenceGrantRole (m : PairingManager) : AccessLevel :=
  if m.hasConfigureToken then m.presenceDefaultRole else .configure

def offeredModes (m : PairingManager) (nowMs : UInt32) : UInt8 :=
  (if m.knockApproveEnabled then PairingModes.knockApprove else 0) |||
    (if m.windowOpen nowMs then PairingModes.pinProof else 0) |||
    (if m.presenceWindowOpen nowMs then PairingModes.pushToPair else 0)

/-! ### Granting -/

/-- There is an entry of `inst` or a free slot for one. -/
def canGrant (m : PairingManager) (inst : InstanceId) : Bool :=
  (m.findByInstance inst).isSome || m.entries.slots.any Option.isNone

/-- Create or replace the entry of `inst`.  The answer is the manager unchanged when the ledger is full of
other devices (`canGrant` is false). -/
def grant (m : PairingManager) (inst : InstanceId) (role : AccessLevel) (pairingMode : UInt8) (token : Token) :
    PairingManager :=
  if (m.findByInstance inst).isSome then
    (m.modify inst fun e =>
      { e with token, role, pairingMode, state := .trusted, lastSeen := m.wallSeconds }).touch
  else
    let e : PairedEntry :=
      { instanceId := inst, token, role, pairingMode, firstSeen := m.wallSeconds, lastSeen := m.wallSeconds }
    match h : fillFirst e m.entries.slots with
    | none => m
    | some slots => { m with entries := ⟨slots, (length_fillFirst h).trans m.entries.size⟩ }.touch

inductive PairOutcome
  | granted | denied | windowClosed
  deriving DecidableEq, Repr

/-- The proof check of the PIN ceremony: three wrong proofs close the window. -/
def notePinFailure (m : PairingManager) : PairingManager :=
  let failCount := m.failCount + 1
  { m with failCount, windowOpenFlag := if 3 ≤ failCount then false else m.windowOpenFlag }

/-! ### Validation and the change tripwire -/

def validate (m : PairingManager) (inst : InstanceId) (token : Token) : AccessLevel :=
  match m.findByInstance inst with
  | none => .watch
  | some e =>
    if e.token ≠ token then .watch
    else if e.state = .recognizedPending then .watch
    else e.role

/-- The same answer from a proof of the token; the flag says whether the proof itself verified. -/
def validateProof (m : PairingManager) (hmac : Token → Nonce → Option Token) (inst : InstanceId) (proof : Token)
    (nonce : Nonce) : AccessLevel × Bool :=
  match m.findByInstance inst with
  | none => (.watch, false)
  | some e =>
    match hmac e.token nonce with
    | none => (.watch, false)
    | some mac =>
      if mac ≠ proof then (.watch, false)
      else if e.state = .recognizedPending then (.watch, true)
      else (e.role, true)

structure HelloObservation where
  known : Bool := false
  versionChanged : Bool := false
  suspended : Bool := false
  effectiveRole : AccessLevel := .watch
  suspendedRole : AccessLevel := .watch
  deriving DecidableEq, Repr

/-- What a HELLO of this device does to its entry: the labels are refreshed, and a changed version either
re-keeps or suspends the device. -/
def observedEntry (m : PairingManager) (e : PairedEntry) (kind name : Bytes) (ver : Option Bytes) (pm : UInt8) :
    PairedEntry :=
  let e := { e with
    kind := .assign kind, name := .assign name, presentationMode := pm, lastSeen := m.wallSeconds }
  match ver with
  | none => e
  | some v =>
    if e.version.empty then { e with version := .assign v }
    else if e.version.sameAs v || e.state == .recognizedPending then e
    else if e.role ≤ m.autoKeepMax then { e with version := .assign v }
    else { e with state := .recognizedPending }

/-- The tripwire fired on this HELLO. -/
def tripped (e : PairedEntry) (ver : Option Bytes) : Bool :=
  ver.any fun v => !e.version.sameAs v && !e.version.empty && e.state != .recognizedPending

/-- Look the device up by its instance alone and record what it reported. -/
def observeHello (m : PairingManager) (inst : InstanceId) (kind name : Bytes) (ver : Option Bytes) (pm : UInt8) :
    HelloObservation × PairingManager :=
  match m.findByInstance inst with
  | none => ({}, m)
  | some e =>
    let e' := m.observedEntry e kind name ver pm
    let versionChanged := tripped e ver
    let recorded := ver.isSome && e.version.empty
    let m' := m.modify inst fun _ => e'
    let m' :=
      if versionChanged || recorded then m'.touch
      else if e.state != .recognizedPending then { m' with dirty := true }
      else m'
    ({ known := true
       versionChanged
       suspended := versionChanged && !decide (e.role ≤ m.autoKeepMax)
       effectiveRole := if e'.state = .recognizedPending then .watch else e'.role
       suspendedRole := e.role }, m')

theorem isFor_iff {inst : InstanceId} {e : PairedEntry} : isFor inst e = true ↔ e.instanceId = inst := beq_iff_eq

theorem findByInstance_some {m : PairingManager} {inst : InstanceId} {e : PairedEntry}
    (h : m.findByInstance inst = some e) : e.instanceId = inst := isFor_iff.mp (findUsed_some h)

theorem findByInstance_modify_self {m : PairingManager} {inst : InstanceId} {f : PairedEntry → PairedEntry}
    (hf : ∀ e, e.instanceId = inst → (f e).instanceId = inst) :
    (m.modify inst f).findByInstance inst = (m.findByInstance inst).map f :=
  findUsed_modifyFirst_self (fun e he => isFor_iff.mpr (hf e (isFor_iff.mp he))) m.entries.slots

theorem findByInstance_modify_other {m : PairingManager} {inst x : InstanceId} {f : PairedEntry → PairedEntry}
    (hf : ∀ e, e.instanceId = inst → (f e).instanceId = inst) (hx : x ≠ inst) :
    (m.modify inst f).findByInstance x = m.findByInstance x := by
  have hne : ∀ e : PairedEntry, e.instanceId = inst → isFor x e = false := fun e he =>
    Bool.eq_false_iff.mpr fun h => hx ((isFor_iff.mp h).symm.trans he)
  exact findUsed_modifyFirst_other (fun e he => hne e (isFor_iff.mp he))
    (fun e he => hne (f e) (hf e (isFor_iff.mp he))) m.entries.slots

/-- An observation changes labels, version and state of an entry, and nothing else. -/
theorem observedEntry_fixed (m : PairingManager) (e : PairedEntry) (kind name : Bytes) (ver : Option Bytes) (pm : UInt8) :
    (m.observedEntry e kind name ver pm).instanceId = e.instanceId ∧
      (m.observedEntry e kind name ver pm).token = e.token ∧ (m.observedEntry e kind name ver pm).role = e.role := by
  unfold observedEntry
  dsimp only
  split
  · exact ⟨rfl, rfl, rfl⟩
  · split
    · exact ⟨rfl, rfl, rfl⟩
    · split
      · exact ⟨rfl, rfl, rfl⟩
      · split <;> exact ⟨rfl, rfl, rfl⟩

/-- The HELLO's version suspends the entry. -/
def suspends (m : PairingManager) (e : PairedEntry) (ver : Option Bytes) : Bool :=
  tripped e ver && !decide (e.role ≤ m.autoKeepMax)

/-- An entry is suspended after an observation iff it was before or is now. -/
theorem state_observedEntry (m : PairingManager) (e : PairedEntry) (kind name : Bytes) (ver : Option Bytes)
    (pm : UInt8) : (m.observedEntry e kind name ver pm).state = .recognizedPending ↔
      e.state = .recognizedPending ∨ m.suspends e ver = true := by
  unfold observedEntry suspends tripped
  cases ver with
  | none => simp
  | some v =>
    dsimp only [Option.any_some]
    cases hem : e.version.empty
    · cases hs : e.version.sameAs v
      · cases hst : e.state
        · by_cases hk : e.role ≤ m.autoKeepMax <;> simp [hk]
        · simp
      · simp
    · simp

/-- What an observation of a device the ledger knows answers and records. -/
theorem observeHello_known {m : PairingManager} {inst : InstanceId} {e : PairedEntry}
    (h : m.findByInstance inst = some e) (kind name : Bytes) (ver : Option Bytes) (pm : UInt8) :
    (m.observeHello inst kind name ver pm).1.known = true ∧
    (m.observeHello inst kind name ver pm).1.suspended = m.suspends e ver ∧
    (m.observeHello inst kind name ver pm).1.effectiveRole =
      (if e.state = .recognizedPending ∨ m.suspends e ver = true then .watch else e.role) ∧
    (m.observeHello inst kind name ver pm).2.entries =
      (m.modify inst fun _ => m.observedEntry e kind name ver pm).entries := by
  unfold observeHello
  rw [h]
  dsimp only
  refine ⟨rfl, rfl, ?_, ?_⟩
  · simp only [state_observedEntry, (observedEntry_fixed m e kind name ver pm).2.2]
  · split
    · rfl
    · split <;> rfl

/-! ### Ledger management -/

def revoke (m : PairingManager) (inst : InstanceId) : Option PairingManager :=
  if (m.findByInstance inst).isSome then
    some ({ m with entries :=
      { slots := modifyFirst (fun o => o.any (isFor inst)) (fun _ => none) m.entries.slots
        size := by rw [length_modifyFirst]; exact m.entries.size } }).touch
  else none

def entryCount (m : PairingManager) : Nat := (m.entries.slots.filter Option.isSome).length

/-- The raw slot `i`, as a blob request addresses it. -/
def slot (m : PairingManager) (i : Nat) : Option PairedEntry := (m.entries.slots[i]?).join

/-- Restore one entry at boot. -/
def importEntry (m : PairingManager) (e : PairedEntry) : PairingManager :=
  match h : fillFirst e m.entries.slots with
  | none => m
  | some slots => { m with entries := ⟨slots, (length_fillFirst h).trans m.entries.size⟩ }.touch

/-- Replace the whole ledger by a decoded one. -/
def loadLedger (m : PairingManager) (l : Ledger) : PairingManager := { m with entries := l }.touch

/-- One ledger item on the wire; the token is not part of it. -/
def encodeEntry (e : PairedEntry) (cap : Nat) : Option Bytes :=
  let text (b : Bytes) : Option Bytes := textOpt b
  let num (v : UInt32) : Option UInt32 := if v = 0 then none else some v
  let w : CborWriter := { cap }
  let w := w.mapHeader (5 + optCount (text e.kind.data) + optCount (text e.name.data) +
    optCount (text e.version.data) + optCount (num e.firstSeen) + optCount (num e.lastSeen))
  let w := (w.key 1).bstrVal e.instanceId.val
  let w := w.optKey 2 (text e.kind.data) CborWriter.tstrVal
  let w := w.optKey 3 (text e.name.data) CborWriter.tstrVal
  let w := w.optKey 4 (text e.version.data) CborWriter.tstrVal
  let w := w.optKey 5 (num e.firstSeen) (fun w v => w.uintVal v.toNat)
  let w := w.optKey 6 (num e.lastSeen) (fun w v => w.uintVal v.toNat)
  let w := (w.key 7).uintVal e.role.code.toNat
  let w := (w.key 8).uintVal e.state.code.toNat
  let w := (w.key 9).uintVal e.presentationMode.toNat
  let w := (w.key 10).uintVal e.pairingMode.toNat
  w.result

end PairingManager

end SlopSync
