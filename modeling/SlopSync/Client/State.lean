import SlopSync.Client.Inbound
import SlopSync.Client.Reassembler
import SlopSync.HmacSha256
import SlopSync.Keyed
import SlopSync.Serial

/-! # The state of a client

The records of `client/client.hpp`, everything a client calls out to (`World`), and a client with its environment and
the history of its interactions (`Sys`).  As for the hub, every history entry keeps the client at that instant. -/

namespace SlopSync

namespace Client

inductive ClientSessionState
  | closed | connecting | helloSent | syncing | live
  deriving DecidableEq, Repr

/-- What the client believes about the machine it talks to. -/
inductive HubAuthState
  | notRequested | unverifiable | pending | verified | mismatch | timeout
  deriving DecidableEq, Repr

structure ClientIdentity where
  instanceId : InstanceId := ByteArr.zero 8
  token : Option Token := none
  clientKind : Bytes := textBytes "generic"
  clientName : Bytes := textBytes "unnamed"
  deriving DecidableEq

structure Wish where
  channelId : UInt16
  rateHz : F32
  priority : Priority
  deriving DecidableEq, Repr

def kMaxWishes : Nat := 16
def kMaxPendingIntents : Nat := 8
def kMaxShadowSlots : Nat := 16

/-! ## Grants -/

/-- The valid entries of `_grants`, in order. -/
@[ext]
structure GrantTable where
  rows : List GrantEntry := []
  bound : rows.length ≤ kMaxGrants := by first | exact Nat.zero_le _ | decide

namespace GrantTable

instance : DecidableEq GrantTable := fun _ _ => decidable_of_iff _ GrantTable.ext_iff.symm

/-- Whether an entry is for this channel. -/
def covers (t : GrantTable) (ch : UInt16) : Bool := t.rows.any fun e => e.channelId == ch

/-- A channel granted before is granted again in place; a new one is dropped when the table is full. -/
def grant (t : GrantTable) (g : GrantEntry) : GrantTable :=
  if t.covers g.channelId then
    { rows := Keyed.modifyFirst (fun e => e.channelId == g.channelId) (fun _ => g) t.rows
      bound := (Keyed.length_modifyFirst _ _ _).trans_le t.bound }
  else if h : t.rows.length < kMaxGrants then
    { rows := t.rows ++ [g]
      bound := by rw [List.length_append]; exact h }
  else t

end GrantTable

/-! ## Shadows -/

/-- The last snapshot accepted of a STATE channel (`channel/state_apply.hpp`). -/
structure ShadowSlot where
  valid : Bool := false
  seq : UInt16 := 0
  value : Bytes := []
  deriving DecidableEq, Repr

/-- Newest wins; a payload that does not fit is refused. -/
def applyStateFrame (frameSeq : UInt16) (payload : Bytes) (slot : ShadowSlot) : Bool × ShadowSlot :=
  if Limits.minTransportPayload < payload.length then (false, slot)
  else if slot.valid && !seqIsNewer frameSeq slot.seq then (false, slot)
  else (true, { valid := true, seq := frameSeq, value := payload })

structure ShadowEntry where
  channelId : UInt16
  slot : ShadowSlot := {}
  deriving DecidableEq, Repr

/-- The entries of `_shadows` in use, in order. -/
structure ShadowTable where
  rows : List ShadowEntry := []
  bound : rows.length ≤ kMaxShadowSlots := by first | exact Nat.zero_le _ | decide
  distinct : (rows.map ShadowEntry.channelId).Nodup := by first | exact List.nodup_nil | decide
  deriving DecidableEq

namespace ShadowTable

def find (t : ShadowTable) (ch : UInt16) : Option ShadowEntry := t.rows.find? fun e => e.channelId == ch

/-- The channels that hold a value. -/
def channels (t : ShadowTable) : List UInt16 := (t.rows.filter fun e => e.slot.valid).map ShadowEntry.channelId

theorem find_eq_none {t : ShadowTable} {ch : UInt16} (h : t.find ch = none) : ch ∉ t.rows.map ShadowEntry.channelId := by
  intro hmem
  obtain ⟨e, he, rfl⟩ := List.mem_map.mp hmem
  exact absurd (List.find?_eq_none.mp h e he) (by simp)

/-- The entry of a channel, made if need be; nothing when the table is full. -/
def findOrCreateShadow (t : ShadowTable) (ch : UInt16) : Option (ShadowEntry × ShadowTable) :=
  match h : t.find ch with
  | some e => some (e, t)
  | none =>
    if hlen : t.rows.length < kMaxShadowSlots then
      some ({ channelId := ch },
        { rows := t.rows ++ [{ channelId := ch }]
          bound := by rw [List.length_append]; exact hlen
          distinct := by
            rw [List.map_append]
            exact List.nodup_append.mpr ⟨t.distinct, List.nodup_singleton ch, fun a ha b hb => by
              rintro rfl
              rw [List.mem_singleton.mp hb] at ha
              exact find_eq_none h ha⟩ })
    else none

/-- Change what is held of a channel. -/
def update (t : ShadowTable) (ch : UInt16) (slot : ShadowSlot) : ShadowTable where
  rows := Keyed.modifyFirst (fun e => e.channelId == ch) (fun e => { e with slot }) t.rows
  bound := (Keyed.length_modifyFirst _ _ _).trans_le t.bound
  distinct := by
    rw [Keyed.map_modifyFirst (f := fun e => { e with slot }) (g := ShadowEntry.channelId) (fun _ => rfl)]
    exact t.distinct

theorem length_channels (t : ShadowTable) : t.channels.length = t.rows.countP fun e => e.slot.valid := by
  rw [channels, List.length_map, List.countP_eq_length_filter]

theorem nodup_channels (t : ShadowTable) : t.channels.Nodup :=
  t.distinct.sublist (List.filter_sublist.map ShadowEntry.channelId)

theorem find_of_mem {t : ShadowTable} {e : ShadowEntry} (he : e ∈ t.rows) : t.find e.channelId = some e := by
  have hd := t.distinct
  unfold find
  generalize t.rows = rows at he hd
  induction rows with
  | nil => cases he
  | cons x rows ih =>
    rw [List.map_cons, List.nodup_cons] at hd
    rw [List.find?_cons]
    rcases List.mem_cons.mp he with rfl | he
    · rw [beq_self_eq_true]
    · have hne : (x.channelId == e.channelId) = false :=
        beq_eq_false_iff_ne.mpr fun heq => hd.1 (heq ▸ List.mem_map_of_mem he)
      rw [hne]
      exact ih he hd.2

/-- The entry is in the table, and nothing that holds a value has come with it. -/
theorem findOrCreate_some {t t' : ShadowTable} {ch : UInt16} {e : ShadowEntry}
    (h : t.findOrCreateShadow ch = some (e, t')) :
    t'.find ch = some e ∧ t'.channels = t.channels ∧ ∀ x ∈ t'.rows, x ∈ t.rows ∨ x.slot.valid = false := by
  unfold findOrCreateShadow at h
  split at h
  · rename_i hfind
    obtain ⟨rfl, rfl⟩ := Prod.mk.inj (Option.some.inj h)
    exact ⟨hfind, rfl, fun _ hx => .inl hx⟩
  · rename_i hfind
    split at h
    · obtain ⟨rfl, rfl⟩ := Prod.mk.inj (Option.some.inj h)
      refine ⟨?_, ?_, fun x hx => ?_⟩
      · have hnone : t.rows.find? (fun e => e.channelId == ch) = none := hfind
        unfold find
        rw [List.find?_append, hnone]
        simp
      · unfold channels
        simp [List.filter_append]
      · rcases List.mem_append.mp hx with hx | hx
        · exact .inl hx
        · rw [List.mem_singleton] at hx
          exact .inr (hx ▸ rfl)
    · cases h

theorem mem_update {t : ShadowTable} {ch : UInt16} {slot : ShadowSlot} {x : ShadowEntry}
    (h : x ∈ (t.update ch slot).rows) : x ∈ t.rows ∨ x = { channelId := ch, slot } := by
  rcases Keyed.mem_modifyFirst h with h | ⟨y, -, hy, rfl⟩
  · exact .inl h
  · rw [beq_iff_eq] at hy
    exact .inr (hy ▸ rfl)

theorem update_found {t : ShadowTable} {ch : UInt16} {e : ShadowEntry} (h : t.find ch = some e) :
    t.update ch e.slot = t := by
  have hrows : Keyed.modifyFirst (fun e => e.channelId == ch) (fun x => { x with slot := e.slot }) t.rows = t.rows :=
    Keyed.modifyFirst_of_eq (a := e) rfl h
  unfold update
  simp only [hrows]

/-- A first value is one more channel that holds one. -/
theorem length_channels_update {t : ShadowTable} {ch : UInt16} {e : ShadowEntry} {slot : ShadowSlot}
    (h : t.find ch = some e) (hv : slot.valid = true) :
    (t.update ch slot).channels.length = t.channels.length + if e.slot.valid then 0 else 1 := by
  have hcount := Keyed.countP_modifyFirst (q := fun x => x.slot.valid) (f := fun x => { x with slot }) h
  rw [length_channels, length_channels]
  unfold update
  dsimp only at hcount ⊢
  rw [hv, if_pos rfl] at hcount
  split <;> simp_all

end ShadowTable

end Client

/-! ## The client -/

open Client in
structure Client where
  id : ClientIdentity := {}
  monoMs : MonotonicMs := {}
  state : ClientSessionState := .closed
  wishes : List Wish := []
  cachedEtag : Etag := ByteArr.zero 8
  hubEtag : Etag := ByteArr.zero 8
  sessionId : UInt32 := 0
  bootId : UInt32 := 0
  cfgGen : UInt16 := 0
  roles : UInt8 := 0
  grants : GrantTable := {}
  shadows : ShadowTable := {}
  -- the gate from SYNCING to LIVE
  requiredRetained : UInt32 := 0
  adoptedCount : UInt32 := 0
  catalogReady : Bool := true
  -- the catalog transfer
  chunkReassembler : ChunkReassembler 64 := {}
  catalogChunkCount : UInt16 := 0
  catalogReqSentCount : Nat := 0
  readyEtag : Bytes := List.replicate 8 0
  readyPending : Bool := false
  lastReadySendMs : UInt32 := 0
  readyAttempts : Nat := 0
  -- intents that wait for an answer
  pending : List UInt16 := []
  nextIntentId : UInt16 := 1
  -- liveness
  lastRxMs : UInt32 := 0
  lastTxMs : UInt32 := 0
  holdingSource : Bool := false
  -- ESTOP
  estopActive : Bool := false
  estopSendFailed : Bool := false
  estopCause : UInt8 := 0
  estopSentSeq : UInt16 := 0
  estopNextSeq : UInt16 := 1
  estopAttempts : Nat := 0
  lastEstopSendMs : UInt32 := 0
  -- trust
  nonce : Nonce := ByteArr.zero 8
  clientVer : Option Bytes := none
  clientNonce : Nonce := ByteArr.zero 8
  sigRequested : Bool := false
  hubPubkey : Bytes := []   -- none pinned: no bytes
  hubAuth : HubAuthState := .notRequested
  sigDeadlineMs : UInt32 := 0
  presentationMode : UInt8 := 0
  -- the probe
  probeActive : Bool := false
  probeStartMs : UInt32 := 0
  probeBytesReceived : UInt32 := 0
  probeFramesReceived : UInt32 := 0
  probeMaxIndexSeen : Option UInt16 := none

namespace Client

/-! ## The outside world -/

/-- Calls to the delegate. -/
inductive Note
  | onStateChange (s : ClientSessionState)
  | onState (ch seq : UInt16) (payload : Bytes)
  | onEcho (intentId : UInt16) (applied : IntentValueMap) (cfgGen : UInt16)
  | onNack (n : NackMsg)
  | onEvent (ch : UInt16) (payload : Bytes)
  | onPendingDropped (intentId : UInt16)
  | onPairGrant (token : Token) (roles : UInt8)
  | onHubAuth (s : HubAuthState)
  | onHubPublicKey (key : Bytes)
  | onRolesChanged (roles : UInt8)
  deriving DecidableEq

structure World (ε : Type) where
  openTransport : ε → Bool × ε
  closeTransport : ε → ε
  write : Bytes → ε → Bool × ε
  nowUs : ε → UInt32
  fill : (n : Nat) → ε → ByteArr n × ε
  hmac : Token → Nonce → Option Token := softwareHmac
  verifyP256 : Bytes → Bytes → Bytes → Bool
  f32Bits : F32 → UInt32
  notify : Note → ε → ε

/-! ## Interactions -/

inductive Io
  /-- `connect()` was called. -/
  | connect
  | opened (ok : Bool)
  | closed
  | rx (f : RxFrame)
  | write (type : FrameType) (ch : UInt16) (payload : Bytes) (ok : Bool)
  | writeEstop (f : EstopFrame) (ok : Bool)
  | note (n : Note)
  /-- A WELCOME was accepted. -/
  | welcomed (m : WelcomeMsg)
  /-- The reassembler took this chunk of the catalog. -/
  | chunk (count index : UInt16)
  /-- The catalog is complete. -/
  | assembled

/-- The newest entry first. -/
abbrev History := List (Client × Io)

structure Sys (ε : Type) where
  client : Client
  env : ε
  trace : History := []

section

variable {ε : Type}

namespace Sys

/-- Append to the history. -/
def log (s : Sys ε) (io : Io) : Sys ε := { s with trace := (s.client, io) :: s.trace }

/-- Change the client's own fields. -/
def modify (s : Sys ε) (f : Client → Client) : Sys ε := { s with client := f s.client }

end Sys

end

end Client

end SlopSync
