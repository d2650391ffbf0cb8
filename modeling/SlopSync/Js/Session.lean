import SlopSync.Js.Blob
import SlopSync.Js.Catalog
import SlopSync.Js.Cbor
import SlopSync.Js.Intents
import SlopSync.Js.Sha256

/-! # The JavaScript session

`createSession` of `session.js`: the variables its closures share and the callbacks that change them, one event for each
callback run.  Callbacks of an old socket stay attached when a new one is opened, and `ws` is the last one opened.  Of
the frames only those that touch the catalog, the phase or a promise are here; what is sent besides (CLOCK, SUBSCRIBE,
PING, the raw e-stop) changes none of these. -/

namespace SlopSync.Js

/-- What `catalogStore.load` returns. -/
structure CachedCatalog where
  etag : Bytes
  bytes : Bytes
  deriving DecidableEq, Repr

/-- The options of a session and the functions it calls. -/
structure Setup (ν : Type) where
  autoCatalog : Bool := true
  decodeCatalog : Bytes → Option (List ChannelEntry)     -- none where it throws
  catalogEtag : Bytes → Bytes
  encodeValues : ChannelEntry → ν → Option Bytes          -- by the types of the schema

/-- The phases of a session. -/
inductive SessionState
  | closed | helloSent | syncing | live
  deriving DecidableEq, Repr

/-- What the session keeps of a WELCOME. -/
structure Welcome where
  catalogEtag : Option Bytes := none
  retainedPending : Nat := 0
  deriving DecidableEq, Repr

/-- The frames that bear on the catalog and on intents. -/
inductive Frame
  | welcome (w : Welcome)
  | blobChunk (payload : Bytes)
  | state (channel : Nat)
  | echo (e : Echo)
  | nack (channel : Nat) (n : Nack)
  | other
  deriving DecidableEq, Repr

/-- The frames a session sends. -/
inductive Sent
  | hello
  | blobReq (chunks : List Nat)
  | catalogReady (etag : Bytes)
  | intent (channel id : Nat) (values : Bytes)
  | goodbye
  deriving DecidableEq, Repr

/-- What a session does that can be seen from outside. -/
inductive Act
  | opened
  | sent (f : Sent)
  | matched (etag : Bytes)               -- the cached catalog is the one of this WELCOME
  | adopted (bytes : Bytes)
  | live (bytes : Bytes)                 -- with the catalog held
  | decoded (channel : Nat) (bytes : Bytes)   -- a STATE frame, by a layout of this catalog
  | raw (channel : Nat)
  | saved (etag bytes : Bytes)
  | cleared
  deriving DecidableEq, Repr

/-- A catalog adopted: its bytes and what they decode to. -/
structure Adopted where
  bytes : Bytes
  entries : List ChannelEntry
  deriving DecidableEq, Repr

def Adopted.channelMap (a : Adopted) : OrderedMap Nat ChannelEntry := catalogChannelMap a.entries

/-- `sockets` counts the sockets opened so far; `wsOpen` is whether the last one is in its OPEN state.  `log` has the last
act first. -/
structure Session where
  phase : SessionState := .closed
  sockets : Nat := 0
  wsOpen : Bool := false
  catalogEtag : Option Bytes := none
  readyEtag : Option Bytes := none
  ready : Bool := false
  cachedCatalog : Option CachedCatalog := none
  catalog : Option Adopted := none
  blob : BlobReassembler := {}
  readyPending : Bool := false
  readyAttempts : Nat := 0
  lastReadySendMs : Nat := 0
  requiredRetained : Nat := 0
  adoptedChannels : List Nat := []
  pumping : Bool := false
  intents : Intents := {}
  log : List Act := []

namespace Session

variable {ν : Type} (c : Setup ν)

def note (a : Act) (s : Session) : Session := { s with log := a :: s.log }

/-- Nothing goes out unless the socket is open. -/
def sendFrame (f : Sent) (s : Session) : Session := if s.wsOpen then s.note (.sent f) else s

/-- The reassembler starts over and the whole catalog is asked for. -/
def requestCatalog (s : Session) : Session := { s with blob := s.blob.reset }.sendFrame (.blobReq [])

/-- Nothing is changed by bytes that do not decode. -/
def adoptCatalog (bytes : Bytes) (s : Session) : Option Session :=
  (c.decodeCatalog bytes).map fun entries => { s with catalog := some ⟨bytes, entries⟩ }.note (.adopted bytes)

/-- LIVE once every retained channel has been adopted. -/
def checkLiveTransition (s : Session) : Session :=
  if s.phase ≠ .syncing then s
  else
    match s.catalog with
    | none => s
    | some a =>
      if s.adoptedChannels.length < s.requiredRetained then s
      else { s with phase := .live }.note (.live a.bytes)

/-! ## READY -/

def readyMaxAttempts : Nat := 15000 / 500

/-- CATALOG_READY is sent, and again from the pump. -/
def sendCatalogReady (etag : Bytes) (nowMs : Nat) (s : Session) : Session :=
  let s := { s with readyEtag := some etag }
  if s.wsOpen then
    { s with readyPending := true, lastReadySendMs := nowMs, readyAttempts := s.readyAttempts + 1 }.note
      (.sent (.catalogReady etag))
  else s

/-- CATALOG_READY is repeated until a STATE comes or the attempts run out. -/
def pumpCatalogReady (nowMs : Nat) (s : Session) : Session :=
  if !s.readyPending then s
  else if readyMaxAttempts ≤ s.readyAttempts then { s with readyPending := false }
  else if nowMs < s.lastReadySendMs + 500 then s
  else
    { s.sendFrame (.catalogReady (s.readyEtag.getD [])) with
      lastReadySendMs := nowMs, readyAttempts := s.readyAttempts + 1 }

/-- The missing chunks are asked for, or the whole catalog once the transfer has timed out. -/
def pumpBlobRepair (nowMs : Nat) (s : Session) : Session :=
  if !s.blob.active || s.blob.complete then s
  else if s.blob.timedOut nowMs then s.requestCatalog
  else if !s.blob.gapElapsed nowMs then s
  else if s.blob.missingIndices.isEmpty then s
  else
    { s.sendFrame (.blobReq (s.blob.missingIndices.take 32)) with blob := s.blob.noteRepairSent nowMs }

/-! ## The frames -/

/-- The cached catalog, when it is the one the hub named. -/
def matchedCatalog (s : Session) : Option CachedCatalog :=
  s.cachedCatalog.filter fun cached => s.catalogEtag == some cached.etag

def clearCache (s : Session) : Session := { s with cachedCatalog := none }.note .cleared

def refetch (s : Session) : Session := if c.autoCatalog then s.requestCatalog else s

/-- A cache that matches opens the data plane at once, unless it does not decode. -/
def adoptMatched (cached : CachedCatalog) (s : Session) : Session :=
  let s := { s with ready := true, readyEtag := some cached.etag }.note (.matched cached.etag)
  match s.adoptCatalog c cached.bytes with
  | some s => s
  | none => { s.clearCache with ready := false }.refetch c

/-- No etag, or another one: the cache is cleared and the catalog asked for. -/
def forgetUnmatched (s : Session) : Session :=
  let s := if s.cachedCatalog.isSome then s.clearCache else s
  { s with ready := false }.refetch c

/-- A WELCOME: what it declares decides whether the cached catalog is used. -/
def handleWelcome (w : Welcome) (s : Session) : Session :=
  let s := { s with
    catalogEtag := w.catalogEtag, adoptedChannels := [], requiredRetained := w.retainedPending
    phase := .syncing, readyPending := false, readyAttempts := 0, blob := s.blob.reset }
  let s := match s.matchedCatalog with
    | some cached => s.adoptMatched c cached
    | none => s.forgetUnmatched c
  { s with pumping := true }.checkLiveTransition

/-- A blob over the cap ends the connection. -/
def refuseBlob (s : Session) : Session := { s.sendFrame .goodbye with wsOpen := false }

/-- A chunk of the transfer that is running. -/
def continues (h : BlobChunk) (s : Session) : Bool :=
  s.blob.active && s.blob.chunkCount == h.chunkCount && s.blob.totalBytes == h.totalBytes

/-- A whole catalog has come. -/
def adoptTransferred (nowMs : Nat) (s : Session) : Session :=
  let bytes := s.blob.assembled
  let s := { s with blob := s.blob.reset }
  let digest := c.catalogEtag bytes
  let verified := s.catalogEtag == some digest
  match s.adoptCatalog c bytes with
  | none => s
  | some s =>
    let s := if verified then s.note (.saved digest bytes) else s
    (s.sendCatalogReady digest nowMs).checkLiveTransition

/-- A chunk of another transfer starts the reassembler over. -/
def startTransfer (h : BlobChunk) (nowMs : Nat) (s : Session) : Session :=
  if s.continues h then s else { s with blob := s.blob.begin h nowMs }

/-- A chunk that is accepted is inserted; the last one ends the transfer. -/
def insertChunk (h : BlobChunk) (nowMs : Nat) (s : Session) : Session :=
  if !s.blob.accepts h then s
  else
    let s := { s with blob := s.blob.insert h nowMs }
    if s.blob.complete then s.adoptTransferred c nowMs else s

/-- A BLOB_CHUNK starts a transfer over, advances it or completes it. -/
def handleBlobChunk (payload : Bytes) (nowMs : Nat) (s : Session) : Session :=
  match parseBlobChunk payload with
  | none => s
  | some h =>
    if h.ns ≠ 0 then s
    else if h.chunkCount = 0 ∨ h.chunkCount ≤ h.chunkIndex then s
    else if !s.continues h && decide (s.blob.maxTotalBytes < h.totalBytes) then s.refuseBlob
    else (s.startTransfer h nowMs).insertChunk c h nowMs

/-- The catalog whose layout a STATE frame is decoded by. -/
def layoutFor (channel : Nat) (s : Session) : Option Bytes :=
  match s.catalog with
  | none => none
  | some a =>
    match a.channelMap.get channel with
    | none => none
    | some e => if e.layout then some a.bytes else none

/-- The first STATE also ends the repetition of CATALOG_READY. -/
def handleState (channel : Nat) (s : Session) : Session :=
  let s := { s with readyPending := false, ready := true }
  let s := match s.layoutFor channel with
    | some bytes => s.note (.decoded channel bytes)
    | none => s.note (.raw channel)
  if channel ∈ s.adoptedChannels then s
  else { s with adoptedChannels := s.adoptedChannels ++ [channel] }.checkLiveTransition

/-- A frame of the session, by type. -/
def dispatch (f : Frame) (nowMs : Nat) (s : Session) : Session :=
  match f with
  | .welcome w => s.handleWelcome c w
  | .blobChunk payload => s.handleBlobChunk c payload nowMs
  | .state channel => s.handleState channel
  | .echo e => { s with intents := s.intents.echo e }
  | .nack channel n => { s with intents := s.intents.nack channel n }
  | .other => s

/-! ## Sending intents -/

/-- The entry and the encoded values of an intent that may be sent. -/
def sendable (channel : Nat) (s : Session) : Option ChannelEntry :=
  if s.phase ≠ .live then none
  else (s.catalog.bind fun a => a.channelMap.get channel).filter fun e => e.cls == 2

/-- An intent goes out when its channel can be sent to. -/
def sendIntent (channel : Nat) (values : ν) (s : Session) : Session :=
  match s.sendable channel with
  | none => { s with intents := s.intents.refuse }
  | some e =>
    let id := s.intents.nextId
    let s := { s with intents := s.intents.advance }
    match c.encodeValues e values with
    | none => { s with intents := s.intents.refuse }
    | some encoded =>
      let p : Pending := ⟨s.intents.promises, channel⟩
      let s := { s with intents := s.intents.issue channel id }
      if s.wsOpen then s.note (.sent (.intent channel id encoded))
      else { s with intents := s.intents.settle id p (.rejected .notSent) }

/-! ## The socket -/

/-- The cache is only trusted when its etag is the hash of its bytes. -/
def openSocket (loaded : Option CachedCatalog) (s : Session) : Session :=
  let trusted := loaded.filter fun cached => c.catalogEtag cached.bytes == cached.etag
  let s := { s with cachedCatalog := trusted }
  let s := if loaded.isSome && trusted.isNone then s.note .cleared else s
  { s with sockets := s.sockets + 1, wsOpen := false }.note .opened

/-- The socket has opened. -/
def onopen (socket : Nat) (s : Session) : Session :=
  { s with wsOpen := s.wsOpen || socket == s.sockets, phase := .helloSent }.sendFrame .hello

/-- The socket has closed. -/
def onclose (socket : Nat) (s : Session) : Session :=
  { s with
    wsOpen := s.wsOpen && socket != s.sockets
    ready := false, phase := .closed, pumping := false
    intents := s.intents.closeAll }

/-- The session says goodbye and closes the socket. -/
def close (s : Session) : Session := { s.sendFrame .goodbye with pumping := false, wsOpen := false }

/-- The timer of the session. -/
def pump (nowMs : Nat) (s : Session) : Session :=
  if s.pumping && s.wsOpen then (s.pumpCatalogReady nowMs).pumpBlobRepair nowMs else s

/-! ## What leaves the promises alone -/

/-- Sending a frame leaves the pending intents alone. -/
@[simp] theorem intents_sendFrame (f : Sent) (s : Session) : (s.sendFrame f).intents = s.intents := by
  unfold sendFrame
  split <;> rfl

@[simp] theorem intents_requestCatalog (s : Session) : s.requestCatalog.intents = s.intents := intents_sendFrame _ _

theorem intents_adoptCatalog {bytes : Bytes} {s t : Session} (h : s.adoptCatalog c bytes = some t) :
    t.intents = s.intents := by
  obtain ⟨entries, -, rfl⟩ := Option.map_eq_some_iff.mp h
  rfl

@[simp] theorem intents_checkLiveTransition (s : Session) : s.checkLiveTransition.intents = s.intents := by
  unfold checkLiveTransition
  split
  · rfl
  · split
    · rfl
    · split <;> rfl

@[simp] theorem intents_sendCatalogReady (etag : Bytes) (nowMs : Nat) (s : Session) :
    (s.sendCatalogReady etag nowMs).intents = s.intents := by
  unfold sendCatalogReady
  dsimp only
  split <;> rfl

theorem intents_refetch (s : Session) : (s.refetch c).intents = s.intents := by
  unfold refetch
  split
  · exact intents_requestCatalog s
  · rfl

theorem intents_adoptMatched (cached : CachedCatalog) (s : Session) : (s.adoptMatched c cached).intents = s.intents := by
  unfold adoptMatched
  dsimp only
  split
  · rename_i t h
    exact (intents_adoptCatalog c h).trans rfl
  · exact intents_refetch c _

theorem intents_forgetUnmatched (s : Session) : (s.forgetUnmatched c).intents = s.intents := by
  unfold forgetUnmatched
  dsimp only
  rw [intents_refetch]
  split <;> rfl

/-- A WELCOME leaves the pending intents alone. -/
theorem intents_handleWelcome (w : Welcome) (s : Session) : (s.handleWelcome c w).intents = s.intents := by
  unfold handleWelcome
  rw [intents_checkLiveTransition]
  dsimp only
  split
  · exact intents_adoptMatched c _ _
  · exact intents_forgetUnmatched c _

theorem intents_adoptTransferred (nowMs : Nat) (s : Session) : (s.adoptTransferred c nowMs).intents = s.intents := by
  unfold adoptTransferred
  dsimp only
  split
  · rfl
  · rename_i t h
    rw [intents_checkLiveTransition, intents_sendCatalogReady]
    have ht := intents_adoptCatalog c h
    split
    · exact ht
    · exact ht

theorem intents_insertChunk (h : BlobChunk) (nowMs : Nat) (s : Session) :
    (s.insertChunk c h nowMs).intents = s.intents := by
  unfold insertChunk
  dsimp only
  split
  · rfl
  · split
    · exact intents_adoptTransferred c nowMs _
    · rfl

/-- A chunk of the catalog leaves the pending intents alone. -/
theorem intents_handleBlobChunk (payload : Bytes) (nowMs : Nat) (s : Session) :
    (s.handleBlobChunk c payload nowMs).intents = s.intents := by
  unfold handleBlobChunk
  cases parseBlobChunk payload with
  | none => rfl
  | some h =>
    dsimp only
    split
    · rfl
    · split
      · rfl
      · split
        · exact intents_sendFrame _ _
        · rw [intents_insertChunk]
          unfold startTransfer
          split <;> rfl

/-- A STATE leaves the pending intents alone. -/
theorem intents_handleState (channel : Nat) (s : Session) : (s.handleState channel).intents = s.intents := by
  unfold handleState
  dsimp only
  cases ({ s with readyPending := false, ready := true } : Session).layoutFor channel <;>
  · dsimp only
    split
    · rfl
    · exact intents_checkLiveTransition _

/-- A new socket leaves the pending intents alone. -/
theorem intents_openSocket (loaded : Option CachedCatalog) (s : Session) : (s.openSocket c loaded).intents = s.intents := by
  unfold openSocket
  dsimp only
  split <;> rfl

/-- The passing of time leaves the pending intents alone. -/
theorem intents_pump (nowMs : Nat) (s : Session) : (s.pump nowMs).intents = s.intents := by
  have hready : ∀ t : Session, (t.pumpCatalogReady nowMs).intents = t.intents := by
    intro t
    unfold pumpCatalogReady
    split
    · rfl
    · split
      · rfl
      · split
        · rfl
        · exact intents_sendFrame _ t
  have hrepair : ∀ t : Session, (t.pumpBlobRepair nowMs).intents = t.intents := by
    intro t
    unfold pumpBlobRepair
    split
    · rfl
    · split
      · exact intents_requestCatalog t
      · split
        · rfl
        · split
          · rfl
          · exact intents_sendFrame _ t
  unfold pump
  split
  · rw [hrepair, hready]
  · rfl

end Session

/-! ## Runs -/

/-- A callback, or a call of the application. -/
inductive Event (ν : Type)
  | openSocket (loaded : Option CachedCatalog)
  | onopen (socket : Nat)
  | frame (socket : Nat) (f : Frame) (nowMs : Nat)
  | closing                               -- the last socket leaves its OPEN state
  | onclose (socket : Nat)
  | pump (nowMs : Nat)
  | timeout (promise : Nat)
  | requestCatalog
  | close
  | sendIntent (channel : Nat) (values : ν)

variable {ν : Type} (c : Setup ν)

/-- One event of the session's life. -/
def step (s : Session) : Event ν → Session
  | .openSocket loaded => s.openSocket c loaded
  | .onopen socket => s.onopen socket
  | .frame _ f nowMs => s.dispatch c f nowMs
  | .closing => { s with wsOpen := false }
  | .onclose socket => s.onclose socket
  | .pump nowMs => s.pump nowMs
  | .timeout promise => { s with intents := s.intents.timeout promise }
  | .requestCatalog => s.requestCatalog
  | .close => s.close
  | .sendIntent channel values => s.sendIntent c channel values

/-- A run whose every event was allowed when it came. -/
inductive Reached (allowed : Session → Event ν → Prop) : Session → Prop
  | start : Reached allowed {}
  | step {s : Session} {e : Event ν} : Reached allowed s → allowed s e → Reached allowed (step c s e)

/-- What a session can come to, by any events in any order. -/
def Reachable (s : Session) : Prop := Reached c (fun _ _ => True) s

/-- What every allowed event keeps holds at the end of a run. -/
theorem Reached.invariant {allowed : Session → Event ν → Prop} {I : Session → Prop} {s : Session}
    (h : Reached c allowed s) (h0 : I {}) (hI : ∀ s e, allowed s e → I s → I (SlopSync.Js.step c s e)) : I s := by
  induction h with
  | start => exact h0
  | step _ ha ih => exact hI _ _ ha ih

/-- What events lead to from a reachable session is reachable. -/
theorem reachable_foldl {c : Setup ν} : ∀ (events : List (Event ν)) {s : Session}, Reachable c s →
    Reachable c (events.foldl (step c) s)
  | [], _, h => h
  | e :: events, _, h => reachable_foldl events (h.step (e := e) trivial)

/-! ## A setup to run -/

/-- `m.get(k)` of a `Map`. -/
def Value.get (m : Value) (k : Int) : Option Value :=
  match m with
  | .map ps => (ps.find? fun p => sameKey p.1 (.int k)).map Prod.snd
  | _ => none

/-- `mget(m, k, 0)` where it is an unsigned number. -/
def Value.number (m : Value) (k : Int) : Option Nat :=
  match m.get k with
  | none => some 0
  | some (.int n) => if 0 ≤ n then some n.toNat else none
  | some _ => none

/-- A layout that `decodeLayoutField` takes: maps, and no names for bits in them. -/
def Value.plainLayout : Value → Bool
  | .arr fields => fields.all fun f =>
    match f with
    | .map _ => (f.get 7).isNone
    | _ => false
  | _ => false

/-- `decodeEntry` on a map of unsigned numbers with no schema and no store. -/
def decodePlainEntry (m : Value) : Option ChannelEntry := do
  guard (((m.get 8).all Value.plainLayout) && (m.get 9).isNone && (m.get 12).isNone)
  some { id := ← m.number 1, cls := ← m.number 3, access := ← m.number 5, layout := (m.get 8).isSome }

/-- `decodeCatalog` on the catalogs of such entries. -/
def decodePlainCatalog (bytes : Bytes) : Option (List ChannelEntry) :=
  if short : bytes.length < 2 ^ 53 then
    match cbDecode { bytes, short } with
    | some (.arr entries, _) => entries.mapM decodePlainEntry
    | _ => none
  else none

/-- The setup of a client whose hubs have plain catalogs and whose intents carry no values. -/
def demo : Setup Unit where
  decodeCatalog := decodePlainCatalog
  catalogEtag bytes := catalogEtag bytes 8
  encodeValues _ _ := some []

/-- A STATE channel `s` of one field `v`, and an INTENT channel `i`. -/
def demoCatalog : Bytes :=
  [0x82, 0xA4, 1, 0x19, 1, 1, 2, 0x61, 0x73, 3, 0, 8, 0x81, 0xA2, 1, 0x61, 0x76, 2, 0,
    0xA3, 1, 0x19, 1, 0, 2, 0x61, 0x69, 3, 2]

def demoEtag : Bytes := [250, 33, 28, 182, 17, 50, 10, 128]

/-- The session goes LIVE by its cached catalog. -/
def liveEvents : List (Event Unit) :=
  [.openSocket (some ⟨demoEtag, demoCatalog⟩), .onopen 1, .frame 1 (.welcome { catalogEtag := some demoEtag }) 0]

end SlopSync.Js
