import SlopSync.Hub.Lifecycle

/-! # Blobs and the small exchanges

The resumable blob transfer (`wire/blob_chunks.hpp`, `resolveBlobBytes`, `handleBlobReq`, `pumpBlobTransfer`), and
PING, CLOCK, PROBE and PROBE_REPORT. -/

namespace SlopSync

section

variable {ε : Type} (w : World ε) (c : Config)

/-! ## Chunks -/

def chunkCount (totalBytes : Nat) : Nat :=
  (totalBytes + Limits.catalogChunkPayload - 1) / Limits.catalogChunkPayload

/-- The identity header of a chunk. -/
def putBlobChunkHeader (id : BlobId) (index total : Nat) : Bytes :=
  [id.ns, id.storeId.getD 0, id.slot.getD 0, 0] ++ le16 (id.generation.getD 0) ++ le16 (UInt16.ofNat index) ++
    le16 (UInt16.ofNat (chunkCount total)) ++ le32 (UInt32.ofNat total)

/-- One chunk of the encoded blob; nothing for an index it does not have. -/
def fillBlobChunk (id : BlobId) (encoded : Bytes) (index : Nat) : Option Bytes :=
  if chunkCount encoded.length ≤ index then none
  else some (putBlobChunkHeader id index encoded.length ++
    (encoded.drop (index * Limits.catalogChunkPayload)).take Limits.catalogChunkPayload)

/-! ## Which bytes -/

/-- The first catalog entry that declares the store. -/
def storeEntry (id : BlobId) : Option CatalogEntry :=
  c.catalog.find? fun e => e.cls == .store && id.storeId.isSome && e.store.map StoreDescriptor.storeId == id.storeId

/-- Whether the session may read the blob; the catalog is open to all. -/
def blobGate (role : AccessLevel) (id : BlobId) : Option NackMsg :=
  if id.isCatalog then none
  else match storeEntry c id with
    | none => some { code := .chunkUnavailable }
    | some e => if role < e.access then some { code := .accessDenied, channelId := some e.id } else none

/-- The size of the scratch buffer a ledger item is encoded into. -/
def kLedgerItemScratchBytes : Nat := 256

/-- The bytes and the generation of a blob the session may read. -/
def blobBytes (id : BlobId) (s : Sys ε) : Option (Bytes × UInt16) × Sys ε :=
  if id.isCatalog then (some (c.catalogEncoded, 0), s)
  else if id.ns = 1 ∧ id.storeId.isSome ∧ id.storeId = c.pairedStoreId then
    -- the ledger is served by the hub, item by item
    let item := (s.hub.pairing.slot ((id.slot.getD 0).toNat)).bind fun e =>
      PairingManager.encodeEntry e kLedgerItemScratchBytes
    (item.map fun b => (b, s.hub.pairing.generation), s)
  else
    let (view, env) := w.readBlob id.ns (id.storeId.getD 0) (id.slot.getD 0) s.env
    (view, { s with env })

/-- The identity with its current generation and the bytes, or the refusal. -/
def resolveBlobBytes (i : SlotIdx) (id : BlobId) (s : Sys ε) : Except NackMsg (BlobId × Bytes) × Sys ε :=
  match blobGate c (s.session i).role id with
  | some n => (.error n, s)
  | none =>
    let (view, s) := blobBytes w c id s
    match view with
    | none => (.error { code := .chunkUnavailable }, s)
    | some (bytes, generation) =>
      if chunkCount bytes.length = 0 then (.error { code := .chunkUnavailable }, s)
      else (.ok ({ id with generation := some generation }, bytes), s)

section

variable {w c} {i : SlotIdx} {id : BlobId} {s s' : Sys ε}

theorem blobBytes_hub (id : BlobId) (s : Sys ε) :
    (blobBytes w c id s).2.hub = s.hub ∧ (blobBytes w c id s).2.trace = s.trace := by
  unfold blobBytes
  split
  · exact ⟨rfl, rfl⟩
  · split <;> exact ⟨rfl, rfl⟩

/-- Looking up a blob moves the environment only. -/
theorem resolveBlobBytes_hub (i : SlotIdx) (id : BlobId) (s : Sys ε) :
    (resolveBlobBytes w c i id s).2.hub = s.hub ∧ (resolveBlobBytes w c i id s).2.trace = s.trace := by
  unfold resolveBlobBytes
  split
  · exact ⟨rfl, rfl⟩
  · dsimp only
    split
    · exact blobBytes_hub id s
    · split <;> exact blobBytes_hub id s

theorem resolveBlobBytes_ok {id' : BlobId} {bytes : Bytes} (h : resolveBlobBytes w c i id s = (.ok (id', bytes), s')) :
    (∃ generation, id' = { id with generation := some generation }) ∧ 0 < chunkCount bytes.length := by
  unfold resolveBlobBytes at h
  split at h
  · cases h
  · dsimp only at h
    split at h
    · cases h
    · rename_i bytes' generation _
      split at h
      · cases h
      · rename_i hcount
        cases h
        exact ⟨⟨generation, rfl⟩, Nat.pos_of_ne_zero hcount⟩

theorem resolveBlobBytes_error {n : NackMsg} (h : resolveBlobBytes w c i id s = (.error n, s')) : n.detail = none := by
  have hgate : ∀ n, blobGate c (s.session i).role id = some n → n.detail = none := by
    intro n hn
    unfold blobGate at hn
    split at hn
    · cases hn
    · split at hn
      · cases hn
        rfl
      · split at hn
        · cases hn
          rfl
        · cases hn
  unfold resolveBlobBytes at h
  split at h
  · rename_i n' hn'
    cases h
    exact hgate n hn'
  · dsimp only at h
    split at h
    · cases h
      rfl
    · split at h
      · cases h
        rfl
      · cases h

end

/-! ## Requests -/

def handleBlobReq (i : SlotIdx) (msg : Option BlobReqMsg) (s : Sys ε) : Sys ε :=
  match msg with
  | none => sendNack w i { code := .malformed } s
  | some m =>
    match resolveBlobBytes w c i m.blob s with
    | (.error n, s) => sendNack w i n s
    | (.ok (id, bytes), s) =>
      if m.chunks.any fun l => l.any fun k => decide (chunkCount bytes.length ≤ k.toNat) then
        sendNack w i { code := .chunkUnavailable } s
      else
        let pb : PendingBlob :=
          { id, totalBytes := bytes.length, generation := id.generation.getD 0, reqSeq := s.hub.dispatchSeq
            chunks := m.chunks }
        (s.log (.blob i (.requested pb))).modSlot i fun sl => { sl with blob := some pb }

/-! ## The drain -/

def kBlobChunksPerTick : Nat := 2

def endBlob (i : SlotIdx) (how : BlobEnd) (s : Sys ε) : Sys ε :=
  (s.log (.blob i (.ended how))).modSlot i fun sl => { sl with blob := none }

/-- A refusal decided after the request carries the request's sequence number. -/
def refuseBlob (i : SlotIdx) (pb : PendingBlob) (n : NackMsg) (s : Sys ε) : Sys ε :=
  endBlob i .refused (sendNack w i { n with intentSeq := pb.reqSeq } s)

/-- The index of the next chunk; nothing when the transfer is complete. -/
def PendingBlob.next (pb : PendingBlob) (count : Nat) : Option Nat :=
  match pb.chunks with
  | none => if count ≤ pb.nextIndex.toNat then none else some pb.nextIndex.toNat
  | some l => (l[pb.cursor]?).map UInt16.toNat

def PendingBlob.advance (pb : PendingBlob) : PendingBlob :=
  match pb.chunks with
  | none => { pb with nextIndex := pb.nextIndex + 1 }
  | some _ => { pb with cursor := pb.cursor + 1 }

theorem PendingBlob.advance_keeps (pb : PendingBlob) :
    pb.advance.generation = pb.generation ∧ pb.advance.totalBytes = pb.totalBytes ∧ pb.advance.id = pb.id ∧
      pb.advance.chunks = pb.chunks ∧ pb.advance.reqSeq = pb.reqSeq := by
  unfold PendingBlob.advance
  split <;> exact ⟨rfl, rfl, rfl, rfl, rfl⟩

/-- Send at most `budget` chunks.  A write that was not taken keeps the cursor for the next tick. -/
def drainBlob (i : SlotIdx) (id : BlobId) (encoded : Bytes) : Nat → PendingBlob → Sys ε → Sys ε
  | 0, pb, s =>
    if (pb.next (chunkCount encoded.length)).isNone then endBlob i .delivered s
    else s.modSlot i fun sl => { sl with blob := some pb }
  | budget + 1, pb, s =>
    match pb.next (chunkCount encoded.length) with
    | none => endBlob i .delivered s
    | some index =>
      match fillBlobChunk id encoded index with
      | none => refuseBlob w i pb { code := .chunkUnavailable } s
      | some bytes =>
        let (ok, s) := sendFrameTo w i .blobChunk Channels.catalog bytes 0 s
        if ok then drainBlob i id encoded budget pb.advance s
        else s.modSlot i fun sl => { sl with blob := some pb }

def pumpBlobTransfer (i : SlotIdx) (s : Sys ε) : Sys ε :=
  match (s.slot i).blob with
  | none => s
  | some pb =>
    if (s.slot i).transport.isNone || !(s.session i).occupied then endBlob i .dropped s
    else match resolveBlobBytes w c i pb.id s with
      | (.error n, s) => refuseBlob w i pb n (s.log (.blob i (.resumed none)))
      | (.ok (id, bytes), s) =>
        let s := s.log (.blob i (.resumed (some (bytes, id.generation.getD 0))))
        if bytes.length ≠ pb.totalBytes ∨ id.generation ≠ some pb.generation then
          refuseBlob w i pb { code := .chunkUnavailable } s
        else drainBlob w i id bytes kBlobChunksPerTick pb s

/-! ## Small exchanges -/

/-- The payload comes back, unless it is over the 32-byte buffer. -/
def handlePing (i : SlotIdx) (payload : Bytes) (s : Sys ε) : Sys ε :=
  (sendFrameTo w i .pong 0 (if payload.length ≤ 32 then payload else []) 0 s).2

def handleClock (i : SlotIdx) (payload : Bytes) (s : Sys ε) : Sys ε :=
  if payload.length < 4 then s
  else
    let now := w.nowUs s.env
    (sendFrameTo w i .clock 0 (payload.take 4 ++ le32 now ++ le32 now) 0 s).2

def probeFrame (size : Nat) (index : Nat) : Bytes := le16 (UInt16.ofNat index) ++ List.replicate (size - 2) 0

/-- Answer PROBE with the whole burst. -/
def handleProbeRequest (i : SlotIdx) (s : Sys ε) : Sys ε :=
  match (s.slot i).transport with
  | none => s
  | some t =>
    let mtuPayload :=
      (if Limits.headerBytes < w.mtu t then w.mtu t - Limits.headerBytes else Limits.minTransportPayload) % 2 ^ 16
    let size := min mtuPayload Limits.minTransportPayload
    if mtuPayload = 0 ∨ size < 2 then s
    else (List.range ((Limits.probeDefaultBytes + mtuPayload - 1) / mtuPayload)).foldl
      (fun s k => (sendFrameTo w i .probe 0 (probeFrame size k) 0 s).2) s

def handleProbeReportFrame (i : SlotIdx) (msg : Option ProbeResult) (s : Sys ε) : Sys ε :=
  match msg with
  | none => s
  | some r => s.modSlot i fun sl => { sl with lastProbeReport := some r }

end

end SlopSync
