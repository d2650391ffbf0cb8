import SlopSync.Client.Reassembler
import SlopSync.Hub.Blob

/-! # From chunks to the blob

The chunks that `fillBlobChunk` cuts are what `ChunkReassembler` puts together.  `Assembles` is what holds after any of
them, in any order and any number of times (`assembles_feed`). -/

namespace SlopSync

/-! ## Chunks -/

/-- One chunk of a blob. -/
def blobChunk (id : BlobId) (encoded : Bytes) (index : Nat) : Bytes :=
  putBlobChunkHeader id index encoded.length ++
    (encoded.drop (index * Limits.catalogChunkPayload)).take Limits.catalogChunkPayload

/-- All of them. -/
def blobChunks (id : BlobId) (encoded : Bytes) : List Bytes :=
  (List.range (chunkCount encoded.length)).map (blobChunk id encoded)

theorem fillBlobChunk_eq {id : BlobId} {encoded : Bytes} {index : Nat} (h : index < chunkCount encoded.length) :
    fillBlobChunk id encoded index = some (blobChunk id encoded index) :=
  if_neg (Nat.not_le.mpr h)

theorem fillBlobChunk_none {id : BlobId} {encoded : Bytes} {index : Nat} (h : fillBlobChunk id encoded index = none) :
    chunkCount encoded.length ≤ index := by
  by_contra hlt
  rw [fillBlobChunk_eq (Nat.not_le.mp hlt)] at h
  cases h

theorem eq_of_fillBlobChunk {id : BlobId} {encoded payload : Bytes} {index : Nat}
    (h : fillBlobChunk id encoded index = some payload) : payload = blobChunk id encoded index := by
  unfold fillBlobChunk at h
  split at h
  · cases h
  · exact (Option.some.inj h).symm

theorem lt_chunkCount {n k : Nat} : k < chunkCount n ↔ k * Limits.catalogChunkPayload < n := by
  simp only [chunkCount, Limits.catalogChunkPayload]
  omega

theorem le_of_chunkCount_le {n m : Nat} (h : chunkCount n ≤ m) : n ≤ m * Limits.catalogChunkPayload := by
  simp only [chunkCount, Limits.catalogChunkPayload] at *
  omega

section

variable {buf bs : Bytes} {offset : Nat}

theorem length_splice (h : offset + bs.length ≤ buf.length) : (splice buf offset bs).length = buf.length := by
  simp only [splice, List.length_append, List.length_take, List.length_drop]
  omega

theorem getElem?_splice (h : offset + bs.length ≤ buf.length) (m : Nat) :
    (splice buf offset bs)[m]? = if offset ≤ m ∧ m < offset + bs.length then bs[m - offset]? else buf[m]? := by
  have htake : (buf.take offset).length = offset := by
    rw [List.length_take]
    omega
  by_cases hlo : m < offset
  · rw [if_neg (by omega), splice, List.append_assoc, List.getElem?_append_left (by omega), List.getElem?_take_of_lt hlo]
  · rw [splice, List.append_assoc, List.getElem?_append_right (by omega), htake]
    by_cases hhi : m < offset + bs.length
    · rw [if_pos ⟨by omega, hhi⟩, List.getElem?_append_left (by omega)]
    · rw [if_neg (by omega), List.getElem?_append_right (by omega), List.getElem?_drop]
      congr 1
      omega

end

/-- The identity in a chunk header, and what it is read back as. -/
def BlobId.onWire (id : BlobId) : ChunkId :=
  { ns := id.ns, storeId := id.storeId.getD 0, slot := id.slot.getD 0, generation := id.generation.getD 0 }

theorem getBlobChunkHeader_blobChunk (id : BlobId) (encoded : Bytes) (k : Nat) :
    getBlobChunkHeader (blobChunk id encoded k) = some
      { id := id.onWire, chunkIndex := UInt16.ofNat k, chunkCount := UInt16.ofNat (chunkCount encoded.length)
        totalBytes := UInt32.ofNat encoded.length } := by
  unfold getBlobChunkHeader
  rw [if_neg (by simp [blobChunk, putBlobChunkHeader, le16, le32, kBlobChunkHeaderBytes])]
  simp only [blobChunk, putBlobChunkHeader, List.append_assoc, List.cons_append, List.nil_append, List.drop_succ_cons,
    List.drop_zero, List.getD_cons_zero, List.getD_cons_succ, getU16_le16]
  have hdrop : ∀ (v : UInt16) (n : Nat) (rest : Bytes), (le16 v ++ rest).drop (n + 2) = rest.drop n := fun _ _ _ => rfl
  rw [hdrop, hdrop, hdrop, hdrop, hdrop, hdrop]
  simp only [List.drop_zero, getU16_le16, getU32_le32]
  rfl

theorem drop_blobChunk (id : BlobId) (encoded : Bytes) (k : Nat) :
    (blobChunk id encoded k).drop kBlobChunkHeaderBytes =
      (encoded.drop (k * Limits.catalogChunkPayload)).take Limits.catalogChunkPayload := rfl

/-! ## Reassembly -/

section

variable {maxChunks : Nat} {r : ChunkReassembler maxChunks} {id : BlobId} {encoded : Bytes}

/-- The buffer is as large as it was made. -/
def Sized (r : ChunkReassembler maxChunks) : Prop := r.buf.length = maxChunks * Limits.catalogChunkPayload

/-- What was received of the blob is in its place. -/
structure Assembles (r : ChunkReassembler maxChunks) (id : BlobId) (encoded : Bytes) : Prop where
  active : r.active = true
  target : r.id = id.onWire
  count : r.chunkCount = UInt16.ofNat (chunkCount encoded.length)
  total : r.totalBytes = encoded.length
  room : chunkCount encoded.length ≤ maxChunks
  small : chunkCount encoded.length < 2 ^ 16
  sized : Sized r
  counted : r.Counted
  filled : ∀ m, m < encoded.length → r.received.getD (m / Limits.catalogChunkPayload) false = true →
    r.buf[m]? = encoded[m]?

theorem toNat_ofNat16 {n : Nat} (h : n < 2 ^ 16) : (UInt16.ofNat n).toNat = n := by
  rw [UInt16.toNat_ofNat']
  exact Nat.mod_eq_of_lt h

/-- A transfer is begun from the header of any of its chunks. -/
theorem assembles_begin (hsized : Sized r) {k : Nat} {hd : BlobChunkHeader} (hsome : 0 < chunkCount encoded.length)
    (hroom : chunkCount encoded.length ≤ maxChunks) (hsmall : chunkCount encoded.length < 2 ^ 16)
    (hhd : getBlobChunkHeader (blobChunk id encoded k) = some hd) (nowMs : UInt32) :
    Assembles (r.begin hd nowMs) id encoded := by
  rw [getBlobChunkHeader_blobChunk] at hhd
  obtain rfl := Option.some.inj hhd
  have hcc := toNat_ofNat16 hsmall
  have hlen := le_of_chunkCount_le hroom
  have htotal : (UInt32.ofNat encoded.length).toNat = encoded.length := by
    have hle := le_of_chunkCount_le (Nat.le_of_lt hsmall)
    simp only [Limits.catalogChunkPayload] at hle
    rw [UInt32.toNat_ofNat']
    exact Nat.mod_eq_of_lt (by omega)
  have hne : UInt16.ofNat (chunkCount encoded.length) ≠ 0 := by
    intro h
    rw [h] at hcc
    have : (0 : UInt16).toNat = 0 := rfl
    omega
  have hactive : (UInt16.ofNat (chunkCount encoded.length) != 0 &&
      (UInt16.ofNat (chunkCount encoded.length)).toNat ≤ maxChunks &&
      (UInt32.ofNat encoded.length).toNat ≤ maxChunks * Limits.catalogChunkPayload) = true := by
    simp [hcc, htotal, hne, hroom, hlen]
  refine ⟨hactive, rfl, if_pos hactive, (if_pos hactive).trans htotal, hroom, hsmall, hsized,
    ChunkReassembler.counted_begin r _ nowMs, fun m _ hm => ?_⟩
  rw [ChunkReassembler.received_begin] at hm
  cases hm

/-- A chunk of the blob is taken. -/
theorem Assembles.accepts (h : Assembles r id encoded) {k : Nat} (hk : k < chunkCount encoded.length) :
    ∃ hd, r.accepts (blobChunk id encoded k) = some hd ∧ hd.chunkIndex.toNat = k := by
  have hcc := toNat_ofNat16 h.small
  have hkk := toNat_ofNat16 (hk.trans h.small)
  refine ⟨{ id := id.onWire, chunkIndex := UInt16.ofNat k, chunkCount := UInt16.ofNat (chunkCount encoded.length)
            totalBytes := UInt32.ofNat encoded.length }, ?_, hkk⟩
  unfold ChunkReassembler.accepts
  rw [if_neg (by simp [h.active]), getBlobChunkHeader_blobChunk, Option.filter_some, if_pos]
  have hlt : UInt16.ofNat k < UInt16.ofNat (chunkCount encoded.length) := by
    rw [UInt16.lt_iff_toNat_lt, hcc, hkk]
    exact hk
  have hslice : (blobChunk id encoded k).length - kBlobChunkHeaderBytes ≤ Limits.catalogChunkPayload := by
    rw [← List.length_drop, drop_blobChunk]
    exact List.length_take_le _ _
  have hroom : k * Limits.catalogChunkPayload + ((blobChunk id encoded k).length - kBlobChunkHeaderBytes) ≤
      maxChunks * Limits.catalogChunkPayload := by
    have hle : (k + 1) * Limits.catalogChunkPayload ≤ maxChunks * Limits.catalogChunkPayload :=
      Nat.mul_le_mul_right _ (hk.trans_le h.room)
    rw [Nat.add_mul] at hle
    omega
  simp [h.target, ChunkId.sameTarget, h.count, hlt, hkk, hroom]

theorem Assembles.insert (h : Assembles r id encoded) {k : Nat} (hk : k < chunkCount encoded.length) (nowMs : UInt32) :
    Assembles (r.insert (blobChunk id encoded k) nowMs) id encoded ∧
      (r.insert (blobChunk id encoded k) nowMs).received = r.received.set k true := by
  obtain ⟨hd, hacc, hindex⟩ := h.accepts hk
  have hcounted := ChunkReassembler.counted_insert h.counted (blobChunk id encoded k) nowMs
  have hk' := lt_chunkCount.mp hk
  unfold ChunkReassembler.insert at hcounted ⊢
  rw [hacc] at hcounted ⊢
  dsimp only at hcounted ⊢
  rw [hindex, drop_blobChunk] at hcounted ⊢
  refine ⟨?_, rfl⟩
  have hslice : ((encoded.drop (k * Limits.catalogChunkPayload)).take Limits.catalogChunkPayload).length =
      min Limits.catalogChunkPayload (encoded.length - k * Limits.catalogChunkPayload) := by
    rw [List.length_take, List.length_drop]
  have hfits : k * Limits.catalogChunkPayload +
      ((encoded.drop (k * Limits.catalogChunkPayload)).take Limits.catalogChunkPayload).length ≤ r.buf.length := by
    have hle := le_of_chunkCount_le h.room
    rw [hslice, h.sized]
    omega
  refine ⟨h.active, h.target, h.count, h.total, h.room, h.small, (length_splice hfits).trans h.sized, hcounted, ?_⟩
  intro m hm hreceived
  rw [getElem?_splice hfits, hslice]
  by_cases hmk : m / Limits.catalogChunkPayload = k
  · have hin : k * Limits.catalogChunkPayload ≤ m ∧ m < k * Limits.catalogChunkPayload +
        min Limits.catalogChunkPayload (encoded.length - k * Limits.catalogChunkPayload) := by
      simp only [Limits.catalogChunkPayload] at *
      omega
    rw [if_pos hin, List.getElem?_take_of_lt (by omega), List.getElem?_drop]
    congr 1
    omega
  · have hout : ¬(k * Limits.catalogChunkPayload ≤ m ∧ m < k * Limits.catalogChunkPayload +
        min Limits.catalogChunkPayload (encoded.length - k * Limits.catalogChunkPayload)) := by
      simp only [Limits.catalogChunkPayload] at *
      omega
    rw [if_neg hout]
    refine h.filled m hm ?_
    rwa [List.getD_eq_getElem?_getD, List.getElem?_set_ne (Ne.symm hmk), ← List.getD_eq_getElem?_getD] at hreceived

/-- When every chunk has come, the blob is there. -/
theorem Assembles.done (h : Assembles r id encoded)
    (hall : ∀ k, k < chunkCount encoded.length → r.received.getD k false = true) :
    r.complete = true ∧ r.assembled = encoded := by
  have hcc : r.chunkCount.toNat = chunkCount encoded.length := by
    rw [h.count]
    exact toNat_ofNat16 h.small
  have hlen := le_of_chunkCount_le h.room
  constructor
  · refine ChunkReassembler.complete_of_received h.active h.counted fun k hk => hall k ?_
    rwa [← hcc]
  · unfold ChunkReassembler.assembled
    rw [h.active, h.total, if_neg (by simpa using hlen)]
    refine List.ext_getElem? fun m => ?_
    by_cases hm : m < encoded.length
    · rw [List.getElem?_take_of_lt hm]
      refine h.filled m hm (hall _ (lt_chunkCount.mpr ?_))
      exact (Nat.div_mul_le_self m _).trans_lt hm
    · rw [List.getElem?_eq_none (by rw [List.length_take]; omega), List.getElem?_eq_none (by omega)]

/-- A chunk says which one it is. -/
theorem blobChunk_inj {k k' : Nat} (hsmall : chunkCount encoded.length < 2 ^ 16) (hk : k < chunkCount encoded.length)
    (hk' : k' < chunkCount encoded.length) (h : blobChunk id encoded k = blobChunk id encoded k') : k = k' := by
  have hhd := congrArg getBlobChunkHeader h
  rw [getBlobChunkHeader_blobChunk, getBlobChunkHeader_blobChunk] at hhd
  have hindex : UInt16.ofNat k = UInt16.ofNat k' := congrArg BlobChunkHeader.chunkIndex (Option.some.inj hhd)
  rw [← toNat_ofNat16 (hk.trans hsmall), hindex, toNat_ofNat16 (hk'.trans hsmall)]

theorem getD_set_true {l : List Bool} {k k' : Nat} (hk : k < l.length) (h : l.getD k' false = true ∨ k = k') :
    (l.set k true).getD k' false = true := by
  rw [List.getD_eq_getElem?_getD] at *
  by_cases heq : k = k'
  · rw [heq, List.getElem?_set_self (heq ▸ hk)]
    rfl
  · rw [List.getElem?_set_ne heq]
    exact h.resolve_right heq

/-- **Any chunks of the blob, in any order.** -/
theorem assembles_feed : ∀ (feed : List (Bytes × UInt32)) {r : ChunkReassembler maxChunks}, Assembles r id encoded →
    (∀ e ∈ feed, e.1 ∈ blobChunks id encoded) →
    Assembles (feed.foldl (fun r e => r.insert e.1 e.2) r) id encoded ∧
      ∀ k, k < chunkCount encoded.length → (r.received.getD k false = true ∨ ∃ e ∈ feed, e.1 = blobChunk id encoded k) →
        (feed.foldl (fun r e => r.insert e.1 e.2) r).received.getD k false = true
  | [], r, h, _ => by
    refine ⟨h, fun k _ hk => ?_⟩
    rcases hk with hk | ⟨e, he, -⟩
    · exact hk
    · cases he
  | e :: feed, r, h, hfeed => by
    obtain ⟨k, hk, he⟩ := List.mem_map.mp (hfeed e List.mem_cons_self)
    have hlt := List.mem_range.mp hk
    obtain ⟨hnext, hset⟩ := h.insert hlt e.2
    rw [he] at hnext hset
    obtain ⟨hend, hreceived⟩ := assembles_feed feed hnext fun e' he' => hfeed e' (List.mem_cons_of_mem _ he')
    refine ⟨hend, fun k' hk' hcome => hreceived k' hk' ?_⟩
    have hsize : k < r.received.length := by
      rw [h.counted.size]
      exact hlt.trans_le h.room
    rcases hcome with hbefore | ⟨e', he', hchunk⟩
    · rw [hset]
      exact .inl (getD_set_true hsize (.inl hbefore))
    · rcases List.mem_cons.mp he' with rfl | he'
      · rw [hset]
        exact .inl (getD_set_true hsize (.inr (blobChunk_inj h.small hlt hk' (he.trans hchunk))))
      · exact .inr ⟨e', he', hchunk⟩

end

end SlopSync
