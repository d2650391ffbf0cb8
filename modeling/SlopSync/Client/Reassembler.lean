import SlopSync.Frame

/-! # Reassembling a blob

`ChunkReassembler` of `wire/blob_chunks.hpp`: chunks arrive in any order, any number of times, each with the identity
of its transfer in a binary header; a bitmap says which have come. -/

namespace SlopSync

def kBlobChunkHeaderBytes : Nat := 14

/-- The identity in a header, byte for byte; the presence flags of a `BlobId` follow from the namespace. -/
structure ChunkId where
  ns : UInt8 := 0
  storeId : UInt8 := 0
  slot : UInt8 := 0
  generation : UInt16 := 0
  deriving DecidableEq, Repr

def ChunkId.isCatalog (id : ChunkId) : Bool := id.ns == 0

/-- The generation is not compared. -/
def ChunkId.sameTarget (a b : ChunkId) : Bool := a.ns == b.ns && a.storeId == b.storeId && a.slot == b.slot

structure BlobChunkHeader where
  id : ChunkId := {}
  chunkIndex : UInt16 := 0
  chunkCount : UInt16 := 0
  totalBytes : UInt32 := 0
  deriving DecidableEq, Repr

/-- The reserved byte is not looked at. -/
def getBlobChunkHeader (bs : Bytes) : Option BlobChunkHeader :=
  if bs.length < kBlobChunkHeaderBytes then none
  else
    some {
      id := { ns := bs.getD 0 0, storeId := bs.getD 1 0, slot := bs.getD 2 0, generation := getU16 (bs.drop 4) }
      chunkIndex := getU16 (bs.drop 6)
      chunkCount := getU16 (bs.drop 8)
      totalBytes := getU32 (bs.drop 10) }

structure ChunkReassembler (maxChunks : Nat) where
  buf : Bytes := List.replicate (maxChunks * Limits.catalogChunkPayload) 0
  received : List Bool := List.replicate maxChunks false
  id : ChunkId := {}
  chunkCount : UInt16 := 0
  receivedCount : Nat := 0
  totalBytes : Nat := 0
  startMs : UInt32 := 0
  lastProgressMs : UInt32 := 0
  active : Bool := false
  deriving DecidableEq, Repr

/-- Copy `bs` over the bytes from `offset` on. -/
def splice (buf : Bytes) (offset : Nat) (bs : Bytes) : Bytes :=
  buf.take offset ++ bs ++ buf.drop (offset + bs.length)

/-- What is copied takes the place of as many bytes. -/
theorem splice_left (pre rest new : Bytes) : splice (pre ++ rest) pre.length new = pre ++ new ++ rest.drop new.length := by
  rw [splice, List.take_left, ← List.drop_drop, List.drop_left]

theorem splice_middle (pre mid post new : Bytes) (h : new.length = mid.length) :
    splice (pre ++ mid ++ post) pre.length new = pre ++ new ++ post := by
  rw [List.append_assoc, splice_left, List.drop_left' h.symm]

namespace ChunkReassembler

variable {maxChunks : Nat}

/-- Start over; a transfer that does not fit is refused, sizes and all. -/
def begin (r : ChunkReassembler maxChunks) (h : BlobChunkHeader) (nowMs : UInt32) : ChunkReassembler maxChunks :=
  let active := h.chunkCount != 0 && h.chunkCount.toNat ≤ maxChunks &&
    h.totalBytes.toNat ≤ maxChunks * Limits.catalogChunkPayload
  { buf := r.buf
    received := List.replicate maxChunks false
    id := h.id
    chunkCount := if active then h.chunkCount else 0
    receivedCount := 0
    totalBytes := if active then h.totalBytes.toNat else 0
    startMs := nowMs
    lastProgressMs := nowMs
    active }

/-- The header of a chunk this transfer takes. -/
def accepts (r : ChunkReassembler maxChunks) (chunk : Bytes) : Option BlobChunkHeader :=
  if !r.active then none
  else (getBlobChunkHeader chunk).filter fun h =>
    h.id.sameTarget r.id && h.chunkCount == r.chunkCount && h.chunkIndex < r.chunkCount &&
      h.chunkIndex.toNat * Limits.catalogChunkPayload + (chunk.length - kBlobChunkHeaderBytes) ≤
        maxChunks * Limits.catalogChunkPayload

/-- Take one chunk; a duplicate is copied again. -/
def insert (r : ChunkReassembler maxChunks) (chunk : Bytes) (nowMs : UInt32) : ChunkReassembler maxChunks :=
  match r.accepts chunk with
  | none => r
  | some h =>
    let i := h.chunkIndex.toNat
    let seen := r.received.getD i false
    { r with
      buf := splice r.buf (i * Limits.catalogChunkPayload) (chunk.drop kBlobChunkHeaderBytes)
      received := r.received.set i true
      receivedCount := if seen then r.receivedCount else r.receivedCount + 1
      lastProgressMs := nowMs }

def complete (r : ChunkReassembler maxChunks) : Bool := r.active && r.receivedCount == r.chunkCount.toNat

/-- The blob, once it is complete. -/
def assembled (r : ChunkReassembler maxChunks) : Bytes :=
  if !r.active || maxChunks * Limits.catalogChunkPayload < r.totalBytes then [] else r.buf.take r.totalBytes

/-! ## What the bitmap says -/

/-- The bitmap is as long as there may be chunks, is counted right, and knows no chunk past the last. -/
structure Counted (r : ChunkReassembler maxChunks) : Prop where
  size : r.received.length = maxChunks
  count : r.receivedCount = r.received.count true
  below : ∀ i, r.received.getD i false = true → i < r.chunkCount.toNat
  room : r.chunkCount.toNat ≤ maxChunks

theorem count_replicate_false (n : Nat) : (List.replicate n false).count true = 0 := by
  rw [List.count_eq_zero]
  intro h
  exact absurd (List.eq_of_mem_replicate h) (by decide)

theorem getD_replicate_false (n i : Nat) : (List.replicate n false).getD i false = false := by
  rw [List.getD_eq_getElem?_getD, List.getElem?_replicate]
  split <;> rfl

theorem counted_new : Counted ({} : ChunkReassembler maxChunks) where
  size := List.length_replicate
  count := (count_replicate_false maxChunks).symm
  below i h := by
    rw [getD_replicate_false] at h
    cases h
  room := Nat.zero_le maxChunks

theorem received_begin (r : ChunkReassembler maxChunks) (h : BlobChunkHeader) (nowMs : UInt32) (i : Nat) :
    (r.begin h nowMs).received.getD i false = false :=
  getD_replicate_false maxChunks i

theorem counted_begin (r : ChunkReassembler maxChunks) (h : BlobChunkHeader) (nowMs : UInt32) :
    Counted (r.begin h nowMs) where
  size := List.length_replicate
  count := (count_replicate_false maxChunks).symm
  below i hi := by
    rw [received_begin] at hi
    cases hi
  room := by
    unfold begin
    dsimp only
    split
    · rename_i hact
      simp only [Bool.and_eq_true, decide_eq_true_eq] at hact
      exact hact.1.2
    · exact Nat.zero_le maxChunks

theorem accepts_lt {r : ChunkReassembler maxChunks} {chunk : Bytes} {h : BlobChunkHeader}
    (ha : r.accepts chunk = some h) : h.chunkCount = r.chunkCount ∧ h.chunkIndex.toNat < r.chunkCount.toNat := by
  unfold accepts at ha
  split at ha
  · cases ha
  · obtain ⟨-, hp⟩ := Option.filter_eq_some_iff.mp ha
    simp only [Bool.and_eq_true, beq_iff_eq, decide_eq_true_eq] at hp
    exact ⟨hp.1.1.2, UInt16.lt_iff_toNat_lt.mp hp.1.2⟩

/-- After a chunk is taken, it is received, and so is what was. -/
theorem received_insert {r : ChunkReassembler maxChunks} {chunk : Bytes} {nowMs : UInt32} {i : Nat}
    (h : (r.insert chunk nowMs).received.getD i false = true) :
    r.received.getD i false = true ∨ ∃ hd, r.accepts chunk = some hd ∧ i = hd.chunkIndex.toNat := by
  unfold insert at h
  split at h
  · exact .inl h
  · rename_i hd hacc
    dsimp only at h
    by_cases hi : i = hd.chunkIndex.toNat
    · exact .inr ⟨hd, hacc, hi⟩
    · left
      rwa [List.getD_eq_getElem?_getD, List.getElem?_set_ne (Ne.symm hi), ← List.getD_eq_getElem?_getD] at h

theorem chunkCount_insert (r : ChunkReassembler maxChunks) (chunk : Bytes) (nowMs : UInt32) :
    (r.insert chunk nowMs).chunkCount = r.chunkCount := by
  unfold insert
  split <;> rfl

theorem count_set_true {l : List Bool} {i : Nat} (hi : i < l.length) :
    (l.set i true).count true = if l.getD i false then l.count true else l.count true + 1 := by
  have hget : l.getD i false = l[i] := by
    rw [List.getD_eq_getElem?_getD, List.getElem?_eq_getElem hi]
    rfl
  have hpos : l[i] = true → 0 < l.count true := fun h => List.count_pos_iff.mpr (h ▸ List.getElem_mem hi)
  rw [List.count_set hi, hget]
  cases hx : l[i] with
  | true =>
    have := hpos hx
    simp
    omega
  | false => simp

theorem counted_insert {r : ChunkReassembler maxChunks} (hr : Counted r) (chunk : Bytes) (nowMs : UInt32) :
    Counted (r.insert chunk nowMs) := by
  unfold insert
  split
  · exact hr
  · rename_i hd hacc
    obtain ⟨-, hlt⟩ := accepts_lt hacc
    refine ⟨?_, ?_, ?_, hr.room⟩
    · rw [List.length_set]
      exact hr.size
    · dsimp only
      rw [count_set_true (hr.size.symm ▸ hlt.trans_le hr.room), hr.count]
    · intro i hi
      dsimp only at hi ⊢
      by_cases heq : i = hd.chunkIndex.toNat
      · rw [heq]
        exact hlt
      · rw [List.getD_eq_getElem?_getD, List.getElem?_set_ne (Ne.symm heq), ← List.getD_eq_getElem?_getD] at hi
        exact hr.below i hi

section

variable {r : ChunkReassembler maxChunks}

/-- Only chunks up to the last count. -/
theorem count_take (hr : Counted r) : (r.received.take r.chunkCount.toNat).count true = r.receivedCount := by
  have hdrop : (r.received.drop r.chunkCount.toNat).count true = 0 := by
    rw [List.count_eq_zero]
    intro hmem
    obtain ⟨j, hj, hget⟩ := List.mem_iff_getElem.mp hmem
    rw [List.getElem_drop] at hget
    have hlen := hj
    rw [List.length_drop] at hlen
    have hbelow := hr.below (r.chunkCount.toNat + j) (by
      rw [List.getD_eq_getElem?_getD, List.getElem?_eq_getElem (by omega), hget]
      rfl)
    omega
  have hsplit : (r.received.take r.chunkCount.toNat ++ r.received.drop r.chunkCount.toNat).count true =
      (r.received.take r.chunkCount.toNat).count true + (r.received.drop r.chunkCount.toNat).count true :=
    List.count_append
  rw [List.take_append_drop, hdrop, ← hr.count] at hsplit
  exact hsplit.symm

theorem length_take_received (hr : Counted r) : (r.received.take r.chunkCount.toNat).length = r.chunkCount.toNat := by
  rw [List.length_take, hr.size, Nat.min_eq_left hr.room]

/-- **A complete transfer has received every chunk.** -/
theorem received_of_complete (hr : Counted r) (hc : r.complete = true) {i : Nat}
    (hi : i < r.chunkCount.toNat) : r.received.getD i false = true := by
  have hcount : r.receivedCount = r.chunkCount.toNat := by
    unfold complete at hc
    exact eq_of_beq (Bool.and_eq_true_iff.mp hc).2
  have hall := List.count_eq_length.mp ((count_take hr).trans (hcount.trans (length_take_received hr).symm))
  have hlen : i < (r.received.take r.chunkCount.toNat).length := by rwa [length_take_received hr]
  have hget := hall _ (List.getElem_mem hlen)
  rw [List.getElem_take] at hget
  rw [List.getD_eq_getElem?_getD, List.getElem?_eq_getElem (by rw [hr.size]; exact hi.trans_le hr.room), ← hget]
  rfl

/-- Conversely, every chunk is all there is. -/
theorem complete_of_received (hact : r.active = true) (hr : Counted r)
    (hall : ∀ k, k < r.chunkCount.toNat → r.received.getD k false = true) : r.complete = true := by
  have htake : (r.received.take r.chunkCount.toNat).count true = (r.received.take r.chunkCount.toNat).length := by
    refine List.count_eq_length.mpr fun b hb => ?_
    obtain ⟨k, hk, rfl⟩ := List.mem_iff_getElem.mp hb
    have hlt := hk
    rw [length_take_received hr] at hlt
    have hget := hall k hlt
    rw [List.getD_eq_getElem?_getD, List.getElem?_eq_getElem (by rw [hr.size]; exact hlt.trans_le hr.room)] at hget
    rw [List.getElem_take]
    exact hget.symm
  have hcount : r.receivedCount = r.chunkCount.toNat := by rw [← count_take hr, htake, length_take_received hr]
  simp [complete, hact, hcount]

end

end ChunkReassembler

end SlopSync
