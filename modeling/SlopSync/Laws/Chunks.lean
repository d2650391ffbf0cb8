import SlopSync.Js.Blob
import SlopSync.Laws.Reassembly
import SlopSync.Patches

/-! # What a complete blob is made of

Neither reassembler looks at the generation, at the declared total or at the length of a chunk it takes.

- `Holds`: the buffer after any chunks is the one before with the chunks laid over it, and the bitmap knows their
  indices; both reassemblers keep it (`ChunkReassembler.holds_feed`, `Js.BlobReassembler.holds_feed`);
- `chunks_only_iff`: the bytes of a complete blob come from genuine chunks of their own index exactly when no chunk
  taken is too long and the last one of each index is genuine. -/

namespace SlopSync

open Patches

/-- A chunk as it was taken. -/
structure TakenChunk where
  index : Nat
  bytes : Bytes
  totalBytes : Nat
  generation : Nat
  deriving DecidableEq, Repr

namespace TakenChunk

def offset (p : TakenChunk) : Nat := p.index * Limits.catalogChunkPayload

/-- It carries the whole slice that a transfer of this size has at its index, and belongs to that transfer. -/
structure Genuine (p : TakenChunk) (total generation : Nat) : Prop where
  full : p.bytes.length = min Limits.catalogChunkPayload (total - p.offset)
  total : p.totalBytes = total
  generation : p.generation = generation

/-- Lay the chunk over the buffer. -/
abbrev lay : Bytes → TakenChunk → Bytes := Patches.lay offset bytes

abbrev Fits (size : Nat) (p : TakenChunk) : Prop := Patches.Fits offset bytes size p

/-- The chunk that wrote a byte. -/
abbrev writer : List TakenChunk → Nat → Option TakenChunk := Patches.writer offset bytes

/-- The last chunk of an index that was not empty. -/
abbrev lastOf : List TakenChunk → Nat → Option TakenChunk := Patches.lastOf index bytes

end TakenChunk

section

variable (ps : List TakenChunk) (total generation count : Nat)

/-- Every byte of `out` was copied from a genuine chunk, taken at the index that the byte belongs to. -/
def FromChunks (out : Bytes) : Prop := ∀ m, m < out.length → ∃ p, TakenChunk.writer ps m = some p ∧
  out[m]? = p.bytes[m - p.offset]? ∧ m / Limits.catalogChunkPayload = p.index ∧ p.Genuine total generation

/-- No chunk wrote a byte that belongs to another index. -/
def StayIn : Prop := ∀ p ∈ ps, ∀ m, Covers TakenChunk.offset TakenChunk.bytes p m →
  m / Limits.catalogChunkPayload = p.index

/-- Every index had a chunk. -/
def AllCame : Prop := ∀ i, i < count → ∃ p ∈ ps, p.index = i

/-- The last chunk of each index that has bytes of the blob is genuine. -/
def LastGenuine : Prop := ∀ i, i * Limits.catalogChunkPayload < total →
  ∃ p, TakenChunk.lastOf ps i = some p ∧ p.Genuine total generation

/-- What a transfer promises of the chunks it took, `out` being the blob once it is `complete`. -/
def ChunksOnly (complete : Bool) (out : Bytes) : Prop :=
  (complete = true → FromChunks ps total generation out) ∧ StayIn ps

/-- The condition on the chunks. -/
def WellCut : Prop := (∀ p ∈ ps, p.bytes.length ≤ Limits.catalogChunkPayload) ∧
  (AllCame ps count → LastGenuine ps total generation)

variable {ps total generation count}

theorem stayIn_iff : StayIn ps ↔ ∀ p ∈ ps, p.bytes.length ≤ Limits.catalogChunkPayload :=
  forall₂_congr fun _ _ => stays_iff (by decide)

/-- What the buffer and the bitmap hold after the chunks `ps`. -/
structure Holds (ps : List TakenChunk) (buf₀ buf : Bytes) (received : List Bool) : Prop where
  buf : buf = ps.foldl TakenChunk.lay buf₀
  fits : ∀ p ∈ ps, p.Fits buf₀.length
  received : ∀ i, received.getD i false = true ↔ ∃ p ∈ ps, p.index = i

theorem fromChunks_iff {buf₀ buf : Bytes} {received : List Bool} (h : Holds ps buf₀ buf received)
    (htotal : total ≤ buf₀.length) (hlen : ∀ p ∈ ps, p.bytes.length ≤ Limits.catalogChunkPayload) :
    FromChunks ps total generation (buf.take total) ↔ LastGenuine ps total generation := by
  have hsize : (buf.take total).length = total := by
    rw [List.length_take, h.buf, length_foldl_lay h.fits]
    omega
  have hbyte : ∀ m p, m < total → TakenChunk.writer ps m = some p → (buf.take total)[m]? = p.bytes[m - p.offset]? := by
    intro m p hm hp
    rw [List.getElem?_take_of_lt hm, h.buf, getElem?_foldl_lay ps h.fits,
      show Patches.writer TakenChunk.offset TakenChunk.bytes ps m = some p from hp]
    rfl
  have hgrid : (∀ m, m < total → ∃ p, TakenChunk.writer ps m = some p ∧ m / Limits.catalogChunkPayload = p.index ∧
      p.Genuine total generation) ↔ LastGenuine ps total generation :=
    filled_iff (by decide) hlen fun p hp => le_of_eq hp.full.symm
  unfold FromChunks LastGenuine
  rw [hsize]
  refine Iff.trans (forall₂_congr fun m hm => exists_congr fun p => ?_) hgrid
  exact and_congr_right fun hp => and_iff_right (hbyte m p hm hp)

/-- **What the chunks must be**, for any reassembler that holds them. -/
theorem chunksOnly_iff {buf₀ buf : Bytes} {received : List Bool} (h : Holds ps buf₀ buf received)
    (htotal : total ≤ buf₀.length) {complete : Bool} {out : Bytes} (hdone : complete = true ↔ AllCame ps count)
    (hout : complete = true → out = buf.take total) :
    ChunksOnly ps total generation complete out ↔ WellCut ps total generation count := by
  unfold ChunksOnly WellCut
  rw [stayIn_iff, and_comm]
  refine and_congr_right fun hlen => ?_
  rw [← hdone]
  refine forall_congr' fun hc => ?_
  rw [hout hc]
  exact fromChunks_iff h htotal hlen

theorem Holds.start {buf : Bytes} {received : List Bool} (h : ∀ i, received.getD i false = false) :
    Holds [] buf buf received :=
  ⟨rfl, fun _ hp => absurd hp List.not_mem_nil, fun i => by rw [h i]; simp⟩

/-- One more chunk. -/
theorem Holds.take {buf₀ buf : Bytes} {received : List Bool} (h : Holds ps buf₀ buf received) {p : TakenChunk}
    (hp : p.Fits buf₀.length) (hi : p.index < received.length) :
    Holds (ps ++ [p]) buf₀ (TakenChunk.lay buf p) (received.set p.index true) where
  buf := by rw [List.foldl_append, h.buf]; rfl
  fits q hq := by
    rcases List.mem_append.mp hq with hq | hq
    · exact h.fits q hq
    · rw [List.mem_singleton.mp hq]
      exact hp
  received i := by
    by_cases heq : p.index = i
    · have hset : (received.set p.index true).getD i false = true := getD_set_true hi (.inr heq)
      rw [hset]
      exact iff_of_true rfl ⟨p, by simp, heq⟩
    · rw [List.getD_eq_getElem?_getD, List.getElem?_set_ne heq, ← List.getD_eq_getElem?_getD, h.received i]
      simp [or_and_right, exists_or, heq]

end

/-! ## The reassembler of the library -/

namespace ChunkReassembler

variable {maxChunks : Nat} {r : ChunkReassembler maxChunks} {ps : List TakenChunk} {buf₀ : Bytes}

/-- A payload, if it is taken; only the header that began the transfer has a say in it. -/
def taken (r : ChunkReassembler maxChunks) (chunk : Bytes) : Option TakenChunk := (r.accepts chunk).map fun h =>
  { index := h.chunkIndex.toNat, bytes := chunk.drop kBlobChunkHeaderBytes, totalBytes := h.totalBytes.toNat
    generation := h.id.generation.toNat }

theorem taken_insert (r : ChunkReassembler maxChunks) (chunk : Bytes) (nowMs : UInt32) :
    (r.insert chunk nowMs).taken = r.taken := by
  unfold insert
  split <;> rfl

/-- What a payload does to the buffer and the bitmap. -/
theorem insert_cases (r : ChunkReassembler maxChunks) (chunk : Bytes) (nowMs : UInt32) :
    (r.taken chunk = none ∧ r.insert chunk nowMs = r) ∨ ∃ p, r.taken chunk = some p ∧
      p.Fits (maxChunks * Limits.catalogChunkPayload) ∧ p.index < r.chunkCount.toNat ∧
      (r.insert chunk nowMs).buf = TakenChunk.lay r.buf p ∧
      (r.insert chunk nowMs).received = r.received.set p.index true := by
  unfold taken insert
  cases hacc : r.accepts chunk with
  | none => exact .inl ⟨rfl, rfl⟩
  | some h =>
    refine .inr ⟨_, rfl, ?_, (accepts_lt hacc).2, rfl, rfl⟩
    unfold accepts at hacc
    split at hacc
    · cases hacc
    · obtain ⟨-, hp⟩ := Option.filter_eq_some_iff.mp hacc
      simp only [Bool.and_eq_true, decide_eq_true_eq] at hp
      simpa [Patches.Fits, TakenChunk.offset] using hp.2

/-- Feed a sequence of payloads. -/
def feed (r : ChunkReassembler maxChunks) (payloads : List (Bytes × UInt32)) : ChunkReassembler maxChunks :=
  payloads.foldl (fun r e => r.insert e.1 e.2) r

theorem holds_feed : ∀ (payloads : List (Bytes × UInt32)) {r : ChunkReassembler maxChunks} {ps : List TakenChunk},
    Counted r → buf₀.length = maxChunks * Limits.catalogChunkPayload → Holds ps buf₀ r.buf r.received →
    Counted (r.feed payloads) ∧
      Holds (ps ++ payloads.filterMap fun e => r.taken e.1) buf₀ (r.feed payloads).buf (r.feed payloads).received
  | [], _, _, hr, _, h => ⟨hr, by simpa [feed] using h⟩
  | e :: rest, r, ps, hr, hsize, h => by
    have hnext := counted_insert hr e.1 e.2
    rcases insert_cases r e.1 e.2 with ⟨hnone, hsame⟩ | ⟨p, hp, hfits, hlt, hbuf, hreceived⟩
    · rw [hsame] at hnext
      have hrest := holds_feed rest hnext hsize h
      simpa [feed, hnone, hsame] using hrest
    · have hi : p.index < r.received.length := by
        rw [hr.size]
        exact hlt.trans_le hr.room
      have htake := h.take (hsize.symm ▸ hfits) hi
      rw [← hbuf, ← hreceived] at htake
      have hrest := holds_feed rest hnext hsize htake
      rw [taken_insert] at hrest
      simpa [feed, hp] using hrest

theorem feed_keeps (payloads : List (Bytes × UInt32)) (r : ChunkReassembler maxChunks) :
    (r.feed payloads).chunkCount = r.chunkCount ∧ (r.feed payloads).active = r.active ∧
      (r.feed payloads).totalBytes = r.totalBytes := by
  induction payloads generalizing r with
  | nil => exact ⟨rfl, rfl, rfl⟩
  | cons e rest ih =>
    obtain ⟨h1, h2, h3⟩ := ih (r.insert e.1 e.2)
    have hsame : (r.insert e.1 e.2).chunkCount = r.chunkCount ∧ (r.insert e.1 e.2).active = r.active ∧
        (r.insert e.1 e.2).totalBytes = r.totalBytes := by
      unfold insert
      split <;> exact ⟨rfl, rfl, rfl⟩
    exact ⟨h1.trans hsame.1, h2.trans hsame.2.1, h3.trans hsame.2.2⟩

end ChunkReassembler

/-! ## The reassembler of the JavaScript client -/

namespace Js.BlobReassembler

variable {r : BlobReassembler} {ps : List TakenChunk} {buf₀ : Bytes}

def taken (r : BlobReassembler) (payload : Bytes) : Option TakenChunk := (parseBlobChunk payload).bind fun h =>
  if r.accepts h then
    some { index := h.chunkIndex, bytes := h.bytes, totalBytes := h.totalBytes, generation := h.generation }
  else none

/-- Parse a payload and insert it, if it is accepted. -/
def receive (r : BlobReassembler) (payload : Bytes) (nowMs : Nat) : BlobReassembler :=
  match parseBlobChunk payload with
  | none => r
  | some h => if r.accepts h then r.insert h nowMs else r

/-- The bitmap has a place for each chunk and is counted right. -/
structure Counted (r : BlobReassembler) : Prop where
  size : r.received.length = r.chunkCount
  count : r.receivedCount = r.received.count true

theorem counted_begin (r : BlobReassembler) (h : BlobChunk) (nowMs : Nat) : Counted (r.begin h nowMs) := by
  unfold begin
  split
  · exact ⟨rfl, rfl⟩
  · exact ⟨List.length_replicate, (ChunkReassembler.count_replicate_false _).symm⟩

theorem receive_cases (r : BlobReassembler) (payload : Bytes) (nowMs : Nat) :
    (r.taken payload = none ∧ r.receive payload nowMs = r) ∨ ∃ p, r.taken payload = some p ∧ p.Fits r.buf.length ∧
      p.index < r.chunkCount ∧ (r.receive payload nowMs).buf = TakenChunk.lay r.buf p ∧
      (r.receive payload nowMs).received = r.received.set p.index true ∧
      (r.receive payload nowMs).receivedCount =
        (if r.received.getD p.index false then r.receivedCount else r.receivedCount + 1) ∧
      (r.receive payload nowMs).chunkCount = r.chunkCount ∧ (r.receive payload nowMs).active = r.active ∧
      (r.receive payload nowMs).target = r.target ∧ (r.receive payload nowMs).totalBytes = r.totalBytes := by
  unfold taken receive
  cases parseBlobChunk payload with
  | none => exact .inl ⟨rfl, rfl⟩
  | some h =>
    dsimp only [Option.bind_some]
    by_cases hacc : r.accepts h = true
    · rw [if_pos hacc, if_pos hacc]
      unfold accepts at hacc
      simp only [Bool.and_eq_true, decide_eq_true_eq] at hacc
      exact .inr ⟨_, rfl, hacc.2, hacc.1.2, rfl, rfl, rfl, rfl, rfl, rfl, rfl⟩
    · rw [if_neg hacc, if_neg hacc]
      exact .inl ⟨rfl, rfl⟩

theorem counted_receive (hr : Counted r) (payload : Bytes) (nowMs : Nat) : Counted (r.receive payload nowMs) := by
  rcases receive_cases r payload nowMs with ⟨-, hsame⟩ | ⟨p, -, -, hlt, -, hreceived, hcount, hchunks, -⟩
  · rw [hsame]
    exact hr
  · refine ⟨by rw [hreceived, List.length_set, hr.size, hchunks], ?_⟩
    rw [hcount, hreceived, ChunkReassembler.count_set_true (hr.size.symm ▸ hlt), hr.count]

/-- Acceptance is up to the header that began the transfer. -/
theorem taken_receive (r : BlobReassembler) (payload : Bytes) (nowMs : Nat) :
    (r.receive payload nowMs).taken = r.taken := by
  rcases receive_cases r payload nowMs with ⟨-, hsame⟩ | ⟨p, -, hfits, -, hbuf, -, -, hchunks, hactive, htarget, -⟩
  · rw [hsame]
  · have hlen : (r.receive payload nowMs).buf.length = r.buf.length := by rw [hbuf, length_lay hfits]
    have hacc : (r.receive payload nowMs).accepts = r.accepts := by
      funext h
      unfold accepts
      rw [hlen, hchunks, hactive, htarget]
    funext q
    unfold taken
    rw [hacc]

theorem complete_iff (hr : Counted r) (hactive : r.active = true) :
    r.complete = true ↔ ∀ i, i < r.chunkCount → r.received.getD i false = true := by
  have hget : ∀ i, (hi : i < r.received.length) → r.received.getD i false = r.received[i] := fun i hi => by
    rw [List.getD_eq_getElem?_getD, List.getElem?_eq_getElem hi]
    rfl
  rw [complete, hactive, Bool.true_and, beq_iff_eq, hr.count, ← hr.size, List.count_eq_length]
  constructor
  · intro h i hi
    rw [hget i hi]
    exact (h _ (List.getElem_mem hi)).symm
  · intro h b hb
    obtain ⟨i, hi, rfl⟩ := List.mem_iff_getElem.mp hb
    rw [← hget i hi]
    exact (h i hi).symm

def feed (r : BlobReassembler) (payloads : List (Bytes × Nat)) : BlobReassembler :=
  payloads.foldl (fun r e => r.receive e.1 e.2) r

theorem holds_feed : ∀ (payloads : List (Bytes × Nat)) {r : BlobReassembler} {ps : List TakenChunk},
    Counted r → r.buf.length = buf₀.length → Holds ps buf₀ r.buf r.received →
    Counted (r.feed payloads) ∧
      Holds (ps ++ payloads.filterMap fun e => r.taken e.1) buf₀ (r.feed payloads).buf (r.feed payloads).received
  | [], _, _, hr, _, h => ⟨hr, by simpa [feed] using h⟩
  | e :: rest, r, ps, hr, hsize, h => by
    have hnext := counted_receive hr e.1 e.2
    rcases receive_cases r e.1 e.2 with ⟨hnone, hsame⟩ | ⟨p, hp, hfits, hlt, hbuf, hreceived, -⟩
    · rw [hsame] at hnext
      have hrest := holds_feed rest hnext hsize h
      simpa [feed, hnone, hsame] using hrest
    · have htake := h.take (hsize ▸ hfits) (hr.size.symm ▸ hlt)
      rw [← hbuf, ← hreceived] at htake
      have hlen : (r.receive e.1 e.2).buf.length = buf₀.length := by rw [hbuf, length_lay hfits, hsize]
      have hrest := holds_feed rest hnext hlen htake
      rw [taken_receive] at hrest
      simpa [feed, hp] using hrest

theorem feed_keeps (payloads : List (Bytes × Nat)) (r : BlobReassembler) :
    (r.feed payloads).chunkCount = r.chunkCount ∧ (r.feed payloads).active = r.active ∧
      (r.feed payloads).totalBytes = r.totalBytes := by
  induction payloads generalizing r with
  | nil => exact ⟨rfl, rfl, rfl⟩
  | cons e rest ih =>
    obtain ⟨h1, h2, h3⟩ := ih (r.receive e.1 e.2)
    rcases receive_cases r e.1 e.2 with ⟨-, hsame⟩ | ⟨p, -, -, -, -, -, -, hchunks, hactive, -, htotal⟩
    · rw [hsame] at h1 h2 h3
      simpa [feed, hsame] using And.intro h1 ⟨h2, h3⟩
    · exact ⟨h1.trans hchunks, h2.trans hactive, h3.trans htotal⟩

end Js.BlobReassembler

/-! ## Both -/

theorem ChunkReassembler.chunksOnly_feed_iff {maxChunks : Nat} {r : ChunkReassembler maxChunks} (hr : Sized r)
    (h : BlobChunkHeader) (startMs : UInt32) (payloads : List (Bytes × UInt32)) :
    ChunksOnly (payloads.filterMap fun e => (r.begin h startMs).taken e.1) (r.begin h startMs).totalBytes
      h.id.generation.toNat ((r.begin h startMs).feed payloads).complete
      ((r.begin h startMs).feed payloads).assembled ↔
    WellCut (payloads.filterMap fun e => (r.begin h startMs).taken e.1) (r.begin h startMs).totalBytes
      h.id.generation.toNat (r.begin h startMs).chunkCount.toNat := by
  generalize ht : r.begin h startMs = t
  have hsize : t.buf.length = maxChunks * Limits.catalogChunkPayload := by
    rw [← ht]
    exact hr
  have hcounted : t.Counted := by
    rw [← ht]
    exact counted_begin r h startMs
  have hempty : ∀ i, t.received.getD i false = false := by
    rw [← ht]
    exact received_begin r h startMs
  have htotal : t.totalBytes ≤ maxChunks * Limits.catalogChunkPayload := by
    rw [← ht]
    unfold begin
    dsimp only
    split
    · rename_i hact
      simp only [Bool.and_eq_true, decide_eq_true_eq] at hact
      exact hact.2
    · exact Nat.zero_le _
  obtain ⟨hend, hholds⟩ := holds_feed payloads hcounted hsize (Holds.start hempty)
  rw [List.nil_append] at hholds
  obtain ⟨hchunks, hactive, hbytes⟩ := feed_keeps payloads t
  cases hact : t.active with
  | false =>
    -- a refused transfer takes nothing
    have hnone : ∀ chunk, t.taken chunk = none := fun chunk => by simp [taken, accepts, hact]
    have hzero : t.totalBytes = 0 := by
      rw [← ht] at hact ⊢
      simp only [begin] at hact ⊢
      rw [if_neg (by rw [hact]; exact Bool.false_ne_true)]
    have hstop : (t.feed payloads).complete = false := by rw [complete, hactive, hact, Bool.false_and]
    simp [ChunksOnly, WellCut, StayIn, LastGenuine, hnone, hzero, hstop]
  | true =>
    refine chunksOnly_iff hholds (hsize.symm ▸ htotal) ?_ fun _ => ?_
    · constructor
      · intro hc i hi
        exact (hholds.received i).mp (received_of_complete hend hc (hchunks.symm ▸ hi))
      · intro hall
        refine complete_of_received (hactive.trans hact) hend fun k hk => ?_
        exact (hholds.received k).mpr (hall k (hchunks ▸ hk))
    · rw [assembled, hactive, hact, hbytes, if_neg (by simpa using htotal)]

theorem Js.BlobReassembler.chunksOnly_feed_iff (r : Js.BlobReassembler) (h : Js.BlobChunk) (startMs : Nat)
    (payloads : List (Bytes × Nat)) :
    ChunksOnly (payloads.filterMap fun e => (r.begin h startMs).taken e.1) (r.begin h startMs).totalBytes h.generation
      ((r.begin h startMs).feed payloads).complete ((r.begin h startMs).feed payloads).assembled ↔
    WellCut (payloads.filterMap fun e => (r.begin h startMs).taken e.1) (r.begin h startMs).totalBytes h.generation
      (r.begin h startMs).chunkCount := by
  generalize ht : r.begin h startMs = t
  have hcounted : t.Counted := by
    rw [← ht]
    exact counted_begin r h startMs
  have hempty : ∀ i, t.received.getD i false = false := by
    rw [← ht]
    unfold begin
    split
    · exact fun i => rfl
    · exact ChunkReassembler.getD_replicate_false h.chunkCount
  have hsize : t.buf.length = t.totalBytes := by
    rw [← ht]
    unfold begin
    split
    · rfl
    · exact List.length_replicate
  obtain ⟨hend, hholds⟩ := holds_feed payloads hcounted rfl (Holds.start hempty)
  rw [List.nil_append] at hholds
  obtain ⟨hchunks, hactive, hbytes⟩ := feed_keeps payloads t
  cases hact : t.active with
  | false =>
    have hnone : ∀ payload, t.taken payload = none := fun payload => by simp [taken, accepts, hact]
    have hzero : t.totalBytes = 0 := by
      rw [← ht] at hact ⊢
      unfold begin at hact ⊢
      split at hact
      · rename_i hrefused
        rw [if_pos hrefused]
        rfl
      · cases hact
    have hstop : (t.feed payloads).complete = false := by rw [complete, hactive, hact, Bool.false_and]
    simp [ChunksOnly, WellCut, StayIn, LastGenuine, hnone, hzero, hstop]
  | true =>
    refine chunksOnly_iff hholds hsize.ge ?_ fun _ => by rw [assembled, hbytes]
    rw [complete_iff hend (hactive.trans hact), hchunks]
    exact forall₂_congr fun i _ => hholds.received i

/-- **A complete blob is made of its chunks only** exactly when the chunks are well cut: after any payloads, in both
reassemblers. -/
theorem chunks_only_iff {maxChunks : Nat} {r : ChunkReassembler maxChunks} (hr : Sized r) (h : BlobChunkHeader)
    (startMs : UInt32) (payloads : List (Bytes × UInt32)) (jr : Js.BlobReassembler) (jh : Js.BlobChunk) (jstartMs : Nat)
    (jpayloads : List (Bytes × Nat)) :
    (ChunksOnly (payloads.filterMap fun e => (r.begin h startMs).taken e.1) (r.begin h startMs).totalBytes
        h.id.generation.toNat ((r.begin h startMs).feed payloads).complete
        ((r.begin h startMs).feed payloads).assembled ↔
      WellCut (payloads.filterMap fun e => (r.begin h startMs).taken e.1) (r.begin h startMs).totalBytes
        h.id.generation.toNat (r.begin h startMs).chunkCount.toNat) ∧
    (ChunksOnly (jpayloads.filterMap fun e => (jr.begin jh jstartMs).taken e.1) (jr.begin jh jstartMs).totalBytes
        jh.generation ((jr.begin jh jstartMs).feed jpayloads).complete ((jr.begin jh jstartMs).feed jpayloads).assembled ↔
      WellCut (jpayloads.filterMap fun e => (jr.begin jh jstartMs).taken e.1) (jr.begin jh jstartMs).totalBytes
        jh.generation (jr.begin jh jstartMs).chunkCount) :=
  ⟨ChunkReassembler.chunksOnly_feed_iff hr h startMs payloads,
    Js.BlobReassembler.chunksOnly_feed_iff jr jh jstartMs jpayloads⟩

/-- Item 0 of store 0 in its first generation, four bytes in one chunk. -/
def itemHeader : BlobChunkHeader := { id := { ns := 1, generation := 1 }, chunkCount := 1, totalBytes := 4 }

def Js.itemHeader : Js.BlobChunk :=
  { ns := 1, generation := 1, chunkIndex := 0, chunkCount := 1, totalBytes := 4, bytes := [] }

/-- Its only chunk, as it was in a generation. -/
def itemChunk (generation : UInt16) : Bytes :=
  [1, 0, 0, 0] ++ le16 generation ++ le16 0 ++ le16 1 ++ le32 4 ++ [1, 2, 3, 4]

def itemTransfer : ChunkReassembler 1 := ({} : ChunkReassembler 1).begin itemHeader 0

def Js.itemTransfer : Js.BlobReassembler := ({} : Js.BlobReassembler).begin Js.itemHeader 0

/-- The item, from the chunk of its own generation. -/
theorem chunks_only_item : ChunksOnly ([(itemChunk 1, 0)].filterMap fun e => itemTransfer.taken e.1)
    itemTransfer.totalBytes 1 (itemTransfer.feed [(itemChunk 1, 0)]).complete
    (itemTransfer.feed [(itemChunk 1, 0)]).assembled := by
  have hsized : Sized ({} : ChunkReassembler 1) := List.length_replicate
  refine (chunks_only_iff hsized itemHeader 0 [(itemChunk 1, 0)] {} Js.itemHeader 0 []).1.mpr
    ⟨by decide, fun _ i hi => ?_⟩
  have htotal : (({} : ChunkReassembler 1).begin itemHeader 0).totalBytes = 4 := by decide +kernel
  rw [htotal, Limits.catalogChunkPayload] at hi
  obtain rfl : i = 0 := by omega
  exact ⟨⟨0, [1, 2, 3, 4], 4, 1⟩, rfl, ⟨rfl, rfl, rfl⟩⟩

/-- A chunk of another generation completes the transfer as well, in both reassemblers. -/
theorem stale_chunk_completes :
    ¬ChunksOnly ([(itemChunk 2, 0)].filterMap fun e => itemTransfer.taken e.1) itemTransfer.totalBytes 1
      (itemTransfer.feed [(itemChunk 2, 0)]).complete (itemTransfer.feed [(itemChunk 2, 0)]).assembled ∧
    ¬ChunksOnly ([(itemChunk 2, 0)].filterMap fun e => Js.itemTransfer.taken e.1) Js.itemTransfer.totalBytes 1
      (Js.itemTransfer.feed [(itemChunk 2, 0)]).complete (Js.itemTransfer.feed [(itemChunk 2, 0)]).assembled := by
  constructor <;> intro h
  · obtain ⟨p, hp, -, -, hgenuine⟩ := h.1 (by decide +kernel) 0 (by decide +kernel)
    cases hp
    exact absurd hgenuine.generation (by decide)
  · obtain ⟨p, hp, -, -, hgenuine⟩ := h.1 (by decide +kernel) 0 (by decide +kernel)
    cases hp
    exact absurd hgenuine.generation (by decide)

end SlopSync
