import SlopSync.Frame

/-! # Reassembling a blob in JavaScript

`BlobReassembler` of `catalog.js`.  Numbers do not wrap and the buffer is as large as the first header says. -/

namespace SlopSync.Js

def blobChunkHeaderBytes : Nat := 14

def blobChunkPayload : Nat := 192

/-- A parsed BLOB_CHUNK payload. -/
structure BlobChunk where
  ns : Nat := 0
  storeId : Nat := 0
  slot : Nat := 0
  generation : Nat := 0
  chunkIndex : Nat
  chunkCount : Nat
  totalBytes : Nat
  bytes : Bytes
  deriving DecidableEq, Repr

/-- The reserved byte is not looked at. -/
def parseBlobChunk (payload : Bytes) : Option BlobChunk :=
  if payload.length < blobChunkHeaderBytes then none
  else
    some {
      ns := (payload.getD 0 0).toNat
      storeId := (payload.getD 1 0).toNat
      slot := (payload.getD 2 0).toNat
      generation := (getU16 (payload.drop 4)).toNat
      chunkIndex := (getU16 (payload.drop 6)).toNat
      chunkCount := (getU16 (payload.drop 8)).toNat
      totalBytes := (getU32 (payload.drop 10)).toNat
      bytes := payload.drop blobChunkHeaderBytes }

/-- What a blob is told apart by; the generation is not in it. -/
def BlobChunk.target (h : BlobChunk) : Nat × Nat × Nat := (h.ns, h.storeId, h.slot)

structure BlobReassembler where
  maxTotalBytes : Nat := 341 * blobChunkPayload
  active : Bool := false
  target : Nat × Nat × Nat := (0, 0, 0)
  chunkCount : Nat := 0
  totalBytes : Nat := 0
  received : List Bool := []
  receivedCount : Nat := 0
  buf : Bytes := []
  startMs : Nat := 0
  lastProgressMs : Nat := 0
  deriving DecidableEq, Repr

namespace BlobReassembler

def reset (r : BlobReassembler) : BlobReassembler := { maxTotalBytes := r.maxTotalBytes }

/-- A header that declares nothing, or more than the cap, leaves the reassembler reset. -/
def begin (r : BlobReassembler) (h : BlobChunk) (nowMs : Nat) : BlobReassembler :=
  if h.chunkCount = 0 ∨ h.totalBytes = 0 ∨ r.maxTotalBytes < h.totalBytes then r.reset
  else
    { r.reset with
      active := true
      target := h.target
      chunkCount := h.chunkCount
      totalBytes := h.totalBytes
      received := List.replicate h.chunkCount false
      buf := List.replicate h.totalBytes 0
      startMs := nowMs
      lastProgressMs := nowMs }

def accepts (r : BlobReassembler) (h : BlobChunk) : Bool :=
  r.active && h.target == r.target && h.chunkCount == r.chunkCount && decide (h.chunkIndex < r.chunkCount) &&
    decide (h.chunkIndex * blobChunkPayload + h.bytes.length ≤ r.buf.length)

/-- Duplicates are copied in again. -/
def insert (r : BlobReassembler) (h : BlobChunk) (nowMs : Nat) : BlobReassembler :=
  let offset := h.chunkIndex * blobChunkPayload
  { r with
    buf := r.buf.take offset ++ h.bytes ++ r.buf.drop (offset + h.bytes.length)
    received := r.received.set h.chunkIndex true
    receivedCount := if r.received.getD h.chunkIndex false then r.receivedCount else r.receivedCount + 1
    lastProgressMs := nowMs }

def complete (r : BlobReassembler) : Bool := r.active && r.receivedCount == r.chunkCount

def missingIndices (r : BlobReassembler) : List Nat :=
  if r.active then (List.range r.chunkCount).filter (fun i => !r.received.getD i false) else []

def gapElapsed (r : BlobReassembler) (nowMs : Nat) : Bool :=
  r.active && !r.complete && decide (r.lastProgressMs + 500 ≤ nowMs)

def noteRepairSent (r : BlobReassembler) (nowMs : Nat) : BlobReassembler := { r with lastProgressMs := nowMs }

def timedOut (r : BlobReassembler) (nowMs : Nat) : Bool := r.active && decide (r.startMs + 5000 ≤ nowMs)

def assembled (r : BlobReassembler) : Bytes := r.buf.take r.totalBytes

end BlobReassembler

end SlopSync.Js
