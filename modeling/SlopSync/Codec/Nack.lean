import SlopSync.Codec.Fields

/-! # NACK

`wire/messages/nack.hpp`.  A refusal without a text always fits its buffer. -/

namespace SlopSync

open CborWriter CborTree

namespace NackMsg

def pairs (m : NackMsg) : List (Nat × CborTree) :=
  optPair CborKey.channelId m.channelId .u16 ++ [(CborKey.code, .u16 m.code.code)] ++
    optPair CborKey.detail (m.detail.map textBytes) .text ++ optPair CborKey.intentId m.intentId .u16 ++
    optPair CborKey.retryAfterMs m.retryAfterMs .u32 ++ optPair CborKey.intentSeq m.intentSeq .u16

def tree (m : NackMsg) : CborTree := .map m.pairs

variable {m : NackMsg}

theorem length_pairs (h : m.detail = none) : m.pairs.length =
    1 + optCount m.channelId + optCount m.intentId + optCount m.retryAfterMs + optCount m.intentSeq := by
  have h₀ : optCount (none : Option Bytes) = 0 := rfl
  simp only [pairs, h, List.length_append, length_optPair, List.length_cons, List.length_nil, Option.map_none]
  omega

theorem length_pairs_le (h : m.detail = none) : m.pairs.length ≤ 5 := by
  have h₁ := optCount_le m.channelId
  have h₂ := optCount_le m.intentId
  have h₃ := optCount_le m.retryAfterMs
  have h₄ := optCount_le m.intentSeq
  rw [length_pairs h]
  omega

theorem encodeNack_emit (h : m.detail = none) (cap : Nat) : encodeNack m cap = (emit m.tree { cap }).result := by
  rw [tree, emit, length_pairs h, pairs]
  simp only [emitPairs_append, emitPairs_u16, emitPairs_u32, h, Option.map_none, emitPairs_cons, emitPairs_nil,
    optPair_none, CborTree.u16, emit]
  unfold encodeNack
  rw [h]
  rfl

theorem fits_tree (h : m.detail = none) : CborTree.Fits kMaxDepth m.tree := by
  have h16 : ∀ v : UInt16, CborTree.Fits 0 (.u16 v) := fun v => .uint (by have := v.toNat_lt; omega)
  have h32 : ∀ v : UInt32, CborTree.Fits 0 (.u32 v) := fun v => .uint (by have := v.toNat_lt; omega)
  refine CborTree.Fits.mono (d := 0 + 1) (.map ?_ ?_ ?_ ?_) (by decide)
  · have := length_pairs_le h
    omega
  · obtain ⟨code, channelId, intentId, detail, retryAfterMs, intentSeq⟩ := m
    cases channelId <;> cases intentId <;> cases retryAfterMs <;> cases intentSeq <;>
      simp_all [CborTree.Ascending, pairs, CborKey.channelId, CborKey.code, CborKey.intentId, CborKey.retryAfterMs,
        CborKey.intentSeq]
  · simp only [pairs, h, List.forall_mem_append, forall_mem_optPair, List.forall_mem_cons]
    simp [CborKey.channelId, CborKey.code, CborKey.intentId, CborKey.retryAfterMs, CborKey.intentSeq]
  · simp only [pairs, h, List.append_assoc, List.forall_mem_append, forall_mem_optPair, List.forall_mem_cons]
    exact ⟨fun v _ => h16 v, ⟨h16 _, by simp⟩, by simp, fun v _ => h16 v, fun v _ => h32 v, fun v _ => h16 v⟩

/-- The cost of an optional field of at most `n` bytes. -/
theorem length_encodePairs_optPair {α : Type} {k n : Nat} {o : Option α} {f : α → CborTree}
    (hk : (head 0 k).length ≤ 2) (hf : ∀ a, (f a).encode.length ≤ n) : (encodePairs (optPair k o f)).length ≤ 2 + n := by
  cases o with
  | none => simp
  | some a =>
    have := hf a
    simp only [optPair_some, encodePairs_cons, encodePairs_nil, List.append_nil, List.length_append]
    omega

theorem length_tree (h : m.detail = none) : m.tree.encode.length ≤ 33 := by
  have h16 : ∀ v : UInt16, (CborTree.u16 v).encode.length ≤ 3 := fun v =>
    head_length_u16 0 (by have := v.toNat_lt; omega)
  have h32 : ∀ v : UInt32, (CborTree.u32 v).encode.length ≤ 5 := fun v =>
    head_length_u32 0 (by have := v.toNat_lt; omega)
  have h₀ := head_length_small 5 ((length_pairs_le h).trans (by decide))
  have h₁ := length_encodePairs_optPair (k := CborKey.channelId) (o := m.channelId) (by decide) h16
  have h₂ := length_encodePairs_optPair (k := CborKey.intentId) (o := m.intentId) (by decide) h16
  have h₃ := length_encodePairs_optPair (k := CborKey.retryAfterMs) (o := m.retryAfterMs) (by decide) h32
  have h₄ := length_encodePairs_optPair (k := CborKey.intentSeq) (o := m.intentSeq) (by decide) h16
  have h₅ := length_encodePairs_optPair (k := CborKey.code) (o := some m.code.code) (by decide) h16
  show (head 5 m.pairs.length ++ encodePairs m.pairs).length ≤ 33
  rw [List.length_append, h₀]
  simp only [pairs, h, Option.map_none, optPair_none, encodePairs_append, List.length_append, encodePairs_nil,
    List.length_nil]
  rw [optPair_some] at h₅
  omega

end NackMsg

/-- A refusal without a text always encodes. -/
theorem encodeNack_fits {m : NackMsg} (h : m.detail = none) : ∃ bytes, encodeNack m 128 = some bytes ∧ bytes.length ≤ 128 := by
  have hlen := (NackMsg.length_tree h).trans (by decide : 33 ≤ 128)
  refine ⟨m.tree.encode, ?_, hlen⟩
  rw [NackMsg.encodeNack_emit h]
  exact emit_result (NackMsg.fits_tree h) hlen

end SlopSync
