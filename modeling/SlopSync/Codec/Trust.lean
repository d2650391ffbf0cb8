import SlopSync.Codec.Fields

/-! # The trust sub-map

`wire/messages/trust_submap.hpp`.  The encoder writes what it is given; the decoder bounds the strings.  A map is
`Readable` when the decoder takes what the encoder writes for it. -/

namespace SlopSync

open CborWriter CborReader CborDecoder

def kTrustPubkeyMaxBytes : Nat := 33
def kTrustSigMaxBytes : Nat := 72

namespace TrustMap

/-! ## What is written -/

def pairs (t : TrustMap) : List (Nat × CborTree) :=
  optPair 1 t.clientVer .text ++ optPair 2 t.clientNonce .arr ++ optPair 3 t.sigRequest .bool ++
    optPair 4 t.hubPubkey .bytes ++ optPair 5 t.welcomeSig .bytes ++ optPair 6 t.tokenProof .arr ++
    optPair 7 t.presentationMode .u8 ++ optPair 8 t.pairingModes .u8

def tree (t : TrustMap) : CborTree := .map t.pairs

theorem length_pairs (t : TrustMap) : t.pairs.length = t.keyCount := by
  simp only [pairs, keyCount, List.length_append, length_optPair]

theorem encodeTrustMap_emit (w : CborWriter) (t : TrustMap) :
    encodeTrustMap w t = emit t.tree (w.key CborKey.trust) := by
  rw [tree, emit, length_pairs]
  simp only [pairs, emitPairs_append, emitPairs_text, emitPairs_arr, emitPairs_bool, emitPairs_bytes, emitPairs_u8]
  rfl

/-- A trust map that may be left out. -/
theorem emitPairs_trust (w : CborWriter) (o : Option TrustMap) :
    emitPairs (optPair CborKey.trust o TrustMap.tree) w = match o with
      | none => w
      | some t => encodeTrustMap w t := by
  cases o with
  | none => rfl
  | some t => exact (encodeTrustMap_emit w t).symm

theorem typed_tree (t : TrustMap) : Typed t.tree := by
  refine .map ?_ ?_ ?_
  · have h₁ := optCount_le t.clientVer
    have h₂ := optCount_le t.clientNonce
    have h₃ := optCount_le t.sigRequest
    have h₄ := optCount_le t.hubPubkey
    have h₅ := optCount_le t.welcomeSig
    have h₆ := optCount_le t.tokenProof
    have h₇ := optCount_le t.presentationMode
    have h₈ := optCount_le t.pairingModes
    rw [length_pairs, keyCount]
    omega
  · simp only [pairs, List.forall_mem_append, forall_mem_optPair]
    simp
  · simp only [pairs, List.append_assoc, List.forall_mem_append, forall_mem_optPair]
    exact ⟨fun s _ => .text s, fun s _ => .bytes s.val, fun b _ => .bool b, fun s _ => .bytes s, fun s _ => .bytes s,
      fun s _ => .bytes s.val, fun v _ => typed_u8 v, fun v _ => typed_u8 v⟩

/-! ## What is read -/

/-- The value of a sub-key; unknown ones are skipped. -/
def field (k : Nat) (t : TrustMap) : CborDecoder TrustMap :=
  if k = 1 then (text Limits.clientVerMaxBytes).map fun v => { t with clientVer := some v }
  else if k = 2 then (arr 8).map fun v => { t with clientNonce := some v }
  else if k = 3 then bool.map fun v => { t with sigRequest := some v }
  else if k = 4 then (bytesWithin kTrustPubkeyMaxBytes).map fun v => { t with hubPubkey := some v }
  else if k = 5 then (bytesWithin kTrustSigMaxBytes).map fun v => { t with welcomeSig := some v }
  else if k = 6 then (arr 16).map fun v => { t with tokenProof := some v }
  else if k = 7 then u8.map fun v => { t with presentationMode := some v }
  else if k = 8 then u8.map fun v => { t with pairingModes := some v }
  else skip t

end TrustMap

/-- The value of key 39. -/
def decodeTrustMap : CborDecoder TrustMap := record {} TrustMap.field

namespace TrustMap

/-- The strings are as long as the decoder wants them. -/
structure Readable (t : TrustMap) : Prop where
  clientVer : ∀ s ∈ t.clientVer, s.length ≤ Limits.clientVerMaxBytes
  hubPubkey : ∀ s ∈ t.hubPubkey, s ≠ [] ∧ s.length ≤ kTrustPubkeyMaxBytes
  welcomeSig : ∀ s ∈ t.welcomeSig, s ≠ [] ∧ s.length ≤ kTrustSigMaxBytes

/-- A map is read as it was written when its strings are as long as they may be. -/
theorem ofTree_of_readable {t : TrustMap} (h : t.Readable) : decodeTrustMap.ofTree t.tree = some t := by
  rw [tree, decodeTrustMap, record_ofTree]
  simp only [pairs, List.append_assoc]
  rw [foldlM_optPair (fun t o => { t with clientVer := o }) id rfl (by
      intro s hs
      simp [field, h.clientVer s hs]),
    foldlM_optPair (fun t o => { t with clientNonce := o }) id rfl (by simp [field]),
    foldlM_optPair (fun t o => { t with sigRequest := o }) id rfl (by simp [field]),
    foldlM_optPair (fun t o => { t with hubPubkey := o }) id rfl (by
      intro s hs
      simp [field, bytesWithin_ofTree (h.hubPubkey s hs)]),
    foldlM_optPair (fun t o => { t with welcomeSig := o }) id rfl (by
      intro s hs
      simp [field, bytesWithin_ofTree (h.welcomeSig s hs)]),
    foldlM_optPair (fun t o => { t with tokenProof := o }) id rfl (by simp [field]),
    foldlM_optPair (fun t o => { t with presentationMode := o }) id rfl (by simp [field]),
    foldlM_optPair_last (fun t o => { t with pairingModes := o }) id rfl (by simp [field])]
  simp

/-- A pair that no map takes. -/
theorem ofTree_none {t : TrustMap} {p : Nat × CborTree} (hp : p ∈ t.pairs)
    (h : ∀ s, (field p.1 s).ofTree p.2 = none) : decodeTrustMap.ofTree t.tree = none := by
  rw [tree, decodeTrustMap, record_ofTree]
  exact foldlM_none (fun s q => (field q.1 s).ofTree q.2) hp h {}

/-- What is read back was written with strings as long as they may be. -/
theorem readable_of_ofTree {t s : TrustMap} (h : decodeTrustMap.ofTree t.tree = some s) : t.Readable := by
  have hrefused : ∀ p ∈ t.pairs, ¬∀ s, (field p.1 s).ofTree p.2 = none := by
    intro p hp hnone
    rw [ofTree_none hp hnone] at h
    cases h
  simp only [pairs, List.append_assoc, List.forall_mem_append, forall_mem_optPair] at hrefused
  obtain ⟨hver, -, -, hkey, hsig, -⟩ := hrefused
  constructor
  · intro s hs
    by_contra hlen
    exact hver s hs fun t => by simp [field, hlen]
  · intro s hs
    by_contra hlen
    exact hkey s hs fun t => by simp [field, bytesWithin_none hlen]
  · intro s hs
    by_contra hlen
    exact hsig s hs fun t => by simp [field, bytesWithin_none hlen]

theorem ofTree_of_not_readable {t : TrustMap} (h : ¬t.Readable) : decodeTrustMap.ofTree t.tree = none := by
  cases hof : decodeTrustMap.ofTree t.tree with
  | none => rfl
  | some s => exact absurd (readable_of_ofTree hof) h

end TrustMap

end SlopSync
