import SlopSync.Profile.Emit
import SlopSync.Profile.Read

/-! # One format on both sides

The writer emits the canonical encoding of a tree, the reader returns the tree from it, and what the reader accepts is
the canonical encoding of exactly one tree. -/

namespace SlopSync

open CborWriter

namespace CborTree

/-- Negative integers go down to `-2 ^ 63`. -/
inductive Int64s : CborTree → Prop
  | uint (n : Nat) : Int64s (.uint n)
  | negInt {n : Nat} (h : n < 2 ^ 63) : Int64s (.negInt n)
  | bytes (s : Bytes) : Int64s (.bytes s)
  | text (s : Bytes) : Int64s (.text s)
  | bool (b : Bool) : Int64s (.bool b)
  | null : Int64s .null
  | f32 (bits : UInt32) : Int64s (.f32 bits)
  | array {ts : List CborTree} (h : ∀ t ∈ ts, Int64s t) : Int64s (.array ts)
  | map {ps : List (Nat × CborTree)} (h : ∀ p ∈ ps, Int64s p.2) : Int64s (.map ps)

end CborTree

namespace CborReader

mutual

/-- The calls that match the shape of a tree, and what they return. -/
def readBack : CborTree → CborReader → Except DecodeError (CborTree × CborReader)
  | .uint _, r => do
    let (v, r) ← r.readUint
    return (.uint v.toNat, r)
  | .negInt _, r => do
    let (v, r) ← r.readInt
    return (.ofInt v.toInt, r)
  | .bytes _, r => do
    let (s, r) ← r.readBstr
    return (.bytes s, r)
  | .text _, r => do
    let (s, r) ← r.readTstr
    return (.text s, r)
  | .bool _, r => do
    let (b, r) ← r.readBool
    return (.bool b, r)
  | .null, r => do
    let (_, r) ← r.readNull
    return (.null, r)
  | .f32 _, r => do
    let (bits, r) ← r.readF32
    return (.f32 bits, r)
  | .array ts, r => do
    let (n, r) ← r.readArrayHeader
    if n ≠ ts.length then .error .malformed
    else
      let (ts, r) ← readItems ts r
      return (.array ts, r)
  | .map ps, r => do
    let (n, r) ← r.readMapHeader
    if n ≠ ps.length then .error .malformed
    else
      let (ps, r) ← readPairs ps r
      return (.map ps, r)

def readItems : List CborTree → CborReader → Except DecodeError (List CborTree × CborReader)
  | [], r => .ok ([], r)
  | t :: ts, r => do
    let (t, r) ← readBack t r
    let (ts, r) ← readItems ts r
    return (t :: ts, r)

def readPairs : List (Nat × CborTree) → CborReader → Except DecodeError (List (Nat × CborTree) × CborReader)
  | [], r => .ok ([], r)
  | (_, t) :: ps, r => do
    let (k, r) ← r.readKey
    let (t, r) ← readBack t r
    let (ps, r) ← readPairs ps r
    return ((k, t) :: ps, r)

end

theorem ofInt_negInt {n : Nat} (h : n < 2 ^ 63) : CborTree.ofInt (-1 - Int64.ofNat n).toInt = .negInt n := by
  have hval : (-1 - Int64.ofNat n).toInt = -1 - n := by
    rw [Int64.toInt_sub, Int64.toInt_ofNat_of_lt h, show (-1 : Int64).toInt = -1 from rfl]
    apply Int.bmod_eq_of_le <;> simp <;> omega
  rw [hval, show (-1 - (n : Int)) = Int.negSucc n by omega]
  rfl

mutual

/-- **The calls that match return the tree.** -/
theorem readBack_encode : ∀ {t : CborTree} {u : Bytes} {s : List CborFrame}, t.Int64s → s.length ≤ kMaxDepth →
    CborTree.Fits (kMaxDepth - s.length) t → readBack t ⟨t.encode ++ u, s⟩ = .ok (t, ⟨u, consume s⟩)
  | .uint n, u, s, _, hs, ht => by
    have hn : n < 2 ^ 64 := by
      generalize kMaxDepth - s.length = d at ht
      cases ht
      assumption
    rw [readBack, takes_readUint.complete (Nat.zero_le _) hs ht rfl, ok_bind]
    simp only [UInt64.toNat_ofNat_of_lt' hn]
    rfl
  | .negInt n, u, s, hn, hs, ht => by
    cases hn with
    | negInt hn =>
      rw [readBack, takes_readInt.complete (Nat.zero_le _) hs ht rfl, ok_bind]
      simp only [ofInt_negInt hn]
      rfl
  | .bytes b, u, s, _, hs, ht => by
    rw [readBack, takes_readBstr.complete (Nat.zero_le _) hs ht rfl]
    rfl
  | .text b, u, s, _, hs, ht => by
    rw [readBack, takes_readTstr.complete (Nat.zero_le _) hs ht rfl]
    rfl
  | .bool b, u, s, _, hs, ht => by
    rw [readBack, takes_readBool.complete (Nat.zero_le _) hs ht rfl]
    rfl
  | .null, u, s, _, hs, ht => by
    rw [readBack, takes_readNull.complete (Nat.zero_le _) hs ht rfl]
    rfl
  | .f32 bits, u, s, _, hs, ht => by
    rw [readBack, takes_readF32.complete (Nat.zero_le _) hs ht rfl]
    rfl
  | .array ts, u, s, hn, hs, ht => by
    generalize hd : kMaxDepth - s.length = d at ht
    cases hn with
    | array hsmall =>
      cases ht with
      | @array d _ hn hts =>
        have hs' : s.length < kMaxDepth := by omega
        have hitems := readItems_encode (u := u) hsmall hs' (by
          rwa [show kMaxDepth - (s.length + 1) = d by omega])
        rw [readBack, CborTree.encode, List.append_assoc, readArrayHeader, enterContainer_head (by decide) hn hs']
        simp only [ok_bind, ne_eq, not_true_eq_false, if_false]
        rw [show slotsOf false ts.length = ts.length from rfl, hitems]
        rfl
  | .map ps, u, s, hn, hs, ht => by
    generalize hd : kMaxDepth - s.length = d at ht
    cases hn with
    | map hsmall =>
      cases ht with
      | @map d _ hn hasc hk hps =>
        have hs' : s.length < kMaxDepth := by omega
        have hpairs := readPairs_encode (u := u) (o := none) hsmall hs' hasc (by simp) hk (by
          rwa [show kMaxDepth - (s.length + 1) = d by omega])
        rw [readBack, CborTree.encode, List.append_assoc, readMapHeader, enterContainer_head (by decide) hn hs']
        simp only [ok_bind, ne_eq, not_true_eq_false, if_false]
        rw [hpairs]
        rfl

theorem readItems_encode : ∀ {ts : List CborTree} {u : Bytes} {s : List CborFrame}, (∀ t ∈ ts, t.Int64s) →
    s.length < kMaxDepth → (∀ t ∈ ts, CborTree.Fits (kMaxDepth - (s.length + 1)) t) →
    readItems ts ⟨CborTree.encodeItems ts ++ u, opened ⟨false, ts.length, none⟩ s⟩ = .ok (ts, ⟨u, consume s⟩)
  | [], _, _, _, _, _ => rfl
  | t :: ts, u, s, hsmall, hs, hts => by
    obtain ⟨ht, hts⟩ := List.forall_mem_cons.mp hts
    obtain ⟨hn, hsmall⟩ := List.forall_mem_cons.mp hsmall
    have hback := readBack_encode (u := CborTree.encodeItems ts ++ u)
      (s := opened ⟨false, ts.length + 1, none⟩ s) hn hs ht
    rw [CborTree.encodeItems_cons, List.append_assoc, List.length_cons, readItems, hback]
    simp only [ok_bind]
    rw [show consume (opened ⟨false, ts.length + 1, none⟩ s) = opened ⟨false, ts.length, none⟩ s from
      consume_cons (Nat.succ_pos _), readItems_encode hsmall hs hts]
    rfl

theorem readPairs_encode : ∀ {ps : List (Nat × CborTree)} {u : Bytes} {s : List CborFrame} {o : Option Nat},
    (∀ p ∈ ps, p.2.Int64s) → s.length < kMaxDepth → CborTree.Ascending ps → (∀ l ∈ o, ∀ p ∈ ps, l < p.1) →
    (∀ p ∈ ps, p.1 < 2 ^ 64) → (∀ p ∈ ps, CborTree.Fits (kMaxDepth - (s.length + 1)) p.2) →
    readPairs ps ⟨CborTree.encodePairs ps ++ u, opened ⟨true, slotsOf true ps.length, o⟩ s⟩ =
      .ok (ps, ⟨u, consume s⟩)
  | [], _, _, _, _, _, _, _, _, _ => rfl
  | (k, t) :: ps, u, s, o, hsmall, hs, hasc, hlast, hk, hps => by
    obtain ⟨ht, hps⟩ := List.forall_mem_cons.mp hps
    obtain ⟨hn, hsmall⟩ := List.forall_mem_cons.mp hsmall
    obtain ⟨hk, hkeys⟩ := List.forall_mem_cons.mp hk
    obtain ⟨hfirst, hasc⟩ := List.pairwise_cons.mp hasc
    have hkey := readKey_head (n := ps.length) (u := t.encode ++ (CborTree.encodePairs ps ++ u)) (s := s) hk
      (fun l hl => hlast l hl (k, t) (List.mem_cons_self ..))
    have hback := readBack_encode (u := CborTree.encodePairs ps ++ u)
      (s := ⟨true, slotsOf true ps.length + 1, some k⟩ :: s) hn hs ht
    rw [CborTree.encodePairs_cons, List.append_assoc, List.append_assoc, List.length_cons, readPairs, hkey]
    simp only [ok_bind]
    rw [hback]
    simp only [ok_bind]
    rw [consume_cons (Nat.succ_pos _)]
    have hrest := readPairs_encode (u := u) (s := s) (o := some k) hsmall hs hasc (by
      intro l hl p hp
      obtain rfl := Option.some.inj (Option.mem_def.mp hl)
      exact hfirst _ (List.mem_map_of_mem hp)) hkeys hps
    rw [show slotsOf true ps.length + 1 - 1 = slotsOf true ps.length from rfl, hrest]
    rfl

end

/-! ## Skipping -/

/-- What a new reader skips is the encoding of a tree of the profile. -/
theorem skipValue_sound {bs : Bytes} {r : CborReader} (h : skipValue ⟨bs, []⟩ = .ok r) :
    ∃ t, CborTree.Fits kMaxDepth t ∧ bs = t.encode ++ r.rest ∧ r.stack = [] := by
  obtain ⟨t, ht, hbs, hstack, -⟩ := takes_skipValue.sound (r := ⟨bs, []⟩) (a := ()) (Nat.zero_le _)
    (Nat.zero_le _) (by
    rw [h]
    rfl)
  exact ⟨t, ht, hbs, hstack⟩

theorem skipValue_encode {t : CborTree} {u : Bytes} (ht : CborTree.Fits kMaxDepth t) :
    skipValue ⟨t.encode ++ u, []⟩ = .ok ⟨u, []⟩ := by
  have h := takes_skipValue.complete (u := u) (s := []) (Nat.zero_le _) (Nat.zero_le _) ht rfl
  cases hskip : skipValue ⟨t.encode ++ u, []⟩ with
  | error e =>
    rw [hskip] at h
    cases h
  | ok r =>
    rw [hskip] at h
    cases h
    rfl

theorem skipValue_iff {bs : Bytes} {k : Nat} :
    skipValue ⟨bs, []⟩ = .ok ⟨bs.drop k, []⟩ ↔ ∃ t, CborTree.Fits kMaxDepth t ∧ bs.take k = t.encode := by
  constructor
  · intro h
    obtain ⟨t, ht, hbs, -⟩ := skipValue_sound h
    have hsplit : t.encode ++ bs.drop k = bs.take k ++ bs.drop k := by rw [List.take_append_drop, ← hbs]
    exact ⟨t, ht, (List.append_cancel_right hsplit).symm⟩
  · rintro ⟨t, ht, htake⟩
    have h := skipValue_encode (u := bs.drop k) ht
    rwa [← htake, List.take_append_drop] at h

/-- **One format.**  A tree is read back from what is written for it, and nothing more is taken; what is skipped is the
encoding of one tree of the profile, and it is what is written for that tree. -/
theorem one_format :
    (∀ (t : CborTree) (cap : Nat), CborTree.Fits kMaxDepth t → t.Int64s → t.encode.length ≤ cap →
      ∃ bs, (emit t { cap }).result = some bs ∧ ∀ rest, readBack t ⟨bs ++ rest, []⟩ = .ok (t, ⟨rest, []⟩)) ∧
    (∀ (bs : Bytes) (k : Nat), skipValue ⟨bs, []⟩ = .ok ⟨bs.drop k, []⟩ ↔
      ∃! t : CborTree, CborTree.Fits kMaxDepth t ∧ bs.take k = t.encode) ∧
    (∀ (bs : Bytes) (r : CborReader), skipValue ⟨bs, []⟩ = .ok r →
      ∃ k ≤ bs.length, r = ⟨bs.drop k, []⟩) ∧
    ∀ (t : CborTree) (cap : Nat) (bs : Bytes), CborTree.Fits kMaxDepth t → t.Int64s → t.encode.length ≤ cap →
      ((emit t { cap }).result = some bs ↔ bs = t.encode) := by
  refine ⟨?_, ?_, ?_, ?_⟩
  · intro t cap ht hsmall hcap
    exact ⟨t.encode, emit_result ht hcap, fun rest => readBack_encode hsmall (Nat.zero_le _) ht⟩
  · intro bs k
    rw [skipValue_iff]
    constructor
    · rintro ⟨t, ht, htake⟩
      refine ⟨t, ⟨ht, htake⟩, ?_⟩
      rintro u ⟨hu, htake'⟩
      have hsame : u.encode ++ [] = t.encode ++ [] := by rw [← htake, htake']
      exact (CborTree.encode_unique hu ht hsame).1
    · rintro ⟨t, ht, -⟩
      exact ⟨t, ht⟩
  · intro bs r h
    obtain ⟨t, -, hbs, hstack⟩ := skipValue_sound h
    obtain ⟨rest, stack⟩ := r
    refine ⟨t.encode.length, ?_, ?_⟩
    · rw [hbs, List.length_append]
      omega
    · rw [hbs, List.drop_left]
      exact congrArg (CborReader.mk rest) hstack
  · intro t cap bs ht hsmall hcap
    rw [emit_result ht hcap, Option.some_inj, eq_comm]

/-- a map of one array with a flag and `-5` in it -/
theorem one_format_nested :
    ∃ bs, (emit (.map [(1, .array [.bool true, .negInt 4])]) { cap := 5 }).result = some bs ∧
      ∀ rest, readBack (.map [(1, .array [.bool true, .negInt 4])]) ⟨bs ++ rest, []⟩ =
        .ok (.map [(1, .array [.bool true, .negInt 4])], ⟨rest, []⟩) := by
  refine one_format.1 _ 5 (.map (by decide) (by simp [CborTree.Ascending]) (by simp) ?_) (.map ?_) (by decide)
  · intro p hp
    obtain rfl := List.mem_singleton.mp hp
    refine .array (by decide) fun t ht => ?_
    obtain rfl | rfl : t = .bool true ∨ t = .negInt 4 := by simpa using ht
    · exact .bool true
    · exact .negInt (by decide)
  · intro p hp
    obtain rfl := List.mem_singleton.mp hp
    refine .array fun t ht => ?_
    obtain rfl | rfl : t = .bool true ∨ t = .negInt 4 := by simpa using ht
    · exact .bool true
    · exact .negInt (by decide)

end CborReader

end SlopSync
