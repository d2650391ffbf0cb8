import SlopSync.Absorb
import SlopSync.Fips180
import SlopSync.Sha256

/-! # SHA-256 by pieces

* `transform_eq` — a block changes the state as the standard says.
* `update_eq` — an update absorbs what was left and the new bytes.
* `final_eq` — however the message came, its digest is the standard's. -/

namespace SlopSync.Sha256

/-! ## One block -/

theorem kK_eq : kK = Fips180.K := by
  rw [Fips180.K, Fips180.primes_eq]
  decide +kernel

theorem state_eq : ({} : Sha256).state = Fips180.H0.toList := by decide +kernel

section

variable {block : Bytes} {M : Nat → UInt32}

theorem word_succ (a b c d : UInt8) (rest : Bytes) (t : Nat) :
    Fips180.word (a :: b :: c :: d :: rest) (t + 1) = Fips180.word rest t := by
  simp only [Fips180.word, Nat.mul_add, Nat.mul_one, Nat.add_right_comm _ 4, List.getD_cons_succ]

theorem words_eq (n : Nat) (h : block.length = 4 * n) : words block = (List.range n).map (Fips180.word block) := by
  induction n generalizing block with
  | zero =>
    rw [List.length_eq_zero_iff.mp h]
    rfl
  | succ n ih =>
    match block, h with
    | a :: b :: c :: d :: rest, h =>
      rw [words, List.range_succ_eq_map, List.map_cons, List.map_map, ih (by simp only [List.length_cons] at h; omega)]
      refine congrArg (_ :: ·) (List.map_congr_left fun t _ => ?_)
      exact (word_succ a b c d rest t).symm

theorem sigma0_eq (x : UInt32) : rotr x 7 ^^^ rotr x 18 ^^^ (x >>> 3) = Fips180.sigma0 x := rfl

theorem sigma1_eq (x : UInt32) : rotr x 17 ^^^ rotr x 19 ^^^ (x >>> 10) = Fips180.sigma1 x := rfl

/-- A word of the schedule is the recurrence's. -/
theorem scheduleNext_eq {i : Nat} (h : 16 ≤ i) :
    scheduleNext ((List.range i).map (Fips180.W M)) i = (List.range (i + 1)).map (Fips180.W M) := by
  have hget (k : Nat) (hk : 0 < k) (hle : k ≤ 16) : ((List.range i).map (Fips180.W M)).getD (i - k) 0 = Fips180.W M (i - k) := by
    rw [List.getD_eq_getElem?_getD, List.getElem?_map, List.getElem?_range (by omega)]
    rfl
  have hlast : Fips180.W M i = Fips180.sigma1 (Fips180.W M (i - 2)) + Fips180.W M (i - 7) +
      Fips180.sigma0 (Fips180.W M (i - 15)) + Fips180.W M (i - 16) := by
    rw [Fips180.W, if_neg (by omega)]
  have hsum (a b c d : UInt32) : a + b + c + d = d + c + b + a := by ac_rfl
  rw [List.range_succ, List.map_append, List.map_singleton, hlast, ← hsum]
  unfold scheduleNext
  dsimp only
  rw [hget 15 (by decide) (by decide), hget 2 (by decide) (by decide), hget 7 (by decide) (by decide),
    hget 16 (by decide) (by decide), sigma0_eq, sigma1_eq]

theorem schedule_eq (h : block.length = 64) : schedule block = (List.range 64).map (Fips180.W (Fips180.word block)) := by
  have hrun : ∀ n, (List.range' 16 n).foldl scheduleNext (words block) =
      (List.range (16 + n)).map (Fips180.W (Fips180.word block)) := by
    intro n
    induction n with
    | zero =>
      rw [words_eq 16 h]
      refine List.map_congr_left fun t ht => ?_
      rw [Fips180.W, if_pos (List.mem_range.mp ht)]
    | succ n ih =>
      rw [List.range'_concat, List.foldl_append, ih, Nat.one_mul, List.foldl_cons, List.foldl_nil,
        scheduleNext_eq (by omega)]
      rfl
  exact hrun 48

theorem round_eq (v : Fips180.Words) (k w : UInt32) : round v.toList (k, w) = (Fips180.round k w v).toList := rfl

theorem rounds_eq (l : List Nat) (v : Fips180.Words) :
    l.foldl (fun s t => round s (Fips180.K.getD t 0, Fips180.W M t)) v.toList =
      (l.foldl (fun v t => Fips180.round (Fips180.K.getD t 0) (Fips180.W M t) v) v).toList := by
  induction l generalizing v with
  | nil => rfl
  | cons t l ih => rw [List.foldl_cons, List.foldl_cons, round_eq, ih]

/-- **A block changes the state as the standard says.** -/
theorem transform_eq (H : Fips180.Words) (h : block.length = 64) :
    transform H.toList block = (Fips180.compress H (Fips180.word block)).toList := by
  have hK : Fips180.K = (List.range 64).map fun t => Fips180.K.getD t 0 := by
    rw [← kK_eq]
    rfl
  have hzip : kK.zip (schedule block) =
      (List.range 64).map fun t => (Fips180.K.getD t 0, Fips180.W (Fips180.word block) t) := by
    rw [schedule_eq h, kK_eq, hK, List.zip_map']
    rw [← hK]
  rw [transform, hzip, List.foldl_map, rounds_eq, Fips180.compress]
  simp only [Fips180.Words.toList, Fips180.addWords, List.zipWith_cons_cons, List.zipWith_nil_left, UInt32.add_comm]

end

/-! ## Updates -/

/-- The words and the count of bits, after one more block. -/
def blockStep (st : List UInt32 × UInt64) (block : Bytes) : List UInt32 × UInt64 := (transform st.1 block, st.2 + 512)

/-- The state that a message leaves. -/
def absorbed (st : List UInt32 × UInt64) (l : Bytes) : Sha256 :=
  let r := absorb kBlockBytes blockStep st l
  { state := r.1.1, bitlen := r.1.2, buf := r.2 }

theorem kBlockBytes_pos : 0 < kBlockBytes := by decide

section

variable {s : Sha256} {data : Bytes}

theorem updateBlocks_eq {n : Nat} (h : data.length / kBlockBytes ≤ n) :
    updateBlocks s data n = absorbed (s.state, s.bitlen) data := by
  induction n generalizing s data with
  | zero =>
    have hshort : data.length < kBlockBytes := by
      have := Nat.div_eq_zero_iff.mp (Nat.le_zero.mp h)
      have := kBlockBytes_pos
      omega
    rw [updateBlocks, absorbed, absorb_short hshort]
  | succ n ih =>
    rw [updateBlocks]
    split
    · rename_i hshort
      rw [absorbed, absorb_short hshort]
    · rename_i hfull
      have hle : kBlockBytes ≤ data.length := Nat.le_of_not_lt hfull
      have hless : (data.drop kBlockBytes).length / kBlockBytes ≤ n := by
        rw [List.length_drop]
        simp only [kBlockBytes] at h hle ⊢
        omega
      rw [ih hless, absorbed, absorbed, absorb_block kBlockBytes_pos hle]
      rfl

/-- **An update absorbs what was left and the new bytes.** -/
theorem update_eq (h : s.buf.length < kBlockBytes) : s.update data = absorbed (s.state, s.bitlen) (s.buf ++ data) := by
  unfold update
  split
  · rename_i hempty
    rw [updateBlocks_eq (Nat.le_refl _), List.isEmpty_iff.mp hempty, List.nil_append]
  · by_cases hroom : data.length < kBlockBytes - s.buf.length
    · have hmin : min data.length (kBlockBytes - s.buf.length) = data.length := Nat.min_eq_left (Nat.le_of_lt hroom)
      have hshort : (s.buf ++ data).length < kBlockBytes := by
        rw [List.length_append]
        omega
      dsimp only
      rw [hmin, List.take_length, if_neg (Nat.ne_of_lt hshort), absorbed, absorb_short hshort]
    · have hmin : min data.length (kBlockBytes - s.buf.length) = kBlockBytes - s.buf.length :=
        Nat.min_eq_right (Nat.le_of_not_lt hroom)
      have hblock : (s.buf ++ data.take (kBlockBytes - s.buf.length)).length = kBlockBytes := by
        rw [List.length_append, List.length_take_of_le (Nat.le_of_not_lt hroom)]
        omega
      have hcut : s.buf ++ data =
          (s.buf ++ data.take (kBlockBytes - s.buf.length)) ++ data.drop (kBlockBytes - s.buf.length) := by
        rw [List.append_assoc, List.take_append_drop]
      dsimp only
      rw [hmin, if_pos hblock, updateBlocks_eq (Nat.le_refl _), absorbed, absorbed, hcut, absorb_full kBlockBytes_pos hblock]
      rfl

/-- However a message is cut, it leaves the same state. -/
theorem updates_eq (pieces : List Bytes) (st : List UInt32 × UInt64) (l : Bytes) :
    pieces.foldl update (absorbed st l) = absorbed st (l ++ pieces.flatten) := by
  induction pieces generalizing l with
  | nil => rw [List.flatten_nil, List.append_nil, List.foldl_nil]
  | cons data pieces ih =>
    have hone : (absorbed st l).update data = absorbed st (l ++ data) := by
      have hcut : absorb kBlockBytes blockStep st (l ++ data) = _ := absorb_append kBlockBytes_pos data
      rw [update_eq (length_absorb kBlockBytes_pos)]
      unfold absorbed
      rw [hcut]
    rw [List.foldl_cons, hone, ih, List.flatten_cons, List.append_assoc]

/-- The bits of the blocks, and of what is left. -/
theorem absorb_bitlen (st : List UInt32 × UInt64) (l : Bytes) :
    (absorb kBlockBytes blockStep st l).1.2 + 8 * UInt64.ofNat (absorb kBlockBytes blockStep st l).2.length =
      st.2 + 8 * UInt64.ofNat l.length := by
  fun_induction absorb kBlockBytes blockStep st l with
  | case1 st l h ih =>
    obtain ⟨k, hk⟩ := Nat.exists_eq_add_of_le h.2
    rw [ih, List.length_drop, hk, Nat.add_sub_cancel_left, UInt64.ofNat_add, blockStep, kBlockBytes]
    have h512 : (512 : UInt64) = 8 * UInt64.ofNat 64 := rfl
    rw [h512, UInt64.mul_add, UInt64.add_assoc]
  | case2 st l h => rfl

theorem absorb_state (st : List UInt32 × UInt64) (l : Bytes) :
    (absorb kBlockBytes blockStep st l).1.1 = (absorb kBlockBytes transform st.1 l).1 ∧
      (absorb kBlockBytes blockStep st l).2 = (absorb kBlockBytes transform st.1 l).2 :=
  absorb_related (fun (st : List UInt32 × UInt64) s => st.1 = s) kBlockBytes_pos
    (fun _ _ block _ h => congrArg (transform · block) h) l rfl

end

/-! ## The digest -/

theorem bigEndian64_eq {n : Nat} (h : n < 2 ^ 64) : bigEndian64 (UInt64.ofNat n) = Fips180.lengthBytes n := by
  have hn : (UInt64.ofNat n).toNat = n := by rw [UInt64.toNat_ofNat', Nat.mod_eq_of_lt h]
  simp only [bigEndian64, bigEndian32, Fips180.lengthBytes, List.range_succ, List.range_zero, List.nil_append,
    List.map_cons, List.map_nil, List.cons_append, List.cons.injEq, and_true, ← UInt8.toNat_inj]
  refine ⟨?_, ?_, ?_, ?_, ?_, ?_, ?_, ?_⟩ <;> simp [hn, Nat.shiftRight_eq_div_pow] <;> omega

/-- The digest of a state is that of the padded rest. -/
theorem final_absorb {s : Sha256} (h : s.buf.length < kBlockBytes) :
    s.final = (absorb kBlockBytes transform s.state (s.buf ++ 0x80 :: List.replicate (Fips180.zeros s.buf.length) 0 ++
      bigEndian64 (s.bitlen + 8 * UInt64.ofNat s.buf.length))).1.flatMap bigEndian32 := by
  have hlength (v : UInt64) : (bigEndian64 v).length = 8 := rfl
  have h64 : kBlockBytes = 64 := rfl
  unfold final
  dsimp only
  by_cases hone : s.buf.length < 56
  · -- the length fits behind the rest
    have hzeros : Fips180.zeros s.buf.length = 55 - s.buf.length := by
      unfold Fips180.zeros
      omega
    have hblock : (s.buf ++ 0x80 :: List.replicate (55 - s.buf.length) 0 ++
        bigEndian64 (s.bitlen + 8 * UInt64.ofNat s.buf.length)).length = kBlockBytes := by
      simp only [List.length_append, List.length_cons, List.length_replicate, hlength, kBlockBytes]
      omega
    rw [if_pos hone, hzeros, absorb_one kBlockBytes_pos hblock, List.append_cons, List.append_assoc s.buf]
    rw [← List.append_assoc s.buf]
    simp
  · -- the length gets a block of its own
    have hzeros : Fips180.zeros s.buf.length = (63 - s.buf.length) + 56 := by
      unfold Fips180.zeros
      omega
    have hfirst : (s.buf ++ [0x80] ++ List.replicate (63 - s.buf.length) 0).length = kBlockBytes := by
      simp only [List.length_append, List.length_cons, List.length_nil, List.length_replicate, kBlockBytes]
      omega
    have hlast : (List.replicate 56 0 ++ bigEndian64 (s.bitlen + 8 * UInt64.ofNat s.buf.length)).length = kBlockBytes := by
      simp only [List.length_append, List.length_replicate, hlength, kBlockBytes]
    have hcut : s.buf ++ 0x80 :: List.replicate ((63 - s.buf.length) + 56) 0 ++
        bigEndian64 (s.bitlen + 8 * UInt64.ofNat s.buf.length) =
        (s.buf ++ [0x80] ++ List.replicate (63 - s.buf.length) 0) ++
          (List.replicate 56 0 ++ bigEndian64 (s.bitlen + 8 * UInt64.ofNat s.buf.length)) := by
      rw [← List.replicate_append_replicate]
      simp only [List.append_assoc, List.cons_append, List.nil_append]
    rw [if_neg hone, hzeros, hcut, absorb_full kBlockBytes_pos hfirst, absorb_one kBlockBytes_pos hlast]

theorem fips_absorb (M : Bytes) :
    Fips180.sha256 M = (absorb kBlockBytes transform Fips180.H0.toList (Fips180.pad M)).1.flatMap bigEndian32 := by
  have hlen : (Fips180.pad M).length = kBlockBytes * ((Fips180.pad M).length / 64) := by
    have := Fips180.length_pad M
    simp only [kBlockBytes]
    omega
  have hsame : (absorb kBlockBytes (fun H block => Fips180.compress H (Fips180.word block)) Fips180.H0 (Fips180.pad M)).1.toList =
      (absorb kBlockBytes transform Fips180.H0.toList (Fips180.pad M)).1 :=
    (absorb_related (fun (H : Fips180.Words) l => H.toList = l) kBlockBytes_pos
      (fun H l block hblock h => by rw [← h, transform_eq H hblock]) (Fips180.pad M) rfl).1
  rw [← hsame, absorb_blocks kBlockBytes_pos _ hlen]
  rfl

/-! ## The digest of a message -/

/-- **However the message came, its digest is the standard's.** -/
theorem final_eq (pieces : List Bytes) (h : pieces.flatten.length < 2 ^ 61) :
    (pieces.foldl update {}).final = Fips180.sha256 pieces.flatten := by
  have hstart : ({} : Sha256) = absorbed (Fips180.H0.toList, 0) [] := by
    rw [absorbed, absorb_short (by decide), ← state_eq]
  have hleft : (absorb kBlockBytes blockStep (Fips180.H0.toList, 0) pieces.flatten).2.length < kBlockBytes :=
    length_absorb kBlockBytes_pos
  obtain ⟨hstate, hrest⟩ := absorb_state (Fips180.H0.toList, 0) pieces.flatten
  have hbits : (absorbed (Fips180.H0.toList, 0) pieces.flatten).bitlen +
      8 * UInt64.ofNat (absorbed (Fips180.H0.toList, 0) pieces.flatten).buf.length = UInt64.ofNat (8 * pieces.flatten.length) := by
    rw [UInt64.ofNat_mul]
    exact (absorb_bitlen (Fips180.H0.toList, 0) pieces.flatten).trans (UInt64.zero_add _)
  have hzeros : Fips180.zeros (absorbed (Fips180.H0.toList, 0) pieces.flatten).buf.length =
      Fips180.zeros pieces.flatten.length := by
    have hmod : (absorbed (Fips180.H0.toList, 0) pieces.flatten).buf.length % 64 = pieces.flatten.length % 64 :=
      length_absorb_mod
    unfold Fips180.zeros
    rw [hmod]
  rw [hstart, updates_eq, List.nil_append, final_absorb hleft, hbits, bigEndian64_eq (by omega), hzeros, fips_absorb,
    Fips180.pad, List.append_assoc pieces.flatten, absorb_append (l := pieces.flatten) kBlockBytes_pos]
  dsimp only at hstate hrest
  rw [← hstate, ← hrest, ← List.append_assoc]
  rfl

end SlopSync.Sha256
