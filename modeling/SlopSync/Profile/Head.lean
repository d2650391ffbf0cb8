import SlopSync.CborReader
import Mathlib.Data.List.Induction
import Mathlib.Tactic.Ring

/-! # Heads

A head names a major type and an argument, the argument in the shortest form that holds it.  What the writer writes is
what the reader parses, and the reader parses nothing else: a byte string starts with at most one head. -/

namespace SlopSync

open CborWriter CborReader

/-! ## Big-endian values -/

theorem bigEndianValue_append (as bs : Bytes) :
    bigEndianValue (as ++ bs) = bigEndianValue as * 256 ^ bs.length + bigEndianValue bs := by
  induction bs using List.reverseRecOn with
  | nil => simp [bigEndianValue]
  | append_singleton bs b ih =>
    have hlast : ∀ cs : Bytes, bigEndianValue (cs ++ [b]) = bigEndianValue cs * 256 + b.toNat := by
      intro cs
      simp [bigEndianValue, List.foldl_append]
    rw [← List.append_assoc, hlast, ih, hlast, List.length_append, List.length_singleton, pow_succ]
    ring

theorem bigEndianValue_cons (b : UInt8) (bs : Bytes) :
    bigEndianValue (b :: bs) = b.toNat * 256 ^ bs.length + bigEndianValue bs := by
  have h := bigEndianValue_append [b] bs
  simpa [bigEndianValue] using h

theorem bigEndianValue_lt (bs : Bytes) : bigEndianValue bs < 256 ^ bs.length := by
  induction bs with
  | nil => simp [bigEndianValue]
  | cons b bs ih =>
    have hb := b.toNat_lt
    rw [bigEndianValue_cons, List.length_cons, pow_succ]
    nlinarith [Nat.zero_le (256 ^ bs.length)]

theorem bigEndianValue_bigEndian (n v : Nat) : bigEndianValue (bigEndian n v) = v % 256 ^ n := by
  induction n with
  | zero => simp [bigEndian, bigEndianValue, Nat.mod_one]
  | succ n ih =>
    have hdigit : (UInt8.ofNat (v >>> (8 * n))).toNat = v / 256 ^ n % 256 := by
      rw [UInt8.toNat_ofNat', Nat.shiftRight_eq_div_pow, pow_mul]
      norm_num
    rw [bigEndian, bigEndianValue_cons, bigEndian_length, ih, hdigit, pow_succ, Nat.mod_mul]
    ring

theorem bigEndian_mod (n v : Nat) : bigEndian n (v % 256 ^ n) = bigEndian n v := by
  induction n generalizing v with
  | zero => rfl
  | succ n ih =>
    have hlow : bigEndian n (v % 256 ^ (n + 1)) = bigEndian n v := by
      rw [← ih (v % 256 ^ (n + 1)), Nat.mod_mod_of_dvd v (pow_dvd_pow 256 (Nat.le_succ n)), ih]
    rw [bigEndian, bigEndian, hlow]
    congr 1
    apply UInt8.toNat_inj.mp
    rw [UInt8.toNat_ofNat', UInt8.toNat_ofNat', Nat.shiftRight_eq_div_pow, Nat.shiftRight_eq_div_pow, pow_mul, pow_succ]
    norm_num [Nat.mod_mul_right_div_self]

/-- The bytes of a value of that many bytes. -/
theorem bigEndian_bigEndianValue (bs : Bytes) : bigEndian bs.length (bigEndianValue bs) = bs := by
  induction bs with
  | nil => rfl
  | cons b bs ih =>
    have hb := b.toNat_lt
    have hlt := bigEndianValue_lt bs
    have hpos : 0 < 256 ^ bs.length := Nat.pos_of_ne_zero (by positivity)
    have hlow : bigEndian bs.length (b.toNat * 256 ^ bs.length + bigEndianValue bs) = bs := by
      rw [← bigEndian_mod, Nat.mul_comm, Nat.mul_add_mod, Nat.mod_eq_of_lt hlt, ih]
    have hhigh : (b.toNat * 256 ^ bs.length + bigEndianValue bs) >>> (8 * bs.length) = b.toNat := by
      rw [Nat.shiftRight_eq_div_pow, pow_mul, Nat.mul_comm, show (2 : Nat) ^ 8 = 256 by norm_num, Nat.mul_add_div hpos,
        Nat.div_eq_of_lt hlt, Nat.add_zero]
    rw [List.length_cons, bigEndian, bigEndianValue_cons, hlow, hhigh, UInt8.ofNat_toNat]

/-! ## The first byte -/

theorem firstByte {m x : Nat} (hx : x < 32) : m <<< 5 ||| x = 32 * m + x := by
  rw [← Nat.shiftLeft_add_eq_or_of_lt (by omega : x < 2 ^ 5), Nat.shiftLeft_eq]
  omega

theorem toNat_firstByte {m x : Nat} (hm : m < 8) (hx : x < 32) : (UInt8.ofNat (m <<< 5 ||| x)).toNat = 32 * m + x := by
  rw [firstByte hx, UInt8.toNat_ofNat']
  omega

theorem major_firstByte {m x : Nat} (hm : m < 8) (hx : x < 32) : major (UInt8.ofNat (m <<< 5 ||| x)) = m := by
  unfold major
  rw [toNat_firstByte hm hx]
  omega

theorem additional_firstByte {m x : Nat} (hm : m < 8) (hx : x < 32) :
    additional (UInt8.ofNat (m <<< 5 ||| x)) = x := by
  unfold additional
  rw [toNat_firstByte hm hx]
  omega

theorem firstByte_eq (ib : UInt8) : UInt8.ofNat (major ib <<< 5 ||| additional ib) = ib := by
  have hx : additional ib < 32 := Nat.mod_lt _ (by decide)
  have hm : major ib < 8 := by
    unfold major
    have := ib.toNat_lt
    omega
  apply UInt8.toNat_inj.mp
  rw [toNat_firstByte hm hx]
  unfold major additional
  omega

/-! ## A head and its parse -/

/-- The head with `n` argument bytes. -/
theorem parseHeadRaw_long {m x n v : Nat} {rest : Bytes} {s : List CborFrame} (hm : m < 6) (hx : x < 32) (hx' : 23 < x)
    (hn : argBytes x = n) (hn' : n ≠ 0) (hv : v < 256 ^ n) (hmin : minForSize n ≤ v) :
    parseHeadRaw ⟨UInt8.ofNat (m <<< 5 ||| x) :: bigEndian n v ++ rest, s⟩ = .ok ⟨m, v, 1 + n⟩ := by
  have htake : (bigEndian n v ++ rest).take n = bigEndian n v := by
    rw [List.take_append_of_le_length (by rw [bigEndian_length]), List.take_of_length_le (by rw [bigEndian_length])]
  simp only [parseHeadRaw, List.cons_append, major_firstByte (by omega : m < 8) hx,
    additional_firstByte (by omega : m < 8) hx, hn, htake, bigEndianValue_bigEndian, Nat.mod_eq_of_lt hv]
  rw [if_neg (by omega), if_neg (by omega), if_neg (by omega), if_neg hn', if_neg (by
    rw [List.length_append, bigEndian_length]
    omega), if_neg (by omega)]

/-- **The reader parses what the writer writes.** -/
theorem parseHeadRaw_head {m v : Nat} (rest : Bytes) (s : List CborFrame) (hm : m < 6) (hv : v < 2 ^ 64) :
    parseHeadRaw ⟨head m v ++ rest, s⟩ = .ok ⟨m, v, (head m v).length⟩ := by
  unfold head
  dsimp only
  split_ifs with h1 h2 h3 h4
  · simp only [parseHeadRaw, List.cons_append, major_firstByte (by omega : m < 8) (by omega : v < 32),
      additional_firstByte (by omega : m < 8) (by omega : v < 32)]
    rw [if_neg (by omega), if_neg (by omega), if_pos h1]
    rfl
  · exact parseHeadRaw_long hm (by decide) (by decide) rfl (by decide) (by omega) (by simp [minForSize]; omega)
  · exact parseHeadRaw_long hm (by decide) (by decide) rfl (by decide) (by omega) (by simp [minForSize]; omega)
  · exact parseHeadRaw_long hm (by decide) (by decide) rfl (by decide) (by omega) (by simp [minForSize]; omega)
  · exact parseHeadRaw_long hm (by decide) (by decide) rfl (by decide) (by omega) (by simp [minForSize]; omega)

/-- A head that was parsed, with what is behind it. -/
structure ParsedHead (r : CborReader) (h : Head) (rest : Bytes) : Prop where
  split : r.rest = head h.major h.arg ++ rest
  major_lt : h.major < 6
  arg_lt : h.arg < 2 ^ 64
  length : h.totalBytes = (head h.major h.arg).length

theorem argBytes_cases {x : Nat} (h : argBytes x ≠ 0) :
    (x = 24 ∧ argBytes x = 1) ∨ (x = 25 ∧ argBytes x = 2) ∨ (x = 26 ∧ argBytes x = 4) ∨ (x = 27 ∧ argBytes x = 8) := by
  unfold argBytes at h ⊢
  split at h <;> simp_all

theorem head_long {m v : Nat} {x n : Nat} (h : (x = 24 ∧ n = 1) ∨ (x = 25 ∧ n = 2) ∨ (x = 26 ∧ n = 4) ∨ (x = 27 ∧ n = 8))
    (hmin : minForSize n ≤ v) (hv : v < 256 ^ n) : head m v = UInt8.ofNat (m <<< 5 ||| x) :: bigEndian n v := by
  rcases h with ⟨rfl, rfl⟩ | ⟨rfl, rfl⟩ | ⟨rfl, rfl⟩ | ⟨rfl, rfl⟩ <;> simp only [minForSize] at hmin <;> unfold head <;>
    dsimp only
  · rw [if_neg (by omega), if_pos (by omega)]
  · rw [if_neg (by omega), if_neg (by omega), if_pos (by omega)]
  · rw [if_neg (by omega), if_neg (by omega), if_neg (by omega), if_pos (by omega)]
  · rw [if_neg (by omega), if_neg (by omega), if_neg (by omega), if_neg (by omega)]

/-- **The reader parses nothing else.** -/
theorem parsedHead {r : CborReader} {h : Head} (hok : parseHeadRaw r = .ok h) : ∃ rest, ParsedHead r h rest := by
  obtain ⟨input, s⟩ := r
  cases input with
  | nil => simp [parseHeadRaw] at hok
  | cons ib more =>
    have hm : major ib < 8 := by
      unfold major
      have := ib.toNat_lt
      omega
    simp only [parseHeadRaw] at hok
    split_ifs at hok with h6 h7 hshort hzero hlen hmin
    · obtain rfl := Except.ok.inj hok
      have hhead : head (major ib) (additional ib) = [ib] := by
        unfold head
        dsimp only
        rw [if_pos hshort, firstByte_eq]
      exact ⟨more, by rw [hhead]; rfl, by dsimp only; omega, by dsimp only; omega, by rw [hhead]; rfl⟩
    · obtain rfl := Except.ok.inj hok
      have hn : (more.take (argBytes (additional ib))).length = argBytes (additional ib) := by
        rw [List.length_take]
        omega
      have hlt := bigEndianValue_lt (more.take (argBytes (additional ib)))
      rw [hn] at hlt
      have hbytes := bigEndian_bigEndianValue (more.take (argBytes (additional ib)))
      rw [hn] at hbytes
      have hcases := argBytes_cases hzero
      have hhead := head_long (m := major ib) hcases (Nat.le_of_not_lt hmin) hlt
      rw [firstByte_eq, hbytes] at hhead
      refine ⟨more.drop (argBytes (additional ib)), ?_, by dsimp only; omega, ?_, ?_⟩
      · dsimp only
        rw [hhead, List.cons_append, List.take_append_drop]
      · dsimp only
        rcases hcases with ⟨-, h⟩ | ⟨-, h⟩ | ⟨-, h⟩ | ⟨-, h⟩ <;> rw [h] at hlt ⊢ <;> omega
      · dsimp only
        rw [hhead, List.length_cons, hn]
        omega

/-- The rest of the input after a head. -/
theorem ParsedHead.drop {r : CborReader} {h : Head} {rest : Bytes} (hp : ParsedHead r h rest) :
    r.rest.drop h.totalBytes = rest := by
  rw [hp.split, hp.length, List.drop_left]

/-- The head fills a slot. -/
theorem ParsedHead.advance {r : CborReader} {h : Head} {rest : Bytes} (hp : ParsedHead r h rest) :
    r.advance h.totalBytes = ⟨rest, consume r.stack⟩ := by
  unfold CborReader.advance
  rw [hp.drop]

/-- A byte string starts with at most one head. -/
theorem head_unique {m j v v' : Nat} {as bs : Bytes} (hm : m < 6) (hj : j < 6) (hv : v < 2 ^ 64) (hv' : v' < 2 ^ 64)
    (h : head m v ++ as = head j v' ++ bs) : m = j ∧ v = v' ∧ as = bs := by
  have hp := parseHeadRaw_head as [] hm hv
  rw [h, parseHeadRaw_head bs [] hj hv'] at hp
  simp only [Except.ok.injEq, Head.mk.injEq] at hp
  obtain ⟨rfl, rfl, -⟩ := hp
  exact ⟨rfl, rfl, List.append_cancel_left h⟩

/-- The first byte of a head is below those of the simple values. -/
theorem head_first {m v : Nat} (hm : m < 6) : ∃ b bs, head m v = b :: bs ∧ major b = m := by
  unfold head
  dsimp only
  split_ifs
  all_goals exact ⟨_, _, rfl, major_firstByte (by omega) (by omega)⟩

/-! ## Open containers -/

namespace CborWriter

/-- A container with the given slots left is open, or was closed at once. -/
def opened (f : CborFrame) (s : List CborFrame) : List CborFrame := if f.remaining = 0 then consume s else f :: s

theorem consume_cons {f : CborFrame} {s : List CborFrame} (h : 0 < f.remaining) :
    consume (f :: s) = opened { f with remaining := f.remaining - 1 } s := by
  unfold opened
  rw [consume]
  split_ifs <;> first
    | rfl
    | (dsimp only at *; omega)

/-- Slots of a container with `n` items. -/
def slotsOf (isMap : Bool) (n : Nat) : Nat := if isMap then n * 2 else n

/-- A key fills the first of the slots of its pair. -/
theorem consume_key {n k : Nat} {s : List CborFrame} :
    consume (⟨true, slotsOf true (n + 1), some k⟩ :: s) = ⟨true, slotsOf true n + 1, some k⟩ :: s := by
  have hslots : slotsOf true (n + 1) = slotsOf true n + 2 := by
    simp [slotsOf]
    omega
  rw [hslots, consume_cons (Nat.succ_pos _)]
  rfl

theorem opened_map {n : Nat} {last : Option Nat} {s : List CborFrame} :
    opened ⟨true, slotsOf true (n + 1), last⟩ s = ⟨true, slotsOf true (n + 1), last⟩ :: s := by
  unfold opened slotsOf
  rw [if_neg (by simp)]

end CborWriter

end SlopSync
