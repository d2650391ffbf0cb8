import Mathlib.Data.List.Basic
import Mathlib.Data.Nat.Prime.Basic

/-! # FIPS 180-4

SHA-256 of a byte string as the standard states it: constants from the roots of primes, padding to whole blocks, the message
schedule as a recurrence, and a hash value that each block changes. -/

namespace SlopSync.Fips180

/-! ## Functions (§4.1.2) -/

def ROTR (n x : UInt32) : UInt32 := (x >>> n) ||| (x <<< (32 - n))

def SHR (n x : UInt32) : UInt32 := x >>> n

def Ch (x y z : UInt32) : UInt32 := (x &&& y) ^^^ (~~~x &&& z)

def Maj (x y z : UInt32) : UInt32 := (x &&& y) ^^^ (x &&& z) ^^^ (y &&& z)

/-- `Σ₀`. -/
def bigSigma0 (x : UInt32) : UInt32 := ROTR 2 x ^^^ ROTR 13 x ^^^ ROTR 22 x

/-- `Σ₁`. -/
def bigSigma1 (x : UInt32) : UInt32 := ROTR 6 x ^^^ ROTR 11 x ^^^ ROTR 25 x

/-- `σ₀`. -/
def sigma0 (x : UInt32) : UInt32 := ROTR 7 x ^^^ ROTR 18 x ^^^ SHR 3 x

/-- `σ₁`. -/
def sigma1 (x : UInt32) : UInt32 := ROTR 17 x ^^^ ROTR 19 x ^^^ SHR 10 x

/-! ## Constants (§4.2.2, §5.3.3) -/

/-- The largest number whose `k`-th power is at most `n`, if it is below 2 ^ 64 (`root_spec`). -/
def root (k n : Nat) : Nat :=
  (List.range 64).foldr (fun i r => if (r + 2 ^ i) ^ k ≤ n then r + 2 ^ i else r) 0

theorem root_fold {k n : Nat} (m : Nat) (r : Nat) (hle : r ^ k ≤ n) (hlt : n < (r + 2 ^ m) ^ k) :
    let r' := (List.range m).foldr (fun i r => if (r + 2 ^ i) ^ k ≤ n then r + 2 ^ i else r) r
    r' ^ k ≤ n ∧ n < (r' + 1) ^ k := by
  induction m generalizing r with
  | zero => exact ⟨hle, by simpa using hlt⟩
  | succ m ih =>
    rw [List.range_succ, List.foldr_append]
    by_cases hbit : (r + 2 ^ m) ^ k ≤ n
    · refine ih (if (r + 2 ^ m) ^ k ≤ n then r + 2 ^ m else r) ?_ ?_
      · rwa [if_pos hbit]
      · rw [if_pos hbit, Nat.add_assoc, ← Nat.two_mul, ← Nat.pow_succ']
        exact hlt
    · refine ih (if (r + 2 ^ m) ^ k ≤ n then r + 2 ^ m else r) ?_ ?_
      · rwa [if_neg hbit]
      · rw [if_neg hbit]
        exact Nat.lt_of_not_le hbit

theorem root_spec {k n : Nat} (hk : 0 < k) (h : n < (2 ^ 64) ^ k) : root k n ^ k ≤ n ∧ n < (root k n + 1) ^ k :=
  root_fold 64 0 (by rw [Nat.zero_pow hk]; exact Nat.zero_le _) (by rwa [Nat.zero_add])

/-- The first 32 bits of the fractional part of the `k`-th root of `p`. -/
def fraction (k p : Nat) : UInt32 := UInt32.ofNat (root k (p * 2 ^ (32 * k)))

/-- The first 64 primes. -/
def primes : List Nat := (List.range 312).filter fun p => 2 ≤ p ∧ ∀ d < p, 2 ≤ d → ¬d ∣ p

/-- Trial division by the primes below 18. -/
def isPrime (p : Nat) : Bool := 2 ≤ p && [2, 3, 5, 7, 11, 13, 17].all fun d => p ≤ d || p % d ≠ 0

theorem small_primes : ∀ m < 18, 2 ≤ m → (∀ d < m, 2 ≤ d → ¬d ∣ m) → m ∈ [2, 3, 5, 7, 11, 13, 17] := by decide

theorem isPrime_iff {p : Nat} (hp : p < 18 ^ 2) : isPrime p = true ↔ 2 ≤ p ∧ ∀ d < p, 2 ≤ d → ¬d ∣ p := by
  have htrial : isPrime p = true ↔ 2 ≤ p ∧ ∀ d ∈ [2, 3, 5, 7, 11, 13, 17], p ≤ d ∨ ¬d ∣ p := by
    simp only [isPrime, Bool.and_eq_true, decide_eq_true_eq, List.all_eq_true, Bool.or_eq_true, ne_eq, Nat.dvd_iff_mod_eq_zero]
  rw [htrial]
  refine and_congr_right fun htwo => ⟨fun h d hd h2 hdvd => ?_, fun h d hd => ?_⟩
  · -- the least factor is a prime below 18
    have hle : Nat.minFac p ≤ d := Nat.minFac_le_of_dvd h2 hdvd
    have hprime : (Nat.minFac p).Prime := Nat.minFac_prime (by omega)
    have hcomposite : ¬p.Prime := fun hprime => (hprime.eq_one_or_self_of_dvd d hdvd).elim (by omega) (by omega)
    have hlt : Nat.minFac p < 18 :=
      (Nat.pow_lt_pow_iff_left two_ne_zero).mp (Nat.lt_of_le_of_lt (Nat.minFac_sq_le_self (by omega) hcomposite) hp)
    have hmem := small_primes _ hlt hprime.two_le fun e he h2 hdvd => by
      rcases hprime.eq_one_or_self_of_dvd e hdvd with h | h <;> omega
    rcases h _ hmem with h | h
    · omega
    · exact h (Nat.minFac_dvd p)
  · by_cases hpd : p ≤ d
    · exact .inl hpd
    · have htwo : ∀ d ∈ [2, 3, 5, 7, 11, 13, 17], 2 ≤ d := by decide
      exact .inr (h d (by omega) (htwo d hd))

theorem primes_eq : primes = (List.range 312).filter isPrime := by
  refine List.filter_congr fun p hp => ?_
  rw [Bool.eq_iff_iff, isPrime_iff (Nat.lt_trans (List.mem_range.mp hp) (by decide)), decide_eq_true_eq]

def K : List UInt32 := primes.map (fraction 3)

/-- A hash value, or the working variables. -/
structure Words where
  a : UInt32
  b : UInt32
  c : UInt32
  d : UInt32
  e : UInt32
  f : UInt32
  g : UInt32
  h : UInt32
  deriving DecidableEq, Repr

def H0 : Words where
  a := fraction 2 2
  b := fraction 2 3
  c := fraction 2 5
  d := fraction 2 7
  e := fraction 2 11
  f := fraction 2 13
  g := fraction 2 17
  h := fraction 2 19

/-! ## Padding (§5.1.1, §5.2.1) -/

/-- How many zero bytes follow the byte 0x80. -/
def zeros (length : Nat) : Nat := (119 - length % 64) % 64

/-- The length in bits, as 64 bits. -/
def lengthBytes (n : Nat) : List UInt8 := (List.range 8).map fun i => UInt8.ofNat (n / 2 ^ (8 * (7 - i)))

def pad (M : List UInt8) : List UInt8 :=
  M ++ 0x80 :: List.replicate (zeros M.length) 0 ++ lengthBytes (8 * M.length)

/-- The least number of zeros that leaves 64 bits of the last block. -/
theorem zeros_least (n : Nat) : (n + 1 + zeros n) % 64 = 56 ∧ ∀ k, (n + 1 + k) % 64 = 56 → zeros n ≤ k := by
  unfold zeros
  constructor
  · omega
  · intro k hk
    omega

theorem length_pad (M : List UInt8) : (pad M).length % 64 = 0 := by
  have := (zeros_least M.length).1
  simp only [pad, lengthBytes, List.length_append, List.length_cons, List.length_replicate, List.length_map, List.length_range]
  omega

/-! ## The hash (§6.2.2) -/

/-- The word `t` of a block. -/
def word (block : List UInt8) (t : Nat) : UInt32 :=
  ((block.getD (4 * t) 0).toUInt32 <<< 24) ||| ((block.getD (4 * t + 1) 0).toUInt32 <<< 16) |||
    ((block.getD (4 * t + 2) 0).toUInt32 <<< 8) ||| (block.getD (4 * t + 3) 0).toUInt32

/-- The message schedule. -/
def W (M : Nat → UInt32) (t : Nat) : UInt32 :=
  if t < 16 then M t else sigma1 (W M (t - 2)) + W M (t - 7) + sigma0 (W M (t - 15)) + W M (t - 16)

def round (k w : UInt32) (v : Words) : Words :=
  let T1 := v.h + bigSigma1 v.e + Ch v.e v.f v.g + k + w
  let T2 := bigSigma0 v.a + Maj v.a v.b v.c
  { h := v.g, g := v.f, f := v.e, e := v.d + T1, d := v.c, c := v.b, b := v.a, a := T1 + T2 }

def addWords (v H : Words) : Words where
  a := v.a + H.a
  b := v.b + H.b
  c := v.c + H.c
  d := v.d + H.d
  e := v.e + H.e
  f := v.f + H.f
  g := v.g + H.g
  h := v.h + H.h

def compress (H : Words) (M : Nat → UInt32) : Words :=
  addWords ((List.range 64).foldl (fun v t => round (K.getD t 0) (W M t) v) H) H

def wordBytes (w : UInt32) : List UInt8 := [(w >>> 24).toUInt8, (w >>> 16).toUInt8, (w >>> 8).toUInt8, w.toUInt8]

def Words.toList (v : Words) : List UInt32 := [v.a, v.b, v.c, v.d, v.e, v.f, v.g, v.h]

def sha256 (M : List UInt8) : List UInt8 :=
  let P := pad M
  let H := (List.range (P.length / 64)).foldl (fun H i => compress H (word ((P.drop (64 * i)).take 64))) H0
  H.toList.flatMap wordBytes

end SlopSync.Fips180
