import Mathlib.Tactic.Linarith

/-! # Serial comparison of wrapping counters

`util/serial_arithmetic.hpp`: the only place where sequence numbers and wrapping timestamps are
compared.  `MonotonicMs` accumulates the wrapping microsecond clock into a millisecond counter that
wraps modulo `2 ^ 32`; `advance_tracks` says that it never drifts from true time. -/

namespace SlopSync

/-- `a` is newer than `b` iff `0 < (a - b) mod 2^16 < 2^15`. -/
def seqIsNewer (a b : UInt16) : Bool :=
  let d := a - b
  d != 0 && d < 0x8000

/-- The signed distance `t - reference` in the half-range window around `reference`. -/
def timeDelta (t reference : UInt32) : Int :=
  (t - reference).toBitVec.toInt

/-- `now` is at or after `deadline` within the wrap window. -/
def timeReached (now deadline : UInt32) : Bool :=
  decide (0 ≤ timeDelta now deadline)

theorem timeDelta_eq (t r : UInt32) :
    timeDelta t r = if (t - r).toNat < 2 ^ 31 then ((t - r).toNat : Int) else (t - r).toNat - 2 ^ 32 := by
  rw [timeDelta, BitVec.toInt_eq_toNat_cond]
  have h : (t - r).toBitVec.toNat = (t - r).toNat := rfl
  rw [h]
  split <;> split <;> omega

/-- As long as less than half a wrap has passed the distance is the time that has. -/
theorem timeDelta_ofNat {t t' : Nat} (hle : t ≤ t') (hgap : t' < t + 2 ^ 31) :
    timeDelta (UInt32.ofNat t') (UInt32.ofNat t) = (t' : Int) - t := by
  rw [timeDelta_eq, UInt32.toNat_sub, UInt32.toNat_ofNat', UInt32.toNat_ofNat']
  split <;> omega

theorem timeReached_iff {now deadline : UInt32} :
    timeReached now deadline = true ↔ (now - deadline).toNat < 2 ^ 31 := by
  have hlt := (now - deadline).toNat_lt
  rw [timeReached, decide_eq_true_eq, timeDelta_eq]
  split <;> omega

theorem seqIsNewer_iff {a b : UInt16} : seqIsNewer a b = true ↔ 0 < (a - b).toNat ∧ (a - b).toNat < 2 ^ 15 := by
  have hz : (a - b = 0) ↔ (a - b).toNat = 0 := by rw [← UInt16.toNat_inj]; rfl
  simp only [seqIsNewer, Bool.and_eq_true, bne_iff_ne, ne_eq, hz, decide_eq_true_eq, UInt16.lt_iff_toNat_lt]
  rw [show (0x8000 : UInt16).toNat = 2 ^ 15 from rfl]
  omega

/-- Any number of wraps in, the comparison is the one of the counts. -/
theorem seqIsNewer_ofNat {k n : Nat} (hk : k < n + 2 ^ 15) (hn : n < k + 2 ^ 15) :
    seqIsNewer (UInt16.ofNat k) (UInt16.ofNat n) = true ↔ n < k := by
  rw [seqIsNewer_iff, UInt16.toNat_sub, UInt16.toNat_ofNat', UInt16.toNat_ofNat']
  omega

/-! ## The millisecond counter -/

structure MonotonicMs where
  lastUs : UInt32 := 0
  ms : UInt32 := 0
  rem : UInt16 := 0
  init : Bool := false
  deriving DecidableEq, Repr

/-- Accumulate the microseconds elapsed since the previous call; `ms` is the new reading. -/
def MonotonicMs.advance (m : MonotonicMs) (nowUs : UInt32) : MonotonicMs :=
  if !m.init then
    { lastUs := nowUs, ms := nowUs / 1000, rem := (nowUs % 1000).toUInt16, init := true }
  else
    let total := (nowUs - m.lastUs) + m.rem.toUInt32
    { lastUs := nowUs, ms := m.ms + total / 1000, rem := (total % 1000).toUInt16, init := true }

/-- The counter agrees with the true time `t`, in microseconds. -/
structure MonotonicMs.Tracks (m : MonotonicMs) (t : Nat) : Prop where
  init : m.init = true
  lastUs : m.lastUs.toNat = t % 2 ^ 32
  ms : m.ms.toNat = t / 1000 % 2 ^ 32
  rem : m.rem.toNat = t % 1000

theorem advance_first {m : MonotonicMs} (h : m.init = false) (nowUs : UInt32) :
    (m.advance nowUs).Tracks nowUs.toNat := by
  have hlt := nowUs.toNat_lt
  refine ⟨by simp [MonotonicMs.advance, h], ?_, ?_, ?_⟩ <;>
    simp [MonotonicMs.advance, h] <;> omega

/-- **One reading keeps the counter on true time**, as long as less than a wrap has passed. -/
theorem advance_tracks {m : MonotonicMs} {t t' : Nat} (h : m.Tracks t) (hle : t ≤ t') (hgap : t' - t + 1000 ≤ 2 ^ 32) :
    (m.advance (UInt32.ofNat t')).Tracks t' := by
  have hdelta : (UInt32.ofNat t' - m.lastUs).toNat = t' - t := by
    rw [UInt32.toNat_sub, UInt32.toNat_ofNat', h.lastUs]
    omega
  have hrem := h.rem
  have hms := h.ms
  have htotal : (UInt32.ofNat t' - m.lastUs + m.rem.toUInt32).toNat = t' - t + t % 1000 := by
    rw [UInt32.toNat_add, hdelta, UInt16.toNat_toUInt32, hrem]
    omega
  refine ⟨by simp [MonotonicMs.advance, h.init], ?_, ?_, ?_⟩
  · simp [MonotonicMs.advance, h.init]
  · simp only [MonotonicMs.advance, h.init, Bool.not_true, Bool.false_eq_true, if_false,
      UInt32.toNat_add, UInt32.toNat_div, htotal, hms]
    have h1000 : (1000 : UInt32).toNat = 1000 := rfl
    rw [h1000]
    omega
  · simp only [MonotonicMs.advance, h.init, Bool.not_true, Bool.false_eq_true, if_false,
      UInt32.toNat_toUInt16, UInt32.toNat_mod, htotal]
    have h1000 : (1000 : UInt32).toNat = 1000 := rfl
    rw [h1000]
    omega

end SlopSync
