import Mathlib.Algebra.Order.Ring.Abs
import Mathlib.Data.Int.ModEq
import SlopSync.Serial

/-! # Clock synchronisation

`computeClockSync` of `wire/raw/clock_frame.hpp` and `syncClock`, `hubNowUs` of `session.js`.  Both halve the sum of two
windowed differences, which is the offset only while neither window is left (`Exchange.InWindow`):

- `forward_eq`, `back_eq`: what the two differences are for a true offset and true delays;
- `Exchange.sum_of_inWindow`, `Exchange.sum_of_straddle`: their sum, which is a whole turn off when they lie on
  different sides of the half-range boundary;
- `synced_iff`: when the readings give the clock of the hub. -/

namespace SlopSync

structure ClockSync where
  offsetUs : Int32
  rttUs : UInt32
  deriving DecidableEq, Repr

/-- The sums are taken in 64 bits and halved towards zero. -/
def computeClockSync (t0 t1 t2 t3 : UInt32) : ClockSync :=
  let d1 := timeDelta t1 t0
  let d2 := timeDelta t2 t3
  let offset := (d1 + d2).tdiv 2
  let dRttObserved := timeDelta t3 t0
  let dHubHold := timeDelta t2 t1
  let rtt := dRttObserved - dHubHold
  { offsetUs := Int32.ofInt offset, rttUs := UInt32.ofInt rtt }

namespace Js

def wrapDiff (a b : UInt32) : Int :=
  let d : Int := (a - b).toNat
  if 0x80000000 ≤ d then d - 0x100000000 else d

structure ClockReply where
  t0e : UInt32
  t1 : UInt32
  t2 : UInt32

/-- What `syncClock` resolves to, and keeps as `clockOffsetUs`; `Math.floor` halves downwards. -/
structure ClockSync where
  offsetUs : Int
  rttUs : Int
  deriving DecidableEq, Repr

def syncClock (reply : ClockReply) (t3 : UInt32) : ClockSync where
  offsetUs := (wrapDiff reply.t1 reply.t0e + wrapDiff reply.t2 t3) / 2
  rttUs := wrapDiff t3 reply.t0e - wrapDiff reply.t2 reply.t1

def hubNowUs (clientNowUs : UInt32) (clockOffsetUs : Int) : UInt32 := UInt32.ofInt (clientNowUs.toNat + clockOffsetUs)

theorem wrapDiff_eq_timeDelta (a b : UInt32) : wrapDiff a b = timeDelta a b := by
  rw [timeDelta_eq, wrapDiff]
  split <;> split <;> omega

end Js

/-! ## An exchange -/

/-- A CLOCK exchange: what the client's clock shows when the request leaves, the true hub-minus-client offset, and how
long the request, the hub and the reply take. -/
structure Exchange where
  client : UInt32
  theta : UInt32
  d1 : Nat
  w : Nat
  d2 : Nat
  short : d1 + w + d2 < 2 ^ 31

namespace Exchange

def t0 (x : Exchange) : UInt32 := x.client
def t1 (x : Exchange) : UInt32 := x.client + UInt32.ofNat x.d1 + x.theta
def t2 (x : Exchange) : UInt32 := x.client + UInt32.ofNat (x.d1 + x.w) + x.theta
def t3 (x : Exchange) : UInt32 := x.client + UInt32.ofNat (x.d1 + x.w + x.d2)

def sync (x : Exchange) : ClockSync := computeClockSync x.t0 x.t1 x.t2 x.t3
def jsSync (x : Exchange) : Js.ClockSync := Js.syncClock ⟨x.t0, x.t1, x.t2⟩ x.t3

/-- An error of at most half the round trip and a microsecond. -/
def Small (x : Exchange) (e : Int) : Prop := 2 * |e| ≤ x.d1 + x.d2 + 2

/-- Both ends read the round trip and an offset that is the true one up to a small error. -/
structure Synced (x : Exchange) : Prop where
  rtt : x.sync.rttUs = UInt32.ofNat (x.d1 + x.d2)
  offset : ∃ e, x.Small e ∧ x.sync.offsetUs.toInt ≡ x.theta.toNat + e [ZMOD 2 ^ 32]
  jsRtt : x.jsSync.rttUs = x.d1 + x.d2
  jsOffset : ∃ k : Int, |k| ≤ 1 ∧ x.jsSync.offsetUs ≡ x.sync.offsetUs.toInt + k [ZMOD 2 ^ 32]
  hubNow : ∀ now : UInt32, ∃ e, x.Small e ∧
    (Js.hubNowUs now x.jsSync.offsetUs).toNat ≡ now.toNat + x.theta.toNat + e [ZMOD 2 ^ 32]

/-- The offset as a signed number. -/
def signed (x : Exchange) : Int := timeDelta x.theta 0

/-- Neither difference leaves the half-range window of the offset. -/
def InWindow (x : Exchange) : Prop := -2 ^ 31 + (x.d2 : Int) ≤ x.signed ∧ x.signed + x.d1 < 2 ^ 31

/-- A reply so slow that half of its round trip is half of the error, and an offset whose halving falls the right
way. -/
def OnEdge (x : Exchange) : Prop := x.d1 = 0 ∧ x.d2 = 2 ^ 31 - 1 ∧ -2 ^ 30 ≤ x.signed ∧ x.signed ≤ -2

instance (x : Exchange) : Decidable x.InWindow := inferInstanceAs (Decidable (_ ∧ _))

instance (x : Exchange) : Decidable x.OnEdge := inferInstanceAs (Decidable (_ ∧ _))

variable (x : Exchange)

/-! ## The four differences -/

theorem signed_eq : x.signed = if x.theta.toNat < 2 ^ 31 then (x.theta.toNat : Int) else x.theta.toNat - 2 ^ 32 := by
  rw [signed, timeDelta_eq, UInt32.sub_zero]

theorem forward_eq : timeDelta x.t1 x.t0 =
    if x.signed + x.d1 < 2 ^ 31 then x.signed + x.d1 else x.signed + x.d1 - 2 ^ 32 := by
  have hlt := x.theta.toNat_lt
  have hs := x.short
  have hdiff : (x.t1 - x.t0).toNat = (x.d1 + x.theta.toNat) % 2 ^ 32 := by
    rw [t1, t0, UInt32.toNat_sub, UInt32.toNat_add, UInt32.toNat_add, UInt32.toNat_ofNat']
    have := x.client.toNat_lt
    omega
  rw [timeDelta_eq, hdiff, signed_eq]
  split <;> split <;> split <;> omega

theorem back_eq : timeDelta x.t2 x.t3 =
    if -2 ^ 31 + (x.d2 : Int) ≤ x.signed then x.signed - x.d2 else x.signed - x.d2 + 2 ^ 32 := by
  have hlt := x.theta.toNat_lt
  have hs := x.short
  have hdiff : (x.t2 - x.t3).toNat = (x.theta.toNat + (2 ^ 32 - x.d2)) % 2 ^ 32 := by
    rw [t2, t3, UInt32.toNat_sub, UInt32.toNat_add, UInt32.toNat_add, UInt32.toNat_add, UInt32.toNat_ofNat',
      UInt32.toNat_ofNat']
    have := x.client.toNat_lt
    omega
  rw [timeDelta_eq, hdiff, signed_eq]
  split <;> split <;> split <;> omega

theorem trip_eq : timeDelta x.t3 x.t0 = x.d1 + x.w + x.d2 := by
  have hs := x.short
  have hdiff : (x.t3 - x.t0).toNat = x.d1 + x.w + x.d2 := by
    rw [t3, t0, UInt32.toNat_sub, UInt32.toNat_add, UInt32.toNat_ofNat']
    have := x.client.toNat_lt
    omega
  rw [timeDelta_eq, hdiff]
  split <;> omega

theorem hold_eq : timeDelta x.t2 x.t1 = x.w := by
  have hs := x.short
  have hdiff : (x.t2 - x.t1).toNat = x.w := by
    rw [t2, t1, UInt32.toNat_sub, UInt32.toNat_add, UInt32.toNat_add, UInt32.toNat_add, UInt32.toNat_add,
      UInt32.toNat_ofNat', UInt32.toNat_ofNat']
    have := x.client.toNat_lt
    have := x.theta.toNat_lt
    omega
  rw [timeDelta_eq, hdiff]
  split <;> omega

/-! ## Their sum -/

def sum : Int := timeDelta x.t1 x.t0 + timeDelta x.t2 x.t3

theorem sum_of_inWindow (h : x.InWindow) : x.sum = 2 * x.signed + x.d1 - x.d2 := by
  rw [sum, forward_eq, back_eq, if_pos h.2, if_pos h.1]
  omega

/-- Only one of the two windows can be left. -/
theorem sum_of_straddle (h : ¬ x.InWindow) :
    (2 ^ 31 ≤ x.signed + x.d1 ∧ x.sum = 2 * x.signed + x.d1 - x.d2 - 2 ^ 32) ∨
      (x.signed < -2 ^ 31 + (x.d2 : Int) ∧ x.sum = 2 * x.signed + x.d1 - x.d2 + 2 ^ 32) := by
  have hs := x.short
  rw [InWindow, not_and_or] at h
  rw [sum, forward_eq, back_eq]
  split <;> split <;> omega

theorem sum_range : -2 ^ 32 ≤ x.sum ∧ x.sum < 2 ^ 32 - 1 := by
  have hf := x.forward_eq
  have hb := x.back_eq
  have hs := x.signed_eq
  have hlt := x.theta.toNat_lt
  have hshort := x.short
  rw [sum]
  split at hf <;> split at hb <;> split at hs <;> omega

/-- Halved towards zero. -/
theorem offset_eq : 2 * x.sync.offsetUs.toInt = x.sum ∨ (2 * x.sync.offsetUs.toInt + 1 = x.sum ∧ 0 ≤ x.sum) ∨
    (2 * x.sync.offsetUs.toInt - 1 = x.sum ∧ x.sum < 0) := by
  obtain ⟨hlo, hhi⟩ := x.sum_range
  have hdiv : x.sync.offsetUs.toInt = (x.sum.tdiv 2).bmod (2 ^ 32) := Int32.toInt_ofInt
  have htdiv := Int.tdiv_eq_ediv (a := x.sum) (b := 2)
  rw [show Int.sign 2 = 1 from rfl] at htdiv
  have hsmall : (x.sum.tdiv 2).bmod (2 ^ 32) = x.sum.tdiv 2 := by
    apply Int.bmod_eq_of_le <;> split at htdiv <;> omega
  rw [hdiv, hsmall]
  split at htdiv
  · rename_i h
    rcases h with h | h <;> omega
  · omega

/-- Halved downwards. -/
theorem jsOffset_eq : x.jsSync.offsetUs = x.sum / 2 := by
  rw [jsSync, Js.syncClock, Js.wrapDiff_eq_timeDelta, Js.wrapDiff_eq_timeDelta]
  rfl

end Exchange

/-! ## When the clock is read right -/

theorem UInt32.toNat_ofInt_eq (n : Int) : ((UInt32.ofInt n).toNat : Int) = n % 2 ^ 32 := by
  rw [UInt32.ofInt, UInt32.toNat_ofNat']
  omega

theorem Js.hubNowUs_modEq (now : UInt32) (offset : Int) :
    ((Js.hubNowUs now offset).toNat : Int) ≡ now.toNat + offset [ZMOD 2 ^ 32] := by
  rw [Js.hubNowUs, UInt32.toNat_ofInt_eq]
  exact Int.mod_modEq _ _

namespace Exchange

variable (x : Exchange)

/-- The round trip never depends on the offset. -/
theorem rtt_eq : x.sync.rttUs = UInt32.ofNat (x.d1 + x.d2) := by
  have hint : (UInt32.ofInt (timeDelta x.t3 x.t0 - timeDelta x.t2 x.t1)).toNat = x.d1 + x.d2 := by
    have h := UInt32.toNat_ofInt_eq (timeDelta x.t3 x.t0 - timeDelta x.t2 x.t1)
    have hs := x.short
    rw [trip_eq, hold_eq] at h ⊢
    omega
  have hs := x.short
  rw [← UInt32.toNat_inj, UInt32.toNat_ofNat']
  rw [show x.sync.rttUs.toNat = _ from hint]
  omega

theorem jsRtt_eq : x.jsSync.rttUs = x.d1 + x.d2 := by
  change Js.wrapDiff x.t3 x.t0 - Js.wrapDiff x.t2 x.t1 = _
  rw [Js.wrapDiff_eq_timeDelta, Js.wrapDiff_eq_timeDelta, trip_eq, hold_eq]
  omega

/-- The two roundings differ by at most a microsecond. -/
theorem jsOffset_near : ∃ k : Int, |k| ≤ 1 ∧ x.jsSync.offsetUs ≡ x.sync.offsetUs.toInt + k [ZMOD 2 ^ 32] := by
  have hc := x.offset_eq
  have hj := x.jsOffset_eq
  refine ⟨x.jsSync.offsetUs - x.sync.offsetUs.toInt, abs_le.mpr ?_, by rw [add_sub_cancel]⟩
  omega

/-- The offset and its signed reading are the same residue. -/
theorem signed_cases : (x.theta.toNat : Int) = x.signed ∨ (x.theta.toNat : Int) = x.signed + 2 ^ 32 := by
  rw [signed_eq]
  split <;> omega

theorem signed_range : -2 ^ 31 ≤ x.signed ∧ x.signed < 2 ^ 31 := by
  have hlt := x.theta.toNat_lt
  rw [signed_eq]
  split <;> omega

/-- `offset` is the true offset but for a small error. -/
def Tracks (offset : Int) : Prop := ∃ e, x.Small e ∧ offset ≡ x.theta.toNat + e [ZMOD 2 ^ 32]

theorem tracks_iff (offset : Int) :
    x.Tracks offset ↔ ∃ e k : Int, -(x.d1 + x.d2 + 2 : Int) ≤ 2 * e ∧ 2 * e ≤ x.d1 + x.d2 + 2 ∧
      x.signed + e = offset + 2 ^ 32 * k := by
  have hsmall : ∀ e, x.Small e ↔ -(x.d1 + x.d2 + 2 : Int) ≤ 2 * e ∧ 2 * e ≤ x.d1 + x.d2 + 2 := by
    intro e
    rw [Small, ← abs_le, abs_mul]
    rfl
  have hres := x.signed_cases
  constructor
  · rintro ⟨e, he, hmod⟩
    obtain ⟨k, hk⟩ := Int.modEq_iff_dvd.mp hmod
    rcases hres with hres | hres
    · exact ⟨e, k, ((hsmall e).mp he).1, ((hsmall e).mp he).2, by omega⟩
    · exact ⟨e, k - 1, ((hsmall e).mp he).1, ((hsmall e).mp he).2, by omega⟩
  · rintro ⟨e, k, hlo, hhi, hk⟩
    refine ⟨e, (hsmall e).mpr ⟨hlo, hhi⟩, Int.modEq_iff_dvd.mpr ?_⟩
    rcases hres with hres | hres
    · exact ⟨k, by omega⟩
    · exact ⟨k + 1, by omega⟩

/-- Reading the hub's clock is as exact as the offset. -/
theorem hubNow_iff (offset : Int) :
    (∀ now : UInt32, ∃ e, x.Small e ∧
      ((Js.hubNowUs now offset).toNat : Int) ≡ now.toNat + x.theta.toNat + e [ZMOD 2 ^ 32]) ↔ x.Tracks offset := by
  constructor
  · intro h
    obtain ⟨e, he, hmod⟩ := h 0
    have hnow := Js.hubNowUs_modEq 0 offset
    rw [show ((0 : UInt32).toNat : Int) = 0 from rfl, zero_add] at hnow hmod
    exact ⟨e, he, hnow.symm.trans hmod⟩
  · rintro ⟨e, he, hmod⟩ now
    refine ⟨e, he, (Js.hubNowUs_modEq now offset).trans ?_⟩
    rw [add_assoc]
    exact hmod.add_left _

end Exchange

open Exchange in
/-- **When the clock is read right**: the two differences are halved as plain numbers, so they must lie on one side of
the half-range boundary. -/
theorem synced_iff (x : Exchange) : x.Synced ↔ x.InWindow ∨ x.OnEdge := by
  have hshort := x.short
  have hrange := x.signed_range
  have hc := x.offset_eq
  have hj := x.jsOffset_eq
  constructor
  · intro h
    by_cases hin : x.InWindow
    · exact .inl hin
    · obtain ⟨e, k, hlo, hhi, hk⟩ := (x.tracks_iff _).mp h.offset
      obtain ⟨e', k', hlo', hhi', hk'⟩ := (x.tracks_iff _).mp ((x.hubNow_iff _).mp h.hubNow)
      -- half a turn off; only a round trip of half a turn forgives it
      right
      rcases x.sum_of_straddle hin with ⟨hside, hsum⟩ | ⟨hside, hsum⟩
      · omega
      · exact ⟨by omega, by omega, by omega, by omega⟩
  · intro h
    refine ⟨x.rtt_eq, (x.tracks_iff _).mpr ?_, x.jsRtt_eq, x.jsOffset_near,
      (x.hubNow_iff _).mpr ((x.tracks_iff _).mpr ?_)⟩
    · rcases h with h | h
      · have hsum := x.sum_of_inWindow h
        exact ⟨x.sync.offsetUs.toInt - x.signed, 0, by omega, by omega, by omega⟩
      · obtain ⟨hd1, hd2, hlo, hhi⟩ := h
        rcases x.sum_of_straddle (fun hin => by have := hin.1; omega) with ⟨hside, hsum⟩ | ⟨hside, hsum⟩
        · omega
        · exact ⟨x.sync.offsetUs.toInt - x.signed, 0, by omega, by omega, by omega⟩
    · rcases h with h | h
      · have hsum := x.sum_of_inWindow h
        exact ⟨x.jsSync.offsetUs - x.signed, 0, by omega, by omega, by omega⟩
      · obtain ⟨hd1, hd2, hlo, hhi⟩ := h
        rcases x.sum_of_straddle (fun hin => by have := hin.1; omega) with ⟨hside, hsum⟩ | ⟨hside, hsum⟩
        · omega
        · exact ⟨x.jsSync.offsetUs - x.signed, 0, by omega, by omega, by omega⟩

/-- Half a turn less a microsecond apart and a millisecond each way: the offset read is `-1`. -/
theorem not_synced_at_half_turn : ¬ Exchange.Synced ⟨0, 0x7FFFFFFF, 1000, 0, 1000, by decide⟩ := by
  intro h
  obtain ⟨e, k, hlo, hhi, hk⟩ := (Exchange.tracks_iff _ _).mp h.offset
  rw [show (Exchange.sync ⟨0, 0x7FFFFFFF, 1000, 0, 1000, by decide⟩).offsetUs.toInt = -1 by decide,
    show Exchange.signed ⟨0, 0x7FFFFFFF, 1000, 0, 1000, by decide⟩ = 2147483647 by decide] at hk
  dsimp only at hlo hhi
  omega

end SlopSync
