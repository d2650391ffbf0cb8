import Mathlib.Data.Nat.Bitwise
import SlopSync.AckMask

/-! # Wrapping counters against true ones

The acknowledgement tracker and the millisecond counter keep 16 and 32 bits of numbers that have no bound.

* `Shows` — the tracker shows a record of true numbers; `ack_exact` says what its bits mean.
* `monotonic_exact` — the millisecond counter is the true time, however long it runs. -/

namespace SlopSync

/-! ## Acknowledgements -/

/-- What a tracker was told since it was last reset. -/
structure AckRecord where
  base : Nat                          -- where its window begins
  heard : List (Nat × Nat) := []      -- each number, and the base when it arrived

inductive AckOp
  | record (k : Nat)
  | reset (base : Nat)

namespace AckRecord

def record (r : AckRecord) (k : Nat) : AckRecord where
  base := if r.base + kAckMaskWindow ≤ k then k + 1 - kAckMaskWindow else r.base
  heard := (k, r.base) :: r.heard

/-- The number arrived, and not before the window. -/
def Kept (r : AckRecord) (k : Nat) : Prop := ∃ b, (k, b) ∈ r.heard ∧ b ≤ k

def step (r : AckRecord) : AckOp → AckRecord
  | .record k => r.record k
  | .reset base => { base }

/-- The number is within half a wrap of the base. -/
def Near (r : AckRecord) (k : Nat) : Prop := r.base ≤ k + 2 ^ 15 ∧ k < r.base + 2 ^ 15

/-- Whatever is recorded is near when it arrives. -/
def Follows : AckRecord → List AckOp → Prop
  | _, [] => True
  | r, .record k :: ops => r.Near k ∧ Follows (r.record k) ops
  | _, .reset base :: ops => Follows { base } ops

variable {r : AckRecord} {k n : Nat}

theorem kept_record : (r.record k).Kept n ↔ (n = k ∧ r.base ≤ k) ∨ r.Kept n := by
  constructor
  · rintro ⟨b, hmem, hb⟩
    rcases List.mem_cons.mp hmem with heq | hmem
    · obtain ⟨rfl, rfl⟩ := Prod.mk.inj heq
      exact .inl ⟨rfl, hb⟩
    · exact .inr ⟨b, hmem, hb⟩
  · rintro (⟨rfl, hb⟩ | ⟨b, hmem, hb⟩)
    · exact ⟨r.base, List.mem_cons_self, hb⟩
    · exact ⟨b, List.mem_cons_of_mem _ hmem, hb⟩

/-- The window only moves forward. -/
theorem base_record_le (r : AckRecord) (k : Nat) : r.base ≤ (r.record k).base := by
  show r.base ≤ if r.base + kAckMaskWindow ≤ k then k + 1 - kAckMaskWindow else r.base
  split <;> omega

end AckRecord

/-- What the code does. -/
def AckTracker.step (t : AckTracker) : AckOp → AckTracker
  | .record k => t.record (UInt16.ofNat k)
  | .reset base => t.reset (UInt16.ofNat base)

/-- The tracker shows the record. -/
structure Shows (t : AckTracker) (r : AckRecord) : Prop where
  base : t.base = UInt16.ofNat r.base
  bits : ∀ i, i < kAckMaskWindow → (t.mask.toNat.testBit i = true ↔ r.Kept (r.base + i))
  window : ∀ k, r.Kept k → k < r.base + kAckMaskWindow
  newest : ∀ k, r.Kept k → ∃ n, r.Kept n ∧ r.base ≤ n

section

variable {t : AckTracker} {r : AckRecord} {k : Nat}

theorem ofInt_natCast16 (n : Nat) : UInt16.ofInt (n : Int) = UInt16.ofNat n := by
  apply UInt16.toNat_inj.mp
  rw [UInt16.ofInt, UInt16.toNat_ofNat', UInt16.toNat_ofNat']
  omega

theorem ofInt_natCast32 (n : Nat) : UInt32.ofInt (n : Int) = UInt32.ofNat n := by
  apply UInt32.toNat_inj.mp
  rw [UInt32.ofInt, UInt32.toNat_ofNat', UInt32.toNat_ofNat']
  omega

theorem testBit_mask (m : UInt32) {i : Nat} (h : 32 ≤ i) : m.toNat.testBit i = false :=
  Nat.testBit_lt_two_pow (Nat.lt_of_lt_of_le m.toNat_lt (Nat.pow_le_pow_right (by decide) h))

theorem toNat_bit {j : Nat} (hj : j < 32) : (1 <<< UInt32.ofNat j : UInt32).toNat = 2 ^ j := by
  have hlt : 2 ^ j < 2 ^ 32 := Nat.pow_lt_pow_right (by decide) hj
  have hone : (1 : UInt32).toNat = 1 := rfl
  rw [UInt32.toNat_shiftLeft, UInt32.toNat_ofNat', Nat.shiftLeft_eq, hone, Nat.one_mul,
    Nat.mod_eq_of_lt (by omega : j < 2 ^ 32), Nat.mod_eq_of_lt hj, Nat.mod_eq_of_lt hlt]

theorem testBit_set (m : UInt32) {j : Nat} (hj : j < 32) (i : Nat) :
    (m ||| 1 <<< UInt32.ofNat j).toNat.testBit i = true ↔ m.toNat.testBit i = true ∨ i = j := by
  rw [UInt32.toNat_or, Nat.testBit_or, toNat_bit hj, Nat.testBit_two_pow, Bool.or_eq_true, decide_eq_true_eq]
  exact or_congr_right eq_comm

/-- A number that is not before the window: where it is, seen from the base. -/
theorem offset_eq (hbase : t.base = UInt16.ofNat r.base) (hle : r.base ≤ k) (hlt : k < r.base + 2 ^ 15) :
    (UInt16.ofNat k - t.base).toBitVec.toInt = ((k - r.base : Nat) : Int) := by
  have hnat : (UInt16.ofNat k - t.base).toNat = k - r.base := by
    rw [hbase, UInt16.toNat_sub, UInt16.toNat_ofNat', UInt16.toNat_ofNat']
    omega
  rw [BitVec.toInt_eq_toNat_cond]
  have hbits : (UInt16.ofNat k - t.base).toBitVec.toNat = k - r.base := hnat
  rw [hbits, if_pos (by omega)]

/-- A number is dropped exactly when it is before the window. -/
theorem stale_iff (hbase : t.base = UInt16.ofNat r.base) (hnear : r.Near k) :
    (UInt16.ofNat k != t.base && !seqIsNewer (UInt16.ofNat k) t.base) = true ↔ k < r.base := by
  obtain ⟨hlow, hhigh⟩ := hnear
  rw [Bool.and_eq_true, bne_iff_ne, Bool.not_eq_true', ← Bool.not_eq_true, seqIsNewer_iff, hbase, ne_eq,
    ← UInt16.toNat_inj, UInt16.toNat_sub, UInt16.toNat_ofNat', UInt16.toNat_ofNat']
  omega

/-- Before the window: nothing changes. -/
theorem Shows.stale (h : Shows t r) (hnear : r.Near k) (hk : k < r.base) : Shows (t.record (UInt16.ofNat k)) (r.record k) := by
  have hsame : t.record (UInt16.ofNat k) = t := if_pos ((stale_iff h.base hnear).mpr hk)
  have hbase : (r.record k).base = r.base := if_neg (by omega)
  have hkept : ∀ n, (r.record k).Kept n ↔ r.Kept n := fun n => by
    rw [AckRecord.kept_record]
    exact or_iff_right fun hn => absurd hn.2 (Nat.not_le.mpr hk)
  rw [hsame]
  refine ⟨by rw [hbase, h.base], fun i hi => ?_, fun n hn => ?_, fun n hn => ?_⟩
  · rw [hkept, hbase]
    exact h.bits i hi
  · rw [hbase]
    exact h.window n ((hkept n).mp hn)
  · obtain ⟨n', hn', hle⟩ := h.newest n ((hkept n).mp hn)
    exact ⟨n', (hkept n').mpr hn', by rwa [hbase]⟩

/-- In the window: one bit. -/
theorem Shows.within (h : Shows t r) (hnear : r.Near k) (hle : r.base ≤ k) (hk : k < r.base + kAckMaskWindow) :
    Shows (t.record (UInt16.ofNat k)) (r.record k) := by
  have hwindow : kAckMaskWindow = 32 := rfl
  have hoffset := offset_eq h.base hle hnear.2
  have hset : t.record (UInt16.ofNat k) = { t with mask := t.mask ||| 1 <<< UInt32.ofNat (k - r.base) } := by
    rw [AckTracker.record, if_neg (mt (stale_iff h.base hnear).mp (by omega))]
    dsimp only
    rw [hoffset, if_neg (by omega), ofInt_natCast32]
  have hbase : (r.record k).base = r.base := if_neg (by omega)
  rw [hset]
  refine ⟨by rw [hbase, h.base], fun i hi => ?_, fun n hn => ?_, fun n hn => ?_⟩
  · rw [testBit_set t.mask (by omega) i, h.bits i hi, AckRecord.kept_record, hbase]
    constructor
    · rintro (hkept | rfl)
      · exact .inr hkept
      · exact .inl ⟨by omega, hle⟩
    · rintro (⟨heq, -⟩ | hkept)
      · exact .inr (by omega)
      · exact .inl hkept
  · rw [hbase]
    rcases AckRecord.kept_record.mp hn with ⟨rfl, -⟩ | hn
    · exact hk
    · exact h.window n hn
  · exact ⟨k, AckRecord.kept_record.mpr (.inl ⟨rfl, hle⟩), by rwa [hbase]⟩

/-- Behind the window: it slides, and loses what falls off. -/
theorem Shows.slide (h : Shows t r) (hnear : r.Near k) (hk : r.base + kAckMaskWindow ≤ k) :
    Shows (t.record (UInt16.ofNat k)) (r.record k) := by
  have hwindow : kAckMaskWindow = 32 := rfl
  obtain ⟨-, hhigh⟩ := hnear
  have hoffset := offset_eq h.base (by omega) hhigh
  have hdist : ∃ d, k - r.base = d + 31 ∧ 0 < d ∧ d < 2 ^ 15 := ⟨k - r.base - 31, by omega, by omega, by omega⟩
  obtain ⟨d, hd, hpos, hsmall⟩ := hdist
  have hshift : UInt16.ofInt (((k - r.base : Nat) : Int) - kAckMaskWindow + 1) = UInt16.ofNat d := by
    rw [← ofInt_natCast16]
    exact congrArg UInt16.ofInt (by omega)
  have hnat : (UInt16.ofNat d).toNat = d := by
    rw [UInt16.toNat_ofNat']
    omega
  have hset : t.record (UInt16.ofNat k) =
      { base := t.base + UInt16.ofNat d
        mask := (if 32 ≤ d then 0 else t.mask >>> (UInt16.ofNat d).toUInt32) ||| 1 <<< UInt32.ofNat 31 } := by
    rw [AckTracker.record, if_neg (mt (stale_iff h.base ⟨by omega, hhigh⟩).mp (by omega))]
    dsimp only
    rw [hoffset, if_pos (by omega), hshift, hnat]
    rfl
  have hbase : (r.record k).base = k + 1 - kAckMaskWindow := if_pos hk
  have hmoved : k + 1 - kAckMaskWindow = r.base + d := by omega
  have hlow : ∀ i, (if 32 ≤ d then 0 else t.mask >>> (UInt16.ofNat d).toUInt32).toNat.testBit i = t.mask.toNat.testBit (d + i) := by
    intro i
    split
    · rw [testBit_mask t.mask (by omega)]
      exact Nat.zero_testBit i
    · rw [UInt32.toNat_shiftRight, UInt16.toNat_toUInt32, hnat, Nat.mod_eq_of_lt (by omega), Nat.testBit_shiftRight]
  rw [hset]
  refine ⟨?_, fun i hi => ?_, fun n hn => ?_, fun n hn => ?_⟩
  · rw [hbase, hmoved, UInt16.ofNat_add, h.base]
  · rw [testBit_set _ (by decide) i, hlow, AckRecord.kept_record, hbase, hmoved]
    by_cases hin : d + i < kAckMaskWindow
    · rw [h.bits _ hin, ← Nat.add_assoc]
      constructor
      · rintro (hkept | rfl)
        · exact .inr hkept
        · exact .inl ⟨by omega, by omega⟩
      · rintro (⟨heq, -⟩ | hkept)
        · exact .inr (by omega)
        · exact .inl hkept
    · rw [testBit_mask t.mask (by omega)]
      constructor
      · rintro (hfalse | rfl)
        · cases hfalse
        · exact .inl ⟨by omega, by omega⟩
      · rintro (⟨heq, -⟩ | hkept)
        · exact .inr (by omega)
        · have := h.window _ hkept
          omega
  · rw [hbase]
    rcases AckRecord.kept_record.mp hn with ⟨rfl, -⟩ | hn
    · omega
    · have := h.window n hn
      omega
  · exact ⟨k, AckRecord.kept_record.mpr (.inl ⟨rfl, by omega⟩), by omega⟩

theorem Shows.record (h : Shows t r) (hnear : r.Near k) : Shows (t.record (UInt16.ofNat k)) (r.record k) := by
  by_cases hlow : k < r.base
  · exact h.stale hnear hlow
  · by_cases hhigh : k < r.base + kAckMaskWindow
    · exact h.within hnear (Nat.not_lt.mp hlow) hhigh
    · exact h.slide hnear (Nat.not_lt.mp hhigh)

theorem shows_reset (t : AckTracker) (base : Nat) : Shows (t.reset (UInt16.ofNat base)) { base } where
  base := rfl
  bits i _ := by simp [AckTracker.reset, AckRecord.Kept]
  window k hk := by
    obtain ⟨b, hmem, -⟩ := hk
    exact absurd hmem List.not_mem_nil
  newest k hk := by
    obtain ⟨b, hmem, -⟩ := hk
    exact absurd hmem List.not_mem_nil

/-- The tracker shows the record after any run. -/
theorem shows_run : ∀ (ops : List AckOp) {t : AckTracker} {r : AckRecord}, Shows t r → r.Follows ops →
    Shows (ops.foldl AckTracker.step t) (ops.foldl AckRecord.step r)
  | [], _, _, h, _ => h
  | .record _ :: ops, _, _, h, ⟨hnear, hrest⟩ => shows_run ops (h.record hnear) hrest
  | .reset base :: ops, t, _, _, hrest => shows_run ops (shows_reset t base) hrest

theorem mem_unpackAckMask {base q : UInt16} {mask : UInt32} : q ∈ unpackAckMask base mask ↔
    ∃ i, i < kAckMaskWindow ∧ mask.toNat.testBit i = true ∧ q = base + UInt16.ofNat i := by
  have hbit : ∀ i, i < kAckMaskWindow → ((mask &&& (1 <<< UInt32.ofNat i) != 0) = true ↔ mask.toNat.testBit i = true) := by
    intro i hi
    have hnat : (mask &&& (1 <<< UInt32.ofNat i)).toNat = mask.toNat &&& 2 ^ i := by
      rw [UInt32.toNat_and, toNat_bit hi]
    rw [bne_iff_ne, ne_eq, ← UInt32.toNat_inj, hnat, Nat.and_two_pow]
    cases mask.toNat.testBit i with
    | true => simp
    | false => simp
  simp only [unpackAckMask, List.mem_map, List.mem_filter, List.mem_range]
  constructor
  · rintro ⟨i, ⟨hi, hset⟩, rfl⟩
    exact ⟨i, hi, (hbit i hi).mp hset, rfl⟩
  · rintro ⟨i, hi, hset, rfl⟩
    exact ⟨i, ⟨hi, (hbit i hi).mpr hset⟩, rfl⟩

end

/-- **The tracker acknowledges exactly what arrived.**  After any run near the window its bits are the numbers that were
recorded since the last reset and did not come before the window; the newest of them is in the window, which only moves
forward. -/
theorem ack_exact {base : Nat} {ops : List AckOp} (hops : ({ base } : AckRecord).Follows ops) :
    let t := ops.foldl AckTracker.step { base := UInt16.ofNat base }
    let r := ops.foldl AckRecord.step { base }
    t.snapshot.baseSeq = UInt16.ofNat r.base ∧
    (∀ i, i < kAckMaskWindow →
      (t.snapshot.mask.toNat.testBit i = true ↔ ∃ b, (r.base + i, b) ∈ r.heard ∧ b ≤ r.base + i)) ∧
    (∀ q, q ∈ unpackAckMask t.snapshot.baseSeq t.snapshot.mask ↔
      ∃ k b, (k, b) ∈ r.heard ∧ b ≤ k ∧ r.base ≤ k ∧ k < r.base + kAckMaskWindow ∧ q = UInt16.ofNat k) ∧
    (∀ k, r.Kept k → (∀ n, r.Kept n → n ≤ k) → r.base ≤ k ∧ k < r.base + kAckMaskWindow) ∧
    ∀ k, r.Near k → (t.record (UInt16.ofNat k)).base = UInt16.ofNat (r.record k).base ∧ r.base ≤ (r.record k).base := by
  dsimp only
  have hstart : Shows { base := UInt16.ofNat base } { base } := shows_reset {} base
  have hshows := shows_run ops hstart hops
  generalize ops.foldl AckTracker.step { base := UInt16.ofNat base } = t at hshows
  generalize ops.foldl AckRecord.step { base } = r at hshows
  refine ⟨hshows.base, hshows.bits, fun q => ?_, fun k hk hmax => ?_, fun k hnear => ?_⟩
  · rw [mem_unpackAckMask]
    constructor
    · rintro ⟨i, hi, hset, rfl⟩
      obtain ⟨b, hmem, hb⟩ := (hshows.bits i hi).mp hset
      refine ⟨r.base + i, b, hmem, hb, by omega, by omega, ?_⟩
      rw [UInt16.ofNat_add, ← hshows.base]
      rfl
    · rintro ⟨k, b, hmem, hb, hle, hlt, rfl⟩
      obtain ⟨i, rfl⟩ := Nat.exists_eq_add_of_le hle
      refine ⟨i, by omega, (hshows.bits i (by omega)).mpr ⟨b, hmem, hb⟩, ?_⟩
      rw [UInt16.ofNat_add, ← hshows.base]
      rfl
  · obtain ⟨n, hn, hle⟩ := hshows.newest k hk
    exact ⟨hle.trans (hmax n hn), hshows.window k hk⟩
  · exact ⟨(hshows.record hnear).base, r.base_record_le k⟩

/-- Across a wrap: one in the window, one that makes it slide, one before it. -/
theorem ack_exact_wraps :
    let t := ([.record 65531, .record 65600, .record 65540] : List AckOp).foldl AckTracker.step { base := 65530 }
    let r := ([.record 65531, .record 65600, .record 65540] : List AckOp).foldl AckRecord.step { base := 65530 }
    t.snapshot.baseSeq = 33 ∧ t.snapshot.mask = 0x80000000 ∧
      ∀ i, i < kAckMaskWindow → (t.snapshot.mask.toNat.testBit i = true ↔ ∃ b, (r.base + i, b) ∈ r.heard ∧ b ≤ r.base + i) := by
  have h := @ack_exact 65530 [.record 65531, .record 65600, .record 65540]
    ⟨⟨by decide, by decide⟩, ⟨by decide, by decide⟩, ⟨by decide, by decide⟩, trivial⟩
  exact ⟨h.1, by decide, h.2.1⟩

/-! ## Milliseconds -/

/-- The clock is read often enough. -/
def Onward (t t' : Nat) : Prop := t ≤ t' ∧ t' ≤ t + 2 ^ 31

instance : DecidableRel Onward := fun t t' => inferInstanceAs (Decidable (t ≤ t' ∧ t' ≤ t + 2 ^ 31))

/-- The counter is on true time when `t` is read. -/
theorem tracks_run {t : Nat} : ∀ (past : List Nat) {m : MonotonicMs} {t₀ : Nat}, m.Tracks t₀ →
    (t₀ :: (past ++ [t])).IsChain Onward →
    ∃ t₁, ((past.map UInt32.ofNat).foldl MonotonicMs.advance m).Tracks t₁ ∧ Onward t₁ t
  | [], _, t₀, h, hchain => ⟨t₀, h, (List.isChain_cons_cons.mp hchain).1⟩
  | t' :: past, _, _, h, hchain => by
    obtain ⟨⟨hle, hgap⟩, hrest⟩ := List.isChain_cons_cons.mp hchain
    exact tracks_run past (advance_tracks h hle (by omega)) hrest

/-- **The millisecond counter counts true milliseconds**, for any running time; the only sum that must not overflow does
not. -/
theorem monotonic_exact {past : List Nat} {t : Nat} (hstart : ∀ t₀ ∈ (past ++ [t]).head?, t₀ < 2 ^ 32)
    (htimely : (past ++ [t]).IsChain Onward) :
    let m := (past.map UInt32.ofNat).foldl MonotonicMs.advance {}
    (m.advance (UInt32.ofNat t)).ms.toNat = t / 1000 % 2 ^ 32 ∧
      (m.init = true → (UInt32.ofNat t - m.lastUs).toNat + m.rem.toNat < 2 ^ 32) := by
  dsimp only
  have hread : ∀ t₀, t₀ < 2 ^ 32 → ((({} : MonotonicMs).advance (UInt32.ofNat t₀))).Tracks t₀ := by
    intro t₀ hlt
    have hfirst := advance_first (m := {}) rfl (UInt32.ofNat t₀)
    rwa [UInt32.toNat_ofNat', Nat.mod_eq_of_lt hlt] at hfirst
  cases past with
  | nil => exact ⟨(hread t (hstart t rfl)).ms, fun h => by cases h⟩
  | cons t₀ past =>
    obtain ⟨t₁, htracks, hle, hgap⟩ := tracks_run past (hread t₀ (hstart t₀ rfl)) htimely
    rw [List.map_cons, List.foldl_cons]
    refine ⟨(advance_tracks htracks hle (by omega)).ms, fun _ => ?_⟩
    rw [UInt32.toNat_sub, UInt32.toNat_ofNat', htracks.lastUs, htracks.rem]
    omega

/-- Over a wrap of the microseconds. -/
theorem monotonic_exact_wraps :
    (([4294967000].map UInt32.ofNat).foldl MonotonicMs.advance {}).advance (UInt32.ofNat 4294968500) =
      { lastUs := 1204, ms := 4294968, rem := 500, init := true } ∧
    ((([4294967000].map UInt32.ofNat).foldl MonotonicMs.advance {}).advance (UInt32.ofNat 4294968500)).ms.toNat =
      4294968500 / 1000 % 2 ^ 32 :=
  ⟨by decide, (@monotonic_exact [4294967000] 4294968500 (by simp) (by decide)).1⟩

end SlopSync
