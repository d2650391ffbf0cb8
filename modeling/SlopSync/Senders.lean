import Mathlib.Algebra.Order.Floor.Semiring
import Mathlib.Algebra.Order.Group.MinMax
import SlopSync.Buckets

/-! # Senders with a bucket of their own

A sender that gives itself what its own bucket holds, and is metered by another one.

- `Mirrors`: a relation of the two buckets under which the second one has what the first one has; `ok_of_mirrors`;
- `paced_bound`: a sender that is never refused sends no more than flows in;
- `Overruns`: a sender that can send more; `overruns_steady`, `overruns_faster` and `overruns_cycle` are three ways. -/

namespace Buckets

/-- What is asked for by ticks, each a pause and a number of tokens. -/
def timeline (now : Nat) : List (Nat × Nat) → List (Nat × Nat)
  | [] => []
  | (dt, n) :: ticks => List.replicate n (now + dt, 1) ++ timeline (now + dt) ticks

/-- One token at each tick. -/
def ones (dts : List Nat) : List (Nat × Nat) := dts.map fun dt => (dt, 1)

theorem chain_ones {m : Nat} : ∀ {dts : List Nat} (now : Nat), (∀ dt ∈ dts, dt < m) →
    (now :: (timeline now (ones dts)).map Prod.fst).IsChain fun t t' => t ≤ t' ∧ t' < t + m
  | [], now, _ => List.isChain_singleton now
  | dt :: _, now, hm =>
    have hdt := hm dt List.mem_cons_self
    List.isChain_cons_cons.mpr ⟨⟨Nat.le_add_right now dt, Nat.add_lt_add_left hdt now⟩,
      chain_ones (now + dt) fun dt' hdt' => hm dt' (List.mem_cons_of_mem _ hdt')⟩

section

variable {K : Type} [Field K]

def Bucket.spend (b : Bucket K) (n : Nat) : Bucket K := { b with level := b.level - n }

@[simp] theorem spend_rate (b : Bucket K) (n : Nat) : (b.spend n).rate = b.rate := rfl
@[simp] theorem spend_cap (b : Bucket K) (n : Nat) : (b.spend n).cap = b.cap := rfl
@[simp] theorem spend_level (b : Bucket K) (n : Nat) : (b.spend n).level = b.level - n := rfl

variable [LinearOrder K]

/-- After ticks that take what they ask for. -/
def Bucket.drive (s : Bucket K) : List (Nat × Nat) → Bucket K
  | [] => s
  | (dt, n) :: ticks => drive ((s.refill dt).spend n) ticks

/-- Each tick takes what there is. -/
def Paced (s : Bucket K) : List (Nat × Nat) → Prop
  | [] => True
  | (dt, n) :: ticks => (n : K) ≤ (s.refill dt).level ∧ Paced ((s.refill dt).spend n) ticks

variable {s h : Bucket K} {last now : Nat}

@[simp] theorem refill_rate (b : Bucket K) (dt : K) : (b.refill dt).rate = b.rate := rfl
@[simp] theorem refill_cap (b : Bucket K) (dt : K) : (b.refill dt).cap = b.cap := rfl
@[simp] theorem refill_level (b : Bucket K) (dt : K) : (b.refill dt).level = min b.cap (b.level + b.rate * dt) := rfl

theorem paced_append {ticks ticks' : List (Nat × Nat)} :
    Paced s (ticks ++ ticks') ↔ Paced s ticks ∧ Paced (s.drive ticks) ticks' := by
  induction ticks generalizing s with
  | nil => exact (true_and _).to_iff.symm
  | cons a ticks ih => exact (and_congr_right fun _ => ih).trans and_assoc.symm

theorem refill_zero (hcap : h.level ≤ h.cap) : h.refill 0 = h := by
  rw [Bucket.refill, mul_zero, add_zero, min_eq_right hcap]

variable [IsStrictOrderedRing K]

theorem refill_refill {d d' : K} (hflow : 0 ≤ h.rate * d') : (h.refill d).refill d' = h.refill (d + d') := by
  rw [Bucket.refill, Bucket.refill, Bucket.refill]
  dsimp only
  rw [mul_add, ← add_assoc, ← min_add_add_right, ← min_assoc, min_eq_left (by linarith : h.cap ≤ h.cap + h.rate * d')]

/-! ## A mirror -/

/-- The second bucket has what the first one has, now and later. -/
structure Mirrors (Inv : Bucket K → Bucket K → Prop) : Prop where
  wait : ∀ {s h : Bucket K} (dt : Nat), Inv s h → Inv (s.refill dt) (h.refill dt)
  give : ∀ {s h : Bucket K} {n : Nat}, Inv s h → 0 < n → (n : K) ≤ s.level →
    (n : K) ≤ h.level ∧ Inv (s.spend n) (h.spend n)

/-- Tokens asked for one by one at one time. -/
theorem serve_burst (n : Nat) {time : Nat} {asks : List (Nat × Nat)}
    (hn : ((n + 1 : Nat) : K) ≤ (h.refill ((time : K) - last)).level) :
    h.serve last (List.replicate (n + 1) (time, 1) ++ asks) =
      List.replicate (n + 1) ⟨time, 1, true⟩ ++ ((h.refill ((time : K) - last)).spend (n + 1)).serve time asks := by
  induction n generalizing h last with
  | zero =>
    rw [Nat.zero_add] at hn ⊢
    rw [List.replicate_one, List.singleton_append, Bucket.serve, Bucket.take, if_pos hn]
    rfl
  | succ n ih =>
    rw [List.replicate_succ, List.cons_append, Bucket.serve]
    have hpos : (0 : K) ≤ n := Nat.cast_nonneg n
    push_cast at hn
    have hone : ((1 : Nat) : K) ≤ (h.refill ((time : K) - last)).level := by
      rw [Nat.cast_one]
      linarith
    have hcap : (h.refill ((time : K) - last)).level ≤ (h.refill ((time : K) - last)).cap := min_le_left _ _
    rw [Bucket.take, if_pos hone]
    change _ :: ((h.refill ((time : K) - last)).spend 1).serve time _ = _
    generalize h.refill ((time : K) - last) = h' at hn hcap hone ⊢
    have hkeep : (h'.spend 1).refill ((time : K) - time) = h'.spend 1 := by
      rw [sub_self]
      exact refill_zero ((sub_le_self _ (Nat.cast_nonneg 1)).trans hcap)
    have hspend : (h'.spend 1).spend (n + 1) = h'.spend (n + 1 + 1) := by
      simp only [Bucket.spend]
      push_cast
      ring_nf
    rw [ih (by rw [hkeep, spend_level]; push_cast; linarith), hkeep, hspend]
    rfl

/-- **A sender that mirrors is never refused.** -/
theorem ok_of_mirrors {Inv : Bucket K → Bucket K → Prop} (hinv : Mirrors Inv) {ticks : List (Nat × Nat)}
    (hrate : 0 ≤ h.rate) (hcap : h.level ≤ h.cap) (hle : last ≤ now) (hstart : Inv s (h.refill ((now : K) - last)))
    (hpaced : Paced s ticks) : ∀ x ∈ h.serve last (timeline now ticks), x.ok = true := by
  induction ticks generalizing s h last now with
  | nil => exact fun x hx => absurd hx List.not_mem_nil
  | cons a ticks ih =>
    obtain ⟨dt, n⟩ := a
    obtain ⟨hn, hrest⟩ := hpaced
    have hwait := hinv.wait dt hstart
    have hsum : (h.refill ((now : K) - last)).refill dt = h.refill (((now + dt : Nat) : K) - last) := by
      rw [refill_refill (mul_nonneg hrate (Nat.cast_nonneg dt))]
      push_cast
      ring_nf
    rw [hsum] at hwait
    cases n with
    | zero =>
      have hsame : (s.refill dt).spend 0 = s.refill dt := by
        rw [Bucket.spend, Nat.cast_zero, sub_zero]
      rw [hsame] at hrest
      exact ih hrate hcap (Nat.le_add_right_of_le hle) hwait hrest
    | succ n =>
      obtain ⟨hgiven, hnext⟩ := hinv.give hwait (Nat.succ_pos n) hn
      intro x hx
      rw [timeline, serve_burst n hgiven] at hx
      rcases List.mem_append.mp hx with hx | hx
      · rw [List.eq_of_mem_replicate hx]
      · have hfull : (h.refill (((now + dt : Nat) : K) - last)).level ≤ h.cap := min_le_left _ _
        have hless : ((h.refill (((now + dt : Nat) : K) - last)).spend (n + 1)).level ≤ h.cap :=
          (sub_le_self _ (Nat.cast_nonneg _)).trans hfull
        refine ih (h := (h.refill (((now + dt : Nat) : K) - last)).spend (n + 1)) hrate hless (le_refl _) ?_ hrest x hx
        rw [sub_self, refill_zero hless]
        exact hnext

/-- A bucket that is not smaller and does not fill more slowly. -/
theorem mirrors_le : Mirrors fun s h : Bucket K => s.rate ≤ h.rate ∧ s.cap ≤ h.cap ∧ s.level ≤ h.level where
  wait dt hinv := by
    obtain ⟨hrate, hcap, hlevel⟩ := hinv
    have hflow := mul_le_mul_of_nonneg_right hrate (Nat.cast_nonneg (α := K) dt)
    exact ⟨hrate, hcap, min_le_min hcap (by linarith)⟩
  give hinv _ hn := by
    obtain ⟨hrate, hcap, hlevel⟩ := hinv
    exact ⟨hn.trans hlevel, hrate, hcap, sub_le_sub_right hlevel _⟩

/-- A bucket that never holds a token. -/
theorem mirrors_small : Mirrors fun s _ : Bucket K => s.cap < 1 ∧ s.level < 1 where
  wait _ hinv := ⟨hinv.1, (min_le_left _ _).trans_lt hinv.1⟩
  give {s _ n} hinv hpos hn := by
    have hone : ((1 : Nat) : K) ≤ n := Nat.cast_le.mpr hpos
    rw [Nat.cast_one] at hone
    exact absurd (hone.trans hn) (not_le.mpr hinv.2)

/-- A token at a time: by the time the sender has another one, what was taken has flowed in again. -/
theorem mirrors_single : Mirrors fun s h : Bucket K => s.cap ≤ h.cap ∧ s.cap < 2 ∧ 0 ≤ h.rate ∧ s.level ≤ s.cap ∧
    (∀ d : Nat, 1 ≤ s.cap - 1 + s.rate * d → 1 ≤ h.rate * d) ∧
    ∀ d : Nat, 1 ≤ s.level + s.rate * d → h.cap ≤ h.level + h.rate * d where
  wait {s h} dt hinv := by
    obtain ⟨hcap, htwo, hrate, hlevel, hslow, hready⟩ := hinv
    refine ⟨hcap, htwo, hrate, min_le_left _ _, hslow, fun d hd => ?_⟩
    have hlater : 1 ≤ s.level + s.rate * (dt + d : Nat) := by
      have hle : (s.refill (dt : K)).level ≤ s.level + s.rate * dt := min_le_right _ _
      push_cast
      rw [refill_rate] at hd
      linarith
    have hfull := hready (dt + d) hlater
    push_cast at hfull
    rw [refill_cap, refill_level, refill_rate]
    have hflow : 0 ≤ h.rate * d := mul_nonneg hrate (Nat.cast_nonneg d)
    rcases min_cases h.cap (h.level + h.rate * dt) with ⟨hmin, -⟩ | ⟨hmin, -⟩ <;>
    · rw [hmin]
      linarith
  give {s h n} hinv hpos hn := by
    obtain ⟨hcap, htwo, hrate, hlevel, hslow, hready⟩ := hinv
    have hsingle : n = 1 := by
      have hlt : (n : K) < (2 : Nat) := by
        push_cast
        linarith
      have := Nat.cast_lt.mp hlt
      omega
    subst hsingle
    rw [Nat.cast_one] at hn
    have hnow := hready 0 (by rw [Nat.cast_zero, mul_zero, add_zero]; exact hn)
    rw [Nat.cast_zero, mul_zero, add_zero] at hnow
    refine ⟨by push_cast; linarith, hcap, htwo, hrate, (sub_le_self _ (Nat.cast_nonneg _)).trans hlevel, hslow,
      fun d hd => ?_⟩
    rw [spend_level, spend_rate] at hd
    push_cast at hd
    have hflow := hslow d (by linarith)
    rw [spend_cap, spend_level, spend_rate]
    push_cast
    linarith

/-! ## Overruns -/

/-- What is never refused has flowed in. -/
theorem paced_bound {dts : List Nat} (hrate : 0 ≤ h.rate) (hlow : 0 ≤ h.level) (hle : last ≤ now)
    (hok : ∀ x ∈ h.serve last (timeline now (ones dts)), x.ok = true) :
    (dts.length : K) ≤ h.level + h.rate * ((now : K) - last) + h.rate * (dts.sum : Nat) := by
  have hwait : 0 ≤ h.rate * ((now : K) - last) := mul_nonneg hrate (sub_nonneg.mpr (by exact_mod_cast hle))
  induction dts generalizing h last now with
  | nil =>
    rw [List.length_nil, List.sum_nil, Nat.cast_zero, mul_zero, add_zero]
    linarith
  | cons dt dts ih =>
    have hgive := hok _ List.mem_cons_self
    have htail := fun x hx => hok x (List.mem_cons_of_mem _ hx)
    have hlevel : (h.refill (((now + dt : Nat) : K) - last)).level ≤ h.level + h.rate * (((now + dt : Nat) : K) - last) :=
      min_le_right _ _
    have hrate' : (h.refill (((now + dt : Nat) : K) - last)).rate = h.rate := rfl
    dsimp only at hgive htail
    generalize h.refill (((now + dt : Nat) : K) - last) = h' at hgive htail hlevel hrate'
    have hone : ((1 : Nat) : K) ≤ h'.level := by
      by_contra hnone
      rw [Bucket.take, if_neg hnone] at hgive
      cases hgive
    rw [Bucket.take, if_pos hone] at htail
    have hzero : 0 ≤ h'.rate * (((now + dt : Nat) : K) - (now + dt : Nat)) := by rw [sub_self, mul_zero]
    have hrest := @ih (h'.spend 1) (now + dt) (now + dt) (by rw [spend_rate, hrate']; exact hrate)
      (sub_nonneg.mpr hone) (le_refl _) htail hzero
    rw [spend_level, spend_rate, hrate', sub_self, mul_zero] at hrest
    rw [List.length_cons, List.sum_cons]
    push_cast at hrest hlevel ⊢
    linarith

/-- More at one token a tick, with pauses of no more than `longest`, than flows into the second bucket meanwhile. -/
def Overruns (longest : Nat) (s h : Bucket K) : Prop :=
  ∃ dts, (∀ dt ∈ dts, dt ≤ longest) ∧ Paced s (ones dts) ∧ h.level + h.rate * (dts.sum : Nat) < dts.length

theorem overruns_of_slope [Archimedean K] {longest : Nat} {c slope : K} (hslope : slope < 1)
    (hmore : ∀ n : Nat, ∃ dts, (∀ dt ∈ dts, dt ≤ longest) ∧ Paced s (ones dts) ∧
      h.level + h.rate * (dts.sum : Nat) + (n + 1 : Nat) ≤ c + slope * n + dts.length) : Overruns longest s h := by
  by_contra hnot
  refine drip_unbounded (c := c) hslope fun n => ?_
  obtain ⟨dts, hlong, hpaced, hbound⟩ := hmore n
  have hle : (dts.length : K) ≤ h.level + h.rate * (dts.sum : Nat) :=
    not_lt.mp fun hlt => hnot ⟨dts, hlong, hpaced, hlt⟩
  linarith

theorem paced_replicate {gap : Nat} (n : Nat) (hcap : 1 ≤ s.cap) (hlow : 0 ≤ s.level) (hgap : 1 ≤ s.rate * gap) :
    Paced s (ones (List.replicate n gap)) := by
  induction n generalizing s with
  | zero => trivial
  | succ n ih =>
    have hone : 1 ≤ (s.refill (gap : K)).level := le_min hcap (by linarith)
    refine ⟨by push_cast; exact hone, ih hcap ?_ hgap⟩
    rw [spend_level, Nat.cast_one]
    exact sub_nonneg.mpr hone

/-- A sender that has a token every `gap`. -/
theorem overruns_steady [Archimedean K] {gap longest : Nat} (hlong : gap ≤ longest) (hcap : 1 ≤ s.cap) (hlow : 0 ≤ s.level)
    (hgap : 1 ≤ s.rate * gap) (hslow : h.rate * gap < 1) : Overruns longest s h := by
  refine overruns_of_slope (c := h.level + h.rate * gap) hslow fun n => ⟨List.replicate (n + 1) gap,
    fun dt hdt => (List.eq_of_mem_replicate hdt).trans_le hlong, paced_replicate (n + 1) hcap hlow hgap, ?_⟩
  rw [List.length_replicate, List.sum_replicate_nat]
  push_cast
  linarith

/-- The shortest pauses after which there is a token, from a level of `c`. -/
def shortest [FloorSemiring K] (rate : K) : Nat → K → List Nat
  | 0, _ => []
  | n + 1, c => ⌈(1 - c) / rate⌉₊ :: shortest rate n (c + rate * (⌈(1 - c) / rate⌉₊ : Nat) - 1)

theorem shortest_spec [FloorSemiring K] {longest : Nat} (n : Nat) (hrate : 0 < s.rate) (hlong : 1 ≤ s.rate * longest)
    (hroom : 1 + s.rate ≤ s.cap) (hlow : 0 ≤ s.level) (hcap : s.level ≤ s.cap) :
    (shortest s.rate n s.level).length = n ∧ (∀ dt ∈ shortest s.rate n s.level, dt ≤ longest) ∧
      Paced s (ones (shortest s.rate n s.level)) ∧
      s.rate * ((shortest s.rate n s.level).sum : Nat) ≤ n + (s.cap - s.level) := by
  induction n generalizing s with
  | zero =>
    refine ⟨rfl, fun dt hdt => absurd hdt List.not_mem_nil, trivial, ?_⟩
    rw [shortest, List.sum_nil, Nat.cast_zero, mul_zero]
    linarith
  | succ n ih =>
    generalize hd : ⌈(1 - s.level) / s.rate⌉₊ = d
    have henough : 1 ≤ s.level + s.rate * d := by
      have hle := Nat.le_ceil ((1 - s.level) / s.rate)
      rw [hd, div_le_iff₀ hrate] at hle
      linarith
    -- the pause is no longer than it must be
    have hfits : s.level + s.rate * d ≤ s.cap := by
      cases d with
      | zero =>
        rw [Nat.cast_zero, mul_zero, add_zero]
        exact hcap
      | succ d =>
        have hlt : d < ⌈(1 - s.level) / s.rate⌉₊ := by omega
        have hshort := Nat.lt_ceil.mp hlt
        rw [lt_div_iff₀ hrate] at hshort
        push_cast
        linarith
    have hrefill : (s.refill (d : K)).level = s.level + s.rate * d := min_eq_right hfits
    have hnext : ((s.refill (d : K)).spend 1).level = s.level + s.rate * d - 1 := by
      rw [spend_level, hrefill, Nat.cast_one]
    obtain ⟨hlength, hall, hpaced, hsum⟩ := @ih ((s.refill (d : K)).spend 1) hrate hlong hroom
      (by rw [hnext]; linarith) (by rw [hnext]; exact (sub_le_self _ zero_le_one).trans hfits)
    rw [hnext] at hlength hall hpaced hsum
    have hd' : d ≤ longest := by
      rw [← hd]
      refine Nat.ceil_le.mpr ((div_le_iff₀ hrate).mpr ?_)
      linarith
    rw [shortest, hd]
    refine ⟨by rw [List.length_cons]; exact congrArg (· + 1) hlength, List.forall_mem_cons.mpr ⟨hd', hall⟩,
      ⟨?_, hpaced⟩, ?_⟩
    · rw [hrefill, Nat.cast_one]
      exact henough
    · rw [List.sum_cons, Nat.cast_add, Nat.cast_succ]
      have hsum' : s.rate * ((shortest s.rate n (s.level + s.rate * d - 1)).sum : Nat) ≤
          n + (s.cap - (s.level + s.rate * d - 1)) := hsum
      linarith

/-- A sender that fills faster, with room for what flows in between two looks at the clock. -/
theorem overruns_faster [Archimedean K] [FloorSemiring K] {longest : Nat} (hrate : 0 < s.rate)
    (hlong : 1 ≤ s.rate * longest) (hroom : 1 + s.rate ≤ s.cap) (hlow : 0 ≤ s.level) (hcap : s.level ≤ s.cap)
    (hpos : 0 ≤ h.rate) (hslow : h.rate < s.rate) : Overruns longest s h := by
  have hslope : h.rate / s.rate < 1 := (div_lt_one hrate).mpr hslow
  refine overruns_of_slope (c := h.level + h.rate / s.rate * (1 + s.cap)) hslope fun n => ?_
  obtain ⟨hlength, hall, hpaced, hsum⟩ := shortest_spec (n + 1) hrate hlong hroom hlow hcap
  refine ⟨_, hall, hpaced, ?_⟩
  rw [hlength]
  have hflow : h.rate * ((shortest s.rate (n + 1) s.level).sum : Nat) ≤ h.rate / s.rate * ((n + 1 : Nat) + s.cap) := by
    rw [div_mul_eq_mul_div, le_div_iff₀ hrate, mul_assoc]
    refine mul_le_mul_of_nonneg_left ?_ hpos
    rw [mul_comm]
    linarith
  push_cast at hflow ⊢
  linarith

/-- A token after every `gap`, from one that was given. -/
theorem drive_replicate {gap : Nat} (n : Nat) (hcap : s.level ≤ s.cap - 1) (hgap : 1 ≤ s.rate * gap) :
    s.drive (ones (List.replicate n gap)) = { s with level := min (s.cap - 1) (s.level + n * (s.rate * gap - 1)) } := by
  induction n generalizing s with
  | zero =>
    rw [Nat.cast_zero, zero_mul, add_zero, min_eq_right hcap]
    rfl
  | succ n ih =>
    have hnext : ((s.refill (gap : K)).spend 1).level = min (s.cap - 1) (s.level + (s.rate * gap - 1)) := by
      rw [spend_level, refill_level, Nat.cast_one, ← min_sub_sub_right, add_sub_assoc]
    have hrest := @ih ((s.refill (gap : K)).spend 1) (by rw [hnext]; exact min_le_left _ _) hgap
    refine hrest.trans ?_
    rw [hnext]
    have hgain : 0 ≤ (n : K) * (s.rate * gap - 1) := mul_nonneg (Nat.cast_nonneg n) (by linarith)
    have hsum : s.level + (s.rate * gap - 1) + n * (s.rate * gap - 1) = s.level + (n + 1 : Nat) * (s.rate * gap - 1) := by
      push_cast
      ring
    have hmin : min (s.cap - 1) (min (s.cap - 1) (s.level + (s.rate * gap - 1)) + n * (s.rate * gap - 1)) =
        min (s.cap - 1) (s.level + (n + 1 : Nat) * (s.rate * gap - 1)) := by
      rw [← min_add_add_right, ← min_assoc, min_eq_left (by linarith : s.cap - 1 ≤ s.cap - 1 + n * (s.rate * gap - 1)), hsum]
    exact congrArg (Bucket.mk s.rate s.cap) hmin

/-- A sender that has a token every `gap`, and now and then a little sooner. -/
theorem overruns_cycle [Archimedean K] {gap : Nat} (hpos : 0 ≤ h.rate) (hslow : h.rate * (gap + 1 : Nat) ≤ 1)
    (hfull : s.level = s.cap) (hcap : 1 ≤ s.cap) (hfast : 1 < s.rate * (gap + 1 : Nat))
    (hsoon : 2 ≤ s.cap + s.rate * gap) : Overruns (gap + 1) s h := by
  -- after so many long pauses the bucket is full again
  obtain ⟨k, hk⟩ := exists_nat_gt ((s.cap - 1) / (s.rate * (gap + 1 : Nat) - 1))
  rw [div_lt_iff₀ (by linarith)] at hk
  let cycle := gap :: List.replicate k (gap + 1)
  let given : Bucket K := { s with level := s.cap - 1 }
  have hcycle : Paced given (ones cycle) ∧ given.drive (ones cycle) = given := by
    have hone : 1 ≤ (given.refill (gap : K)).level := by
      refine le_min hcap ?_
      change 1 ≤ s.cap - 1 + s.rate * gap
      linarith
    have hlow : 0 ≤ ((given.refill (gap : K)).spend 1).level := by
      rw [spend_level, Nat.cast_one]
      exact sub_nonneg.mpr hone
    have hhigh : ((given.refill (gap : K)).spend 1).level ≤ s.cap - 1 := by
      rw [spend_level, Nat.cast_one]
      exact sub_le_sub_right (min_le_left _ _) 1
    refine ⟨⟨by push_cast; exact hone, paced_replicate k hcap hlow hfast.le⟩, ?_⟩
    refine (drive_replicate k hhigh hfast.le).trans (congrArg (Bucket.mk s.rate s.cap) (min_eq_left ?_))
    change s.cap - 1 ≤ _ + (k : K) * (s.rate * (gap + 1 : Nat) - 1)
    linarith
  have hcycles : ∀ n, Paced given (ones (List.replicate n cycle).flatten) := by
    intro n
    induction n with
    | zero => trivial
    | succ n ih =>
      rw [List.replicate_succ, List.flatten_cons, ones, List.map_append]
      refine paced_append.mpr ⟨hcycle.1, ?_⟩
      have hsame : given.drive (cycle.map fun dt => (dt, 1)) = given := hcycle.2
      rw [hsame]
      exact ih
  have hall : ∀ n, ∀ dt ∈ (List.replicate n cycle).flatten, dt ≤ gap + 1 := by
    intro n dt hdt
    obtain ⟨l, hl, hdt⟩ := List.mem_flatten.mp hdt
    rw [List.eq_of_mem_replicate hl] at hdt
    rcases List.mem_cons.mp hdt with rfl | hdt
    · exact Nat.le_succ _
    · exact (List.eq_of_mem_replicate hdt).le
  have hlength : ∀ n, (List.replicate n cycle).flatten.length = n * (k + 1) := by
    intro n
    rw [List.length_flatten, List.map_replicate, List.sum_replicate_nat, List.length_cons, List.length_replicate]
  have hsum : ∀ n, (List.replicate n cycle).flatten.sum = n * (gap + k * (gap + 1)) := by
    intro n
    rw [List.sum_flatten, List.map_replicate, List.sum_replicate_nat, List.sum_cons, List.sum_replicate_nat]
  push_cast at hslow
  have hslope : h.rate * gap < 1 := by
    rcases hpos.eq_or_lt with hzero | hlt
    · rw [← hzero, zero_mul]
      exact one_pos
    · linarith
  have hstart : (s.refill ((0 : Nat) : K)).level = s.cap := by
    rw [refill_level, Nat.cast_zero, mul_zero, add_zero, hfull, min_self]
  refine overruns_of_slope (c := h.level) hslope fun n => ⟨0 :: (List.replicate n cycle).flatten,
    List.forall_mem_cons.mpr ⟨Nat.zero_le _, hall n⟩, ⟨?_, ?_⟩, ?_⟩
  · rw [hstart, Nat.cast_one]
    exact hcap
  · have hgiven : (s.refill ((0 : Nat) : K)).spend 1 = given := by
      refine congrArg (Bucket.mk s.rate s.cap) ?_
      rw [hstart, Nat.cast_one]
    rw [hgiven]
    exact hcycles n
  · rw [List.length_cons, List.sum_cons, hlength, hsum]
    push_cast
    have hmost := mul_le_mul_of_nonneg_left hslow (mul_nonneg (Nat.cast_nonneg (α := K) n) (Nat.cast_nonneg (α := K) k))
    linarith

/-- A sender that overruns is refused. -/
theorem Overruns.refused {longest : Nat} (hover : Overruns longest s h) (hrate : 0 ≤ h.rate) (hlow : 0 ≤ h.level)
    (now : Nat) : ∃ dts, (∀ dt ∈ dts, dt ≤ longest) ∧ Paced s (ones dts) ∧
      ∃ x ∈ h.serve now (timeline now (ones dts)), x.ok = false := by
  obtain ⟨dts, hlong, hpaced, hlt⟩ := hover
  refine ⟨dts, hlong, hpaced, ?_⟩
  by_contra hnone
  have hok : ∀ x ∈ h.serve now (timeline now (ones dts)), x.ok = true := fun x hx =>
    Bool.eq_true_of_not_eq_false fun hfalse => hnone ⟨x, hx, hfalse⟩
  have hle := paced_bound hrate hlow (le_refl now) hok
  rw [sub_self, mul_zero, add_zero] at hle
  exact absurd hlt (not_lt.mpr hle)

end

end Buckets
