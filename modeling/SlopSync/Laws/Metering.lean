import Mathlib.Data.Rat.Floor
import SlopSync.Buckets
import SlopSync.Laws.Rates

/-! # Publish metering

The limiter of a publish grant is a token bucket that is looked at only when a bundle comes.

- `Follows`: a limiter and the bucket it stands for; a bundle keeps it (`Follows.allowN`), so the limiter serves a
  channel as the bucket does (`Follows.meter`);
- `Honoured`: what a grant promises about the bundles it meters;
- `metering_iff`: the grants that keep the promise, by the whole tokens that a second brings. -/

namespace SlopSync

open Buckets

/-- A bundle as the limiter met it. -/
structure Metered where
  before : IngressRateLimiter
  atMs : Nat
  samples : Nat

namespace Metered

def accepted (x : Metered) : Bool := (x.before.allowN (UInt32.ofNat x.atMs) x.samples).1
def after (x : Metered) : IngressRateLimiter := (x.before.allowN (UInt32.ofNat x.atMs) x.samples).2
def draw (x : Metered) : Draw := ⟨x.atMs, x.samples, x.accepted⟩

end Metered

/-- The bundles of a channel, each a time and a number of samples. -/
def IngressRateLimiter.meter (l : IngressRateLimiter) : List (Nat × Nat) → List Metered
  | [] => []
  | (atMs, samples) :: rest => ⟨l, atMs, samples⟩ :: (Metered.mk l atMs samples).after.meter rest

/-- Each bundle comes less than half a wrap of the clock after the one before it. -/
def Timely (startMs : Nat) (bundles : List (Nat × Nat)) : Prop :=
  (startMs :: bundles.map Prod.fst).IsChain fun t t' => t ≤ t' ∧ t' < t + 2 ^ 31

/-- No window holds more samples than the burst and the rate allow, a refusal costs nothing, and one sample that has
waited for its turn is accepted. -/
structure Honoured (r b : ℚ) (log : List Metered) : Prop where
  within : ∀ start stop : Nat, start ≤ stop →
    (taken start stop (log.map Metered.draw) : ℚ) ≤ b + r * ((stop : ℚ) - start) / 1000
  whole : ∀ x ∈ log, x.accepted = false → x.after.tokens = (x.before.refill (UInt32.ofNat x.atMs)).tokens
  prompt : Prompt (1000 / r) (log.map Metered.draw)

/-- A limiter at `t` and its bucket, which fills by the millisecond. -/
structure Follows (l : IngressRateLimiter) (b : Bucket ℚ) (t : Nat) : Prop where
  rate : b.rate = (l.ratePerSec.toNat : ℚ) / 1000
  cap : l.capacity = .fin b.cap
  level : l.tokens = .fin b.level
  le : b.level ≤ b.cap
  lastMs : l.lastMs = UInt32.ofNat t

section

variable {l : IngressRateLimiter} {b : Bucket ℚ} {t t' : Nat}

theorem Follows.refill (h : Follows l b t) (hle : t ≤ t') (hgap : t' < t + 2 ^ 31) :
    Follows (l.refill (UInt32.ofNat t')) (b.refill ((t' : ℚ) - t)) t' := by
  have hdelta : timeDelta (UInt32.ofNat t') l.lastMs = (t' : Int) - t := by
    rw [h.lastMs, timeDelta_ofNat hle hgap]
  unfold IngressRateLimiter.refill
  dsimp only
  rw [hdelta]
  split
  · -- no time has passed
    have heq : t' = t := by omega
    subst heq
    have hsame : b.refill ((t' : ℚ) - t') = b := by
      rw [Bucket.refill, sub_self, mul_zero, add_zero, min_eq_right h.le]
    rw [hsame]
    exact h
  · have hflow : (((t' : Int) - t : Int) : ℚ) / 1000 * (l.ratePerSec.toNat : ℚ) = b.rate * ((t' : ℚ) - t) := by
      rw [h.rate]
      push_cast
      ring
    refine ⟨h.rate, h.cap, ?_, min_le_left _ _, rfl⟩
    dsimp only
    rw [h.level, h.cap, hflow]
    rw [F32.add, F32.lt_fin]
    by_cases hover : b.cap < b.level + b.rate * ((t' : ℚ) - t)
    · rw [decide_eq_true hover, if_pos rfl]
      exact congrArg F32.fin (min_eq_left hover.le).symm
    · rw [decide_eq_false hover, if_neg Bool.false_ne_true]
      exact congrArg F32.fin (min_eq_right (not_lt.mp hover)).symm

/-- **One bundle**: the limiter answers as its bucket does. -/
theorem Follows.allowN (h : Follows l b t) (hle : t ≤ t') (hgap : t' < t + 2 ^ 31) (n : Nat) :
    (l.allowN (UInt32.ofNat t') n).1 = ((b.refill ((t' : ℚ) - t)).take (n : ℚ)).1 ∧
      Follows (l.allowN (UInt32.ofNat t') n).2 ((b.refill ((t' : ℚ) - t)).take (n : ℚ)).2 t' := by
  have hnow := h.refill hle hgap
  unfold IngressRateLimiter.allowN
  dsimp only
  generalize l.refill (UInt32.ofNat t') = l' at hnow
  generalize b.refill ((t' : ℚ) - t) = b' at hnow
  unfold Bucket.take
  rw [hnow.level, F32.ofNat, F32.le_fin]
  by_cases hn : (n : ℚ) ≤ b'.level
  · rw [decide_eq_true hn, if_pos rfl, if_pos hn]
    have hpos : (0 : ℚ) ≤ n := Nat.cast_nonneg n
    refine ⟨rfl, hnow.rate, hnow.cap, ?_, (sub_le_self _ hpos).trans hnow.le, hnow.lastMs⟩
    exact congrArg F32.fin (sub_eq_add_neg _ _).symm
  · rw [decide_eq_false hn, if_neg Bool.false_ne_true, if_neg hn]
    exact ⟨rfl, hnow⟩

/-- **A run of bundles.** -/
theorem Follows.meter {bundles : List (Nat × Nat)} (h : Follows l b t) (htimely : Timely t bundles) :
    (l.meter bundles).map Metered.draw = b.serve t bundles := by
  induction bundles generalizing l b t with
  | nil => rfl
  | cons a bundles ih =>
    obtain ⟨atMs, samples⟩ := a
    obtain ⟨⟨hle, hgap⟩, hrest⟩ := List.isChain_cons_cons.mp htimely
    obtain ⟨hok, hnext⟩ := h.allowN hle hgap samples
    have htail := ih hnext hrest
    rw [IngressRateLimiter.meter, List.map_cons, Bucket.serve, Metered.after, htail]
    dsimp only [Metered.draw, Metered.accepted]
    rw [hok]

theorem Timely.ordered {bundles : List (Nat × Nat)} (h : Timely t bundles) : Ordered t bundles :=
  h.imp fun _ _ hstep => hstep.1

end

/-! ## Grants -/

/-- The tokens that come in a second. -/
def tokensPerSec (r : ℚ) : Nat := (refillRate (.fin r)).toNat

theorem tokensPerSec_slow {r : ℚ} (hr : r < 1) : tokensPerSec r = 1 := by
  have hlt : (F32.fin r).lt (.ofNat 1) = true := decide_eq_true (by exact_mod_cast hr)
  rw [tokensPerSec, refillRate, hlt]
  rfl

/-- From one a second on they are cut down to a whole number. -/
theorem tokensPerSec_le {r : ℚ} (hr : 1 ≤ r) : (tokensPerSec r : ℚ) ≤ r := by
  have hlt : (F32.fin r).lt (.ofNat 1) = false := decide_eq_false (by push_cast; exact not_lt.mpr hr)
  rw [tokensPerSec, refillRate, hlt, if_neg Bool.false_ne_true, F32.toUInt32, UInt32.toNat_ofNat']
  have hfloor : 0 ≤ r.floor := Int.floor_nonneg.mpr (zero_le_one.trans hr)
  have hle : ((r.floor.toNat % 2 ^ 32 : Nat) : ℚ) ≤ (r.floor.toNat : Nat) := by exact_mod_cast Nat.mod_le _ _
  have hcast : ((r.floor.toNat : Nat) : ℚ) = (r.floor : Int) := by
    exact_mod_cast congrArg (Int.cast (R := ℚ)) (Int.toNat_of_nonneg hfloor)
  have hfl : ((r.floor : Int) : ℚ) ≤ r := Int.floor_le r
  exact hle.trans (hcast.le.trans hfl)

/-- And below `2 ^ 32` it is the whole number below the rate. -/
theorem tokensPerSec_eq {r : ℚ} (hr : 1 ≤ r) (hsmall : r < 2 ^ 32) : tokensPerSec r = ⌊r⌋₊ := by
  have hlt : (F32.fin r).lt (.ofNat 1) = false := decide_eq_false (by push_cast; exact not_lt.mpr hr)
  have hfloor : r.floor.toNat = ⌊r⌋₊ := rfl
  have hbound : ⌊r⌋₊ < 2 ^ 32 := (Nat.floor_lt (zero_le_one.trans hr)).mpr (by exact_mod_cast hsmall)
  rw [tokensPerSec, refillRate, hlt, if_neg Bool.false_ne_true, F32.toUInt32, UInt32.toNat_ofNat', hfloor,
    Nat.mod_eq_of_lt hbound]

/-- A full bucket of depth `b` that `rate` whole tokens flow into each second. -/
def fullBucket (rate : Nat) (b : ℚ) : Bucket ℚ := { rate := (rate : ℚ) / 1000, cap := b, level := b }

theorem follows_make {rate : UInt32} {b : ℚ} (hb : 0 < b) (startMs : Nat) :
    Follows (.make rate (UInt32.ofNat startMs) (.fin b)) (fullBucket rate.toNat b) startMs := by
  rw [make_burst (show F32.lt 0 (.fin b) = true from decide_eq_true hb)]
  exact ⟨rfl, rfl, rfl, le_refl b, rfl⟩

section

variable {l : IngressRateLimiter} {rate startMs : Nat} {r b : ℚ}

theorem meter_whole (l : IngressRateLimiter) (bundles : List (Nat × Nat)) :
    ∀ x ∈ l.meter bundles, x.accepted = false → x.after.tokens = (x.before.refill (UInt32.ofNat x.atMs)).tokens := by
  intro x _ hrefused
  unfold Metered.accepted IngressRateLimiter.allowN at hrefused
  unfold Metered.after IngressRateLimiter.allowN
  dsimp only at hrefused ⊢
  split at hrefused
  · cases hrefused
  · rename_i hshort
    rw [if_neg hshort]

/-- Enough tokens flow in, and not too many. -/
theorem honoured_of_rate (h : Follows l (fullBucket rate b) startMs) (hr : 1 ≤ r) (hb : r ≤ b) (hrate : (rate : ℚ) ≤ r)
    (hgap : 1000 ≤ rate * ⌈1000 / r⌉₊) {bundles : List (Nat × Nat)} (htimely : Timely startMs bundles) :
    Honoured r b (l.meter bundles) := by
  have hpos : (0 : ℚ) ≤ (rate : ℚ) / 1000 := div_nonneg (Nat.cast_nonneg _) (by norm_num)
  have hserve := h.meter htimely
  constructor
  case within =>
    intro start stop hwindow
    have hspan : (0 : ℚ) ≤ (stop : ℚ) - start := sub_nonneg.mpr (by exact_mod_cast hwindow)
    have hmore : (rate : ℚ) / 1000 * ((stop : ℚ) - start) ≤ r * ((stop : ℚ) - start) / 1000 := by
      have := mul_le_mul_of_nonneg_right hrate hspan
      linarith
    rw [hserve]
    by_cases hover : stop < startMs
    · rw [taken_over _ hover htimely.ordered, Nat.cast_zero]
      have := mul_nonneg hpos hspan
      linarith
    · have hopen : startMs ≤ stop := Nat.not_lt.mp hover
      refine (taken_le (b := fullBucket rate b) hpos (by show (0 : ℚ) ≤ b; linarith) (le_refl b) htimely.ordered hwindow
        hopen).trans ?_
      split
      · change b + (rate : ℚ) / 1000 * ((stop : ℚ) - start) ≤ _
        linarith
      · rename_i hlate
        have hstart : (start : ℚ) ≤ startMs := by exact_mod_cast Nat.not_lt.mp hlate
        have hshorter : (rate : ℚ) / 1000 * ((stop : ℚ) - startMs) ≤ (rate : ℚ) / 1000 * ((stop : ℚ) - start) :=
          mul_le_mul_of_nonneg_left (by linarith) hpos
        change b + (rate : ℚ) / 1000 * ((stop : ℚ) - startMs) ≤ _
        linarith
  case whole => exact meter_whole l bundles
  case prompt =>
    rw [hserve]
    refine prompt_serve hpos rfl (hr.trans hb) (fun d hd => ?_) htimely.ordered
    have hceil : rate * ⌈1000 / r⌉₊ ≤ rate * d := Nat.mul_le_mul_left rate (Nat.ceil_le.mpr hd)
    have hcast : (1000 : ℚ) ≤ (rate * d : Nat) := by exact_mod_cast hgap.trans hceil
    rw [Nat.cast_mul] at hcast
    change (1 : ℚ) ≤ (rate : ℚ) / 1000 * d
    linarith

/-- Bundles of one sample in a drip; what the bucket gives, and what it can have. -/
theorem drip_bound (h : Follows l (fullBucket rate b) startMs) (hb : 0 ≤ b) {d : Nat} (hd : d < 2 ^ 31) {gap : ℚ}
    (hgap : gap ≤ d) (hprompt : ∀ n, Prompt gap ((l.meter (drip startMs d n)).map Metered.draw)) (n : Nat) :
    taken startMs (startMs + n * d) ((l.meter (drip startMs d (n + 1))).map Metered.draw) = n + 1 ∧
      ((n + 1 : Nat) : ℚ) ≤ b + (rate : ℚ) * d / 1000 * n := by
  have htimely : Timely startMs (drip startMs d (n + 1)) := chain_drip (le_refl _) (by omega) hd
  have hserve := h.meter htimely
  have hpos : (0 : ℚ) ≤ (rate : ℚ) / 1000 := div_nonneg (Nat.cast_nonneg _) (by norm_num)
  have hp := hprompt (n + 1)
  rw [hserve] at hp ⊢
  have htaken := taken_drip hp hgap
  refine ⟨htaken, ?_⟩
  have hle := taken_le (b := fullBucket rate b) hpos hb (le_refl b) htimely.ordered
    (Nat.le_add_right startMs (n * d)) (Nat.le_add_right startMs (n * d))
  rw [htaken, if_neg (Nat.lt_irrefl _)] at hle
  refine hle.trans (le_of_eq ?_)
  change b + (rate : ℚ) / 1000 * ((startMs + n * d : Nat) - (startMs : ℚ)) = _
  push_cast
  ring

/-- **The grants that keep their promise.** -/
theorem honoured_iff {g : PublishGrant} (hr : 0 < r) (hb : r ≤ b)
    (hg : g.limiter = .make (refillRate (.fin r)) (UInt32.ofNat startMs) (.fin b)) :
    (∀ bundles, Timely startMs bundles → Honoured r b (g.limiter.meter bundles)) ↔
      1 ≤ r ∧ 1000 ≤ tokensPerSec r * ⌈1000 / r⌉₊ := by
  have hbpos : 0 < b := hr.trans_le hb
  have hfollows : Follows g.limiter (fullBucket (tokensPerSec r) b) startMs := by
    rw [hg]
    exact follows_make hbpos startMs
  constructor
  · intro hall
    have hdrip : ∀ {d : Nat}, d < 2 ^ 31 → ∀ n, Honoured r b (g.limiter.meter (drip startMs d n)) :=
      fun hd n => hall _ (chain_drip (le_refl _) (by omega) hd)
    have hone : 1 ≤ r := by
      by_contra hslow
      have hslow' := not_le.mp hslow
      rw [tokensPerSec_slow hslow'] at hfollows
      -- the first sample of all needs a depth of one
      have hdepth : 1 ≤ b := by
        have htimely : Timely startMs [(startMs, 1)] := by simp [Timely]
        have hfirst := (hall _ htimely).prompt
        rw [hfollows.meter htimely] at hfirst
        exact hfirst.first.trans (min_le_left _ _)
      -- a sample each second is more than was granted
      have hprompt : ∀ n, Prompt (1000 : ℚ) ((g.limiter.meter (drip startMs 1000 n)).map Metered.draw) := by
        intro n
        have htimely : Timely startMs (drip startMs 1000 n) := chain_drip (le_refl _) (by omega) (by norm_num)
        rw [hfollows.meter htimely]
        refine prompt_serve (by norm_num [fullBucket]) rfl hdepth (fun d hd => ?_) htimely.ordered
        change (1 : ℚ) ≤ ((1 : Nat) : ℚ) / 1000 * d
        push_cast
        linarith
      refine drip_unbounded (c := b) hslow' fun n => ?_
      obtain ⟨htaken, -⟩ := drip_bound hfollows hbpos.le (by norm_num) (le_refl _) hprompt n
      have hwithin := (hdrip (d := 1000) (by norm_num) (n + 1)).within startMs (startMs + n * 1000) (Nat.le_add_right _ _)
      rw [htaken] at hwithin
      refine hwithin.trans (le_of_eq ?_)
      push_cast
      ring
    refine ⟨hone, ?_⟩
    by_contra hslow
    have hshort : ⌈1000 / r⌉₊ < 2 ^ 31 := by
      have hle : ⌈1000 / r⌉₊ ≤ 1000 := by
        refine Nat.ceil_le.mpr ?_
        rw [div_le_iff₀ hr]
        push_cast
        linarith
      omega
    have hslope : (tokensPerSec r : ℚ) * ⌈1000 / r⌉₊ / 1000 < 1 := by
      have hlt : ((tokensPerSec r * ⌈1000 / r⌉₊ : Nat) : ℚ) < 1000 := by exact_mod_cast not_le.mp hslow
      rw [Nat.cast_mul] at hlt
      linarith
    exact drip_unbounded hslope fun n =>
      (drip_bound hfollows hbpos.le hshort (Nat.le_ceil _) (fun n => (hdrip hshort n).prompt) n).2
  · rintro ⟨hone, hgap⟩ bundles htimely
    exact honoured_of_rate hfollows hone hb (tokensPerSec_le hone) hgap htimely

end

/-- A wish that is granted a number has a limiter for that number and for the burst. -/
theorem found_grant {ε : Type} {w : World ε} {c : Config} {i : SlotIdx} {s t : Sys ε} {wish : PublishWish}
    {gp : GrantedPublish} {nowMs : UInt32} {r : ℚ} (h : grantPublishWish w c i wish nowMs s = (some gp, t))
    (hr : gp.grantedRateHz = .fin r) :
    ∃ g b, (t.session i).publishGrants.find wish.channelId = some g ∧ g.grantedRateHz = .fin r ∧
      g.grantedBurst = .fin b ∧ 0 < r ∧ r ≤ b ∧ clampBurst (.fin r) wish.burst = .fin b ∧
      g.limiter = .make (refillRate (.fin r)) nowMs (.fin b) := by
  obtain ⟨entry, hentry⟩ : ∃ entry, c.catalog.find wish.channelId = some entry := by
    cases hentry : c.catalog.find wish.channelId with
    | some entry => exact ⟨entry, rfl⟩
    | none =>
      rw [grantPublishWish, hentry] at h
      cases h
  obtain ⟨hgranted, hrate, se, se', family, hadd, ht⟩ := grantPublishWish_rate hentry h
  rw [← hrate, hr] at hgranted hadd
  have hpos : 0 < r := by
    have hle : decide (r ≤ 0) = false := hgranted
    simpa using hle
  obtain ⟨b, hb, hlow, -⟩ := clampBurst_within hpos wish.burst
  rw [hb] at hadd
  obtain ⟨g, hfind, hgrate, hgburst, hlimiter⟩ := find_addPublishGrant hadd (decide_eq_true (hpos.trans_le hlow))
  exact ⟨g, b, by rw [ht]; exact hfind, hgrate, hgburst, hpos, hlow, hb, hlimiter⟩

/-- **Publish metering** honours a grant when its rate is one or more and the whole tokens of a second bring one while
a sample waits for its turn. -/
theorem metering_iff {ε : Type} (w : World ε) (c : Config) {i : SlotIdx} {s t : Sys ε} {wish : PublishWish}
    {gp : GrantedPublish} {nowMs : UInt32} {r : ℚ} (h : grantPublishWish w c i wish nowMs s = (some gp, t))
    (hr : gp.grantedRateHz = .fin r) :
    ∃ g b, (t.session i).publishGrants.find wish.channelId = some g ∧ g.grantedRateHz = .fin r ∧
      g.grantedBurst = .fin b ∧
      ((∀ startMs bundles, nowMs = UInt32.ofNat startMs → Timely startMs bundles →
        Honoured r b (g.limiter.meter bundles)) ↔ 1 ≤ r ∧ 1000 ≤ tokensPerSec r * ⌈1000 / r⌉₊) := by
  obtain ⟨g, b, hfind, hgrate, hgburst, hpos, hlow, -, hlimiter⟩ := found_grant h hr
  refine ⟨g, b, hfind, hgrate, hgburst, ?_⟩
  have hstart : nowMs = UInt32.ofNat nowMs.toNat := UInt32.ofNat_toNat.symm
  constructor
  · intro hall
    rw [hstart] at hlimiter
    exact (honoured_iff hpos hlow hlimiter).mp fun bundles htimely => hall nowMs.toNat bundles hstart htimely
  · intro hcond startMs bundles hnow htimely
    rw [hnow] at hlimiter
    exact (honoured_iff hpos hlow hlimiter).mpr hcond bundles htimely

/-- A whole rate. -/
theorem metering_forty :
    ∃ g b, (((grantPublishWish Bench.world Bench.paced 0 { channelId := 0x0102, rateHz := .fin 40 } 0
        (boot Bench.world Bench.paced {})).2).session 0).publishGrants.find 0x0102 = some g ∧
      ∀ bundles, Timely 0 bundles → Honoured 40 b (g.limiter.meter bundles) := by
  obtain ⟨g, b, hfind, -, -, hiff⟩ := @metering_iff _ Bench.world Bench.paced 0 (boot Bench.world Bench.paced {}) _
    { channelId := 0x0102, rateHz := .fin 40 } _ 0 40 rfl rfl
  refine ⟨g, b, hfind, fun bundles htimely => hiff.mpr ⟨by norm_num, ?_⟩ 0 bundles rfl htimely⟩
  have hceil : ⌈(1000 / 40 : ℚ)⌉₊ = 25 := by norm_num
  rw [hceil]
  decide

/-- What a wish for one sample and a half a second is granted. -/
def Bench.slowGrant : PublishGrant where
  channelId := 0x0102
  grantedRateHz := .fin (3 / 2)
  grantedBurst := .fin (3 / 2)
  limiter := { ratePerSec := 1, capacity := .fin (3 / 2), tokens := .fin (3 / 2), lastMs := 0 }

/-- At that rate the third sample is refused, although it has waited for 667 milliseconds like the one before it. -/
theorem metering_starves :
    (((grantPublishWish Bench.world Bench.paced 0 { channelId := 0x0102, rateHz := .fin (3 / 2) } 0
        (boot Bench.world Bench.paced {})).2).session 0).publishGrants.find 0x0102 = some Bench.slowGrant ∧
      Timely 0 [(0, 1), (667, 1), (1334, 1)] ∧
      ¬Honoured (3 / 2) (3 / 2) (Bench.slowGrant.limiter.meter [(0, 1), (667, 1), (1334, 1)]) := by
  refine ⟨by decide +kernel, by simp [Timely], fun h => ?_⟩
  have hlog : (Bench.slowGrant.limiter.meter [(0, 1), (667, 1), (1334, 1)]).map Metered.draw =
      [⟨0, 1, true⟩, ⟨667, 1, true⟩, ⟨1334, 1, false⟩] := by decide +kernel
  have hprompt := h.prompt
  rw [hlog] at hprompt
  have hthird := hprompt [⟨0, 1, true⟩, ⟨667, 1, true⟩] ⟨1334, 1, false⟩ [] rfl rfl fun y hy _ _ => by
    simp only [List.mem_cons, List.not_mem_nil, or_false] at hy
    rcases hy with rfl | rfl <;> norm_num
  cases hthird

end SlopSync
