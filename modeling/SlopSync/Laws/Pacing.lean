import SlopSync.Laws.Emitter
import SlopSync.Laws.Metering
import SlopSync.Senders

/-! # The emitter and the limiter

The plugin keeps a token bucket of its own, sized off its grant, so that the hub never has to refuse a sample.

- `paced_run`: what a session sends is paced by its bucket; `run_seeks`: a seek at each tick sends all that it allows;
- `accepted_iff`: what the limiter accepts is what its bucket serves;
- `pacing_iff`: the grants for which the plugin is never refused. -/

namespace SlopSync.Mfp

open Buckets

/-! ## What a tick spends -/

/-- The bucket of a session, which fills by the millisecond. -/
def SegState.bucket (s : SegState) : Bucket ℚ := { rate := s.tokenRate / 1000, cap := s.tokenDepth, level := s.tokens }

/-- Whole milliseconds of a tick, and how many samples it sends. -/
def TickRecord.beat (x : TickRecord) : Nat × Nat := (⌊x.tick.dtMs⌋₊, x.sent.length)

/-- When the samples of a session reach the hub, each in a bundle of its own. -/
def arrivals (firstMs : Nat) (run : List TickRecord) : List (Nat × Nat) := timeline firstMs (run.map TickRecord.beat)

/-- Each sample costs a token. -/
structure Spent (before after : List Sent × SegState) : Prop where
  rate : after.2.tokenRate = before.2.tokenRate
  depth : after.2.tokenDepth = before.2.tokenDepth
  tokens : after.2.tokens + after.1.length = before.2.tokens + before.1.length
  low : 0 ≤ before.2.tokens → 0 ≤ after.2.tokens

section

variable {kf : KeyframeCollection} {t : SegTick} {axisPos : ℚ}

theorem spent_walk : ∀ (scans i : Nat) (r : List Sent × SegState), Spent r (SegState.walk kf t axisPos scans i r)
  | 0, i, r => ⟨rfl, rfl, rfl, id⟩
  | scans + 1, i, (sent, s) => by
    unfold SegState.walk
    split
    · exact ⟨rfl, rfl, rfl, id⟩
    · split
      · exact ⟨rfl, rfl, rfl, id⟩
      · split
        · split
          · exact ⟨rfl, rfl, rfl, id⟩
          · rename_i htoken
            have h := spent_walk scans (i + 1) (sent ++ [sendSegment kf axisPos t.speed s (t.hubNowUs sent.length) i],
              { s with tokens := s.tokens - 1, emittedSpan := i })
            refine ⟨h.rate, h.depth, ?_, fun _ => h.low (sub_nonneg.mpr (not_lt.mp htoken))⟩
            have htokens := h.tokens
            rw [List.length_append, List.length_singleton] at htokens
            push_cast at htokens
            linarith
        · have h := spent_walk scans (i + 1) (sent, { s with emittedSpan := i })
          exact ⟨h.rate, h.depth, h.tokens, h.low⟩

/-- A tick that emits refills first; one that does not leaves the bucket alone. -/
theorem spent_segTick (s : SegState) (t : SegTick) :
    Spent ([], s) (s.segTick t) ∧ (s.segTick t).1 = [] ∨ Spent ([], s.refill t.dtMs) (s.segTick t) := by
  cases haxis : t.axisPos with
  | none =>
    left
    rw [SegState.segTick, haxis]
    exact ⟨⟨rfl, rfl, rfl, id⟩, rfl⟩
  | some axisPos =>
    have htick : s.segTick t = (s.sample t axisPos).proceed t axisPos := by
      rw [SegState.segTick, haxis]
    have hsame : (s.sample t axisPos).tokenRate = s.tokenRate ∧ (s.sample t axisPos).tokenDepth = s.tokenDepth ∧
        (s.sample t axisPos).tokens = s.tokens := by
      unfold SegState.sample
      dsimp only
      split
      · exact ⟨rfl, rfl, rfl⟩
      · unfold SegState.refreshStale
        split <;> exact ⟨rfl, rfl, rfl⟩
    rw [htick]
    generalize s.sample t axisPos = s' at hsame
    obtain ⟨hrate, hdepth, htokens⟩ := hsame
    have hidle : ∀ s'' : SegState, s''.tokenRate = s'.tokenRate → s''.tokenDepth = s'.tokenDepth →
        s''.tokens = s'.tokens → Spent ([], s) ([], s'') := fun s'' h1 h2 h3 =>
      ⟨h1.trans hrate, h2.trans hdepth, by rw [h3, htokens], fun h => by rw [h3, htokens]; exact h⟩
    unfold SegState.proceed
    split
    · exact .inl ⟨hidle _ rfl rfl rfl, rfl⟩
    · split
      · exact .inl ⟨hidle _ rfl rfl rfl, rfl⟩
      · split
        · exact .inl ⟨hidle _ rfl rfl rfl, rfl⟩
        · right
          rename_i kf _ _ _
          have h := @spent_walk kf t axisPos segMaxScanPerTick ((s'.refill t.dtMs).firstSpan kf axisPos)
            ([], s'.refill t.dtMs)
          have hrefill : (s'.refill t.dtMs).tokens = (s.refill t.dtMs).tokens := by
            rw [SegState.refill, SegState.refill, hrate, hdepth, htokens]
          have hlow := h.low
          have htok := h.tokens
          dsimp only at hlow htok
          rw [hrefill] at hlow htok
          exact ⟨h.rate.trans hrate, h.depth.trans hdepth, htok, hlow⟩

end

/-- **A session is paced** by its bucket, also by one that holds more. -/
theorem paced_run : ∀ {s : SegState} {events : List SegEvent} {b : Bucket ℚ}, b.rate = s.tokenRate / 1000 →
    b.cap = s.tokenDepth → 0 ≤ s.tokenRate → 0 ≤ s.tokens → s.tokens ≤ b.level → b.level ≤ b.cap →
    (∀ x ∈ s.run events, x.tick.dtMs = ⌊x.tick.dtMs⌋₊) → Paced b ((s.run events).map TickRecord.beat)
  | s, [], b, _, _, _, _, _, _, _ => trivial
  | s, .raise :: events, b, hrate, hcap, hpos, hlow, hle, hfull, hwhole =>
    @paced_run { s with needsResync := true } events b hrate hcap hpos hlow hle hfull hwhole
  | s, .tick t :: events, b, hrate, hcap, hpos, hlow, hle, hfull, hwhole => by
    have hdt : t.dtMs = ⌊t.dtMs⌋₊ := hwhole ⟨s, t⟩ List.mem_cons_self
    have hdtpos : 0 ≤ t.dtMs := by
      rw [hdt]
      exact Nat.cast_nonneg _
    have hflow : 0 ≤ b.rate * (⌊t.dtMs⌋₊ : ℚ) := by
      rw [hrate]
      exact mul_nonneg (div_nonneg hpos (by norm_num)) (Nat.cast_nonneg _)
    have hrefill : (s.refill t.dtMs).tokens ≤ (b.refill (⌊t.dtMs⌋₊ : ℚ)).level := by
      rw [SegState.refill, refill_level, hcap, hrate, max_eq_right hdtpos, ← hdt]
      exact min_le_min_left _ (by linarith)
    have hkeep : b.level ≤ (b.refill (⌊t.dtMs⌋₊ : ℚ)).level := le_min hfull (by linarith)
    have hdepth : 0 ≤ s.tokenDepth := by linarith
    have hrefillLow : 0 ≤ (s.refill t.dtMs).tokens := by
      rw [SegState.refill, max_eq_right hdtpos]
      exact le_min hdepth (by linarith [mul_nonneg hpos hdtpos])
    -- what is left is no more than is left in the larger bucket
    have hspent : ((s.segTick t).2.tokenRate = s.tokenRate ∧ (s.segTick t).2.tokenDepth = s.tokenDepth) ∧
        0 ≤ (s.segTick t).2.tokens ∧
        (s.segTick t).2.tokens + (s.segTick t).1.length ≤ (b.refill (⌊t.dtMs⌋₊ : ℚ)).level := by
      rcases spent_segTick s t with ⟨h, hnone⟩ | h
      · refine ⟨⟨h.rate, h.depth⟩, h.low hlow, ?_⟩
        have htokens := h.tokens
        dsimp only [List.length_nil] at htokens
        push_cast at htokens
        linarith
      · refine ⟨⟨h.rate, h.depth⟩, h.low hrefillLow, ?_⟩
        have htokens := h.tokens
        dsimp only [List.length_nil] at htokens
        push_cast at htokens
        linarith
    obtain ⟨⟨hrate', hdepth'⟩, hlow', hleft⟩ := hspent
    rw [SegState.run, List.map_cons]
    change ((s.segTick t).1.length : ℚ) ≤ (b.refill (⌊t.dtMs⌋₊ : ℚ)).level ∧
      Paced ((b.refill (⌊t.dtMs⌋₊ : ℚ)).spend (s.segTick t).1.length) _
    refine ⟨by linarith, paced_run ?_ ?_ ?_ hlow' ?_ ?_ fun x hx => hwhole x (List.mem_cons_of_mem _ hx)⟩
    · rw [hrate']
      exact hrate
    · rw [hdepth']
      exact hcap
    · rw [hrate']
      exact hpos
    · rw [spend_level]
      linarith
    · exact (sub_le_self _ (Nat.cast_nonneg _)).trans (min_le_left _ _)

/-! ## Seeks -/

/-- One stroke of a second. -/
def oneStroke : KeyframeCollection where
  frames := [⟨0, 0⟩, ⟨1, 1⟩]
  isGap _ := false
  searchForIndexBefore p := if p < 0 then -1 else if p < 1 then 0 else 1
  calculateSlopes _ _ := none
  increasing := by norm_num
  search_lt p := by split_ifs <;> simp
  search_iff p i h := by
    have hi : i < 2 := h
    obtain rfl | rfl : i = 0 ∨ i = 1 := by omega
    all_goals
      simp only [List.getElem_cons_zero, List.getElem_cons_succ]
      constructor
      · intro hp
        split_ifs <;> first | linarith | norm_num
      · intro hp
        split_ifs at hp <;> first | linarith | (norm_num at hp)

/-- The media clock at the start of the stroke or in the middle of it. -/
def seekPos (far : Bool) : ℚ := if far then 1 / 2 else 0

def seekTick (far : Bool) (dt : Nat) : SegTick where
  dtMs := dt
  axisPos := some (seekPos far)
  speed := 1
  speed_pos := one_pos
  keyframes := some oneStroke

/-- A tick after each of the pauses, and a seek before each tick. -/
def seeks : Bool → List Nat → List SegEvent
  | _, [] => []
  | far, dt :: dts => .tick (seekTick far dt) :: seeks (!far) dts

/-- The next tick finds the media clock elsewhere. -/
def Elsewhere (s : SegState) (far : Bool) : Prop := s.haveAxisPos = false ∨ s.lastAxisPos = seekPos (!far)

theorem jumps_seek {s : SegState} {far : Bool} (h : Elsewhere s far) : s.jumps (seekPos far) = true := by
  unfold SegState.jumps
  rcases h with h | h
  · rw [h]
    rfl
  · rw [h]
    cases far <;> cases s.haveAxisPos <;> decide +kernel

theorem moved_seek {s : SegState} {far : Bool} (h : Elsewhere s far) (dtMs : ℚ) :
    (s.watchClock (seekPos far) dtMs).frozenMs = 0 := by
  unfold SegState.watchClock
  rcases h with h | h
  · rw [h]
    rfl
  · rw [h]
    cases far <;> cases s.haveAxisPos <;> norm_num [seekPos]

/-- A walk over the stroke. -/
theorem walk_stroke {s : SegState} {far : Bool} {dt : Nat} (scans : Nat) (htoken : 1 ≤ s.tokens) :
    SegState.walk oneStroke (seekTick far dt) (seekPos far) (scans + 2) 0 ([], s) =
      ([sendSegment oneStroke (seekPos far) 1 s 0 0], { s with tokens := s.tokens - 1, emittedSpan := 0 }) := by
  have hdue : ¬seekPos far + segLookaheadMs / 1000 * (seekTick far dt).speed < oneStroke.position 0 := by
    change ¬seekPos far + segLookaheadMs / 1000 * 1 < oneStroke.position 0
    cases far <;> decide +kernel
  have hmoves : (!oneStroke.isGap 0 && decide (seekPos far < oneStroke.position (0 + 1))) = true := by
    cases far <;> decide +kernel
  rw [SegState.walk, if_neg (by decide), if_neg hdue, if_pos hmoves, if_neg (not_lt.mpr htoken), SegState.walk,
    if_pos fun h => absurd h.1 (by decide)]
  rfl

/-- A seek sends one sample when there is a token. -/
theorem segTick_seek {s : SegState} {far : Bool} {dt : Nat} (h : Elsewhere s far)
    (htoken : 1 ≤ (s.refill dt).tokens) :
    (s.segTick (seekTick far dt)).1.length = 1 ∧ (s.segTick (seekTick far dt)).2.tokens = (s.refill dt).tokens - 1 ∧
      (s.segTick (seekTick far dt)).2.tokenRate = s.tokenRate ∧
      (s.segTick (seekTick far dt)).2.tokenDepth = s.tokenDepth ∧ Elsewhere (s.segTick (seekTick far dt)).2 (!far) := by
  have hsample : s.sample (seekTick far dt) (seekPos far) =
      ({ s with cacheAgeMs := s.cacheAgeMs + max 0 (dt : ℚ) }.watchClock (seekPos far) dt).reanchor (seekTick far dt) := by
    rw [SegState.sample, jumps_seek h]
    rfl
  have hfrozen := moved_seek (s := { s with cacheAgeMs := s.cacheAgeMs + max 0 (dt : ℚ) }) h dt
  generalize hs : s.sample (seekTick far dt) (seekPos far) = s' at hsample
  have hproceed : s'.proceed (seekTick far dt) (seekPos far) = s'.emit oneStroke (seekTick far dt) (seekPos far) := by
    have hkf : s'.keyframes = some oneStroke := by
      rw [hsample]
      rfl
    have hmoving : ¬segFrozenIdleMs ≤ s'.frozenMs := by
      rw [hsample]
      change ¬segFrozenIdleMs ≤ (SegState.watchClock _ _ _).frozenMs
      rw [hfrozen]
      decide +kernel
    rw [SegState.proceed, hkf]
    dsimp only
    rw [if_neg (by decide), if_neg hmoving]
  have htick : s.segTick (seekTick far dt) = s'.emit oneStroke (seekTick far dt) (seekPos far) := by
    rw [← hproceed, ← hs]
    rfl
  have hfirst : (s'.refill (seekTick far dt).dtMs).firstSpan oneStroke (seekPos far) = 0 := by
    have hcursor : (s'.refill (seekTick far dt).dtMs).emittedSpan = -1 := by
      rw [hsample]
      rfl
    rw [SegState.firstSpan, hcursor]
    cases far <;> decide +kernel
  have htokens : (s'.refill (seekTick far dt).dtMs).tokens = (s.refill dt).tokens := by
    rw [hsample]
    rfl
  rw [htick, SegState.emit, hfirst, show segMaxScanPerTick = 4094 + 2 from rfl, walk_stroke 4094 (by rw [htokens]; exact htoken)]
  refine ⟨rfl, by rw [← htokens], ?_, ?_, .inr ?_⟩
  · rw [hsample]
    rfl
  · rw [hsample]
    rfl
  · rw [hsample, Bool.not_not]
    rfl

theorem run_seeks : ∀ {dts : List Nat} {s : SegState} {far : Bool}, Elsewhere s far → Paced s.bucket (ones dts) →
    (s.run (seeks far dts)).map TickRecord.beat = ones dts
  | [], s, far, _, _ => rfl
  | dt :: dts, s, far, h, hpaced => by
    obtain ⟨hone, hrest⟩ := hpaced
    have hsame : (s.bucket.refill (dt : ℚ)).level = (s.refill dt).tokens := by
      rw [SegState.refill, refill_level, max_eq_right (Nat.cast_nonneg dt)]
      change min s.tokenDepth (s.tokens + s.tokenRate / 1000 * dt) = min s.tokenDepth (s.tokens + s.tokenRate * dt / 1000)
      ring_nf
    rw [hsame, Nat.cast_one] at hone
    obtain ⟨hlength, htokens, hrate, hdepth, helse⟩ := segTick_seek h hone
    have hnext : (s.segTick (seekTick far dt)).2.bucket = (s.bucket.refill (dt : ℚ)).spend 1 := by
      rw [SegState.bucket, hrate, hdepth, htokens, ← hsame, ← Nat.cast_one]
      rfl
    rw [← hnext] at hrest
    have htail := run_seeks helse hrest
    rw [seeks, SegState.run, List.map_cons, htail]
    have hbeat : TickRecord.beat ⟨s, seekTick far dt⟩ = (dt, 1) :=
      Prod.ext (Nat.floor_natCast dt) hlength
    rw [hbeat]
    rfl

/-- The clock of the ticks is in whole milliseconds. -/
def Whole (run : List TickRecord) : Prop := ∀ x ∈ run, x.tick.dtMs = ⌊x.tick.dtMs⌋₊

theorem whole_seeks : ∀ (dts : List Nat) (s : SegState) (far : Bool), Whole (s.run (seeks far dts))
  | [], _, _, x, hx => absurd hx List.not_mem_nil
  | dt :: dts, s, far, x, hx => by
    rcases List.mem_cons.mp hx with rfl | hx
    · exact congrArg (Nat.cast (R := ℚ)) (Nat.floor_natCast dt).symm
    · exact whole_seeks dts _ (!far) x hx

/-! ## The two buckets -/

/-- The limiter accepts every bundle. -/
def Accepts (l : IngressRateLimiter) (bundles : List (Nat × Nat)) : Prop := ∀ x ∈ l.meter bundles, x.accepted = true

theorem accepts_iff {l : IngressRateLimiter} {b : Bucket ℚ} {t : Nat} {bundles : List (Nat × Nat)} (h : Follows l b t)
    (htimely : Timely t bundles) : Accepts l bundles ↔ ∀ x ∈ b.serve t bundles, x.ok = true := by
  rw [← h.meter htimely, List.forall_mem_map]
  rfl

def firstSession : SegState := { tokens := 0, tokenRate := 0, tokenDepth := 0 }

/-- The bucket that every session starts with, given the rate and the burst of its grant. -/
def ownBucket (r : ℚ) (burst : Option ℚ) : Bucket ℚ := (firstSession.segmentLoopStart r burst none).bucket

section

variable {r b : ℚ} {burst : Option ℚ}

theorem ownBucket_nonneg (r : ℚ) (burst : Option ℚ) : 0 ≤ (ownBucket r burst).rate ∧ 0 ≤ (ownBucket r burst).cap := by
  unfold ownBucket SegState.bucket SegState.segmentLoopStart
  dsimp only
  have hrate : 0 ≤ if 1 / 2 < r then r else segmentWishHz := by
    split
    · linarith
    · norm_num [segmentWishHz]
  refine ⟨div_nonneg hrate (by norm_num), ?_⟩
  split
  · split
    · linarith
    · exact hrate
  · exact hrate

theorem ownBucket_slow (hr : r ≤ 1 / 2) : (ownBucket r burst).rate = 20 / 1000 ∧ 1 ≤ (ownBucket r burst).cap ∧
    (ownBucket r burst).level = (ownBucket r burst).cap := by
  unfold ownBucket SegState.bucket SegState.segmentLoopStart
  dsimp only
  rw [if_neg (not_lt.mpr hr), segmentWishHz]
  refine ⟨rfl, ?_, rfl⟩
  split
  · split
    · assumption
    · norm_num
  · norm_num

/-- From one a second on the bucket is as deep as the hub's. -/
theorem ownBucket_fast (hr : 1 ≤ r) (hb : r ≤ b) (hburst : burst = some b ∨ burst = none ∧ b = r) :
    ownBucket r burst = { rate := r / 1000, cap := b, level := b } := by
  unfold ownBucket SegState.bucket SegState.segmentLoopStart
  dsimp only
  rw [if_pos (by linarith : 1 / 2 < r)]
  rcases hburst with rfl | ⟨rfl, rfl⟩
  · dsimp only
    rw [if_pos (hr.trans hb)]
  · rfl

theorem ownBucket_between (hr : 1 / 2 < r) (hslow : r < 1) (hburst : burst = some b ∨ burst = none ∧ b = r) :
    ownBucket r burst = { rate := r / 1000, cap := b, level := b } ∨
      ownBucket r burst = { rate := r / 1000, cap := r, level := r } := by
  unfold ownBucket SegState.bucket SegState.segmentLoopStart
  dsimp only
  rw [if_pos hr]
  rcases hburst with rfl | ⟨rfl, rfl⟩
  · dsimp only
    split
    · exact .inl rfl
    · exact .inr rfl
  · exact .inr rfl

/-- When the two buckets agree. -/
def Matches (r b : ℚ) : Prop := (1 / 2 < r ∧ r < 1) ∨ (tokensPerSec r : ℚ) = r ∨ (1 < r ∧ b + 999 / 1000 * r < 2)

theorem tokensPerSec_one (hr : 1 ≤ r) (htwo : r < 2) : tokensPerSec r = 1 := by
  rw [tokensPerSec_eq hr (by linarith)]
  exact (Nat.floor_eq_iff (by linarith)).mpr ⟨by push_cast; exact hr, by push_cast; linarith⟩

theorem mirrors_of_matches (hb : r ≤ b) (hburst : burst = some b ∨ burst = none ∧ b = r) (h : Matches r b) :
    ∃ Inv : Bucket ℚ → Bucket ℚ → Prop, Mirrors Inv ∧ Inv (ownBucket r burst) (fullBucket (tokensPerSec r) b) := by
  rcases h with ⟨hhalf, hslow⟩ | hwhole | ⟨hfast, hdepth⟩
  · rcases ownBucket_between hhalf hslow hburst with hown | hown
    · refine ⟨_, mirrors_le, ?_⟩
      rw [hown, tokensPerSec_slow hslow]
      refine ⟨?_, le_refl b, le_refl b⟩
      change r / 1000 ≤ ((1 : Nat) : ℚ) / 1000
      push_cast
      linarith
    · refine ⟨_, mirrors_small, ?_⟩
      rw [hown]
      exact ⟨hslow, hslow⟩
  · have hone : 1 ≤ r := by
      by_contra hslow
      rw [tokensPerSec_slow (not_le.mp hslow)] at hwhole
      push_cast at hwhole
      exact hslow hwhole.le
    refine ⟨_, mirrors_le, ?_⟩
    rw [ownBucket_fast hone hb hburst, fullBucket, hwhole]
    exact ⟨le_refl _, le_refl b, le_refl b⟩
  · refine ⟨_, mirrors_single, ?_⟩
    rw [ownBucket_fast hfast.le hb hburst, tokensPerSec_one hfast.le (by linarith)]
    have hrate : (fullBucket 1 b).rate = 1 / 1000 := by norm_num [fullBucket]
    rw [hrate]
    refine ⟨le_refl b, by dsimp only; linarith, by norm_num, le_refl b, fun d hd => ?_, fun d _ => ?_⟩
    · -- a shorter pause is not enough for a second token
      by_contra hshort
      have hlt : (d : ℚ) < (1000 : Nat) := by
        push_cast
        linarith
      have hle : d ≤ 999 := by
        have := Nat.cast_lt.mp hlt
        omega
      have hcast : (d : ℚ) ≤ (999 : Nat) := Nat.cast_le.mpr hle
      have hmul := mul_le_mul_of_nonneg_left hcast (by linarith : 0 ≤ r / 1000)
      push_cast at hmul
      dsimp only at hd
      linarith
    · have hpos : (0 : ℚ) ≤ d := Nat.cast_nonneg d
      change b ≤ b + _
      linarith

theorem overruns_of_not_matches (hr : 0 < r) (hb : r ≤ b) (hburst : burst = some b ∨ burst = none ∧ b = r)
    (h : ¬Matches r b) : Overruns 1000 (ownBucket r burst) (fullBucket (tokensPerSec r) b) := by
  by_cases hhalf : r ≤ 1 / 2
  · -- the plugin goes by its wish
    obtain ⟨hrate, hcap, hlevel⟩ := @ownBucket_slow r burst hhalf
    have hslow : (fullBucket (tokensPerSec r) b).rate * (50 : Nat) < 1 := by
      rw [tokensPerSec_slow (by linarith)]
      norm_num [fullBucket]
    exact overruns_steady (by norm_num : 50 ≤ 1000) hcap (by rw [hlevel]; linarith) (by rw [hrate]; norm_num) hslow
  · have hone : 1 ≤ r := by
      by_contra hslow
      exact h (.inl ⟨not_le.mp hhalf, not_le.mp hslow⟩)
    have hcut : (tokensPerSec r : ℚ) < r := lt_of_le_of_ne (tokensPerSec_le hone) fun heq => h (.inr (.inl heq))
    rw [ownBucket_fast hone hb hburst]
    have hpos : 0 ≤ (fullBucket (tokensPerSec r) b).rate := div_nonneg (Nat.cast_nonneg _) (by norm_num)
    by_cases htwo : 2 ≤ r
    · refine overruns_faster (by dsimp only; linarith) (by dsimp only; push_cast; linarith) (by dsimp only; linarith)
        (by dsimp only; linarith) (le_refl b) hpos ?_
      change (tokensPerSec r : ℚ) / 1000 < r / 1000
      linarith
    · rw [tokensPerSec_one hone (not_le.mp htwo)] at hcut hpos ⊢
      push_cast at hcut
      have hdepth : 2 ≤ b + 999 / 1000 * r := by
        by_contra hshallow
        exact h (.inr (.inr ⟨hcut, not_le.mp hshallow⟩))
      have hcap : 1 ≤ (Bucket.mk (r / 1000) b b).cap := hone.trans hb
      refine (overruns_cycle hpos ?_ rfl hcap ?_ ?_ : Overruns (999 + 1) _ _)
      · norm_num [fullBucket]
      · dsimp only
        push_cast
        linarith
      · dsimp only
        push_cast
        linarith

end

theorem grantPublishWish_burst {ε : Type} {w : World ε} {c : Config} {i : SlotIdx} {s t : Sys ε} {wish : PublishWish}
    {gp : GrantedPublish} {nowMs : UInt32} (h : grantPublishWish w c i wish nowMs s = (some gp, t)) :
    gp.burst = wish.burst.map fun _ => clampBurst gp.grantedRateHz wish.burst := by
  unfold grantPublishWish at h
  split at h
  · cases h
  · split at h
    · cases h
    · dsimp only at h
      split at h
      · cases h
      · split at h
        · cases h
        · cases h
          rfl

/-- **The plugin and the limiter.**  With a grant that the two buckets agree on the hub accepts every sample of every
session, as long as it does not wait half a wrap of its clock for the next one; with any other grant there is a session
that it refuses a sample of. -/
theorem pacing_iff {ε : Type} (w : World ε) (c : Config) {i : SlotIdx} {s t : Sys ε} {wish : PublishWish}
    {gp : GrantedPublish} {nowMs : UInt32} {r : ℚ} (h : grantPublishWish w c i wish nowMs s = (some gp, t))
    (hr : gp.grantedRateHz = .fin r) :
    ∃ g b, (t.session i).publishGrants.find wish.channelId = some g ∧ gp.burst = wish.burst.map (fun _ => .fin b) ∧
      ((∀ startMs firstMs prev keyframes events run, nowMs = UInt32.ofNat startMs → startMs ≤ firstMs →
        run = (SegState.segmentLoopStart prev r (wish.burst.map fun _ => b) keyframes).run events → Whole run →
        Timely startMs (arrivals firstMs run) → Accepts g.limiter (arrivals firstMs run)) ↔ Matches r b) := by
  obtain ⟨g, b, hfind, -, -, hpos, hlow, hclamp, hlimiter⟩ := found_grant h hr
  have hecho : gp.burst = wish.burst.map fun _ => F32.fin b := by
    rw [grantPublishWish_burst h, hr, hclamp]
  refine ⟨g, b, hfind, hecho, ?_⟩
  have hburst : (wish.burst.map fun _ => b) = some b ∨ (wish.burst.map fun _ => b) = none ∧ b = r := by
    cases hwish : wish.burst with
    | none =>
      rw [hwish] at hclamp
      exact .inr ⟨rfl, (F32.fin.inj hclamp).symm⟩
    | some x => exact .inl rfl
  generalize (wish.burst.map fun _ => b) = burst at hburst
  have hfollows : ∀ startMs, nowMs = UInt32.ofNat startMs →
      Follows g.limiter (fullBucket (tokensPerSec r) b) startMs := by
    intro startMs hnow
    rw [hlimiter, hnow]
    exact follows_make (hpos.trans_le hlow) startMs
  have hrate : 0 ≤ (fullBucket (tokensPerSec r) b).rate := div_nonneg (Nat.cast_nonneg _) (by norm_num)
  constructor
  · intro hall
    by_contra hnot
    have hover := overruns_of_not_matches hpos hlow hburst hnot
    have hnow : nowMs = UInt32.ofNat nowMs.toNat := UInt32.ofNat_toNat.symm
    obtain ⟨dts, hlong, hpaced, x, hx, hrefused⟩ := hover.refused hrate (hpos.trans_le hlow).le nowMs.toNat
    -- the session that seeks before each of these ticks
    have hbeats := @run_seeks dts (firstSession.segmentLoopStart r burst none) false (.inl rfl) hpaced
    have htimely : Timely nowMs.toNat (timeline nowMs.toNat (ones dts)) :=
      chain_ones _ fun dt hdt => (hlong dt hdt).trans_lt (by norm_num)
    have haccepts := hall nowMs.toNat nowMs.toNat firstSession none (seeks false dts) _ hnow (le_refl _) rfl
      (whole_seeks dts _ _)
    rw [arrivals, hbeats, accepts_iff (hfollows _ hnow) htimely] at haccepts
    rw [haccepts htimely x hx] at hrefused
    cases hrefused
  · intro hmatches startMs firstMs prev keyframes events run hnow hle hrun hwhole htimely
    obtain ⟨Inv, hmirrors, hstart⟩ := mirrors_of_matches hlow hburst hmatches
    rw [accepts_iff (hfollows startMs hnow) htimely]
    have hwait : (fullBucket (tokensPerSec r) b).refill ((firstMs : ℚ) - startMs) = fullBucket (tokensPerSec r) b := by
      refine congrArg (Bucket.mk _ b) (min_eq_left ?_)
      have hspan : (0 : ℚ) ≤ (firstMs : ℚ) - startMs := sub_nonneg.mpr (by exact_mod_cast hle)
      exact le_add_of_nonneg_right (mul_nonneg hrate hspan)
    refine ok_of_mirrors hmirrors hrate (le_refl b) hle (by rw [hwait]; exact hstart) ?_
    subst hrun
    obtain ⟨hrate', hcap'⟩ := ownBucket_nonneg r burst
    have htokenRate : 0 ≤ (SegState.segmentLoopStart prev r burst keyframes).tokenRate := by
      have hmul : 0 ≤ (ownBucket r burst).rate * 1000 := mul_nonneg hrate' (by norm_num)
      rw [show (ownBucket r burst).rate = (SegState.segmentLoopStart prev r burst keyframes).tokenRate / 1000 from rfl,
        div_mul_cancel₀ _ (by norm_num)] at hmul
      exact hmul
    exact paced_run rfl rfl htokenRate hcap' (le_refl _) (le_refl _) hwhole

/-- A whole rate. -/
theorem pacing_forty :
    ∃ g, (((grantPublishWish Bench.world Bench.paced 0 { channelId := 0x0102, rateHz := .fin 40 } 0
        (boot Bench.world Bench.paced {})).2).session 0).publishGrants.find 0x0102 = some g ∧
      ∀ prev keyframes events, Whole ((SegState.segmentLoopStart prev 40 none keyframes).run events) →
        Timely 0 (arrivals 0 ((SegState.segmentLoopStart prev 40 none keyframes).run events)) →
        Accepts g.limiter (arrivals 0 ((SegState.segmentLoopStart prev 40 none keyframes).run events)) := by
  obtain ⟨g, b, hfind, -, hiff⟩ := @pacing_iff _ Bench.world Bench.paced 0 (boot Bench.world Bench.paced {}) _
    { channelId := 0x0102, rateHz := .fin 40 } _ 0 40 rfl rfl
  have hmatches : Matches 40 b := by
    refine .inr (.inl ?_)
    rw [show tokensPerSec 40 = 40 by decide +kernel]
    norm_num
  exact ⟨g, hfind, fun prev keyframes events hwhole htimely =>
    hiff.mpr hmatches 0 0 prev keyframes events _ rfl (le_refl 0) rfl hwhole htimely⟩

/-- At a sample and a half a second the plugin has the second one after 334 milliseconds, and the hub, which fills by
one a second, refuses it. -/
theorem pacing_refused :
    (grantPublishWish Bench.world Bench.paced 0 { channelId := 0x0102, rateHz := .fin (3 / 2) } 0
        (boot Bench.world Bench.paced {})).1 = some { channelId := 0x0102, grantedRateHz := .fin (3 / 2) } ∧
      (((grantPublishWish Bench.world Bench.paced 0 { channelId := 0x0102, rateHz := .fin (3 / 2) } 0
        (boot Bench.world Bench.paced {})).2).session 0).publishGrants.find 0x0102 = some Bench.slowGrant ∧
      ∃ events, Whole ((firstSession.segmentLoopStart (3 / 2) none none).run events) ∧
        arrivals 0 ((firstSession.segmentLoopStart (3 / 2) none none).run events) = [(0, 1), (340, 1)] ∧
        ¬Accepts Bench.slowGrant.limiter [(0, 1), (340, 1)] := by
  refine ⟨by decide +kernel, by decide +kernel, seeks false [0, 340], whole_seeks _ _ _, by decide +kernel, fun h => ?_⟩
  have hanswers : (Bench.slowGrant.limiter.meter [(0, 1), (340, 1)]).map Metered.accepted = [true, false] := by
    decide +kernel
  have hall : ∀ a ∈ (Bench.slowGrant.limiter.meter [(0, 1), (340, 1)]).map Metered.accepted, a = true :=
    List.forall_mem_map.mpr h
  rw [hanswers] at hall
  simp at hall

end SlopSync.Mfp
