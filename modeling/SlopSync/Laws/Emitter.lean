import Mathlib.Algebra.Order.Field.Basic
import Mathlib.Data.List.Chain
import Mathlib.Tactic.FieldSimp
import Mathlib.Tactic.Ring
import SlopSync.Mfp.Segments

/-! # The emitter neither replays nor loses motion

- `Walked`: what a walk over the spans does, whichever of its exits it takes; `walked_walk`;
- `Timed`: when a sample starts and ends; `timed_sendSegment`;
- `TickRecord.Faithful`: one tick passes only spans that it sends, gaps and spans that are over; `faithful_segTick`;
- `emits_once`: between two re-anchors spans go out in order, each at most once. -/

namespace SlopSync.Mfp

/-! ## One sample -/

/-- A sample starts with its span, or now when the span has begun, and ends with it. -/
structure Timed (kf : KeyframeCollection) (axisPos speed : ℚ) (hubNowUs : UInt32) (o : Sent) : Prop where
  ahead : (o.tBase - hubNowUs).toNat ≤ 120000
  start : |((o.tBase - hubNowUs).toNat : ℚ) - 1000000 * max 0 ((kf.position o.span - axisPos) / speed)| ≤ 1 / 2
  finish : 10 ≤ 1000 * ((kf.position (o.span + 1) - max (kf.position o.span) axisPos) / speed) →
    1000 * ((kf.position (o.span + 1) - max (kf.position o.span) axisPos) / speed) ≤ 65535 →
    |((o.tBase - hubNowUs).toNat / 1000 : ℚ) + o.sample.durMs -
      1000 * ((kf.position (o.span + 1) - axisPos) / speed)| < 1

section

variable {kf : KeyframeCollection} {t : SegTick} {axisPos speed : ℚ} {i : Nat}

theorem offUs_bounds (hdue : kf.position i ≤ axisPos + segLookaheadMs / 1000 * speed) (hspeed : 0 < speed) :
    0 ≤ offUs kf axisPos speed i ∧ offUs kf axisPos speed i ≤ 120000 ∧
      |(offUs kf axisPos speed i : ℚ) - 1000000 * max 0 ((kf.position i - axisPos) / speed)| ≤ 1 / 2 := by
  have hahead : max 0 (aheadSec kf axisPos speed i) * 1000000 ≤ ((120000 : Int) : ℚ) := by
    have hle : aheadSec kf axisPos speed i ≤ 12 / 100 := by
      rw [aheadSec, div_le_iff₀ hspeed]
      rw [segLookaheadMs] at hdue
      linarith
    rcases max_cases 0 (aheadSec kf axisPos speed i) with ⟨h, -⟩ | ⟨h, -⟩ <;>
    · rw [h]
      push_cast
      linarith
  have hpos : ((0 : Int) : ℚ) ≤ max 0 (aheadSec kf axisPos speed i) * 1000000 := by
    have := le_max_left 0 (aheadSec kf axisPos speed i)
    push_cast
    linarith
  have hlo := mathRound_mono_int.1 hpos
  have hhi := mathRound_mono_int.2 hahead
  have heq : offUs kf axisPos speed i = mathRound (max 0 (aheadSec kf axisPos speed i) * 1000000) :=
    mathClamp_of_mem hlo hhi
  rw [heq]
  refine ⟨hlo, hhi, ?_⟩
  have hnear := mathRound_near (max 0 (aheadSec kf axisPos speed i) * 1000000)
  rw [mul_comm 1000000]
  exact hnear

/-- What is left of a span, in seconds. -/
theorem durSec_eq (hspeed : 0 < speed) :
    durSec kf axisPos speed i = (kf.position (i + 1) - max (kf.position i) axisPos) / speed := by
  unfold durSec
  split
  · rename_i h
    rw [aheadSec, lt_div_iff₀ hspeed, zero_mul] at h
    rw [max_eq_left (by linarith)]
  · rename_i h
    rw [aheadSec, lt_div_iff₀ hspeed, zero_mul] at h
    rw [max_eq_right (by linarith)]

theorem timed_sendSegment (s : SegState) (hubNowUs : UInt32)
    (hdue : kf.position i ≤ axisPos + segLookaheadMs / 1000 * speed) (hspeed : 0 < speed) :
    Timed kf axisPos speed hubNowUs (sendSegment kf axisPos speed s hubNowUs i) := by
  obtain ⟨hlo, hhi, hnear⟩ := offUs_bounds hdue hspeed
  have hoff : ((sendSegment kf axisPos speed s hubNowUs i).tBase - hubNowUs).toNat = (offUs kf axisPos speed i).toNat := by
    have hcancel : (sendSegment kf axisPos speed s hubNowUs i).tBase - hubNowUs =
        UInt32.ofNat (offUs kf axisPos speed i).toNat := by
      rw [sendSegment, UInt32.add_comm]
      exact UInt32.add_sub_cancel _ _
    rw [hcancel, UInt32.toNat_ofNat', Nat.mod_eq_of_lt (by omega)]
  have hcast : (((offUs kf axisPos speed i).toNat : Nat) : ℚ) = offUs kf axisPos speed i := by
    exact_mod_cast congrArg (Int.cast (R := ℚ)) (Int.toNat_of_nonneg hlo)
  refine ⟨?_, ?_, ?_⟩
  · rw [hoff]
    omega
  · rw [hoff, hcast]
    exact hnear
  · intro hshort hlong
    have hdur : durMs kf axisPos speed i = mathRound (durSec kf axisPos speed i * 1000) := by
      refine mathClamp_of_mem (mathRound_mono_int.1 ?_) (mathRound_mono_int.2 ?_)
      · rw [durSec_eq hspeed, mul_comm]
        exact hshort
      · rw [durSec_eq hspeed, mul_comm]
        exact hlong
    have hround := mathRound_near (durSec kf axisPos speed i * 1000)
    rw [hoff, hcast]
    change |(offUs kf axisPos speed i / 1000 : ℚ) + durMs kf axisPos speed i -
      1000 * ((kf.position (i + 1) - axisPos) / speed)| < 1
    rw [hdur]
    rw [durSec_eq hspeed] at hround ⊢
    have hsum : (kf.position (i + 1) - axisPos) / speed =
        (kf.position (i + 1) - max (kf.position i) axisPos) / speed + max 0 ((kf.position i - axisPos) / speed) := by
      rcases le_total (kf.position i) axisPos with h | h
      · rw [max_eq_right h, max_eq_left (div_nonpos_of_nonpos_of_nonneg (by linarith) hspeed.le), add_zero]
      · rw [max_eq_left h, max_eq_right (div_nonneg (by linarith) hspeed.le), ← add_div]
        congr 1
        ring
    rw [hsum]
    rw [abs_le] at hnear hround
    rw [abs_lt]
    constructor <;> linarith [hnear.1, hnear.2, hround.1, hround.2]

end

/-! ## One walk -/

/-- Spans to be sent: those with motion that is not over. -/
def moves (kf : KeyframeCollection) (axisPos : ℚ) (i : Nat) : Bool := !kf.isGap i && decide (axisPos < kf.position (i + 1))

/-- A walk over the spans from `i` to `j`. -/
structure Walked (kf : KeyframeCollection) (t : SegTick) (axisPos : ℚ) (i j : Nat)
    (before after : List Sent × SegState) : Prop where
  le : i ≤ j
  due : ∀ k, i ≤ k → k < j → k + 1 < kf.count
  cursor : after.2.emittedSpan = if j = i then before.2.emittedSpan else (j : Int) - 1
  keyframes : after.2.keyframes = before.2.keyframes
  spans : after.1.map Sent.span = before.1.map Sent.span ++ (List.range' i (j - i)).filter (moves kf axisPos)
  timed : ∀ n o, after.1[n]? = some o → before.1[n]? = some o ∨ Timed kf axisPos t.speed (t.hubNowUs n) o

section

variable {kf : KeyframeCollection} {t : SegTick} {axisPos : ℚ}

theorem walked_stop {i : Nat} {before after : List Sent × SegState} (hsent : after.1 = before.1)
    (hcursor : after.2.emittedSpan = before.2.emittedSpan) (hkeyframes : after.2.keyframes = before.2.keyframes) :
    Walked kf t axisPos i i before after where
  le := Nat.le_refl i
  due k hlo hhi := by omega
  cursor := by rw [if_pos rfl, hcursor]
  keyframes := hkeyframes
  spans := by simp [hsent]
  timed n o ho := .inl (hsent ▸ ho)

/-- The walk stops for four reasons, and goes on past a span that it sends or need not send. -/
theorem walked_walk : ∀ (scans i : Nat) (r : List Sent × SegState),
    ∃ j, Walked kf t axisPos i j r (SegState.walk kf t axisPos scans i r)
  | 0, i, r => ⟨i, walked_stop rfl rfl rfl⟩
  | scans + 1, i, (sent, s) => by
    unfold SegState.walk
    split
    · exact ⟨i, walked_stop rfl rfl rfl⟩
    · rename_i hroom
      rw [not_not] at hroom
      split
      · exact ⟨i, walked_stop rfl rfl rfl⟩
      · rename_i hdue
        have hdue' := not_lt.mp hdue
        split
        · rename_i hmoves
          split
          · exact ⟨i, walked_stop rfl rfl rfl⟩
          · obtain ⟨j, h⟩ := walked_walk scans (i + 1)
              (sent ++ [sendSegment kf axisPos t.speed s (t.hubNowUs sent.length) i],
                { s with tokens := s.tokens - 1, emittedSpan := i })
            have hle := h.le
            refine ⟨j, by omega, fun k hlo hhi => ?_, ?_, h.keyframes, ?_, fun n o ho => ?_⟩
            · rcases Nat.eq_or_lt_of_le hlo with rfl | hlt
              · exact hroom.1
              · exact h.due k hlt hhi
            · rw [h.cursor, if_neg (by omega : ¬j = i)]
              split
              · rename_i heq
                rw [heq]
                push_cast
                omega
              · rfl
            · rw [h.spans, show j - i = (j - (i + 1)) + 1 by omega, List.range'_succ,
                List.filter_cons_of_pos (by exact hmoves)]
              simp [sendSegment]
            · rcases h.timed n o ho with hold | hnew
              · rw [List.getElem?_append] at hold
                split at hold
                · exact .inl hold
                · right
                  rename_i hn
                  obtain ⟨hlt, heq⟩ := List.getElem?_eq_some_iff.mp hold
                  have hnth : n = sent.length := by
                    simp only [List.length_singleton] at hlt
                    omega
                  subst hnth
                  rw [List.getElem_singleton] at heq
                  rw [← heq]
                  exact timed_sendSegment s _ hdue' t.speed_pos
              · exact .inr hnew
        · rename_i hskip
          obtain ⟨j, h⟩ := walked_walk scans (i + 1) (sent, { s with emittedSpan := i })
          have hle := h.le
          refine ⟨j, by omega, fun k hlo hhi => ?_, ?_, h.keyframes, ?_, h.timed⟩
          · rcases Nat.eq_or_lt_of_le hlo with rfl | hlt
            · exact hroom.1
            · exact h.due k hlt hhi
          · rw [h.cursor, if_neg (by omega : ¬j = i)]
            split
            · rename_i heq
              rw [heq]
              push_cast
              omega
            · rfl
          · rw [h.spans, show j - i = (j - (i + 1)) + 1 by omega, List.range'_succ,
              List.filter_cons_of_neg (by exact hskip)]

/-- Keyframes before the one that is found have passed. -/
theorem position_of_lt_search {k : Nat} (h : (k : Int) ≤ kf.searchForIndexBefore axisPos) : kf.position k ≤ axisPos := by
  have hlt := kf.search_lt axisPos
  have hk : k < kf.frames.length := by omega
  have hpos := (kf.search_iff axisPos k hk).mpr h
  rw [KeyframeCollection.position, List.getD_eq_getElem?_getD, List.getElem?_eq_getElem hk, Option.getD_some]
  exact hpos

end

/-! ## One tick -/

structure TickRecord where
  before : SegState
  tick : SegTick

namespace TickRecord

variable (r : TickRecord)

def sent : List Sent := (r.before.segTick r.tick).1
def after : SegState := (r.before.segTick r.tick).2
def spans : List Nat := r.sent.map Sent.span
def reanchored : Bool := r.before.reanchors r.tick

/-- The last span that was sent or skipped before; none at a re-anchor. -/
def cursor : Int := if r.reanchored then -1 else r.before.emittedSpan

/-- What is sent has motion that is not over, and starts and ends with its span; what the cursor passes in silence is a
gap, or over. -/
structure Faithful : Prop where
  order : r.spans.Pairwise (· < ·)
  forward : r.cursor ≤ r.after.emittedSpan
  within : ∀ k ∈ r.spans, r.cursor < k ∧ (k : Int) ≤ r.after.emittedSpan
  sends : ∀ n o, r.sent[n]? = some o → ∃ kf axisPos, r.after.keyframes = some kf ∧ r.tick.axisPos = some axisPos ∧
    o.span + 1 < kf.count ∧ kf.isGap o.span = false ∧ axisPos < kf.position (o.span + 1) ∧
    Timed kf axisPos r.tick.speed (r.tick.hubNowUs n) o
  passes : ∀ k : Nat, r.cursor < k → (k : Int) ≤ r.after.emittedSpan → k ∉ r.spans → ∃ kf axisPos,
    r.after.keyframes = some kf ∧ r.tick.axisPos = some axisPos ∧
    (kf.isGap k = false → kf.position (k + 1) ≤ axisPos)

variable {r}

theorem faithful_idle (hsent : r.sent = []) (hcursor : r.after.emittedSpan = r.cursor) : r.Faithful where
  order := by simp [spans, hsent]
  forward := hcursor.ge
  within := by simp [spans, hsent]
  sends n o ho := by simp [hsent] at ho
  passes k hlo hhi := by omega

/-- A tick that walks from where its cursor is. -/
theorem faithful_walked {kf : KeyframeCollection} {axisPos : ℚ} {i j : Nat} {s : SegState}
    (haxis : r.tick.axisPos = some axisPos) (hkf : s.keyframes = some kf) (hs : s.emittedSpan = r.cursor)
    (hi : i = s.firstSpan kf axisPos) (h : Walked kf r.tick axisPos i j ([], s) (r.sent, r.after)) : r.Faithful := by
  have hle := h.le
  have hkeyframes : r.after.keyframes = some kf := h.keyframes.trans hkf
  have hcursor : r.after.emittedSpan = if j = i then r.cursor else (j : Int) - 1 := by
    rw [← hs]
    exact h.cursor
  have hspans : r.spans = (List.range' i (j - i)).filter (moves kf axisPos) := h.spans
  have hstart : r.cursor < i ∧ ∀ k : Nat, r.cursor < k → k < i → kf.position (k + 1) ≤ axisPos := by
    rw [SegState.firstSpan, hs] at hi
    split at hi
    · rename_i hpos
      exact ⟨by omega, fun k hlo hhi => by omega⟩
    · rename_i hneg
      refine ⟨by omega, fun k _ hhi => position_of_lt_search ?_⟩
      push_cast
      omega
  have hmem : ∀ k, k ∈ r.spans ↔ (i ≤ k ∧ k < j) ∧ moves kf axisPos k = true := by
    intro k
    rw [hspans, List.mem_filter, List.mem_range'_1]
    refine and_congr_left fun _ => ?_
    omega
  have hmoves : ∀ k, moves kf axisPos k = true ↔ kf.isGap k = false ∧ axisPos < kf.position (k + 1) := by
    intro k
    rw [moves, Bool.and_eq_true, Bool.not_eq_true', decide_eq_true_eq]
  constructor
  case order =>
    rw [hspans]
    exact List.Pairwise.filter _ List.pairwise_lt_range'
  case forward =>
    rw [hcursor]
    split
    · exact le_refl _
    · omega
  case within =>
    intro k hk
    obtain ⟨⟨hlo, hhi⟩, -⟩ := (hmem k).mp hk
    rw [hcursor, if_neg (by omega)]
    omega
  case sends =>
    intro n o ho
    have hk : o.span ∈ r.spans := List.mem_map_of_mem (List.mem_of_getElem? ho)
    obtain ⟨⟨hlo, hhi⟩, hmove⟩ := (hmem _).mp hk
    obtain ⟨hgap, hend⟩ := (hmoves _).mp hmove
    refine ⟨kf, axisPos, hkeyframes, haxis, h.due _ hlo hhi, hgap, hend, ?_⟩
    rcases h.timed n o ho with hold | hnew
    · simp at hold
    · exact hnew
  case passes =>
    intro k hlo hhi hnot
    refine ⟨kf, axisPos, hkeyframes, haxis, fun hgap => ?_⟩
    by_cases hk : k < i
    · exact hstart.2 k hlo hk
    · rw [hcursor] at hhi
      split at hhi
      · omega
      · by_contra hpast
        exact hnot ((hmem k).mpr ⟨⟨by omega, by omega⟩, (hmoves k).mpr ⟨hgap, not_le.mp hpast⟩⟩)

theorem emittedSpan_sample {axisPos : ℚ} (haxis : r.tick.axisPos = some axisPos) :
    (r.before.sample r.tick axisPos).emittedSpan = r.cursor := by
  have hre : r.reanchored = (r.before.jumps axisPos || r.before.needsResync) := by
    rw [reanchored, SegState.reanchors, haxis]
    rfl
  unfold SegState.sample cursor
  rw [hre]
  dsimp only
  split
  · rfl
  · unfold SegState.refreshStale
    split <;> rfl

/-- **One tick is faithful**, whatever it reads. -/
theorem faithful_segTick (r : TickRecord) : r.Faithful := by
  cases haxis : r.tick.axisPos with
  | none =>
    have hcursor : r.cursor = r.before.emittedSpan := by
      rw [cursor, reanchored, SegState.reanchors, haxis]
      rfl
    have htick : r.before.segTick r.tick =
        ([], { r.before with cacheAgeMs := r.before.cacheAgeMs + max 0 r.tick.dtMs }) := by
      rw [SegState.segTick, haxis]
    refine faithful_idle (by rw [sent, htick]) ?_
    rw [after, htick, hcursor]
  | some axisPos =>
    have hcursor := emittedSpan_sample haxis
    have htick : r.before.segTick r.tick = (r.before.sample r.tick axisPos).proceed r.tick axisPos := by
      rw [SegState.segTick, haxis]
    generalize r.before.sample r.tick axisPos = s at hcursor htick
    unfold SegState.proceed at htick
    cases hkf : s.keyframes with
    | none =>
      rw [hkf] at htick
      exact faithful_idle (by rw [sent, htick]) (by rw [after, htick]; exact hcursor)
    | some kf =>
      rw [hkf] at htick
      dsimp only at htick
      split at htick
      · exact faithful_idle (by rw [sent, htick]) (by rw [after, htick]; exact hcursor)
      · split at htick
        · exact faithful_idle (by rw [sent, htick]) (by rw [after, htick]; exact hcursor)
        · obtain ⟨j, h⟩ := @walked_walk kf r.tick axisPos segMaxScanPerTick
            ((s.refill r.tick.dtMs).firstSpan kf axisPos) ([], s.refill r.tick.dtMs)
          have hwalk : Walked kf r.tick axisPos ((s.refill r.tick.dtMs).firstSpan kf axisPos) j
              ([], s.refill r.tick.dtMs) (r.sent, r.after) := by
            rw [sent, after, htick]
            exact h
          exact @faithful_walked r kf axisPos _ j (s.refill r.tick.dtMs) haxis hkf hcursor rfl hwalk

end TickRecord

/-! ## Between two re-anchors -/

/-- A tick, or a message of the player that asks for a re-anchor. -/
inductive SegEvent
  | tick (t : SegTick)
  | raise

/-- The ticks of a session, oldest first. -/
def SegState.run : SegState → List SegEvent → List TickRecord
  | _, [] => []
  | s, .raise :: es => run { s with needsResync := true } es
  | s, .tick t :: es => ⟨s, t⟩ :: run (s.segTick t).2 es

/-- Nothing moves the cursor between two ticks. -/
theorem linked_run : ∀ (s : SegState) (es : List SegEvent),
    (∀ r, (s.run es).head? = some r → r.before.emittedSpan = s.emittedSpan) ∧
      (s.run es).IsChain fun r r' => r'.before.emittedSpan = r.after.emittedSpan
  | s, [] => ⟨fun r hr => by simp [SegState.run] at hr, by simp [SegState.run]⟩
  | s, .raise :: es => linked_run { s with needsResync := true } es
  | s, .tick t :: es => by
    obtain ⟨hhead, hchain⟩ := linked_run (s.segTick t).2 es
    refine ⟨fun r hr => ?_, ?_⟩
    · rw [SegState.run, List.head?_cons, Option.some.injEq] at hr
      rw [← hr]
    · rw [SegState.run, List.isChain_cons]
      exact ⟨fun r hr => hhead r hr, hchain⟩

/-- Ticks without a re-anchor go on where the one before them stopped. -/
theorem spans_period : ∀ {r : TickRecord} {rs : List TickRecord},
    (r :: rs).IsChain (fun r r' => r'.before.emittedSpan = r.after.emittedSpan) → (∀ q ∈ rs, q.reanchored = false) →
    ((r :: rs).flatMap TickRecord.spans).Pairwise (· < ·) ∧ ∀ k ∈ (r :: rs).flatMap TickRecord.spans, r.cursor < k
  | r, [], _, _ => by
    have h := r.faithful_segTick
    rw [List.flatMap_singleton]
    exact ⟨h.order, fun k hk => (h.within k hk).1⟩
  | r, q :: rs, hchain, hstay => by
    have h := r.faithful_segTick
    rw [List.isChain_cons_cons] at hchain
    obtain ⟨horder, hlater⟩ := spans_period hchain.2 fun q' hq' => hstay q' (List.mem_cons_of_mem _ hq')
    have hcursor : q.cursor = r.after.emittedSpan := by
      rw [TickRecord.cursor, hstay q List.mem_cons_self, ← hchain.1]
      rfl
    rw [List.flatMap_cons]
    refine ⟨List.pairwise_append.mpr ⟨h.order, horder, fun k hk k' hk' => ?_⟩, fun k hk => ?_⟩
    · have hthis := (h.within k hk).2
      have hnext := hlater k' hk'
      omega
    · rcases List.mem_append.mp hk with hk | hk
      · exact (h.within k hk).1
      · have hnext := hlater k hk
        have hforward := h.forward
        omega

/-- **The emitter neither replays nor loses motion**: from one re-anchor to the next spans are sent in order, each at
most once, and every tick is faithful. -/
theorem emits_once (s : SegState) (events : List SegEvent) {earlier period later : List TickRecord}
    (hrun : s.run events = earlier ++ period ++ later) (hperiod : ∀ r ∈ period.tail, r.reanchored = false) :
    (period.flatMap TickRecord.spans).Pairwise (· < ·) ∧ ∀ r ∈ period, r.Faithful := by
  refine ⟨?_, fun r _ => r.faithful_segTick⟩
  have hchain := (linked_run s events).2
  rw [hrun] at hchain
  cases period with
  | nil => simp
  | cons r rs =>
    exact (spans_period hchain.left_of_append.right_of_append hperiod).1

/-- A stroke of a tenth of a second and one of almost a second. -/
def twoStrokes : KeyframeCollection where
  frames := [⟨0, 0⟩, ⟨1 / 10, 1⟩, ⟨1, 0⟩]
  isGap _ := false
  searchForIndexBefore p := if p < 0 then -1 else if p < 1 / 10 then 0 else if p < 1 then 1 else 2
  calculateSlopes _ _ := none
  increasing := by norm_num
  search_lt p := by split_ifs <;> simp
  search_iff p i h := by
    have hi : i < 3 := h
    obtain rfl | rfl | rfl : i = 0 ∨ i = 1 ∨ i = 2 := by omega
    all_goals
      simp only [List.getElem_cons_zero, List.getElem_cons_succ]
      constructor
      · intro hp
        split_ifs <;> first | linarith | norm_num
      · intro hp
        split_ifs at hp <;> first | linarith | (norm_num at hp)

def strokeTick (axisPos : ℚ) : SegTick where
  dtMs := 10
  axisPos := some axisPos
  speed := readSpeed none
  speed_pos := readSpeed_pos none
  keyframes := some twoStrokes

/-- A re-anchor at the start of the script and one tick after it. -/
def twoTicks : List SegEvent := [.tick (strokeTick 0), .tick (strokeTick (1 / 100))]

def atRest : SegState := { tokens := 50, tokenRate := 50, tokenDepth := 50 }

theorem emits_once_strokes : ((atRest.run twoTicks).flatMap TickRecord.spans).Pairwise (· < ·) ∧
    ∀ r ∈ atRest.run twoTicks, r.Faithful := by
  have htail : (atRest.run twoTicks).tail.all (fun r => r.reanchored == false) = true := by decide +kernel
  have hrun : atRest.run twoTicks = [] ++ atRest.run twoTicks ++ [] := by simp
  exact emits_once atRest twoTicks hrun fun r hr => beq_iff_eq.mp (List.all_eq_true.mp htail r hr)

end SlopSync.Mfp
