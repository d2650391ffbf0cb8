import Mathlib.Data.Rat.Floor
import SlopSync.Serial

/-! # The segment emitter

`SegTickAsync` of the MultiFunPlayer plugin (`clients/mfp/SlopSync.cs`): a cursor over the keyframes of a script hands
the device every span whose start comes into a short look-ahead, within a token bucket.  Numbers are exact rationals.
Diagnostics (the heartbeat and the stop reasons) are left out. -/

namespace SlopSync.Mfp

/-! ## Numbers -/

/-- `Math.Round`: to the nearest integer, halves to the even one. -/
def mathRound (x : ℚ) : Int :=
  let n := ⌊x⌋
  if x - n < 1 / 2 then n else if 1 / 2 < x - n then n + 1 else if n % 2 = 0 then n else n + 1

def mathClamp {α : Type} [LinearOrder α] (x lo hi : α) : α := max lo (min x hi)

def clamp01 (v : ℚ) : ℚ := if v < 0 then 0 else if 1 < v then 1 else v

theorem mathRound_near (x : ℚ) : |(mathRound x : ℚ) - x| ≤ 1 / 2 := by
  have hlo := Int.floor_le x
  have hhi := Int.lt_floor_add_one x
  unfold mathRound
  dsimp only
  rw [abs_le]
  split
  · constructor <;> linarith
  · split
    · push_cast
      constructor <;> linarith
    · split
      · constructor <;> linarith
      · push_cast
        constructor <;> linarith

theorem mathRound_mono_int {x : ℚ} {n : Int} : ((n : ℚ) ≤ x → n ≤ mathRound x) ∧ (x ≤ n → mathRound x ≤ n) := by
  have hnear := abs_le.mp (mathRound_near x)
  constructor
  · intro h
    have hlt : (n : ℚ) < mathRound x + 1 := by linarith
    exact Int.lt_add_one_iff.mp (by exact_mod_cast hlt)
  · intro h
    have hlt : (mathRound x : ℚ) < n + 1 := by linarith
    exact Int.lt_add_one_iff.mp (by exact_mod_cast hlt)

theorem mathClamp_of_mem {α : Type} [LinearOrder α] {x lo hi : α} (hlo : lo ≤ x) (hhi : x ≤ hi) : mathClamp x lo hi = x := by
  rw [mathClamp, min_eq_left hhi, max_eq_right hlo]

/-! ## Scripts -/

inductive InterpolationType
  | step
  | linear
  | pchip
  | makima
  deriving DecidableEq, Repr

structure Keyframe where
  position : ℚ               -- in seconds of script
  value : ℚ
  deriving DecidableEq, Repr

/-- A script of the player, with the methods of it that the emitter calls: `searchForIndexBefore` gives the last
keyframe at or before a position, negative when there is none. -/
structure KeyframeCollection where
  frames : List Keyframe
  isGap : Nat → Bool
  searchForIndexBefore : ℚ → Int
  calculateSlopes : Nat → InterpolationType → Option ℚ      -- at the end of a span, when it is a number
  increasing : frames.Pairwise fun a b => a.position < b.position
  search_lt : ∀ p, searchForIndexBefore p < frames.length
  search_iff : ∀ p i, (h : i < frames.length) → ((frames[i]).position ≤ p ↔ (i : Int) ≤ searchForIndexBefore p)

namespace KeyframeCollection

variable (kf : KeyframeCollection)

def count : Nat := kf.frames.length
def position (i : Nat) : ℚ := (kf.frames.getD i ⟨0, 0⟩).position
def value (i : Nat) : ℚ := (kf.frames.getD i ⟨0, 0⟩).value

end KeyframeCollection

/-! ## The transform of an axis -/

structure TransformCache where
  scale : ℚ := 1
  invert : Bool := false
  interp : InterpolationType := .linear
  deriving DecidableEq, Repr

/-- A script value as the axis sends it. -/
def TransformCache.transformValue (c : TransformCache) (default raw : ℚ) : ℚ :=
  let v := clamp01 (default + (raw - default) * c.scale)
  if c.invert then 1 - v else v

/-- Values that cannot be used are those of an axis with no transform. -/
def TransformCache.refreshed (c : TransformCache) : TransformCache := if c.scale ≤ 0 then { c with scale := 1 } else c

def segHandoffChordFactor : ℚ := 3 / 2

/-- A tangent no steeper than both chords that meet in it allow. -/
def limitHandoffSlope (kf : KeyframeCollection) (i : Nat) (slope : ℚ) : ℚ :=
  let dtIn := kf.position (i + 1) - kf.position i
  let dtOut := kf.position (i + 2) - kf.position (i + 1)
  if dtIn ≤ 1 / 1000000000 ∨ dtOut ≤ 1 / 1000000000 then 0
  else
    let mIn := |(kf.value (i + 1) - kf.value i) / dtIn|
    let mOut := |(kf.value (i + 2) - kf.value (i + 1)) / dtOut|
    let limit := segHandoffChordFactor * min mIn mOut
    if |slope| ≤ limit then slope else if slope < 0 then -limit else limit

/-- The script's own tangent at the end of a span, or the chord. -/
def scriptSlopeAtSpanEnd (c : TransformCache) (kf : KeyframeCollection) (i : Nat) : ℚ :=
  let chord :=
    let dt0 := kf.position (i + 1) - kf.position i
    if 1 / 1000000000 < dt0 then (kf.value (i + 1) - kf.value i) / dt0 else 0
  let slope := match c.interp with
    | .step => 0
    | .linear => chord
    | interp => (kf.calculateSlopes i interp).getD chord
  limitHandoffSlope kf i slope

/-- The velocity to hand off at the end of span `i`, and whether there is none. -/
def computeEndVel (c : TransformCache) (kf : KeyframeCollection) (i : Nat) (speed : ℚ) : ℚ × Bool :=
  let j := i + 1
  if kf.count ≤ j + 1 then (0, true)
  else if kf.isGap j then (0, true)
  else
    let endVel := scriptSlopeAtSpanEnd c kf i * speed * c.scale * (if c.invert then -1 else 1)
    (mathClamp endVel (-32767 / 1000) (32767 / 1000), false)

/-! ## The tick -/

def segLookaheadMs : ℚ := 120
def segSeekForwardSec : ℚ := 1 / 4
def segSeekBackwardSec : ℚ := 1 / 20
def segFrozenIdleMs : ℚ := 60
def segMaxEmitPerTick : Nat := 4
def segMaxScanPerTick : Nat := 4096
def segMinDurationMs : Int := 10
def segmentWishHz : ℚ := 20

/-- `Media::Speed`, or 1 when it is not a speed. -/
def readSpeed (mediaSpeed : Option ℚ) : ℚ :=
  match mediaSpeed with
  | some s => if 1 / 1000 < s then s else 1
  | none => 1

theorem readSpeed_pos (mediaSpeed : Option ℚ) : 0 < readSpeed mediaSpeed := by
  unfold readSpeed
  split
  · split
    · rename_i h
      linarith
    · exact one_pos
  · exact one_pos

/-- What one tick reads. -/
structure SegTick where
  dtMs : ℚ
  axisPos : Option ℚ                          -- nothing when it cannot be read
  speed : ℚ
  speed_pos : 0 < speed
  keyframes : Option KeyframeCollection       -- read at a re-anchor only
  transform : TransformCache := {}
  hubNowUs : Nat → UInt32 := fun _ => 0       -- before each of its sends

structure SegState where
  keyframes : Option KeyframeCollection := none
  emittedSpan : Int := -1                     -- the last span sent or skipped; -1 when it is to be found again
  lastAxisPos : ℚ := 0
  haveAxisPos : Bool := false
  needsResync : Bool := true
  frozenMs : ℚ := 0
  defaultValue : ℚ := 1 / 2
  transform : TransformCache := {}
  cacheAgeMs : ℚ := 1000000000
  tokens : ℚ
  tokenRate : ℚ
  tokenDepth : ℚ
  throttled : Nat := 0

structure SegmentSample where
  target : ℚ
  durMs : Int
  endVel : ℚ
  sentinel : Bool
  deriving DecidableEq, Repr

/-- A sample as it was sent, with the span it is of. -/
structure Sent where
  span : Nat
  tBase : UInt32
  sample : SegmentSample
  deriving DecidableEq, Repr

section

variable (kf : KeyframeCollection) (axisPos speed : ℚ)

/-- Seconds until span `i` starts, and how long it still lasts once it has. -/
def aheadSec (i : Nat) : ℚ := (kf.position i - axisPos) / speed

def durSec (i : Nat) : ℚ :=
  if 0 < aheadSec kf axisPos speed i then (kf.position (i + 1) - kf.position i) / speed
  else (kf.position (i + 1) - axisPos) / speed

/-- How far ahead of the hub's clock a span is scheduled. -/
def offUs (i : Nat) : Int :=
  mathClamp (mathRound (max 0 (aheadSec kf axisPos speed i) * 1000000)) 0 120000

def durMs (i : Nat) : Int := mathClamp (mathRound (durSec kf axisPos speed i * 1000)) segMinDurationMs 65535

/-- A span that is not entered yet keeps its start and its length; one that is goes from now to its end. -/
def sendSegment (s : SegState) (hubNowUs : UInt32) (i : Nat) : Sent :=
  let (endVel, sentinel) := computeEndVel s.transform kf i speed
  { span := i
    tBase := hubNowUs + UInt32.ofNat (offUs kf axisPos speed i).toNat
    sample := {
      target := s.transform.transformValue s.defaultValue (kf.value (i + 1))
      durMs := durMs kf axisPos speed i
      endVel, sentinel } }

end

namespace SegState

/-- A jump of the media clock. -/
def jumps (s : SegState) (axisPos : ℚ) : Bool :=
  !s.haveAxisPos || decide (segSeekForwardSec < axisPos - s.lastAxisPos) ||
    decide (segSeekBackwardSec < s.lastAxisPos - axisPos)

def watchClock (s : SegState) (axisPos dtMs : ℚ) : SegState :=
  { s with
    frozenMs := if !s.haveAxisPos || decide (1 / 1000000000 < |axisPos - s.lastAxisPos|) then 0 else s.frozenMs + max 0 dtMs
    lastAxisPos := axisPos
    haveAxisPos := true }

/-- Find the cursor again, in keyframes read anew. -/
def reanchor (s : SegState) (t : SegTick) : SegState :=
  { s with
    needsResync := false
    emittedSpan := -1
    cacheAgeMs := 0
    transform := t.transform.refreshed
    keyframes := t.keyframes }

def refreshStale (s : SegState) (t : SegTick) : SegState :=
  if 250 ≤ s.cacheAgeMs then { s with cacheAgeMs := 0, transform := t.transform.refreshed } else s

def refill (s : SegState) (dtMs : ℚ) : SegState :=
  { s with tokens := min s.tokenDepth (s.tokens + s.tokenRate * max 0 dtMs / 1000) }

/-- Walk the spans from `i` while they are due.  One without motion, or whose end has passed, is skipped; one that is
out of tokens is left for the next tick. -/
def walk (kf : KeyframeCollection) (t : SegTick) (axisPos : ℚ) : Nat → Nat → List Sent × SegState → List Sent × SegState
  | 0, _, r => r
  | scans + 1, i, (sent, s) =>
    if ¬(i + 1 < kf.count ∧ sent.length < segMaxEmitPerTick) then (sent, s)
    else if axisPos + segLookaheadMs / 1000 * t.speed < kf.position i then (sent, s)
    else if !kf.isGap i && decide (axisPos < kf.position (i + 1)) then
      if s.tokens < 1 then (sent, { s with throttled := s.throttled + 1 })
      else
        walk kf t axisPos scans (i + 1)
          (sent ++ [sendSegment kf axisPos t.speed s (t.hubNowUs sent.length) i],
            { s with tokens := s.tokens - 1, emittedSpan := i })
    else walk kf t axisPos scans (i + 1) (sent, { s with emittedSpan := i })

/-- Where the walk starts: after the cursor, or at the span the media clock is in. -/
def firstSpan (s : SegState) (kf : KeyframeCollection) (axisPos : ℚ) : Nat :=
  (if 0 ≤ s.emittedSpan then s.emittedSpan + 1 else kf.searchForIndexBefore axisPos).toNat

def emit (s : SegState) (kf : KeyframeCollection) (t : SegTick) (axisPos : ℚ) : List Sent × SegState :=
  let s := s.refill t.dtMs
  walk kf t axisPos segMaxScanPerTick (s.firstSpan kf axisPos) ([], s)

/-- Whether a tick finds the cursor again. -/
def reanchors (s : SegState) (t : SegTick) : Bool := t.axisPos.any fun axisPos => s.jumps axisPos || s.needsResync

/-- Watch the media clock, and find the cursor again if it jumped or if that was asked for. -/
def sample (s : SegState) (t : SegTick) (axisPos : ℚ) : SegState :=
  let anchors := s.jumps axisPos || s.needsResync
  let s := { s with cacheAgeMs := s.cacheAgeMs + max 0 t.dtMs }.watchClock axisPos t.dtMs
  if anchors then s.reanchor t else s.refreshStale t

/-- Emit, unless the script is gone or the media clock stands still. -/
def proceed (s : SegState) (t : SegTick) (axisPos : ℚ) : List Sent × SegState :=
  match s.keyframes with
  | none => ([], { s with needsResync := true })
  | some kf =>
    if kf.count < 2 then ([], { s with needsResync := true })
    else if segFrozenIdleMs ≤ s.frozenMs then ([], s)
    else s.emit kf t axisPos

/-- One tick: what is sent, and the state after it. -/
def segTick (s : SegState) (t : SegTick) : List Sent × SegState :=
  match t.axisPos with
  | none => ([], { s with cacheAgeMs := s.cacheAgeMs + max 0 t.dtMs })
  | some axisPos => (s.sample t axisPos).proceed t axisPos

/-! ## The loop -/

/-- What `SegmentLoopAsync` starts from: a full token bucket sized off the grant.  `segBurst` is nothing when the hub
echoed no burst. -/
def segmentLoopStart (prev : SegState) (segRate : ℚ) (segBurst : Option ℚ) (keyframes : Option KeyframeCollection) : SegState :=
  let tokenRate := if 1 / 2 < segRate then segRate else segmentWishHz
  let tokenDepth := match segBurst with
    | some burst => if 1 ≤ burst then burst else tokenRate
    | none => tokenRate
  { prev with
    keyframes := keyframes
    emittedSpan := -1
    haveAxisPos := false
    needsResync := true
    throttled := 0
    cacheAgeMs := 1000000000
    frozenMs := 0
    tokenRate := tokenRate
    tokenDepth := tokenDepth
    tokens := tokenDepth }

end SegState

end SlopSync.Mfp
