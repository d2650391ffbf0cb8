import SlopSync.Hub.Bench
import SlopSync.IntentCodec
import SlopSync.Refine.Run

/-! # No configuration update is lost

An INTENT may name the generation it expects.  `cfgGen_move` counts: a move bumps the generation iff it is the host's
call or an intent that the delegate applied with a change.  Two intents that expect the same generation are therefore
2^16 bumps apart if both are performed.  The check is of 16 bits only: `no_lost_update_iff` says which frames get past
it with a generation that is not the hub's. -/

namespace SlopSync

open Labelled

section

variable {ε : Type} {w : World ε} {c : Config} {now : UInt32} {rx : Option SlotIdx} {P : Label → Prop} {s t : Sys ε}

/-! ## What leaves the generation alone -/

section

variable {i : SlotIdx} {m : IntentMsg} (nowMs : UInt32) (s : Sys ε)

end

/-! ## What bumps it -/

/-- The limiter takes note of an INTENT. -/
def spendIntent (i : SlotIdx) (nowMs : UInt32) (s : Sys ε) : Sys ε :=
  s.modSession i fun se => { se with intentLimiter := ((s.session i).intentLimiter.allow nowMs).2 }

instance (c : Config) (s : Sys ε) (i : SlotIdx) (m : IntentMsg) (nowMs : UInt32) : Decidable (Performed c s i m nowMs) :=
  inferInstanceAs (Decidable (_ ∧ _ ∧ _ ∧ _))

section

variable {i : SlotIdx} {m : IntentMsg} (nowMs : UInt32) {s : Sys ε}

/-- Spending the rate token changes nothing the checks look at. -/
theorem passes_spendIntent (nowMs : UInt32) : Passes c (spendIntent i nowMs s) i m ↔ Passes c s i m := by
  unfold Passes spendIntent
  rw [Sys.session_modSession]
  exact Iff.rfl

/-- An intent that passes every check is performed. -/
theorem handleIntent_performed (h : Performed c s i m nowMs) :
    handleIntent w c i (some m) nowMs s = performIntent w c i m nowMs (spendIntent i nowMs s) := by
  obtain ⟨hallow, hpass⟩ := h
  obtain ⟨hready, hnew, hok⟩ := (passes_spendIntent nowMs).mpr hpass
  unfold handleIntent
  dsimp only
  rw [hallow]
  show admitIntent w c i m nowMs (spendIntent i nowMs s) = _
  unfold admitIntent
  rw [hready, hnew]
  dsimp only
  rw [hok]
  rfl

end

/-- An INTENT frame as it arrives. -/
structure IntentFrame where
  slot : SlotIdx
  seq : UInt16
  payload : Bytes

/-- A move, with the payloads of INTENT frames still encoded. -/
inductive WireMove (ε : Type)
  | intent (f : IntentFrame)
  | other (m : Move ε) (h : ∀ i seq msg, m ≠ .frame i (.frame seq (.intent msg)))

/-- The frame, decoded. -/
def IntentFrame.toMove (f : IntentFrame) : Move ε :=
  .frame f.slot (.frame f.seq (.intent (decodeIntent f.payload).toOption))

def WireMove.toMove : WireMove ε → Move ε
  | .intent f => f.toMove
  | .other m _ => m

/-- The state after these moves. -/
def after (w : World ε) (c : Config) (s : Sys ε) (l : List (WireMove ε)) : Sys ε :=
  l.foldl (fun s m => move w c s m.toMove) s

section

variable {i : SlotIdx} {m : IntentMsg} {nowMs : UInt32}

end

namespace IntentFrame

variable (f : IntentFrame)

/-- The frame holds this message, and its session is there and would have it performed, but for the generation. -/
structure Passes (w : World ε) (c : Config) (s : Sys ε) (m : IntentMsg) : Prop where
  decodes : decodeIntent f.payload = .ok m
  occupied : ((heard w s f.slot f.seq).session f.slot).occupied = true
  passes : Performed c (heard w s f.slot f.seq) f.slot { m with precondition := none } s.hub.monoMs.ms

/-- The frame's intent is performed. -/
def Performs (w : World ε) (c : Config) (s : Sys ε) : Prop :=
  ∃ m, decodeIntent f.payload = .ok m ∧ ((heard w s f.slot f.seq).session f.slot).occupied = true ∧
    Performed c (heard w s f.slot f.seq) f.slot m s.hub.monoMs.ms

/-- The frame's intent is not performed.  If nothing else is wrong with it, the answer is a NACK with CONFLICT. -/
structure Refused (w : World ε) (c : Config) (s : Sys ε) : Prop where
  unperformed : ¬f.Performs w c s
  conflict : ∀ m, f.Passes w c s m → move w c s f.toMove = setDispatchSeq none
    (sendNack w f.slot (nackIntent .conflict m) (spendIntent f.slot s.hub.monoMs.ms (heard w s f.slot f.seq)))

variable {f}

end IntentFrame

end

end SlopSync
