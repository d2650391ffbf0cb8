import SlopSync.Refine.Run

/-! # What a proof is over

A proof of the PIN or of a token is over the nonce of its slot.  `Challenged` says where that nonce comes from: it is in
a WELCOME that the hub made for the session.  The hub keeps it so (`challenged_move`), from the HELLO that opens the
session or brings it back on. -/

namespace SlopSync

open Keyed Labelled

section

variable {ε : Type} {w : World ε} {c : Config} {now : UInt32} {rx : Option SlotIdx} {s t u : Sys ε} {i : SlotIdx}

/-- The WELCOME `m` was written for slot `i`; `ok` is what the transport answered. -/
def Welcomed (w : World ε) (s : Sys ε) (i : SlotIdx) (m : WelcomeMsg) (ok : Bool) : Prop :=
  ∃ h t bytes, encodeWelcome w.f32Bits m 700 = some bytes ∧ (h, Io.write i t .welcome 0 0 bytes ok) ∈ s.trace

/-- `m` is a WELCOME that the hub made for the session of slot `i`, with the nonce the slot still has: one that was
written, if it fits a frame. -/
structure Challenged (w : World ε) (s : Sys ε) (i : SlotIdx) (m : WelcomeMsg) : Prop where
  nonce : m.nonce = (s.slot i).nonce
  session : m.sessionId = (s.session i).sessionId
  sent : (∃ ok, Welcomed w s i m ok) ∨ (encodeWelcome w.f32Bits m 700).bind (encodeFrame .welcome 0 0) = none

/-- Nothing is forgotten. -/
theorem Challenged.of_grows {m : WelcomeMsg} (h : Challenged w s i m) (hnonce : (t.slot i).nonce = (s.slot i).nonce)
    (hsid : (t.session i).sessionId = (s.session i).sessionId) (hgrows : ∃ new, t.trace = new ++ s.trace) :
    Challenged w t i m := by
  obtain ⟨new, hnew⟩ := hgrows
  refine ⟨h.nonce.trans hnonce.symm, h.session.trans hsid.symm, h.sent.imp_left ?_⟩
  rintro ⟨ok, g, tr, bytes, hbytes, hmem⟩
  exact ⟨ok, g, tr, bytes, hbytes, hnew ▸ List.mem_append_right new hmem⟩

/-- What tells everyone leaves a challenge as it is. -/
theorem Challenged.of_emits {m : WelcomeMsg} (h : Challenged w s i m) (he : Emits s t) : Challenged w t i m := by
  obtain ⟨new, hnew, -⟩ := he.trace
  exact h.of_grows (congrArg Slot.nonce (he.slot i) :) (he.sessionId i) ⟨new, hnew⟩

theorem Challenged.goLive {m : WelcomeMsg} (h : Challenged w s i m) :
    Challenged w (s.modSession i fun se => { se with state := .live }) i m := by
  refine h.of_grows ?_ ?_ ⟨[], rfl⟩
  · simp [Sys.slot, Sys.modSession, Sys.modSlot]
  · simp [Sys.session, Sys.modSession, Sys.modSlot]

end

end SlopSync
