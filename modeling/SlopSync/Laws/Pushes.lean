import SlopSync.Hub.Bench
import SlopSync.Laws.Convergence
import SlopSync.Laws.Tallies

/-! # What a push record stands for

Snapshots are conflated: a subscriber is only ever sent the newest one, and its push record has the number of the last that
its transport accepted.

- `records_count`: the record lags behind the retained number by the publishes since (mod 2^16).  So news is pending exactly
  while these are fewer than half a wrap, and with none of them the subscriber was last sent what is retained. -/

namespace SlopSync

/-- The last snapshot of a channel that the transport accepted, and the publishes since. -/
structure LastPush where
  seq : UInt16
  payload : Bytes
  since : Nat := 0
  deriving DecidableEq, Repr

def pushTally : Tally (UInt16 → Option LastPush) where
  blank _ := none
  offered b _ _ := b
  sent b _ _ _ := b
  pushed b ch seq payload := Function.update b ch (some { seq, payload })
  published b ch := Function.update b ch ((b ch).map fun last => { last with since := last.since + 1 })

/-- The last push of each channel to the session that slot `i` has. -/
def pushBook {ε : Type} (s : Sys ε) (i : SlotIdx) : UInt16 → Option LastPush := pushTally.read s.trace i

/-- The retained snapshot is so many publishes ahead of the last push. -/
structure LastPush.Behind (last : LastPush) (r : RetainedEntry) : Prop where
  seq : r.seq = last.seq + UInt16.ofNat last.since
  payload : last.since = 0 → r.payload = last.payload

theorem LastPush.Behind.newer {last : LastPush} {r : RetainedEntry} (h : last.Behind r) :
    seqIsNewer r.seq last.seq = true ↔ 0 < last.since % 2 ^ 16 ∧ last.since % 2 ^ 16 < 2 ^ 15 := by
  have hlag : r.seq - last.seq = UInt16.ofNat last.since := by
    rw [h.seq, UInt16.add_comm, UInt16.add_sub_cancel]
  rw [seqIsNewer_iff, hlag, UInt16.toNat_ofNat']

/-- One more publish. -/
theorem LastPush.Behind.publish {last : LastPush} {r r' : RetainedEntry} (h : last.Behind r) (hseq : r'.seq = r.seq + 1) :
    ({ last with since := last.since + 1 } : LastPush).Behind r' where
  seq := by
    rw [hseq, h.seq, UInt16.ofNat_add, UInt16.add_assoc]
    rfl
  payload hzero := absurd hzero (Nat.succ_ne_zero _)

/-- Every push record is the last push, and that is behind the retained snapshot. -/
def Lags (b : UInt16 → Option LastPush) (pushed : UInt16 → Option UInt16) (r : RetainedStore) : Prop :=
  ∀ ch q, pushed ch = some q → ∃ last e, b ch = some last ∧ last.seq = q ∧ r.get ch = some e ∧ last.Behind e

variable {b : UInt16 → Option LastPush} {p p' : UInt16 → Option UInt16} {r r' : RetainedStore} {ch : UInt16}

theorem Lags.push {e : RetainedEntry} (h : Lags b p r) (hget : r.get ch = some e)
    (hch : p' ch = some e.seq ∨ p' ch = none) (hother : ∀ x, x ≠ ch → p' x = p x) :
    Lags (pushTally.pushed b ch e.seq e.payload) p' r := by
  intro x q hq
  show ∃ last e', Function.update b ch (some { seq := e.seq, payload := e.payload }) x = some last ∧ _
  by_cases hx : x = ch
  · subst hx
    rcases hch with hch | hch
    · obtain rfl : e.seq = q := Option.some.inj (hch.symm.trans hq)
      rw [Function.update_self]
      exact ⟨_, e, rfl, rfl, hget, ⟨(UInt16.add_zero _).symm, fun _ => rfl⟩⟩
    · rw [hch] at hq
      cases hq
  · rw [Function.update_of_ne hx]
    exact h x q (hother x hx ▸ hq)

/-- A publish takes the number of its channel one further. -/
theorem get_published {e : RetainedEntry} {payload : Bytes} {seq : UInt16} (hget : r.get ch = some e)
    (hpub : r.publish ch payload = some (r', seq)) : ∃ e', r'.get ch = some e' ∧ e'.seq = e.seq + 1 := by
  have hpayload := RetainedStore.get_publish_self hpub
  obtain ⟨e', he', -⟩ := Option.map_eq_some_iff.mp hpayload
  obtain ⟨hnext, hnow⟩ := Shadowing.seq_of_publish hpub
  rw [Shadowing.retainedSeq, hget] at hnext
  rw [Shadowing.retainedSeq, he'] at hnow
  exact ⟨e', he', hnow.trans hnext⟩

theorem Lags.publish {payload : Bytes} {seq : UInt16} (h : Lags b p r) (hpub : r.publish ch payload = some (r', seq)) :
    Lags (pushTally.published b ch) p r' := by
  intro x q hq
  obtain ⟨last, e, hlast, hseq, hget, hbehind⟩ := h x q hq
  show ∃ last e', Function.update b ch ((b ch).map fun last => { last with since := last.since + 1 }) x = some last ∧ _
  by_cases hx : x = ch
  · subst hx
    obtain ⟨e', he', hnext⟩ := get_published hget hpub
    rw [Function.update_self, hlast, Option.map_some]
    exact ⟨_, e', rfl, hseq, he', hbehind.publish hnext⟩
  · rw [Function.update_of_ne hx, RetainedStore.get_publish_other hx hpub]
    exact ⟨last, e, hlast, hseq, hget, hbehind⟩

theorem push_law : pushTally.Law fun b _ p r => Lags b p r where
  blank _ _ _ h := by cases h
  offered _ _ h := h
  sent _ h _ := h
  discarded h _ _ := h
  pushed h hget hch hother := h.push hget hch hother
  published h hpub := h.publish hpub

/-- **Record and retained snapshot are apart by the publishes since the last push.** -/
theorem records_count {ε : Type} (w : World ε) (c : Config) (e : ε) (calls : List (Call ε)) (i : SlotIdx) (ch q : UInt16)
    (hq : lastPushed ((run w c e calls).slot i).pushRecords ch = some q) :
    ∃ last r, pushBook (run w c e calls) i ch = some last ∧ last.seq = q ∧
      (run w c e calls).hub.retained.get ch = some r ∧
      (seqIsNewer r.seq q = true ↔ 0 < last.since % 2 ^ 16 ∧ last.since % 2 ^ 16 < 2 ^ 15) ∧
      (last.since = 0 → r.payload = last.payload) := by
  have hreach : ReachBy w c (fun _ _ => True) (run w c e calls) := reachBy_of_reachable ⟨e, calls, rfl⟩
  obtain ⟨last, r, hlast, rfl, hget, hbehind⟩ := push_law.holds hreach i ch q hq
  exact ⟨last, r, hlast, rfl, hget, hbehind.newer, hbehind.payload⟩

/-- A subscriber is sent one snapshot, and two more are published. -/
def Bench.outrun : List (Call Bench) :=
  [.world { answer := .configure }, .attachTransport 0,
    Bench.reads 1000 0 [.hello (some { Bench.hello 1 with subscriptions := [{ channelId := 0x0101 }] })],
    .publishState 0x0101 [1], .update 2000 fun _ => [], .publishState 0x0101 [2], .publishState 0x0101 [3]]

/-- Its record is two behind. -/
theorem records_count_outrun :
    ∃ last r, pushBook (run Bench.world Bench.config {} Bench.outrun) 0 0x0101 = some last ∧ last.seq = 1 ∧
      (run Bench.world Bench.config {} Bench.outrun).hub.retained.get 0x0101 = some r ∧
      (seqIsNewer r.seq 1 = true ↔ 0 < last.since % 2 ^ 16 ∧ last.since % 2 ^ 16 < 2 ^ 15) ∧
      (last.since = 0 → r.payload = last.payload) :=
  records_count Bench.world Bench.config {} Bench.outrun 0 0x0101 1 (by decide +kernel)

end SlopSync
