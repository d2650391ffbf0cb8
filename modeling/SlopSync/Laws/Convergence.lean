import SlopSync.Client.State
import SlopSync.Tables

/-! # STATE shadows converge

- `seqIsNewer_ofNat`: on counts fewer than `2 ^ 15` apart the cyclic comparison of their wrapped values is the
  comparison of the counts;
- `Shadowing`: one channel of a retained store, the frames its publishes produced, and a shadow that is handed any
  of them in any order;
- `Converges` ties the wrapped numbers to the unbounded count of publishes; one step keeps it (`Step.converges`) and
  so does every run (`Run.converges`);
- `shadow_converges`: the shadow holds the newest frame delivered. -/

namespace SlopSync

open Client

/-! ## A channel and its shadow -/

/-- The frames published to one channel, oldest first, and the places of those handed to the shadow. -/
structure Shadowing where
  store : RetainedStore
  frames : List (UInt16 × Bytes) := []
  slot : ShadowSlot := {}
  delivered : List Nat := []

namespace Shadowing

/-- A publish to any channel, or the delivery of a frame published so far that is fewer than `2 ^ 15` publishes away
from the newest one delivered before it. -/
inductive Step (ch : UInt16) : Shadowing → Shadowing → Prop
  | publish {s : Shadowing} {x : UInt16} {payload : Bytes} {r : RetainedStore} {seq : UInt16}
      (h : s.store.publish x payload = some (r, seq)) :
      Step ch s { s with store := r, frames := if x = ch then s.frames ++ [(seq, payload)] else s.frames }
  | refused {s : Shadowing} {x : UInt16} {payload : Bytes} (h : s.store.publish x payload = none) : Step ch s s
  | deliver {s : Shadowing} {i : Nat} {frame : UInt16 × Bytes} (hi : s.frames[i]? = some frame)
      (hnear : ∀ n ∈ s.delivered, (∀ m ∈ s.delivered, m ≤ n) → i < n + 2 ^ 15 ∧ n < i + 2 ^ 15) :
      Step ch s { s with
        slot := (applyStateFrame frame.1 frame.2 s.slot).2
        delivered := i :: s.delivered }

abbrev Run (ch : UInt16) := Relation.ReflTransGen (Step ch)

/-- How many publishes the retained number of a channel stands for, in a store that counted `base` of them before. -/
def retainedSeq (s : RetainedStore) (ch : UInt16) : UInt16 := (s.get ch).elim 0 RetainedEntry.seq

/-- Frame `i` carries publish number `base + i + 1`; the store holds the last one and the shadow the newest
delivered. -/
structure Converges (ch : UInt16) (base : Nat) (s : Shadowing) : Prop where
  numbered : ∀ i frame, s.frames[i]? = some frame →
    frame.1 = UInt16.ofNat (base + i + 1) ∧ frame.2.length ≤ Limits.minTransportPayload
  count : retainedSeq s.store ch = UInt16.ofNat (base + s.frames.length)
  last : ∀ frame, s.frames[s.frames.length - 1]? = some frame →
    (s.store.get ch).map RetainedEntry.payload = some frame.2
  fresh : s.delivered = [] → s.slot.valid = false
  newest : ∀ n ∈ s.delivered, (∀ m ∈ s.delivered, m ≤ n) → s.slot.valid = true ∧
    s.frames[n]? = some (s.slot.seq, s.slot.value)

section

variable {ch x : UInt16} {base : Nat} {s t : Shadowing} {payload : Bytes} {r : RetainedStore} {seq : UInt16}

theorem length_of_publish {st : RetainedStore} (h : st.publish x payload = some (r, seq)) :
    payload.length ≤ Limits.minTransportPayload := by
  unfold RetainedStore.publish at h
  split at h
  · cases h
  · omega

/-- A publish returns the next number of its channel, and the store holds that number. -/
theorem seq_of_publish {st : RetainedStore} (h : st.publish x payload = some (r, seq)) :
    seq = retainedSeq st x + 1 ∧ retainedSeq r x = seq := by
  unfold RetainedStore.publish at h
  split at h
  · cases h
  · split at h
    · rename_i old hold
      cases h
      have hself := Keyed.find?_modifyFirst_self (p := fun e : RetainedEntry => e.channelId == x)
        (f := fun e => { e with seq := e.seq + 1, payload }) (fun _ => rfl) st.entries
      refine ⟨by rw [retainedSeq, hold]; rfl, ?_⟩
      rw [retainedSeq, RetainedStore.get, hself,
        show st.entries.find? (fun e => e.channelId == x) = some old from hold]
      rfl
    · rename_i hnone
      split at h
      · cases h
        refine ⟨by rw [retainedSeq, hnone]; rfl, ?_⟩
        rw [retainedSeq, RetainedStore.get, List.find?_append,
          show st.entries.find? (fun e => e.channelId == x) = none from hnone]
        simp
      · cases h

/-- A publish to the channel itself. -/
theorem Converges.publish (hs : Converges ch base s) (h : s.store.publish ch payload = some (r, seq)) :
    Converges ch base { s with store := r, frames := s.frames ++ [(seq, payload)] } := by
  obtain ⟨hseq, hr⟩ := seq_of_publish h
  have hnum : seq = UInt16.ofNat (base + s.frames.length + 1) := by
    rw [hseq, hs.count, UInt16.ofNat_add (base + s.frames.length) 1]
    rfl
  refine ⟨fun i frame hi => ?_, ?_, fun frame hl => ?_, hs.fresh, fun n hn hmax => ?_⟩
  · rcases Nat.lt_trichotomy i s.frames.length with hlt | rfl | hgt
    · rw [List.getElem?_append_left hlt] at hi
      exact hs.numbered i frame hi
    · rw [List.getElem?_append_right le_rfl, Nat.sub_self] at hi
      cases hi
      exact ⟨hnum, length_of_publish h⟩
    · rw [List.getElem?_eq_none] at hi
      · cases hi
      · rw [List.length_append, List.length_singleton]
        omega
  · rw [hr, hnum, List.length_append, List.length_singleton, Nat.add_assoc]
  · rw [List.length_append, List.length_singleton, Nat.add_sub_cancel, List.getElem?_append_right le_rfl,
      Nat.sub_self] at hl
    cases hl
    exact RetainedStore.get_publish_self h
  · obtain ⟨hv, hf⟩ := hs.newest n hn hmax
    have hlt : n < s.frames.length := (List.getElem?_eq_some_iff.mp hf).1
    refine ⟨hv, ?_⟩
    rw [List.getElem?_append_left hlt]
    exact hf

/-- A publish elsewhere. -/
theorem Converges.publish_other (hs : Converges ch base s) (hne : ch ≠ x)
    (h : s.store.publish x payload = some (r, seq)) : Converges ch base { s with store := r } := by
  have hget : r.get ch = s.store.get ch := RetainedStore.get_publish_other hne h
  have hcount : retainedSeq r ch = retainedSeq s.store ch := by rw [retainedSeq, retainedSeq, hget]
  exact ⟨hs.numbered, hcount.trans hs.count, fun frame hl => by rw [hget]; exact hs.last frame hl, hs.fresh, hs.newest⟩

theorem exists_newest : ∀ {l : List Nat}, l ≠ [] → ∃ n ∈ l, ∀ m ∈ l, m ≤ n := by
  intro l hl
  obtain ⟨n, hn⟩ := Option.isSome_iff_exists.mp (List.isSome_max?_of_ne_nil hl)
  obtain ⟨hmem, hmax⟩ := List.max?_eq_some_iff.mp hn
  exact ⟨n, hmem, hmax⟩

/-- A delivery within the window: applied exactly when it is newer than all before it. -/
theorem Converges.deliver {i : Nat} {frame : UInt16 × Bytes} (hs : Converges ch base s)
    (hi : s.frames[i]? = some frame)
    (hnear : ∀ n ∈ s.delivered, (∀ m ∈ s.delivered, m ≤ n) → i < n + 2 ^ 15 ∧ n < i + 2 ^ 15) :
    Converges ch base { s with
      slot := (applyStateFrame frame.1 frame.2 s.slot).2, delivered := i :: s.delivered } := by
  obtain ⟨hseq, hlen⟩ := hs.numbered i frame hi
  refine ⟨hs.numbered, hs.count, hs.last, (fun h => by cases h), fun n hn hmax => ?_⟩
  have hfits : ¬ Limits.minTransportPayload < frame.2.length := by omega
  by_cases hempty : s.delivered = []
  · have hn' : n = i := by
      rw [hempty] at hn
      exact List.mem_singleton.mp hn
    subst hn'
    simp [applyStateFrame, hfits, hs.fresh hempty, hi]
  · obtain ⟨k, hk, hkmax⟩ := exists_newest hempty
    obtain ⟨hvalid, hheld⟩ := hs.newest k hk hkmax
    obtain ⟨h1, h2⟩ := hnear k hk hkmax
    have hkseq : s.slot.seq = UInt16.ofNat (base + k + 1) := (hs.numbered k _ hheld).1
    -- the shadow compares wrapped numbers; the window makes that the comparison of `i` with `k`
    have hnewer : seqIsNewer frame.1 s.slot.seq = true ↔ k < i := by
      rw [hseq, hkseq, seqIsNewer_ofNat (by omega) (by omega)]
      omega
    rcases Nat.lt_or_ge k i with hlt | hge
    · have hn' : n = i := by
        rcases List.mem_cons.mp hn with rfl | hmem
        · rfl
        · have := hkmax n hmem
          have := hmax i List.mem_cons_self
          omega
      subst hn'
      simp [applyStateFrame, hfits, hvalid, hnewer.mpr hlt, hi]
    · have hn' : n = k := by
        have hkn := hmax k (List.mem_cons_of_mem i hk)
        rcases List.mem_cons.mp hn with rfl | hmem
        · omega
        · exact le_antisymm (hkmax n hmem) hkn
      subst hn'
      have hold : seqIsNewer frame.1 s.slot.seq = false := by
        rw [← Bool.not_eq_true, hnewer]
        omega
      simp [applyStateFrame, hfits, hvalid, hold, hheld]

theorem Step.converges (h : Step ch s t) (hs : Converges ch base s) : Converges ch base t := by
  cases h with
  | @publish x payload r seq h =>
    split
    · rename_i hx
      subst hx
      exact hs.publish h
    · rename_i hx
      exact hs.publish_other (Ne.symm hx) h
  | refused => exact hs
  | deliver hi hnear => exact hs.deliver hi hnear

theorem Run.converges (h : Run ch s t) (hs : Converges ch base s) : Converges ch base t := by
  induction h with
  | refl => exact hs
  | tail _ hstep ih => exact hstep.converges ih

/-- Nothing published yet and an empty shadow; the channel may have been published any number of times before. -/
theorem converges_start (store : RetainedStore) (ch : UInt16) :
    Converges ch (retainedSeq store ch).toNat { store } :=
  ⟨fun _ _ h => by simp at h, by simp, fun _ h => by simp at h, fun _ => rfl, fun _ h => by simp at h⟩

end

end Shadowing

/-- **Shadows converge**: whatever was published, lost, repeated or reordered within the window, the shadow holds the
newest frame delivered, which is the retained value once that frame is the last one published. -/
theorem shadow_converges (store : RetainedStore) (ch : UInt16) {s : Shadowing} (h : Shadowing.Run ch { store } s) :
    (s.delivered = [] → s.slot.valid = false) ∧
    ∀ n ∈ s.delivered, (∀ m ∈ s.delivered, m ≤ n) →
      s.slot.valid = true ∧ s.frames[n]? = some (s.slot.seq, s.slot.value) ∧
      (n + 1 = s.frames.length → (s.store.get ch).map RetainedEntry.payload = some s.slot.value) := by
  have hs := h.converges (Shadowing.converges_start store ch)
  refine ⟨hs.fresh, fun n hn hmax => ?_⟩
  obtain ⟨hv, hf⟩ := hs.newest n hn hmax
  refine ⟨hv, hf, fun hlast => ?_⟩
  have hn' : n = s.frames.length - 1 := by omega
  rw [hn'] at hf
  exact hs.last _ hf

/-- Two publishes delivered the wrong way round: the later one stays. -/
theorem shadow_converges_reordered : ∃ s : Shadowing, Shadowing.Run 0x0110 { store := {} } s ∧
    s.delivered = [0, 1] ∧ s.slot.value = [2] ∧
    (s.store.get 0x0110).map RetainedEntry.payload = some s.slot.value := by
  let one : RetainedStore := ⟨[⟨0x0110, 1, [1]⟩], by decide⟩
  let two : RetainedStore := ⟨[⟨0x0110, 2, [2]⟩], by decide⟩
  have hone : ({} : RetainedStore).publish 0x0110 [1] = some (one, 1) := rfl
  have htwo : one.publish 0x0110 [2] = some (two, 2) := rfl
  let sent : Shadowing := { store := two, frames := [(1, [1]), (2, [2])] }
  let late : Shadowing := { sent with slot := ⟨true, 2, [2]⟩, delivered := [1] }
  have h1 : Shadowing.Step 0x0110 { store := {} } { store := one, frames := [(1, [1])] } :=
    @Shadowing.Step.publish 0x0110 _ 0x0110 [1] one 1 hone
  have h2 : Shadowing.Step 0x0110 { store := one, frames := [(1, [1])] } sent :=
    @Shadowing.Step.publish 0x0110 _ 0x0110 [2] two 2 htwo
  have h3 : Shadowing.Step 0x0110 sent late :=
    @Shadowing.Step.deliver 0x0110 sent 1 (2, [2]) rfl (by simp [sent])
  have h4 : Shadowing.Step 0x0110 late { late with delivered := [0, 1] } :=
    @Shadowing.Step.deliver 0x0110 late 0 (1, [1]) rfl (by simp [late])
  have hrun := (((Relation.ReflTransGen.single h1).tail h2).tail h3).tail h4
  exact ⟨_, hrun, rfl, rfl, ((shadow_converges {} 0x0110 hrun).2 1 (by decide) (by decide)).2.2 rfl⟩

end SlopSync
