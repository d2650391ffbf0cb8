import SlopSync.Fragmentation
import SlopSync.Patches

/-! # What a reassembled frame is made of

A slot counts the fragments it has placed and compares the count with the number that the last one announced.

- `Assembly`: what fragments do to a slot, their bytes apart; `Reflects` ties a slot to it, and taking a fragment keeps
  the tie (`FragSlot.take_reflects`);
- `Reassembler.tied_run`: in every run every slot is tied to the assembly of the fragments it took;
- `never_invents_iff`: when the bytes of a completed frame come from the fragments they should come from. -/

namespace SlopSync

open Patches

/-! ## Assemblies -/

/-- A fragment as it was placed; a message in one piece goes to cell 0, whatever its index. -/
structure Placed where
  cell : Nat
  frag : Fragment
  deriving DecidableEq, Repr

namespace Placed

def offset (unit : Nat) (p : Placed) : Nat := p.cell * unit
def bytes (p : Placed) : Bytes := p.frag.slice

end Placed

structure Assembly where
  unit : Nat := 0
  total : Nat := 0
  last : Nat := 0
  placed : List Placed := []
  parked : Option Fragment := none
  deriving DecidableEq, Repr

namespace Assembly

/-- The first fragment of a cell stays. -/
def put (a : Assembly) (cell : Nat) (f : Fragment) : Assembly :=
  if cell ∈ a.placed.map Placed.cell then a else { a with placed := a.placed ++ [⟨cell, f⟩] }

def learn (a : Assembly) (f : Fragment) : Assembly :=
  if a.unit = 0 then { a with unit := f.slice.length % 2 ^ 16 } else a

def unpark (a : Assembly) : Assembly :=
  match a.parked with
  | none => a
  | some f => if a.unit = 0 then a else { a.put f.index f with parked := none }

def take (a : Assembly) (f : Fragment) : Assembly :=
  if f.start && !f.more then { a with total := 1, last := f.slice.length % 2 ^ 16 }.put 0 f
  else if f.more then ((a.learn f).put f.index f).unpark
  else
    let a := { a with total := f.index + 1, last := f.slice.length % 2 ^ 16 }
    if a.unit = 0 then { a with parked := some f } else a.put f.index f

/-- What a slot makes of the fragments it took. -/
def of (log : List Fragment) : Assembly := log.foldl take {}

/-- The assembly of a log takes its fragments one by one. -/
theorem of_append (log : List Fragment) (f : Fragment) : of (log ++ [f]) = (of log).take f := by
  rw [of, List.foldl_append]
  rfl

/-- The cell that a byte of the payload belongs to, and how many bytes a cell has. -/
def cellOf (a : Assembly) (m : Nat) : Nat := if m < (a.total - 1) * a.unit then m / a.unit else a.total - 1

def share (a : Assembly) (k : Nat) : Nat := if k + 1 < a.total then a.unit else a.last

def payloadLen (a : Assembly) : Nat := (a.total - 1) * a.unit + a.last

end Assembly

/-! ## What is promised, and when it holds -/

/-- A fragment of every index was taken, and each byte of the payload was copied from the same byte of the fragment
with the index of its cell. -/
def FromFragments (log : List Fragment) (payload : Bytes) : Prop :=
  (∀ k, k < (Assembly.of log).total → ∃ f ∈ log, f.index = k) ∧
  ∀ m, m < payload.length → ∃ p,
    writer (Placed.offset (Assembly.of log).unit) Placed.bytes (Assembly.of log).placed m = some p ∧
    p.frag.index = (Assembly.of log).cellOf m ∧
    p.offset (Assembly.of log).unit = (Assembly.of log).cellOf m * (Assembly.of log).unit ∧
    payload[m]? = p.frag.slice[m - (Assembly.of log).cellOf m * (Assembly.of log).unit]?

/-- A fragment of every index was taken; and unless its cell is empty, the fragment placed there has the index of the
cell and fills it, and none placed later reaches into it. -/
def SoundFragments (log : List Fragment) : Prop :=
  ∀ k, k < (Assembly.of log).total → (∃ f ∈ log, f.index = k) ∧
    (0 < (Assembly.of log).share k → ∃ before p after, (Assembly.of log).placed = before ++ p :: after ∧
      p.frag.index = k ∧ p.offset (Assembly.of log).unit = k * (Assembly.of log).unit ∧
      (Assembly.of log).share k ≤ p.frag.slice.length ∧
      ∀ q ∈ after, q.frag.slice = [] ∨
        q.offset (Assembly.of log).unit + q.frag.slice.length ≤ k * (Assembly.of log).unit ∨
        k * (Assembly.of log).unit + (Assembly.of log).share k ≤ q.offset (Assembly.of log).unit)

/-! ## A slot and its assembly -/

/-- What a slot shows at a byte: the fragment placed last over it, or the zero it began with. -/
def shown (unit : Nat) (ps : List Placed) (m : Nat) : Option UInt8 :=
  (writer (Placed.offset unit) Placed.bytes ps m).elim (some 0) fun p => p.frag.slice[m - p.offset unit]?

structure Reflects (s : FragSlot) (a : Assembly) : Prop where
  unit : s.unitLen.toNat = a.unit
  total : s.totalFragments.toNat = a.total
  last : s.lastFragLen.toNat = a.last
  mask : ∀ i, i ∈ s.receivedMask ↔ i ∈ a.placed.map Placed.cell
  count : s.receivedCount = a.placed.length
  parked : s.pendingLast = a.parked.map fun f => (f.index, f.slice)
  size : s.data.length = kMaxSlotPayload
  bytes : ∀ m, m < kMaxSlotPayload → s.data[m]? = shown a.unit a.placed m
  cells : (a.placed.map Placed.cell).Nodup
  early : a.unit = 0 → ∀ p ∈ a.placed, p.frag.slice = [] ∨ p.cell = 0

section

variable {s t : FragSlot} {a : Assembly} {f : Fragment} {cell : Nat}

theorem reflects_fresh (type : UInt8) (seq : UInt16) (startMs : UInt32) :
    Reflects { type, seq, startMs } {} where
  unit := rfl
  total := rfl
  last := rfl
  mask _ := by simp
  count := rfl
  parked := rfl
  size := List.length_replicate
  bytes m hm := by
    rw [List.getElem?_replicate, if_pos hm]
    rfl
  cells := List.nodup_nil
  early _ _ h := absurd h List.not_mem_nil

/-- Placing, as putting; the slice that is new must be empty or at the front while the unit is not known. -/
theorem Reflects.place (h : Reflects s a) (hs : s.placeFragment cell f.slice = some t)
    (hearly : a.unit = 0 → f.slice.length ≤ kMaxSlotPayload → f.slice = [] ∨ cell = 0) : Reflects t (a.put cell f) := by
  unfold FragSlot.placeFragment at hs
  unfold Assembly.put
  split at hs
  · rename_i hmem
    cases hs
    rw [if_pos ((h.mask cell).mp hmem)]
    exact h
  · rename_i hmem
    rw [if_neg (fun hc => hmem ((h.mask cell).mpr hc))]
    dsimp only at hs
    split at hs
    · cases hs
    · rename_i hfits
      cases hs
      have hfit : Fits (Placed.offset a.unit) Placed.bytes s.data.length ⟨cell, f⟩ := by
        simp only [Fits, Placed.offset, Placed.bytes, h.size, ← h.unit]
        omega
      have hlay : lay (Placed.offset a.unit) Placed.bytes s.data ⟨cell, f⟩ =
          s.data.take (cell * s.unitLen.toNat) ++ f.slice ++ s.data.drop (cell * s.unitLen.toNat + f.slice.length) := by
        rw [h.unit]
        rfl
      constructor
      case unit => exact h.unit
      case total => exact h.total
      case last => exact h.last
      case mask =>
        intro i
        simp only [Finset.mem_insert, h.mask, List.map_append, List.mem_append, List.map_cons, List.map_nil,
          List.mem_singleton]
        exact or_comm
      case count => simp [h.count]
      case parked => exact h.parked
      case size =>
        dsimp only
        rw [← hlay, length_lay hfit, h.size]
      case bytes =>
        intro m hm
        dsimp only
        rw [← hlay, getElem?_lay hfit, shown, writer_append]
        split
        · rfl
        · exact h.bytes m hm
      case cells =>
        rw [List.map_append]
        refine List.nodup_append.mpr ⟨h.cells, List.nodup_singleton _, fun x hx y hy => ?_⟩
        rw [List.mem_singleton.mp hy]
        intro heq
        exact hmem ((h.mask cell).mpr (by simpa [heq] using hx))
      case early =>
        intro hunit p hp
        rcases List.mem_append.mp hp with hp | hp
        · exact h.early hunit p hp
        · rw [List.mem_singleton.mp hp]
          exact hearly hunit (by omega)

/-- While the unit is not known nothing depends on it. -/
theorem shown_unit (hearly : ∀ p ∈ a.placed, p.frag.slice = [] ∨ p.cell = 0) (unit : Nat) (m : Nat) :
    shown unit a.placed m = shown 0 a.placed m := by
  have hsame : ∀ p ∈ a.placed, (Covers (Placed.offset unit) Placed.bytes p m ↔
      Covers (Placed.offset 0) Placed.bytes p m) ∧
      (Covers (Placed.offset 0) Placed.bytes p m → p.offset unit = p.offset 0) := by
    intro p hp
    rcases hearly p hp with hempty | hcell
    · simp [Covers, Placed.bytes, hempty]
      omega
    · simp [Covers, Placed.offset, hcell]
  have hwriter : writer (Placed.offset unit) Placed.bytes a.placed m = writer (Placed.offset 0) Placed.bytes a.placed m :=
    List.find?_congr fun p hp => decide_eq_decide.mpr (hsame p (List.mem_reverse.mp hp)).1
  unfold shown
  rw [hwriter]
  cases hw : writer (Placed.offset 0) Placed.bytes a.placed m with
  | none => rfl
  | some p =>
    obtain ⟨hp, hcov⟩ := mem_of_writer hw
    rw [Option.elim_some, Option.elim_some, (hsame p hp).2 hcov]

/-- Learning the unit size keeps the slot a picture of its assembly. -/
theorem Reflects.learn (h : Reflects s a) (f : Fragment) : Reflects (s.learnUnit f.slice) (a.learn f) := by
  have hzero : s.unitLen = 0 ↔ a.unit = 0 := by
    rw [← h.unit, ← UInt16.toNat_inj]
    rfl
  unfold FragSlot.learnUnit Assembly.learn
  by_cases hunit : a.unit = 0
  · rw [if_pos (hzero.mpr hunit), if_pos hunit]
    have hearly := h.early hunit
    refine { h with unit := UInt16.toNat_ofNat', bytes := fun m hm => ?_, early := fun _ => hearly }
    rw [shown_unit hearly, ← hunit]
    exact h.bytes m hm
  · rw [if_neg (fun hc => hunit (hzero.mp hc)), if_neg hunit]
    exact h

/-- Placing the parked last fragment keeps the slot a picture of its assembly. -/
theorem Reflects.unpark (h : Reflects s a) (hs : s.placePending = some t) : Reflects t a.unpark := by
  have hzero : s.unitLen = 0 ↔ a.unit = 0 := by
    rw [← h.unit, ← UInt16.toNat_inj]
    rfl
  have hpending := h.parked
  unfold FragSlot.placePending at hs
  unfold Assembly.unpark
  cases hp : a.parked with
  | none =>
    rw [hp] at hpending
    rw [hpending] at hs
    cases hs
    exact h
  | some f =>
    rw [hp] at hpending
    rw [hpending, Option.map_some] at hs
    dsimp only at hs ⊢
    by_cases hunit : a.unit = 0
    · rw [if_pos (hzero.mpr hunit)] at hs
      rw [if_pos hunit]
      cases hs
      exact h
    · rw [if_neg (fun hc => hunit (hzero.mp hc))] at hs
      rw [if_neg hunit]
      obtain ⟨u, hu, rfl⟩ := Option.map_eq_some_iff.mp hs
      have hplaced := h.place hu fun hc => absurd hc hunit
      exact { hplaced with parked := rfl }

/-- **Taking a fragment** keeps a slot tied to its assembly. -/
theorem FragSlot.take_reflects (h : Reflects s a) (hindex : f.index < kMaxFragmentsPerMessage)
    (hs : s.take f = some t) : Reflects t (a.take f) := by
  have hzero : s.unitLen = 0 ↔ a.unit = 0 := by
    rw [← h.unit, ← UInt16.toNat_inj]
    rfl
  have hmod : ∀ n, (UInt16.ofNat n).toNat = n % 2 ^ 16 := fun n => UInt16.toNat_ofNat'
  unfold take at hs
  unfold Assembly.take
  dsimp only at hs ⊢
  split at hs
  · rename_i hsingle
    rw [if_pos hsingle]
    have hnow : Reflects { s with log := s.log ++ [f], totalFragments := 1, lastFragLen := UInt16.ofNat f.slice.length }
        { a with total := 1, last := f.slice.length % 2 ^ 16 } :=
      { h with total := rfl, last := hmod _ }
    exact hnow.place hs fun _ _ => .inr rfl
  · rename_i hsingle
    rw [if_neg hsingle]
    split at hs
    · rename_i hmore
      rw [if_pos hmore]
      obtain ⟨u, hu, hpending⟩ := Option.bind_eq_some_iff.mp hs
      have hnow : Reflects { s with log := s.log ++ [f] } a := { h with }
      refine ((hnow.learn f).place hu fun hunit hlen => ?_).unpark hpending
      -- the unit stays unknown only when the slice is empty
      left
      have hsmall : f.slice.length < 2 ^ 16 := by
        have : kMaxSlotPayload = 504 := rfl
        omega
      have hlearn : f.slice.length % 2 ^ 16 = 0 := by
        unfold Assembly.learn at hunit
        split at hunit
        · exact hunit
        · contradiction
      rw [Nat.mod_eq_of_lt hsmall] at hlearn
      exact List.length_eq_zero_iff.mp hlearn
    · rename_i hmore
      rw [if_neg hmore]
      have hcount : (UInt16.ofNat (f.index + 1)).toNat = f.index + 1 := by
        rw [hmod]
        have : kMaxFragmentsPerMessage = 32 := rfl
        omega
      have hnow : Reflects
          { s with log := s.log ++ [f], totalFragments := UInt16.ofNat (f.index + 1)
                   lastFragLen := UInt16.ofNat f.slice.length }
          { a with total := f.index + 1, last := f.slice.length % 2 ^ 16 } :=
        { h with total := hcount, last := hmod _ }
      by_cases hunit : a.unit = 0
      · rw [if_neg (not_not.mpr (hzero.mpr hunit))] at hs
        rw [if_pos hunit]
        split at hs
        · cases hs
        · cases hs
          exact { hnow with parked := rfl }
      · rw [if_pos (fun hc => hunit (hzero.mp hc))] at hs
        rw [if_neg hunit]
        exact hnow.place hs fun hc => absurd hc hunit

/-- What placing leaves alone. -/
structure KeepsSlot (s t : FragSlot) : Prop where
  type : t.type = s.type
  seq : t.seq = s.seq
  channel : t.channel = s.channel
  startMs : t.startMs = s.startMs
  log : t.log = s.log

theorem KeepsSlot.trans {u : FragSlot} (h : KeepsSlot s t) (h' : KeepsSlot t u) : KeepsSlot s u :=
  ⟨h'.type.trans h.type, h'.seq.trans h.seq, h'.channel.trans h.channel, h'.startMs.trans h.startMs,
    h'.log.trans h.log⟩

/-- Placing a fragment writes the buffer and its bookkeeping, and nothing that names the slot. -/
theorem keepsSlot_place {b : Bytes} (hs : s.placeFragment cell b = some t) : KeepsSlot s t := by
  unfold FragSlot.placeFragment at hs
  split at hs
  · cases hs
    exact ⟨rfl, rfl, rfl, rfl, rfl⟩
  · dsimp only at hs
    split at hs
    · cases hs
    · cases hs
      exact ⟨rfl, rfl, rfl, rfl, rfl⟩

/-- Learning the unit size leaves what names the slot alone. -/
theorem keepsSlot_learn (s : FragSlot) (b : Bytes) : KeepsSlot s (s.learnUnit b) := by
  unfold FragSlot.learnUnit
  split <;> exact ⟨rfl, rfl, rfl, rfl, rfl⟩

/-- Placing the parked fragment leaves what names the slot alone. -/
theorem keepsSlot_pending (hs : s.placePending = some t) : KeepsSlot s t := by
  unfold FragSlot.placePending at hs
  split at hs
  · cases hs
    exact ⟨rfl, rfl, rfl, rfl, rfl⟩
  · split at hs
    · cases hs
      exact ⟨rfl, rfl, rfl, rfl, rfl⟩
    · obtain ⟨v, hv, rfl⟩ := Option.map_eq_some_iff.mp hs
      have h := keepsSlot_place hv
      exact ⟨h.type, h.seq, h.channel, h.startMs, h.log⟩

/-- A slot stays what it is and remembers what it took. -/
theorem keepsSlot_take (hs : s.take f = some t) : KeepsSlot { s with log := s.log ++ [f] } t := by
  unfold FragSlot.take at hs
  dsimp only at hs
  split at hs
  · have h := keepsSlot_place hs
    exact ⟨h.type, h.seq, h.channel, h.startMs, h.log⟩
  · split at hs
    · obtain ⟨u, hu, hpending⟩ := Option.bind_eq_some_iff.mp hs
      exact ((keepsSlot_learn _ _).trans (keepsSlot_place hu)).trans (keepsSlot_pending hpending)
    · split at hs
      · have h := keepsSlot_place hs
        exact ⟨h.type, h.seq, h.channel, h.startMs, h.log⟩
      · split at hs
        · cases hs
        · cases hs
          exact ⟨rfl, rfl, rfl, rfl, rfl⟩

/-! ## A completed frame -/

/-- Its payload, byte by byte. -/
theorem payload_of_complete {frame : Bytes} (h : Reflects s a) (hs : s.assemble = .ok frame) :
    a.payloadLen ≤ kMaxSlotPayload ∧ (frame.drop kHeaderBytes).length = a.payloadLen ∧
      ∀ m, m < a.payloadLen → (frame.drop kHeaderBytes)[m]? = shown a.unit a.placed m := by
  have hlen : s.totalLen = a.payloadLen := by
    rw [FragSlot.totalLen, h.unit, h.total, h.last]
    rfl
  unfold FragSlot.assemble at hs
  split at hs
  · cases hs
  · rename_i hfits
    cases hs
    have hroom : a.payloadLen ≤ kMaxSlotPayload := by
      rw [← hlen]
      exact Nat.not_lt.mp hfits
    have hdrop : ∀ (header : FrameHeader) (payload : Bytes),
        (encodeFrameHeader header ++ payload).drop kHeaderBytes = payload := fun _ _ => rfl
    rw [hdrop, hlen]
    refine ⟨hroom, by rw [List.length_take, h.size]; omega, fun m hm => ?_⟩
    rw [List.getElem?_take_of_lt hm]
    exact h.bytes m (by omega)

end

/-! ## Cells -/

namespace Assembly

variable {a : Assembly}

/-- Every byte of the payload lies in the cell that `cellOf` gives it. -/
theorem cellOf_spec (hpos : 0 < a.total) {m : Nat} (hm : m < a.payloadLen) :
    a.cellOf m < a.total ∧ a.cellOf m * a.unit ≤ m ∧ m < a.cellOf m * a.unit + a.share (a.cellOf m) := by
  unfold payloadLen at hm
  unfold cellOf
  split
  · rename_i hlt
    have hunit : 0 < a.unit := Nat.pos_of_ne_zero fun h => by
      rw [h, Nat.mul_zero] at hlt
      omega
    have hcell : m / a.unit < a.total - 1 := (Nat.div_lt_iff_lt_mul hunit).mpr hlt
    have hdm := Nat.div_add_mod m a.unit
    have hmod := Nat.mod_lt m hunit
    rw [Nat.mul_comm] at hdm
    rw [share, if_pos (by omega)]
    omega
  · rw [share, if_neg (by omega)]
    omega

/-- A byte lies in one cell only. -/
theorem cellOf_eq {k m : Nat} (hk : k < a.total) (hlo : k * a.unit ≤ m) (hhi : m < k * a.unit + a.share k) :
    a.cellOf m = k ∧ m < a.payloadLen := by
  unfold share at hhi
  unfold cellOf payloadLen
  split at hhi
  · have hle : (k + 1) * a.unit ≤ (a.total - 1) * a.unit := Nat.mul_le_mul_right _ (by omega)
    rw [Nat.add_mul, Nat.one_mul] at hle
    rw [if_pos (by omega)]
    refine ⟨Nat.div_eq_of_lt_le hlo ?_, by omega⟩
    rw [Nat.add_mul, Nat.one_mul]
    exact hhi
  · have hlast : a.total - 1 = k := by omega
    rw [hlast, if_neg (by omega)]
    exact ⟨rfl, hhi⟩

end Assembly

section

variable {s : FragSlot} {a : Assembly}

/-- Fragments that carry anything start at different places. -/
theorem Reflects.inj (h : Reflects s a) {p q : Placed} (hp : p ∈ a.placed) (hq : q ∈ a.placed) (hpe : p.bytes ≠ [])
    (hqe : q.bytes ≠ []) (heq : p.offset a.unit = q.offset a.unit) : p = q := by
  have hcell : p.cell = q.cell := by
    rcases Nat.eq_zero_or_pos a.unit with hunit | hunit
    · rw [(h.early hunit p hp).resolve_left hpe, (h.early hunit q hq).resolve_left hqe]
    · exact Nat.eq_of_mul_eq_mul_right hunit heq
  exact List.inj_on_of_nodup_map h.cells hp hq hcell

/-- A stretch is clear of a placed fragment exactly when the fragment is empty or lies wholly before or after it. -/
theorem clear_iff {unit o n : Nat} (hn : 0 < n) (q : Placed) :
    (∀ m, o ≤ m → m < o + n → ¬Covers (Placed.offset unit) Placed.bytes q m) ↔
      q.frag.slice = [] ∨ q.offset unit + q.frag.slice.length ≤ o ∨ o + n ≤ q.offset unit := by
  rw [← List.length_eq_zero_iff]
  constructor
  · intro h
    by_contra hnot
    have hmax := h (max o (q.offset unit)) (le_max_left _ _) (by omega)
    exact hmax ⟨le_max_right _ _, by simp only [Placed.bytes]; omega⟩
  · rintro h m hlo hhi ⟨hqlo, hqhi⟩
    simp only [Placed.bytes] at hqhi
    omega

/-- Byte by byte, and fragment by fragment. -/
theorem fromFragments_iff {log : List Fragment} {payload : Bytes} (h : Reflects s (Assembly.of log))
    (hpos : 0 < (Assembly.of log).total) (hlen : payload.length = (Assembly.of log).payloadLen)
    (hbytes : ∀ m, m < (Assembly.of log).payloadLen →
      payload[m]? = shown (Assembly.of log).unit (Assembly.of log).placed m) :
    FromFragments log payload ↔ SoundFragments log := by
  unfold FromFragments SoundFragments
  generalize Assembly.of log = a at *
  have hcell : ∀ k, 0 < a.share k →
      ((∀ m, k * a.unit ≤ m → m < k * a.unit + a.share k → ∃ p, writer (Placed.offset a.unit) Placed.bytes a.placed m =
          some p ∧ p.offset a.unit = k * a.unit ∧ p.frag.index = k) ↔
        ∃ before p after, a.placed = before ++ p :: after ∧ p.frag.index = k ∧ p.offset a.unit = k * a.unit ∧
          a.share k ≤ p.frag.slice.length ∧ ∀ q ∈ after, q.frag.slice = [] ∨
            q.offset a.unit + q.frag.slice.length ≤ k * a.unit ∨ k * a.unit + a.share k ≤ q.offset a.unit) := by
    intro k hk
    rw [writer_stretch_iff (Q := fun p : Placed => p.frag.index = k) hk
      fun p hp q hq hpe hqe heq => h.inj hp hq hpe hqe heq]
    refine exists_congr fun before => exists_congr fun p => exists_congr fun after => and_congr_right fun _ => ?_
    rw [and_left_comm]
    refine and_congr_right fun _ => and_congr_right fun _ => and_congr_right fun _ => ?_
    exact forall₂_congr fun q _ => clear_iff hk q
  constructor
  · rintro ⟨hall, hsrc⟩ k hk
    refine ⟨hall k hk, fun hshare => (hcell k hshare).mp fun m hlo hhi => ?_⟩
    obtain ⟨hkm, hm⟩ := Assembly.cellOf_eq hk hlo hhi
    obtain ⟨p, hp, hindex, hoff, -⟩ := hsrc m (hlen.symm ▸ hm)
    rw [hkm] at hindex hoff
    exact ⟨p, hp, hoff, hindex⟩
  · intro hsound
    refine ⟨fun k hk => (hsound k hk).1, fun m hm => ?_⟩
    rw [hlen] at hm
    obtain ⟨hk, hlo, hhi⟩ := Assembly.cellOf_spec hpos hm
    have hshare : 0 < a.share (a.cellOf m) := by omega
    obtain ⟨p, hp, hoff, hindex⟩ := (hcell _ hshare).mpr ((hsound _ hk).2 hshare) m hlo hhi
    refine ⟨p, hp, hindex, hoff, ?_⟩
    rw [hbytes m hm, shown, hp, Option.elim_some, hoff]

end

/-! ## Runs -/

inductive FragCall
  | accept (header : FrameHeader) (fragPayload : Bytes) (nowMs : UInt32)
  | expireStale (nowMs : UInt32)
  deriving DecidableEq, Repr

namespace Reassembler

def call (r : Reassembler) : FragCall → Reassembler
  | .accept header fragPayload nowMs => (r.accept header fragPayload nowMs).2
  | .expireStale nowMs => r.expireStale nowMs

/-- What calls make of a fresh reassembler, oldest first. -/
def run (calls : List FragCall) : Reassembler := calls.foldl call {}

/-- The fragments taken since the slot of a fragment was opened, this one included. -/
def taken (r : Reassembler) (header : FrameHeader) (fragPayload : Bytes) (nowMs : UInt32) : List Fragment :=
  ((r.openSlot header.type header.seq nowMs).2.slots (r.openSlot header.type header.seq nowMs).1).elim []
    FragSlot.log ++ [readFragment header fragPayload]

/-- Every slot is tied to the assembly of the fragments it took. -/
def Tied (r : Reassembler) : Prop := ∀ i s, r.slots i = some s → Reflects s (Assembly.of s.log)

section

variable {r : Reassembler} {header : FrameHeader} {fragPayload : Bytes} {nowMs : UInt32}

/-- Writing a slot that reflects its log keeps the reassembler tied to its logs. -/
theorem Tied.setSlot (h : Tied r) (i : Fin 2) {o : Option FragSlot}
    (ho : ∀ s, o = some s → Reflects s (Assembly.of s.log)) : Tied (r.setSlot i o) := by
  intro j s hs
  unfold Reassembler.setSlot at hs
  dsimp only at hs
  by_cases hj : j = i
  · subst hj
    rw [Function.update_self] at hs
    exact ho s hs
  · rw [Function.update_of_ne hj] at hs
    exact h j s hs

/-- Freeing a slot keeps the reassembler tied to its logs. -/
theorem Tied.free (h : Tied r) (i : Fin 2) : Tied (r.setSlot i none) := h.setSlot i fun _ hs => by cases hs

theorem Tied.stats (h : Tied r) (stats : FragStats) : Tied { r with stats } := h

/-- Expiring stale slots keeps the reassembler tied to its logs. -/
theorem Tied.expireOne (h : Tied r) (type : UInt8) (seq : UInt16) (nowMs : UInt32) : Tied (r.expireOne type seq nowMs) := by
  unfold Reassembler.expireOne
  split
  · exact h
  · split
    · exact (h.free _).stats _
    · exact h

/-- Opening a slot keeps the reassembler tied to its logs. -/
theorem Tied.openSlot (h : Tied r) (type : UInt8) (seq : UInt16) (nowMs : UInt32) :
    Tied (r.openSlot type seq nowMs).2 := by
  have hfresh : ∀ s : FragSlot, some { type, seq, startMs := nowMs : FragSlot } = some s →
      Reflects s (Assembly.of s.log) := by
    rintro s ⟨⟩
    exact reflects_fresh type seq nowMs
  have hexp := h.expireOne type seq nowMs
  unfold Reassembler.openSlot
  dsimp only
  split
  · exact hexp
  · unfold Reassembler.allocSlot
    dsimp only
    split
    · exact hexp.setSlot _ hfresh
    · exact (hexp.setSlot _ hfresh).stats _

/-- A slot that takes a fragment reflects its log with that fragment appended. -/
theorem Tied.taking (h : Tied r) {i : Fin 2} {s t : FragSlot} (hs : r.slots i = some s) (channel : UInt16)
    {f : Fragment} (hindex : f.index < kMaxFragmentsPerMessage) (ht : { s with channel }.take f = some t) :
    Reflects t (Assembly.of t.log) := by
  have hnow : Reflects { s with channel } (Assembly.of s.log) := { h i s hs with }
  rw [(keepsSlot_take ht).log, Assembly.of_append]
  exact FragSlot.take_reflects hnow hindex ht

/-- `accept` keeps the reassembler tied to its logs, whatever it is given. -/
theorem Tied.accept (h : Tied r) (header : FrameHeader) (fragPayload : Bytes) (nowMs : UInt32) :
    Tied (r.accept header fragPayload nowMs).2 := by
  have hopen := h.openSlot header.type header.seq nowMs
  unfold Reassembler.accept
  split
  · exact h
  · split
    · exact h
    · rename_i hindex
      dsimp only
      split
      · exact hopen
      · rename_i s hs
        split
        · exact hopen.free _
        · rename_i t ht
          split
          · refine hopen.setSlot _ fun u hu => ?_
            cases hu
            exact hopen.taking hs header.channel (Nat.not_le.mp hindex) ht
          · split
            · exact hopen.free _
            · exact (hopen.free _).stats _

/-- A frame is that of the slot that took the fragment. -/
theorem accept_frame {frame : Bytes} (h : (r.accept header fragPayload nowMs).1 = .ok (some frame)) :
    (getU16 fragPayload).toNat < kMaxFragmentsPerMessage ∧ ∃ s t,
      (r.openSlot header.type header.seq nowMs).2.slots (r.openSlot header.type header.seq nowMs).1 = some s ∧
      { s with channel := header.channel }.take (readFragment header fragPayload) = some t ∧
      t.isComplete = true ∧ t.assemble = .ok frame := by
  unfold Reassembler.accept at h
  split at h
  · cases h
  · split at h
    · cases h
    · rename_i hindex
      dsimp only at h
      split at h
      · cases h
      · rename_i s hs
        split at h
        · cases h
        · rename_i t ht
          split at h
          · cases h
          · rename_i hdone
            split at h
            · cases h
            · rename_i frame' hframe
              cases h
              exact ⟨Nat.not_le.mp hindex, s, t, hs, ht, by simpa using hdone, hframe⟩

/-- Every call keeps the reassembler tied to its logs. -/
theorem Tied.call (h : Tied r) (e : FragCall) : Tied (r.call e) := by
  cases e with
  | accept header fragPayload nowMs => exact h.accept header fragPayload nowMs
  | expireStale nowMs =>
    have hone : ∀ (q : Reassembler) (i : Fin 2), Tied q →
        Tied ((q.slots i).elim q fun s => q.expireOne s.type s.seq nowMs) := by
      intro q i hq
      cases q.slots i with
      | none => exact hq
      | some s => exact hq.expireOne s.type s.seq nowMs
    exact hone _ 1 (hone r 0 h)

/-- **Every run keeps the slots tied.** -/
theorem tied_run (calls : List FragCall) : Tied (run calls) := by
  have hall : ∀ (calls : List FragCall) {r : Reassembler}, Tied r → Tied (calls.foldl call r) := by
    intro calls
    induction calls with
    | nil => exact fun h => h
    | cons e calls ih => exact fun h => ih (h.call e)
  exact hall calls fun i s hs => by cases hs

end

end Reassembler

/-- **The bytes of a completed frame** come from the fragments they should come from exactly when the fragments are
sound: after any calls, for any fragment that completes a frame. -/
theorem never_invents_iff (calls : List FragCall) {header : FrameHeader} {fragPayload frame : Bytes} {nowMs : UInt32}
    (h : ((Reassembler.run calls).accept header fragPayload nowMs).1 = .ok (some frame)) :
    FromFragments ((Reassembler.run calls).taken header fragPayload nowMs) (frame.drop kHeaderBytes) ↔
      SoundFragments ((Reassembler.run calls).taken header fragPayload nowMs) := by
  have htied := (Reassembler.tied_run calls).openSlot header.type header.seq nowMs
  obtain ⟨hindex, s, t, hs, ht, hdone, hframe⟩ := Reassembler.accept_frame h
  have hreflects := htied.taking hs header.channel hindex ht
  have hlog : (Reassembler.run calls).taken header fragPayload nowMs = t.log := by
    rw [(keepsSlot_take ht).log, Reassembler.taken, hs]
    rfl
  have hpos : 0 < (Assembly.of t.log).total := by
    rw [← hreflects.total]
    rw [FragSlot.isComplete, Bool.and_eq_true, bne_iff_ne, ne_eq, ← UInt16.toNat_inj] at hdone
    exact Nat.pos_of_ne_zero hdone.1
  obtain ⟨-, hlen, hbytes⟩ := payload_of_complete hreflects hframe
  rw [hlog]
  exact fromFragments_iff hreflects hpos hlen hbytes

/-! ## A frame with a hole -/

/-- A fragment of one byte. -/
def byteFragment (flags : UInt8) (index : UInt16) (byte : UInt8) : FragCall :=
  .accept { type := 0x11, flags, seq := 1 } (le16 index ++ [byte]) 0

/-- Two fragments in order. -/
theorem never_invents_pair :
    FromFragments [⟨true, true, 0, [1]⟩, ⟨false, false, 1, [2]⟩] [1, 2] := by
  have h : ((Reassembler.run [byteFragment 3 0 1]).accept { type := 0x11, flags := 0, seq := 1 } (le16 1 ++ [2]) 0).1 =
      .ok (some (encodeFrameHeader { type := 0x11, seq := 1, len := 2 } ++ [1, 2])) := by decide +kernel
  have hiff := never_invents_iff [byteFragment 3 0 1] h
  have htaken : (Reassembler.run [byteFragment 3 0 1]).taken { type := 0x11, flags := 0, seq := 1 } (le16 1 ++ [2]) 0 =
      [⟨true, true, 0, [1]⟩, ⟨false, false, 1, [2]⟩] := by decide +kernel
  rw [htaken] at hiff
  refine hiff.mpr fun k hk => ?_
  have htotal : (Assembly.of [⟨true, true, 0, [1]⟩, ⟨false, false, 1, [2]⟩]).total = 2 := rfl
  rw [htotal] at hk
  obtain rfl | rfl : k = 0 ∨ k = 1 := by omega
  · exact ⟨⟨_, List.mem_cons_self, rfl⟩, fun _ =>
      ⟨[], ⟨0, ⟨true, true, 0, [1]⟩⟩, [⟨1, ⟨false, false, 1, [2]⟩⟩], rfl, rfl, rfl, by decide, by decide⟩⟩
  · exact ⟨⟨_, List.mem_cons_of_mem _ List.mem_cons_self, rfl⟩, fun _ =>
      ⟨[⟨0, ⟨true, true, 0, [1]⟩⟩], ⟨1, ⟨false, false, 1, [2]⟩⟩, [], rfl, rfl, rfl, by decide, by decide⟩⟩

/-- Fragments 0, 5 and 2, the last of three, complete a frame whose middle byte nobody sent. -/
theorem hole_invented :
    ¬∀ (calls : List FragCall) (header : FrameHeader) (fragPayload frame : Bytes) (nowMs : UInt32),
      ((Reassembler.run calls).accept header fragPayload nowMs).1 = .ok (some frame) →
        FromFragments ((Reassembler.run calls).taken header fragPayload nowMs) (frame.drop kHeaderBytes) := by
  intro h
  have hfrom := h [byteFragment 3 0 1, byteFragment 2 5 9] { type := 0x11, flags := 0, seq := 1 } (le16 2 ++ [3])
    (encodeFrameHeader { type := 0x11, seq := 1, len := 3 } ++ [1, 0, 3]) 0 (by decide +kernel)
  have htaken : (Reassembler.run [byteFragment 3 0 1, byteFragment 2 5 9]).taken
      { type := 0x11, flags := 0, seq := 1 } (le16 2 ++ [3]) 0 =
      [⟨true, true, 0, [1]⟩, ⟨false, true, 5, [9]⟩, ⟨false, false, 2, [3]⟩] := by decide +kernel
  rw [htaken] at hfrom
  obtain ⟨f, hf, hindex⟩ := hfrom.1 1 (by decide)
  simp only [List.mem_cons, List.not_mem_nil, or_false] at hf
  rcases hf with rfl | rfl | rfl <;> cases hindex

end SlopSync
