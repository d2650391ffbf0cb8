import Mathlib.Data.Finset.Card
import Mathlib.Data.List.FinRange
import Mathlib.Data.List.ReduceOption
import SlopSync.Laws.Fragments

/-! # Cut and put together again

- `Message`: a frame that is cut into at most 32 fragments, with what `fragmentFrame` makes of it;
- `Collected`: the assembly of any of its fragments in any order, and `assemble_eq`, the frame when all have come;
- `Holding`: what a reassembler holds of at most two messages after a part of the feed; one arrival keeps it
  (`Holding.step`);
- `fragments_round_trip`: each message comes out once, as it went in. -/

namespace SlopSync

open Patches

theorem le16_getU16 (a b : UInt8) (rest : Bytes) : le16 (getU16 (a :: b :: rest)) = [a, b] := by
  have h : (getU16 (a :: b :: rest)).toNat = a.toNat + 256 * b.toNat := by
    have ha := a.toNat_lt
    have hb := b.toNat_lt
    simp only [getU16, List.getD_cons_zero, List.getD_cons_succ, UInt16.toNat_or, UInt16.toNat_shiftLeft,
      UInt8.toNat_toUInt16, UInt16.reduceToNat, Nat.reduceMod]
    rw [Nat.or_comm, Nat.shiftLeft_eq, Nat.mod_eq_of_lt (by omega), ← Nat.shiftLeft_eq,
      ← Nat.shiftLeft_add_eq_or_of_lt ha, Nat.shiftLeft_eq]
    omega
  have ha := a.toNat_lt
  have hb := b.toNat_lt
  have hlo : (getU16 (a :: b :: rest)).toUInt8 = a := by
    rw [← UInt8.toNat_inj, UInt16.toNat_toUInt8, h]
    omega
  have hhi : (getU16 (a :: b :: rest) >>> 8).toUInt8 = b := by
    rw [← UInt8.toNat_inj, UInt16.toNat_toUInt8, UInt16.toNat_shiftRight, h, Nat.shiftRight_eq_div_pow]
    simp only [UInt16.reduceToNat, Nat.reduceMod]
    omega
  rw [le16, hlo, hhi]

/-- A header is the first bytes of what it was read from. -/
theorem encode_of_decode {bs : Bytes} {h : FrameHeader} (hd : decodeFrameHeader bs = some h) :
    encodeFrameHeader h ++ bs.drop kHeaderBytes = bs := by
  unfold decodeFrameHeader at hd
  split at hd
  · cases hd
  · rename_i hlen
    cases hd
    match bs, hlen with
    | a :: b :: c :: d :: e :: f :: g :: i :: rest, _ =>
      simp only [encodeFrameHeader, List.drop_succ_cons, List.drop_zero, List.getD_cons_zero, List.getD_cons_succ,
        kHeaderBytes, le16_getU16, List.cons_append, List.nil_append]
    | [], hlen | [_], hlen | [_, _], hlen | [_, _, _], hlen | [_, _, _, _], hlen | [_, _, _, _, _], hlen
    | [_, _, _, _, _, _], hlen | [_, _, _, _, _, _, _], hlen => simp [kHeaderBytes] at hlen

/-! ## A message -/

/-- A whole frame of plain flags and true length that `fragmentFrame` cuts into 2 to 32 fragments. -/
structure Message where
  frame : Bytes
  maxFrameBytes : UInt16
  header : FrameHeader
  fragments : List Bytes
  decoded : decodeFrameHeader frame = some header
  fits : frame.length ≤ kFrameBufferCapacity
  plain : header.flags = 0
  len : header.len.toNat = frame.length - kHeaderBytes
  cut : fragmentFrame frame maxFrameBytes = some fragments
  several : 2 ≤ fragments.length
  few : fragments.length ≤ kMaxFragmentsPerMessage

namespace Message

variable (m : Message)

def payload : Bytes := m.frame.drop kHeaderBytes
def unit : Nat := m.maxFrameBytes.toNat - kHeaderBytes - kFragIndexBytes
def count : Nat := m.fragments.length

def slice (k : Nat) : Bytes := (m.payload.drop (k * m.unit)).take m.unit

/-- Fragment `k` as it is read. -/
def frag (k : Nat) : Fragment := { start := decide (k = 0), more := decide (k + 1 < m.count), index := k, slice := m.slice k }

/-- A message is its header and its payload. -/
theorem frame_eq : encodeFrameHeader m.header ++ m.payload = m.frame := encode_of_decode m.decoded

theorem length_payload : m.payload.length = m.header.len.toNat ∧ m.payload.length ≤ kMaxSlotPayload := by
  have h := m.fits
  rw [payload, List.length_drop]
  exact ⟨m.len.symm, Nat.sub_le_sub_right h _⟩

/-- Only the last way out of `fragmentFrame` gives more than one piece. -/
theorem cut_eq : 0 < m.unit ∧ m.count = (m.payload.length + m.unit - 1) / m.unit ∧
    m.fragments = (List.range m.count).map (fragment m.header m.payload m.unit m.count) := by
  have hcut := m.cut
  have hseveral := m.several
  unfold fragmentFrame at hcut
  split at hcut
  · cases hcut
  · split at hcut
    · obtain hone := Option.some.inj hcut
      rw [← hone] at hseveral
      simp at hseveral
    · split at hcut
      · cases hcut
      · rw [m.decoded] at hcut
        dsimp only at hcut
        split at hcut
        · cases hcut
        · rename_i hroom
          have hunit : 0 < m.unit := by
            rw [unit]
            omega
          have hfrags := Option.some.inj hcut
          have hcount : m.count = (m.payload.length + m.unit - 1) / m.unit := by
            rw [count, ← hfrags, List.length_map, List.length_range]
            rfl
          refine ⟨hunit, hcount, ?_⟩
          rw [hcount]
          exact hfrags.symm

theorem unit_pos : 0 < m.unit := m.cut_eq.1

/-- The last fragment begins inside the payload and ends with it. -/
theorem count_bounds : (m.count - 1) * m.unit < m.payload.length ∧ m.payload.length ≤ (m.count - 1) * m.unit + m.unit := by
  obtain ⟨hunit, hcount, -⟩ := m.cut_eq
  have hseveral : 2 ≤ m.count := m.several
  have hdm := Nat.div_add_mod (m.payload.length + m.unit - 1) m.unit
  have hmod := Nat.mod_lt (m.payload.length + m.unit - 1) hunit
  rw [← hcount, Nat.mul_comm] at hdm
  have hsplit : m.count * m.unit = (m.count - 1) * m.unit + m.unit := by
    rw [← Nat.succ_mul]
    congr 1
    omega
  omega

def lastLen : Nat := m.payload.length - (m.count - 1) * m.unit

/-- Every slice has the unit's length but the last. -/
theorem length_slice {k : Nat} (hk : k < m.count) :
    (m.slice k).length = (if k + 1 < m.count then m.unit else m.lastLen) ∧
      k * m.unit + (m.slice k).length ≤ m.payload.length := by
  obtain ⟨hlo, hhi⟩ := m.count_bounds
  have hlen : (m.slice k).length = min m.unit (m.payload.length - k * m.unit) := by
    rw [slice, List.length_take, List.length_drop]
  rw [hlen, lastLen]
  split
  · have hle : (k + 1) * m.unit ≤ (m.count - 1) * m.unit := Nat.mul_le_mul_right _ (by omega)
    rw [Nat.add_mul, Nat.one_mul] at hle
    omega
  · have hlast : k = m.count - 1 := by omega
    subst hlast
    omega

theorem lastLen_le : m.lastLen ≤ m.unit := by
  obtain ⟨hlo, hhi⟩ := m.count_bounds
  rw [lastLen]
  omega

/-- A byte of the payload in the slice it is in. -/
theorem getElem?_slice {i : Nat} : (m.slice (i / m.unit))[i - i / m.unit * m.unit]? = m.payload[i]? := by
  have hmod := Nat.mod_lt i m.unit_pos
  have hdm := Nat.div_add_mod i m.unit
  rw [Nat.mul_comm] at hdm
  rw [slice, List.getElem?_take_of_lt (by omega), List.getElem?_drop]
  congr 1
  omega

/-- Every byte lies in a slice. -/
theorem div_lt_count {i : Nat} (hi : i < m.payload.length) : i / m.unit < m.count := by
  have hseveral : 2 ≤ m.count := m.several
  obtain ⟨-, hhi⟩ := m.count_bounds
  rw [Nat.div_lt_iff_lt_mul m.unit_pos]
  have hsplit : m.count * m.unit = (m.count - 1) * m.unit + m.unit := by
    rw [← Nat.succ_mul]
    congr 1
    omega
  omega

/-- What a fragment on the wire is read as. -/
theorem read_fragment {k : Nat} (hk : k < m.count) : ∃ bs h, m.fragments[k]? = some bs ∧ decodeFrameHeader bs = some h ∧
    h.type = m.header.type ∧ h.channel = m.header.channel ∧ h.seq = m.header.seq ∧
    (getU16 (bs.drop kHeaderBytes)).toNat = k ∧ kFragIndexBytes ≤ (bs.drop kHeaderBytes).length ∧
    Reassembler.readFragment h (bs.drop kHeaderBytes) = m.frag k := by
  obtain ⟨-, -, hfrags⟩ := m.cut_eq
  have hget : m.fragments[k]? = some (fragment m.header m.payload m.unit m.count k) := by
    rw [hfrags, List.getElem?_map, List.getElem?_range hk]
    rfl
  have hsmall : k < 2 ^ 16 := by
    have hfew := m.few
    have : kMaxFragmentsPerMessage = 32 := rfl
    have : m.count = m.fragments.length := rfl
    omega
  have hindex : (UInt16.ofNat k).toNat = k := by
    rw [UInt16.toNat_ofNat']
    exact Nat.mod_eq_of_lt hsmall
  have hdrop : (fragment m.header m.payload m.unit m.count k).drop kHeaderBytes =
      le16 (UInt16.ofNat k) ++ m.slice k := rfl
  refine ⟨_, { m.header with
    flags := (if k = 0 then FRAG_START else 0) ||| (if k + 1 < m.count then FRAG_MORE else 0)
    len := UInt16.ofNat (kFragIndexBytes + (m.slice k).length) }, hget, ?_, rfl, rfl, rfl, ?_, ?_, ?_⟩
  · rw [fragment, List.append_assoc]
    exact decodeFrameHeader_encode _ _
  · rw [hdrop, getU16_le16, hindex]
  · rw [hdrop, List.length_append]
    exact Nat.le_add_right 2 _
  · have hstart : ∀ (s n : Bool), (((if s then FRAG_START else 0) ||| (if n then FRAG_MORE else 0)) &&& FRAG_START != 0) = s ∧
        (((if s then FRAG_START else 0) ||| (if n then FRAG_MORE else 0)) &&& FRAG_MORE != 0) = n := by decide
    have hflags := hstart (decide (k = 0)) (decide (k + 1 < m.count))
    simp only [decide_eq_true_eq] at hflags
    rw [Reassembler.readFragment, hdrop, getU16_le16, hindex, FrameHeader.fragStart, FrameHeader.fragMore, hflags.1, hflags.2]
    rfl

end Message

/-! ## Its fragments in any order -/

/-- The unit is known, and the fragments of these cells are in their places. -/
structure Laid (m : Message) (cells : List Nat) (a : Assembly) : Prop where
  unit : a.unit = m.unit
  placed : ∀ p, p ∈ a.placed ↔ p.cell ∈ cells ∧ p.frag = m.frag p.cell

/-- The assembly after the fragments of these indices: before the first full one the last one is parked. -/
structure Collected (m : Message) (ks : List Nat) (a : Assembly) : Prop where
  bound : ∀ j ∈ ks, j < m.count
  total : a.total = if m.count - 1 ∈ ks then m.count else 0
  last : m.count - 1 ∈ ks → a.last = m.lastLen
  stage : a.parked = none ∧ Laid m ks a ∨
    a.parked = (if m.count - 1 ∈ ks then some (m.frag (m.count - 1)) else none) ∧ a.unit = 0 ∧ a.placed = [] ∧
      ∀ j ∈ ks, j = m.count - 1

section

variable {m : Message} {ks cells : List Nat} {a : Assembly} {k : Nat}

theorem collected_nil (m : Message) : Collected m [] {} where
  bound := by simp
  total := by simp
  last := by simp
  stage := by simp

theorem Laid.congr (h : Laid m cells a) {cells' : List Nat} (hsame : ∀ j, j ∈ cells ↔ j ∈ cells') : Laid m cells' a where
  unit := h.unit
  placed p := by rw [h.placed, hsame]

/-- Putting the fragment of a cell in its place. -/
theorem Laid.put (h : Laid m cells a) (k : Nat) : Laid m (cells ++ [k]) (a.put k (m.frag k)) := by
  have hcell : k ∈ a.placed.map Placed.cell ↔ k ∈ cells := by
    rw [List.mem_map]
    constructor
    · rintro ⟨q, hq, rfl⟩
      exact ((h.placed q).mp hq).1
    · exact fun hk => ⟨⟨k, m.frag k⟩, (h.placed _).mpr ⟨hk, rfl⟩, rfl⟩
  unfold Assembly.put
  split
  · rename_i hmem
    refine h.congr fun j => ?_
    rw [List.mem_append, List.mem_singleton]
    constructor
    · exact .inl
    · rintro (hj | rfl)
      · exact hj
      · exact hcell.mp hmem
  · refine ⟨h.unit, fun p => ?_⟩
    dsimp only
    rw [List.mem_append, h.placed, List.mem_append, List.mem_singleton, List.mem_singleton]
    constructor
    · rintro (hp | rfl)
      · exact ⟨.inl hp.1, hp.2⟩
      · exact ⟨.inr rfl, rfl⟩
    · rintro ⟨hp | hp, hfrag⟩
      · exact .inl ⟨hp, hfrag⟩
      · obtain ⟨cell, frag⟩ := p
        dsimp only at hp hfrag
        rw [hfrag, hp]
        exact .inr rfl

/-- Putting a fragment in place changes the bytes held and nothing else. -/
theorem put_frame (a : Assembly) (k : Nat) (f : Fragment) : (a.put k f).total = a.total ∧ (a.put k f).last = a.last ∧
    (a.put k f).parked = a.parked := by
  unfold Assembly.put
  split <;> exact ⟨rfl, rfl, rfl⟩

theorem Message.lengths (m : Message) : m.unit < 2 ^ 16 ∧ m.lastLen < 2 ^ 16 ∧ m.unit ≠ 0 := by
  have hlast := m.lastLen_le
  have hmtu := m.maxFrameBytes.toNat_lt
  have hunit : m.unit ≤ m.maxFrameBytes.toNat := by
    rw [Message.unit]
    omega
  exact ⟨by omega, by omega, Nat.ne_of_gt m.unit_pos⟩

/-- A full fragment: the unit is known, and what was parked goes to its place. -/
theorem Collected.take_more (h : Collected m ks a) (hk : k + 1 < m.count) :
    Collected m (ks ++ [k]) (a.take (m.frag k)) := by
  obtain ⟨hsmall, -, hunit⟩ := m.lengths
  have hlast : m.count - 1 ∈ ks ++ [k] ↔ m.count - 1 ∈ ks := by
    rw [List.mem_append, List.mem_singleton, or_iff_left (by omega)]
  have hslice : (m.frag k).slice.length = m.unit := by
    have := (m.length_slice (Nat.lt_of_succ_lt hk)).1
    rw [if_pos hk] at this
    exact this
  have htake : a.take (m.frag k) = ((a.learn (m.frag k)).put k (m.frag k)).unpark := by
    have hmore : (m.frag k).more = true := decide_eq_true hk
    rw [Assembly.take, hmore, Bool.not_true, Bool.and_false, if_neg Bool.false_ne_true, if_pos rfl]
    rfl
  have hbound : ∀ j ∈ ks ++ [k], j < m.count := by
    intro j hj
    rw [List.mem_append, List.mem_singleton] at hj
    rcases hj with hj | rfl
    · exact h.bound j hj
    · exact Nat.lt_of_succ_lt hk
  rw [htake]
  rcases h.stage with ⟨hparked, hlaid⟩ | ⟨hparked, hzero, hnone, honly⟩
  · have hlearn : a.learn (m.frag k) = a := by
      rw [Assembly.learn, if_neg (by rw [hlaid.unit]; exact hunit)]
    obtain ⟨htotal, hlastLen, hput⟩ := put_frame a k (m.frag k)
    have hunpark : (a.put k (m.frag k)).unpark = a.put k (m.frag k) := by
      rw [Assembly.unpark, hput, hparked]
    rw [hlearn, hunpark]
    refine ⟨hbound, ?_, fun hc => ?_, .inl ⟨hput.trans hparked, hlaid.put k⟩⟩
    · rw [htotal, h.total]
      simp only [hlast]
    · rw [hlastLen]
      exact h.last (hlast.mp hc)
  · have hlearn : a.learn (m.frag k) = { a with unit := m.unit } := by
      rw [Assembly.learn, if_pos hzero, hslice, Nat.mod_eq_of_lt hsmall]
    have hstart : Laid m [] { a with unit := m.unit } := ⟨rfl, fun p => by simp [hnone]⟩
    have hlaid := hstart.put k
    obtain ⟨htotal, hlastLen, hput⟩ := put_frame { a with unit := m.unit } k (m.frag k)
    rw [hlearn]
    generalize { a with unit := m.unit }.put k (m.frag k) = b at hlaid htotal hlastLen hput ⊢
    dsimp only at htotal hlastLen hput
    by_cases hmem : m.count - 1 ∈ ks
    · obtain ⟨htotal', hlastLen', -⟩ := put_frame b (m.count - 1) (m.frag (m.count - 1))
      have hunpark : b.unpark = { b.put (m.count - 1) (m.frag (m.count - 1)) with parked := none } := by
        rw [Assembly.unpark, hput, hparked, if_pos hmem]
        dsimp only
        rw [if_neg (by rw [hlaid.unit]; exact hunit)]
        rfl
      have hboth := hlaid.put (m.count - 1)
      rw [hunpark]
      refine ⟨hbound, ?_, fun _ => ?_, .inl ⟨rfl, hboth.unit, fun p => ?_⟩⟩
      · dsimp only
        rw [htotal', htotal, h.total, if_pos hmem, if_pos (hlast.mpr hmem)]
      · dsimp only
        rw [hlastLen', hlastLen]
        exact h.last hmem
      · refine (hboth.placed p).trans (and_congr_left fun _ => ?_)
        simp only [List.nil_append, List.cons_append, List.mem_cons, List.not_mem_nil, or_false, List.mem_append]
        constructor
        · rintro (hp | hp)
          · exact .inr hp
          · exact .inl (hp ▸ hmem)
        · rintro (hp | hp)
          · exact .inr (honly _ hp)
          · exact .inl hp
    · have hempty : ks = [] := by
        rw [List.eq_nil_iff_forall_not_mem]
        intro j hj
        exact hmem (honly j hj ▸ hj)
      rw [if_neg hmem] at hparked
      have hunpark : b.unpark = b := by
        rw [Assembly.unpark, hput, hparked]
      rw [hunpark]
      refine ⟨hbound, ?_, fun hc => absurd (hlast.mp hc) hmem, .inl ⟨hput.trans hparked, ?_⟩⟩
      · rw [htotal, h.total]
        simp only [hlast]
      · rw [hempty]
        exact hlaid

/-- The last fragment says how many there are, and waits for the unit. -/
theorem Collected.take_last (h : Collected m ks a) :
    Collected m (ks ++ [m.count - 1]) (a.take (m.frag (m.count - 1))) := by
  have hseveral : 2 ≤ m.count := m.several
  obtain ⟨-, hsmall, hunit⟩ := m.lengths
  have hmem : m.count - 1 ∈ ks ++ [m.count - 1] := by simp
  have hslice : (m.frag (m.count - 1)).slice.length % 2 ^ 16 = m.lastLen := by
    have := (m.length_slice (k := m.count - 1) (by omega)).1
    rw [if_neg (by omega)] at this
    rw [Message.frag, this, Nat.mod_eq_of_lt hsmall]
  have hindex : (m.frag (m.count - 1)).index = m.count - 1 := rfl
  have hcount : m.count - 1 + 1 = m.count := by omega
  have hbound : ∀ j ∈ ks ++ [m.count - 1], j < m.count := by
    intro j hj
    rw [List.mem_append, List.mem_singleton] at hj
    rcases hj with hj | rfl
    · exact h.bound j hj
    · omega
  have hstart : (m.frag (m.count - 1)).start = false := decide_eq_false (by omega)
  have hmore : (m.frag (m.count - 1)).more = false := decide_eq_false (by omega)
  rw [Assembly.take, hstart, hmore, Bool.false_and, if_neg Bool.false_ne_true, if_neg Bool.false_ne_true, hslice, hindex,
    hcount]
  dsimp only
  rcases h.stage with ⟨hparked, hlaid⟩ | ⟨hparked, hzero, hnone, honly⟩
  · rw [if_neg (by rw [hlaid.unit]; exact hunit)]
    obtain ⟨htotal, hlastLen, hput⟩ :=
      put_frame { a with total := m.count, last := m.lastLen } (m.count - 1) (m.frag (m.count - 1))
    have hnow : Laid m ks { a with total := m.count, last := m.lastLen } := ⟨hlaid.unit, hlaid.placed⟩
    refine ⟨hbound, ?_, fun _ => hlastLen, .inl ⟨hput.trans hparked, hnow.put _⟩⟩
    rw [htotal, if_pos hmem]
  · rw [if_pos hzero]
    refine ⟨hbound, (if_pos hmem).symm, fun _ => rfl, .inr ⟨(if_pos hmem).symm, hzero, hnone, fun j hj => ?_⟩⟩
    rw [List.mem_append, List.mem_singleton] at hj
    rcases hj with hj | hj
    · exact honly j hj
    · exact hj

/-- One more fragment is collected. -/
theorem Collected.take (h : Collected m ks a) (hk : k < m.count) : Collected m (ks ++ [k]) (a.take (m.frag k)) := by
  by_cases hmore : k + 1 < m.count
  · exact h.take_more hmore
  · have hlast : k = m.count - 1 := by omega
    rw [hlast]
    exact h.take_last

/-! ## A slot that takes them -/

variable {s t : FragSlot}

theorem Message.slice_fits (m : Message) (hk : k < m.count) : k * m.unit + (m.slice k).length ≤ kMaxSlotPayload :=
  (m.length_slice hk).2.trans m.length_payload.2

/-- A slice that fits is placed. -/
theorem place_some {b : Bytes} (hfit : k * s.unitLen.toNat + b.length ≤ kMaxSlotPayload) :
    ∃ t, s.placeFragment k b = some t := by
  unfold FragSlot.placeFragment
  split
  · exact ⟨s, rfl⟩
  · dsimp only
    rw [if_neg (Nat.not_lt.mpr hfit)]
    exact ⟨_, rfl⟩

/-- A slice that was parked is placed when it fits. -/
theorem Reflects.pending_some (h : Reflects s a)
    (hfit : ∀ f, a.parked = some f → f.index * a.unit + f.slice.length ≤ kMaxSlotPayload) :
    ∃ t, s.placePending = some t := by
  unfold FragSlot.placePending
  rw [h.parked]
  cases hp : a.parked with
  | none => exact ⟨s, rfl⟩
  | some f =>
    obtain ⟨t, ht⟩ := place_some (by rw [h.unit]; exact hfit f hp)
    dsimp only [Option.map_some]
    split
    · exact ⟨s, rfl⟩
    · rw [ht]
      exact ⟨_, rfl⟩

/-- Any fragment but the last tells the unit. -/
theorem Collected.learn_unit (h : Collected m ks a) (hk : k + 1 < m.count) :
    (a.learn (m.frag k)).unit = m.unit ∧ (a.learn (m.frag k)).parked = a.parked := by
  obtain ⟨hsmall, -, hunit⟩ := m.lengths
  have hslice : (m.frag k).slice.length = m.unit := by
    have := (m.length_slice (Nat.lt_of_succ_lt hk)).1
    rw [if_pos hk] at this
    exact this
  rcases h.stage with ⟨-, hlaid⟩ | ⟨-, hzero, -⟩
  · rw [Assembly.learn, if_neg (by rw [hlaid.unit]; exact hunit)]
    exact ⟨hlaid.unit, rfl⟩
  · rw [Assembly.learn, if_pos hzero, hslice, Nat.mod_eq_of_lt hsmall]
    exact ⟨rfl, rfl⟩

/-- What is parked is the last fragment. -/
theorem Collected.parked_fits (h : Collected m ks a) {f : Fragment} (hf : a.parked = some f) :
    f.index * m.unit + f.slice.length ≤ kMaxSlotPayload := by
  have hseveral : 2 ≤ m.count := m.several
  rcases h.stage with ⟨hparked, -⟩ | ⟨hparked, -⟩
  · rw [hf] at hparked
    cases hparked
  · rw [hf] at hparked
    split at hparked
    · cases hparked
      exact m.slice_fits (k := m.count - 1) (by omega)
    · cases hparked

/-- No fragment of the message overflows. -/
theorem Collected.take_some (h : Collected m ks a) (hs : Reflects s a) (hk : k < m.count) :
    ∃ t, s.take (m.frag k) = some t := by
  have hseveral : 2 ≤ m.count := m.several
  obtain ⟨hsmall, -, hunit⟩ := m.lengths
  have hfit : k * m.unit + (m.frag k).slice.length ≤ kMaxSlotPayload := m.slice_fits hk
  have hsingle : ((m.frag k).start && !(m.frag k).more) = false := by
    simp only [Message.frag, Bool.and_eq_false_iff, Bool.not_eq_false', decide_eq_false_iff_not, decide_eq_true_eq]
    omega
  have hnow : Reflects { s with log := s.log ++ [m.frag k] } a := { hs with }
  unfold FragSlot.take
  dsimp only
  rw [hsingle, if_neg Bool.false_ne_true]
  split
  · rename_i hmore
    obtain ⟨hlearn, hparked⟩ := h.learn_unit (of_decide_eq_true hmore)
    have hlearned := hnow.learn (m.frag k)
    obtain ⟨u, hu⟩ := place_some (b := (m.frag k).slice) (k := k) (by rw [hlearned.unit, hlearn]; exact hfit)
    have hplaced := hlearned.place (f := m.frag k) hu fun hc => absurd (hlearn.symm.trans hc) hunit
    obtain ⟨hframe, hframe'⟩ : ((a.learn (m.frag k)).put k (m.frag k)).unit = m.unit ∧
        ((a.learn (m.frag k)).put k (m.frag k)).parked = a.parked := by
      unfold Assembly.put
      split <;> exact ⟨hlearn, hparked⟩
    obtain ⟨t, ht⟩ := hplaced.pending_some fun f hf => by
      rw [hframe'] at hf
      rw [hframe]
      exact h.parked_fits hf
    exact ⟨t, Option.bind_eq_some_iff.mpr ⟨u, hu, ht⟩⟩
  · rename_i hmore
    split
    · rename_i hknown
      have hlaid : a.unit = m.unit := by
        rcases h.stage with ⟨-, hlaid⟩ | ⟨-, hzero, -⟩
        · exact hlaid.unit
        · rw [ne_eq, ← UInt16.toNat_inj] at hknown
          exact absurd (hs.unit.trans hzero) hknown
      refine place_some ?_
      rw [hs.unit, hlaid]
      exact hfit
    · rw [if_neg (by omega)]
      exact ⟨_, rfl⟩

/-- A slot is complete when every fragment has come. -/
theorem Collected.complete_iff (h : Collected m ks a) (hs : Reflects s a) :
    s.isComplete = true ↔ ∀ j, j < m.count → j ∈ ks := by
  have hseveral : 2 ≤ m.count := m.several
  have hcomplete : s.isComplete = true ↔ a.total ≠ 0 ∧ a.placed.length = a.total := by
    rw [FragSlot.isComplete, Bool.and_eq_true, bne_iff_ne, beq_iff_eq, hs.count, hs.total, ne_eq, ← UInt16.toNat_inj,
      hs.total]
    rfl
  rw [hcomplete, h.total]
  rcases h.stage with ⟨-, hlaid⟩ | ⟨-, -, hnone, honly⟩
  · have hcells : (a.placed.map Placed.cell).toFinset = ks.toFinset := by
      ext j
      rw [List.mem_toFinset, List.mem_toFinset, List.mem_map]
      constructor
      · rintro ⟨p, hp, rfl⟩
        exact ((hlaid.placed p).mp hp).1
      · exact fun hj => ⟨⟨j, m.frag j⟩, (hlaid.placed _).mpr ⟨hj, rfl⟩, rfl⟩
    have hlen : a.placed.length = ks.toFinset.card := by
      rw [← hcells, List.toFinset_card_of_nodup hs.cells, List.length_map]
    have hsub : ks.toFinset ⊆ Finset.range m.count := by
      intro j hj
      exact Finset.mem_range.mpr (h.bound j (List.mem_toFinset.mp hj))
    rw [hlen]
    constructor
    · rintro ⟨hpos, hcard⟩ j hj
      have hlast : m.count - 1 ∈ ks := by
        by_contra hc
        rw [if_neg hc] at hpos
        exact hpos rfl
      rw [if_pos hlast] at hcard
      have hall := Finset.eq_of_subset_of_card_le hsub (by rw [Finset.card_range, hcard])
      rw [← List.mem_toFinset, hall]
      exact Finset.mem_range.mpr hj
    · intro hall
      have heq : ks.toFinset = Finset.range m.count :=
        hsub.antisymm fun j hj => List.mem_toFinset.mpr (hall j (Finset.mem_range.mp hj))
      rw [if_pos (hall _ (by omega)), heq, Finset.card_range]
      exact ⟨by omega, rfl⟩
  · rw [hnone]
    constructor
    · rintro ⟨hpos, hcard⟩
      exact absurd hcard.symm hpos
    · intro hall
      have := honly 0 (hall 0 (by omega))
      omega

/-- And then its frame is the one that was cut. -/
theorem Collected.assemble_eq (h : Collected m ks a) (hs : Reflects s a) (hall : ∀ j, j < m.count → j ∈ ks)
    (htype : s.type = m.header.type) (hchannel : s.channel = m.header.channel) (hseq : s.seq = m.header.seq) :
    s.assemble = .ok m.frame := by
  have hseveral : 2 ≤ m.count := m.several
  obtain ⟨hlo, hhi⟩ := m.count_bounds
  obtain ⟨hlen, hroom⟩ := m.length_payload
  have hlast := hall (m.count - 1) (by omega)
  have hlaid : Laid m ks a := by
    rcases h.stage with ⟨-, hlaid⟩ | ⟨-, -, -, honly⟩
    · exact hlaid
    · have := honly 0 (hall 0 (by omega))
      omega
  have htotal : s.totalLen = m.payload.length := by
    rw [FragSlot.totalLen, hs.total, hs.unit, hs.last, h.total, if_pos hlast, h.last hlast, hlaid.unit, Message.lastLen]
    omega
  have hshort : ∀ p ∈ a.placed, p.bytes.length ≤ m.unit := by
    intro p hp
    obtain ⟨hcell, hfrag⟩ := (hlaid.placed p).mp hp
    have hl := (m.length_slice (h.bound _ hcell)).1
    have hle := m.lastLen_le
    rw [Placed.bytes, hfrag, Message.frag, hl]
    split <;> omega
  have hdata : s.data.take m.payload.length = m.payload := by
    refine List.ext_getElem? fun i => ?_
    by_cases hi : i < m.payload.length
    · have hcell := m.div_lt_count hi
      have hmem : (⟨i / m.unit, m.frag (i / m.unit)⟩ : Placed) ∈ a.placed := (hlaid.placed _).mpr ⟨hall _ hcell, rfl⟩
      have hreach : i % m.unit < (m.slice (i / m.unit)).length := by
        have hbyte := m.getElem?_slice (i := i)
        rw [List.getElem?_eq_getElem hi] at hbyte
        have hin := (List.getElem?_eq_some_iff.mp hbyte).1
        have hdm := Nat.div_add_mod i m.unit
        rw [Nat.mul_comm] at hdm
        omega
      have hgrid : ∀ p ∈ a.placed, Covers (Placed.offset m.unit) Placed.bytes p i ↔
          i / m.unit = p.cell ∧ i % m.unit < p.bytes.length :=
        fun p hp => @covers_grid_iff _ _ Placed.cell Placed.bytes m.unit p i (hshort p hp)
      have hwriter : writer (Placed.offset m.unit) Placed.bytes a.placed i = some ⟨i / m.unit, m.frag (i / m.unit)⟩ := by
        refine writer_of_unique hmem ((hgrid _ hmem).mpr ⟨rfl, hreach⟩) ?_
        intro q hq hcov
        obtain ⟨hq', -⟩ := (hgrid q hq).mp hcov
        obtain ⟨-, hfrag⟩ := (hlaid.placed q).mp hq
        obtain ⟨cell, frag⟩ := q
        dsimp only at hq' hfrag
        rw [hfrag, hq']
      rw [List.getElem?_take_of_lt hi, hs.bytes i (by omega), hlaid.unit, shown, hwriter, Option.elim_some]
      exact m.getElem?_slice
    · rw [List.getElem?_eq_none (by rw [List.length_take]; omega), List.getElem?_eq_none (Nat.not_lt.mp hi)]
  have hheader : { type := s.type, channel := s.channel, seq := s.seq, len := UInt16.ofNat m.payload.length : FrameHeader } =
      m.header := by
    have hwire : UInt16.ofNat m.payload.length = m.header.len := by
      rw [hlen]
      exact UInt16.ofNat_toNat
    have hplain := m.plain
    rw [hwire, htype, hchannel, hseq, ← hplain]
  have hcapacity : kFrameBufferCapacity - kHeaderBytes = kMaxSlotPayload := rfl
  rw [FragSlot.assemble, htotal, hcapacity, if_neg (Nat.not_lt.mpr hroom), hdata, hheader, m.frame_eq]

end

/-- A slot at work on a message, after the fragments of these indices. -/
structure Gathers (m : Message) (ks : List Nat) (s : FragSlot) : Prop where
  type : s.type = m.header.type
  seq : s.seq = m.header.seq
  tied : ∃ a, Reflects s a ∧ Collected m ks a

/-- **One fragment more.** -/
theorem Gathers.take {m : Message} {ks : List Nat} {s : FragSlot} {k : Nat} (h : Gathers m ks s) (hk : k < m.count) :
    ∃ t, { s with channel := m.header.channel }.take (m.frag k) = some t ∧ Gathers m (ks ++ [k]) t ∧
      t.startMs = s.startMs ∧ (t.isComplete = true ↔ ∀ j, j < m.count → j ∈ ks ++ [k]) ∧
      (t.isComplete = true → t.assemble = .ok m.frame) := by
  obtain ⟨a, hreflects, hcollected⟩ := h.tied
  have hnow : Reflects { s with channel := m.header.channel } a := { hreflects with }
  have hindex : (m.frag k).index < kMaxFragmentsPerMessage := Nat.lt_of_lt_of_le hk m.few
  obtain ⟨t, ht⟩ := hcollected.take_some hnow hk
  have hkeeps := keepsSlot_take ht
  have hreflects' := FragSlot.take_reflects hnow hindex ht
  have hcollected' := hcollected.take hk
  have hcomplete := hcollected'.complete_iff hreflects'
  have htype : t.type = m.header.type := hkeeps.type.trans h.type
  have hseq : t.seq = m.header.seq := hkeeps.seq.trans h.seq
  exact ⟨t, ht, ⟨htype, hseq, _, hreflects', hcollected'⟩, hkeeps.startMs, hcomplete,
    fun hdone => hcollected'.assemble_eq hreflects' (hcomplete.mp hdone) htype hkeeps.channel hseq⟩

/-! ## Feeding a reassembler -/

/-- Fragment `frag` of message `msg` at a time. -/
structure Arrival (n : Nat) where
  msg : Fin n
  frag : Nat
  nowMs : UInt32
  deriving DecidableEq, Repr

section

variable {n : Nat} (msgs : Fin n → Message)

/-- A fragment as it comes off the wire. -/
def arrive (r : Reassembler) (e : Arrival n) : Except DecodeError (Option Bytes) × Reassembler :=
  match (msgs e.msg).fragments[e.frag]? with
  | none => (.ok none, r)
  | some bs => match decodeFrameHeader bs with
    | none => (.ok none, r)
    | some header => r.accept header (bs.drop kHeaderBytes) e.nowMs

/-- What is returned for each. -/
def feed (r : Reassembler) : List (Arrival n) → List (Except DecodeError (Option Bytes))
  | [] => []
  | e :: es => (arrive msgs r e).1 :: feed (arrive msgs r e).2 es

/-- The fragments of a message among those that came. -/
def arrived (pre : List (Arrival n)) (j : Fin n) : List Nat :=
  pre.filterMap fun e => if e.msg = j then some e.frag else none

def Whole (pre : List (Arrival n)) (j : Fin n) : Prop := ∀ k, k < (msgs j).count → k ∈ arrived pre j

instance (pre : List (Arrival n)) (j : Fin n) : Decidable (Whole msgs pre j) :=
  inferInstanceAs (Decidable (∀ k, k < (msgs j).count → k ∈ arrived pre j))

/-- Some fragment of it has come, and some has not. -/
def Open (pre : List (Arrival n)) (j : Fin n) : Prop := arrived pre j ≠ [] ∧ ¬Whole msgs pre j

/-- The slots are at work on the messages that are open, one slot each, since one of their fragments came. -/
structure Holding (pre : List (Arrival n)) (r : Reassembler) : Prop where
  owner : ∀ i s, r.slots i = some s → ∃ j, Open msgs pre j ∧ Gathers (msgs j) (arrived pre j) s ∧
    ∃ e ∈ pre, e.msg = j ∧ e.nowMs = s.startMs
  held : ∀ j, Open msgs pre j → ∃ i s, r.slots i = some s ∧ Gathers (msgs j) (arrived pre j) s
  apart : ∀ i i' s s', r.slots i = some s → r.slots i' = some s' → s.type = s'.type → s.seq = s'.seq → i = i'

variable {msgs} {pre : List (Arrival n)} {r : Reassembler} {e : Arrival n}

/-- An arrival is one more fragment of its message. -/
theorem arrived_append (pre : List (Arrival n)) (e : Arrival n) (j : Fin n) :
    arrived (pre ++ [e]) j = if e.msg = j then arrived pre j ++ [e.frag] else arrived pre j := by
  rw [arrived, List.filterMap_append, List.filterMap_cons, List.filterMap_nil]
  split
  · rename_i hnone
    split at hnone
    · cases hnone
    · rename_i hne
      rw [if_neg hne, List.append_nil]
      rfl
  · rename_i hsome
    split at hsome
    · rename_i heq
      cases hsome
      rw [if_pos heq]
      rfl
    · cases hsome

theorem whole_append_of_ne {j : Fin n} (h : e.msg ≠ j) : Whole msgs (pre ++ [e]) j ↔ Whole msgs pre j := by
  rw [Whole, arrived_append, if_neg h]
  rfl

/-- A slot found is the message's. -/
theorem findSlot_some {type : UInt8} {seq : UInt16} {i : Fin 2} (h : r.findSlot type seq = some i) :
    ∃ s, r.slots i = some s ∧ s.type = type ∧ s.seq = seq := by
  have hany := List.find?_some h
  rw [Option.any_eq_true] at hany
  obtain ⟨s, hs, hkey⟩ := hany
  rw [Bool.and_eq_true, beq_iff_eq, beq_iff_eq] at hkey
  exact ⟨s, hs, hkey⟩

/-- When none is found no slot is. -/
theorem findSlot_none {type : UInt8} {seq : UInt16} (h : r.findSlot type seq = none) {i : Fin 2} {s : FragSlot}
    (hs : r.slots i = some s) : ¬(s.type = type ∧ s.seq = seq) := by
  have hnot := List.find?_eq_none.mp h i (List.mem_finRange i)
  rw [hs, Option.any_some, Bool.and_eq_true, beq_iff_eq, beq_iff_eq] at hnot
  exact hnot

/-- Two times of one message are less than the timeout apart. -/
theorem in_time {t t' start : UInt32} (h : t - start < kFragReassemblyTimeoutMs)
    (h' : t' - start < kFragReassemblyTimeoutMs) : timeReached t (t' + kFragReassemblyTimeoutMs) = false := by
  have htimeout : kFragReassemblyTimeoutMs.toNat = 5000 := rfl
  rw [UInt32.lt_iff_toNat_lt, UInt32.toNat_sub, htimeout] at h h'
  rw [Bool.eq_false_iff, ne_eq, timeReached_iff, UInt32.toNat_sub, UInt32.toNat_add, htimeout]
  have := t.toNat_lt
  have := t'.toNat_lt
  have := start.toNat_lt
  omega

/-- The slot of a message that has not wholly come, opened if need be; there is always room for it. -/
theorem Holding.opened (h : Holding msgs pre r) (hn : n ≤ 2)
    (hkeys : ∀ i j, (msgs i).header.type = (msgs j).header.type → (msgs i).header.seq = (msgs j).header.seq → i = j)
    {j : Fin n} (hj : ¬Whole msgs pre j) {nowMs : UInt32}
    (htime : ∀ b ∈ pre, b.msg = j → timeReached nowMs (b.nowMs + kFragReassemblyTimeoutMs) = false) :
    ∃ i q s, r.openSlot (msgs j).header.type (msgs j).header.seq nowMs = (i, q) ∧ q.slots i = some s ∧
      Gathers (msgs j) (arrived pre j) s ∧ (s.startMs = nowMs ∨ ∃ b ∈ pre, b.msg = j ∧ b.nowMs = s.startMs) ∧
      (∀ s', r.slots i = some s' → s'.type = (msgs j).header.type ∧ s'.seq = (msgs j).header.seq) ∧
      ∀ i', i' ≠ i → q.slots i' = r.slots i' ∧
        ∀ s', r.slots i' = some s' → ¬(s'.type = (msgs j).header.type ∧ s'.seq = (msgs j).header.seq) := by
  unfold Reassembler.openSlot
  cases hfind : r.findSlot (msgs j).header.type (msgs j).header.seq with
  | some i =>
    obtain ⟨s, hs, htype, hseq⟩ := findSlot_some hfind
    obtain ⟨j', hopen, hgathers, b, hb, hmsg, hstart⟩ := h.owner i s hs
    have hsame : j' = j := hkeys _ _ (hgathers.type.symm.trans htype) (hgathers.seq.symm.trans hseq)
    subst hsame
    have hexpire : r.expireOne (msgs j').header.type (msgs j').header.seq nowMs = r := by
      rw [Reassembler.expireOne, hfind]
      dsimp only
      rw [hs, Option.any_some, Reassembler.expired, ← hstart, htime b hb hmsg, if_neg Bool.false_ne_true]
    rw [hexpire]
    dsimp only
    rw [hfind]
    refine ⟨i, r, s, rfl, hs, hgathers, .inr ⟨b, hb, hmsg, hstart⟩, fun s' hs' => ?_, fun i' hne => ⟨rfl, ?_⟩⟩
    · rw [hs] at hs'
      cases hs'
      exact ⟨htype, hseq⟩
    · rintro s' hs' ⟨htype', hseq'⟩
      exact hne (h.apart i' i s' s hs' hs (htype'.trans htype.symm) (hseq'.trans hseq.symm))
  | none =>
    have hexpire : r.expireOne (msgs j).header.type (msgs j).header.seq nowMs = r := by
      rw [Reassembler.expireOne, hfind]
    have hnot : ∀ {i s}, r.slots i = some s → ¬(s.type = (msgs j).header.type ∧ s.seq = (msgs j).header.seq) :=
      fun hs => findSlot_none hfind hs
    have hnone : arrived pre j = [] := by
      by_contra hne
      obtain ⟨i, s, hs, hgathers⟩ := h.held j ⟨hne, hj⟩
      exact hnot hs ⟨hgathers.type, hgathers.seq⟩
    rw [hexpire]
    dsimp only
    rw [hfind]
    dsimp only
    unfold Reassembler.allocSlot
    dsimp only
    split
    · rename_i i hfree
      have hempty := List.find?_some hfree
      rw [Option.isNone_iff_eq_none] at hempty
      refine ⟨i, _, { type := (msgs j).header.type, seq := (msgs j).header.seq, startMs := nowMs }, rfl,
        Function.update_self i _ _, ⟨rfl, rfl, {}, reflects_fresh _ _ _, ?_⟩, .inl rfl, fun s' hs' => ?_, fun i' hne =>
        ⟨Function.update_of_ne hne _ _, fun s' hs' => hnot hs'⟩⟩
      · rw [hnone]
        exact collected_nil _
      · rw [hempty] at hs'
        cases hs'
    · -- both slots would be at work on other messages
      rename_i hfull
      have hsome : ∀ i, ∃ s, r.slots i = some s := fun i => by
        have := List.find?_eq_none.mp hfull i (List.mem_finRange i)
        rw [Option.isNone_iff_eq_none] at this
        exact Option.ne_none_iff_exists'.mp this
      obtain ⟨s₀, hs₀⟩ := hsome 0
      obtain ⟨s₁, hs₁⟩ := hsome 1
      obtain ⟨j₀, -, hg₀, -⟩ := h.owner 0 s₀ hs₀
      obtain ⟨j₁, -, hg₁, -⟩ := h.owner 1 s₁ hs₁
      have hne₀ : j₀ ≠ j := by
        rintro rfl
        exact hnot hs₀ ⟨hg₀.type, hg₀.seq⟩
      have hne₁ : j₁ ≠ j := by
        rintro rfl
        exact hnot hs₁ ⟨hg₁.type, hg₁.seq⟩
      have hne : j₀ ≠ j₁ := by
        rintro rfl
        have := h.apart 0 1 s₀ s₁ hs₀ hs₁ (hg₀.type.trans hg₁.type.symm) (hg₀.seq.trans hg₁.seq.symm)
        cases this
      rw [ne_eq, Fin.ext_iff] at hne₀ hne₁ hne
      omega

/-- Only the slot of the message has changed: free once the message has come, at work on it before. -/
theorem Holding.settle (h : Holding msgs pre r)
    (hkeys : ∀ i j, (msgs i).header.type = (msgs j).header.type → (msgs i).header.seq = (msgs j).header.seq → i = j)
    {i : Fin 2} {q : Reassembler}
    (hmine : ∀ s, r.slots i = some s → s.type = (msgs e.msg).header.type ∧ s.seq = (msgs e.msg).header.seq)
    (hother : ∀ i', i' ≠ i → q.slots i' = r.slots i' ∧
      ∀ s, r.slots i' = some s → ¬(s.type = (msgs e.msg).header.type ∧ s.seq = (msgs e.msg).header.seq))
    (hslot : ∀ t, q.slots i = some t → ¬Whole msgs (pre ++ [e]) e.msg ∧
      Gathers (msgs e.msg) (arrived (pre ++ [e]) e.msg) t ∧ ∃ b ∈ pre ++ [e], b.msg = e.msg ∧ b.nowMs = t.startMs)
    (hopen : ¬Whole msgs (pre ++ [e]) e.msg → ∃ t, q.slots i = some t) : Holding msgs (pre ++ [e]) q := by
  have hsame : ∀ j, e.msg ≠ j → arrived (pre ++ [e]) j = arrived pre j := fun j hne => by
    rw [arrived_append, if_neg hne]
  have hOpen : ∀ j, e.msg ≠ j → (Open msgs (pre ++ [e]) j ↔ Open msgs pre j) := fun j hne => by
    rw [Open, Open, hsame j hne, whole_append_of_ne hne]
  constructor
  case owner =>
    intro i' s hs
    by_cases hi : i' = i
    · subst hi
      obtain ⟨hwhole, hgathers, hb⟩ := hslot s hs
      refine ⟨e.msg, ⟨?_, hwhole⟩, hgathers, hb⟩
      rw [arrived_append, if_pos rfl]
      simp
    · obtain ⟨heq, hnot⟩ := hother i' hi
      rw [heq] at hs
      obtain ⟨j, hj, hgathers, b, hb, hmsg, hstart⟩ := h.owner i' s hs
      have hne : e.msg ≠ j := by
        rintro rfl
        exact hnot s hs ⟨hgathers.type, hgathers.seq⟩
      refine ⟨j, (hOpen j hne).mpr hj, ?_, b, List.mem_append_left _ hb, hmsg, hstart⟩
      rw [hsame j hne]
      exact hgathers
  case held =>
    intro j hj
    by_cases hne : e.msg = j
    · subst hne
      obtain ⟨t, ht⟩ := hopen hj.2
      exact ⟨i, t, ht, (hslot t ht).2.1⟩
    · obtain ⟨i', s, hs, hgathers⟩ := h.held j ((hOpen j hne).mp hj)
      have hi : i' ≠ i := by
        rintro rfl
        obtain ⟨htype, hseq⟩ := hmine s hs
        exact hne (hkeys _ _ (htype.symm.trans hgathers.type) (hseq.symm.trans hgathers.seq))
      refine ⟨i', s, (hother i' hi).1.trans hs, ?_⟩
      rw [hsame j hne]
      exact hgathers
  case apart =>
    have hkey : ∀ t, q.slots i = some t → t.type = (msgs e.msg).header.type ∧ t.seq = (msgs e.msg).header.seq :=
      fun t ht => ⟨(hslot t ht).2.1.type, (hslot t ht).2.1.seq⟩
    intro i₁ i₂ s₁ s₂ hs₁ hs₂ htype hseq
    by_cases h₁ : i₁ = i
    · by_cases h₂ : i₂ = i
      · rw [h₁, h₂]
      · obtain ⟨heq, hnot⟩ := hother i₂ h₂
        rw [heq] at hs₂
        rw [h₁] at hs₁
        obtain ⟨ht, hs⟩ := hkey s₁ hs₁
        exact absurd ⟨htype.symm.trans ht, hseq.symm.trans hs⟩ (hnot s₂ hs₂)
    · obtain ⟨heq, hnot⟩ := hother i₁ h₁
      rw [heq] at hs₁
      by_cases h₂ : i₂ = i
      · rw [h₂] at hs₂
        obtain ⟨ht, hs⟩ := hkey s₂ hs₂
        exact absurd ⟨htype.trans ht, hseq.trans hs⟩ (hnot s₁ hs₁)
      · rw [(hother i₂ h₂).1] at hs₂
        exact h.apart i₁ i₂ s₁ s₂ hs₁ hs₂ htype hseq

/-- **One arrival.**  It completes its message when no other fragment of it is missing, and says nothing otherwise. -/
theorem Holding.step (h : Holding msgs pre r) (hn : n ≤ 2)
    (hkeys : ∀ i j, (msgs i).header.type = (msgs j).header.type → (msgs i).header.seq = (msgs j).header.seq → i = j)
    (hfrag : e.frag < (msgs e.msg).count) (hmissing : ¬Whole msgs pre e.msg)
    (htime : ∀ b ∈ pre, b.msg = e.msg → timeReached e.nowMs (b.nowMs + kFragReassemblyTimeoutMs) = false) :
    (arrive msgs r e).1 = .ok (if Whole msgs (pre ++ [e]) e.msg then some (msgs e.msg).frame else none) ∧
      Holding msgs (pre ++ [e]) (arrive msgs r e).2 := by
  obtain ⟨bs, header, hget, hdecode, htype, hchannel, hseq, hindex, hlen, hread⟩ := (msgs e.msg).read_fragment hfrag
  obtain ⟨i, q, s, hslot, hs, hgathers, hstart, hmine, hother⟩ := h.opened hn hkeys hmissing htime
  obtain ⟨t, ht, hgathers', hstart', hcomplete, hframe⟩ := hgathers.take hfrag
  have hnow : arrived (pre ++ [e]) e.msg = arrived pre e.msg ++ [e.frag] := by
    rw [arrived_append, if_pos rfl]
  have hdone : t.isComplete = true ↔ Whole msgs (pre ++ [e]) e.msg := by
    rw [Whole, hnow]
    exact hcomplete
  have hsmall : (getU16 (bs.drop kHeaderBytes)).toNat < kMaxFragmentsPerMessage := by
    rw [hindex]
    exact Nat.lt_of_lt_of_le hfrag (msgs e.msg).few
  have harrive : arrive msgs r e = r.accept header (bs.drop kHeaderBytes) e.nowMs := by
    rw [arrive, hget]
    dsimp only
    rw [hdecode]
  rw [harrive, Reassembler.accept, if_neg (Nat.not_lt.mpr hlen), if_neg (Nat.not_le.mpr hsmall), htype, hseq, hslot]
  dsimp only
  rw [hs]
  dsimp only
  rw [hchannel, hread, ht]
  dsimp only
  have hothers : ∀ (o : Option FragSlot) (i' : Fin 2), i' ≠ i → (q.setSlot i o).slots i' = r.slots i' ∧
      ∀ s, r.slots i' = some s → ¬(s.type = (msgs e.msg).header.type ∧ s.seq = (msgs e.msg).header.seq) := by
    intro o i' hne
    obtain ⟨heq, hnot⟩ := hother i' hne
    exact ⟨(Function.update_of_ne hne _ _).trans heq, hnot⟩
  have hself : ∀ o : Option FragSlot, (q.setSlot i o).slots i = o := fun o => Function.update_self i _ _
  by_cases hwhole : Whole msgs (pre ++ [e]) e.msg
  · rw [hdone.mpr hwhole, hframe (hdone.mpr hwhole), if_pos hwhole]
    refine ⟨rfl, h.settle hkeys hmine (hothers none) (fun t' ht' => ?_) fun hc => absurd hwhole hc⟩
    cases (hself none).symm.trans ht'
  · rw [Bool.eq_false_iff.mpr fun hc => hwhole (hdone.mp hc), if_neg hwhole]
    refine ⟨rfl, h.settle hkeys hmine (hothers (some t)) (fun t' ht' => ?_) fun _ => ⟨t, hself (some t)⟩⟩
    cases (hself (some t)).symm.trans ht'
    refine ⟨hwhole, hnow ▸ hgathers', ?_⟩
    rcases hstart with hstart | ⟨b, hb, hmsg, hstart⟩
    · exact ⟨e, by simp, rfl, (hstart'.trans hstart).symm⟩
    · exact ⟨b, List.mem_append_left _ hb, hmsg, hstart.trans hstart'.symm⟩

/-! ## What comes out -/

variable (msgs) in
/-- What the arrivals are answered: the frame of a message at its last fragment. -/
def replies : List (Arrival n) → List (Arrival n) → List (Option Bytes)
  | _, [] => []
  | pre, e :: es =>
    (if Whole msgs (pre ++ [e]) e.msg then some (msgs e.msg).frame else none) :: replies (pre ++ [e]) es

/-- Feeding a sequence of arrivals, one by one: the induction is on them. -/
theorem Holding.feed_eq (hn : n ≤ 2)
    (hkeys : ∀ i j, (msgs i).header.type = (msgs j).header.type → (msgs i).header.seq = (msgs j).header.seq → i = j)
    {es : List (Arrival n)} (hfrag : ∀ e ∈ es, e.frag < (msgs e.msg).count) (h : Holding msgs pre r)
    (hmissing : ∀ before e after, es = before ++ e :: after → ¬Whole msgs (pre ++ before) e.msg)
    (htime : ∀ b ∈ pre ++ es, ∀ e ∈ es, b.msg = e.msg →
      timeReached e.nowMs (b.nowMs + kFragReassemblyTimeoutMs) = false) :
    feed msgs r es = (replies msgs pre es).map .ok := by
  induction es generalizing pre r with
  | nil => rfl
  | cons e es ih =>
    have hfirst : ¬Whole msgs pre e.msg := by
      have := hmissing [] e es rfl
      rwa [List.append_nil] at this
    obtain ⟨hout, hnext⟩ := h.step hn hkeys (hfrag e List.mem_cons_self) hfirst
      fun b hb hmsg => htime b (List.mem_append_left _ hb) e List.mem_cons_self hmsg
    rw [feed, replies, hout, List.map_cons]
    refine congrArg _ (ih (fun e he => hfrag e (List.mem_cons_of_mem _ he)) hnext (fun before e' after heq => ?_) ?_)
    · rw [List.append_assoc]
      exact hmissing (e :: before) e' after (by rw [heq]; rfl)
    · intro b hb e' he' hmsg
      rw [List.append_assoc] at hb
      exact htime b hb e' (List.mem_cons_of_mem _ he') hmsg

/-- The messages that have wholly come, in any order. -/
theorem whole_append {e : Arrival n} (hmissing : ¬Whole msgs pre e.msg) (hwhole : Whole msgs (pre ++ [e]) e.msg) :
    ((List.finRange n).filter fun j => Whole msgs (pre ++ [e]) j).Perm
      (e.msg :: (List.finRange n).filter fun j => Whole msgs pre j) := by
  have hnodup := List.nodup_finRange n
  refine (List.perm_ext_iff_of_nodup (hnodup.filter _)
    (List.nodup_cons.mpr ⟨by simp [hmissing], hnodup.filter _⟩)).mpr fun j => ?_
  simp only [List.mem_filter, List.mem_finRange, true_and, decide_eq_true_eq, List.mem_cons]
  by_cases hj : j = e.msg
  · rw [hj]
    exact iff_of_true hwhole (.inl rfl)
  · rw [whole_append_of_ne (Ne.symm hj), or_iff_right hj]

/-- What comes out are the messages that became whole, in some order. -/
theorem replies_perm {es : List (Arrival n)}
    (hmissing : ∀ before e after, es = before ++ e :: after → ¬Whole msgs (pre ++ before) e.msg) :
    ((((List.finRange n).filter fun j => Whole msgs pre j).map fun j => (msgs j).frame) ++
        (replies msgs pre es).reduceOption).Perm
      (((List.finRange n).filter fun j => Whole msgs (pre ++ es) j).map fun j => (msgs j).frame) := by
  induction es generalizing pre with
  | nil =>
    rw [replies, List.reduceOption_nil, List.append_nil, List.append_nil]
  | cons e es ih =>
    have hfirst : ¬Whole msgs pre e.msg := by
      have := hmissing [] e es rfl
      rwa [List.append_nil] at this
    have hrest := @ih (pre ++ [e]) fun before e' after heq => by
      rw [List.append_assoc]
      exact hmissing (e :: before) e' after (by rw [heq]; rfl)
    rw [List.append_assoc, List.singleton_append] at hrest
    rw [replies]
    split
    · rename_i hwhole
      rw [List.reduceOption_cons_of_some]
      refine List.perm_middle.trans (List.Perm.trans ?_ hrest)
      rw [← List.cons_append]
      exact ((whole_append hfirst hwhole).map fun j => (msgs j).frame).symm.append_right _
    · rename_i hwhole
      rw [List.reduceOption_cons_of_none]
      have hsame : ((List.finRange n).filter fun j => Whole msgs (pre ++ [e]) j) =
          (List.finRange n).filter fun j => Whole msgs pre j := by
        refine List.filter_congr fun j _ => decide_eq_decide.mpr ?_
        by_cases hj : e.msg = j
        · rw [← hj]
          exact iff_of_false hwhole hfirst
        · exact whole_append_of_ne hj
      rw [hsame] at hrest
      exact hrest

end

/-- **Fragmentation round trip.**  The fragments of at most two messages, in any order and with any duplicates before
their message has come, come out as the messages, each once, and everything else is accepted in silence. -/
theorem fragments_round_trip {n : Nat} (hn : n ≤ 2) (msgs : Fin n → Message)
    (hkeys : ∀ i j, (msgs i).header.type = (msgs j).header.type → (msgs i).header.seq = (msgs j).header.seq → i = j)
    {r : Reassembler} (hfree : ∀ i, r.slots i = none) (arrivals : List (Arrival n))
    (hfrag : ∀ e ∈ arrivals, e.frag < (msgs e.msg).count)
    (hall : ∀ i k, k < (msgs i).count → ∃ e ∈ arrivals, e.msg = i ∧ e.frag = k)
    (hmissing : ∀ before e after, arrivals = before ++ e :: after →
      ∃ k, k < (msgs e.msg).count ∧ ∀ b ∈ before, b.msg = e.msg → b.frag ≠ k)
    (htime : ∀ i, ∃ start, ∀ e ∈ arrivals, e.msg = i → e.nowMs - start < kFragReassemblyTimeoutMs) :
    ∃ replies : List (Option Bytes), feed msgs r arrivals = replies.map .ok ∧
      replies.reduceOption.Perm (List.ofFn fun i => (msgs i).frame) := by
  have hmem : ∀ (pre : List (Arrival n)) j k, k ∈ arrived pre j ↔ ∃ b ∈ pre, b.msg = j ∧ b.frag = k := by
    intro pre j k
    rw [arrived, List.mem_filterMap]
    refine exists_congr fun b => and_congr_right fun _ => ?_
    split
    · rename_i heq
      rw [Option.some.injEq, and_iff_right heq]
    · rename_i hne
      exact iff_of_false (fun hc => by cases hc) fun hc => hne hc.1
  have hmissing' : ∀ before e after, arrivals = before ++ e :: after → ¬Whole msgs ([] ++ before) e.msg := by
    intro before e after heq hwhole
    obtain ⟨k, hk, hnot⟩ := hmissing before e after heq
    obtain ⟨b, hb, hmsg, hfrag⟩ := (hmem _ _ k).mp (hwhole k hk)
    exact hnot b hb hmsg hfrag
  have hstart : Holding msgs [] r := by
    refine ⟨fun i s hs => ?_, fun j hj => absurd rfl hj.1, fun i _ s _ hs => ?_⟩ <;>
    · rw [hfree i] at hs
      cases hs
  have hnever : ∀ j, ¬Whole msgs [] j := fun j hwhole => by
    have hseveral : 2 ≤ (msgs j).count := (msgs j).several
    exact List.not_mem_nil (hwhole 0 (by omega))
  have hever : ∀ j, Whole msgs arrivals j := fun j k hk => (hmem _ _ _).mpr (hall j k hk)
  refine ⟨replies msgs [] arrivals, hstart.feed_eq hn hkeys hfrag hmissing' fun b hb e he hmsg => ?_, ?_⟩
  · obtain ⟨start, hin⟩ := htime e.msg
    exact in_time (hin e he rfl) (hin b hb hmsg)
  · have hperm := replies_perm hmissing'
    have hnone : ((List.finRange n).filter fun j => Whole msgs [] j) = [] :=
      List.filter_eq_nil_iff.mpr fun j _ => by simp [hnever j]
    have hwhole : ((List.finRange n).filter fun j => Whole msgs arrivals j) = List.finRange n :=
      List.filter_eq_self.mpr fun j _ => by simp [hever j]
    rw [List.nil_append, hnone, hwhole, List.map_nil, List.nil_append] at hperm
    rw [List.ofFn_eq_map]
    exact hperm

/-- Five bytes in three fragments. -/
def inThree (seq : UInt16) : Message where
  frame := encodeFrameHeader { type := 0x11, seq, len := 5 } ++ [1, 2, 3, 4, 5]
  maxFrameBytes := 12
  header := { type := 0x11, seq, len := 5 }
  fragments := (List.range 3).map (fragment { type := 0x11, seq, len := 5 } [1, 2, 3, 4, 5] 2 3)
  decoded := decodeFrameHeader_encode _ _
  fits := by simp [length_encodeFrameHeader, kHeaderBytes, kFrameBufferCapacity]
  plain := rfl
  len := rfl
  cut := by
    have hlen : (encodeFrameHeader { type := 0x11, seq, len := 5 } ++ [1, 2, 3, 4, 5]).length = 13 := rfl
    have hpayload : (encodeFrameHeader { type := 0x11, seq, len := 5 } ++ [1, 2, 3, 4, 5]).drop kHeaderBytes =
        [1, 2, 3, 4, 5] := rfl
    have hbudget : (12 : UInt16).toNat - kHeaderBytes - kFragIndexBytes = 2 := by decide
    have hestop : looksLikeEstop (encodeFrameHeader { type := 0x11, seq, len := 5 } ++ [1, 2, 3, 4, 5]) = false := by
      rw [looksLikeEstop, hlen]
      rfl
    rw [fragmentFrame, decodeFrameHeader_encode, hlen, hestop, hpayload, hbudget]
    rfl
  several := by simp
  few := by simp [kMaxFragmentsPerMessage]

def twoMessages (i : Fin 2) : Message := inThree (UInt16.ofNat i)

/-- The last fragment of the first message comes before the others, and twice. -/
def mixed : List (Arrival 2) :=
  let first : Fin 2 := ⟨0, Nat.zero_lt_two⟩
  let second : Fin 2 := ⟨1, Nat.one_lt_two⟩
  [⟨first, 2, 100⟩, ⟨second, 0, 200⟩, ⟨first, 2, 300⟩, ⟨first, 1, 400⟩, ⟨second, 2, 500⟩, ⟨first, 0, 600⟩, ⟨second, 1, 700⟩]

theorem fragments_round_trip_mixed : ∃ replies : List (Option Bytes), feed twoMessages {} mixed = replies.map .ok ∧
    replies.reduceOption.Perm (List.ofFn fun i => (twoMessages i).frame) := by
  have htakes : ∀ i, (hi : i < mixed.length) → ∃ k, k < (twoMessages mixed[i].msg).count ∧
      ∀ b ∈ mixed.take i, b.msg = mixed[i].msg → b.frag ≠ k := by decide +kernel
  refine fragments_round_trip (Nat.le_refl 2) twoMessages (by decide) (fun _ => rfl) mixed (by decide +kernel)
    (by decide +kernel) (fun before e after heq => ?_) fun i => ⟨0, by revert i; decide⟩
  have hi : before.length < mixed.length := by
    rw [heq]
    simp
  have hget : mixed[before.length] = e := by
    simp [heq]
  have htake : mixed.take before.length = before := by
    rw [heq, List.take_left]
  have hthere := htakes before.length hi
  rw [hget, htake] at hthere
  exact hthere

end SlopSync
