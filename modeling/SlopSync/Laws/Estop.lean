import SlopSync.Estop
import SlopSync.Js.Frames
import Mathlib.Order.Bounds.Basic

/-! # The raw ESTOP frame

* `scanFrom_spec` — the scan finds the first offset at which a frame decodes.
* `decode_encode` — a frame is read as it was written.
* `Js.crc32_eq`, `Js.encodeEstopFrame_eq` — the client in JavaScript writes the same bytes. -/

namespace SlopSync

/-! ## The scan -/

/-- A frame stands at an offset. -/
def EstopAt (stream : Bytes) (i : Nat) : Prop := ∃ frame, decodeEstop ((stream.drop i).take kEstopFrameBytes) = .ok frame

section

variable {b : UInt8} {bs rest stream : Bytes} {frame : EstopFrame} {i j : Nat}

/-- What is decoded has the length and the magic. -/
theorem decodeEstop_ok (h : decodeEstop bs = .ok frame) : kEstopFrameBytes ≤ bs.length ∧ estopMagic bs = true := by
  unfold decodeEstop at h
  split at h
  · cases h
  · rename_i hlen
    split at h
    · cases h
    · rename_i hmagic
      exact ⟨Nat.le_of_not_lt hlen, by simpa using hmagic⟩

theorem EstopAt.room (h : EstopAt stream i) : i + kEstopFrameBytes ≤ stream.length := by
  obtain ⟨frame, hframe⟩ := h
  have hlen := (decodeEstop_ok hframe).1
  rw [List.length_take, List.length_drop] at hlen
  have hpos : 0 < kEstopFrameBytes := by decide
  omega

theorem EstopAt.magic (h : EstopAt stream 0) : estopMagic stream = true := by
  obtain ⟨frame, hframe⟩ := h
  have hmagic := (decodeEstop_ok hframe).2
  rwa [List.drop_zero, estopMagic, List.take_take] at hmagic

theorem not_estopAt_nil : ¬EstopAt [] i := by
  intro h
  have := h.room
  rw [List.length_nil] at this
  have hpos : 0 < kEstopFrameBytes := by decide
  omega

/-- A stream that is too short holds no frame. -/
theorem not_estopAt_short (h : stream.length < kEstopFrameBytes) : ¬EstopAt stream i := by
  intro hat
  have := hat.room
  omega

/-- What a scan that starts at `i` should report. -/
structure Scanned (stream : Bytes) (i : Nat) (r : EstopScanResult) : Prop where
  found : r.found = true → ∃ j, r.offset = i + j ∧ IsLeast {k | EstopAt stream k} j ∧
    decodeEstop ((stream.drop j).take kEstopFrameBytes) = .ok r.frame
  missed : r.found = false → ∀ k, ¬EstopAt stream k

theorem scanned_none (h : ∀ k, ¬EstopAt stream k) : Scanned stream i {} := ⟨nofun, fun _ => h⟩

/-- With no frame in front the scan goes on behind the first byte. -/
theorem Scanned.skip {r : EstopScanResult} (h : Scanned rest (i + 1) r) (hfront : ¬EstopAt (b :: rest) 0) :
    Scanned (b :: rest) i r := by
  constructor
  · intro hfound
    obtain ⟨j, hoffset, ⟨hat, hleast⟩, hframe⟩ := h.found hfound
    refine ⟨j + 1, by omega, ⟨hat, ?_⟩, hframe⟩
    intro k hk
    cases k with
    | zero => exact absurd hk hfront
    | succ k => exact Nat.succ_le_succ (hleast hk)
  · intro hmissed k hk
    cases k with
    | zero => exact hfront hk
    | succ k => exact h.missed hmissed k hk

/-- **The scan finds the first frame**, wherever it starts. -/
theorem scanFrom_spec (i : Nat) (stream : Bytes) : Scanned stream i (scanForEstopFrom i stream) := by
  induction stream generalizing i with
  | nil => exact scanned_none fun _ => not_estopAt_nil
  | cons b rest ih =>
    unfold scanForEstopFrom
    split
    · rename_i hshort
      exact scanned_none fun _ => not_estopAt_short (Nat.lt_trans hshort (by decide))
    · split
      · rename_i hmagic
        refine (ih (i + 1)).skip fun hfront => ?_
        rw [hfront.magic] at hmagic
        cases hmagic
      · split
        · rename_i hshort
          exact scanned_none fun _ => not_estopAt_short hshort
        · split
          · rename_i frame hframe
            exact ⟨fun _ => ⟨0, rfl, ⟨⟨frame, hframe⟩, fun _ _ => Nat.zero_le _⟩, hframe⟩, nofun⟩
          · rename_i e herror
            refine (ih (i + 1)).skip fun ⟨frame, hframe⟩ => ?_
            rw [List.drop_zero, herror] at hframe
            cases hframe

/-! ## Encoding -/

theorem length_encodeEstop (f : EstopFrame) : (encodeEstop f).length = kEstopFrameBytes := rfl

/-- **A frame is read as it was written.** -/
theorem decode_encode (f : EstopFrame) : decodeEstop (encodeEstop f) = .ok f := by
  have hcrc : getU32 ((encodeEstop f).drop kEstopCrcOffset) = crc32 ((encodeEstop f).take kEstopCrcOffset) := by
    have := getU32_le32 (crc32 ((encodeEstop f).take kEstopCrcOffset)) []
    rwa [List.append_nil] at this
  have hseq : getU16 ((encodeEstop f).drop 6) = f.seq := getU16_le16 f.seq _
  unfold decodeEstop
  rw [if_neg (by rw [length_encodeEstop]; exact Nat.lt_irrefl _), if_neg (by simp [estopMagic, encodeEstop, kEstopMagicByte]),
    if_neg (by rw [hcrc]; exact not_not.mpr rfl), hseq]
  rfl

theorem estopAt_encode (f : EstopFrame) (pre post : Bytes) : EstopAt (pre ++ encodeEstop f ++ post) pre.length := by
  refine ⟨f, ?_⟩
  rw [List.append_assoc, List.drop_left, ← length_encodeEstop f, List.take_left, decode_encode]

end

/-! ## JavaScript -/

namespace Js

section

variable {c : Int} {w : UInt32}

/-- Whether the low bit is set. -/
theorem and32_one (h : uint32 c = w) : and32 c 1 ≠ 0 ↔ w &&& 1 = 1 := by
  have hone : uint32 1 = 1 := rfl
  rw [ne_eq, and32_eq_zero, h, hone, ← UInt32.toNat_inj, ← UInt32.toNat_inj, UInt32.toNat_and]
  have hmod := Nat.and_one_is_mod w.toNat
  have h0 : (0 : UInt32).toNat = 0 := rfl
  have h1 : (1 : UInt32).toNat = 1 := rfl
  rw [h0, h1, hmod]
  omega

theorem uint32_crc32Bit (h : uint32 c = w) : uint32 (crc32Bit c) = SlopSync.crc32Bit w := by
  have hshift : uint32 (shr32 c 1) = w >>> 1 := by
    rw [uint32_shr32 c (by decide), h]
    rfl
  unfold crc32Bit SlopSync.crc32Bit
  by_cases hbit : w &&& 1 = 1
  · rw [if_pos hbit, if_pos ((and32_one h).mpr hbit), uint32_xor32, hshift]
    rfl
  · rw [if_neg hbit, if_neg (mt (and32_one h).mp hbit), hshift]

theorem uint32_crc32Entry (h : uint32 c = w) : uint32 (crc32Bit^[8] c) = crc32Entry w := by
  simp only [Function.iterate_succ_apply', Function.iterate_zero_apply, crc32Entry]
  iterate 8 apply uint32_crc32Bit
  exact h

/-- An entry of the table, at the index that a byte of the checksum makes. -/
theorem uint32_table (h : uint32 c = w) :
    uint32 (CRC32_TABLE.getD (and32 c 0xff).toNat 0) = crc32Entry (w &&& 0xFF) := by
  have hlt : (w &&& 0xFF).toNat < 256 := by
    rw [UInt32.toNat_and]
    exact Nat.lt_of_le_of_lt Nat.and_le_right (by decide)
  have hindex : (and32 c 0xff).toNat = (w &&& 0xFF).toNat := by
    have := and32_eq_toNat c (m := 0xff) (by decide)
    rw [h] at this
    exact congrArg Int.toNat this
  have hentry : CRC32_TABLE.getD (w &&& 0xFF).toNat 0 = toUint32 (crc32Bit^[8] ((w &&& 0xFF).toNat : Int)) := by
    rw [CRC32_TABLE, List.getD_eq_getElem?_getD, List.getElem?_map, List.getElem?_range hlt]
    rfl
  rw [hindex, hentry, uint32_toUint32]
  exact uint32_crc32Entry (uint32_natCast _)

theorem uint32_update (bytes : Bytes) (h : uint32 c = w) :
    uint32 (bytes.foldl (fun c b => xor32 (CRC32_TABLE.getD (and32 (xor32 c b.toNat) 0xff).toNat 0) (shr32 c 8)) c) =
      crc32Update w bytes := by
  induction bytes generalizing c w with
  | nil => exact h
  | cons b bytes ih =>
    refine ih ?_
    have hbyte : uint32 (xor32 c b.toNat) = w ^^^ b.toUInt32 := by
      rw [uint32_xor32, h, ← uint32_natCast b.toUInt32, UInt8.toNat_toUInt32]
    rw [uint32_xor32, uint32_table hbyte, uint32_shr32 c (by decide), h]
    rfl

/-- **The checksums agree**, on every input. -/
theorem crc32_eq (bytes : Bytes) : crc32 bytes = (SlopSync.crc32 bytes).toNat := by
  unfold crc32
  dsimp only
  rw [toUint32_eq, uint32_xor32, uint32_update bytes (w := 0xFFFFFFFF) rfl]
  rfl

/-- The frames agree, for any numbers. -/
theorem encodeEstopFrame_eq (cause origin seq : Int) :
    encodeEstopFrame cause origin seq = encodeEstop ⟨uint8 cause, uint8 origin, uint16 seq⟩ := by
  unfold encodeEstopFrame encodeEstop
  simp only [uint8_and, uint16_and, crc32_eq, uint32_natCast]

end

end Js

/-- **The raw ESTOP scanner misses nothing and invents nothing**: it reports the least offset at which a frame decodes, and
that frame; a frame comes back from its bytes; and the client in JavaScript writes the same bytes. -/
theorem estop_exact (stream : Bytes) :
    (∀ i, ((scanForEstop stream).found = true ∧ (scanForEstop stream).offset = i) ↔ IsLeast {k | EstopAt stream k} i) ∧
      ((scanForEstop stream).found = true → decodeEstop ((stream.drop (scanForEstop stream).offset).take kEstopFrameBytes) =
        .ok (scanForEstop stream).frame) ∧
      ((scanForEstop stream).found = false ↔ ∀ k, ¬EstopAt stream k) ∧
      (∀ (pre post : Bytes) (frame : EstopFrame), stream = pre ++ encodeEstop frame ++ post →
        (scanForEstop stream).found = true ∧ (scanForEstop stream).offset ≤ pre.length) ∧
      (∀ frame, decodeEstop (encodeEstop frame) = .ok frame) ∧
      (∀ frame : EstopFrame, Js.encodeEstopFrame frame.cause.toNat frame.origin.toNat frame.seq.toNat = encodeEstop frame) ∧
      Js.crc32 stream = (crc32 stream).toNat := by
  have hscan := scanFrom_spec 0 stream
  have hleast : ∀ i, ((scanForEstop stream).found = true ∧ (scanForEstop stream).offset = i) ↔
      IsLeast {k | EstopAt stream k} i := by
    intro i
    constructor
    · rintro ⟨hfound, rfl⟩
      obtain ⟨j, hoffset, hj, -⟩ := hscan.found hfound
      rw [scanForEstop, hoffset, Nat.zero_add]
      exact hj
    · intro hi
      cases hfound : (scanForEstop stream).found with
      | false => exact absurd hi.1 (hscan.missed hfound i)
      | true =>
        obtain ⟨j, hoffset, hj, -⟩ := hscan.found hfound
        refine ⟨rfl, ?_⟩
        rw [scanForEstop, hoffset, Nat.zero_add]
        exact hj.unique hi
  have hmissed : (scanForEstop stream).found = false ↔ ∀ k, ¬EstopAt stream k := by
    refine ⟨hscan.missed, fun h => ?_⟩
    cases hfound : (scanForEstop stream).found with
    | false => rfl
    | true =>
      obtain ⟨j, -, hj, -⟩ := hscan.found hfound
      exact absurd hj.1 (h j)
  refine ⟨hleast, fun hfound => ?_, hmissed, fun pre post frame hstream => ?_, decode_encode, fun frame => ?_,
    Js.crc32_eq stream⟩
  · obtain ⟨j, hoffset, -, hframe⟩ := hscan.found hfound
    rw [Nat.zero_add] at hoffset
    rw [scanForEstop, hoffset]
    exact hframe
  · have hat : EstopAt stream pre.length := by
      rw [hstream]
      exact estopAt_encode frame pre post
    cases hfound : (scanForEstop stream).found with
    | false => exact absurd hat (hmissed.mp hfound _)
    | true => exact ⟨rfl, ((hleast _).mp ⟨hfound, rfl⟩).2 hat⟩
  · rw [Js.encodeEstopFrame_eq]
    simp

/-- A frame between other bytes. -/
theorem estop_exact_between : (scanForEstop ([0xE5, 7] ++ encodeEstop ⟨1, 2, 3⟩ ++ [0xE5])).found = true ∧
    (scanForEstop ([0xE5, 7] ++ encodeEstop ⟨1, 2, 3⟩ ++ [0xE5])).offset ≤ 2 :=
  (estop_exact ([0xE5, 7] ++ encodeEstop ⟨1, 2, 3⟩ ++ [0xE5])).2.2.2.1 [0xE5, 7] [0xE5] ⟨1, 2, 3⟩ rfl

end SlopSync
