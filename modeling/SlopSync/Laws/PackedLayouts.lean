import Mathlib.Data.List.TakeWhile
import SlopSync.LayoutCodec
import SlopSync.Js.Packed
import SlopSync.Laws.JsCodec

/-! # Packed layouts on both platforms

* `decodeFrom_get`, `readFields_get` — both loops read a field at the sum of the widths before it.
* `same_iff` — a number read there is the same.
* `same_text_iff` — a text is the same when it is UTF-8 that no byte order mark opens and only NULs follow its first NUL. -/

namespace SlopSync

/-! ## Offsets -/

section

variable {div : UInt32 → UInt32 → UInt32} {payload : Bytes} {f : LayoutField} {fields : List LayoutField} {n room : Nat}

/-- Adding up field sizes from `n` gives `n` and the size of the layout. -/
theorem foldl_wireSize (fields : List LayoutField) (n : Nat) :
    fields.foldl (fun s f => s + f.wireSize) n = n + layoutWireSize fields := by
  induction fields generalizing n with
  | nil => rfl
  | cons f fields ih =>
    rw [layoutWireSize, List.foldl_cons, List.foldl_cons, ih, ih (0 + f.wireSize)]
    omega

/-- The size of a layout is its first field's size and the rest's. -/
theorem layoutWireSize_cons (f : LayoutField) (fields : List LayoutField) :
    layoutWireSize (f :: fields) = f.wireSize + layoutWireSize fields := by
  rw [layoutWireSize, List.foldl_cons, foldl_wireSize, Nat.zero_add]

/-- Where the field of an index begins. -/
def fieldOffset (fields : List LayoutField) (i : Nat) : Nat := layoutWireSize (fields.take i)

theorem fieldOffset_zero (fields : List LayoutField) : fieldOffset fields 0 = 0 := rfl

/-- A later field's offset counts the first field's size. -/
theorem fieldOffset_cons (f : LayoutField) (fields : List LayoutField) (i : Nat) :
    fieldOffset (f :: fields) (i + 1) = f.wireSize + fieldOffset fields i := by
  rw [fieldOffset, List.take_succ_cons, layoutWireSize_cons, fieldOffset]

/-- Offsets grow along the layout. -/
theorem fieldOffset_mono (fields : List LayoutField) {i j : Nat} (h : i ≤ j) : fieldOffset fields i ≤ fieldOffset fields j := by
  induction fields generalizing i j with
  | nil => rw [fieldOffset, fieldOffset, List.take_nil, List.take_nil]
  | cons f fields ih =>
    cases i with
    | zero => exact Nat.zero_le _
    | succ i =>
      obtain ⟨j, rfl⟩ := Nat.exists_eq_succ_of_ne_zero (Nat.ne_of_gt (Nat.lt_of_lt_of_le (Nat.succ_pos i) h))
      rw [fieldOffset_cons, Nat.succ_eq_add_one, fieldOffset_cons]
      exact Nat.add_le_add_left (ih (Nat.le_of_succ_le_succ h)) _

/-- The field of an index ends where the next one begins. -/
theorem fieldOffset_succ {i : Nat} (h : fields[i]? = some f) : fieldOffset fields (i + 1) = fieldOffset fields i + f.wireSize := by
  induction fields generalizing i with
  | nil => cases h
  | cons g fields ih =>
    cases i with
    | zero =>
      cases h
      rw [fieldOffset_cons, fieldOffset_zero, fieldOffset_zero, Nat.add_comm]
    | succ i =>
      rw [fieldOffset_cons, fieldOffset_cons, ih h, Nat.add_assoc]

/-! ## The C++ loop -/

/-- A value is the field's, read at its offset. -/
theorem decodeFrom_get (offset : Nat) {i : Nat} (hget : fields[i]? = some f)
    (h : offset + fieldOffset fields (i + 1) ≤ payload.length) :
    (decodeFrom div payload fields offset).2[i]? =
      some (f.readField div ((payload.drop (offset + fieldOffset fields i)).take f.wireSize)) := by
  induction fields generalizing i offset with
  | nil => cases hget
  | cons g fields ih =>
    rw [fieldOffset_cons] at h
    rw [decodeFrom, if_neg (by omega)]
    cases i with
    | zero =>
      cases hget
      rfl
    | succ i =>
      rw [fieldOffset_cons, ← Nat.add_assoc]
      exact ih (offset + g.wireSize) hget (by omega)

/-- A prefix of the layout reads a prefix of the values. -/
theorem decodeFrom_take (offset k : Nat) (h : offset + fieldOffset fields k ≤ payload.length) :
    decodeFrom div payload (fields.take k) offset =
      (.ok (offset + fieldOffset fields k), (decodeFrom div payload fields offset).2.take k) := by
  induction fields generalizing offset k with
  | nil =>
    rw [fieldOffset, List.take_nil, decodeFrom, List.take_nil]
    rfl
  | cons f fields ih =>
    cases k with
    | zero => rfl
    | succ k =>
      rw [fieldOffset_cons, ← Nat.add_assoc] at h ⊢
      rw [List.take_succ_cons, decodeFrom, decodeFrom, if_neg (by omega), if_neg (by omega), ih (offset + f.wireSize) k h]
      rfl

end

/-! ## The JavaScript loop -/

namespace PackedFieldType

/-- The number of the type. -/
def code : PackedFieldType → Nat
  | u8 => 0 | i8 => 1 | u16 => 2 | i16 => 3 | u32 => 4 | i32 => 5 | f32 => 6 | bitfield8 => 7 | str16 => 8 | str32 => 9
  | str64 => 10

end PackedFieldType

namespace Js

/-- A field of the JavaScript layout that describes one of the C++ layout: it may declare any size, or none. -/
def Describes (f : LayoutField) (g : LayoutEntry) : Prop := g.type = f.type.code

section

variable {payload : Bytes} {f : LayoutField} {g : LayoutEntry} {fields : List LayoutField} {layout : List LayoutEntry}

/-- The JavaScript size table has every field type with its C++ size. -/
theorem packedSize_code (t : PackedFieldType) : packedSize t.code = some t.wireSize := by
  cases t <;> rfl

/-- The JavaScript loop reads a field at its offset when the payload reaches its end. -/
theorem readFields_get (hlayout : List.Forall₂ Describes fields layout) (off : Nat) {i : Nat} (hget : fields[i]? = some f)
    (h : off + fieldOffset fields (i + 1) ≤ payload.length) :
    ∃ g, Describes f g ∧ (readFields payload layout off)[i]? = some
      ⟨g, off + fieldOffset fields i, readRaw g.type f.wireSize (payload.drop (off + fieldOffset fields i))⟩ := by
  induction hlayout generalizing i off with
  | nil => cases hget
  | @cons f' g' fields layout hdescribes _ ih =>
    have hsize : packedSize g'.type = some f'.wireSize := by
      rw [show g'.type = f'.type.code from hdescribes]
      exact packedSize_code f'.type
    rw [fieldOffset_cons] at h
    rw [readFields, hsize]
    dsimp only
    rw [if_neg (by omega)]
    cases i with
    | zero =>
      cases hget
      exact ⟨g', hdescribes, rfl⟩
    | succ i =>
      rw [fieldOffset_cons, ← Nat.add_assoc]
      exact ih (off + f'.wireSize) hget (by omega)

/-! ## What is read -/

theorem getD_take {i n : Nat} (bs : Bytes) (h : i < n) : (bs.take n).getD i 0 = bs.getD i 0 := by
  rw [List.getD_eq_getElem?_getD, List.getD_eq_getElem?_getD, List.getElem?_take_of_lt h]

theorem getU16_take (bs : Bytes) : getU16 (bs.take 2) = getU16 bs := by
  rw [getU16, getU16, getD_take bs (by decide), getD_take bs (by decide)]

theorem getU32_take (bs : Bytes) : getU32 (bs.take 4) = getU32 bs := by
  rw [getU32, getU32, getD_take bs (by decide), getD_take bs (by decide), getD_take bs (by decide),
    getD_take bs (by decide)]

/-- A string field is read as the text before its first zero byte. -/
theorem readRaw_string {t : PackedFieldType} (h : t.isString = true) (size : Nat) (bs : Bytes) :
    readRaw t.code size bs = .str (textDecode (trimZeros (bs.take size))) := by
  cases t with
  | str16 | str32 | str64 => rfl
  | _ => cases h

/-- The same wire value; a text is compared by its bytes. -/
def SameWire : WireValue → Raw → Prop
  | .int k, .int l => k = l
  | .f32 a, .f32 b => a = b
  | .text s, .str cs => utf8 cs = s
  | _, _ => False

/-- A number is the same; a text is decoded from the same bytes without the zeros at their end. -/
theorem same_iff (f : LayoutField) {bs : Bytes} (hlen : f.wireSize ≤ bs.length) :
    SameWire (f.wireValue (bs.take f.wireSize)) (readRaw f.type.code f.wireSize bs) ↔
      (f.isString = true → utf8 (textDecode (trimZeros (bs.take f.wireSize))) = (bs.take f.wireSize).takeWhile (· ≠ 0)) := by
  have hstring : f.isString = true → f.readStringField (bs.take f.wireSize) = (bs.take f.wireSize).takeWhile (· ≠ 0) := by
    intro hs
    have hlong : ¬(bs.take f.wireSize).length < f.wireSize := by
      rw [List.length_take]
      omega
    rw [LayoutField.readStringField, if_neg (by rw [hs]; decide), if_neg hlong, List.take_take, Nat.min_self]
  have hbyte : (bs.take 1).getD 0 0 = bs.getD 0 0 := getD_take bs (by decide)
  obtain ⟨t, scale⟩ := f
  cases t with
  | u8 | bitfield8 => exact iff_of_true (congrArg (fun b : UInt8 => (b.toNat : Int)) hbyte) nofun
  | i8 => exact iff_of_true (congrArg (fun b : UInt8 => b.toInt8.toInt) hbyte) nofun
  | u16 => exact iff_of_true (congrArg (fun v : UInt16 => (v.toNat : Int)) (getU16_take bs)) nofun
  | i16 => exact iff_of_true (congrArg (fun v : UInt16 => v.toInt16.toInt) (getU16_take bs)) nofun
  | u32 => exact iff_of_true (congrArg (fun v : UInt32 => (v.toNat : Int)) (getU32_take bs)) nofun
  | i32 => exact iff_of_true (congrArg (fun v : UInt32 => v.toInt32.toInt) (getU32_take bs)) nofun
  | f32 => exact iff_of_true (getU32_take bs) nofun
  | str16 | str32 | str64 =>
    rw [← hstring rfl]
    exact ⟨fun h _ => h, fun h => h rfl⟩

/-! ## Texts -/

/-- The text of a string field: UTF-8 that no byte order mark opens, up to the first NUL, and only NULs behind. -/
def PlainText (bs : Bytes) : Prop := IsText (bs.takeWhile (· ≠ 0)) ∧ ∀ b ∈ bs.dropWhile (· ≠ 0), b = 0

/-- What stands before the first zero byte has no zero byte. -/
theorem takeWhile_ne_zero (bs : Bytes) : 0 ∉ bs.takeWhile (· ≠ 0) := by
  intro h
  simpa using List.mem_takeWhile_imp h

/-- Cutting at the first zero byte gives back a text that was padded with zeros. -/
theorem trimZeros_append_zeros {s z : Bytes} (hs : 0 ∉ s) (hz : ∀ b ∈ z, b = 0) : trimZeros (s ++ z) = s := by
  have hzeros : z.reverse.dropWhile (· = 0) = [] := by
    rw [List.dropWhile_eq_nil_iff]
    intro b hb
    simpa using hz b (List.mem_reverse.mp hb)
  have hkeep : s.reverse.dropWhile (· = 0) = s.reverse := by
    cases hrev : s.reverse with
    | nil => rfl
    | cons b bs =>
      have hb : b ∈ s := List.mem_reverse.mp (by rw [hrev]; exact List.mem_cons_self)
      have hne : b ≠ 0 := fun h => hs (h ▸ hb)
      rw [List.dropWhile_cons_of_neg (by simpa using hne)]
  rw [trimZeros, List.reverse_append, List.dropWhile_append, hzeros, List.isEmpty_nil, if_pos rfl, hkeep, List.reverse_reverse]

/-- A NUL that something follows is kept. -/
theorem zero_mem_trimZeros {s r : Bytes} (hr : ∃ b ∈ r, b ≠ 0) : 0 ∈ trimZeros (s ++ 0 :: r) := by
  obtain ⟨b, hb, hne⟩ := hr
  have hleft : r.reverse.dropWhile (· = 0) ≠ [] := by
    intro hnil
    have := List.dropWhile_eq_nil_iff.mp hnil b (List.mem_reverse.mpr hb)
    exact hne (by simpa using this)
  have hmem : (0 : UInt8) ∈ (s ++ [0]).reverse := List.mem_reverse.mpr (List.mem_append_right s (List.mem_singleton_self 0))
  rw [trimZeros, List.append_cons, List.reverse_append, List.dropWhile_append, if_neg (by simpa using hleft)]
  exact List.mem_reverse.mpr (List.mem_append_right _ hmem)

theorem ofNat_ne_zero {n : Nat} (hpos : 0 < n) (hlt : n < 256) : (0 : UInt8) ≠ UInt8.ofNat n := by
  intro h
  have htoNat := congrArg UInt8.toNat h
  rw [UInt8.toNat_ofNat_of_lt' hlt] at htoNat
  exact absurd htoNat.symm (Nat.ne_of_gt hpos)

/-- Only the NUL character has a zero byte in its encoding. -/
theorem utf8EncodeChar_nul {c : Char} (h : 0 ∈ String.utf8EncodeChar c) : c = '\x00' := by
  unfold String.utf8EncodeChar at h
  dsimp only at h
  split at h
  · rename_i hsmall
    have hzero : c.val.toNat = 0 := by
      by_contra hne
      exact ofNat_ne_zero (Nat.pos_of_ne_zero hne) (by omega) (List.mem_singleton.mp h)
    exact Char.ext (UInt32.toNat_inj.mp hzero)
  · split at h
    · rcases List.mem_pair.mp h with h | h
      all_goals exact absurd h (ofNat_ne_zero (by omega) (by omega))
    · split at h
      · simp only [List.mem_cons, List.not_mem_nil, or_false] at h
        rcases h with h | h | h
        all_goals exact absurd h (ofNat_ne_zero (by omega) (by omega))
      · simp only [List.mem_cons, List.not_mem_nil, or_false] at h
        rcases h with h | h | h | h
        all_goals exact absurd h (ofNat_ne_zero (by omega) (by omega))

/-- A decoded character is encoded by the bytes it was read from. -/
theorem frontChar_some {bs : Bytes} {c : Char} (h : frontChar bs = some c) :
    bs = String.utf8EncodeChar c ++ bs.drop c.utf8Size := by
  obtain ⟨l, hl⟩ := ByteArray.exists_of_utf8DecodeChar?_eq_some h
  have hbytes : bs = String.utf8EncodeChar c ++ l.data.toList := by
    have hdata := congrArg (fun b : ByteArray => b.data.toList) hl
    simpa using hdata
  have hdrop : bs.drop c.utf8Size = l.data.toList := by
    rw [hbytes]
    exact List.drop_left' (String.length_utf8EncodeChar c)
  rw [hdrop]
  exact hbytes

/-- Continuation bytes are no NULs. -/
theorem zero_mem_drop_continued {n : Nat} {low high : UInt8} {bs : Bytes} (hlow : 0x80 ≤ low) (h : 0 ∈ bs) :
    0 ∈ bs.drop (continued n low high bs) := by
  induction n generalizing low high bs with
  | zero => rwa [continued, List.drop_zero]; nofun
  | succ n ih =>
    cases bs with
    | nil => cases h
    | cons b bs =>
      rw [continued]
      split
      · rename_i hb
        have hne : b ≠ 0 := by
          rintro rfl
          exact absurd (UInt8.le_trans hlow hb.1) (by decide)
        rw [List.drop_succ_cons]
        exact ih (by decide) ((List.mem_cons.mp h).resolve_left (Ne.symm hne))
      · exact h

/-- A continuation range starts no lower than `0x80`. -/
theorem le_continuation (b : UInt8) : 0x80 ≤ (continuation b).2.1 := by
  unfold continuation
  split
  · decide
  split
  · decide
  split
  · decide
  split
  · decide
  split
  · decide
  split
  · decide
  split
  · decide
  · decide

/-- A NUL is a character of its own, whatever is around it. -/
theorem nul_mem_decodeChars {fuel : Nat} {bs : Bytes} (hlen : bs.length ≤ fuel) (h : 0 ∈ bs) :
    '\x00' ∈ decodeChars fuel bs := by
  induction fuel generalizing bs with
  | zero =>
    obtain rfl := List.length_eq_zero_iff.mp (Nat.le_zero.mp hlen)
    cases h
  | succ fuel ih =>
    rw [decodeChars]
    cases hfront : frontChar bs with
    | some c =>
      have hbytes := frontChar_some hfront
      have hsize := c.utf8Size_pos
      rw [hbytes] at h
      rcases List.mem_append.mp h with h | h
      · rw [utf8EncodeChar_nul h]
        exact List.mem_cons_self
      · refine List.mem_cons_of_mem _ (ih ?_ h)
        rw [List.length_drop]
        omega
    | none =>
      dsimp only
      cases bs with
      | nil => cases h
      | cons b bs =>
        have hne : b ≠ 0 := by
          rintro rfl
          have := frontChar_encode '\x00' bs
          rw [show String.utf8EncodeChar '\x00' = [0] from by decide, List.singleton_append, hfront] at this
          cases this
        rw [if_neg (List.cons_ne_nil b bs)]
        refine List.mem_cons_of_mem _ (ih ?_ ?_)
        · rw [badLength, List.drop_succ_cons, List.length_drop]
          rw [List.length_cons] at hlen
          omega
        · rw [badLength, List.drop_succ_cons]
          exact zero_mem_drop_continued (le_continuation b) ((List.mem_cons.mp h).resolve_left (Ne.symm hne))

theorem zero_mem_utf8 {cs : List Char} (h : '\x00' ∈ cs) : 0 ∈ utf8 cs :=
  List.mem_flatMap.mpr ⟨'\x00', h, by decide⟩

/-- Bytes with a zero decode to a text whose encoding has a zero. -/
theorem zero_mem_utf8_textDecode {bs : Bytes} (h : 0 ∈ bs) : 0 ∈ utf8 (textDecode bs) := by
  rw [textDecode]
  refine zero_mem_utf8 ?_
  split
  · rename_i hbom
    have hrest : 0 ∈ bs.drop 3 := by
      rw [← List.take_append_drop 3 bs, hbom] at h
      exact (List.mem_append.mp h).resolve_left (by decide)
    exact nul_mem_decodeChars (by rw [List.length_drop]; omega) hrest
  · exact nul_mem_decodeChars (Nat.le_refl _) h

/-- **Both readers see the same text** in a plain one, and in no other. -/
theorem same_text_iff (bs : Bytes) : utf8 (textDecode (trimZeros bs)) = bs.takeWhile (· ≠ 0) ↔ PlainText bs := by
  have hsplit := List.takeWhile_append_dropWhile (p := (· ≠ 0)) (l := bs)
  have hnul := takeWhile_ne_zero bs
  by_cases hzeros : ∀ b ∈ bs.dropWhile (· ≠ 0), b = 0
  · have htrim : trimZeros bs = bs.takeWhile (· ≠ 0) := by
      conv_lhs => rw [← hsplit]
      exact trimZeros_append_zeros hnul hzeros
    rw [htrim, utf8_textDecode, PlainText]
    exact (and_iff_left hzeros).symm
  · refine iff_of_false (fun heq => ?_) (fun hplain => hzeros hplain.2)
    -- something follows the first NUL, which the JavaScript reader keeps
    obtain ⟨b, hb, hne⟩ : ∃ b ∈ bs.dropWhile (· ≠ 0), b ≠ 0 := by simpa using hzeros
    cases hdrop : bs.dropWhile (· ≠ 0) with
    | nil =>
      rw [hdrop] at hb
      cases hb
    | cons z r =>
      have hz : z = 0 := by
        have hhead := List.head_dropWhile_not (· ≠ 0) (l := bs) (by rw [hdrop]; exact List.cons_ne_nil z r)
        simp only [hdrop, List.head_cons] at hhead
        simpa using hhead
      subst hz
      rw [hdrop] at hb hsplit
      have hmem : 0 ∈ trimZeros bs := by
        rw [← hsplit]
        exact zero_mem_trimZeros ⟨b, (List.mem_cons.mp hb).resolve_left hne, hne⟩
      have hbad := zero_mem_utf8_textDecode hmem
      rw [heq] at hbad
      exact hnul hbad

/-- A text is plain when it is filled up with NULs. -/
theorem plainText_padded {s : Bytes} (htext : IsText s) (hs : 0 ∉ s) (n : Nat) : PlainText (s ++ List.replicate n 0) := by
  have htake := PackedFieldType.takeWhile_padded hs n
  have hsplit := List.takeWhile_append_dropWhile (p := (· ≠ 0)) (l := s ++ List.replicate n 0)
  rw [htake] at hsplit
  refine ⟨by rwa [htake], fun b hb => ?_⟩
  rw [List.append_cancel_left hsplit] at hb
  exact List.eq_of_mem_replicate hb

/-- Two texts with one encoding are one text. -/
theorem utf8_inj {cs ds : List Char} (h : utf8 cs = utf8 ds) : cs = ds := by
  rw [← decodeChars_utf8 (Nat.le_max_left cs.length ds.length), h, decodeChars_utf8 (Nat.le_max_right cs.length ds.length)]

/-- A text that is encoded is decoded again, unless a byte order mark opens it. -/
theorem textDecode_utf8_iff {cs : List Char} : textDecode (utf8 cs) = cs ↔ cs.head? ≠ some '\uFEFF' := by
  have hiff := @utf8_textDecode (utf8 cs)
  constructor
  · intro h
    rw [h] at hiff
    obtain ⟨ds, hds, hhead⟩ := hiff.mp rfl
    rwa [utf8_inj hds]
  · intro h
    exact utf8_inj (hiff.mpr ⟨cs, rfl, h⟩)

end

/-! ## The promise -/

/-- The promise for a layout: a prefix of it decodes to a prefix of the values, and both loops read a field of the prefix at
one place and find the same there. -/
def ReadsAlike (div : UInt32 → UInt32 → UInt32) (fields : List LayoutField) (layout : List LayoutEntry) (k room : Nat)
    (payload : Bytes) : Prop :=
  (∀ n, (decodeByLayout div fields payload room).1 = .ok n →
    decodeByLayout div (fields.take k) payload room =
      (.ok (layoutWireSize (fields.take k)), (decodeByLayout div fields payload room).2.take k)) ∧
  ∀ i f, i < k → fields[i]? = some f →
    let off := fieldOffset fields i
    let bs := (payload.drop off).take f.wireSize
    (decodeByLayout div (fields.take k) payload room).2[i]? = some (f.readField div bs) ∧
    ∃ r, (readFields payload layout 0)[i]? = some r ∧ r.off = off ∧ SameWire (f.wireValue bs) r.raw

/-- The promise for a text: either reader returns it. -/
def TextReturns (f : LayoutField) (text : List Char) : Prop :=
  let bs := f.type.packStringField (utf8 text)
  f.readStringField bs = utf8 text ∧ readRaw f.type.code f.wireSize bs = .str text

section

variable {div : UInt32 → UInt32 → UInt32} {payload : Bytes} {fields : List LayoutField} {layout : List LayoutEntry}
  {k room : Nat} {f : LayoutField} {text : List Char}

/-- Both platforms read the fields alike exactly when every string field among them holds plain text. -/
theorem readsAlike_iff (hlayout : List.Forall₂ Describes fields layout) (hlen : fieldOffset fields k ≤ payload.length)
    (hroom : k ≤ room) : ReadsAlike div fields layout k room payload ↔
      ∀ i f, i < k → fields[i]? = some f → f.isString = true →
        PlainText ((payload.drop (fieldOffset fields i)).take f.wireSize) := by
  have hinside : ¬room < (fields.take k).length := by
    rw [List.length_take]
    omega
  have htake := @decodeFrom_take div payload fields 0 k (by rwa [Nat.zero_add])
  rw [Nat.zero_add] at htake
  have hget : ∀ i f, i < k → fields[i]? = some f → fieldOffset fields (i + 1) ≤ payload.length := by
    intro i f hi _
    exact (fieldOffset_mono fields hi).trans hlen
  have hsame : ∀ i f, i < k → fields[i]? = some f →
      ((∃ r, (readFields payload layout 0)[i]? = some r ∧ r.off = fieldOffset fields i ∧
        SameWire (f.wireValue ((payload.drop (fieldOffset fields i)).take f.wireSize)) r.raw) ↔
      (f.isString = true → PlainText ((payload.drop (fieldOffset fields i)).take f.wireSize))) := by
    intro i f hi hf
    have hfits := hget i f hi hf
    obtain ⟨g, hdescribes, hread⟩ := readFields_get hlayout 0 hf (by rwa [Nat.zero_add])
    rw [Nat.zero_add, show g.type = f.type.code from hdescribes] at hread
    rw [fieldOffset_succ hf] at hfits
    have hlong : f.wireSize ≤ (payload.drop (fieldOffset fields i)).length := by
      rw [List.length_drop]
      omega
    have hiff := same_iff f hlong
    rw [same_text_iff] at hiff
    rw [hread, ← hiff]
    constructor
    · rintro ⟨r, hr, -, hwire⟩
      cases hr
      exact hwire
    · intro hwire
      exact ⟨_, rfl, rfl, hwire⟩
  constructor
  · intro h i f hi hf
    exact (hsame i f hi hf).mp (h.2 i f hi hf).2
  · intro h
    refine ⟨fun n hn => ?_, fun i f hi hf => ⟨?_, (hsame i f hi hf).mpr (h i f hi hf)⟩⟩
    · have hfull : ¬room < fields.length := by
        intro hlt
        rw [decodeByLayout, if_pos hlt] at hn
        cases hn
      rw [decodeByLayout, decodeByLayout, if_neg hinside, if_neg hfull]
      exact htake
    · have hvalue := @decodeFrom_get div payload f fields 0 i hf (by rw [Nat.zero_add]; exact hget i f hi hf)
      rw [decodeByLayout, if_neg hinside, htake]
      dsimp only
      rw [List.getElem?_take_of_lt hi, hvalue, Nat.zero_add]

/-- A text that fits its field and has no NUL comes back exactly when it does not start with a byte order mark. -/
theorem textReturns_iff (hs : f.isString = true) (hnul : '\x00' ∉ text) (hfits : (utf8 text).length ≤ f.wireSize) :
    TextReturns f text ↔ text.head? ≠ some '\uFEFF' := by
  have hbytes : 0 ∉ utf8 text := by
    intro h
    obtain ⟨c, hc, hzero⟩ := List.mem_flatMap.mp h
    exact hnul (utf8EncodeChar_nul hzero ▸ hc)
  have hpack : f.type.packStringField (utf8 text) = utf8 text ++ List.replicate (f.wireSize - (utf8 text).length) 0 :=
    congrArg (· ++ _) (List.take_of_length_le hfits)
  have hlen : (f.type.packStringField (utf8 text)).length = f.wireSize := PackedFieldType.length_packStringField _ _
  have hview : f.readStringField (f.type.packStringField (utf8 text)) = utf8 text := by
    rw [LayoutField.readStringField, if_neg (by rw [hs]; decide), if_neg (by omega), List.take_of_length_le (by omega), hpack]
    exact PackedFieldType.takeWhile_padded hbytes _
  have hraw : readRaw f.type.code f.wireSize (f.type.packStringField (utf8 text)) = .str (textDecode (utf8 text)) := by
    have htrim : trimZeros ((f.type.packStringField (utf8 text)).take f.wireSize) = utf8 text := by
      rw [List.take_of_length_le (by omega), hpack]
      exact trimZeros_append_zeros hbytes fun b hb => List.eq_of_mem_replicate hb
    rw [readRaw_string hs, htrim]
  rw [TextReturns, and_iff_right hview, hraw, Raw.str.injEq]
  exact textDecode_utf8_iff

end

/-- **A prefix of a layout always reads a prefix, numbers always agree, and texts agree when they are plain**: valid UTF-8
that no byte order mark opens, and nothing but NULs behind the first NUL. -/
theorem packed_agree_iff (div : UInt32 → UInt32 → UInt32) {fields : List LayoutField} {layout : List LayoutEntry}
    (hlayout : List.Forall₂ Describes fields layout) {k room : Nat} {payload : Bytes}
    (hlen : layoutWireSize (fields.take k) ≤ payload.length) (hroom : k ≤ room) {f : LayoutField} (hs : f.isString = true)
    {text : List Char} (hnul : '\x00' ∉ text) (hfits : (utf8 text).length ≤ f.wireSize) :
    (ReadsAlike div fields layout k room payload ↔
      ∀ i g, i < k → fields[i]? = some g → g.isString = true →
        PlainText ((payload.drop (fieldOffset fields i)).take g.wireSize)) ∧
    (TextReturns f text ↔ text.head? ≠ some '\uFEFF') :=
  ⟨readsAlike_iff hlayout hlen hroom, textReturns_iff hs hnul hfits⟩

/-- A text behind a number whose declared size is wrong. -/
theorem packed_agree_named :
    ReadsAlike (fun a _ => a) [⟨.u16, 0x3F800000⟩, ⟨.str16, 0x3F800000⟩]
        [{ name := "n", type := 2, declaredSize := some 9 }, { name := "s", type := 8 }] 2 2
        ([0x34, 0x12] ++ [0xC3, 0xA9] ++ List.replicate 20 0) ∧
      TextReturns ⟨.str16, 0x3F800000⟩ ['é'] := by
  have hlayout : List.Forall₂ Describes [⟨.u16, 0x3F800000⟩, ⟨.str16, 0x3F800000⟩]
      [{ name := "n", type := 2, declaredSize := some 9 }, { name := "s", type := 8 }] := .cons rfl (.cons rfl .nil)
  have hlen : layoutWireSize (List.take 2 [⟨.u16, 0x3F800000⟩, ⟨.str16, 0x3F800000⟩]) ≤
      ([0x34, 0x12] ++ [0xC3, 0xA9] ++ List.replicate 20 0 : Bytes).length := by decide
  have hfits : (utf8 ['é']).length ≤ (⟨.str16, 0x3F800000⟩ : LayoutField).wireSize := by decide
  have h := packed_agree_iff (fun a _ => a) hlayout hlen (Nat.le_refl 2) (f := ⟨.str16, 0x3F800000⟩) rfl (by decide) hfits
  refine ⟨h.1.mpr fun i g hi hg hs => ?_, h.2.mpr (by decide)⟩
  match i, hi with
  | 0, _ =>
    cases hg
    cases hs
  | 1, _ =>
    cases hg
    exact plainText_padded ⟨['é'], rfl, by decide⟩ (by decide) 14

/-- Behind a NUL the JavaScript reader reads on, and a byte order mark it drops. -/
theorem texts_differ :
    ¬ReadsAlike (fun a _ => a) [⟨.str16, 0x3F800000⟩] [{ type := 8 }] 1 1 ([65, 0, 66] ++ List.replicate 13 0) ∧
      ¬TextReturns ⟨.str16, 0x3F800000⟩ ['\uFEFF', 'A'] := by
  constructor
  · intro h
    have hlayout : List.Forall₂ Describes [⟨.str16, 0x3F800000⟩] [{ type := 8 }] := .cons rfl .nil
    have hplain := (readsAlike_iff hlayout (by decide) (Nat.le_refl 1)).mp h 0 _ (by decide) rfl rfl
    exact absurd (hplain.2 66 (by decide)) (by decide)
  · exact fun h => (textReturns_iff rfl (by decide) (by decide)).mp h rfl

end Js

end SlopSync
