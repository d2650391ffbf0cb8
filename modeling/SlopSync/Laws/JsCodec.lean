import SlopSync.Js.Cbor
import SlopSync.Laws.Profile

/-! # The two codecs

Where the JavaScript decoder and the C++ reader agree. -/

namespace SlopSync.Js

open CborReader (major additional bigEndianValue)
open CborWriter (bigEndian bigEndian_length kMaxDepth)

/-! ## Text -/

@[simp] theorem utf8_nil : utf8 [] = [] := rfl

@[simp] theorem utf8_cons (c : Char) (cs : List Char) : utf8 (c :: cs) = String.utf8EncodeChar c ++ utf8 cs := rfl

/-- The first character of an encoding is read back. -/
theorem frontChar_encode (c : Char) (rest : Bytes) : frontChar (String.utf8EncodeChar c ++ rest) = some c := by
  rw [frontChar, List.toByteArray_append]
  exact ByteArray.utf8DecodeChar?_utf8EncodeChar_append

theorem frontChar_nil : frontChar [] = none := by
  decide

/-- So a text's first character is read off its bytes. -/
theorem frontChar_utf8 (cs : List Char) : frontChar (utf8 cs) = cs.head? := by
  cases cs with
  | nil => exact frontChar_nil
  | cons c cs => exact frontChar_encode c (utf8 cs)

/-- A text has no more characters than bytes. -/
theorem length_le_utf8 (cs : List Char) : cs.length ≤ (utf8 cs).length := by
  induction cs with
  | nil => exact Nat.le_refl 0
  | cons c cs ih =>
    have := c.utf8Size_pos
    rw [utf8_cons, List.length_append, String.length_utf8EncodeChar, List.length_cons]
    omega

/-- Characters are decoded as they were encoded. -/
theorem decodeChars_utf8 : ∀ {cs : List Char} {fuel : Nat}, cs.length ≤ fuel → decodeChars fuel (utf8 cs) = cs
  | [], 0, _ => rfl
  | [], fuel + 1, _ => by rw [decodeChars, utf8_nil, frontChar_nil]; rfl
  | c :: cs, fuel + 1, h => by
    have hdrop : (utf8 (c :: cs)).drop c.utf8Size = utf8 cs := by
      rw [utf8_cons]
      exact List.drop_left' (String.length_utf8EncodeChar c)
    rw [decodeChars, frontChar_utf8]
    dsimp only [List.head?_cons]
    rw [hdrop, decodeChars_utf8 (Nat.le_of_succ_le_succ h)]

/-- The bytes of some text that no byte order mark opens. -/
def IsText (s : Bytes) : Prop := ∃ cs : List Char, s = utf8 cs ∧ cs.head? ≠ some '\uFEFF'

/-- The bytes start with a byte order mark exactly when the text does. -/
theorem bom_iff {cs : List Char} : (utf8 cs).take 3 = byteOrderMark ↔ cs.head? = some '\uFEFF' := by
  have hbom : String.utf8EncodeChar '\uFEFF' = byteOrderMark := by decide
  constructor
  · intro h
    rw [← frontChar_utf8, ← List.take_append_drop 3 (utf8 cs), h, ← hbom]
    exact frontChar_encode _ _
  · intro h
    cases cs with
    | nil => cases h
    | cons c cs =>
      obtain rfl : c = '\uFEFF' := by simpa using h
      rw [utf8_cons, hbom]
      rfl

/-- **A text is decoded to itself** just when it is valid and does not start with a byte order mark. -/
theorem utf8_textDecode {s : Bytes} : utf8 (textDecode s) = s ↔ IsText s := by
  constructor
  · intro h
    by_cases hbom : s.take 3 = byteOrderMark
    · -- a dropped mark would have to come back
      have hlong : textDecode s = decodeChars s.length (s.drop 3) := if_pos hbom
      rw [← h] at hbom
      have hhead := bom_iff.mp hbom
      obtain ⟨c, cs, hcs⟩ := List.exists_cons_of_ne_nil (l := textDecode s) (by rintro e; rw [e] at hhead; cases hhead)
      obtain rfl : c = '\uFEFF' := by simpa [hcs] using hhead
      have hdrop : s.drop 3 = utf8 cs := by
        rw [← h, hcs, utf8_cons]
        rfl
      have hlen : cs.length ≤ s.length := by
        have := length_le_utf8 cs
        rw [← hdrop, List.length_drop] at this
        omega
      have hself : textDecode s = cs := by rw [hlong, hdrop, decodeChars_utf8 hlen]
      exact absurd (congrArg List.length (hcs.symm.trans hself)) (by simp)
    · refine ⟨textDecode s, h.symm, fun hhead => hbom ?_⟩
      rw [← h]
      exact bom_iff.mpr hhead
  · rintro ⟨cs, rfl, hhead⟩
    rw [textDecode, if_neg (fun h => hhead (bom_iff.mp h)), decodeChars_utf8 (length_le_utf8 cs)]

/-! ## Heads -/

section

variable {v : View} {p : Nat} {rest : Bytes}

/-- The bytes behind a position, by index. -/
theorem getElem?_of_drop {bs : Bytes} (h : bs.drop p = rest) (k : Nat) : bs[p + k]? = rest[k]? := by
  rw [← h, List.getElem?_drop]

theorem exists_four {bs : Bytes} (h : bs.length = 4) : ∃ a b c d, bs = [a, b, c, d] := by
  match bs, h with
  | [a, b, c, d], _ => exact ⟨a, b, c, d, rfl⟩

theorem exists_eight {bs : Bytes} (h : bs.length = 8) : ∃ a b c d e f g i, bs = [a, b, c, d, e, f, g, i] := by
  match bs, h with
  | [a, b, c, d, e, f, g, i], _ => exact ⟨a, b, c, d, e, f, g, i, rfl⟩

/-- Two bytes by a shift and an or, four and eight by sums: the big-endian value. -/
theorem readArg_long {bs : Bytes} {ib : UInt8} {x k n : Nat} (hk : CborReader.argBytes x = k) (hk' : k ≠ 0) (hn : n < 256 ^ k)
    (h : bs.drop p = ib :: bigEndian k n ++ rest) : readArg bs p x = some (.num (toDouble n), p + (k + 1)) := by
  have hget := fun j => getElem?_of_drop h j
  have hlen := bigEndian_length k n
  have hval : bigEndianValue (bigEndian k n) = n := by rw [bigEndianValue_bigEndian, Nat.mod_eq_of_lt hn]
  rcases argBytes_cases (hk.trans_ne hk') with ⟨rfl, hx⟩ | ⟨rfl, hx⟩ | ⟨rfl, hx⟩ | ⟨rfl, hx⟩ <;> rw [hx] at hk <;> subst hk
  · obtain ⟨a, ha⟩ := List.length_eq_one_iff.mp hlen
    rw [ha] at hget hval
    have hn' : n = a.toNat := by simpa [bigEndianValue] using hval.symm
    have h1 := hget 1
    have hlt := a.toNat_lt
    simp only [List.cons_append, List.getElem?_cons_succ, List.getElem?_cons_zero] at h1
    simp only [readArg, h1, Option.map_some, Option.elim_some]
    rw [toDouble_of_lt (by omega), hn']
    rfl
  · obtain ⟨a, b, ha⟩ := List.length_eq_two.mp hlen
    rw [ha] at hget hval
    have hb := b.toNat_lt
    have hn' : n = a.toNat <<< 8 ||| b.toNat := by
      rw [← Nat.shiftLeft_add_eq_or_of_lt hb, Nat.shiftLeft_eq]
      simpa [bigEndianValue] using hval.symm
    have h1 := hget 1
    have h2 := hget 2
    simp only [List.cons_append, List.getElem?_cons_succ, List.getElem?_cons_zero] at h1 h2
    simp only [readArg, h1, h2, Option.map_some, Option.getD_some]
    rw [toDouble_of_lt (by omega), hn']
    rfl
  · obtain ⟨a, b, c, d, ha⟩ := exists_four hlen
    rw [ha] at hget hval
    have hn' : n = a.toNat * 0x1000000 + (b.toNat <<< 16) + (c.toNat <<< 8) + d.toNat := by
      simp only [bigEndianValue, List.foldl_cons, List.foldl_nil] at hval
      simp only [Nat.shiftLeft_eq]
      omega
    have h1 := hget 1
    have h2 := hget 2
    have h3 := hget 3
    have h4 := hget 4
    simp only [List.cons_append, List.getElem?_cons_succ, List.getElem?_cons_zero] at h1 h2 h3 h4
    simp only [readArg, h1, h2, h3, h4, Option.map_some]
    rw [toDouble_of_lt (by omega), hn']
    rfl
  · obtain ⟨a, b, c, d, e, f, g, i, ha⟩ := exists_eight hlen
    rw [ha] at hget hval
    have hn' : n = (((a.toNat * 256 + b.toNat) * 256 + c.toNat) * 256 + d.toNat) * 0x100000000 +
        (((e.toNat * 256 + f.toNat) * 256 + g.toNat) * 256 + i.toNat) := by
      simp only [bigEndianValue, List.foldl_cons, List.foldl_nil] at hval
      omega
    have h1 := hget 1
    have h2 := hget 2
    have h3 := hget 3
    have h4 := hget 4
    have h5 := hget 5
    have h6 := hget 6
    have h7 := hget 7
    have h8 := hget 8
    simp only [List.cons_append, List.getElem?_cons_succ, List.getElem?_cons_zero] at h1 h2 h3 h4 h5 h6 h7 h8
    simp only [readArg, h1, h2, h3, h4, h5, h6, h7, h8, Option.map_some]
    rw [hn']
    rfl

/-- **A shortest head** is read as its argument, as near as a number comes to it. -/
theorem readHead_head {m n : Nat} (hm : m < 6) (hn : n < 2 ^ 64) (h : v.bytes.drop p = CborWriter.head m n ++ rest) :
    readHead v (some p) = some (.arg m (.num (toDouble n)), some (p + (CborWriter.head m n).length)) := by
  have hone : ∀ {x : Nat} {bs : Bytes} {q : Nat}, x < 32 → v.bytes.drop p = UInt8.ofNat (m <<< 5 ||| x) :: bs →
      readArg v.bytes p x = some (.num (toDouble n), q) →
        readHead v (some p) = some (.arg m (.num (toDouble n)), some q) := by
    intro x bs q hx hbs harg
    have hget := getElem?_of_drop hbs 0
    rw [Nat.add_zero, List.getElem?_cons_zero] at hget
    simp only [readHead, Option.bind_some, hget, major_firstByte (by omega : m < 8) hx,
      additional_firstByte (by omega : m < 8) hx, harg]
    rw [if_neg (by omega), if_neg (by omega)]
    rfl
  revert h
  unfold CborWriter.head
  dsimp only
  split_ifs with h1 h2 h3 h4 <;> intro h
  · refine hone (by omega) h ?_
    rw [readArg, if_pos h1, toDouble_of_lt (by omega)]
    rfl
  · rw [List.length_cons, bigEndian_length]
    exact hone (by decide) h (readArg_long rfl (by decide) (by omega) h)
  · rw [List.length_cons, bigEndian_length]
    exact hone (by decide) h (readArg_long rfl (by decide) (by omega) h)
  · rw [List.length_cons, bigEndian_length]
    exact hone (by decide) h (readArg_long rfl (by decide) (by omega) h)
  · rw [List.length_cons, bigEndian_length]
    exact hone (by decide) h (readArg_long rfl (by decide) (by omega) h)

/-- A simple value of the profile. -/
theorem readHead_simple {b : UInt8} {x : Nat} (hx : x < 32) (hb : b = UInt8.ofNat ((7 <<< 5) ||| x))
    (h : v.bytes.drop p = b :: rest) : v.bytes[p]? = some b ∧ major b = 7 ∧ additional b = x := by
  have hget := getElem?_of_drop h 0
  rw [Nat.add_zero, List.getElem?_cons_zero] at hget
  subst hb
  exact ⟨hget, major_firstByte (by decide) hx, additional_firstByte (by decide) hx⟩

end

/-! ## Items -/

mutual

/-- What the decoder makes of a tree of the profile. -/
def ofTree : CborTree → Value
  | .uint n => .int (toDouble n)
  | .negInt n => .int (-toDouble (toDouble n + 1))
  | .bytes s => .bytes s
  | .text s => .str (textDecode s)
  | .bool b => .bool b
  | .null => .null
  | .f32 bits => .f32 bits
  | .array ts => .arr (ofItems ts)
  | .map ps => .map (ofPairs [] ps)

def ofItems : List CborTree → List Value
  | [] => []
  | t :: ts => ofTree t :: ofItems ts

def ofPairs : List (Value × Value) → List (Nat × CborTree) → List (Value × Value)
  | m, [] => m
  | m, (k, t) :: ps => ofPairs (mapSet (.int (toDouble k)) (ofTree t) m) ps

end

section

variable {v : View} {p fuel d : Nat} {rest : Bytes}

/-- Behind an item the rest of the input follows. -/
theorem drop_behind {bs as : Bytes} (h : bs.drop p = as ++ rest) : bs.drop (p + as.length) = rest := by
  rw [← List.drop_drop, h]
  exact List.drop_left

/-- What is read lies in the buffer. -/
theorem length_le_of_drop {bs as : Bytes} (h : bs.drop p = as ++ rest) : p + as.length ≤ bs.length ∨ as = [] := by
  have hlen := congrArg List.length h
  rw [List.length_drop, List.length_append] at hlen
  rcases Nat.eq_zero_or_pos as.length with h0 | h0
  · exact .inr (List.eq_nil_of_length_eq_zero h0)
  · omega

/-- There is fuel left where there is a byte left. -/
theorem fuel_succ {b : UInt8} {as : Bytes} (h : v.bytes.drop p = b :: as ++ rest) (hfuel : v.bytes.length - p ≤ fuel) :
    ∃ n, fuel = n + 1 ∧ v.bytes.length - (p + 1) ≤ n := by
  have := (length_le_of_drop h).resolve_right (by simp)
  rw [List.length_cons] at this
  exact ⟨fuel - 1, by omega, by omega⟩

/-- One head in front of the rest of an item. -/
theorem decodeFrom_head {m n : Nat} {as : Bytes} (hm : m < 6) (hn : n < 2 ^ 64)
    (h : v.bytes.drop p = (CborWriter.head m n ++ as) ++ rest) (hfuel : v.bytes.length - p ≤ fuel) :
    ∃ fuel', fuel = fuel' + 1 ∧ v.bytes.length - (p + (CborWriter.head m n).length) ≤ fuel' ∧
      v.bytes.drop (p + (CborWriter.head m n).length) = as ++ rest ∧
        readHead v (some p) = some (.arg m (.num (toDouble n)), some (p + (CborWriter.head m n).length)) := by
  rw [List.append_assoc] at h
  obtain ⟨b, tail, hb, -⟩ := head_first (m := m) (v := n) hm
  obtain ⟨fuel', rfl, hle⟩ := fuel_succ (by rw [h, hb]) hfuel
  refine ⟨fuel', rfl, ?_, drop_behind h, readHead_head hm hn h⟩
  rw [hb, List.length_cons]
  omega

/-- An item that is its head is read as its head. -/
theorem decodeFrom_bare {m n : Nat} (hm : m < 6) (hn : n < 2 ^ 64) (h : v.bytes.drop p = CborWriter.head m n ++ rest)
    (hfuel : v.bytes.length - p ≤ fuel) :
    ∃ fuel', fuel = fuel' + 1 ∧
      readHead v (some p) = some (.arg m (.num (toDouble n)), some (p + (CborWriter.head m n).length)) := by
  have hnil : v.bytes.drop p = (CborWriter.head m n ++ []) ++ rest := by rwa [List.append_nil]
  obtain ⟨fuel', hsucc, -, -, hread⟩ := decodeFrom_head hm hn hnil hfuel
  exact ⟨fuel', hsucc, hread⟩

/-- An unsigned integer is read as the nearest double. -/
theorem decodeFrom_uint {n : Nat} (hn : n < 2 ^ 64) (h : v.bytes.drop p = CborWriter.head 0 n ++ rest)
    (hfuel : v.bytes.length - p ≤ fuel) :
    decodeFrom v fuel (some p) = some (.int (toDouble n), some (p + (CborWriter.head 0 n).length)) := by
  obtain ⟨fuel, rfl, hread⟩ := decodeFrom_bare (by decide) hn h hfuel
  rw [decodeFrom, hread]
  rfl

/-- The three simple values. -/
theorem decodeFrom_simple {b : UInt8} {x : Nat} {y : Value} (hx : x < 32) (hb : b = UInt8.ofNat ((7 <<< 5) ||| x))
    (hy : x = 20 ∧ y = .bool false ∨ x = 21 ∧ y = .bool true ∨ x = 22 ∧ y = .null)
    (h : v.bytes.drop p = [b] ++ rest) (hfuel : v.bytes.length - p ≤ fuel) :
    decodeFrom v fuel (some p) = some (y, some (p + 1)) := by
  obtain ⟨fuel, rfl, -⟩ := fuel_succ h hfuel
  obtain ⟨hget, hmajor, hadd⟩ := readHead_simple hx hb h
  have hread : readHead v (some p) = some (.simple y, some (p + 1)) := by
    simp only [readHead, Option.bind_some, hget, hmajor, hadd]
    rcases hy with ⟨rfl, rfl⟩ | ⟨rfl, rfl⟩ | ⟨rfl, rfl⟩ <;> rfl
  rw [decodeFrom, hread]
  rfl

/-- A single, bit for bit. -/
theorem decodeFrom_f32 {bits : UInt32} (h : v.bytes.drop p = 0xFA :: bigEndian 4 bits.toNat ++ rest)
    (hfuel : v.bytes.length - p ≤ fuel) : decodeFrom v fuel (some p) = some (.f32 bits, some (p + 5)) := by
  obtain ⟨fuel, rfl, -⟩ := fuel_succ h hfuel
  obtain ⟨hget, hmajor, hadd⟩ := readHead_simple (x := 26) (by decide) (by decide) h
  have hlen := (length_le_of_drop h).resolve_right (by simp)
  rw [List.length_cons, bigEndian_length] at hlen
  have hbits : ((v.bytes ++ v.behind).drop (p + 1)).take 4 = bigEndian 4 bits.toNat := by
    have hdrop : v.bytes.drop (p + 1) = bigEndian 4 bits.toNat ++ rest := by
      rw [← List.drop_drop, h]
      rfl
    rw [List.drop_append_of_le_length (by omega), hdrop, List.append_assoc]
    exact List.take_left' (bigEndian_length 4 _)
  have hread : readHead v (some p) = some (.simple (.f32 bits), some (p + 5)) := by
    simp only [readHead, Option.bind_some, hget, hmajor, hadd, hbits, bigEndianValue_bigEndian]
    rw [if_pos trivial, if_neg (by decide), if_neg (by decide), if_neg (by decide), if_pos trivial, if_neg (by omega),
      Nat.mod_eq_of_lt (by have := bits.toNat_lt; omega), UInt32.ofNat_toNat]
  rw [decodeFrom, hread]
  rfl

/-- A string of the profile, and what the decoder does with its bytes. -/
theorem decodeFrom_str {m : Nat} {s : Bytes} (hm : m < 6) (hs : s.length < 2 ^ 64)
    (h : v.bytes.drop p = (CborWriter.head m s.length ++ s) ++ rest) (hfuel : v.bytes.length - p ≤ fuel) :
    ∃ fuel', fuel = fuel' + 1 ∧ readHead v (some p) =
      some (.arg m (.num s.length), some (p + (CborWriter.head m s.length).length)) ∧
        Arg.slice v.bytes (some (p + (CborWriter.head m s.length).length)) (.num s.length) = s ∧
          p + (CborWriter.head m s.length).length + s.length = p + (CborWriter.head m s.length ++ s).length := by
  obtain ⟨fuel', rfl, -, hdrop, hread⟩ := decodeFrom_head hm hs h hfuel
  have hshort : s.length < 2 ^ 53 := by
    have := v.short
    have hlen := congrArg List.length hdrop
    rw [List.length_drop, List.length_append] at hlen
    omega
  rw [toDouble_of_lt hshort] at hread
  refine ⟨fuel', rfl, hread, ?_, by rw [List.length_append, Nat.add_assoc]⟩
  rw [Arg.slice, Option.elim_some, hdrop]
  exact List.take_left

end

mutual

/-- **An item of the profile is decoded**, and nothing behind it is read. -/
theorem decodeFrom_encode : ∀ {t : CborTree} {v : View} {d fuel p : Nat} {rest : Bytes}, CborTree.Fits d t →
    v.bytes.drop p = t.encode ++ rest → v.bytes.length - p ≤ fuel →
      decodeFrom v fuel (some p) = some (ofTree t, some (p + t.encode.length))
  | .uint n, v, d, fuel, p, rest, ht, h, hfuel => by
    cases ht with
    | uint hn => exact decodeFrom_uint hn h hfuel
  | .negInt n, v, d, fuel, p, rest, ht, h, hfuel => by
    cases ht with
    | negInt hn =>
      obtain ⟨fuel, rfl, hread⟩ := decodeFrom_bare (by decide) hn h hfuel
      rw [decodeFrom, hread]
      rfl
  | .bytes s, v, d, fuel, p, rest, ht, h, hfuel => by
    cases ht with
    | bytes hs =>
      obtain ⟨fuel, rfl, hread, hslice, hend⟩ := decodeFrom_str (by decide) hs h hfuel
      rw [decodeFrom, hread]
      simp only [Option.bind_eq_bind, Option.bind_some, hslice, Arg.behind, Option.map_some, hend]
      rfl
  | .text s, v, d, fuel, p, rest, ht, h, hfuel => by
    cases ht with
    | text hs =>
      obtain ⟨fuel, rfl, hread, hslice, hend⟩ := decodeFrom_str (by decide) hs h hfuel
      rw [decodeFrom, hread]
      simp only [Option.bind_eq_bind, Option.bind_some, hslice, Arg.behind, Option.map_some, hend]
      rfl
  | .bool b, v, d, fuel, p, rest, ht, h, hfuel => by
    cases b with
    | false => exact decodeFrom_simple (x := 20) (by decide) rfl (.inl ⟨rfl, rfl⟩) h hfuel
    | true => exact decodeFrom_simple (x := 21) (by decide) rfl (.inr (.inl ⟨rfl, rfl⟩)) h hfuel
  | .null, v, d, fuel, p, rest, ht, h, hfuel =>
    decodeFrom_simple (x := 22) (by decide) rfl (.inr (.inr ⟨rfl, rfl⟩)) h hfuel
  | .f32 bits, v, d, fuel, p, rest, ht, h, hfuel => by
    rw [decodeFrom_f32 h hfuel, CborTree.encode, List.length_cons, bigEndian_length]
    rfl
  | .array ts, v, d, fuel, p, rest, ht, h, hfuel => by
    cases ht with
    | array hn hts =>
      obtain ⟨fuel, rfl, hle, hdrop, hread⟩ := decodeFrom_head (by decide) (by omega) h hfuel
      rw [decodeFrom, hread, toDouble_of_lt (by omega)]
      simp only [Option.bind_eq_bind, Option.bind_some, Arg.count, items_encode hts hdrop hle]
      rw [CborTree.encode, List.length_append, ← Nat.add_assoc]
      rfl
  | .map ps, v, d, fuel, p, rest, ht, h, hfuel => by
    cases ht with
    | map hn hkeys hk hps =>
      obtain ⟨fuel, rfl, hle, hdrop, hread⟩ := decodeFrom_head (by decide) (by omega) h hfuel
      rw [decodeFrom, hread, toDouble_of_lt (by omega)]
      simp only [Option.bind_eq_bind, Option.bind_some, Arg.count, pairs_encode hk hps hdrop hle]
      rw [CborTree.encode, List.length_append, ← Nat.add_assoc]
      rfl

/-- The items of an array, by induction on them. -/
theorem items_encode : ∀ {ts : List CborTree} {v : View} {d fuel p : Nat} {rest : Bytes}, (∀ t ∈ ts, CborTree.Fits d t) →
    v.bytes.drop p = CborTree.encodeItems ts ++ rest → v.bytes.length - p ≤ fuel →
      items (decodeFrom v fuel) ts.length (some p) = some (ofItems ts, some (p + (CborTree.encodeItems ts).length))
  | [], v, d, fuel, p, rest, _, _, _ => rfl
  | t :: ts, v, d, fuel, p, rest, hts, h, hfuel => by
    obtain ⟨ht, hts⟩ := List.forall_mem_cons.mp hts
    rw [CborTree.encodeItems_cons, List.append_assoc] at h
    have hrest : items (decodeFrom v fuel) ts.length (some (p + t.encode.length)) = _ :=
      items_encode hts (drop_behind h) (by omega)
    rw [List.length_cons, items, decodeFrom_encode ht h hfuel]
    simp only [Option.bind_eq_bind, Option.bind_some, hrest]
    rw [CborTree.encodeItems_cons, List.length_append, ← Nat.add_assoc]
    rfl

/-- The pairs of a map, by induction on them; the map read so far rides along. -/
theorem pairs_encode : ∀ {ps : List (Nat × CborTree)} {v : View} {d fuel p : Nat} {rest : Bytes} {m : List (Value × Value)},
    (∀ q ∈ ps, q.1 < 2 ^ 64) → (∀ q ∈ ps, CborTree.Fits d q.2) → v.bytes.drop p = CborTree.encodePairs ps ++ rest →
      v.bytes.length - p ≤ fuel → pairs (decodeFrom v fuel) ps.length m (some p) =
        some (ofPairs m ps, some (p + (CborTree.encodePairs ps).length))
  | [], v, d, fuel, p, rest, m, _, _, _, _ => rfl
  | (k, t) :: ps, v, d, fuel, p, rest, m, hk, hps, h, hfuel => by
    obtain ⟨hkey, hk⟩ := List.forall_mem_cons.mp hk
    obtain ⟨ht, hps⟩ := List.forall_mem_cons.mp hps
    rw [CborTree.encodePairs_cons, List.append_assoc, List.append_assoc] at h
    have hkey : decodeFrom v fuel (some p) = _ := decodeFrom_uint hkey h hfuel
    have hone : decodeFrom v fuel (some (p + (CborWriter.head 0 k).length)) = _ :=
      decodeFrom_encode ht (drop_behind h) (by omega)
    have hrest : pairs (decodeFrom v fuel) ps.length (mapSet (.int (toDouble k)) (ofTree t) m) _ = _ :=
      pairs_encode hk hps (drop_behind (drop_behind h)) (by omega)
    rw [List.length_cons, pairs, hkey]
    simp only [Option.bind_eq_bind, Option.bind_some, hone, hrest]
    rw [CborTree.encodePairs_cons, List.length_append, List.length_append, ← Nat.add_assoc, ← Nat.add_assoc]
    rfl

end

/-! ## The same value -/

mutual

/-- A decoded value says what a tree says, integers up to 2 ^ 53. -/
def Same : Value → CborTree → Prop
  | .int k, .uint n => n ≤ 2 ^ 53 → k = n
  | .int k, .negInt n => n < 2 ^ 53 → k = -1 - n
  | .bytes s, .bytes s' => s = s'
  | .str cs, .text s => utf8 cs = s
  | .bool b, .bool b' => b = b'
  | .null, .null => True
  | .f32 bits, .f32 bits' => bits = bits'
  | .arr xs, .array ts => SameItems xs ts
  | .map ps, .map qs => SamePairs ps qs
  | _, _ => False

def SameItems : List Value → List CborTree → Prop
  | [], [] => True
  | x :: xs, t :: ts => Same x t ∧ SameItems xs ts
  | _, _ => False

def SamePairs : List (Value × Value) → List (Nat × CborTree) → Prop
  | [], [] => True
  | (k, x) :: ps, (l, t) :: qs => Same k (.uint l) ∧ Same x t ∧ SamePairs ps qs
  | _, _ => False

end

/-- What the two codecs have in common: texts that are valid and do not start with a byte order mark, and keys that stay
apart as numbers. -/
inductive Plain : CborTree → Prop
  | uint (n : Nat) : Plain (.uint n)
  | negInt (n : Nat) : Plain (.negInt n)
  | bytes (s : Bytes) : Plain (.bytes s)
  | text {s : Bytes} (h : IsText s) : Plain (.text s)
  | bool (b : Bool) : Plain (.bool b)
  | null : Plain .null
  | f32 (bits : UInt32) : Plain (.f32 bits)
  | array {ts : List CborTree} (h : ∀ t ∈ ts, Plain t) : Plain (.array ts)
  | map {ps : List (Nat × CborTree)} (hkeys : (ps.map fun p => toDouble p.1).Nodup) (h : ∀ p ∈ ps, Plain p.2) :
      Plain (.map ps)

/-- Integers up to 2^53 are doubles. -/
theorem toDouble_of_le {n : Nat} (h : n ≤ 2 ^ 53) : toDouble n = n := by
  rcases Nat.lt_or_eq_of_le h with h | rfl
  · exact toDouble_of_lt h
  · decide

section

variable {ps : List (Nat × CborTree)} {m : List (Value × Value)} {ks : List Nat}

/-- A key that is there keeps its place, a new one comes last. -/
theorem mapSet_int (hm : m.map Prod.fst = ks.map fun k : Nat => Value.int k) (k : Nat) (x : Value) :
    (k ∈ ks → (mapSet (.int k) x m).map Prod.fst = ks.map fun k : Nat => Value.int k) ∧
      (k ∉ ks → mapSet (.int k) x m = m ++ [(.int k, x)]) := by
  induction m generalizing ks with
  | nil =>
    obtain rfl : ks = [] := by simpa using hm.symm
    refine ⟨fun h => ?_, fun _ => rfl⟩
    cases h
  | cons p m ih =>
    obtain ⟨l, ks, rfl⟩ : ∃ l ks', ks = l :: ks' := by
      cases ks with
      | nil => simp at hm
      | cons l ks => exact ⟨l, ks, rfl⟩
    obtain ⟨k', x'⟩ := p
    simp only [List.map_cons, List.cons.injEq] at hm
    obtain ⟨rfl, hm⟩ := hm
    have hkey : sameKey (.int l) (.int k) = decide (l = k) := by simp [sameKey]
    obtain ⟨ih, ih'⟩ := ih hm
    rw [mapSet, hkey]
    by_cases hlk : l = k
    · simp [hlk, hm]
    · simp only [hlk, decide_false, Bool.false_eq_true, if_false, List.map_cons, List.mem_cons]
      refine ⟨fun h => ?_, fun h => ?_⟩
      · rw [ih (h.resolve_left fun e => hlk e.symm)]
      · rw [ih' fun hk => h (.inr hk)]
        rfl

variable (ks) in
/-- Keys that stay apart are all kept, in their order. -/
theorem ofPairs_apart (hm : m.map Prod.fst = ks.map fun k : Nat => Value.int k)
    (hnodup : (ks ++ ps.map fun p => toDouble p.1).Nodup) :
    ofPairs m ps = m ++ ps.map fun p => (.int (toDouble p.1), ofTree p.2) := by
  induction ps generalizing m ks with
  | nil => simp [ofPairs]
  | cons p ps ih =>
    obtain ⟨k, t⟩ := p
    have hnew : toDouble k ∉ ks := by
      have := (List.nodup_append.mp hnodup).2.2
      exact fun h => this _ h _ (by simp) rfl
    have hset := (mapSet_int hm (toDouble k) (ofTree t)).2 hnew
    rw [ofPairs, hset, ih (ks ++ [toDouble k]) (by simp [hm]) (by simpa using hnodup)]
    simp

variable (ks) in
/-- And two that meet leave one entry less. -/
theorem apart_of_length (hm : m.map Prod.fst = ks.map fun k : Nat => Value.int k) (hks : ks.Nodup) :
    (ofPairs m ps).length ≤ m.length + ps.length ∧
      ((ofPairs m ps).length = m.length + ps.length → (ks ++ ps.map fun p => toDouble p.1).Nodup) := by
  induction ps generalizing m ks with
  | nil => simpa [ofPairs] using hks
  | cons p ps ih =>
    obtain ⟨k, t⟩ := p
    rw [ofPairs, List.length_cons]
    by_cases hk : toDouble k ∈ ks
    · have hset := (mapSet_int hm (toDouble k) (ofTree t)).1 hk
      have hlen : (mapSet (.int (toDouble k)) (ofTree t) m).length = m.length := by
        have := congrArg List.length (hset.trans hm.symm)
        simpa using this
      obtain ⟨hle, -⟩ := ih ks hset hks
      rw [hlen] at hle
      exact ⟨by omega, fun h => by omega⟩
    · have hset := (mapSet_int hm (toDouble k) (ofTree t)).2 hk
      obtain ⟨hle, hnodup⟩ := ih (m := mapSet (.int (toDouble k)) (ofTree t) m) (ks ++ [toDouble k])
        (by simp [hset, hm]) (hks.append (List.nodup_singleton _) (by simpa using hk))
      rw [hset, List.length_append, List.length_singleton] at hle hnodup
      rw [hset]
      exact ⟨by omega, fun h => by simpa using hnodup (by omega)⟩

theorem SamePairs.length : ∀ {ps : List (Value × Value)} {qs : List (Nat × CborTree)}, SamePairs ps qs →
    ps.length = qs.length
  | [], [], _ => rfl
  | (_, _) :: ps, (_, _) :: qs, h => by
    rw [SamePairs] at h
    rw [List.length_cons, List.length_cons, h.2.2.length]
  | [], _ :: _, h => by simp [SamePairs] at h
  | _ :: _, [], h => by simp [SamePairs] at h

end

mutual

/-- **What is decoded is the same value** just when the tree is plain. -/
theorem same_ofTree : ∀ t : CborTree, Same (ofTree t) t ↔ Plain t
  | .uint n => iff_of_true (fun h => by rw [toDouble_of_le h]) (.uint n)
  | .negInt n => by
    refine iff_of_true (fun h => ?_) (.negInt n)
    rw [toDouble_of_lt h, toDouble_of_le (by omega)]
    omega
  | .bytes s => iff_of_true (by rw [ofTree, Same]) (.bytes s)
  | .text s => by
    rw [ofTree, Same, utf8_textDecode]
    exact ⟨.text, fun h => by cases h; assumption⟩
  | .bool b => iff_of_true (by rw [ofTree, Same]) (.bool b)
  | .null => iff_of_true (by rw [ofTree, Same]; trivial) .null
  | .f32 bits => iff_of_true (by rw [ofTree, Same]) (.f32 bits)
  | .array ts => by
    rw [ofTree, Same, same_ofItems ts]
    exact ⟨.array, fun h => by cases h; assumption⟩
  | .map ps => by
    rw [ofTree, Same]
    constructor
    · intro h
      have hlen : (ofPairs [] ps).length = ([] : List (Value × Value)).length + ps.length := by
        rw [h.length, List.length_nil, Nat.zero_add]
      have hnodup := (apart_of_length [] rfl List.nodup_nil).2 hlen
      rw [ofPairs_apart [] rfl hnodup, List.nil_append, same_ofPairs ps] at h
      exact .map (by simpa using hnodup) h
    · intro h
      cases h with
      | map hkeys h =>
        rw [ofPairs_apart [] rfl (by simpa using hkeys), List.nil_append, same_ofPairs ps]
        exact h

/-- The items read are the items written when each of them is plain. -/
theorem same_ofItems : ∀ ts : List CborTree, SameItems (ofItems ts) ts ↔ ∀ t ∈ ts, Plain t
  | [] => by simp [ofItems, SameItems]
  | t :: ts => by rw [ofItems, SameItems, same_ofTree t, same_ofItems ts, List.forall_mem_cons]

/-- The pairs read are the pairs written when each value of them is plain. -/
theorem same_ofPairs : ∀ ps : List (Nat × CborTree),
    SamePairs (ps.map fun p => (.int (toDouble p.1), ofTree p.2)) ps ↔ ∀ p ∈ ps, Plain p.2
  | [] => by simp [SamePairs]
  | (k, t) :: ps => by
    have hkey : Same (.int (toDouble k)) (.uint k) := fun h => by rw [toDouble_of_le h]
    rw [List.map_cons, SamePairs, same_ofTree t, same_ofPairs ps, List.forall_mem_cons]
    exact and_iff_right hkey

end

/-! ## What is refused -/

/-- `f`, one time after the other. -/
def ends (f : Option Nat → Option (Option Nat)) : Nat → Option Nat → Option (Option Nat)
  | 0, pos => some pos
  | n + 1, pos => do ends f n (← f pos)

/-- Where the item at `pos` ends, by its heads alone.  There is no end when a head is met that is refused: a tag, a reserved
or indefinite argument, a simple value that is none of the profile, or a float the memory behind the array cuts off. -/
def itemEnd (v : View) : Nat → Option Nat → Option (Option Nat)
  | 0, pos => some (pos.map (· + 1))
  | fuel + 1, pos => do
    match ← readHead v pos with
    | (.arg major a, pos) =>
      if major ≤ 1 then return pos
      else if major ≤ 3 then return a.behind pos
      else ends (itemEnd v fuel) (if major = 4 then a.count else 2 * a.count) pos
    | (_, pos) => return pos

/-- Walking the heads of the buffer, one that is refused is met. -/
def Refused (v : View) : Prop := itemEnd v v.bytes.length (some 0) = none

section

variable {v : View} {f : Option Nat → Option (Value × Option Nat)}

/-- Where the items end does not depend on their values. -/
theorem items_end (n : Nat) (pos : Option Nat) :
    (items f n pos).map Prod.snd = ends (fun pos => (f pos).map Prod.snd) n pos := by
  induction n generalizing pos with
  | zero => rfl
  | succ n ih =>
    rw [items, ends]
    cases f pos with
    | none => rfl
    | some r =>
      simp only [Option.bind_eq_bind, Option.bind_some, Option.map_some, ← ih]
      cases items f n r.2 <;> rfl

/-- Where the pairs end does not depend on their values. -/
theorem pairs_end (n : Nat) (m : List (Value × Value)) (pos : Option Nat) :
    (pairs f n m pos).map Prod.snd = ends (fun pos => (f pos).map Prod.snd) (2 * n) pos := by
  induction n generalizing m pos with
  | zero => rfl
  | succ n ih =>
    rw [pairs, Nat.mul_succ, ends]
    cases f pos with
    | none => rfl
    | some r =>
      simp only [Option.bind_eq_bind, Option.bind_some, Option.map_some, ends]
      cases f r.2 with
      | none => rfl
      | some r' =>
        simp only [Option.bind_some, Option.map_some]
        exact ih _ _

/-- A decode ends where its heads say. -/
theorem decodeFrom_end (fuel : Nat) (pos : Option Nat) : (decodeFrom v fuel pos).map Prod.snd = itemEnd v fuel pos := by
  induction fuel generalizing pos with
  | zero => rfl
  | succ fuel ih =>
    have hf : (fun pos => (decodeFrom v fuel pos).map Prod.snd) = itemEnd v fuel := funext ih
    rw [decodeFrom, itemEnd]
    cases hread : readHead v pos with
    | none => rfl
    | some r =>
      obtain ⟨h, pos⟩ := r
      simp only [Option.bind_eq_bind, Option.bind_some]
      cases h with
      | past => rfl
      | simple x => rfl
      | arg major a =>
        match major with
        | 0 | 1 | 2 | 3 => rfl
        | 4 =>
          rw [← hf]
          simp only [Nat.reduceLeDiff, if_false, if_true]
          rw [← items_end]
          cases items (decodeFrom v fuel) a.count pos <;> rfl
        | n + 5 =>
          rw [← hf]
          simp only [show ¬ n + 5 ≤ 1 by omega, show ¬ n + 5 ≤ 3 by omega, show n + 5 ≠ 4 by omega, if_false]
          rw [← pairs_end _ []]
          cases pairs (decodeFrom v fuel) a.count [] pos <;> rfl

/-- What is refused is what `cbDecode` has no value for. -/
theorem refused_iff : Refused v ↔ cbDecode v = none := by
  rw [Refused, ← decodeFrom_end, Option.map_eq_none_iff]
  rfl

end

/-! ## The fuel -/

section

variable {v : View} {f g : Option Nat → Option (Value × Option Nat)} {P : Option Nat → Prop}

/-- Reading an argument moves forward. -/
theorem readArg_later {bs : Bytes} {p ai q : Nat} {a : Arg} (h : readArg bs p ai = some (a, q)) : p < q := by
  unfold readArg at h
  dsimp only at h
  split_ifs at h
  · cases h
    exact Nat.lt_succ_self p
  · cases h
    omega
  · cases h
    omega
  · split at h <;> cases h <;> omega
  · split at h <;> cases h <;> omega

/-- A head takes a byte. -/
theorem readHead_later {p : Nat} {q : Option Nat} {h : HeadAt} (hread : readHead v (some p) = some (h, q)) :
    ∃ r, q = some r ∧ p < r := by
  unfold readHead at hread
  simp only [Option.bind_some] at hread
  cases hb : v.bytes[p]? with
  | none =>
    rw [hb] at hread
    cases hread
    exact ⟨p + 1, rfl, Nat.lt_succ_self p⟩
  | some ib =>
    rw [hb] at hread
    simp only at hread
    split_ifs at hread
    · cases hread
      exact ⟨p + 1, rfl, Nat.lt_succ_self p⟩
    · cases hread
      exact ⟨p + 1, rfl, Nat.lt_succ_self p⟩
    · cases hread
      exact ⟨p + 1, rfl, Nat.lt_succ_self p⟩
    · cases hread
      exact ⟨p + 5, rfl, by omega⟩
    · obtain ⟨⟨a, r⟩, harg, heq⟩ := Option.map_eq_some_iff.mp hread
      cases heq
      exact ⟨r, rfl, readArg_later harg⟩

/-- A position that the fuel is enough for: no more bytes are left. -/
def Enough (v : View) (fuel : Nat) (pos : Option Nat) : Prop := ∀ p ∈ pos, v.bytes.length - p ≤ fuel

/-- Further on the fuel is still enough. -/
def Onward (v : View) (f : Option Nat → Option (Option Nat)) : Prop :=
  ∀ pos q fuel, f pos = some q → Enough v fuel pos → Enough v fuel q

/-- Reading any number of items moves forward. -/
theorem onward_ends {f : Option Nat → Option (Option Nat)} (hf : Onward v f) (n : Nat) : Onward v (ends f n) := by
  induction n with
  | zero =>
    intro pos q fuel h hp
    cases h
    exact hp
  | succ n ih =>
    intro pos q fuel h hp
    obtain ⟨r, hr, h⟩ := Option.bind_eq_some_iff.mp h
    exact ih r q fuel h (hf pos r fuel hr hp)

theorem onward_add (n : Nat) {pos : Option Nat} {fuel : Nat} (h : Enough v fuel pos) : Enough v fuel (pos.map (· + n)) := by
  intro p hp
  obtain ⟨q, hq, rfl⟩ := Option.map_eq_some_iff.mp hp
  have := h q hq
  omega

theorem onward_readHead {pos q : Option Nat} {h : HeadAt} {fuel : Nat} (hread : readHead v pos = some (h, q))
    (hp : Enough v fuel pos) : Enough v fuel q := by
  cases pos with
  | none =>
    cases hread
    exact fun _ h => nomatch h
  | some p =>
    obtain ⟨r, rfl, hr⟩ := readHead_later hread
    intro x hx
    obtain rfl : r = x := by simpa using hx
    have := hp p rfl
    omega

theorem onward_behind {pos : Option Nat} {a : Arg} {fuel : Nat} (h : Enough v fuel pos) : Enough v fuel (a.behind pos) := by
  cases a with
  | num n => exact onward_add n h
  | undefined | nan => exact fun _ h => nomatch h

/-- Reading an item moves forward: the position never goes back. -/
theorem onward_itemEnd (fuel : Nat) : Onward v (itemEnd v fuel) := by
  induction fuel with
  | zero =>
    intro pos q fuel h hp
    cases h
    exact onward_add 1 hp
  | succ n ih =>
    intro pos q fuel h hp
    rw [itemEnd] at h
    obtain ⟨⟨hd, r⟩, hread, h⟩ := Option.bind_eq_some_iff.mp h
    have hr := onward_readHead hread hp
    cases hd with
    | past | simple x =>
      cases h
      exact hr
    | arg major a =>
      simp only at h
      split_ifs at h
      · cases h
        exact hr
      · cases h
        exact onward_behind hr
      · exact onward_ends ih _ r q fuel h hr
      · exact onward_ends ih _ r q fuel h hr

/-- Two readers that agree wherever they are called read the same items. -/
theorem items_congr (hfg : ∀ pos, P pos → f pos = g pos) (hstay : ∀ pos x q, P pos → g pos = some (x, q) → P q) (n : Nat)
    {pos : Option Nat} (hp : P pos) : items f n pos = items g n pos := by
  induction n generalizing pos with
  | zero => rfl
  | succ n ih =>
    rw [items, items, hfg pos hp]
    cases hg : g pos with
    | none => rfl
    | some r =>
      simp only [Option.bind_eq_bind, Option.bind_some]
      rw [ih (hstay pos r.1 r.2 hp hg)]

/-- Two readers that agree wherever they are called read the same pairs. -/
theorem pairs_congr (hfg : ∀ pos, P pos → f pos = g pos) (hstay : ∀ pos x q, P pos → g pos = some (x, q) → P q) (n : Nat)
    {m : List (Value × Value)} {pos : Option Nat} (hp : P pos) : pairs f n m pos = pairs g n m pos := by
  induction n generalizing m pos with
  | zero => rfl
  | succ n ih =>
    rw [pairs, pairs, hfg pos hp]
    cases hg : g pos with
    | none => rfl
    | some r =>
      have hr := hstay pos r.1 r.2 hp hg
      simp only [Option.bind_eq_bind, Option.bind_some]
      rw [hfg r.2 hr]
      cases hg' : g r.2 with
      | none => rfl
      | some r' =>
        simp only [Option.bind_some]
        exact ih (hstay r.2 r'.1 r'.2 hr hg')

/-- **The fuel never ends a decode**: any that is enough for the bytes left gives the same. -/
theorem decodeFrom_fuel (fuel : Nat) {pos : Option Nat} (hp : Enough v fuel pos) :
    decodeFrom v (fuel + 1) pos = decodeFrom v fuel pos := by
  induction fuel generalizing pos with
  | zero =>
    have hpast : readHead v pos = some (.past, pos.map (· + 1)) := by
      cases pos with
      | none => rfl
      | some p =>
        have := hp p rfl
        simp only [readHead, Option.bind_some, List.getElem?_eq_none (show v.bytes.length ≤ p by omega)]
    simp only [decodeFrom, hpast, Option.bind_eq_bind, Option.bind_some]
    rfl
  | succ fuel ih =>
    rw [decodeFrom, decodeFrom]
    cases hread : readHead v pos with
    | none => rfl
    | some r =>
      obtain ⟨hd, q⟩ := r
      have hq : Enough v fuel q := by
        cases pos with
        | none =>
          cases hread
          exact fun _ h => nomatch h
        | some p =>
          obtain ⟨s, rfl, hs⟩ := readHead_later hread
          intro x hx
          obtain rfl : s = x := by simpa using hx
          have := hp p rfl
          omega
      have hstay : ∀ pos x r, Enough v fuel pos → decodeFrom v fuel pos = some (x, r) → Enough v fuel r := by
        intro pos x r hpos hdec
        exact onward_itemEnd fuel pos r fuel (by rw [← decodeFrom_end, hdec]; rfl) hpos
      simp only [Option.bind_eq_bind, Option.bind_some]
      cases hd with
      | past | simple x => rfl
      | arg major a =>
        match major with
        | 0 | 1 | 2 | 3 => rfl
        | 4 => simp only [items_congr (fun pos => ih) hstay a.count hq]
        | n + 5 => simp only [pairs_congr (fun pos => ih) hstay a.count hq]

end

/-! ## Encoding -/

/-- The JavaScript head is the writer's. -/
theorem head_eq {m n : Nat} : head m n = CborWriter.head m n := by
  have hbyte : ∀ x : Nat, UInt8.ofNat (x &&& 0xFF) = UInt8.ofNat x := by
    intro x
    rw [show (0xFF : Nat) = 2 ^ 8 - 1 from rfl, Nat.and_two_pow_sub_one_eq_mod]
    exact UInt8.ofNat_mod_size
  have hlow : ∀ k : Nat, k = 24 ∨ k = 16 ∨ k = 8 ∨ k = 0 →
      UInt8.ofNat ((n % 0x100000000) >>> k) = UInt8.ofNat (n >>> k) := by
    intro k hk
    apply UInt8.toNat_inj.mp
    rw [UInt8.toNat_ofNat', UInt8.toNat_ofNat', Nat.shiftRight_eq_div_pow, Nat.shiftRight_eq_div_pow]
    rcases hk with rfl | rfl | rfl | rfl <;> omega
  have hhigh : ∀ k : Nat, (n / 0x100000000) >>> k = n >>> (k + 32) := by
    intro k
    rw [show n / 0x100000000 = n >>> 32 from (Nat.shiftRight_eq_div_pow n 32).symm, ← Nat.shiftRight_add, Nat.add_comm]
  unfold head CborWriter.head
  simp only [bigEndian, hbyte, hhigh]
  split_ifs
  · rfl
  · rfl
  · rfl
  · rfl
  · have h0 := hlow 0 (by simp)
    rw [hlow 24 (by simp), hlow 16 (by simp), hlow 8 (by simp)]
    simp only [Nat.shiftRight_zero] at h0
    rw [h0, ← Nat.shiftRight_zero (n := n / 0x100000000), hhigh 0]
    rfl

mutual

/-- The bytes a program builds for a value with the encoders. -/
def build : Value → Option Bytes
  | .int k => some (cbInt k)
  | .f32 bits => some (cbF32 bits)
  | .bool b => some (cbBool b)
  | .null => some cbNull
  | .bytes s => some (cbBstr s)
  | .str cs => some (cbTstr cs)
  | .arr xs => (buildItems xs).map cbArray
  | .map ps => (buildPairs ps).bind cbMap
  | .undefined | .nan => none

def buildItems : List Value → Option (List Bytes)
  | [] => some []
  | x :: xs => do return (← build x) :: (← buildItems xs)

def buildPairs : List (Value × Value) → Option (List (Nat × Bytes))
  | [] => some []
  | (.int (.ofNat k), x) :: ps => do return (k, ← build x) :: (← buildPairs ps)
  | _ => none

end

mutual

/-- The value as the C++ side has it. -/
def toTree : Value → Option CborTree
  | .int k => some (.ofInt k)
  | .f32 bits => some (.f32 bits)
  | .bool b => some (.bool b)
  | .null => some .null
  | .bytes s => some (.bytes s)
  | .str cs => some (.text (utf8 cs))
  | .arr xs => (toItems xs).map .array
  | .map ps => (toPairs ps).map .map
  | .undefined | .nan => none

def toItems : List Value → Option (List CborTree)
  | [] => some []
  | x :: xs => do return (← toTree x) :: (← toItems xs)

def toPairs : List (Value × Value) → Option (List (Nat × CborTree))
  | [] => some []
  | (.int (.ofNat k), x) :: ps => do return (k, ← toTree x) :: (← toPairs ps)
  | _ => none

end

/-- `cbInt` writes an integer as the C++ writer does. -/
theorem cbInt_eq (k : Int) : cbInt k = (CborTree.ofInt k).encode := by
  cases k with
  | ofNat n => exact head_eq
  | negSucc n =>
    rw [cbInt, if_neg (by omega), show (-1 - Int.negSucc n).toNat = n by omega, head_eq]
    rfl

/-- Keys the writer can write ascend. -/
theorem ascending_of {ps : List (Nat × CborTree)} (h : CborTree.Ascending ps) : ascending (ps.map Prod.fst) = true := by
  induction ps with
  | nil => rfl
  | cons p ps ih =>
    cases ps with
    | nil => rfl
    | cons q ps =>
      obtain ⟨hlt, h⟩ := List.pairwise_cons.mp h
      rw [List.map_cons, List.map_cons, ascending, decide_eq_true (hlt q.1 List.mem_cons_self)]
      exact ih h

mutual

/-- **What is built is the canonical encoding.** -/
theorem build_encode : ∀ {x : Value} {t : CborTree} {d : Nat}, toTree x = some t → CborTree.Fits d t →
    build x = some t.encode
  | .int k, t, d, h, _ => by
    obtain rfl := Option.some_inj.mp h
    rw [build, cbInt_eq]
  | .f32 bits, t, d, h, _ => by
    obtain rfl := Option.some_inj.mp h
    rfl
  | .bool b, t, d, h, _ => by
    obtain rfl := Option.some_inj.mp h
    cases b <;> rfl
  | .null, t, d, h, _ => by
    obtain rfl := Option.some_inj.mp h
    rfl
  | .bytes s, t, d, h, _ => by
    obtain rfl := Option.some_inj.mp h
    rw [build, cbBstr, head_eq]
    rfl
  | .str cs, t, d, h, _ => by
    obtain rfl := Option.some_inj.mp h
    rw [build, cbTstr, head_eq]
    rfl
  | .arr xs, t, d, h, hfits => by
    obtain ⟨ts, hts, rfl⟩ := Option.map_eq_some_iff.mp h
    cases hfits with
    | array hn hall =>
      obtain ⟨bss, hbss, hflat, hlen⟩ := buildItems_encode hts hall
      rw [build, hbss, Option.map_some, cbArray, head_eq, hflat, hlen]
      rfl
  | .map ps, t, d, h, hfits => by
    obtain ⟨qs, hqs, rfl⟩ := Option.map_eq_some_iff.mp h
    cases hfits with
    | map hn hkeys hk hall =>
      obtain ⟨bss, hbss, hfst, hflat⟩ := buildPairs_encode hqs hall
      have hlen : bss.length = qs.length := by simpa using congrArg List.length hfst
      rw [build, hbss, Option.bind_some, cbMap, if_pos (by rw [hfst]; exact ascending_of hkeys), head_eq, hflat, hlen]
      rfl
  | .undefined, t, d, h, _ => by cases h
  | .nan, t, d, h, _ => by cases h

/-- The items built are the items the writer writes. -/
theorem buildItems_encode : ∀ {xs : List Value} {ts : List CborTree} {d : Nat}, toItems xs = some ts →
    (∀ t ∈ ts, CborTree.Fits d t) →
      ∃ bss, buildItems xs = some bss ∧ bss.flatten = CborTree.encodeItems ts ∧ bss.length = ts.length
  | [], ts, d, h, _ => by
    obtain rfl := Option.some_inj.mp h
    exact ⟨[], rfl, rfl, rfl⟩
  | x :: xs, ts, d, h, hall => by
    obtain ⟨t, ht, h⟩ := Option.bind_eq_some_iff.mp h
    obtain ⟨us, hus, h⟩ := Option.bind_eq_some_iff.mp h
    obtain rfl := Option.some_inj.mp h
    obtain ⟨hfits, hall⟩ := List.forall_mem_cons.mp hall
    obtain ⟨bss, hbss, hflat, hlen⟩ := buildItems_encode hus hall
    refine ⟨t.encode :: bss, by rw [buildItems, build_encode ht hfits, hbss]; rfl, ?_, ?_⟩
    · rw [List.flatten_cons, hflat, CborTree.encodeItems_cons]
    · rw [List.length_cons, List.length_cons, hlen]

/-- The pairs built are the pairs the writer writes. -/
theorem buildPairs_encode : ∀ {ps : List (Value × Value)} {qs : List (Nat × CborTree)} {d : Nat}, toPairs ps = some qs →
    (∀ q ∈ qs, CborTree.Fits d q.2) → ∃ bss, buildPairs ps = some bss ∧ bss.map Prod.fst = qs.map Prod.fst ∧
      (bss.flatMap fun p => cbUint p.1 ++ p.2) = CborTree.encodePairs qs
  | [], qs, d, h, _ => by
    obtain rfl := Option.some_inj.mp h
    exact ⟨[], rfl, rfl, rfl⟩
  | (.int (.ofNat k), x) :: ps, qs, d, h, hall => by
    obtain ⟨t, ht, h⟩ := Option.bind_eq_some_iff.mp h
    obtain ⟨us, hus, h⟩ := Option.bind_eq_some_iff.mp h
    obtain rfl := Option.some_inj.mp h
    obtain ⟨hfits, hall⟩ := List.forall_mem_cons.mp hall
    obtain ⟨bss, hbss, hfst, hflat⟩ := buildPairs_encode hus hall
    refine ⟨(k, t.encode) :: bss, by rw [buildPairs, build_encode ht hfits, hbss]; rfl, ?_, ?_⟩
    · rw [List.map_cons, List.map_cons, hfst]
    · rw [List.flatMap_cons, hflat, CborTree.encodePairs_cons, cbUint, head_eq, List.append_assoc]
  | (.int (.negSucc _), _) :: _, _, _, h, _ => by cases h
  | (.undefined, _) :: _, _, _, h, _ => by cases h
  | (.nan, _) :: _, _, _, h, _ => by cases h
  | (.f32 _, _) :: _, _, _, h, _ => by cases h
  | (.bool _, _) :: _, _, _, h, _ => by cases h
  | (.null, _) :: _, _, _, h, _ => by cases h
  | (.bytes _, _) :: _, _, _, h, _ => by cases h
  | (.str _, _) :: _, _, _, h, _ => by cases h
  | (.arr _, _) :: _, _, _, h, _ => by cases h
  | (.map _, _) :: _, _, _, h, _ => by cases h

end

/-! ## Agreement -/

/-- What the decoder returns is an item the C++ reader accepts, with the same value. -/
def DecodesAlike (v : View) : Prop :=
  ∀ x pos, cbDecode v = some (x, pos) → ∃ p t, pos = some p ∧ p ≤ v.bytes.length ∧
    CborReader.skipValue ⟨v.bytes.take p, []⟩ = .ok ⟨[], []⟩ ∧ CborTree.Fits kMaxDepth t ∧ v.bytes.take p = t.encode ∧
      Same x t

/-- What the encoders build is what the C++ writer writes. -/
def EncodesAlike (x : Value) : Prop :=
  ∀ t cap, toTree x = some t → CborTree.Fits kMaxDepth t → t.encode.length ≤ cap →
    ∃ bs, build x = some bs ∧ (CborWriter.emit t { cap }).result = some bs

/-- The buffer starts with a plain item of the profile. -/
def StartsPlain (bs : Bytes) : Prop :=
  ∃ t rest, bs = CborTree.encode t ++ rest ∧ CborTree.Fits kMaxDepth t ∧ Plain t

/-- The decoders agree on a view exactly when the reader refuses it or it starts with a plain item. -/
theorem decode_agrees_iff (v : View) : DecodesAlike v ↔ Refused v ∨ StartsPlain v.bytes := by
  constructor
  · intro h
    rw [refused_iff]
    cases hdec : cbDecode v with
    | none => exact .inl rfl
    | some r =>
      obtain ⟨p, t, -, -, -, hfits, htake, hsame⟩ := h r.1 r.2 hdec
      have hsplit : v.bytes = t.encode ++ v.bytes.drop p := by rw [← htake, List.take_append_drop]
      have hself : cbDecode v = _ := decodeFrom_encode hfits hsplit (Nat.sub_le ..)
      obtain rfl := Option.some_inj.mp (hdec.symm.trans hself)
      exact .inr ⟨t, v.bytes.drop p, hsplit, hfits, (same_ofTree t).mp hsame⟩
  · rintro (h | ⟨t, rest, hsplit, hfits, hplain⟩) x pos hdec
    · rw [refused_iff.mp h] at hdec
      cases hdec
    · have hself : cbDecode v = _ := decodeFrom_encode hfits hsplit (Nat.sub_le ..)
      obtain ⟨rfl, rfl⟩ := Prod.mk.inj (Option.some_inj.mp (hdec.symm.trans hself))
      have htake : v.bytes.take (0 + t.encode.length) = t.encode := by
        rw [hsplit, Nat.zero_add]
        exact List.take_left
      refine ⟨_, t, rfl, ?_, ?_, hfits, htake, (same_ofTree t).mpr hplain⟩
      · rw [hsplit, Nat.zero_add, List.length_append]
        omega
      · have hskip := CborReader.skipValue_encode (u := []) hfits
        rw [List.append_nil] at hskip
        rw [htake, hskip]

/-- The encoders agree on every value. -/
theorem encode_agrees (x : Value) : EncodesAlike x := by
  intro t cap htree hfits hcap
  exact ⟨t.encode, build_encode htree hfits, CborWriter.emit_result hfits hcap⟩

/-- **The JavaScript codec agrees with the C++ one** on what it builds, and on a buffer just when it meets something it
refuses or the buffer starts with a plain item. -/
theorem js_codec_agrees (v : View) (x : Value) : (DecodesAlike v ↔ Refused v ∨ StartsPlain v.bytes) ∧ EncodesAlike x :=
  ⟨decode_agrees_iff v, encode_agrees x⟩

/-- An array of two items that ends after the first. -/
def cutArray : View := ⟨[0x82, 0x01], [], by decide⟩

/-- **A truncated array is not refused**: the item that is missing is read as a zero. -/
theorem cut_array_decoded : ¬ ((∀ v : View, DecodesAlike v) ∧ ∀ x : Value, EncodesAlike x) := by
  rintro ⟨h, -⟩
  obtain ⟨p, t, hp, hle, -⟩ := h cutArray (.arr [.int 1, .int 0]) (some 3) rfl
  obtain rfl := Option.some_inj.mp hp
  exact absurd hle (by decide)

end SlopSync.Js
