import SlopSync.Profile.Head

/-! # Value trees of the profile

What a byte string of the deterministic profile says, as a tree, and the one encoding each tree has.

* `CborTree.Fits` — the tree is one of the profile, with at most so many containers inside each other.
* `CborTree.encode_unique` — a byte string starts with the encoding of at most one tree. -/

namespace SlopSync

open CborWriter CborReader

inductive CborTree
  | uint (n : Nat)
  | negInt (n : Nat)             -- the integer `-1 - n`
  | bytes (s : Bytes)
  | text (s : Bytes)
  | bool (b : Bool)
  | null
  | f32 (bits : UInt32)
  | array (ts : List CborTree)
  | map (ps : List (Nat × CborTree))
  deriving Repr

namespace CborTree

mutual

/-- The canonical encoding. -/
def encode : CborTree → Bytes
  | .uint n => head 0 n
  | .negInt n => head 1 n
  | .bytes s => head 2 s.length ++ s
  | .text s => head 3 s.length ++ s
  | .bool b => [UInt8.ofNat ((7 <<< 5) ||| (if b then 21 else 20))]
  | .null => [UInt8.ofNat ((7 <<< 5) ||| 22)]
  | .f32 bits => 0xFA :: bigEndian 4 bits.toNat
  | .array ts => head 4 ts.length ++ encodeItems ts
  | .map ps => head 5 ps.length ++ encodePairs ps

def encodeItems : List CborTree → Bytes
  | [] => []
  | t :: ts => encode t ++ encodeItems ts

def encodePairs : List (Nat × CborTree) → Bytes
  | [] => []
  | (k, t) :: ps => head 0 k ++ (encode t ++ encodePairs ps)

end

/-- The keys of a map, strictly ascending. -/
def Ascending (ps : List (Nat × CborTree)) : Prop := (ps.map Prod.fst).Pairwise (· < ·)

/-- A tree of the profile with at most so many containers inside each other. -/
inductive Fits : Nat → CborTree → Prop
  | uint {d n : Nat} (h : n < 2 ^ 64) : Fits d (.uint n)
  | negInt {d n : Nat} (h : n < 2 ^ 64) : Fits d (.negInt n)
  | bytes {d : Nat} {s : Bytes} (h : s.length < 2 ^ 64) : Fits d (.bytes s)
  | text {d : Nat} {s : Bytes} (h : s.length < 2 ^ 64) : Fits d (.text s)
  | bool {d : Nat} (b : Bool) : Fits d (.bool b)
  | null {d : Nat} : Fits d .null
  | f32 {d : Nat} (bits : UInt32) : Fits d (.f32 bits)
  | array {d : Nat} {ts : List CborTree} (hn : ts.length < 2 ^ 32) (h : ∀ t ∈ ts, Fits d t) : Fits (d + 1) (.array ts)
  | map {d : Nat} {ps : List (Nat × CborTree)} (hn : ps.length < 2 ^ 32) (hkeys : Ascending ps)
      (hk : ∀ p ∈ ps, p.1 < 2 ^ 64) (h : ∀ p ∈ ps, Fits d p.2) : Fits (d + 1) (.map ps)

theorem Fits.mono {d e : Nat} {t : CborTree} (h : Fits d t) (hde : d ≤ e) : Fits e t := by
  induction h generalizing e with
  | uint h => exact .uint h
  | negInt h => exact .negInt h
  | bytes h => exact .bytes h
  | text h => exact .text h
  | bool b => exact .bool b
  | null => exact .null
  | f32 bits => exact .f32 bits
  | array hn _ ih =>
    obtain ⟨e, rfl⟩ : ∃ e', e = e' + 1 := ⟨e - 1, by omega⟩
    exact .array hn fun t ht => ih t ht (by omega)
  | map hn hkeys hk _ ih =>
    obtain ⟨e, rfl⟩ : ∃ e', e = e' + 1 := ⟨e - 1, by omega⟩
    exact .map hn hkeys hk fun p hp => ih p hp (by omega)

/-- An integer, by its sign. -/
def ofInt : Int → CborTree
  | .ofNat n => .uint n
  | .negSucc n => .negInt n

/-! ## Items and pairs -/

@[simp] theorem encodeItems_nil : encodeItems [] = [] := rfl

@[simp] theorem encodeItems_cons (t : CborTree) (ts : List CborTree) :
    encodeItems (t :: ts) = encode t ++ encodeItems ts := rfl

@[simp] theorem encodePairs_nil : encodePairs [] = [] := rfl

@[simp] theorem encodePairs_cons (p : Nat × CborTree) (ps : List (Nat × CborTree)) :
    encodePairs (p :: ps) = head 0 p.1 ++ (encode p.2 ++ encodePairs ps) := rfl

theorem encodePairs_append (ps qs : List (Nat × CborTree)) :
    encodePairs (ps ++ qs) = encodePairs ps ++ encodePairs qs := by
  induction ps with
  | nil => rfl
  | cons p ps ih =>
    rw [List.cons_append, encodePairs_cons, ih, encodePairs_cons, List.append_assoc, List.append_assoc]

/-! ## One tree for a byte string -/

/-- The major type a tree is encoded under. -/
def majorOf : CborTree → Nat
  | .uint _ => 0
  | .negInt _ => 1
  | .bytes _ => 2
  | .text _ => 3
  | .array _ => 4
  | .map _ => 5
  | .bool _ | .null | .f32 _ => 7

/-- What the reader sees of a tree before it takes it. -/
def type : CborTree → MajorType
  | .uint _ => .uint
  | .negInt _ => .negInt
  | .bytes _ => .byteString
  | .text _ => .textString
  | .array _ => .array
  | .map _ => .map
  | .bool _ | .null | .f32 _ => .simple

/-- The first byte says the major type. -/
theorem encode_first (t : CborTree) : ∃ b bs, encode t = b :: bs ∧ major b = majorOf t := by
  have hhead : ∀ (m v : Nat) (s : Bytes), m < 6 → ∃ b bs, head m v ++ s = b :: bs ∧ major b = m := by
    intro m v s hm
    obtain ⟨b, bs, h, hb⟩ := head_first (v := v) hm
    exact ⟨b, bs ++ s, by rw [h, List.cons_append], hb⟩
  cases t with
  | uint n => exact head_first (by decide)
  | negInt n => exact head_first (by decide)
  | bytes s => exact hhead 2 s.length s (by decide)
  | text s => exact hhead 3 s.length s (by decide)
  | array ts => exact hhead 4 ts.length (encodeItems ts) (by decide)
  | map ps => exact hhead 5 ps.length (encodePairs ps) (by decide)
  | bool b => exact ⟨_, _, rfl, major_firstByte (by decide) (by cases b <;> decide)⟩
  | null => exact ⟨_, _, rfl, major_firstByte (by decide) (by decide)⟩
  | f32 bits => exact ⟨_, _, rfl, rfl⟩

theorem majorOf_of_encode {t u : CborTree} {as bs : Bytes} (h : encode t ++ as = encode u ++ bs) :
    majorOf t = majorOf u := by
  obtain ⟨b, cs, ht, hb⟩ := encode_first t
  obtain ⟨b', cs', hu, hb'⟩ := encode_first u
  rw [ht, hu, List.cons_append, List.cons_append] at h
  rw [← hb, ← hb', (List.cons.inj h).1]

/-- What a simple value is, by its encoding. -/
theorem simple_unique {t u : CborTree} {as bs : Bytes} (ht : majorOf t = 7) (hu : majorOf u = 7)
    (h : encode t ++ as = encode u ++ bs) : t = u ∧ as = bs := by
  have hbool : ∀ a b : Bool, UInt8.ofNat ((7 <<< 5) ||| (if a then 21 else 20)) =
      UInt8.ofNat ((7 <<< 5) ||| (if b then 21 else 20)) → a = b := by decide
  have hnull : ∀ b : Bool, UInt8.ofNat ((7 <<< 5) ||| (if b then 21 else 20)) ≠ UInt8.ofNat ((7 <<< 5) ||| 22) := by
    decide
  have hfloat : ∀ b : Bool, UInt8.ofNat ((7 <<< 5) ||| (if b then 21 else 20)) ≠ 0xFA := by decide
  have hnan : UInt8.ofNat ((7 <<< 5) ||| 22) ≠ 0xFA := by decide
  cases t <;> simp only [majorOf, reduceCtorEq] at ht <;> cases u <;> simp only [majorOf, reduceCtorEq] at hu <;>
    simp only [encode, List.cons_append, List.nil_append, List.cons.injEq] at h
  all_goals first
    | omega
    | skip
  case bool.bool a b => exact ⟨congrArg bool (hbool a b h.1), h.2⟩
  case bool.null b => exact absurd h.1 (hnull b)
  case bool.f32 b _ => exact absurd h.1 (hfloat b)
  case null.bool b => exact absurd h.1.symm (hnull b)
  case null.null => exact ⟨rfl, h.2⟩
  case null.f32 => exact absurd h.1 hnan
  case f32.bool b => exact absurd h.1.symm (hfloat b)
  case f32.null => exact absurd h.1.symm hnan
  case f32.f32 x y =>
    obtain ⟨hxy, rfl⟩ := List.append_inj h.2 (by rw [bigEndian_length, bigEndian_length])
    have hval := congrArg bigEndianValue hxy
    have hx := x.toNat_lt
    have hy := y.toNat_lt
    rw [bigEndianValue_bigEndian, bigEndianValue_bigEndian, Nat.mod_eq_of_lt (by omega),
      Nat.mod_eq_of_lt (by omega)] at hval
    exact ⟨congrArg f32 (UInt32.toNat_inj.mp hval), rfl⟩

/-- Two strings of the same length in front of something. -/
theorem str_unique {m : Nat} {s s' as bs : Bytes} (hm : m < 6) (hs : s.length < 2 ^ 64) (hs' : s'.length < 2 ^ 64)
    (h : (head m s.length ++ s) ++ as = (head m s'.length ++ s') ++ bs) : s = s' ∧ as = bs := by
  rw [List.append_assoc, List.append_assoc] at h
  obtain ⟨-, hlen, h⟩ := head_unique hm hm hs hs' h
  exact List.append_inj h hlen

theorem encodeItems_unique {d : Nat} {ts us : List CborTree} {as bs : Bytes} (hlen : ts.length = us.length)
    (hu : ∀ u ∈ us, Fits d u)
    (ih : ∀ t ∈ ts, ∀ {u as bs}, Fits d u → encode t ++ as = encode u ++ bs → t = u ∧ as = bs)
    (h : encodeItems ts ++ as = encodeItems us ++ bs) : ts = us ∧ as = bs := by
  induction ts generalizing us with
  | nil =>
    obtain rfl := List.length_eq_zero_iff.mp hlen.symm
    exact ⟨rfl, h⟩
  | cons t ts ih' =>
    cases us with
    | nil => simp at hlen
    | cons u us =>
      rw [encodeItems_cons, encodeItems_cons, List.append_assoc, List.append_assoc] at h
      obtain ⟨rfl, htail⟩ := ih t (List.mem_cons_self ..) (hu u (List.mem_cons_self ..)) h
      obtain ⟨rfl, hrest⟩ := ih' (by simpa using hlen) (fun v hv => hu v (List.mem_cons_of_mem _ hv))
        (fun v hv => ih v (List.mem_cons_of_mem _ hv)) htail
      exact ⟨rfl, hrest⟩

theorem encodePairs_unique {d : Nat} {ps qs : List (Nat × CborTree)} {as bs : Bytes} (hlen : ps.length = qs.length)
    (hkp : ∀ p ∈ ps, p.1 < 2 ^ 64) (hkq : ∀ q ∈ qs, q.1 < 2 ^ 64) (hq : ∀ q ∈ qs, Fits d q.2)
    (ih : ∀ p ∈ ps, ∀ {u as bs}, Fits d u → encode p.2 ++ as = encode u ++ bs → p.2 = u ∧ as = bs)
    (h : encodePairs ps ++ as = encodePairs qs ++ bs) : ps = qs ∧ as = bs := by
  induction ps generalizing qs with
  | nil =>
    obtain rfl := List.length_eq_zero_iff.mp hlen.symm
    exact ⟨rfl, h⟩
  | cons p ps ih' =>
    cases qs with
    | nil => simp at hlen
    | cons q qs =>
      have hp := List.mem_cons_self (a := p) (l := ps)
      have hq' := List.mem_cons_self (a := q) (l := qs)
      simp only [encodePairs_cons, List.append_assoc] at h
      obtain ⟨-, hkey, h⟩ := head_unique (m := 0) (j := 0) (by decide) (by decide) (hkp p hp) (hkq q hq') h
      obtain ⟨hval, htail⟩ := ih p hp (hq q hq') h
      obtain ⟨rfl, hrest⟩ := ih' (by simpa using hlen) (fun v hv => hkp v (List.mem_cons_of_mem _ hv))
        (fun v hv => hkq v (List.mem_cons_of_mem _ hv)) (fun v hv => hq v (List.mem_cons_of_mem _ hv))
        (fun v hv => ih v (List.mem_cons_of_mem _ hv)) htail
      exact ⟨by rw [Prod.ext hkey hval], hrest⟩

/-- **A byte string starts with the encoding of at most one tree.** -/
theorem encode_unique {d e : Nat} {t u : CborTree} {as bs : Bytes} (ht : Fits d t) (hu : Fits e u)
    (h : encode t ++ as = encode u ++ bs) : t = u ∧ as = bs := by
  induction ht generalizing e u as bs with
  | uint hn =>
    have hmajor := majorOf_of_encode h
    cases hu <;> simp [majorOf] at hmajor
    case uint hn' =>
      obtain ⟨-, rfl, hrest⟩ := head_unique (by decide) (by decide) hn hn' h
      exact ⟨rfl, hrest⟩
  | negInt hn =>
    have hmajor := majorOf_of_encode h
    cases hu <;> simp [majorOf] at hmajor
    case negInt hn' =>
      obtain ⟨-, rfl, hrest⟩ := head_unique (by decide) (by decide) hn hn' h
      exact ⟨rfl, hrest⟩
  | bytes hs =>
    have hmajor := majorOf_of_encode h
    cases hu <;> simp [majorOf] at hmajor
    case bytes hs' =>
      obtain ⟨rfl, hrest⟩ := str_unique (by decide) hs hs' h
      exact ⟨rfl, hrest⟩
  | text hs =>
    have hmajor := majorOf_of_encode h
    cases hu <;> simp [majorOf] at hmajor
    case text hs' =>
      obtain ⟨rfl, hrest⟩ := str_unique (by decide) hs hs' h
      exact ⟨rfl, hrest⟩
  | bool b => exact simple_unique rfl (majorOf_of_encode h).symm h
  | null => exact simple_unique rfl (majorOf_of_encode h).symm h
  | f32 bits => exact simple_unique rfl (majorOf_of_encode h).symm h
  | array hn hts ih =>
    have hmajor := majorOf_of_encode h
    cases hu <;> simp [majorOf] at hmajor
    case array hn' hus =>
      simp only [encode, List.append_assoc] at h
      obtain ⟨-, hlen, h⟩ := head_unique (by decide) (by decide) (by omega) (by omega) h
      obtain ⟨rfl, hrest⟩ := encodeItems_unique hlen hus (fun t ht _ _ _ hu' h' => ih t ht hu' h') h
      exact ⟨rfl, hrest⟩
  | map hn hkeys hk hps ih =>
    have hmajor := majorOf_of_encode h
    cases hu <;> simp [majorOf] at hmajor
    case map hn' hkeys' hk' hqs =>
      simp only [encode, List.append_assoc] at h
      obtain ⟨-, hlen, h⟩ := head_unique (by decide) (by decide) (by omega) (by omega) h
      obtain ⟨rfl, hrest⟩ := encodePairs_unique hlen hk hk' hqs (fun p hp _ _ _ hu' h' => ih p hp hu' h') h
      exact ⟨rfl, hrest⟩

/-- a map with one key, and an array with nothing in it -/
example : encode (.map [(7, .array [])]) = [0xA1, 0x07, 0x80] := by decide

end CborTree

end SlopSync
