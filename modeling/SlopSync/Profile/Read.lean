import SlopSync.Profile.Tree

/-! # Reading trees

`Takes lo f g`: the read `f`, with at least `lo` containers open, takes exactly one value off the input and makes of it
what `g` makes of its tree.  Every read of the reader takes a value, and a loop over the items of an array or the pairs of
a map takes one when its body does.  So a decoder is known by what it makes of a tree (`Takes.ok_iff`). -/

namespace SlopSync

open CborWriter

namespace CborReader

variable {α β σ : Type}

/-! ## Loops -/

/-- `n` values in a row, each taken by `f`. -/
def items (f : σ → CborReader → Except DecodeError (σ × CborReader)) : Nat → σ → CborReader →
    Except DecodeError (σ × CborReader)
  | 0, s, r => .ok (s, r)
  | n + 1, s, r => do
    let (s, r) ← f s r
    items f n s r

/-- `n` pairs in a row, each a key and a value taken by `f`. -/
def pairs (f : Nat → σ → CborReader → Except DecodeError (σ × CborReader)) : Nat → σ → CborReader →
    Except DecodeError (σ × CborReader)
  | 0, s, r => .ok (s, r)
  | n + 1, s, r => do
    let (k, r) ← r.readKey
    let (s, r) ← f k s r
    pairs f n s r

/-! ## Steps that succeed -/

theorem bind_ok {ε : Type} {x : Except ε α} {f : α → Except ε β} {b : β} (h : (x >>= f) = .ok b) :
    ∃ a, x = .ok a ∧ f a = .ok b := by
  cases x with
  | error e => cases h
  | ok a => exact ⟨a, rfl, h⟩

@[simp] theorem ok_bind {ε : Type} (a : α) (f : α → Except ε β) : (Except.ok a >>= f) = f a := rfl

/-! ## One value -/

/-- `f`, with `lo` containers open or more, takes one value, and makes of it what `g` makes of its tree. -/
structure Takes (lo : Nat) (f : CborReader → Except DecodeError (α × CborReader)) (g : CborTree → Option α) :
    Prop where
  sound : ∀ {r r' : CborReader} {a : α}, lo ≤ r.stack.length → r.stack.length ≤ kMaxDepth → f r = .ok (a, r') →
    ∃ t, CborTree.Fits (kMaxDepth - r.stack.length) t ∧ r.rest = t.encode ++ r'.rest ∧ r'.stack = consume r.stack ∧
      g t = some a
  complete : ∀ {t : CborTree} {u : Bytes} {s : List CborFrame} {a : α}, lo ≤ s.length → s.length ≤ kMaxDepth →
    CborTree.Fits (kMaxDepth - s.length) t → g t = some a → f ⟨t.encode ++ u, s⟩ = .ok (a, ⟨u, consume s⟩)

namespace Takes

variable {lo : Nat} {f f' : CborReader → Except DecodeError (α × CborReader)} {g g' : CborTree → Option α}

theorem mono {hi : Nat} (h : Takes lo f g) (hle : lo ≤ hi) : Takes hi f g where
  sound hlo hr hok := h.sound (hle.trans hlo) hr hok
  complete hlo hs hfits hg := h.complete (hle.trans hlo) hs hfits hg

theorem congr (h : Takes lo f g) (hf : ∀ r, f' r = f r) (hg : ∀ t, g' t = g t) : Takes lo f' g' := by
  obtain rfl : f' = f := funext hf
  obtain rfl : g' = g := funext hg
  exact h

/-- What was taken is turned into something else, or refused. -/
theorem bind {k : α → Except DecodeError β} {j : α → Option β} (h : Takes lo f g)
    (hk : ∀ a b, k a = .ok b ↔ j a = some b) :
    Takes lo (fun r => do
      let (a, r) ← f r
      let b ← k a
      return (b, r)) (fun t => (g t).bind j) := by
  constructor
  · intro r r' b hlo hr hok
    obtain ⟨⟨a, r₁⟩, ha, hok⟩ := bind_ok hok
    obtain ⟨b', hb, hok⟩ := bind_ok hok
    obtain ⟨rfl, rfl⟩ := Prod.mk.inj (Except.ok.inj hok)
    obtain ⟨t, hfits, hsplit, hstack, hg⟩ := h.sound hlo hr ha
    exact ⟨t, hfits, hsplit, hstack, by rw [hg]; exact (hk a b').mp hb⟩
  · intro t rest s b hlo hs hfits hg
    obtain ⟨a, ha, hb⟩ := Option.bind_eq_some_iff.mp hg
    dsimp only
    rw [h.complete hlo hs hfits ha]
    simp only [ok_bind]
    rw [(hk a b).mpr hb]
    rfl

theorem map (h : Takes lo f g) (k : α → β) :
    Takes lo (fun r => do
      let (a, r) ← f r
      return (k a, r)) (fun t => (g t).map k) :=
  (h.bind (k := fun a => .ok (k a)) (j := fun a => some (k a)) (by simp)).congr (fun _ => rfl) (fun t => by
    cases g t <;> rfl)

theorem ite {c : Prop} [Decidable c] (h : c → Takes lo f g) (h' : ¬c → Takes lo f' g') :
    Takes lo (fun r => if c then f r else f' r) (fun t => if c then g t else g' t) := by
  by_cases hc : c
  · simpa only [if_pos hc] using h hc
  · simpa only [if_neg hc] using h' hc

/-- **What a decoder makes of a tree is all there is to it.** -/
theorem ok_iff (h : Takes lo f g) {t : CborTree} {rest : Bytes} {s : List CborFrame} {a : α} {r' : CborReader}
    (hlo : lo ≤ s.length) (hs : s.length ≤ kMaxDepth) (ht : CborTree.Fits (kMaxDepth - s.length) t) :
    f ⟨t.encode ++ rest, s⟩ = .ok (a, r') ↔ g t = some a ∧ r' = ⟨rest, consume s⟩ := by
  constructor
  · intro hok
    obtain ⟨u, hu, hsplit, hstack, hg⟩ := h.sound (r := ⟨t.encode ++ rest, s⟩) hlo hs hok
    obtain ⟨rfl, hrest⟩ := CborTree.encode_unique ht hu hsplit
    obtain ⟨rest', s'⟩ := r'
    exact ⟨hg, congrArg₂ CborReader.mk hrest.symm hstack⟩
  · rintro ⟨hg, rfl⟩
    exact h.complete hlo hs ht hg

end Takes

/-! ## Scalars -/

section Scalars

variable {lo : Nat}

/-- `readUint` takes unsigned integers and nothing else. -/
theorem takes_readUint : Takes lo readUint fun
    | .uint n => some (UInt64.ofNat n)
    | _ => none := by
  constructor
  · intro r r' a _ _ hok
    obtain ⟨h, hh, hok⟩ := bind_ok hok
    obtain ⟨rest, hp⟩ := parsedHead hh
    split_ifs at hok with hm
    obtain ⟨rfl, rfl⟩ := Prod.mk.inj (Except.ok.inj hok)
    rw [hp.advance]
    exact ⟨.uint h.arg, .uint hp.arg_lt, by rw [hp.split, not_not.mp hm]; rfl, rfl, rfl⟩
  · intro t rest s a _ _ hfits hg
    generalize kMaxDepth - s.length = d at hfits
    cases hfits <;> simp only [reduceCtorEq, Option.some.injEq] at hg
    case uint n hn =>
      subst hg
      simp [readUint, CborTree.encode, parseHeadRaw_head (m := 0) rest s (by decide) hn, CborReader.advance]

/-- The integers, as the reader reads them. -/
theorem takes_readInt : Takes lo readInt fun
    | .uint n => some (Int64.ofNat n)
    | .negInt n => some (-1 - Int64.ofNat n)
    | _ => none := by
  constructor
  · intro r r' a _ _ hok
    obtain ⟨h, hh, hok⟩ := bind_ok hok
    obtain ⟨rest, hp⟩ := parsedHead hh
    split_ifs at hok with hm hm'
    · obtain ⟨rfl, rfl⟩ := Prod.mk.inj (Except.ok.inj hok)
      rw [hp.advance]
      exact ⟨.uint h.arg, .uint hp.arg_lt, by rw [hp.split, hm]; rfl, rfl, rfl⟩
    · obtain ⟨rfl, rfl⟩ := Prod.mk.inj (Except.ok.inj hok)
      rw [hp.advance]
      exact ⟨.negInt h.arg, .negInt hp.arg_lt, by rw [hp.split, hm']; rfl, rfl, rfl⟩
  · intro t rest s a _ _ hfits hg
    generalize kMaxDepth - s.length = d at hfits
    cases hfits <;> simp only [reduceCtorEq, Option.some.injEq] at hg
    case uint n hn =>
      subst hg
      simp [readInt, CborTree.encode, parseHeadRaw_head (m := 0) rest s (by decide) hn, CborReader.advance]
    case negInt n hn =>
      subst hg
      simp [readInt, CborTree.encode, parseHeadRaw_head (m := 1) rest s (by decide) hn, CborReader.advance]

/-- The tree of a simple value. -/
def SimpleHead.tree (h : SimpleHead) : CborTree :=
  match h.kind with
  | .false => .bool false
  | .true => .bool true
  | .null => .null
  | .float32 => .f32 h.floatBits

theorem fits_simple (h : SimpleHead) (d : Nat) : CborTree.Fits d h.tree := by
  unfold SimpleHead.tree
  split
  · exact .bool false
  · exact .bool true
  · exact .null
  · exact .f32 h.floatBits

theorem firstByte_simple {ib : UInt8} {x : Nat} (hm : major ib = 7) (hx : additional ib = x) :
    ib = UInt8.ofNat ((7 <<< 5) ||| x) := by
  rw [← firstByte_eq ib, hm, hx]

/-- What a simple head is, and what is behind it. -/
theorem parsedSimple {r : CborReader} {h : SimpleHead} (hok : parseSimpleRaw r = .ok h) :
    r.rest = h.tree.encode ++ r.rest.drop h.totalBytes := by
  obtain ⟨input, s⟩ := r
  cases input with
  | nil => simp [parseSimpleRaw] at hok
  | cons ib more =>
    simp only [parseSimpleRaw] at hok
    by_cases hm : major ib ≠ 7
    · rw [if_pos hm] at hok
      cases hok
    rw [if_neg hm] at hok
    have hm := not_not.mp hm
    split at hok
    · obtain rfl := Except.ok.inj hok
      rename_i hx
      rw [firstByte_simple hm hx]
      rfl
    · obtain rfl := Except.ok.inj hok
      rename_i hx
      rw [firstByte_simple hm hx]
      rfl
    · obtain rfl := Except.ok.inj hok
      rename_i hx
      rw [firstByte_simple hm hx]
      rfl
    · rename_i hx
      split_ifs at hok with hlen
      obtain rfl := Except.ok.inj hok
      have hfour : (more.take 4).length = 4 := by
        rw [List.length_take]
        omega
      have hbytes := bigEndian_bigEndianValue (more.take 4)
      have hlt := bigEndianValue_lt (more.take 4)
      rw [hfour] at hbytes hlt
      have hval : (UInt32.ofNat (bigEndianValue (more.take 4))).toNat = bigEndianValue (more.take 4) := by
        rw [UInt32.toNat_ofNat']
        omega
      rw [firstByte_simple hm hx]
      simp only [SimpleHead.tree, CborTree.encode, hval, hbytes]
      simp [List.take_append_drop]
    · cases hok
    · cases hok
    · cases hok
    · cases hok

/-- The head of a simple value, by its tree. -/
theorem parseSimpleRaw_encode {t : CborTree} (rest : Bytes) (s : List CborFrame) (ht : t.majorOf = 7) :
    ∃ h : SimpleHead, h.tree = t ∧ h.totalBytes = t.encode.length ∧ parseSimpleRaw ⟨t.encode ++ rest, s⟩ = .ok h := by
  cases t <;> simp only [CborTree.majorOf, reduceCtorEq] at ht
  case bool b => cases b <;> exact ⟨_, rfl, rfl, rfl⟩
  case null => exact ⟨⟨.null, 0, 1⟩, rfl, rfl, rfl⟩
  case f32 bits =>
    refine ⟨⟨.float32, bits, 5⟩, rfl, ?_, ?_⟩
    · simp [CborTree.encode, bigEndian_length]
    · have htake : (bigEndian 4 bits.toNat ++ rest).take 4 = bigEndian 4 bits.toNat := by
        rw [List.take_append_of_le_length (by rw [bigEndian_length]), List.take_of_length_le (by rw [bigEndian_length])]
      have hval : bigEndianValue (bigEndian 4 bits.toNat) = bits.toNat := by
        rw [bigEndianValue_bigEndian, Nat.mod_eq_of_lt (by have := bits.toNat_lt; omega)]
      have hmajor : major 0xFA = 7 := by decide
      have hadd : additional 0xFA = 26 := by decide
      simp only [parseSimpleRaw, CborTree.encode, List.cons_append, hmajor, hadd, htake, hval]
      rw [if_neg (by decide), if_neg (by
        rw [List.length_append, bigEndian_length]
        omega), UInt32.ofNat_toNat]
  all_goals omega

theorem majorOf_simple (h : SimpleHead) : h.tree.majorOf = 7 := by
  unfold SimpleHead.tree
  split <;> rfl

/-- Reads of simple values: some kinds are taken, the others refused. -/
theorem takes_simple {f : CborReader → Except DecodeError (α × CborReader)} {g : CborTree → Option α}
    {k : SimpleHead → Option α} (hg : ∀ t a, g t = some a → t.majorOf = 7) (hk : ∀ h, k h = g h.tree)
    (hf : ∀ r a r', f r = .ok (a, r') ↔ ∃ h, parseSimpleRaw r = .ok h ∧ k h = some a ∧ r' = r.advance h.totalBytes) :
    Takes lo f g := by
  constructor
  · intro r r' a _ _ hok
    obtain ⟨h, hh, ha, rfl⟩ := (hf r a r').mp hok
    exact ⟨h.tree, fits_simple h _, parsedSimple hh, rfl, by rw [← hk, ha]⟩
  · intro t rest s a _ _ _ ha
    obtain ⟨h, rfl, hlen, hh⟩ := parseSimpleRaw_encode rest s (hg t a ha)
    refine (hf _ _ _).mpr ⟨h, hh, by rw [hk, ha], ?_⟩
    simp [CborReader.advance, hlen]

/-- `readBool` takes booleans and nothing else. -/
theorem takes_readBool : Takes lo readBool fun
    | .bool b => some b
    | _ => none := by
  refine takes_simple
    (k := fun h => if h.kind = .false then some false else if h.kind = .true then some true else none) ?_ ?_ ?_
  · intro t a h
    cases t <;> simp_all [CborTree.majorOf]
  · intro h
    unfold SimpleHead.tree
    cases h.kind <;> rfl
  · intro r a r'
    unfold readBool
    cases parseSimpleRaw r with
    | error e => simp [bind, Except.bind]
    | ok h => cases hkind : h.kind <;> simp [hkind, eq_comm]

/-- `CborReader::readNull`. -/
def readNull (r : CborReader) : Except DecodeError (Bool × CborReader) := do
  let s ← r.parseSimpleRaw
  if s.kind = .null then .ok (true, r.advance s.totalBytes) else .error .malformed

/-- `readNull` takes null and nothing else. -/
theorem takes_readNull : Takes lo readNull fun
    | .null => some true
    | _ => none := by
  refine takes_simple (k := fun h => if h.kind = .null then some true else none) ?_ ?_ ?_
  · intro t a h
    cases t <;> simp_all [CborTree.majorOf]
  · intro h
    unfold SimpleHead.tree
    cases h.kind <;> rfl
  · intro r a r'
    unfold readNull
    cases parseSimpleRaw r with
    | error e => simp [bind, Except.bind]
    | ok h => cases hkind : h.kind <;> simp [hkind, eq_comm]

/-- `readF32` takes singles and nothing else. -/
theorem takes_readF32 : Takes lo readF32 fun
    | .f32 bits => some bits
    | _ => none := by
  refine takes_simple (k := fun h => if h.kind = .float32 then some h.floatBits else none) ?_ ?_ ?_
  · intro t a h
    cases t <;> simp_all [CborTree.majorOf]
  · intro h
    unfold SimpleHead.tree
    cases h.kind <;> rfl
  · intro r a r'
    unfold readF32
    cases parseSimpleRaw r with
    | error e => simp [bind, Except.bind]
    | ok h => cases hkind : h.kind <;> simp [hkind, eq_comm]

/-- Strings of either kind. -/
theorem readStr_ok {r r' : CborReader} {m : Nat} {a : Bytes} (hok : readStr r m = .ok (a, r')) :
    m < 6 ∧ a.length < 2 ^ 64 ∧ r.rest = (head m a.length ++ a) ++ r'.rest ∧ r'.stack = consume r.stack := by
  obtain ⟨h, hh, hok⟩ := bind_ok hok
  obtain ⟨rest, hp⟩ := parsedHead hh
  dsimp only at hok
  rw [hp.drop] at hok
  split_ifs at hok with hm hlen
  obtain ⟨rfl, rfl⟩ := Prod.mk.inj (Except.ok.inj hok)
  have ha : (rest.take h.arg).length = h.arg := by
    rw [List.length_take]
    omega
  have hdrop : r.rest.drop (h.totalBytes + h.arg) = rest.drop h.arg := by
    rw [← List.drop_drop, hp.drop]
  have hm := not_not.mp hm
  have hlt := hp.arg_lt
  have hmajor := hp.major_lt
  refine ⟨by omega, by omega, ?_, rfl⟩
  simp only [CborReader.advance, hdrop]
  rw [ha, List.append_assoc, List.take_append_drop, hp.split, hm]

/-- A string whose head has been written is read whole. -/
theorem readStr_head {m : Nat} {a rest : Bytes} {s : List CborFrame} (hm : m < 6) (ha : a.length < 2 ^ 64) :
    readStr ⟨(head m a.length ++ a) ++ rest, s⟩ m = .ok (a, ⟨rest, consume s⟩) := by
  have hdrop : ((head m a.length ++ a) ++ rest).drop ((head m a.length).length + a.length) = rest := by
    rw [← List.length_append, List.drop_left]
  unfold readStr
  rw [List.append_assoc, parseHeadRaw_head (a ++ rest) s hm ha, ← List.append_assoc]
  simp only [ok_bind, CborReader.advance, hdrop]
  rw [List.append_assoc, List.drop_left, if_neg (by simp), if_neg (by simp), List.take_left]

/-- `readTstr` takes texts and nothing else. -/
theorem takes_readTstr : Takes lo readTstr fun
    | .text s => some s
    | _ => none := by
  constructor
  · intro r r' a _ _ hok
    obtain ⟨-, hlen, hsplit, hstack⟩ := readStr_ok hok
    exact ⟨.text a, .text hlen, hsplit, hstack, rfl⟩
  · intro t rest s a _ _ hfits hg
    generalize kMaxDepth - s.length = d at hfits
    cases hfits <;> simp only [reduceCtorEq, Option.some.injEq] at hg
    case text ha =>
      subst hg
      exact readStr_head (by decide) ha

/-- `readBstr` takes byte strings and nothing else. -/
theorem takes_readBstr : Takes lo readBstr fun
    | .bytes s => some s
    | _ => none := by
  constructor
  · intro r r' a _ _ hok
    obtain ⟨-, hlen, hsplit, hstack⟩ := readStr_ok hok
    exact ⟨.bytes a, .bytes hlen, hsplit, hstack, rfl⟩
  · intro t rest s a _ _ hfits hg
    generalize kMaxDepth - s.length = d at hfits
    cases hfits <;> simp only [reduceCtorEq, Option.some.injEq] at hg
    case bytes ha =>
      subst hg
      exact readStr_head (by decide) ha

end Scalars

/-! ## Containers -/

/-- What entering a container needs, and what it leaves. -/
theorem enterContainer_ok {r r' : CborReader} {m n : Nat} {isMap : Bool}
    (hok : enterContainer r m isMap = .ok (n, r')) :
    m < 6 ∧ n < 2 ^ 32 ∧ r.stack.length < kMaxDepth ∧ r.rest = head m n ++ r'.rest ∧
      r'.stack = opened ⟨isMap, slotsOf isMap n, none⟩ r.stack := by
  obtain ⟨h, hh, hok⟩ := bind_ok hok
  obtain ⟨rest, hp⟩ := parsedHead hh
  have hmajor := hp.major_lt
  rw [show (if isMap = true then h.arg * 2 else h.arg) = slotsOf isMap h.arg from rfl] at hok
  split_ifs at hok with hm hdepth hbig hzero
  · obtain ⟨rfl, rfl⟩ := Prod.mk.inj (Except.ok.inj hok)
    rw [hp.advance]
    refine ⟨by omega, by decide, by omega, by rw [hp.split, not_not.mp hm, hzero], ?_⟩
    cases isMap <;> rfl
  · obtain ⟨rfl, rfl⟩ := Prod.mk.inj (Except.ok.inj hok)
    rw [hp.drop]
    refine ⟨by omega, by omega, by omega, by rw [hp.split, not_not.mp hm], ?_⟩
    unfold opened slotsOf
    cases isMap <;> simp [hzero]

/-- A container whose head has been written is entered. -/
theorem enterContainer_head {m n : Nat} {isMap : Bool} {rest : Bytes} {s : List CborFrame} (hm : m < 6)
    (hn : n < 2 ^ 32) (hs : s.length < kMaxDepth) :
    enterContainer ⟨head m n ++ rest, s⟩ m isMap = .ok (n, ⟨rest, opened ⟨isMap, slotsOf isMap n, none⟩ s⟩) := by
  unfold enterContainer
  rw [parseHeadRaw_head rest s hm (by omega)]
  simp only [ok_bind, CborReader.advance, List.drop_left]
  rw [if_neg (by simp), if_neg (by omega), if_neg (by omega)]
  unfold opened slotsOf
  split_ifs with h0 <;> cases isMap <;> simp_all

/-- A key, and the slot it fills. -/
theorem readKey_ok {r r' : CborReader} {n k : Nat} {last : Option Nat} {s : List CborFrame}
    (hs : r.stack = opened ⟨true, slotsOf true (n + 1), last⟩ s) (hok : readKey r = .ok (k, r')) :
    k < 2 ^ 64 ∧ (∀ l ∈ last, l < k) ∧ r.rest = head 0 k ++ r'.rest ∧
      r'.stack = ⟨true, slotsOf true n + 1, some k⟩ :: s := by
  obtain ⟨h, hh, hok⟩ := bind_ok hok
  obtain ⟨rest, hp⟩ := parsedHead hh
  rw [opened_map] at hs
  rw [hs] at hok
  simp only [Bool.not_true, Bool.false_eq_true, if_false] at hok
  split_ifs at hok with hm hlast
  obtain ⟨rfl, rfl⟩ := Prod.mk.inj (Except.ok.inj hok)
  refine ⟨hp.arg_lt, ?_, ?_, ?_⟩
  · intro l hl
    obtain rfl := Option.mem_def.mp hl
    simpa using hlast
  · simp only [CborReader.advance]
    rw [hp.drop, hp.split, not_not.mp hm]
  · exact consume_key

/-- A key that ascends is read. -/
theorem readKey_head {n k : Nat} {last : Option Nat} {u : Bytes} {s : List CborFrame} (hk : k < 2 ^ 64)
    (hlast : ∀ l ∈ last, l < k) :
    readKey ⟨head 0 k ++ u, opened ⟨true, slotsOf true (n + 1), last⟩ s⟩ =
      .ok (k, ⟨u, ⟨true, slotsOf true n + 1, some k⟩ :: s⟩) := by
  have hany : last.any (fun l => decide (k ≤ l)) = false := by
    cases last with
    | none => rfl
    | some l => simpa using hlast l rfl
  unfold readKey
  rw [parseHeadRaw_head u _ (by decide) hk, opened_map]
  simp [CborReader.advance, hany, consume_key]

section Loops

variable {lo : Nat} {f : σ → CborReader → Except DecodeError (σ × CborReader)} {g : σ → CborTree → Option σ}
  {p : Nat → σ → CborReader → Except DecodeError (σ × CborReader)} {q : Nat → σ → CborTree → Option σ}

/-- The items of an open array. -/
theorem items_ok (h : ∀ s, Takes (lo + 1) (f s) (g s)) : ∀ {n : Nat} {a a' : σ} {r r' : CborReader} {s : List CborFrame},
    lo ≤ s.length → s.length < kMaxDepth → r.stack = opened ⟨false, n, none⟩ s → items f n a r = .ok (a', r') →
    ∃ ts : List CborTree, ts.length = n ∧ (∀ t ∈ ts, CborTree.Fits (kMaxDepth - (s.length + 1)) t) ∧
      r.rest = CborTree.encodeItems ts ++ r'.rest ∧ r'.stack = consume s ∧ ts.foldlM g a = some a'
  | 0, a, a', r, r', s, _, _, hr, hok => by
    obtain ⟨rfl, rfl⟩ := Prod.mk.inj (Except.ok.inj hok)
    exact ⟨[], rfl, by simp, rfl, hr, rfl⟩
  | n + 1, a, a', r, r', s, hlo, hs, hr, hok => by
    obtain ⟨⟨a₁, r₁⟩, h₁, hok⟩ := bind_ok hok
    have hframe : r.stack = ⟨false, n + 1, none⟩ :: s := hr
    obtain ⟨t, hfits, hsplit, hstack, hg⟩ := (h a).sound (by rw [hframe]; exact Nat.succ_le_succ hlo) (by rw [hframe]; exact hs) h₁
    rw [hframe] at hfits hstack
    obtain ⟨ts, hlen, hts, hsplit', hstack', hfold⟩ := items_ok h hlo hs (hstack.trans (consume_cons (Nat.succ_pos n))) hok
    refine ⟨t :: ts, by simpa using hlen, ?_, ?_, hstack', ?_⟩
    · exact List.forall_mem_cons.mpr ⟨hfits, hts⟩
    · rw [hsplit, hsplit', CborTree.encodeItems_cons, List.append_assoc]
    · rw [List.foldlM_cons, hg]
      exact hfold

/-- The items of an array are read back; the induction is on them. -/
theorem items_encode (h : ∀ s, Takes (lo + 1) (f s) (g s)) : ∀ {ts : List CborTree} {a a' : σ} {rest : Bytes}
    {s : List CborFrame}, lo ≤ s.length → s.length < kMaxDepth → (∀ t ∈ ts, CborTree.Fits (kMaxDepth - (s.length + 1)) t) →
    ts.foldlM g a = some a' →
    items f ts.length a ⟨CborTree.encodeItems ts ++ rest, opened ⟨false, ts.length, none⟩ s⟩ =
      .ok (a', ⟨rest, consume s⟩)
  | [], a, a', rest, s, _, _, _, hfold => by
    obtain rfl := Option.some.inj hfold
    rfl
  | t :: ts, a, a', rest, s, hlo, hs, hts, hfold => by
    rw [List.foldlM_cons] at hfold
    obtain ⟨a₁, hg, hfold⟩ := Option.bind_eq_some_iff.mp hfold
    obtain ⟨ht, hts⟩ := List.forall_mem_cons.mp hts
    have hstep := (h a).complete (u := CborTree.encodeItems ts ++ rest)
      (s := opened ⟨false, ts.length + 1, none⟩ s) (Nat.succ_le_succ hlo) hs ht hg
    rw [CborTree.encodeItems_cons, List.append_assoc, List.length_cons, items, hstep]
    simp only [ok_bind]
    rw [show consume (opened ⟨false, ts.length + 1, none⟩ s) = opened ⟨false, ts.length, none⟩ s from
      consume_cons (Nat.succ_pos _)]
    exact items_encode h hlo hs hts hfold

/-- The pairs of an open map, above the last key. -/
theorem pairs_ok (h : ∀ k s, Takes (lo + 1) (p k s) (q k s)) : ∀ {n : Nat} {last : Option Nat} {a a' : σ} {r r' : CborReader}
    {s : List CborFrame}, lo ≤ s.length → s.length < kMaxDepth → r.stack = opened ⟨true, slotsOf true n, last⟩ s →
    pairs p n a r = .ok (a', r') →
    ∃ ps : List (Nat × CborTree), ps.length = n ∧ CborTree.Ascending ps ∧ (∀ l ∈ last, ∀ x ∈ ps, l < x.1) ∧
      (∀ x ∈ ps, x.1 < 2 ^ 64) ∧ (∀ x ∈ ps, CborTree.Fits (kMaxDepth - (s.length + 1)) x.2) ∧
      r.rest = CborTree.encodePairs ps ++ r'.rest ∧ r'.stack = consume s ∧
      ps.foldlM (fun a x => q x.1 a x.2) a = some a'
  | 0, last, a, a', r, r', s, _, _, hr, hok => by
    obtain ⟨rfl, rfl⟩ := Prod.mk.inj (Except.ok.inj hok)
    exact ⟨[], rfl, List.Pairwise.nil, by simp, by simp, by simp, rfl, hr, rfl⟩
  | n + 1, last, a, a', r, r', s, hlo, hs, hr, hok => by
    obtain ⟨⟨k, r₁⟩, hkey, hok⟩ := bind_ok hok
    obtain ⟨⟨a₂, r₂⟩, hval, hok⟩ := bind_ok hok
    obtain ⟨hk, hlast, hsplit, hstack⟩ := readKey_ok hr hkey
    obtain ⟨t, hfits, hsplit₂, hstack₂, hg⟩ := (h k a).sound (by rw [hstack]; exact Nat.succ_le_succ hlo)
      (by rw [hstack]; exact hs) hval
    rw [hstack] at hfits hstack₂
    obtain ⟨ps, hlen, hasc, habove, hkeys, hps, hsplit₃, hstack₃, hfold⟩ :=
      pairs_ok h hlo hs (hstack₂.trans (consume_cons (Nat.succ_pos _))) hok
    have hkps : ∀ x ∈ ps, k < x.1 := habove k rfl
    refine ⟨(k, t) :: ps, by simpa using hlen, ?_, ?_, ?_, ?_, ?_, hstack₃, ?_⟩
    · refine List.pairwise_cons.mpr ⟨?_, hasc⟩
      intro x hx
      obtain ⟨y, hy, rfl⟩ := List.mem_map.mp hx
      exact hkps y hy
    · intro l hl
      exact List.forall_mem_cons.mpr ⟨hlast l hl, fun x hx => (hlast l hl).trans (hkps x hx)⟩
    · exact List.forall_mem_cons.mpr ⟨hk, hkeys⟩
    · exact List.forall_mem_cons.mpr ⟨hfits, hps⟩
    · rw [hsplit, hsplit₂, hsplit₃, CborTree.encodePairs_cons]
      simp only [List.append_assoc]
    · rw [List.foldlM_cons, hg]
      exact hfold

/-- The pairs of a map are read back, each key against the one before it. -/
theorem pairs_encode (h : ∀ k s, Takes (lo + 1) (p k s) (q k s)) : ∀ {ps : List (Nat × CborTree)} {last : Option Nat}
    {a a' : σ} {rest : Bytes} {s : List CborFrame}, lo ≤ s.length → s.length < kMaxDepth → CborTree.Ascending ps →
    (∀ l ∈ last, ∀ x ∈ ps, l < x.1) → (∀ x ∈ ps, x.1 < 2 ^ 64) →
    (∀ x ∈ ps, CborTree.Fits (kMaxDepth - (s.length + 1)) x.2) →
    ps.foldlM (fun a x => q x.1 a x.2) a = some a' →
    pairs p ps.length a ⟨CborTree.encodePairs ps ++ rest, opened ⟨true, slotsOf true ps.length, last⟩ s⟩ =
      .ok (a', ⟨rest, consume s⟩)
  | [], last, a, a', rest, s, _, _, _, _, _, _, hfold => by
    obtain rfl := Option.some.inj hfold
    rfl
  | x :: ps, last, a, a', rest, s, hlo, hs, hasc, habove, hkeys, hps, hfold => by
    rw [List.foldlM_cons] at hfold
    obtain ⟨a₁, hg, hfold⟩ := Option.bind_eq_some_iff.mp hfold
    obtain ⟨hk, hkeys⟩ := List.forall_mem_cons.mp hkeys
    obtain ⟨hx, hps⟩ := List.forall_mem_cons.mp hps
    obtain ⟨hfirst, hasc⟩ := List.pairwise_cons.mp hasc
    have hkey := readKey_head (n := ps.length) (u := x.2.encode ++ (CborTree.encodePairs ps ++ rest)) (s := s) hk
      (fun l hl => habove l hl x (List.mem_cons_self ..))
    have hstep := (h x.1 a).complete (u := CborTree.encodePairs ps ++ rest)
      (s := ⟨true, slotsOf true ps.length + 1, some x.1⟩ :: s) (Nat.succ_le_succ hlo) hs hx hg
    rw [CborTree.encodePairs_cons, List.append_assoc, List.append_assoc, List.length_cons, pairs, hkey]
    simp only [ok_bind]
    rw [hstep]
    simp only [ok_bind]
    rw [consume_cons (Nat.succ_pos _)]
    refine pairs_encode h hlo hs hasc ?_ hkeys hps hfold
    intro l hl y hy
    obtain rfl := Option.some.inj (Option.mem_def.mp hl)
    exact hfirst _ (List.mem_map_of_mem hy)

/-- **An array of items that are taken is taken.** -/
theorem takes_array {τ : Type} (h : ∀ s, Takes (lo + 1) (f s) (g s)) (bad : Nat → Prop) [DecidablePred bad] (e : DecodeError)
    (init : Nat → σ) (done : Nat → σ → τ) :
    Takes lo (fun r => do
      let (n, r) ← r.readArrayHeader
      if bad n then .error e
      else
        let (s, r) ← items f n (init n) r
        return (done n s, r)) (fun
      | .array ts => if bad ts.length then none else (ts.foldlM g (init ts.length)).map (done ts.length)
      | _ => none) := by
  constructor
  · intro r r' a hlo hr hok
    obtain ⟨⟨n, r₁⟩, hhead, hok⟩ := bind_ok hok
    dsimp only at hok
    split_ifs at hok with hbad
    obtain ⟨⟨a₂, r₂⟩, hitems, hok⟩ := bind_ok hok
    obtain ⟨rfl, rfl⟩ := Prod.mk.inj (Except.ok.inj hok)
    obtain ⟨-, hn, hs, hsplit, hstack⟩ := enterContainer_ok hhead
    obtain ⟨ts, rfl, hts, hsplit', hstack', hfold⟩ := items_ok h hlo hs hstack hitems
    refine ⟨.array ts, ?_, ?_, hstack', ?_⟩
    · obtain ⟨d, hd⟩ : ∃ d, kMaxDepth - r.stack.length = d + 1 := ⟨kMaxDepth - r.stack.length - 1, by omega⟩
      rw [hd]
      exact .array hn (by rwa [show kMaxDepth - (r.stack.length + 1) = d by omega] at hts)
    · rw [hsplit, hsplit', CborTree.encode, List.append_assoc]
    · dsimp only
      rw [if_neg hbad, hfold, Option.map_some]
  · intro t rest s a hlo hs hfits hg
    cases t <;> simp only [reduceCtorEq] at hg
    case array ts =>
      split_ifs at hg with hbad
      obtain ⟨a₁, hfold, rfl⟩ := Option.map_eq_some_iff.mp hg
      obtain ⟨d, hd, hn, hts⟩ : ∃ d, kMaxDepth - s.length = d + 1 ∧ ts.length < 2 ^ 32 ∧
          ∀ t ∈ ts, CborTree.Fits d t := by
        cases hd : kMaxDepth - s.length with
        | zero => rw [hd] at hfits; cases hfits
        | succ d =>
          rw [hd] at hfits
          cases hfits with
          | array hn hts => exact ⟨d, rfl, hn, hts⟩
      have hs' : s.length < kMaxDepth := by omega
      obtain rfl : d = kMaxDepth - (s.length + 1) := by omega
      dsimp only
      rw [CborTree.encode, List.append_assoc, readArrayHeader, enterContainer_head (by decide) hn hs']
      simp only [ok_bind, if_neg hbad]
      rw [show slotsOf false ts.length = ts.length from rfl, items_encode h hlo hs' hts hfold]
      rfl

/-- **A map of values that are taken is taken.** -/
theorem takes_map {τ : Type} (h : ∀ k s, Takes (lo + 1) (p k s) (q k s)) (bad : Nat → Prop) [DecidablePred bad]
    (e : DecodeError) (init : Nat → σ) (done : Nat → σ → τ) :
    Takes lo (fun r => do
      let (n, r) ← r.readMapHeader
      if bad n then .error e
      else
        let (s, r) ← pairs p n (init n) r
        return (done n s, r)) (fun
      | .map ps => if bad ps.length then none
        else (ps.foldlM (fun a x => q x.1 a x.2) (init ps.length)).map (done ps.length)
      | _ => none) := by
  constructor
  · intro r r' a hlo hr hok
    obtain ⟨⟨n, r₁⟩, hhead, hok⟩ := bind_ok hok
    dsimp only at hok
    split_ifs at hok with hbad
    obtain ⟨⟨a₂, r₂⟩, hpairs, hok⟩ := bind_ok hok
    obtain ⟨rfl, rfl⟩ := Prod.mk.inj (Except.ok.inj hok)
    obtain ⟨-, hn, hs, hsplit, hstack⟩ := enterContainer_ok hhead
    obtain ⟨ps, rfl, hasc, -, hkeys, hps, hsplit', hstack', hfold⟩ := pairs_ok h hlo hs hstack hpairs
    refine ⟨.map ps, ?_, ?_, hstack', ?_⟩
    · obtain ⟨d, hd⟩ : ∃ d, kMaxDepth - r.stack.length = d + 1 := ⟨kMaxDepth - r.stack.length - 1, by omega⟩
      rw [hd]
      exact .map hn hasc hkeys (by rwa [show kMaxDepth - (r.stack.length + 1) = d by omega] at hps)
    · rw [hsplit, hsplit', CborTree.encode, List.append_assoc]
    · dsimp only
      rw [if_neg hbad, hfold, Option.map_some]
  · intro t rest s a hlo hs hfits hg
    cases t <;> simp only [reduceCtorEq] at hg
    case map ps =>
      split_ifs at hg with hbad
      obtain ⟨a₁, hfold, rfl⟩ := Option.map_eq_some_iff.mp hg
      obtain ⟨d, hd, hn, hasc, hkeys, hps⟩ : ∃ d, kMaxDepth - s.length = d + 1 ∧ ps.length < 2 ^ 32 ∧
          CborTree.Ascending ps ∧ (∀ x ∈ ps, x.1 < 2 ^ 64) ∧ ∀ x ∈ ps, CborTree.Fits d x.2 := by
        cases hd : kMaxDepth - s.length with
        | zero => rw [hd] at hfits; cases hfits
        | succ d =>
          rw [hd] at hfits
          cases hfits with
          | map hn hasc hkeys hps => exact ⟨d, rfl, hn, hasc, hkeys, hps⟩
      have hs' : s.length < kMaxDepth := by omega
      obtain rfl : d = kMaxDepth - (s.length + 1) := by omega
      dsimp only
      rw [CborTree.encode, List.append_assoc, readMapHeader, enterContainer_head (by decide) hn hs']
      simp only [ok_bind, if_neg hbad]
      rw [pairs_encode h hlo hs' hasc (by simp) hkeys hps hfold]
      rfl

end Loops

/-! ## The type of a value -/

section Peek

variable {lo : Nat}

/-- The type of the next value is that of its tree. -/
theorem peekType_encode (t : CborTree) (rest : Bytes) (s : List CborFrame) :
    peekType ⟨t.encode ++ rest, s⟩ = .ok t.type := by
  obtain ⟨b, bs, ht, hb⟩ := t.encode_first
  rw [ht]
  simp only [peekType, List.cons_append, hb]
  cases t <;> rfl

theorem takes_error (e : DecodeError) :
    Takes lo (fun _ => .error e : CborReader → Except DecodeError (α × CborReader)) (fun _ => none) where
  sound _ _ h := nomatch h
  complete _ _ _ h := nomatch h

/-- A read for each type. -/
theorem takes_peek {k : MajorType → CborReader → Except DecodeError (α × CborReader)}
    {g : MajorType → CborTree → Option α} (h : ∀ ty, Takes lo (k ty) (g ty)) :
    Takes lo (fun r => do
      let ty ← r.peekType
      k ty r) (fun t => g t.type t) := by
  constructor
  · intro r r' a hlo hr hok
    obtain ⟨ty, hty, hok⟩ := bind_ok hok
    obtain ⟨t, hfits, hsplit, hstack, hg⟩ := (h ty).sound hlo hr hok
    have htype := peekType_encode t r'.rest r.stack
    rw [← hsplit] at htype
    obtain rfl : t.type = ty := Except.ok.inj (htype.symm.trans hty)
    exact ⟨t, hfits, hsplit, hstack, hg⟩
  · intro t rest s a hlo hs hfits hg
    rw [peekType_encode]
    exact (h t.type).complete hlo hs hfits hg

end Peek

/-! ## Skipping -/

/-- A loop that carries nothing. -/
theorem items_times (f : CborReader → Except DecodeError CborReader) : ∀ (n : Nat) (r : CborReader),
    items (fun (_ : Unit) r => do return ((), ← f r)) n () r = (do return ((), ← times f n r))
  | 0, _ => rfl
  | n + 1, r => by
    rw [items, times]
    cases h : f r with
    | error e => rfl
    | ok r' => exact items_times f n r'

/-- Skipping the pairs of a map is skipping twice as many values. -/
theorem pairs_times (f : CborReader → Except DecodeError CborReader) : ∀ (n : Nat) (r : CborReader),
    pairs (fun _ (_ : Unit) r => do return ((), ← f r)) n () r =
      (do return ((), ← times (fun r => do f (← r.readKey).2) n r))
  | 0, _ => rfl
  | n + 1, r => by
    rw [pairs, times]
    cases hk : r.readKey with
    | error e => rfl
    | ok x =>
      cases h : f x.2 with
      | error e => simp [h, bind, Except.bind]
      | ok r' =>
        simp only [ok_bind, h]
        exact pairs_times f n r'

theorem foldlM_unit {τ : Type} (l : List τ) : l.foldlM (fun (_ : Unit) _ => some ()) () = some () := by
  induction l with
  | nil => rfl
  | cons _ l ih => exact ih

/-- Skip a value of this type. -/
def skipType (levels : Nat) (ty : MajorType) (r : CborReader) : Except DecodeError CborReader :=
  match ty with
  | .uint => do return (← r.readUint).2
  | .negInt => do return (← r.readInt).2
  | .byteString => do return (← r.readBstr).2
  | .textString => do return (← r.readTstr).2
  | .tag => .error .profileViolation
  | .array => do
    let (n, r) ← r.readArrayHeader
    times (skipWithin levels) n r
  | .map => do
    let (n, r) ← r.readMapHeader
    times (fun r => do skipWithin levels (← r.readKey).2) n r
  | .simple => do
    let s ← r.parseSimpleRaw
    return r.advance s.totalBytes

theorem skipWithin_succ (levels : Nat) (r : CborReader) :
    skipWithin (levels + 1) r = (do skipType levels (← r.peekType) r) := by
  rw [skipWithin]
  cases r.peekType with
  | error e => rfl
  | ok ty => cases ty <;> rfl

/-- Forget what was read. -/
theorem Takes.forget {lo : Nat} {f : CborReader → Except DecodeError (α × CborReader)} {g : CborTree → Option α}
    (h : Takes lo f g) : Takes lo (fun r => do return ((), (← f r).2)) (fun t => (g t).map fun _ => ()) :=
  (h.map fun _ => ()).congr (fun r => by
    cases f r <;> rfl) (fun _ => rfl)

/-- **Skipping takes one value, whatever it is.** -/
theorem takes_skipWithin : ∀ levels : Nat, levels ≤ kMaxDepth + 1 →
    Takes (kMaxDepth + 1 - levels) (fun r => do return ((), ← skipWithin levels r)) (fun _ => some ())
  | 0, _ => by
    constructor
    · intro r r' a hlo hr
      omega
    · intro t rest s a hlo hs
      omega
  | levels + 1, hlevels => by
    have ih := takes_skipWithin levels (by omega)
    have hlo : kMaxDepth + 1 - (levels + 1) + 1 = kMaxDepth + 1 - levels := by omega
    have harray : Takes (kMaxDepth + 1 - (levels + 1)) _ _ := takes_array (σ := Unit) (fun _ => hlo ▸ ih) (fun _ => False)
      .malformed (fun _ => ()) (fun _ _ => ())
    have hmap : Takes (kMaxDepth + 1 - (levels + 1)) _ _ := takes_map (σ := Unit) (fun _ _ => hlo ▸ ih) (fun _ => False)
      .malformed (fun _ => ()) (fun _ _ => ())
    have htype : ∀ ty, ∃ g, Takes (kMaxDepth + 1 - (levels + 1)) (fun r => do return ((), ← skipType levels ty r)) g ∧
        ∀ t : CborTree, t.type = ty → g t = some () := by
      intro ty
      cases ty with
      | uint =>
        refine ⟨_, takes_readUint.forget.congr (fun r => ?_) (fun _ => rfl), fun t ht => ?_⟩
        · cases h : readUint r <;> simp [skipType, h, bind, Except.bind, pure, Except.pure]
        · cases t <;> cases ht
          rfl
      | negInt =>
        refine ⟨_, takes_readInt.forget.congr (fun r => ?_) (fun _ => rfl), fun t ht => ?_⟩
        · cases h : readInt r <;> simp [skipType, h, bind, Except.bind, pure, Except.pure]
        · cases t <;> cases ht
          rfl
      | byteString =>
        refine ⟨_, takes_readBstr.forget.congr (fun r => ?_) (fun _ => rfl), fun t ht => ?_⟩
        · cases h : readBstr r <;> simp [skipType, h, bind, Except.bind, pure, Except.pure]
        · cases t <;> cases ht
          rfl
      | textString =>
        refine ⟨_, takes_readTstr.forget.congr (fun r => ?_) (fun _ => rfl), fun t ht => ?_⟩
        · cases h : readTstr r <;> simp [skipType, h, bind, Except.bind, pure, Except.pure]
        · cases t <;> cases ht
          rfl
      | array =>
        refine ⟨_, harray.congr (fun r => ?_) (fun _ => rfl), fun t ht => ?_⟩
        · cases h : readArrayHeader r with
          | error e => simp [skipType, h, bind, Except.bind]
          | ok x =>
            obtain ⟨n, r₁⟩ := x
            simp only [skipType, h, ok_bind, if_false, items_times]
            cases times (skipWithin levels) n r₁ <;> rfl
        · cases t <;> cases ht
          simp [foldlM_unit]
      | map =>
        refine ⟨_, hmap.congr (fun r => ?_) (fun _ => rfl), fun t ht => ?_⟩
        · cases h : readMapHeader r with
          | error e => simp [skipType, h, bind, Except.bind]
          | ok x =>
            obtain ⟨n, r₁⟩ := x
            simp only [skipType, h, ok_bind, if_false, pairs_times]
            cases times (fun r => do skipWithin levels (← r.readKey).2) n r₁ <;> rfl
        · cases t <;> cases ht
          simp [foldlM_unit]
      | tag => exact ⟨_, (takes_error .profileViolation).congr (fun _ => rfl) (fun _ => rfl), fun t ht => by
          cases t <;> cases ht⟩
      | simple =>
        refine ⟨fun t => if t.majorOf = 7 then some () else none,
          takes_simple (k := fun _ => some ()) (fun t _ ht => ?_) (fun h => ?_) (fun r a r' => ?_), fun t ht => ?_⟩
        · split_ifs at ht with h7
          exact h7
        · rw [if_pos (majorOf_simple h)]
        · cases h : parseSimpleRaw r <;> simp [skipType, h, bind, Except.bind, pure, Except.pure, eq_comm]
        · cases t <;> cases ht <;> rfl
    choose g hg hsome using htype
    refine (takes_peek hg).congr (fun r => ?_) (fun t => (hsome t.type t rfl).symm)
    rw [skipWithin_succ]
    cases r.peekType <;> rfl

/-- `skipValue` takes any tree of the profile. -/
theorem takes_skipValue : Takes 0 (fun r => do return ((), ← skipValue r)) (fun _ => some ()) :=
  takes_skipWithin (kMaxDepth + 1) (Nat.le_refl _)

end CborReader

end SlopSync
