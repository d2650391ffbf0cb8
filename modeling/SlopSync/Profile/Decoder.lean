import SlopSync.Profile.Emit
import SlopSync.Profile.Read

/-! # Decoders

A decoder is a read together with what it makes of a tree.  Decoders are put together as the messages are: a record is a
map with a decoder for each key, the keys that are not known are skipped, and a list is an array of items.  What a
decoder accepts is then a question about trees (`run_ok`, `run_encode`).

A machine integer is a tree of its own kind (`CborTree.u8`, …), so that what reads it back is one lemma. -/

namespace SlopSync

open CborWriter CborReader

namespace CborTree

def u8 (v : UInt8) : CborTree := .uint v.toNat
def u16 (v : UInt16) : CborTree := .uint v.toNat
def u32 (v : UInt32) : CborTree := .uint v.toNat
def u64 (v : UInt64) : CborTree := .uint v.toNat

/-- The value of a key. -/
def get : CborTree → Nat → Option CborTree
  | .map ps, k => ps.lookup k
  | _, _ => none

/-- The unsigned integer under a key. -/
def uintAt (t : CborTree) (k : Nat) : Option Nat :=
  match t.get k with
  | some (.uint n) => some n
  | _ => none

/-- The items of the array under a key. -/
def itemsAt (t : CborTree) (k : Nat) : List CborTree :=
  match t.get k with
  | some (.array ts) => ts
  | _ => []

end CborTree

namespace CborWriter

theorem typed_u8 (v : UInt8) : Typed (.u8 v) := .uint (by have := v.toNat_lt; omega)
theorem typed_u16 (v : UInt16) : Typed (.u16 v) := .uint (by have := v.toNat_lt; omega)
theorem typed_u32 (v : UInt32) : Typed (.u32 v) := .uint (by have := v.toNat_lt; omega)
theorem typed_u64 (v : UInt64) : Typed (.u64 v) := .uint v.toNat_lt

end CborWriter

/-- A decoder: how it reads, what it makes of a tree, and that the two agree. -/
structure CborDecoder (α : Type) where
  read : CborReader → Except DecodeError (α × CborReader)
  ofTree : CborTree → Option α
  takes : Takes 0 read ofTree

namespace CborDecoder

variable {α β σ τ : Type}

/-! ## Values -/

def uint : CborDecoder UInt64 where
  read := readUint
  ofTree
    | .uint n => some (UInt64.ofNat n)
    | _ => none
  takes := takes_readUint.congr (fun _ => rfl) (fun t => by cases t <;> rfl)

def bool : CborDecoder Bool where
  read := readBool
  ofTree
    | .bool b => some b
    | _ => none
  takes := takes_readBool.congr (fun _ => rfl) (fun t => by cases t <;> rfl)

def f32 : CborDecoder UInt32 where
  read := readF32
  ofTree
    | .f32 bits => some bits
    | _ => none
  takes := takes_readF32.congr (fun _ => rfl) (fun t => by cases t <;> rfl)

def tstr : CborDecoder Bytes where
  read := readTstr
  ofTree
    | .text s => some s
    | _ => none
  takes := takes_readTstr.congr (fun _ => rfl) (fun t => by cases t <;> rfl)

def bstr : CborDecoder Bytes where
  read := readBstr
  ofTree
    | .bytes s => some s
    | _ => none
  takes := takes_readBstr.congr (fun _ => rfl) (fun t => by cases t <;> rfl)

@[simp] theorem uint_ofTree (n : Nat) : uint.ofTree (.uint n) = some (UInt64.ofNat n) := rfl

@[simp] theorem uint_u8 (v : UInt8) : uint.ofTree (.u8 v) = some v.toUInt64 := by
  rw [CborTree.u8, uint_ofTree, UInt64.ofNat_uInt8ToNat]

@[simp] theorem uint_u16 (v : UInt16) : uint.ofTree (.u16 v) = some v.toUInt64 := by
  rw [CborTree.u16, uint_ofTree, UInt64.ofNat_uInt16ToNat]

@[simp] theorem uint_u32 (v : UInt32) : uint.ofTree (.u32 v) = some v.toUInt64 := by
  rw [CborTree.u32, uint_ofTree, UInt64.ofNat_uInt32ToNat]

@[simp] theorem uint_u64 (v : UInt64) : uint.ofTree (.u64 v) = some v := by
  rw [CborTree.u64, uint_ofTree, UInt64.ofNat_toNat]

@[simp] theorem bool_ofTree (b : Bool) : bool.ofTree (.bool b) = some b := rfl
@[simp] theorem f32_ofTree (bits : UInt32) : f32.ofTree (.f32 bits) = some bits := rfl
@[simp] theorem tstr_ofTree (s : Bytes) : tstr.ofTree (.text s) = some s := rfl
@[simp] theorem bstr_ofTree (s : Bytes) : bstr.ofTree (.bytes s) = some s := rfl

/-! ## What is made of a value -/

/-- A function of what is read. -/
def map (d : CborDecoder α) (f : α → β) : CborDecoder β where
  read r := do
    let (a, r) ← d.read r
    return (f a, r)
  ofTree t := (d.ofTree t).map f
  takes := d.takes.map f

/-- The value is looked at, and may be refused. -/
def andThen (d : CborDecoder α) (k : α → Except DecodeError β) : CborDecoder β where
  read r := do
    let (a, r) ← d.read r
    let b ← k a
    return (b, r)
  ofTree t := (d.ofTree t).bind fun a => (k a).toOption
  takes := d.takes.bind fun a b => by cases k a <;> simp [Except.toOption]

@[simp] theorem map_ofTree (d : CborDecoder α) (f : α → β) (t : CborTree) :
    (d.map f).ofTree t = (d.ofTree t).map f := rfl

@[simp] theorem andThen_ofTree (d : CborDecoder α) (k : α → Except DecodeError β) (t : CborTree) :
    (d.andThen k).ofTree t = (d.ofTree t).bind fun a => (k a).toOption := rfl

/-- An unsigned integer of at most `max`. -/
def uintWithin (max : Nat) : CborDecoder UInt64 :=
  uint.andThen fun v => if max < v.toNat then .error .malformed else .ok v

def u8 : CborDecoder UInt8 := (uintWithin 0xFF).map UInt64.toUInt8

def u16 : CborDecoder UInt16 := (uintWithin 0xFFFF).map UInt64.toUInt16

def u32 : CborDecoder UInt32 := (uintWithin 0xFFFFFFFF).map UInt64.toUInt32

/-- A text of at most `max` bytes. -/
def text (max : Nat) : CborDecoder Bytes :=
  tstr.andThen fun s => if max < s.length then .error .capacityExceeded else .ok s

/-- A byte string of at most `max` bytes that is not empty. -/
def bytesWithin (max : Nat) : CborDecoder Bytes :=
  bstr.andThen fun s => if s.isEmpty ∨ max < s.length then .error .capacityExceeded else .ok s

/-- An integer within the bound is read. -/
theorem uintWithin_ofTree {max n : Nat} (h : n ≤ max) (hn : n < 2 ^ 64) :
    (uintWithin max).ofTree (.uint n) = some (UInt64.ofNat n) := by
  rw [uintWithin, andThen_ofTree, uint_ofTree, Option.bind_some, UInt64.toNat_ofNat_of_lt' hn, if_neg (by omega)]
  rfl

@[simp] theorem u8_ofTree (v : UInt8) : u8.ofTree (.u8 v) = some v := by
  have hv := v.toNat_lt
  rw [u8, CborTree.u8, map_ofTree, uintWithin_ofTree (by omega) (by omega), UInt64.ofNat_uInt8ToNat, Option.map_some,
    UInt8.toUInt8_toUInt64]

@[simp] theorem u16_ofTree (v : UInt16) : u16.ofTree (.u16 v) = some v := by
  have hv := v.toNat_lt
  rw [u16, CborTree.u16, map_ofTree, uintWithin_ofTree (by omega) (by omega), UInt64.ofNat_uInt16ToNat, Option.map_some,
    UInt16.toUInt16_toUInt64]

@[simp] theorem u32_ofTree (v : UInt32) : u32.ofTree (.u32 v) = some v := by
  have hv := v.toNat_lt
  rw [u32, CborTree.u32, map_ofTree, uintWithin_ofTree (by omega) (by omega), UInt64.ofNat_uInt32ToNat, Option.map_some,
    UInt32.toUInt32_toUInt64]

/-- A text is read when it is not too long. -/
@[simp] theorem text_ofTree (max : Nat) (s : Bytes) :
    (text max).ofTree (.text s) = if s.length ≤ max then some s else none := by
  rw [text, andThen_ofTree, tstr_ofTree, Option.bind_some]
  by_cases h : max < s.length
  · rw [if_pos h, if_neg (by omega)]
    rfl
  · rw [if_neg h, if_pos (by omega)]
    rfl

/-- Bytes are read when they are neither absent nor too long. -/
theorem bytesWithin_ofTree {max : Nat} {s : Bytes} (h : s ≠ [] ∧ s.length ≤ max) :
    (bytesWithin max).ofTree (.bytes s) = some s := by
  rw [bytesWithin, andThen_ofTree, bstr_ofTree, Option.bind_some, if_neg (by simpa using h)]
  rfl

/-- Bytes that are absent or too long are refused. -/
theorem bytesWithin_none {max : Nat} {s : Bytes} (h : ¬(s ≠ [] ∧ s.length ≤ max)) :
    (bytesWithin max).ofTree (.bytes s) = none := by
  rw [bytesWithin, andThen_ofTree, bstr_ofTree, Option.bind_some, if_pos (by
    simpa [or_iff_not_imp_left] using h)]
  rfl

/-! ## Skipping, records and lists -/

/-- A value that is passed over. -/
def skip (s : σ) : CborDecoder σ where
  read r := do
    let r ← r.skipValue
    return (s, r)
  ofTree _ := some s
  takes := (takes_skipValue.map fun _ => s).congr (fun r => by cases r.skipValue <;> rfl) (fun _ => rfl)

/-- A map, with a decoder for each key. -/
def record (init : σ) (field : Nat → σ → CborDecoder σ) : CborDecoder σ where
  read r := do
    let (n, r) ← r.readMapHeader
    pairs (fun k s => (field k s).read) n init r
  ofTree
    | .map ps => ps.foldlM (fun s p => (field p.1 s).ofTree p.2) init
    | _ => none
  takes := (takes_map (fun k s => (field k s).takes.mono (Nat.zero_le _)) (fun _ => False) .malformed (fun _ => init)
    (fun _ s => s)).congr (fun r => by
      congr 1
      funext ⟨n, r'⟩
      dsimp only
      rw [if_neg not_false]
      cases pairs (fun k s => (field k s).read) n init r' <;> rfl) (fun t => by
      cases t <;> simp)

/-- An array, whose items go into one state. -/
def array (bad : Nat → Prop) [DecidablePred bad] (e : DecodeError) (init : Nat → σ) (item : σ → CborDecoder σ)
    (done : Nat → σ → τ) : CborDecoder τ where
  read r := do
    let (n, r) ← r.readArrayHeader
    if bad n then .error e
    else
      let (s, r) ← items (fun s => (item s).read) n (init n) r
      return (done n s, r)
  ofTree
    | .array ts => if bad ts.length then none
      else (ts.foldlM (fun s t => (item s).ofTree t) (init ts.length)).map (done ts.length)
    | _ => none
  takes := (takes_array (fun s => (item s).takes.mono (Nat.zero_le _)) bad e init done).congr (fun _ => rfl)
    (fun t => by cases t <;> rfl)

/-- A list of at most `cap` items. -/
def list (cap : Nat) (item : CborDecoder α) : CborDecoder (List α) :=
  array (cap < ·) .capacityExceeded (fun _ => []) (fun l => item.map fun a => l ++ [a]) fun _ l => l

@[simp] theorem skip_ofTree (s : σ) (t : CborTree) : (skip s).ofTree t = some s := rfl

/-- A record folds its field decoder over the pairs. -/
@[simp] theorem record_ofTree (init : σ) (field : Nat → σ → CborDecoder σ) (ps : List (Nat × CborTree)) :
    (record init field).ofTree (.map ps) = ps.foldlM (fun s p => (field p.1 s).ofTree p.2) init := rfl

/-- A list of values that each read back is read back. -/
theorem foldlM_push (item : CborDecoder α) (f : β → CborTree) (g : β → α) (h : ∀ b, item.ofTree (f b) = some (g b))
    (l : List α) (bs : List β) :
    (bs.map f).foldlM (fun l t => (item.map fun a => l ++ [a]).ofTree t) l = some (l ++ bs.map g) := by
  induction bs generalizing l with
  | nil => simp
  | cons b bs ih =>
    rw [List.map_cons, List.foldlM_cons, map_ofTree, h, Option.map_some]
    exact (ih _).trans (by rw [List.append_assoc, List.map_cons, List.singleton_append])

/-- A list of encodings is read item by item. -/
theorem list_ofTree {cap : Nat} {item : CborDecoder α} {f : β → CborTree} {g : β → α}
    (h : ∀ b, item.ofTree (f b) = some (g b)) {bs : List β} (hcap : bs.length ≤ cap) :
    (list cap item).ofTree (.array (bs.map f)) = some (bs.map g) := by
  have hlen : ¬cap < (bs.map f).length := by rw [List.length_map]; omega
  simp only [list, array, if_neg hlen]
  rw [foldlM_push item f g h, Option.map_some, List.nil_append]

/-- What a list has read are its items, read one by one. -/
theorem foldlM_items {item : CborDecoder α} {ts : List CborTree} {l l' : List α}
    (h : ts.foldlM (fun l t => (item.map fun a => l ++ [a]).ofTree t) l = some l') :
    ∃ as, l' = l ++ as ∧ List.Forall₂ (fun t a => item.ofTree t = some a) ts as := by
  induction ts generalizing l with
  | nil =>
    obtain rfl := Option.some.inj h
    exact ⟨[], by simp, .nil⟩
  | cons t ts ih =>
    rw [List.foldlM_cons] at h
    obtain ⟨l₁, hl₁, h⟩ := Option.bind_eq_some_iff.mp h
    obtain ⟨a, ha, rfl⟩ := Option.map_eq_some_iff.mp hl₁
    obtain ⟨as, rfl, has⟩ := ih h
    exact ⟨a :: as, by rw [List.append_assoc, List.singleton_append], .cons ha has⟩

/-- What is read as a list is an array, item by item. -/
theorem list_some {cap : Nat} {item : CborDecoder α} {t : CborTree} {l : List α}
    (h : (list cap item).ofTree t = some l) :
    ∃ ts, t = .array ts ∧ List.Forall₂ (fun t a => item.ofTree t = some a) ts l := by
  cases t with
  | array ts =>
    simp only [list, array] at h
    split_ifs at h
    obtain ⟨l', hl', rfl⟩ := Option.map_eq_some_iff.mp h
    obtain ⟨as, rfl, has⟩ := foldlM_items hl'
    exact ⟨ts, rfl, has⟩
  | _ => cases h

/-! ## What a record keeps of a key -/

section Keys

variable {f : σ → Nat × CborTree → Option σ} {γ : Type} (get : σ → γ) {k : Nat}

/-- What the other keys leave alone. -/
theorem foldlM_other (hother : ∀ s p s', p.1 ≠ k → f s p = some s' → get s' = get s) {ps : List (Nat × CborTree)}
    {s s' : σ} (hps : ∀ p ∈ ps, p.1 ≠ k) (h : ps.foldlM f s = some s') : get s' = get s := by
  induction ps generalizing s with
  | nil =>
    obtain rfl := Option.some.inj h
    rfl
  | cons p ps ih =>
    obtain ⟨hp, hps⟩ := List.forall_mem_cons.mp hps
    rw [List.foldlM_cons] at h
    obtain ⟨s₁, hs₁, h⟩ := Option.bind_eq_some_iff.mp h
    exact (ih hps h).trans (hother s p s₁ hp hs₁)

/-- What depends on one key is what that key made of it. -/
theorem foldlM_get (hother : ∀ s p s', p.1 ≠ k → f s p = some s' → get s' = get s) {ps : List (Nat × CborTree)}
    {s s' : σ} (hasc : CborTree.Ascending ps) (h : ps.foldlM f s = some s') :
    (ps.lookup k = none ∧ get s' = get s) ∨
      ∃ v s₁ s₂, ps.lookup k = some v ∧ f s₁ (k, v) = some s₂ ∧ get s' = get s₂ := by
  induction ps generalizing s with
  | nil =>
    obtain rfl := Option.some.inj h
    exact .inl ⟨rfl, rfl⟩
  | cons p ps ih =>
    obtain ⟨j, v⟩ := p
    obtain ⟨hfirst, hasc⟩ := List.pairwise_cons.mp hasc
    rw [List.foldlM_cons] at h
    obtain ⟨s₁, hs₁, h⟩ := Option.bind_eq_some_iff.mp h
    by_cases hj : j = k
    · subst hj
      have hps : ∀ p ∈ ps, p.1 ≠ j := fun p hp => (hfirst p.1 (List.mem_map_of_mem hp)).ne'
      exact .inr ⟨v, s, s₁, by simp, hs₁, foldlM_other get hother hps h⟩
    · rw [List.lookup_cons, show (k == j) = false by simpa using Ne.symm hj]
      rcases ih hasc h with ⟨hnone, hget⟩ | hsome
      · exact .inl ⟨hnone, hget.trans (hother s (j, v) s₁ hj hs₁)⟩
      · exact .inr hsome

end Keys

/-- What `get` sees of a state is not changed.  For the keys of a record `simp` shows it branch by branch. -/
def Keeps {γ : Type} (get : σ → γ) (s : σ) (d : CborDecoder σ) : Prop := ∀ v s', d.ofTree v = some s' → get s' = get s

section Keeps

variable {γ : Type} {get : σ → γ} {s : σ}

/-- A key that is skipped keeps every field. -/
@[simp] theorem keeps_skip : Keeps get s (skip s) := by
  intro v s' h
  obtain rfl := Option.some.inj h
  rfl

/-- A key keeps the fields it does not set. -/
@[simp] theorem keeps_map {d : CborDecoder α} {set : α → σ} (h : ∀ a, get (set a) = get s) : Keeps get s (d.map set) := by
  intro v s' hv
  obtain ⟨a, -, rfl⟩ := Option.map_eq_some_iff.mp hv
  exact h a

/-- A choice between keys keeps what both sides keep. -/
@[simp] theorem keeps_ite {c : Prop} [Decidable c] {d d' : CborDecoder σ} :
    Keeps get s (if c then d else d') ↔ (c → Keeps get s d) ∧ (¬c → Keeps get s d') := by
  by_cases hc : c <;> simp [hc]

end Keeps

/-- **What a record makes of one key.** -/
theorem record_get {γ : Type} (get : σ → γ) (k : Nat) {init s : σ} {field : Nat → σ → CborDecoder σ} {t : CborTree}
    {d : Nat} (hother : ∀ j s, j ≠ k → Keeps get s (field j s)) (ht : CborTree.Fits d t)
    (h : (record init field).ofTree t = some s) :
    (t.get k = none ∧ get s = get init) ∨
      ∃ v s₁ s₂, t.get k = some v ∧ (field k s₁).ofTree v = some s₂ ∧ get s = get s₂ := by
  cases ht with
  | map _ hasc _ _ =>
    exact foldlM_get get (f := fun s p => (field p.1 s).ofTree p.2) (fun s p s' hp => hother p.1 s hp p.2 s') hasc h
  | _ => cases h

/-! ## Whole messages -/

/-- Decode the value at the head of the bytes. -/
def run (d : CborDecoder α) (bs : Bytes) : Except DecodeError α := do
  let (a, _) ← d.read { rest := bs }
  return a

/-- **What a decoder accepts starts with the encoding of a tree it makes something of.** -/
theorem run_ok {d : CborDecoder α} {bs : Bytes} {a : α} :
    d.run bs = .ok a ↔ ∃ t rest, CborTree.Fits kMaxDepth t ∧ bs = t.encode ++ rest ∧ d.ofTree t = some a := by
  constructor
  · intro h
    obtain ⟨⟨b, r⟩, hread, hb⟩ := bind_ok h
    obtain rfl : b = a := Except.ok.inj hb
    obtain ⟨t, ht, hbs, -, hof⟩ := d.takes.sound (Nat.zero_le _) (Nat.zero_le _) hread
    exact ⟨t, r.rest, ht, hbs, hof⟩
  · rintro ⟨t, rest, ht, rfl, hof⟩
    have hread := d.takes.complete (u := rest) (s := []) (Nat.zero_le _) (Nat.zero_le _) ht hof
    rw [run, hread]
    rfl

/-- An encoding is decoded to what the decoder makes of its tree. -/
theorem run_encode {d : CborDecoder α} {t : CborTree} {u : Bytes} {a : α} (ht : CborTree.Fits kMaxDepth t) :
    d.run (t.encode ++ u) = .ok a ↔ d.ofTree t = some a := by
  rw [run_ok]
  constructor
  · rintro ⟨u, rest', hu, hbs, hof⟩
    obtain ⟨rfl, -⟩ := CborTree.encode_unique ht hu hbs
    exact hof
  · exact fun hof => ⟨t, u, ht, rfl, hof⟩

/-- A message that is made of what was read. -/
theorem run_bind_encode {d : CborDecoder α} {k : α → Except DecodeError β} {t : CborTree} {b : β}
    (ht : CborTree.Fits kMaxDepth t) :
    (do let a ← d.run t.encode; k a) = .ok b ↔ ∃ a, d.ofTree t = some a ∧ k a = .ok b := by
  constructor
  · intro h
    obtain ⟨a, ha, hb⟩ := bind_ok h
    have hrun := run_encode (d := d) (u := []) (a := a) ht
    rw [List.append_nil] at hrun
    exact ⟨a, hrun.mp ha, hb⟩
  · rintro ⟨a, ha, hb⟩
    have hrun := (run_encode (u := []) ht).mpr ha
    rw [List.append_nil] at hrun
    rw [hrun]
    exact hb

end CborDecoder

end SlopSync
