import SlopSync.Messages
import SlopSync.Profile.Decoder

/-! # Optional fields

An encoder leaves a field out when there is nothing to say (`CborWriter.optKey`); as a tree, the field is a pair or none
(`optPair`). -/

namespace SlopSync

open CborWriter CborReader

variable {α β γ σ : Type}

def optPair (k : Nat) (o : Option α) (f : α → CborTree) : List (Nat × CborTree) :=
  match o with
  | none => []
  | some a => [(k, f a)]

@[simp] theorem optPair_none (k : Nat) (f : α → CborTree) : optPair k none f = [] := rfl

@[simp] theorem optPair_some (k : Nat) (a : α) (f : α → CborTree) : optPair k (some a) f = [(k, f a)] := rfl

/-- An optional field adds a pair exactly when it is counted. -/
@[simp] theorem length_optPair (k : Nat) (o : Option α) (f : α → CborTree) : (optPair k o f).length = optCount o := by
  cases o <;> rfl

/-- An optional field counts at most once. -/
theorem optCount_le (o : Option α) : optCount o ≤ 1 := by
  cases o <;> simp [optCount]

/-- What holds of an optional pair holds of its value. -/
@[simp] theorem forall_mem_optPair {k : Nat} {o : Option α} {f : α → CborTree} {P : Nat × CborTree → Prop} :
    (∀ p ∈ optPair k o f, P p) ↔ ∀ a ∈ o, P (k, f a) := by
  cases o <;> simp

/-- A field that is given is among the pairs. -/
theorem mem_optPair {k : Nat} {o : Option α} {f : α → CborTree} {a : α} (h : a ∈ o) : (k, f a) ∈ optPair k o f := by
  obtain rfl := Option.mem_def.mp h
  exact List.mem_singleton_self _

/-- An integer that is left out when it is zero. -/
def nonzero (v : UInt32) : Option UInt32 := if v = 0 then none else some v

/-- A number that is written only when it is not zero is read back with zero for absent. -/
theorem getD_nonzero (v : UInt32) : (nonzero v).getD 0 = v := by
  unfold nonzero
  split_ifs with h
  · exact h.symm
  · rfl

/-- The bytes of a fixed-size array. -/
def CborTree.arr {n : Nat} (a : ByteArr n) : CborTree := .bytes a.val

/-- Items written one after the other. -/
theorem foldl_emit {f : α → CborTree} {g : CborWriter → α → CborWriter} (h : ∀ a w, g w a = emit (f a) w) (l : List α)
    (w : CborWriter) : l.foldl g w = emitItems (l.map f) w := by
  induction l generalizing w with
  | nil => rfl
  | cons a l ih =>
    rw [List.foldl_cons, h]
    exact ih _

/-- An array of what the items stand for. -/
def CborTree.arrayOf (f : α → CborTree) (l : List α) : CborTree := .array (l.map f)

section OptKey

variable (k : Nat) (w : CborWriter)

/-- An optional field is written as its pair is. -/
theorem emitPairs_optPair (o : Option α) (f : α → CborTree) :
    emitPairs (optPair k o f) w = w.optKey k o fun w a => emit (f a) w := by
  cases o <;> rfl

/-- An optional text is emitted as its key and the text. -/
@[simp] theorem emitPairs_text (o : Option Bytes) : emitPairs (optPair k o .text) w = w.optKey k o tstrVal :=
  emitPairs_optPair ..

/-- An optional byte string is emitted as its key and the bytes. -/
@[simp] theorem emitPairs_bytes (o : Option Bytes) : emitPairs (optPair k o .bytes) w = w.optKey k o bstrVal :=
  emitPairs_optPair ..

/-- An optional fixed-size byte string is emitted as its key and the bytes. -/
@[simp] theorem emitPairs_arr {n : Nat} (o : Option (ByteArr n)) :
    emitPairs (optPair k o .arr) w = w.optKey k o fun w b => w.bstrVal b.val :=
  emitPairs_optPair ..

@[simp] theorem emitPairs_bool (o : Option Bool) : emitPairs (optPair k o .bool) w = w.optKey k o boolVal :=
  emitPairs_optPair ..

@[simp] theorem emitPairs_f32 (o : Option UInt32) : emitPairs (optPair k o .f32) w = w.optKey k o f32Val :=
  emitPairs_optPair ..

@[simp] theorem emitPairs_u8 (o : Option UInt8) :
    emitPairs (optPair k o .u8) w = w.optKey k o fun w v => w.uintVal v.toNat :=
  emitPairs_optPair ..

@[simp] theorem emitPairs_u16 (o : Option UInt16) :
    emitPairs (optPair k o .u16) w = w.optKey k o fun w v => w.uintVal v.toNat :=
  emitPairs_optPair ..

@[simp] theorem emitPairs_u32 (o : Option UInt32) :
    emitPairs (optPair k o .u32) w = w.optKey k o fun w v => w.uintVal v.toNat :=
  emitPairs_optPair ..

/-- An optional unsigned field is emitted as its key and the number. -/
@[simp] theorem emitPairs_u64 (o : Option UInt64) :
    emitPairs (optPair k o .u64) w = w.optKey k o fun w v => w.uintVal v.toNat :=
  emitPairs_optPair ..

/-- An optional array is written when it is there. -/
theorem emitPairs_arrayOf {f : α → CborTree} {g : CborWriter → α → CborWriter} (h : ∀ a w, g w a = emit (f a) w)
    (o : Option (List α)) :
    emitPairs (optPair k o (.arrayOf f)) w = w.optKey k o fun w l => l.foldl g (w.arrayHeader l.length) := by
  cases o with
  | none => rfl
  | some l =>
    simp only [optPair_some, emitPairs_cons, emitPairs_nil, CborTree.arrayOf, emit, List.length_map, optKey]
    exact (foldl_emit h l _).symm

end OptKey

/-- An array of typed items, of a length that can be written, is typed. -/
theorem typed_arrayOf {f : α → CborTree} {l : List α} (hf : ∀ a, Typed (f a)) (hl : l.length < 2 ^ 32) :
    Typed (.arrayOf f l) := by
  refine .array (by rwa [List.length_map]) fun t ht => ?_
  obtain ⟨a, -, rfl⟩ := List.mem_map.mp ht
  exact hf a

/-- A field that may be absent. -/
theorem foldlM_optPair (set : σ → Option β → σ) (g : α → β) {step : σ → Nat × CborTree → Option σ} {k : Nat}
    {o : Option α} {f : α → CborTree} {s : σ} {l : List (Nat × CborTree)} (hnone : set s none = s)
    (hsome : ∀ a ∈ o, step s (k, f a) = some (set s (some (g a)))) :
    (optPair k o f ++ l).foldlM step s = l.foldlM step (set s (o.map g)) := by
  cases o with
  | none => rw [optPair_none, List.nil_append, Option.map_none, hnone]
  | some a =>
    rw [optPair_some, List.singleton_append, List.foldlM_cons, hsome a rfl]
    rfl

/-- An optional pair read after the others sets its field. -/
theorem foldlM_optPair_last (set : σ → Option β → σ) (g : α → β) {step : σ → Nat × CborTree → Option σ} {k : Nat}
    {o : Option α} {f : α → CborTree} {s : σ} (hnone : set s none = s)
    (hsome : ∀ a ∈ o, step s (k, f a) = some (set s (some (g a)))) :
    (optPair k o f).foldlM step s = some (set s (o.map g)) := by
  have h := foldlM_optPair (l := []) set g hnone hsome
  rwa [List.append_nil] at h

/-- The fields that are always there. -/
theorem foldlM_resume (s' : σ) {step : σ → α → Option σ} {l l' : List α} {s : σ} (h : l.foldlM step s = some s') :
    (l ++ l').foldlM step s = l'.foldlM step s' := by
  rw [List.foldlM_append, h]
  rfl

/-- A pair that is refused wherever it stands. -/
theorem foldlM_none (step : σ → α → Option σ) {l : List α} {a : α} (ha : a ∈ l) (h : ∀ s, step s a = none) (s : σ) :
    l.foldlM step s = none := by
  induction l generalizing s with
  | nil => cases ha
  | cons b l ih =>
    rw [List.foldlM_cons]
    rcases List.mem_cons.mp ha with rfl | ha
    · rw [h]
      rfl
    · cases step s b with
      | none => rfl
      | some s' => exact ih ha s'

namespace CborDecoder

/-- A byte string of exactly `n` bytes. -/
def arr (n : Nat) : CborDecoder (ByteArr n) :=
  bstr.andThen fun s => if h : s.length = n then .ok ⟨s, h⟩ else .error .malformed

/-- A fixed-size byte string is read back from its tree. -/
@[simp] theorem arr_ofTree {n : Nat} (a : ByteArr n) : (arr n).ofTree (.arr a) = some a := by
  rw [arr, CborTree.arr, andThen_ofTree, bstr_ofTree, Option.bind_some, dif_pos a.property]
  rfl

end CborDecoder

end SlopSync
