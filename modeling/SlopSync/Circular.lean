import Mathlib.Data.List.OfFn
import Mathlib.Data.Nat.ModEq

/-! # Circular buffers

An array of `depth` slots with the next slot to write, the oldest one in use and their number.  What is in use is a list,
oldest first (`items`); a push that finds the buffer full forgets the head of that list (`items_push`), and the slots are
read from an index of one's own (`newest_eq`) or in the order of the array (`mem_front`). -/

structure Circular (σ : Type) (depth : Nat) where
  slots : Vector σ depth
  head : Nat
  tail : Nat
  count : Nat
  fits : count ≤ depth
  wraps : tail % depth = tail
  meets : head = (tail + count) % depth

namespace Circular

variable {σ α : Type} {depth : Nat} {f : σ → σ} {view : σ → α} {a : α} {s : σ} {i j : Nat}

/-- The last `n` of a list. -/
def keepLast (n : Nat) (l : List α) : List α := l.drop (l.length - n)

/-- Appending an element keeps one fewer of those before it. -/
theorem keepLast_concat {n : Nat} (hn : 0 < n) (l : List α) (a : α) : keepLast n (l ++ [a]) = keepLast (n - 1) l ++ [a] := by
  have hlen : l.length + 1 - n = l.length - (n - 1) := by omega
  simp only [keepLast, List.length_append, List.length_singleton, hlen]
  exact List.drop_append_of_le_length (Nat.sub_le _ _)

/-- `keepLast` keeps at most `n`. -/
theorem length_keepLast (n : Nat) (l : List α) : (keepLast n l).length = min n l.length := by
  simp only [keepLast, List.length_drop]
  omega

/-- Keeping the last commutes with a map. -/
theorem map_keepLast {β : Type} (g : α → β) (n : Nat) (l : List α) : (keepLast n l).map g = keepLast n (l.map g) := by
  simp [keepLast, List.map_drop]

def empty (s : σ) : Circular σ depth where
  slots := Vector.replicate depth s
  head := 0
  tail := 0
  count := 0
  fits := Nat.zero_le depth
  wraps := Nat.zero_mod depth
  meets := (Nat.zero_mod depth).symm

/-- The slot in use number `i`, the oldest first. -/
def nth (r : Circular σ depth) (i : Fin r.count) : σ :=
  have := Nat.mod_lt (r.tail + i) (Nat.lt_of_lt_of_le (Nat.zero_lt_of_lt i.2) r.fits)
  r.slots[(r.tail + i) % depth]

def items (view : σ → α) (r : Circular σ depth) : List α := List.ofFn fun i => view (r.nth i)

/-- Forget the oldest slot. -/
def dropOldest (r : Circular σ depth) (h : 0 < r.count) : Circular σ depth where
  slots := r.slots
  head := r.head
  tail := (r.tail + 1) % depth
  count := r.count - 1
  fits := Nat.le_trans (Nat.sub_le _ _) r.fits
  wraps := Nat.mod_mod _ _
  meets := by
    rw [Nat.mod_add_mod, r.meets]
    congr 1
    omega

theorem count_dropOldest (r : Circular σ depth) (h : 0 < r.count) : (r.dropOldest h).count = r.count - 1 := rfl

/-- Rewrite the slot at the head, which takes it into use. -/
def put (f : σ → σ) (r : Circular σ depth) (h : r.count < depth) : Circular σ depth :=
  have hhead : r.head < depth := r.meets ▸ Nat.mod_lt _ (Nat.zero_lt_of_lt h)
  { slots := r.slots.set r.head (f r.slots[r.head])
    head := (r.head + 1) % depth
    tail := r.tail
    count := r.count + 1
    fits := h
    wraps := r.wraps
    meets := by rw [r.meets, Nat.mod_add_mod, Nat.add_assoc] }

def push (f : σ → σ) (r : Circular σ depth) (hpos : 0 < depth) : Circular σ depth :=
  if h : r.count = depth then
    (r.dropOldest (by omega)).put f (by rw [count_dropOldest]; omega)
  else r.put f (Nat.lt_of_le_of_ne r.fits h)

/-! ## What is in use -/

@[simp] theorem items_empty : items view (empty s : Circular σ depth) = [] := rfl

/-- A buffer lists as many items as it counts. -/
@[simp] theorem length_items (r : Circular σ depth) : (r.items view).length = r.count := List.length_ofFn

theorem map_items (view : σ → α) (r : Circular σ depth) : (r.items id).map view = r.items view := by
  simp [items, List.map_ofFn, Function.comp_def]

/-- Offsets below `depth` lead to different slots. -/
theorem offset_inj {t : Nat} (hi : i < depth) (hj : j < depth) (h : (t + i) % depth = (t + j) % depth) : i = j := by
  have hmod : i ≡ j [MOD depth] := Nat.ModEq.add_left_cancel' t h
  rwa [Nat.ModEq, Nat.mod_eq_of_lt hi, Nat.mod_eq_of_lt hj] at hmod

@[simp] theorem getElem_items (r : Circular σ depth) (h : i < (r.items view).length) :
    (r.items view)[i] = view (r.nth ⟨i, by simpa using h⟩) := by simp [items]

/-- A put into a free cell leaves the items before it alone. -/
theorem nth_put_old (r : Circular σ depth) (h : r.count < depth) (hi : i < r.count) :
    (r.put f h).nth ⟨i, Nat.lt_succ_of_lt hi⟩ = r.nth ⟨i, hi⟩ := by
  have hne : r.head ≠ (r.tail + i) % depth := by
    rw [r.meets]
    intro heq
    have := offset_inj h (Nat.lt_trans hi h) heq
    omega
  have hhead : r.head < depth := r.meets ▸ Nat.mod_lt _ (Nat.zero_lt_of_lt h)
  exact Vector.getElem_set_ne hhead _ hne

/-- The cell that was put is the newest item. -/
theorem nth_put_new (r : Circular σ depth) (h : r.count < depth) (hhead : r.head < depth) :
    (r.put f h).nth ⟨r.count, Nat.lt_succ_self _⟩ = f r.slots[r.head] := by
  simp [nth, put, ← r.meets]

/-- A put into a free cell appends its item. -/
theorem items_put (hf : ∀ s, view (f s) = a) (r : Circular σ depth) (h : r.count < depth) :
    (r.put f h).items view = r.items view ++ [a] := by
  refine List.ext_getElem (by simp [put]) fun i hi hi' => ?_
  have hcount : i < r.count + 1 := by simpa using hi'
  rw [getElem_items]
  rcases Nat.lt_or_eq_of_le (Nat.le_of_lt_succ hcount) with hlt | rfl
  · rw [List.getElem_append_left (by simpa using hlt), getElem_items, nth_put_old r h hlt]
  · have hhead : r.head < depth := r.meets ▸ Nat.mod_lt _ (Nat.zero_lt_of_lt h)
    rw [List.getElem_append_right (by simp), nth_put_new r h hhead, hf]
    simp

/-- Dropping the oldest drops the first item. -/
theorem items_dropOldest (r : Circular σ depth) (h : 0 < r.count) : (r.dropOldest h).items view = (r.items view).drop 1 := by
  refine List.ext_getElem (by simp [dropOldest]) fun i hi hi' => ?_
  have hoffset : ((r.tail + 1) % depth + i) % depth = (r.tail + (1 + i)) % depth := by
    rw [Nat.mod_add_mod, Nat.add_assoc]
  rw [List.getElem_drop, getElem_items, getElem_items]
  simp only [nth, dropOldest, hoffset]

/-- A push keeps the newest items. -/
theorem items_push (hf : ∀ s, view (f s) = a) (r : Circular σ depth) (hpos : 0 < depth) :
    (r.push f hpos).items view = keepLast depth (r.items view ++ [a]) := by
  unfold push keepLast
  split
  · rename_i h
    rw [items_put hf, items_dropOldest]
    rw [List.length_append, length_items, List.length_singleton, h, Nat.add_sub_cancel_left, List.drop_append_of_le_length]
    rw [length_items]
    omega
  · rename_i h
    have hlen : (r.items view ++ [a]).length - depth = 0 := by
      have := r.fits
      simp
      omega
    rw [items_put hf, hlen, List.drop_zero]

/-- The oldest item. -/
theorem items_cons (r : Circular σ depth) (h : 0 < r.count) :
    r.items view = view (r.nth ⟨0, h⟩) :: (r.dropOldest h).items view := by
  have hlen : 0 < (r.items view).length := by simpa using h
  rw [items_dropOldest, ← getElem_items r hlen, List.getElem_cons_drop, List.drop_zero]

/-! ## Other orders of reading -/

/-- The newest `want`, oldest first, from an index of their own. -/
def newest (view : σ → α) (r : Circular σ depth) (want : Nat) : List α :=
  let n := min want r.count
  let start := (r.tail + (r.count - n)) % depth
  List.ofFn fun i : Fin n =>
    have := Nat.mod_lt (start + i)
      (Nat.lt_of_lt_of_le (Nat.lt_of_lt_of_le (Nat.zero_lt_of_lt i.2) (Nat.min_le_right want r.count)) r.fits)
    view r.slots[(start + i) % depth]

/-- The newest `want` items are the last of the list. -/
theorem newest_eq (r : Circular σ depth) (want : Nat) : r.newest view want = keepLast want (r.items view) := by
  refine List.ext_getElem ?_ fun i hi hi' => ?_
  · simp [newest, length_keepLast]
  · have hoffset : ((r.tail + (r.count - min want r.count)) % depth + i) % depth = (r.tail + (r.count - want + i)) % depth := by
      rw [Nat.mod_add_mod, Nat.add_assoc]
      congr 2
      omega
    simp only [keepLast, List.getElem_drop, getElem_items, newest, List.getElem_ofFn, nth, length_items, hoffset]

/-- The slots in use, in the order of the array. -/
def front (r : Circular σ depth) : List σ := r.slots.toList.take r.count

/-- A buffer that is filled from the first slot on uses the first slots. -/
theorem mem_front (r : Circular σ depth) (h : r.count < depth → r.tail = 0) : s ∈ r.front ↔ s ∈ r.items id := by
  have hfront : s ∈ r.front ↔ ∃ i, ∃ hi : i < depth, i < r.count ∧ r.slots[i] = s := by
    rw [front, List.mem_iff_getElem]
    constructor
    · rintro ⟨i, hi, rfl⟩
      simp at hi
      exact ⟨i, by omega, hi.1, by simp⟩
    · rintro ⟨i, hi, hcount, rfl⟩
      exact ⟨i, by simp; omega, by simp⟩
  have hitems : s ∈ r.items id ↔ ∃ i : Fin r.count, r.nth i = s := by simp [items, List.mem_ofFn]
  rw [hfront, hitems]
  constructor
  · rintro ⟨i, hi, hcount, rfl⟩
    by_cases hfull : r.count < depth
    · exact ⟨⟨i, hcount⟩, by simp [nth, h hfull, Nat.mod_eq_of_lt hi]⟩
    · -- all slots are in use, and the one at `i` comes `i - tail` after the oldest
      have hall : r.count = depth := Nat.le_antisymm r.fits (Nat.not_lt.mp hfull)
      have htail : r.tail < depth := r.wraps ▸ Nat.mod_lt _ (Nat.zero_lt_of_lt hi)
      refine ⟨⟨(i + (depth - r.tail)) % depth, by rw [hall]; exact Nat.mod_lt _ (by omega)⟩, ?_⟩
      have hoffset : (r.tail + (i + (depth - r.tail)) % depth) % depth = i := by
        rw [Nat.add_mod_mod, show r.tail + (i + (depth - r.tail)) = i + depth by omega, Nat.add_mod_right,
          Nat.mod_eq_of_lt hi]
      simp [nth, hoffset]
  · rintro ⟨i, rfl⟩
    have hdepth : 0 < depth := Nat.lt_of_lt_of_le (Nat.zero_lt_of_lt i.2) r.fits
    refine ⟨(r.tail + i) % depth, Nat.mod_lt _ hdepth, ?_, rfl⟩
    by_cases hfull : r.count < depth
    · rw [h hfull, Nat.zero_add, Nat.mod_eq_of_lt (by omega)]
      exact i.2
    · exact Nat.lt_of_lt_of_le (Nat.mod_lt _ hdepth) (Nat.not_lt.mp hfull)

end Circular
