import Mathlib.Algebra.Group.Nat.Defs
import Mathlib.Data.List.Basic
import Mathlib.Data.List.Infix

/-! # Append-only pools

An array that is filled from its first cell on, with the number of its cells in use in 16 bits.  Others point into it by an
offset and a length, and what they point at stays while the pool grows (`slice_grows`).  A push appends as long as there is
`Room` in the counter, which may have fewer numbers than the pool has cells. -/

structure Pool (α : Type) (cap : Nat) where
  cells : List α
  used : UInt16
  width : cells.length = cap
  fits : used.toNat ≤ cap

namespace Pool

variable {α : Type} {cap : Nat} {p q r : Pool α cap} {a : α} {l : List α} {n offset count : Nat} {f : α → α}

def empty (blank : α) : Pool α cap where
  cells := List.replicate cap blank
  used := 0
  width := List.length_replicate
  fits := Nat.zero_le cap

def live (p : Pool α cap) : List α := p.cells.take p.used.toNat

/-- A pool has as many live cells as `used` says. -/
@[simp] theorem length_live (p : Pool α cap) : p.live.length = p.used.toNat := by
  rw [live, List.length_take, p.width, Nat.min_eq_left p.fits]

/-- The counter can go on by `n`. -/
def Room (n : Nat) (p : Pool α cap) : Prop := cap < 2 ^ 16 ∨ p.used.toNat + n < 2 ^ 16

/-- Room for `n` more cells is room for fewer. -/
theorem Room.mono {k : Nat} (hle : k ≤ n) (h : p.Room n) : p.Room k := h.imp id fun h => by omega

/-- The cells stay as they are. -/
def clear (p : Pool α cap) : Pool α cap := { p with used := 0, fits := Nat.zero_le cap }

@[simp] theorem live_clear (p : Pool α cap) : p.clear.live = [] := rfl

def push (a : α) (p : Pool α cap) : Option (Pool α cap) :=
  if h : p.used.toNat < cap then
    some
      { cells := p.cells.set p.used.toNat a
        used := p.used + 1
        width := by rw [List.length_set, p.width]
        fits := by
          rw [UInt16.toNat_add]
          exact Nat.le_trans (Nat.mod_le _ _) h }
  else none

/-- A push that is taken raises `used` by one, as long as the counter has room. -/
theorem used_push (hroom : p.Room 1) (h : p.push a = some q) : q.used.toNat = p.used.toNat + 1 := by
  unfold push at h
  split at h
  · rename_i hlt
    cases h
    have hsmall : p.used.toNat + 1 < 2 ^ 16 := by
      rcases hroom with hcap | hroom
      · omega
      · exact hroom
    rw [UInt16.toNat_add, UInt16.toNat_one, Nat.mod_eq_of_lt hsmall]
  · cases h

/-- A push that is taken appends its element to the live cells. -/
theorem live_push (hroom : p.Room 1) (h : p.push a = some q) : q.live = p.live ++ [a] := by
  have hused := used_push hroom h
  unfold push at h
  split at h
  · rename_i hlt
    cases h
    have hin : p.used.toNat < (p.cells.set p.used.toNat a).length := by rw [List.length_set, p.width]; exact hlt
    simp only [live] at hused ⊢
    rw [hused, List.take_succ_eq_append_getElem hin, List.take_set_of_le (Nat.le_refl _)]
    simp
  · cases h

/-- After a push there is room for one cell less. -/
theorem Room.push (hroom : p.Room (n + 1)) (h : p.push a = some q) : q.Room n := by
  have hused := used_push (hroom.mono (Nat.le_add_left 1 n)) h
  refine hroom.imp id fun hlt => ?_
  omega

/-! ## Growth -/

def Grows (p q : Pool α cap) : Prop := p.live <+: q.live

theorem Grows.refl (p : Pool α cap) : p.Grows p := List.prefix_rfl

/-- Growth composes. -/
theorem Grows.trans (h : p.Grows q) (h' : q.Grows r) : p.Grows r := List.IsPrefix.trans h h'

theorem Grows.used_le (h : p.Grows q) : p.used.toNat ≤ q.used.toNat := by
  rw [← length_live p, ← length_live q]
  exact h.length_le

/-- A pool whose live cells are the old ones and more has grown. -/
theorem grows_of_append (h : q.live = p.live ++ l) : p.Grows q := ⟨l, h.symm⟩

/-- Push one after the other, until there is no cell left. -/
def pushAll : List α → Pool α cap → Bool × Pool α cap
  | [], p => (true, p)
  | a :: l, p => match p.push a with
    | none => (false, p)
    | some q => pushAll l q

/-- `pushAll` only grows the pool, and when it takes everything it appends the whole list. -/
theorem pushAll_spec (hroom : p.Room l.length) :
    p.Grows (pushAll l p).2 ∧ ((pushAll l p).1 = true → (pushAll l p).2.live = p.live ++ l) := by
  induction l generalizing p with
  | nil => exact ⟨Grows.refl p, fun _ => (List.append_nil _).symm⟩
  | cons a l ih =>
    unfold pushAll
    cases hpush : p.push a with
    | none => exact ⟨Grows.refl p, fun h => nomatch h⟩
    | some q =>
      have hlive := live_push (hroom.mono (Nat.le_add_left 1 l.length)) hpush
      obtain ⟨hgrows, hall⟩ := ih (hroom.push hpush)
      refine ⟨(grows_of_append hlive).trans hgrows, fun h => ?_⟩
      rw [hall h, hlive, List.append_assoc, List.singleton_append]

/-! ## Slices -/

/-- `count` cells from `offset` on, if they are in use. -/
def slice (p : Pool α cap) (offset count : Nat) : Option (List α) :=
  if offset + count ≤ p.used.toNat then some ((p.cells.drop offset).take count) else none

/-- A slice of live cells succeeds and is that stretch of the list. -/
theorem slice_eq (h : offset + count ≤ p.used.toNat) : p.slice offset count = some ((p.live.drop offset).take count) := by
  rw [slice, if_pos h, live, List.drop_take, List.take_take, Nat.min_eq_left (by omega)]

/-- A slice has as many elements as were asked for. -/
theorem length_slice (h : p.slice offset count = some l) : l.length = count := by
  unfold slice at h
  split at h
  · rename_i hle
    cases h
    have hfits := p.fits
    rw [List.length_take, List.length_drop, p.width]
    omega
  · cases h

/-- A slice of live cells reads the same after the pool has grown. -/
theorem slice_grows (hgrows : p.Grows q) (h : offset + count ≤ p.used.toNat) : q.slice offset count = p.slice offset count := by
  obtain ⟨l, hl⟩ := hgrows
  have hlen : offset + count ≤ p.live.length := by rwa [length_live]
  rw [slice_eq h, slice_eq (h.trans (Grows.used_le ⟨l, hl⟩)), ← hl, List.drop_append_of_le_length (by omega),
    List.take_append_of_le_length (by rw [List.length_drop]; omega)]

/-- An empty slice, in use or not. -/
theorem slice_zero (p : Pool α cap) (offset : Nat) : (p.slice offset 0).getD [] = [] := by
  unfold slice
  split <;> rfl

/-- A slice that reaches to the end grows with the pool. -/
theorem slice_push (hlive : q.live = p.live ++ [a]) (h : offset + count = p.used.toNat) :
    ∃ l, p.slice offset count = some l ∧ q.slice offset (count + 1) = some (l ++ [a]) := by
  have hp : offset + count ≤ p.live.length := by rw [length_live, h]
  have hq : offset + (count + 1) ≤ q.used.toNat := by
    rw [← length_live q, hlive, List.length_append, length_live, ← h]
    exact Nat.le_refl _
  refine ⟨_, slice_eq (Nat.le_of_eq h), ?_⟩
  have hlen : (p.live.drop offset).length = count := by
    rw [List.length_drop, length_live]
    omega
  rw [slice_eq hq, hlive, List.drop_append_of_le_length (by omega), List.take_of_length_le (by simp [hlen]),
    List.take_of_length_le (Nat.le_of_eq hlen)]

/-! ## Rewriting a cell -/

def modify (i : Nat) (f : α → α) (p : Pool α cap) : Pool α cap where
  cells := p.cells.modify i f
  used := p.used
  width := by rw [List.length_modify, p.width]
  fits := p.fits

@[simp] theorem used_modify (i : Nat) (p : Pool α cap) : (p.modify i f).used = p.used := rfl

/-- Rewriting a cell rewrites the live list at that place. -/
theorem live_modify (i : Nat) (p : Pool α cap) : (p.modify i f).live = p.live.modify i f := by
  refine List.ext_getElem? fun j => ?_
  simp only [live, modify, List.getElem?_take, List.getElem?_modify]
  split <;> rfl

/-- Rewrite the cell behind `l`. -/
theorem live_modify_at {l l' : List α} (h : p.live = l ++ a :: l') : (p.modify l.length f).live = l ++ f a :: l' := by
  have hat : ∀ l : List α, (l ++ a :: l').modify l.length f = l ++ f a :: l' := by
    intro l
    induction l with
    | nil => rfl
    | cons b l ih => rw [List.cons_append, List.length_cons, List.modify_succ_cons, ih, List.cons_append]
  rw [live_modify, h, hat]

/-- Rewriting the newest cell rewrites the last of the live list. -/
theorem live_modify_last {l : List α} (h : p.live = l ++ [a]) : (p.modify (p.used.toNat - 1) f).live = l ++ [f a] := by
  have hlen : p.used.toNat - 1 = l.length := by rw [← length_live, h]; simp
  rw [hlen]
  exact live_modify_at h

end Pool
