import Mathlib.Data.List.Basic

/-! # Absorbing a message block by block

A state takes blocks of `k` elements; `absorb` feeds it the full blocks of a list and keeps what is left.

* `absorb_append` — it does not matter where the list is cut.
* `absorb_blocks` — a list of whole blocks is taken block by block, and nothing is left. -/

namespace SlopSync

variable {S T α : Type*}

/-- The state after the full blocks, and the rest of the list. -/
def absorb (k : Nat) (step : S → List α → S) (s : S) (l : List α) : S × List α :=
  if 0 < k ∧ k ≤ l.length then absorb k step (step s (l.take k)) (l.drop k) else (s, l)
termination_by l.length
decreasing_by
  rw [List.length_drop]
  omega

section

variable {k : Nat} {step : S → List α → S} {s : S} {l : List α}

theorem absorb_short (h : l.length < k) : absorb k step s l = (s, l) := by
  rw [absorb, if_neg (by omega)]

theorem absorb_block (hk : 0 < k) (h : k ≤ l.length) :
    absorb k step s l = absorb k step (step s (l.take k)) (l.drop k) := by
  rw [absorb, if_pos ⟨hk, h⟩]

/-- A block that is all there. -/
theorem absorb_full (hk : 0 < k) {block : List α} (h : block.length = k) (rest : List α) :
    absorb k step s (block ++ rest) = absorb k step (step s block) rest := by
  rw [absorb_block hk (by rw [List.length_append]; omega), List.take_left' h, List.drop_left' h]

theorem absorb_one (hk : 0 < k) {block : List α} (h : block.length = k) : absorb k step s block = (step s block, []) := by
  have hfull : absorb k step s (block ++ []) = absorb k step (step s block) [] := absorb_full hk h []
  rwa [List.append_nil, absorb_short (l := []) (by simpa using hk)] at hfull

theorem length_absorb (hk : 0 < k) : (absorb k step s l).2.length < k := by
  fun_induction absorb k step s l with
  | case1 s l h ih => exact ih
  | case2 s l h => exact Nat.lt_of_not_le fun hle => h ⟨hk, hle⟩

/-- What is left is what the length leaves. -/
theorem length_absorb_mod : (absorb k step s l).2.length % k = l.length % k := by
  fun_induction absorb k step s l with
  | case1 s l h ih => rw [ih, List.length_drop, Nat.mod_eq_sub_mod h.2]
  | case2 s l h => rfl

/-- **It does not matter where the list is cut.** -/
theorem absorb_append (hk : 0 < k) (l' : List α) :
    absorb k step s (l ++ l') = absorb k step (absorb k step s l).1 ((absorb k step s l).2 ++ l') := by
  fun_induction absorb k step s l with
  | case1 s l h ih =>
    have hcut : l ++ l' = l.take k ++ (l.drop k ++ l') := by rw [← List.append_assoc, List.take_append_drop]
    rw [hcut, absorb_full hk (List.length_take_of_le h.2), ih]
  | case2 s l h => rfl

/-- Whole blocks are taken one after the other. -/
theorem absorb_blocks (hk : 0 < k) (n : Nat) (h : l.length = k * n) :
    absorb k step s l = ((List.range n).foldl (fun s i => step s ((l.drop (k * i)).take k)) s, []) := by
  induction n generalizing s l with
  | zero =>
    rw [List.length_eq_zero_iff.mp h, absorb_short (by simpa using hk)]
    rfl
  | succ n ih =>
    have hle : k ≤ l.length := by rw [h, Nat.mul_succ]; omega
    rw [absorb_block hk hle, ih (by rw [List.length_drop, h, Nat.mul_succ]; omega), List.range_succ_eq_map, List.foldl_cons,
      List.foldl_map, Nat.mul_zero, List.drop_zero]
    simp only [List.drop_drop, Nat.mul_succ, Nat.add_comm]

end

/-- Two states that stay related as they take the same blocks. -/
theorem absorb_related {k : Nat} {step : S → List α → S} {step' : T → List α → T} (R : S → T → Prop) (hk : 0 < k)
    (hstep : ∀ s t block, block.length = k → R s t → R (step s block) (step' t block)) {s : S} {t : T} (l : List α)
    (h : R s t) :
    R (absorb k step s l).1 (absorb k step' t l).1 ∧ (absorb k step s l).2 = (absorb k step' t l).2 := by
  fun_induction absorb k step s l generalizing t with
  | case1 s l hfull ih =>
    rw [absorb_block hk hfull.2]
    exact ih (hstep _ _ _ (List.length_take_of_le hfull.2) h)
  | case2 s l hshort =>
    rw [absorb_short (Nat.lt_of_not_le fun hle => hshort ⟨hk, hle⟩)]
    exact ⟨h, rfl⟩

end SlopSync
