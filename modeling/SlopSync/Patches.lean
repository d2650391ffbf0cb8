import Mathlib.Data.List.Find
import Mathlib.Data.List.Induction

/-! # Patches

Pieces laid over a buffer one after the other, and which of them a position shows in the end.

- `getElem?_foldl_lay`: the last piece that covers a position is the one seen there;
- `writer_stretch_iff`: when a whole stretch shows one piece;
- `filled_iff`: of pieces on a grid, none longer than its cell, every position shows a piece of its own cell with some
  property exactly when the last piece that each cell received has it. -/

namespace Patches

section

variable {π α : Type} (off : π → Nat) (dat : π → List α)

/-- Lay one piece over the buffer. -/
def lay (buf : List α) (p : π) : List α := buf.take (off p) ++ dat p ++ buf.drop (off p + (dat p).length)

/-- The piece ends inside a buffer of this size. -/
def Fits (size : Nat) (p : π) : Prop := off p + (dat p).length ≤ size

def Covers (p : π) (m : Nat) : Prop := off p ≤ m ∧ m < off p + (dat p).length

instance (p : π) (m : Nat) : Decidable (Covers off dat p m) := inferInstanceAs (Decidable (_ ∧ _))

/-- The piece laid last over a position. -/
def writer (ps : List π) (m : Nat) : Option π := ps.reverse.find? fun p => decide (Covers off dat p m)

variable {off dat} {buf : List α} {p : π}

theorem length_lay (h : Fits off dat buf.length p) : (lay off dat buf p).length = buf.length := by
  unfold Fits at h
  simp only [lay, List.length_append, List.length_take, List.length_drop]
  omega

theorem getElem?_lay (h : Fits off dat buf.length p) (m : Nat) :
    (lay off dat buf p)[m]? = if Covers off dat p m then (dat p)[m - off p]? else buf[m]? := by
  unfold Fits at h
  have htake : (buf.take (off p)).length = off p := by
    rw [List.length_take]
    omega
  by_cases hlo : m < off p
  · rw [if_neg (fun hc => by have := hc.1; omega), lay, List.append_assoc, List.getElem?_append_left (by omega),
      List.getElem?_take_of_lt hlo]
  · rw [lay, List.append_assoc, List.getElem?_append_right (by omega), htake]
    by_cases hhi : m < off p + (dat p).length
    · rw [if_pos ⟨by omega, hhi⟩, List.getElem?_append_left (by omega)]
    · rw [if_neg (fun hc => hhi hc.2), List.getElem?_append_right (by omega), List.getElem?_drop]
      congr 1
      omega

theorem writer_append (ps : List π) (p : π) (m : Nat) :
    writer off dat (ps ++ [p]) m = if Covers off dat p m then some p else writer off dat ps m := by
  rw [writer, List.reverse_append, List.reverse_singleton, List.singleton_append, List.find?_cons]
  by_cases h : Covers off dat p m
  · rw [if_pos h, decide_eq_true h]
  · rw [if_neg h, decide_eq_false h]
    rfl

theorem length_foldl_lay : ∀ {ps : List π} {buf : List α}, (∀ p ∈ ps, Fits off dat buf.length p) →
    (ps.foldl (lay off dat) buf).length = buf.length
  | [], _, _ => rfl
  | p :: ps, buf, h => by
    have hlen := length_lay (h p List.mem_cons_self)
    rw [List.foldl_cons, length_foldl_lay fun q hq => by rw [hlen]; exact h q (List.mem_cons_of_mem p hq), hlen]

/-- **What is seen at a position is the piece laid last over it.** -/
theorem getElem?_foldl_lay (ps : List π) (h : ∀ p ∈ ps, Fits off dat buf.length p) (m : Nat) :
    (ps.foldl (lay off dat) buf)[m]? =
      (writer off dat ps m).elim buf[m]? fun p => (dat p)[m - off p]? := by
  induction ps using List.reverseRecOn with
  | nil => rfl
  | append_singleton ps p ih =>
    have hold : ∀ q ∈ ps, Fits off dat buf.length q := fun q hq => h q (List.mem_append_left _ hq)
    have hp : Fits off dat (ps.foldl (lay off dat) buf).length p := by
      rw [length_foldl_lay hold]
      exact h p (List.mem_append_right _ (List.mem_singleton_self p))
    rw [List.foldl_append, List.foldl_cons, List.foldl_nil, getElem?_lay hp, writer_append, ih hold]
    split <;> rfl

theorem mem_of_writer {ps : List π} {m : Nat} (h : writer off dat ps m = some p) : p ∈ ps ∧ Covers off dat p m := by
  have hc := List.find?_some h
  exact ⟨List.mem_reverse.mp (List.mem_of_find?_eq_some h), of_decide_eq_true hc⟩

theorem writer_of_unique {ps : List π} {m : Nat} (hp : p ∈ ps) (hc : Covers off dat p m)
    (huniq : ∀ q ∈ ps, Covers off dat q m → q = p) : writer off dat ps m = some p := by
  have hsome : (writer off dat ps m).isSome = true :=
    List.find?_isSome.mpr ⟨p, List.mem_reverse.mpr hp, decide_eq_true hc⟩
  obtain ⟨q, hq⟩ := Option.isSome_iff_exists.mp hsome
  obtain ⟨hmem, hcov⟩ := mem_of_writer hq
  rw [hq, huniq q hmem hcov]

/-- A stretch of positions shows one piece that starts with it: the piece is long enough, and none laid later reaches
into the stretch.  No two pieces that carry anything may start at the same place. -/
theorem writer_stretch_iff {ps : List π} {o n : Nat} {Q : π → Prop} (hn : 0 < n)
    (hinj : ∀ p ∈ ps, ∀ q ∈ ps, dat p ≠ [] → dat q ≠ [] → off p = off q → p = q) :
    (∀ m, o ≤ m → m < o + n → ∃ p, writer off dat ps m = some p ∧ off p = o ∧ Q p) ↔
      ∃ before p after, ps = before ++ p :: after ∧ off p = o ∧ Q p ∧ n ≤ (dat p).length ∧
        ∀ q ∈ after, ∀ m, o ≤ m → m < o + n → ¬Covers off dat q m := by
  have hne : ∀ {p m}, Covers off dat p m → dat p ≠ [] := by
    rintro p m ⟨hlo, hhi⟩ h
    rw [h] at hhi
    simp at hhi
    omega
  constructor
  · intro h
    -- the piece seen at the end of the stretch is the one seen everywhere
    obtain ⟨p, hp, hoff, hQ⟩ := h (o + n - 1) (by omega) (by omega)
    obtain ⟨hcov, later, before, hsplit, hlater⟩ := List.find?_eq_some_iff_append.mp hp
    have hcov' := of_decide_eq_true hcov
    have hps : ps = before.reverse ++ p :: later.reverse := by
      rw [← List.reverse_reverse ps, hsplit]
      simp
    refine ⟨before.reverse, p, later.reverse, hps, hoff, hQ, ?_, fun q hq m hlo hhi hqm => ?_⟩
    · have := hcov'.2
      omega
    · obtain ⟨p', hp', hoff', -⟩ := h m hlo hhi
      have hmem' := mem_of_writer hp'
      have hmem : p ∈ ps := by rw [hps]; simp
      have heq : p' = p := hinj p' hmem'.1 p hmem (hne hmem'.2) (hne hcov') (hoff'.trans hoff.symm)
      subst heq
      have hq' : q ∈ later := List.mem_reverse.mp hq
      rw [writer, hsplit, List.find?_append] at hp'
      have hfound : (later.find? fun p => decide (Covers off dat p m)).isSome = true :=
        List.find?_isSome.mpr ⟨q, hq', decide_eq_true hqm⟩
      obtain ⟨x, hx⟩ := Option.isSome_iff_exists.mp hfound
      rw [hx, Option.some_or, Option.some.injEq] at hp'
      subst hp'
      have hnot := hlater x (List.mem_of_find?_eq_some hx)
      rw [hcov] at hnot
      cases hnot
  · rintro ⟨before, p, after, rfl, hoff, hQ, hlen, hclear⟩ m hlo hhi
    refine ⟨p, List.find?_eq_some_iff_append.mpr ⟨decide_eq_true ⟨by omega, by omega⟩, after.reverse, before.reverse,
      by simp, fun q hq => ?_⟩, hoff, hQ⟩
    rw [Bool.not_eq_true', decide_eq_false_iff_not]
    exact hclear q (List.mem_reverse.mp hq) m hlo hhi

end

/-! ## Pieces on a grid -/

section

variable {π α : Type} (idx : π → Nat) (dat : π → List α) (unit : Nat)

/-- The last piece of a cell that carries anything. -/
def lastOf (ps : List π) (i : Nat) : Option π := ps.reverse.find? fun p => idx p == i && !(dat p).isEmpty

variable {idx dat unit} {ps : List π} {p : π} {m i : Nat}

theorem covers_grid_iff (hlen : (dat p).length ≤ unit) :
    Covers (fun p => idx p * unit) dat p m ↔ m / unit = idx p ∧ m % unit < (dat p).length := by
  have hdm := Nat.div_add_mod m unit
  rw [Nat.mul_comm] at hdm
  simp only [Covers]
  constructor
  · rintro ⟨hlo, hhi⟩
    have hdiv : m / unit = idx p := by
      apply Nat.div_eq_of_lt_le hlo
      rw [Nat.add_mul, Nat.one_mul]
      omega
    rw [hdiv] at hdm
    exact ⟨hdiv, by omega⟩
  · rintro ⟨hdiv, hmod⟩
    rw [hdiv] at hdm
    exact ⟨by omega, by omega⟩

/-- A piece no longer than its cell stays in it. -/
theorem stays_iff (hunit : 0 < unit) :
    (∀ m, Covers (fun p => idx p * unit) dat p m → m / unit = idx p) ↔ (dat p).length ≤ unit := by
  constructor
  · intro h
    by_contra hlt
    have hcovers : Covers (fun p => idx p * unit) dat p ((idx p + 1) * unit) := by
      simp only [Covers, Nat.add_mul, Nat.one_mul]
      omega
    have hout := h _ hcovers
    rw [Nat.mul_div_cancel _ hunit] at hout
    omega
  · exact fun hlen m hm => ((covers_grid_iff hlen).mp hm).1

/-- The first position of a cell shows its last piece. -/
theorem writer_grid (hunit : 0 < unit) (hlen : ∀ p ∈ ps, (dat p).length ≤ unit) :
    writer (fun p => idx p * unit) dat ps (i * unit) = lastOf idx dat ps i := by
  unfold writer lastOf
  refine List.find?_congr fun p hp => ?_
  have hgrid : Covers (fun p => idx p * unit) dat p (i * unit) ↔
      i * unit / unit = idx p ∧ i * unit % unit < (dat p).length := covers_grid_iff (hlen p (List.mem_reverse.mp hp))
  rw [Nat.mul_div_cancel _ hunit, Nat.mul_mod_left] at hgrid
  rw [Bool.eq_iff_iff, decide_eq_true_eq, hgrid]
  simp only [Bool.and_eq_true, beq_iff_eq, Bool.not_eq_true', List.isEmpty_eq_false_iff, List.length_pos_iff]
  exact and_congr_left fun _ => eq_comm

/-- And so does every position of the cell that the last piece reaches. -/
theorem writer_of_lastOf (hlen : ∀ p ∈ ps, (dat p).length ≤ unit) (hlast : lastOf idx dat ps (m / unit) = some p)
    (hreach : m % unit < (dat p).length) : writer (fun p => idx p * unit) dat ps m = some p := by
  obtain ⟨hp, before, after, hsplit, hnone⟩ := List.find?_eq_some_iff_append.mp hlast
  simp only [Bool.and_eq_true, beq_iff_eq] at hp
  have hmem : ∀ q ∈ before ++ p :: after, q ∈ ps := fun q hq => List.mem_reverse.mp (hsplit ▸ hq)
  refine List.find?_eq_some_iff_append.mpr ⟨?_, before, after, hsplit, fun q hq => ?_⟩
  · rw [decide_eq_true_eq, covers_grid_iff (hlen p (hmem p (by simp)))]
    exact ⟨hp.1.symm, hreach⟩
  · have hq' := hnone q hq
    rw [Bool.not_eq_true', decide_eq_false_iff_not, covers_grid_iff (hlen q (hmem q (by simp [hq])))]
    rintro ⟨hidx, hlt⟩
    simp only [hidx, beq_self_eq_true, Bool.true_and, Bool.not_not, List.isEmpty_iff] at hq'
    rw [hq'] at hlt
    simp at hlt

/-- **When every position shows a good piece of its own cell.**  `total` positions are looked at, and a good piece
fills what its cell has of them. -/
theorem filled_iff {total : Nat} {Q : π → Prop} (hunit : 0 < unit) (hlen : ∀ p ∈ ps, (dat p).length ≤ unit)
    (hQ : ∀ p, Q p → min unit (total - idx p * unit) ≤ (dat p).length) :
    (∀ m, m < total → ∃ p, writer (fun p => idx p * unit) dat ps m = some p ∧ m / unit = idx p ∧ Q p) ↔
      ∀ i, i * unit < total → ∃ p, lastOf idx dat ps i = some p ∧ Q p := by
  constructor
  · intro h i hi
    obtain ⟨p, hp, -, hgood⟩ := h (i * unit) hi
    rw [writer_grid hunit hlen] at hp
    exact ⟨p, hp, hgood⟩
  · intro h m hm
    have hdm := Nat.div_add_mod m unit
    rw [Nat.mul_comm] at hdm
    have hmod := Nat.mod_lt m hunit
    obtain ⟨p, hlast, hgood⟩ := h (m / unit) (by omega)
    have hidx : idx p = m / unit := by
      have := List.find?_some hlast
      simp only [Bool.and_eq_true, beq_iff_eq] at this
      exact this.1
    have hfull := hQ p hgood
    rw [hidx] at hfull
    exact ⟨p, writer_of_lastOf hlen hlast (by omega), hidx.symm, hgood⟩

end

end Patches
