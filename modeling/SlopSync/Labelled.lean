import Mathlib.Logic.Relation

/-! # Labelled transition systems

`Path R P a b`: a finite run of `R` from `a` to `b` whose labels all satisfy `P`.  Invariants are proved one
transition at a time (`Path.invariant`), and a run whose labels are known leaves alone whatever these labels
leave alone (`Path.frame`). -/

namespace Labelled

variable {σ lab : Type} {R : lab → σ → σ → Prop} {P Q : lab → Prop} {a b c : σ}

def Path (R : lab → σ → σ → Prop) (P : lab → Prop) : σ → σ → Prop :=
  Relation.ReflTransGen fun a b => ∃ l, P l ∧ R l a b

namespace Path

protected theorem refl (a : σ) : Path R P a a := Relation.ReflTransGen.refl

theorem single {l : lab} (hl : P l) (h : R l a b) : Path R P a b := Relation.ReflTransGen.single ⟨l, hl, h⟩

protected theorem trans (h₁ : Path R P a b) (h₂ : Path R P b c) : Path R P a c :=
  Relation.ReflTransGen.trans h₁ h₂

theorem mono (h : Path R P a b) (hPQ : ∀ l, P l → Q l) : Path R Q a b :=
  Relation.ReflTransGen.mono (fun _ _ ⟨l, hl, hr⟩ => ⟨l, hPQ l hl, hr⟩) a b h

theorem of_eq (h : a = b) : Path R P a b := h ▸ Path.refl a

/-- What every allowed transition preserves holds at the end of a run. -/
theorem invariant {I : σ → Prop} (h : Path R P a b) (hI : ∀ l x y, P l → R l x y → I x → I y) (ha : I a) :
    I b := by
  induction h with
  | refl => exact ha
  | tail _ hstep ih =>
    obtain ⟨l, hl, hr⟩ := hstep
    exact hI l _ _ hl hr ih

/-- What no allowed transition changes is the same at both ends of a run. -/
theorem frame {β : Type} {f : σ → β} (h : Path R P a b) (hf : ∀ l x y, P l → R l x y → f y = f x) :
    f b = f a :=
  h.invariant (I := fun x => f x = f a) (fun l x y hl hr hx => (hf l x y hl hr).trans hx) rfl

/-- A fold whose every step is a run. -/
theorem foldl {τ α : Type} (view : τ → σ) {f : τ → α → τ} (hf : ∀ t a, Path R P (view t) (view (f t a))) :
    ∀ (l : List α) (t : τ), Path R P (view t) (view (l.foldl f t))
  | [], t => Path.refl (view t)
  | x :: l, t => (hf t x).trans (foldl view hf l (f t x))

end Path

end Labelled
