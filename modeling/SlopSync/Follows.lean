import Mathlib.Data.List.Basic

/-! # Following a specification

A program and its specification take the same operations.  `Follows` says that the program is defined, that it answers as
the specification does and that the two states stay related; `Along` says that a condition holds of every operation in the
state in which the specification meets it.  One step at a time is enough (`follows_iff`, `follows_of_steps`). -/

namespace Following

variable {σ τ υ op out : Type} {R R' : σ → τ → Prop} {Q : σ → υ → Prop} {step : σ → op → Option (out × σ)}
  {spec : τ → op → out × τ} {spec' : υ → op → out × υ} {Ok : τ → op → Prop} {s : σ} {t : τ} {u : υ} {ops : List op}

/-- A step that is `none` is undefined. -/
def Follows (R : σ → τ → Prop) (step : σ → op → Option (out × σ)) (spec : τ → op → out × τ) : σ → τ → List op → Prop
  | s, t, [] => R s t
  | s, t, a :: ops => R s t ∧ ∃ s', step s a = some ((spec t a).1, s') ∧ Follows R step spec s' (spec t a).2 ops

def Along (spec : τ → op → out × τ) (Ok : τ → op → Prop) : τ → List op → Prop
  | _, [] => True
  | t, a :: ops => Ok t a ∧ Along spec Ok (spec t a).2 ops

theorem Follows.start (h : Follows R step spec s t ops) : R s t := by
  cases ops with
  | nil => exact h
  | cons a ops => exact h.1

theorem Follows.mono (hR : ∀ s t, R s t → R' s t) (h : Follows R step spec s t ops) : Follows R' step spec s t ops := by
  induction ops generalizing s t with
  | nil => exact hR s t h
  | cons a ops ih =>
    obtain ⟨hst, s', hstep, hrest⟩ := h
    exact ⟨hR s t hst, s', hstep, ih hrest⟩

/-- If the condition decides each step, it decides the run. -/
theorem follows_iff (hstep : ∀ s t a, R s t → ((∃ s', step s a = some ((spec t a).1, s') ∧ R s' (spec t a).2) ↔ Ok t a))
    (h : R s t) : Follows R step spec s t ops ↔ Along spec Ok t ops := by
  induction ops generalizing s t with
  | nil => exact iff_of_true h trivial
  | cons a ops ih =>
    constructor
    · rintro ⟨-, s', heq, hrest⟩
      exact ⟨(hstep s t a h).mp ⟨s', heq, hrest.start⟩, (ih hrest.start).mp hrest⟩
    · rintro ⟨hok, hrest⟩
      obtain ⟨s', heq, hR⟩ := (hstep s t a h).mpr hok
      exact ⟨h, s', heq, (ih hR).mpr hrest⟩

/-- If no step goes wrong, no run does. -/
theorem follows_of_steps (hstep : ∀ s t a, R s t → ∃ s', step s a = some ((spec t a).1, s') ∧ R s' (spec t a).2)
    (h : R s t) : Follows R step spec s t ops := by
  induction ops generalizing s t with
  | nil => exact h
  | cons a ops ih =>
    obtain ⟨s', heq, hR⟩ := hstep s t a h
    exact ⟨h, s', heq, ih hR⟩

/-- Of a program that is always defined. -/
theorem follows_of_total {run : σ → op → out × σ}
    (hstep : ∀ s t a, R s t → (run s a).1 = (spec t a).1 ∧ R (run s a).2 (spec t a).2) (h : R s t) :
    Follows R (fun s a => some (run s a)) spec s t ops := by
  refine follows_of_steps (fun s t a h => ?_) h
  obtain ⟨hout, hR⟩ := hstep s t a h
  exact ⟨(run s a).2, by rw [← hout], hR⟩

/-- Two specifications of one program agree. -/
theorem Follows.between (h : Follows R step spec s t ops) (h' : Follows Q step spec' s u ops) :
    Follows (fun t u => ∃ s, R s t ∧ Q s u) (fun t a => some (spec t a)) spec' t u ops := by
  induction ops generalizing s t u with
  | nil => exact ⟨s, h, h'⟩
  | cons a ops ih =>
    obtain ⟨hst, s', hstep, hrest⟩ := h
    obtain ⟨hsu, s'', hstep', hrest'⟩ := h'
    rw [hstep] at hstep'
    obtain ⟨hanswer, rfl⟩ := Prod.mk.inj (Option.some.inj hstep')
    exact ⟨⟨s, hst, hsu⟩, (spec t a).2, by rw [← hanswer], ih hrest hrest'⟩

end Following
