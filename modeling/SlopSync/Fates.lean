import SlopSync.Keyed

/-! # Queues that forget

A queue of bounded depth forgets its oldest element to take a new one.  What was given to it is still there, was taken at
the front or was forgotten, each once and in the order in which it came (`Accounts`). -/

namespace Fates

open Keyed

variable {α : Type} {depth forgotten : Nat} {given queued taken : List α} {a : α}

inductive Fate
  | taken | forgotten
  deriving DecidableEq, Repr

/-- The elements with this fate, in order. -/
def having (f : Fate) (left : List (α × Fate)) : List α := (left.filter fun x => x.2 = f).map Prod.fst

theorem having_concat (f : Fate) (left : List (α × Fate)) (x : α × Fate) :
    having f (left ++ [x]) = having f left ++ if x.2 = f then [x.1] else [] := by
  unfold having
  rw [List.filter_append, List.map_append]
  by_cases hx : x.2 = f <;> simp [hx]

/-- Those that left the queue, each with its fate, are followed by those that are in it. -/
def Accounts (given queued taken : List α) (forgotten : Nat) : Prop :=
  ∃ left : List (α × Fate), given = left.map Prod.fst ++ queued ∧ taken = having .taken left ∧
    forgotten = (having .forgotten left).length

theorem Accounts.take (h : Accounts given (a :: queued) taken forgotten) :
    Accounts given queued (taken ++ [a]) forgotten := by
  obtain ⟨left, hgiven, htaken, hforgotten⟩ := h
  refine ⟨left ++ [(a, .taken)], ?_, ?_, ?_⟩
  · rw [hgiven, List.map_append, List.append_assoc]
    rfl
  · rw [having_concat, if_pos rfl, htaken]
  · rw [having_concat, if_neg Fate.noConfusion, List.append_nil, hforgotten]

theorem Accounts.forget (h : Accounts given (a :: queued) taken forgotten) :
    Accounts given queued taken (forgotten + 1) := by
  obtain ⟨left, hgiven, htaken, hforgotten⟩ := h
  refine ⟨left ++ [(a, .forgotten)], ?_, ?_, ?_⟩
  · rw [hgiven, List.map_append, List.append_assoc]
    rfl
  · rw [having_concat, if_neg Fate.noConfusion, List.append_nil, htaken]
  · rw [having_concat, if_pos rfl, List.length_append, hforgotten]
    rfl

theorem Accounts.add (h : Accounts given queued taken forgotten) (a : α) :
    Accounts (given ++ [a]) (queued ++ [a]) taken forgotten := by
  obtain ⟨left, hgiven, hleft⟩ := h
  exact ⟨left, by rw [hgiven, List.append_assoc], hleft⟩

/-- One more is given, at the cost of the oldest one when the queue is full. -/
theorem Accounts.give (hdepth : 0 < depth) (h : Accounts given queued taken forgotten) (a : α) :
    Accounts (given ++ [a]) (dropOldest depth queued a) taken
      (if queued.length = depth then forgotten + 1 else forgotten) := by
  unfold dropOldest
  split
  · rename_i hfull
    cases queued with
    | nil =>
      rw [List.length_nil] at hfull
      omega
    | cons b queued => exact h.forget.add a
  · exact h.add a

end Fates
