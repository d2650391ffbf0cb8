import Mathlib.Data.List.Nodup
import Mathlib.Data.List.Range

/-! # Desks

A desk hands out tickets.  Each has a number of its own and a key, which may be used again later.  A ticket is open until
it is settled, by its key, or until the desk is cleared; what settles no open ticket changes nothing.

* `Desk.numbers_perm` — every ticket that was handed out is open or closed, and not twice.
* `Desk.settled` — while the open keys are distinct, what names a key leaves no ticket open under it.
* `Desk.nodup_keys` — keys that go around are distinct while no ticket is open for a whole round. -/

namespace SlopSync

structure Ticket (κ : Type) where
  number : Nat
  key : κ
  deriving DecidableEq, Repr

/-- `closed` has the last one first. -/
structure Desk (κ γ : Type) where
  issued : Nat := 0
  opened : List (Ticket κ) := []
  closed : List (Ticket κ × γ) := []

namespace Desk

variable {κ γ : Type} [DecidableEq κ] (d : Desk κ γ)

inductive Event (κ γ : Type)
  | issue (k : κ)
  | settle (k : κ) (why : γ)
  | clear (why : γ)
  deriving DecidableEq, Repr

def step : Event κ γ → Desk κ γ
  | .issue k => { d with issued := d.issued + 1, opened := d.opened ++ [⟨d.issued, k⟩] }
  | .settle k why =>
    { d with
      opened := d.opened.eraseP fun t => t.key = k
      closed := ((d.opened.find? fun t => t.key = k).map (·, why)).toList ++ d.closed }
  | .clear why => { d with opened := [], closed := (d.opened.map (·, why)).reverse ++ d.closed }

def keys : List κ := d.opened.map Ticket.key

/-- All tickets, open or closed. -/
def tickets : List (Ticket κ) := d.opened ++ d.closed.map Prod.fst

/-- The numbers of the tickets, open or closed. -/
def numbers : List Nat := d.opened.map Ticket.number ++ d.closed.map fun x => x.1.number

/-- The key of a ticket that is handed out. -/
def Event.issued : Event κ γ → Option κ
  | .issue k => some k
  | _ => none

/-- The keys of the tickets closed for this reason. -/
def closedBy [DecidableEq γ] (why : γ) : List κ := d.closed.filterMap fun x => if x.2 = why then some x.1.key else none

/-! ## What is open -/

@[simp] theorem keys_issue (k : κ) : (d.step (.issue k)).keys = d.keys ++ [k] := by
  simp [keys, step]

@[simp] theorem keys_settle (k : κ) (why : γ) : (d.step (.settle k why)).keys = d.keys.erase k := by
  unfold keys step
  dsimp only
  rw [List.erase_eq_eraseP', List.eraseP_map]
  congr 2

@[simp] theorem keys_clear (why : γ) : (d.step (.clear why)).keys = [] := rfl

variable {d}

theorem mem_tickets_step {x : Event κ γ} {t : Ticket κ} (h : t ∈ (d.step x).tickets) :
    t ∈ d.tickets ∨ ∃ k, x = .issue k ∧ t = ⟨d.issued, k⟩ := by
  unfold tickets step at *
  cases x with
  | issue k =>
    simp only [List.mem_append, List.mem_singleton] at h ⊢
    rcases h with (h | h) | h
    · exact .inl (.inl h)
    · exact .inr ⟨k, rfl, h⟩
    · exact .inl (.inr h)
  | settle k why =>
    refine .inl ?_
    simp only [List.map_append, List.mem_append, List.mem_map, Option.mem_toList, Option.map_eq_some_iff] at h ⊢
    rcases h with h | ⟨x, ⟨u, hu, rfl⟩, rfl⟩ | h
    · exact .inl (List.mem_of_mem_eraseP h)
    · exact .inl (List.mem_of_find?_eq_some hu)
    · exact .inr h
  | clear why =>
    refine .inl ?_
    simp only [List.map_append, List.mem_append, List.nil_append, List.map_reverse, List.mem_reverse, List.map_map] at h ⊢
    refine h.imp_left fun h => ?_
    obtain ⟨u, hu, rfl⟩ := List.mem_map.mp h
    exact hu

theorem issued_le_step (x : Event κ γ) : d.issued ≤ (d.step x).issued := by
  cases x with
  | issue k => exact Nat.le_succ _
  | settle k why => exact le_rfl
  | clear why => exact le_rfl

/-- **What names a key settles it**, unless the key is on two tickets. -/
theorem settled {k : κ} {why : γ} (h : d.keys.Nodup) : k ∉ (d.step (.settle k why)).keys := by
  rw [keys_settle]
  exact h.not_mem_erase

/-! ## Why tickets were closed -/

section Closed

variable [DecidableEq γ] {c : γ}

@[simp] theorem closedBy_issue (k : κ) : (d.step (.issue k)).closedBy c = d.closedBy c := rfl

theorem closedBy_settle (k : κ) (why : γ) :
    (d.step (.settle k why)).closedBy c = (if why = c ∧ k ∈ d.keys then [k] else []) ++ d.closedBy c := by
  unfold closedBy step keys
  rw [List.filterMap_append]
  congr 1
  cases hfind : d.opened.find? fun t => t.key = k with
  | none =>
    have hnot : k ∉ d.opened.map Ticket.key := by
      intro hk
      obtain ⟨t, ht, rfl⟩ := List.mem_map.mp hk
      simpa using List.find?_eq_none.mp hfind t ht
    simp [hnot]
  | some t =>
    have ht : t.key = k := by simpa using List.find?_some hfind
    have hmem : k ∈ d.opened.map Ticket.key := ht ▸ List.mem_map_of_mem (List.mem_of_find?_eq_some hfind)
    by_cases hc : why = c <;> simp [hc, hmem, ht]

theorem closedBy_clear (why : γ) :
    (d.step (.clear why)).closedBy c = (if why = c then d.keys.reverse else []) ++ d.closedBy c := by
  unfold closedBy step keys
  rw [List.filterMap_append, List.filterMap_reverse]
  congr 1
  by_cases hc : why = c <;> simp [hc, List.filterMap_map]

end Closed

/-! ## Runs -/

/-- A desk from its beginning, the last event first. -/
def after : List (Event κ γ) → Desk κ γ
  | [] => {}
  | x :: xs => (after xs).step x

omit [DecidableEq κ] in
theorem perm_eraseP (p : Ticket κ → Bool) (l : List (Ticket κ)) :
    ((l.eraseP p).map Ticket.number ++ (l.find? p).toList.map Ticket.number).Perm (l.map Ticket.number) := by
  induction l with
  | nil => exact .refl _
  | cons t l ih =>
    cases hp : p t with
    | true =>
      rw [List.eraseP_cons_of_pos hp, List.find?_cons_of_pos hp]
      exact List.perm_append_singleton _ _
    | false =>
      rw [List.eraseP_cons_of_neg (by simp [hp]), List.find?_cons_of_neg (by simp [hp])]
      exact ih.cons _

/-- **Every ticket is open or was closed, and that once.** -/
theorem numbers_perm (xs : List (Event κ γ)) : (after xs).numbers.Perm (List.range (after xs).issued) := by
  induction xs with
  | nil => exact .refl _
  | cons x xs ih =>
    rw [after]
    revert ih
    generalize (after xs) = d
    intro ih
    cases x with
    | issue k =>
      unfold numbers step at *
      dsimp only
      rw [List.map_append, List.map_singleton, List.range_succ, List.append_assoc]
      refine List.Perm.trans ?_ (ih.append_right [d.issued])
      rw [List.append_assoc]
      exact (List.perm_append_comm).append_left _
    | settle k why =>
      refine List.Perm.trans ?_ ih
      unfold numbers step
      dsimp only
      rw [List.map_append, ← List.append_assoc]
      refine List.Perm.append_right _ ?_
      have h := perm_eraseP (fun t => decide (t.key = k)) d.opened
      cases hfind : d.opened.find? fun t => decide (t.key = k) <;> simpa [hfind] using h
    | clear why =>
      refine List.Perm.trans ?_ ih
      unfold numbers step
      dsimp only
      rw [List.map_nil, List.nil_append, List.map_append, List.map_reverse, List.map_map]
      exact (List.reverse_perm _).append_right _

section Due

variable {due : Nat → κ} {xs : List (Event κ γ)} (h : ∀ ys k zs, xs = ys ++ .issue k :: zs → k = due (after zs).issued)
include h

/-- The tickets were handed out under the keys that were due. -/
theorem keys_due : ∀ t ∈ (after xs).tickets, t.number < (after xs).issued ∧ t.key = due t.number := by
  induction xs with
  | nil => simp [after, tickets]
  | cons x xs ih =>
    intro t ht
    have ih := ih fun ys k zs heq => h (x :: ys) k zs (by rw [heq]; rfl)
    rcases mem_tickets_step ht with ht | ⟨k, rfl, rfl⟩
    · exact ⟨(ih t ht).1.trans_le (issued_le_step x), (ih t ht).2⟩
    · exact ⟨Nat.lt_succ_self _, h [] k xs rfl⟩

theorem issued_due : xs.filterMap Event.issued = ((List.range (after xs).issued).map due).reverse := by
  induction xs with
  | nil => rfl
  | cons x xs ih =>
    have ih := ih fun ys k zs heq => h (x :: ys) k zs (by rw [heq]; rfl)
    cases x with
    | issue k =>
      rw [List.filterMap_cons, h [] k xs rfl, after, ih]
      change _ = ((List.range ((after xs).issued + 1)).map due).reverse
      rw [List.range_succ, List.map_append, List.reverse_append]
      rfl
    | settle k why => exact ih
    | clear why => exact ih

end Due

theorem nodup_numbers (xs : List (Event κ γ)) : ((after xs).opened.map Ticket.number).Nodup :=
  (List.nodup_append.mp ((numbers_perm xs).nodup_iff.mpr List.nodup_range)).1

/-- **Keys that go around are told apart** while less than a round of tickets is handed out after an open one. -/
theorem nodup_keys {due : Nat → κ} {round : Nat} (hdue : ∀ m n, m < n → n < m + round → due m ≠ due n)
    {xs : List (Event κ γ)} (hkeys : ∀ t ∈ (after xs).opened, t.number < (after xs).issued ∧ t.key = due t.number)
    (hlife : ∀ t ∈ (after xs).opened, (after xs).issued - (t.number + 1) < round) : (after xs).keys.Nodup := by
  refine (List.Nodup.of_map _ (nodup_numbers xs)).map_on ?_
  intro t ht u hu heq
  obtain ⟨htlt, htkey⟩ := hkeys t ht
  obtain ⟨hult, hukey⟩ := hkeys u hu
  have htlife := hlife t ht
  have hulife := hlife u hu
  have hnum : t.number = u.number := by
    rcases Nat.lt_trichotomy t.number u.number with hlt | heq' | hlt
    · exact absurd (by rw [← htkey, ← hukey, heq]) (hdue _ _ hlt (by omega))
    · exact heq'
    · exact absurd (by rw [← htkey, ← hukey, heq]) (hdue _ _ hlt (by omega))
  exact List.inj_on_of_nodup_map (nodup_numbers xs) ht hu hnum

end Desk

end SlopSync
