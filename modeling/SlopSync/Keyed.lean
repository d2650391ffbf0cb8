import Mathlib.Data.List.Basic

/-! # Keyed lists

Fixed-capacity tables are searched linearly and changed in place: `modifyFirst` rewrites the first entry a
test accepts.  The lemmas say what a search sees afterwards and which entries can be there.

`dropOldest` is the bounded queue that makes room by forgetting its oldest entry. -/

namespace Keyed

variable {α κ : Type}

/-- Rewrite the first entry `p` accepts. -/
def modifyFirst (p : α → Bool) (f : α → α) : List α → List α
  | [] => []
  | a :: l => if p a then f a :: l else a :: modifyFirst p f l

@[simp] theorem length_modifyFirst (p : α → Bool) (f : α → α) :
    ∀ l : List α, (modifyFirst p f l).length = l.length
  | [] => rfl
  | a :: l => by
    rw [modifyFirst]
    split
    · rfl
    · simp [length_modifyFirst p f l]

theorem mem_modifyFirst {p : α → Bool} {f : α → α} {x : α} :
    ∀ {l : List α}, x ∈ modifyFirst p f l → x ∈ l ∨ ∃ y ∈ l, p y = true ∧ x = f y
  | [], h => absurd h (by simp [modifyFirst])
  | a :: l, h => by
    rw [modifyFirst] at h
    split at h
    · rename_i hp
      rcases List.mem_cons.mp h with rfl | h
      · exact .inr ⟨a, List.mem_cons_self, hp, rfl⟩
      · exact .inl (List.mem_cons_of_mem a h)
    · rcases List.mem_cons.mp h with rfl | h
      · exact .inl List.mem_cons_self
      · rcases mem_modifyFirst h with h | ⟨y, hy, hpy, rfl⟩
        · exact .inl (List.mem_cons_of_mem a h)
        · exact .inr ⟨y, List.mem_cons_of_mem a hy, hpy, rfl⟩

/-- A rewrite that does not change which entries the test accepts is what the search finds. -/
theorem find?_modifyFirst_self {p : α → Bool} {f : α → α} (hf : ∀ a, p (f a) = p a) :
    ∀ l : List α, (modifyFirst p f l).find? p = (l.find? p).map f
  | [] => rfl
  | a :: l => by
    rw [modifyFirst]
    split
    · rename_i hp
      simp [hf, hp]
    · rename_i hp
      simp [hp, find?_modifyFirst_self hf l]

/-- A search that never looks at a rewritten entry is not changed. -/
theorem find?_modifyFirst_other {p q : α → Bool} {f : α → α} (hd : ∀ a, p a = true → q a = false)
    (hf : ∀ a, p a = true → q (f a) = false) :
    ∀ l : List α, (modifyFirst p f l).find? q = l.find? q
  | [] => rfl
  | a :: l => by
    rw [modifyFirst]
    split
    · rename_i hp
      simp [hd a hp, hf a hp]
    · simp only [List.find?_cons, find?_modifyFirst_other hd hf l]

/-- A rewrite that keeps a projection keeps the projected list. -/
theorem map_modifyFirst {β : Type} {p : α → Bool} {f : α → α} {g : α → β} (hf : ∀ a, g (f a) = g a) :
    ∀ l : List α, (modifyFirst p f l).map g = l.map g
  | [] => rfl
  | a :: l => by
    rw [modifyFirst]
    split
    · simp [hf]
    · simp [map_modifyFirst hf l]

/-- Rewriting one entry moves a count by that entry. -/
theorem countP_modifyFirst {p q : α → Bool} {f : α → α} {a : α} : ∀ {l : List α}, l.find? p = some a →
    (modifyFirst p f l).countP q + (if q a then 1 else 0) = l.countP q + (if q (f a) then 1 else 0)
  | [], h => by cases h
  | b :: l, h => by
    rw [List.find?_cons] at h
    rw [modifyFirst]
    split at h
    · rename_i hp
      obtain rfl := Option.some.inj h
      rw [if_pos hp, List.countP_cons, List.countP_cons]
      omega
    · rename_i hp
      have ih := countP_modifyFirst (q := q) (f := f) h
      rw [if_neg (by simp [hp]), List.countP_cons, List.countP_cons]
      omega

/-- A rewrite that gives the entry found back changes nothing. -/
theorem modifyFirst_of_eq {p : α → Bool} {f : α → α} {a : α} (hf : f a = a) : ∀ {l : List α}, l.find? p = some a →
    modifyFirst p f l = l
  | [], h => by cases h
  | b :: l, h => by
    rw [List.find?_cons] at h
    rw [modifyFirst]
    split at h
    · rename_i hp
      obtain rfl := Option.some.inj h
      rw [if_pos hp, hf]
    · rename_i hp
      rw [if_neg (by simp [hp]), modifyFirst_of_eq hf h]

/-! ## Rewriting by place -/

/-- The first entry a test accepts, rewritten in place, is what the search finds. -/
theorem find?_modify_self {p : α → Bool} {f : α → α} {a : α} : ∀ {l : List α} {k : Nat}, l[k]? = some a →
    (∀ j, j < k → ∀ b, l[j]? = some b → p b = false) → p (f a) = true → (l.modify k f).find? p = some (f a)
  | [], _, hk, _, _ => by simp at hk
  | b :: l, 0, hk, _, hp => by
    obtain rfl : b = a := by simpa using hk
    simp [hp]
  | b :: l, k + 1, hk, hfirst, hp => by
    have hb : p b = false := hfirst 0 (Nat.succ_pos k) b rfl
    rw [List.modify_succ_cons, List.find?_cons, hb]
    exact find?_modify_self (by simpa using hk) (fun j hj x hx => hfirst (j + 1) (Nat.succ_lt_succ hj) x (by simpa using hx)) hp

/-- A rewrite in place that the test and the projection do not see. -/
theorem map_find?_modify {β : Type} {p : α → Bool} {f : α → α} {g : α → β} : ∀ {l : List α} {k : Nat},
    (∀ a, l[k]? = some a → p (f a) = p a ∧ (p a = true → g (f a) = g a)) →
    ((l.modify k f).find? p).map g = (l.find? p).map g
  | [], _, _ => by simp
  | b :: l, 0, hf => by
    obtain ⟨hp, hg⟩ := hf b rfl
    rw [List.modify_zero_cons, List.find?_cons, List.find?_cons, hp]
    cases hb : p b with
    | true => simp [hg hb]
    | false => rfl
  | b :: l, k + 1, hf => by
    rw [List.modify_succ_cons, List.find?_cons, List.find?_cons]
    cases p b with
    | true => rfl
    | false => exact map_find?_modify fun a ha => hf a (by simpa using ha)

/-! ## Tables with holes -/

/-- Put `a` in the first free slot. -/
def fillFirst (a : α) : List (Option α) → Option (List (Option α))
  | [] => none
  | none :: l => some (some a :: l)
  | some b :: l => (fillFirst a l).map (some b :: ·)

theorem length_fillFirst {a : α} :
    ∀ {l l' : List (Option α)}, fillFirst a l = some l' → l'.length = l.length
  | [], _, h => by cases h
  | none :: l, _, h => by
    cases h
    rfl
  | some b :: l, _, h => by
    simp only [fillFirst, Option.map_eq_some_iff] at h
    obtain ⟨l₁, h₁, rfl⟩ := h
    simp [length_fillFirst h₁]

theorem fillFirst_eq_none {a : α} : ∀ {l : List (Option α)}, fillFirst a l = none ↔ ∀ o ∈ l, o.isSome
  | [] => by simp [fillFirst]
  | none :: l => by simp [fillFirst]
  | some b :: l => by
    have ih := fillFirst_eq_none (a := a) (l := l)
    simp [fillFirst, ih]

/-- The first entry in use that `p` accepts. -/
def findUsed (p : α → Bool) (l : List (Option α)) : Option α :=
  l.findSome? (fun o => o.filter p)

theorem findUsed_some {p : α → Bool} {a : α} {l : List (Option α)} (h : findUsed p l = some a) : p a = true := by
  obtain ⟨o, -, ho⟩ := List.exists_of_findSome?_eq_some h
  exact (Option.filter_eq_some_iff.mp ho).2

theorem findUsed_cons (p : α → Bool) (a : α) (l : List (Option α)) :
    findUsed p (some a :: l) = if p a then some a else findUsed p l := by
  unfold findUsed
  rw [List.findSome?_cons]
  cases hp : p a <;> simp [Option.filter, hp]

theorem findUsed_none_cons (p : α → Bool) (l : List (Option α)) : findUsed p (none :: l) = findUsed p l := rfl

/-- The search finds the rewritten entry. -/
theorem findUsed_modifyFirst_self {p : α → Bool} {f : α → α} (hf : ∀ a, p a = true → p (f a) = true) :
    ∀ l : List (Option α), findUsed p (modifyFirst (fun o => o.any p) (Option.map f) l) = (findUsed p l).map f
  | [] => rfl
  | none :: l => findUsed_modifyFirst_self hf l
  | some a :: l => by
    cases hp : p a with
    | true => simp [modifyFirst, hp, findUsed_cons, hf a hp]
    | false => simp [modifyFirst, hp, findUsed_cons, findUsed_modifyFirst_self hf l]

/-- A search for other entries sees no difference. -/
theorem findUsed_modifyFirst_other {p q : α → Bool} {f : α → α} (hd : ∀ a, p a = true → q a = false)
    (hf : ∀ a, p a = true → q (f a) = false) :
    ∀ l : List (Option α), findUsed q (modifyFirst (fun o => o.any p) (Option.map f) l) = findUsed q l
  | [] => rfl
  | none :: l => findUsed_modifyFirst_other hd hf l
  | some a :: l => by
    cases hp : p a with
    | true => simp [modifyFirst, hp, findUsed_cons, hd a hp, hf a hp]
    | false => simp [modifyFirst, hp, findUsed_cons, findUsed_modifyFirst_other hd hf l]

/-- Emptying slots does not hide the first entry, if that is not among them. -/
theorem findUsed_clear {p q : α → Bool} {a : α} : ∀ {l : List (Option α)}, findUsed p l = some a → q a = false →
    findUsed p (l.map fun o => if o.any q then none else o) = some a
  | [], h, _ => by cases h
  | none :: l, h, hq => findUsed_clear (l := l) h hq
  | some b :: l, h, hq => by
    rw [findUsed_cons] at h
    cases hp : p b with
    | true =>
      rw [hp, if_pos rfl] at h
      cases h
      simp [hq, findUsed_cons, hp]
    | false =>
      rw [hp] at h
      have ih := findUsed_clear (l := l) h hq
      cases hqb : q b with
      | true => simpa [hqb, findUsed_none_cons] using ih
      | false => simpa [hqb, findUsed_cons, hp] using ih

theorem findUsed_clear_none {p q : α → Bool} : ∀ {l : List (Option α)}, findUsed p l = none →
    findUsed p (l.map fun o => if o.any q then none else o) = none
  | [], _ => rfl
  | none :: l, h => findUsed_clear_none (l := l) h
  | some b :: l, h => by
    rw [findUsed_cons] at h
    cases hp : p b with
    | true =>
      rw [hp, if_pos rfl] at h
      cases h
    | false =>
      rw [hp] at h
      have ih := findUsed_clear_none (q := q) (l := l) h
      cases hqb : q b with
      | true => simpa [hqb, findUsed_none_cons] using ih
      | false => simpa [hqb, findUsed_cons, hp] using ih

theorem mem_of_findUsed {p : α → Bool} {a : α} {l : List (Option α)} (h : findUsed p l = some a) : some a ∈ l := by
  obtain ⟨o, ho, hf⟩ := List.exists_of_findSome?_eq_some h
  obtain ⟨rfl, -⟩ := Option.filter_eq_some_iff.mp hf
  exact ho

/-- The entries after a rewrite: the old ones, and the rewritten form of the one a search finds. -/
theorem mem_modifyUsed {p : α → Bool} {f : α → α} {x : α} : ∀ {l : List (Option α)},
    some x ∈ modifyFirst (fun o => o.any p) (Option.map f) l → some x ∈ l ∨ ∃ a, findUsed p l = some a ∧ x = f a
  | [], h => absurd h (by simp [modifyFirst])
  | none :: l, h => by
    have hx : some x ∈ modifyFirst (fun o => o.any p) (Option.map f) l := by simpa [modifyFirst] using h
    rcases mem_modifyUsed hx with hx | hx
    · exact .inl (List.mem_cons_of_mem _ hx)
    · exact .inr hx
  | some b :: l, h => by
    cases hp : p b with
    | true =>
      simp only [modifyFirst, Option.any_some, hp, if_true, Option.map_some, List.mem_cons, Option.some.injEq] at h
      rcases h with rfl | h
      · exact .inr ⟨b, by rw [findUsed_cons, hp, if_pos rfl], rfl⟩
      · exact .inl (List.mem_cons_of_mem _ h)
    | false =>
      simp only [modifyFirst, Option.any_some, hp, Bool.false_eq_true, if_false, List.mem_cons, Option.some.injEq] at h
      rcases h with rfl | h
      · exact .inl List.mem_cons_self
      · rcases mem_modifyUsed h with h | ⟨a, ha, rfl⟩
        · exact .inl (List.mem_cons_of_mem _ h)
        · exact .inr ⟨a, by rw [findUsed_cons, hp]; exact ha, rfl⟩

theorem mem_removeUsed {p : α → Bool} {x : α} {l : List (Option α)}
    (h : some x ∈ modifyFirst (fun o => o.any p) (fun _ => none) l) : some x ∈ l := by
  rcases mem_modifyFirst h with h | ⟨_, _, _, h⟩
  · exact h
  · cases h

theorem mem_fillFirst {a : α} {o : Option α} : ∀ {l l' : List (Option α)}, fillFirst a l = some l' → o ∈ l' →
    o ∈ l ∨ o = some a
  | [], _, h, _ => by cases h
  | none :: l, _, h, ho => by
    cases h
    rcases List.mem_cons.mp ho with ho | ho
    · exact .inr ho
    · exact .inl (List.mem_cons_of_mem _ ho)
  | some b :: l, _, h, ho => by
    simp only [fillFirst, Option.map_eq_some_iff] at h
    obtain ⟨l₁, h₁, rfl⟩ := h
    rcases List.mem_cons.mp ho with rfl | ho
    · exact .inl List.mem_cons_self
    · exact (mem_fillFirst h₁ ho).imp (List.mem_cons_of_mem _) id

/-- An entry that is put in is what a search for it finds. -/
theorem findUsed_fillFirst {p : α → Bool} {a : α} (hp : p a = true) : ∀ {l l' : List (Option α)},
    fillFirst a l = some l' → findUsed p l = none → findUsed p l' = some a
  | [], _, h, _ => by cases h
  | none :: l, _, h, _ => by
    cases h
    rw [findUsed_cons, hp, if_pos rfl]
  | some b :: l, _, h, hn => by
    simp only [fillFirst, Option.map_eq_some_iff] at h
    obtain ⟨l₁, h₁, rfl⟩ := h
    rw [findUsed_cons] at hn ⊢
    cases hb : p b with
    | true =>
      rw [hb] at hn
      cases hn
    | false =>
      rw [hb] at hn
      exact findUsed_fillFirst hp h₁ hn

/-- Filling a free slot adds one entry and moves none. -/
theorem getElem?_fillFirst {a : α} :
    ∀ {l l' : List (Option α)}, fillFirst a l = some l' →
      ∃ i : Nat, l[i]? = some none ∧ ∀ j : Nat, l'[j]? = if j = i then some (some a) else l[j]?
  | [], _, h => by cases h
  | none :: l, _, h => by
    cases h
    refine ⟨0, rfl, fun j => ?_⟩
    cases j <;> simp
  | some b :: l, _, h => by
    simp only [fillFirst, Option.map_eq_some_iff] at h
    obtain ⟨l₁, h₁, rfl⟩ := h
    obtain ⟨i, hi, hj⟩ := getElem?_fillFirst h₁
    refine ⟨i + 1, by simpa using hi, fun j => ?_⟩
    cases j with
    | zero => simp
    | succ j => simp [hj j]

/-- What becomes of each slot when the entry that a search finds is rewritten. -/
theorem getElem?_modifyUsed {p : α → Bool} {g : Option α → Option α} {a : α} :
    ∀ {l : List (Option α)}, findUsed p l = some a →
      ∃ i : Nat, l[i]? = some (some a) ∧
        ∀ j : Nat, (modifyFirst (fun o => o.any p) g l)[j]? = if j = i then some (g (some a)) else l[j]?
  | [], h => by cases h
  | none :: l, h => by
    obtain ⟨i, hi, hj⟩ := getElem?_modifyUsed (g := g) (l := l) h
    refine ⟨i + 1, by simpa using hi, fun j => ?_⟩
    cases j with
    | zero => simp [modifyFirst]
    | succ j => simp [modifyFirst, hj j]
  | some b :: l, h => by
    rw [findUsed_cons] at h
    cases hp : p b with
    | true =>
      rw [hp, if_pos rfl] at h
      cases h
      refine ⟨0, rfl, fun j => ?_⟩
      cases j <;> simp [modifyFirst, hp]
    | false =>
      rw [hp] at h
      obtain ⟨i, hi, hj⟩ := getElem?_modifyUsed (g := g) (l := l) h
      refine ⟨i + 1, by simpa using hi, fun j => ?_⟩
      cases j with
      | zero => simp [modifyFirst, hp]
      | succ j => simp [modifyFirst, hp, hj j]

/-- A rewrite of what a search would find does nothing when it finds nothing. -/
theorem modifyUsed_none {p : α → Bool} {g : Option α → Option α} : ∀ {l : List (Option α)}, findUsed p l = none →
    modifyFirst (fun o => o.any p) g l = l
  | [], _ => rfl
  | none :: l, h => by
    simp [modifyFirst, modifyUsed_none (g := g) (l := l) h]
  | some b :: l, h => by
    rw [findUsed_cons] at h
    cases hp : p b with
    | true =>
      rw [hp, if_pos rfl] at h
      cases h
    | false =>
      rw [hp] at h
      simp [modifyFirst, hp, modifyUsed_none (g := g) (l := l) h]

/-! ### Entries of other keys -/

/-- The entries of other keys than `own` are where they were. -/
def SameOthers (key : α → κ) (own : κ) (l l' : List (Option α)) : Prop :=
  ∀ (i : Nat) (a : α), key a ≠ own → (l'[i]? = some (some a) ↔ l[i]? = some (some a))

namespace SameOthers

variable {key : α → κ} {own : κ} {l l' l'' : List (Option α)}

protected theorem refl (l : List (Option α)) : SameOthers key own l l := fun _ _ _ => Iff.rfl

protected theorem trans (h : SameOthers key own l l') (h' : SameOthers key own l' l'') : SameOthers key own l l'' :=
  fun i a ha => (h' i a ha).trans (h i a ha)

/-- A slot that held an entry of `own`, or none, and still does. -/
theorem of_slot {i : Nat} {o o' : Option α} (hi : l[i]? = some o) (ho : ∀ a, o = some a → key a = own)
    (ho' : ∀ a, o' = some a → key a = own) (hl : ∀ j : Nat, l'[j]? = if j = i then some o' else l[j]?) :
    SameOthers key own l l' := by
  intro j a ha
  rw [hl j]
  split
  · rename_i hj
    subst hj
    rw [hi]
    constructor
    · intro h
      exact absurd (ho' a (Option.some.inj h)) ha
    · intro h
      exact absurd (ho a (Option.some.inj h)) ha
  · rfl

theorem modifyUsed {p : α → Bool} {g : Option α → Option α} (hp : ∀ a, p a = true → key a = own)
    (hg : ∀ a b, p a = true → g (some a) = some b → key b = own) :
    SameOthers key own l (modifyFirst (fun o => o.any p) g l) := by
  cases h : findUsed p l with
  | none =>
    rw [modifyUsed_none h]
    exact SameOthers.refl l
  | some a =>
    obtain ⟨i, hi, hj⟩ := getElem?_modifyUsed (g := g) h
    refine of_slot hi (fun b hb => ?_) (fun b hb => hg a b (findUsed_some h) hb) hj
    cases hb
    exact hp a (findUsed_some h)

theorem fillFirst {a : α} (ha : key a = own) (h : fillFirst a l = some l') : SameOthers key own l l' := by
  obtain ⟨i, hi, hj⟩ := getElem?_fillFirst h
  refine of_slot hi (fun b hb => nomatch hb) (fun b hb => ?_) hj
  cases hb
  exact ha

end SameOthers

/-! ## Keys in use -/

/-- The keys of the entries in use, in slot order. -/
def usedKeys (key : α → κ) (l : List (Option α)) : List κ := l.filterMap (Option.map key)

theorem mem_usedKeys {key : α → κ} {k : κ} {l : List (Option α)} : k ∈ usedKeys key l ↔ ∃ a, some a ∈ l ∧ key a = k := by
  unfold usedKeys
  rw [List.mem_filterMap]
  constructor
  · rintro ⟨o, ho, hk⟩
    obtain ⟨a, rfl, ha⟩ := Option.map_eq_some_iff.mp hk
    exact ⟨a, ho, ha⟩
  · rintro ⟨a, ha, rfl⟩
    exact ⟨some a, ha, rfl⟩

theorem length_usedKeys (key : α → κ) (l : List (Option α)) : (usedKeys key l).length = (l.filter Option.isSome).length := by
  unfold usedKeys
  induction l with
  | nil => rfl
  | cons o l ih =>
    cases o with
    | none => simpa using ih
    | some a => simpa using ih

/-- A search finds nothing iff the keys it accepts are not in use. -/
theorem findUsed_eq_none {p : α → Bool} {l : List (Option α)} : findUsed p l = none ↔ ∀ a, some a ∈ l → p a = false := by
  unfold findUsed
  rw [List.findSome?_eq_none_iff]
  constructor
  · intro h a ha
    cases hp : p a with
    | false => rfl
    | true => exact absurd (h (some a) ha) (by simp [Option.filter, hp])
  · rintro h (_ | a) ha
    · rfl
    · simp [Option.filter, h a ha]

theorem usedKeys_modifyUsed {key : α → κ} {p : α → Bool} {f : α → α} (hf : ∀ a, p a = true → key (f a) = key a) :
    ∀ l : List (Option α), usedKeys key (modifyFirst (fun o => o.any p) (Option.map f) l) = usedKeys key l
  | [] => rfl
  | none :: l => usedKeys_modifyUsed hf l
  | some a :: l => by
    cases hp : p a with
    | true => simp [modifyFirst, hp, usedKeys, hf a hp]
    | false =>
      have ih := usedKeys_modifyUsed hf l
      simpa [modifyFirst, hp, usedKeys] using ih

theorem usedKeys_fillFirst {key : α → κ} {a : α} : ∀ {l l' : List (Option α)}, fillFirst a l = some l' →
    (usedKeys key l').Perm (key a :: usedKeys key l)
  | [], _, h => by cases h
  | none :: l, _, h => by
    cases h
    exact List.Perm.refl _
  | some b :: l, _, h => by
    simp only [fillFirst, Option.map_eq_some_iff] at h
    obtain ⟨l₁, h₁, rfl⟩ := h
    exact ((usedKeys_fillFirst h₁).cons (key b)).trans (List.Perm.swap _ _ _)

/-- Emptying the slot a search finds takes one key away. -/
theorem usedKeys_removeUsed {key : α → κ} {p : α → Bool} {a : α} : ∀ {l : List (Option α)}, findUsed p l = some a →
    (usedKeys key l).Perm (key a :: usedKeys key (modifyFirst (fun o => o.any p) (fun _ => none) l))
  | [], h => by cases h
  | none :: l, h => usedKeys_removeUsed (l := l) h
  | some b :: l, h => by
    rw [findUsed_cons] at h
    cases hp : p b with
    | true =>
      rw [hp, if_pos rfl] at h
      cases h
      simp [modifyFirst, hp, usedKeys]
    | false =>
      rw [hp] at h
      have ih : (usedKeys key l).Perm _ := usedKeys_removeUsed (l := l) h
      have hkeep : modifyFirst (fun o => o.any p) (fun _ => none) (some b :: l) =
          some b :: modifyFirst (fun o => o.any p) (fun _ => none) l := by simp [modifyFirst, hp]
      rw [hkeep]
      exact (ih.cons (key b)).trans (List.Perm.swap _ _ _)

/-! ## Bounded queues -/

/-- Append, forgetting the oldest entry of a full queue. -/
def dropOldest (depth : Nat) (q : List α) (a : α) : List α :=
  (if q.length = depth then q.drop 1 else q) ++ [a]

theorem length_dropOldest {depth : Nat} (hpos : 0 < depth) {q : List α} (h : q.length ≤ depth) (a : α) :
    (dropOldest depth q a).length ≤ depth := by
  simp only [dropOldest, List.length_append, List.length_singleton]
  split
  · simp only [List.length_drop]
    omega
  · omega

theorem mem_dropOldest {depth : Nat} {q : List α} {a x : α} (h : x ∈ dropOldest depth q a) :
    x ∈ q ∨ x = a := by
  rcases List.mem_append.mp h with h | h
  · split at h
    · exact .inl (List.mem_of_mem_drop h)
    · exact .inl h
  · exact .inr (List.mem_singleton.mp h)

end Keyed
