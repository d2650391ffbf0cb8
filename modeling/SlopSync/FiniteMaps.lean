import Mathlib.Data.Finset.Card
import Mathlib.Data.List.ReduceOption
import Mathlib.Data.Set.Card
import SlopSync.Keyed

/-! # Small tables as finite maps

A table that holds its entries in a list, each under a key, is a map when no key comes twice.  `Tabulates` says so; the
lemmas say which map a table shows after an entry was rewritten, taken in at any place, or forgotten, and `full_iff` when
there is room for a key.

Two ways to keep such a list in an array follow: in its first cells (`Filled`), and in any of them (`Slotted`). -/

namespace FiniteMaps

open Keyed

variable {κ α : Type} [DecidableEq κ] {key : α → κ} {cap : Nat} {l l₁ l₂ : List α} {m : κ → Option α} {a : α} {k : κ}
  {f : α → α} {p : α → Bool}

def isAt (key : α → κ) (k : κ) (a : α) : Bool := key a == k

@[simp] theorem isAt_iff : isAt key k a = true ↔ key a = k := beq_iff_eq

/-- At most one entry for each key, at most `cap` in all, and a search finds what the map has. -/
structure Tabulates (key : α → κ) (cap : Nat) (l : List α) (m : κ → Option α) : Prop where
  once : (l.map key).Nodup
  atMost : l.length ≤ cap
  finds : ∀ k, l.find? (isAt key k) = m k

/-- There are `cap` keys other than `k`. -/
def Full (cap : Nat) (m : κ → Option α) (k : κ) : Prop := ∃ s : Finset κ, s.card = cap ∧ k ∉ s ∧ ∀ x ∈ s, m x ≠ none

open Classical in
/-- What it is to insert or overwrite: refused, and without effect, exactly when there is no room. -/
noncomputable def put (key : α → κ) (cap : Nat) (m : κ → Option α) (a : α) : Bool × (κ → Option α) :=
  if Full cap m (key a) then (false, m) else (true, Function.update m (key a) (some a))

/-- A change of an entry that leaves its key. -/
structure Edit (key : α → κ) where
  apply : α → α
  keeps : ∀ a, key (apply a) = key a

/-- A rewrite seen through a projection. -/
theorem map_rewrite {β : Type} {q : β → Bool} {f' : β → β} {g : α → β} (hf : ∀ a, g (f a) = f' (g a))
    (hq : ∀ a, q (g a) = p a) (l : List α) : (modifyFirst p f l).map g = modifyFirst q f' (l.map g) := by
  induction l with
  | nil => rfl
  | cons a l ih =>
    rw [List.map_cons, modifyFirst, modifyFirst, hq, ← hf, ← ih]
    split <;> rfl

/-- With one entry for each key, a rewrite of the first is a rewrite of all. -/
theorem modifyFirst_eq_map (h : (l.map key).Nodup) :
    modifyFirst (isAt key k) f l = l.map fun a => if key a = k then f a else a := by
  induction l with
  | nil => rfl
  | cons a l ih =>
    rw [List.map_cons, List.nodup_cons] at h
    rw [modifyFirst, List.map_cons]
    by_cases hk : key a = k
    · rw [if_pos (isAt_iff.mpr hk), if_pos hk]
      have hother : l.map (fun a => if key a = k then f a else a) = l.map id := by
        refine List.map_congr_left fun b hb => if_neg fun hbk => h.1 ?_
        rw [hk, ← hbk]
        exact List.mem_map_of_mem hb
      rw [hother, List.map_id]
    · rw [if_neg (fun hat => hk (isAt_iff.mp hat)), if_neg hk, ih h.2]

/-- What it is to change the entry of a key, if there is one. -/
def amend (m : κ → Option α) (k : κ) (f : α → α) : κ → Option α := Function.update m k ((m k).map f)

/-! ## Tables and maps -/

theorem Tabulates.nil : Tabulates key cap [] fun _ => none := ⟨List.nodup_nil, Nat.zero_le _, fun _ => rfl⟩

/-- With one entry for each key, a search is membership. -/
theorem find_iff (h : (l.map key).Nodup) : l.find? (isAt key k) = some a ↔ a ∈ l ∧ key a = k := by
  constructor
  · intro hf
    exact ⟨List.mem_of_find?_eq_some hf, isAt_iff.mp (List.find?_some hf)⟩
  · rintro ⟨ha, rfl⟩
    cases hf : l.find? (isAt key (key a)) with
    | none =>
      have hno := List.find?_eq_none.mp hf a ha
      simp at hno
    | some b =>
      have hkey : key b = key a := isAt_iff.mp (List.find?_some hf)
      rw [List.inj_on_of_nodup_map h (List.mem_of_find?_eq_some hf) ha hkey]

/-- A map holds what the table lists under the key. -/
theorem Tabulates.get_iff (h : Tabulates key cap l m) : m k = some a ↔ a ∈ l ∧ key a = k := by
  rw [← h.finds, find_iff h.once]

/-- A table that lists what a map holds, each key once, tabulates it. -/
theorem Tabulates.of_get (honce : (l.map key).Nodup) (hle : l.length ≤ cap)
    (hget : ∀ k a, m k = some a ↔ a ∈ l ∧ key a = k) : Tabulates key cap l m :=
  ⟨honce, hle, fun k => Option.ext fun a => by rw [find_iff honce, hget]⟩

/-- A key is listed exactly when the map holds something under it. -/
theorem Tabulates.mem_keys (h : Tabulates key cap l m) : k ∈ l.map key ↔ m k ≠ none := by
  rw [List.mem_map, Option.ne_none_iff_exists']
  exact exists_congr fun a => h.get_iff.symm

/-- A new key finds no room exactly when all places are taken. -/
theorem Tabulates.full_iff (h : Tabulates key cap l m) : Full cap m k ↔ m k = none ∧ l.length = cap := by
  constructor
  · rintro ⟨s, hcard, hk, hs⟩
    have hsub : s ⊆ (l.map key).toFinset := fun x hx => List.mem_toFinset.mpr (h.mem_keys.mpr (hs x hx))
    have hlen : (l.map key).toFinset.card = l.length := by rw [List.toFinset_card_of_nodup h.once, List.length_map]
    have hle : (l.map key).toFinset.card ≤ s.card := by rw [hlen, hcard]; exact h.atMost
    have heq := Finset.eq_of_subset_of_card_le hsub hle
    constructor
    · by_contra hmem
      rw [heq, List.mem_toFinset] at hk
      exact hk (h.mem_keys.mpr hmem)
    · rw [← hlen, ← heq, hcard]
  · rintro ⟨hk, hlen⟩
    refine ⟨(l.map key).toFinset, ?_, fun hmem => ?_, fun x hx => h.mem_keys.mp (List.mem_toFinset.mp hx)⟩
    · rw [List.toFinset_card_of_nodup h.once, List.length_map, hlen]
    · exact h.mem_keys.mp (List.mem_toFinset.mp hmem) hk

theorem amend_some (hk : m k = some a) (f : α → α) : amend m k f = Function.update m k (some (f a)) := by
  rw [amend, hk, Option.map_some]

/-- Putting under a key in use replaces. -/
theorem put_old (h : Tabulates key cap l m) (hk : m (key a) ≠ none) :
    put key cap m a = (true, Function.update m (key a) (some a)) :=
  if_neg fun hfull => hk (h.full_iff.mp hfull).1

/-- Putting into a table with room succeeds. -/
theorem put_new (h : Tabulates key cap l m) (hroom : l.length < cap) :
    put key cap m a = (true, Function.update m (key a) (some a)) :=
  if_neg fun hfull => by
    have := (h.full_iff.mp hfull).2
    omega

/-- Putting a new key into a full table fails and changes nothing. -/
theorem put_full (h : Tabulates key cap l m) (hk : m (key a) = none) (hfull : l.length = cap) : put key cap m a = (false, m) :=
  if_pos (h.full_iff.mpr ⟨hk, hfull⟩)

/-- To put an entry back, changed, is to amend it. -/
theorem put_amended (h : Tabulates key cap l m) (hf : ∀ a, key (f a) = key a) (hk : m k = some a) :
    put key cap m (f a) = (true, amend m k f) := by
  have hkey : key (f a) = k := (hf a).trans (h.get_iff.mp hk).2
  have hin : m (key (f a)) ≠ none := by
    rw [hkey, hk]
    exact Option.some_ne_none a
  rw [put_old h hin, hkey, amend_some hk]

/-! ## What changes the map -/

/-- Changing the first entry under a key, without changing the key, amends the map there. -/
theorem Tabulates.amend (h : Tabulates key cap l m) (hf : ∀ a, key (f a) = key a) :
    Tabulates key cap (modifyFirst (isAt key k) f l) (amend m k f) := by
  refine ⟨by rw [map_modifyFirst hf]; exact h.once, by rw [length_modifyFirst]; exact h.atMost, fun x => ?_⟩
  unfold FiniteMaps.amend
  by_cases hx : x = k
  · rw [hx, Function.update_self, find?_modifyFirst_self (fun b => by simp [isAt, hf]), h.finds]
  · have hother : ∀ b, isAt key k b = true → isAt key x b = false := by
      intro b hb
      rw [isAt_iff] at hb
      simpa [isAt, hb] using Ne.symm hx
    have hother' : ∀ b, isAt key k b = true → isAt key x (f b) = false := fun b hb => by
      rw [isAt, hf]
      exact hother b hb
    rw [Function.update_of_ne hx, find?_modifyFirst_other hother hother', h.finds]

/-- An entry of a new key may come in anywhere. -/
theorem Tabulates.insert (h : Tabulates key cap (l₁ ++ l₂) m) (hk : m (key a) = none) (hroom : (l₁ ++ l₂).length < cap) :
    Tabulates key cap (l₁ ++ a :: l₂) (Function.update m (key a) (some a)) := by
  have hperm : (l₁ ++ a :: l₂).Perm (a :: (l₁ ++ l₂)) := List.perm_middle
  have hnew : key a ∉ (l₁ ++ l₂).map key := fun hmem => h.mem_keys.mp hmem hk
  have honce : ((l₁ ++ a :: l₂).map key).Nodup := by
    rw [(hperm.map key).nodup_iff, List.map_cons, List.nodup_cons]
    exact ⟨hnew, h.once⟩
  refine .of_get honce (by rw [hperm.length_eq]; exact hroom) fun x b => ?_
  rw [hperm.mem_iff, List.mem_cons]
  by_cases hx : x = key a
  · rw [hx, Function.update_self, Option.some.injEq]
    constructor
    · rintro rfl
      exact ⟨.inl rfl, rfl⟩
    · rintro ⟨rfl | hb, hkey⟩
      · rfl
      · exact absurd (hkey ▸ List.mem_map_of_mem hb) hnew
  · rw [Function.update_of_ne hx, h.get_iff]
    constructor
    · exact fun hb => ⟨.inr hb.1, hb.2⟩
    · rintro ⟨rfl | hb, hkey⟩
      · exact absurd hkey.symm hx
      · exact ⟨hb, hkey⟩

/-- A new key at the end of the table extends the map by it. -/
theorem Tabulates.append (h : Tabulates key cap l m) (hk : m (key a) = none) (hroom : l.length < cap) :
    Tabulates key cap (l ++ [a]) (Function.update m (key a) (some a)) := by
  rw [← List.append_nil l] at h hroom
  exact h.insert hk hroom

/-- Filtering the table filters the map. -/
theorem Tabulates.keep (h : Tabulates key cap l m) (p : α → Bool) : Tabulates key cap (l.filter p) fun k => (m k).filter p := by
  have hsub : (l.filter p).Sublist l := List.filter_sublist
  refine .of_get (h.once.sublist (hsub.map key)) (hsub.length_le.trans h.atMost) fun k a => ?_
  rw [Option.filter_eq_some_iff, h.get_iff, List.mem_filter]
  exact and_right_comm

/-- Removing the entry under a key removes it from the map. -/
theorem Tabulates.erase (h : Tabulates key cap l m) : Tabulates key cap (l.eraseP (isAt key k)) (Function.update m k none) := by
  have hsub : (l.eraseP (isAt key k)).Sublist l := List.eraseP_sublist
  refine .of_get (h.once.sublist (hsub.map key)) (hsub.length_le.trans h.atMost) fun x a => ?_
  by_cases hx : x = k
  · subst hx
    rw [Function.update_self]
    refine iff_of_false (by simp) ?_
    rintro ⟨ha, hkey⟩
    -- the one entry at the key is the one that is gone
    obtain ⟨b, l₁, l₂, -, hb, hl, hl'⟩ := List.exists_of_eraseP (hsub.subset ha) (isAt_iff.mpr hkey)
    have honce := h.once
    rw [hl, List.map_append, List.map_cons, List.nodup_middle, List.nodup_cons, ← List.map_append, ← hl'] at honce
    rw [← isAt_iff.mp hb] at hkey
    exact honce.1 (hkey ▸ List.mem_map_of_mem ha)
  · rw [Function.update_of_ne hx, h.get_iff]
    refine and_congr_left fun hkey => (List.mem_eraseP_of_neg ?_).symm
    rw [isAt_iff, hkey]
    exact hx

/-- Changing every entry changes every value of the map. -/
theorem Tabulates.each (h : Tabulates key cap l m) (hf : ∀ a, key (f a) = key a) :
    Tabulates key cap (l.map f) fun k => (m k).map f := by
  refine ⟨?_, by rw [List.length_map]; exact h.atMost, fun k => ?_⟩
  · rw [List.map_map, show key ∘ f = key from funext hf]
    exact h.once
  · have hat : isAt key k ∘ f = isAt key k := funext fun a => by simp [isAt, hf]
    rw [List.find?_map, hat, h.finds]

/-- The entries a test accepts, each of them once. -/
theorem Tabulates.selected (h : Tabulates key cap l m) (p : α → Bool) :
    {a | a ∈ l.filter p} = {a | m (key a) = some a ∧ p a = true} ∧
      (l.filter p).length = Set.ncard {a | m (key a) = some a ∧ p a = true} := by
  have hset : {a | a ∈ l.filter p} = {a | m (key a) = some a ∧ p a = true} := by
    ext a
    have hmem : m (key a) = some a ↔ a ∈ l := by rw [h.get_iff, and_iff_left rfl]
    simp [hmem]
  refine ⟨hset, ?_⟩
  have hnodup : (l.filter p).Nodup := (List.Nodup.of_map key h.once).sublist List.filter_sublist
  classical
  rw [← hset, ← List.toFinset_card_of_nodup hnodup, ← Set.ncard_coe_finset]
  congr 1
  ext a
  simp

/-! ## In the first cells of an array -/

/-- Each of the `n` entries from `j` on moves one cell down. -/
def shiftDown : Nat → Nat → List α → List α
  | 0, _, cells => cells
  | n + 1, j, cells => shiftDown n (j + 1) (match cells[j]? with
    | some a => cells.set (j - 1) a
    | none => cells)

@[simp] theorem length_shiftDown (n j : Nat) (cells : List α) : (shiftDown n j cells).length = cells.length := by
  induction n generalizing j cells with
  | zero => rfl
  | succ n ih =>
    rw [shiftDown, ih]
    split
    · exact List.length_set
    · rfl

/-- The cell before is overwritten, and those in front of it stay. -/
theorem take_shiftDown {n i : Nat} {cells : List α} (h : i + 1 + n ≤ cells.length) :
    (shiftDown n (i + 1) cells).take (i + n) = cells.take i ++ (cells.drop (i + 1)).take n := by
  induction n generalizing i cells with
  | zero => simp [shiftDown]
  | succ n ih =>
    have hlt : i + 1 < cells.length := by omega
    have hlen : i + 1 + 1 + n ≤ (cells.set i cells[i + 1]).length := by
      rw [List.length_set]
      omega
    rw [shiftDown, List.getElem?_eq_getElem hlt]
    dsimp only
    rw [show i + (n + 1) = i + 1 + n by omega, show i + 1 - 1 = i by omega, ih hlen]
    have hfront : (cells.set i cells[i + 1]).take (i + 1) = cells.take i ++ [cells[i + 1]] := by
      rw [List.take_succ_eq_append_getElem (by rw [List.length_set]; omega), List.take_set_of_le (Nat.le_refl i)]
      simp
    have hback : (cells.set i cells[i + 1]).drop (i + 1 + 1) = cells.drop (i + 1 + 1) := List.drop_set_of_lt (by omega)
    rw [hfront, hback, List.append_assoc, List.drop_eq_getElem_cons hlt, List.take_succ_cons]
    rfl

/-- An array of `cap` cells, the first `count` in use. -/
structure Filled (α : Type) (cap : Nat) where
  cells : List α
  count : Nat
  width : cells.length = cap
  fits : count ≤ cap

namespace Filled

def empty (blank : α) : Filled α cap where
  cells := List.replicate cap blank
  count := 0
  width := List.length_replicate
  fits := Nat.zero_le _

def live (t : Filled α cap) : List α := t.cells.take t.count

@[simp] theorem live_empty (blank : α) : (empty blank : Filled α cap).live = [] := rfl

@[simp] theorem length_live (t : Filled α cap) : t.live.length = t.count := by
  rw [live, List.length_take, t.width, Nat.min_eq_left t.fits]

def find (t : Filled α cap) (p : α → Bool) : Option α := t.live.find? p

/-- Rewrite the first entry in use that `p` accepts. -/
def modify (t : Filled α cap) (p : α → Bool) (f : α → α) : Filled α cap where
  cells := modifyFirst p f t.live ++ t.cells.drop t.count
  count := t.count
  width := by
    rw [List.length_append, length_modifyFirst, ← List.length_append, live, List.take_append_drop, t.width]
  fits := t.fits

theorem live_modify (t : Filled α cap) : (t.modify p f).live = modifyFirst p f t.live :=
  List.take_left' (by rw [length_modifyFirst, length_live]; rfl)

/-- Take the next cell into use. -/
def append (t : Filled α cap) (a : α) (h : t.count < cap) : Filled α cap where
  cells := t.cells.set t.count a
  count := t.count + 1
  width := by rw [List.length_set, t.width]
  fits := h

/-- An append shows at the end of the live cells. -/
theorem live_append (t : Filled α cap) (h : t.count < cap) : (t.append a h).live = t.live ++ [a] := by
  have hlt : t.count < (t.cells.set t.count a).length := by rw [List.length_set, t.width]; exact h
  simp only [live, append]
  rw [List.take_succ_eq_append_getElem hlt, List.take_set_of_le (Nat.le_refl _)]
  simp

/-- Rewrite the entry of `k`, or take in a new one. -/
def upsert (t : Filled α cap) (key : α → κ) (k : κ) (f : α → α) (a : α) : Bool × Filled α cap :=
  if (t.find (isAt key k)).isSome then (true, t.modify (isAt key k) f)
  else if h : t.count < cap then (true, t.append a h)
  else (false, t)

/-- `upsert` finds or appends, and then changes the entry: a `put` of the changed value. -/
theorem upsert_spec {t : Filled α cap} (h : Tabulates key cap t.live m) (hf : ∀ a, key (f a) = key a) (hk : key a = k) :
    (t.upsert key k f a).1 = (put key cap m (((m k).map f).getD a)).1 ∧
      Tabulates key cap (t.upsert key k f a).2.live (put key cap m (((m k).map f).getD a)).2 := by
  unfold upsert
  rw [find, h.finds]
  cases hm : m k with
  | some b =>
    rw [if_pos Option.isSome_some, Option.map_some, Option.getD_some, put_amended h hf hm, live_modify]
    exact ⟨rfl, h.amend hf⟩
  | none =>
    rw [if_neg (by simp), Option.map_none, Option.getD_none]
    by_cases hroom : t.count < cap
    · have hlen : t.live.length < cap := by rwa [length_live]
      rw [dif_pos hroom, put_new h hlen, live_append]
      exact ⟨rfl, h.append (by rw [hk, hm]) hlen⟩
    · have hlen : t.live.length = cap := by rw [length_live]; exact Nat.le_antisymm t.fits (Nat.not_lt.mp hroom)
      rw [dif_neg hroom, put_full h (by rw [hk, hm]) hlen]
      exact ⟨rfl, h⟩

/-- Close the gap at the first entry in use that `p` accepts. -/
def remove (t : Filled α cap) (p : α → Bool) : Bool × Filled α cap :=
  match t.live.findIdx? p with
  | some i => (true,
    { cells := shiftDown (t.count - (i + 1)) (i + 1) t.cells
      count := t.count - 1
      width := by rw [length_shiftDown, t.width]
      fits := Nat.le_trans (Nat.sub_le _ _) t.fits })
  | none => (false, t)

/-- `remove` tells whether there was something to remove, and removes it. -/
theorem remove_spec (t : Filled α cap) :
    (t.remove p).1 = (t.find p).isSome ∧ (t.remove p).2.live = t.live.eraseP p := by
  unfold remove find
  rw [List.eraseP_eq_eraseIdx]
  cases hi : t.live.findIdx? p with
  | none =>
    rw [List.findIdx?_eq_none_iff] at hi
    have hnone : t.live.find? p = none := List.find?_eq_none.mpr fun x hx => by simp [hi x hx]
    exact ⟨by rw [hnone]; rfl, rfl⟩
  | some i =>
    obtain ⟨hlt, hp, -⟩ := List.findIdx?_eq_some_iff_getElem.mp hi
    have hcount : i < t.count := by simpa using hlt
    have hwidth := t.width
    have hfits := t.fits
    constructor
    · symm
      rw [List.find?_isSome]
      exact ⟨_, List.getElem_mem hlt, hp⟩
    · have hin : i + 1 + (t.count - (i + 1)) ≤ t.cells.length := by omega
      have hshift := take_shiftDown hin
      rw [show i + (t.count - (i + 1)) = t.count - 1 by omega] at hshift
      simp only [live]
      rw [hshift, List.eraseIdx_eq_take_drop_succ, List.take_take, List.drop_take]
      rw [Nat.min_eq_left (by omega)]

end Filled

/-! ## In any cells of an array -/

/-- An array of `cap` cells, each in use or not. -/
structure Slotted (α : Type) (cap : Nat) where
  slots : List (Option α)
  size : slots.length = cap

namespace Slotted

def empty : Slotted α cap := ⟨List.replicate cap none, List.length_replicate⟩

def live (t : Slotted α cap) : List α := t.slots.reduceOption

@[simp] theorem live_empty : (empty : Slotted α cap).live = [] := List.reduceOption_replicate_none

theorem shows_empty : Tabulates key cap (empty : Slotted α cap).live fun _ => none := by
  rw [live_empty]
  exact Tabulates.nil

theorem length_live (t : Slotted α cap) : t.live.length ≤ cap := by
  have hle := List.reduceOption_length_le t.slots
  rwa [t.size] at hle

def find (t : Slotted α cap) (p : α → Bool) : Option α := findUsed p t.slots

/-- Looking in the cells is looking in what they hold, in order. -/
theorem find_eq (t : Slotted α cap) : t.find p = t.live.find? p := by
  rw [find, live]
  induction t.slots with
  | nil => rfl
  | cons o slots ih =>
    cases o with
    | none => rw [findUsed_none_cons, List.reduceOption_cons_of_none, ih]
    | some a =>
      rw [findUsed_cons, List.reduceOption_cons_of_some, List.find?_cons, ih]
      cases p a <;> rfl

/-- Rewrite the first entry that `p` accepts. -/
def modify (t : Slotted α cap) (p : α → Bool) (f : α → α) : Slotted α cap where
  slots := modifyFirst (fun o => o.any p) (Option.map f) t.slots
  size := by rw [length_modifyFirst, t.size]

/-- Changing the first cell that matches changes the first of the held values that matches. -/
theorem live_modify (t : Slotted α cap) : (t.modify p f).live = modifyFirst p f t.live := by
  simp only [live, modify]
  induction t.slots with
  | nil => rfl
  | cons o slots ih =>
    cases o with
    | none => simpa [modifyFirst] using ih
    | some a =>
      rw [List.reduceOption_cons_of_some, modifyFirst, modifyFirst, Option.any_some]
      split
      · rfl
      · rw [List.reduceOption_cons_of_some, ih]

/-- Put an entry in the first free cell. -/
def fill (t : Slotted α cap) (a : α) : Option (Slotted α cap) :=
  match h : fillFirst a t.slots with
  | some slots => some ⟨slots, (length_fillFirst h).trans t.size⟩
  | none => none

theorem reduceOption_fillFirst : ∀ {slots slots' : List (Option α)}, fillFirst a slots = some slots' →
    ∃ l₁ l₂, slots.reduceOption = l₁ ++ l₂ ∧ slots'.reduceOption = l₁ ++ a :: l₂
  | [], _, h => by cases h
  | none :: slots, _, h => by
    cases h
    exact ⟨[], slots.reduceOption, by simp, by simp⟩
  | some b :: slots, _, h => by
    simp only [fillFirst, Option.map_eq_some_iff] at h
    obtain ⟨slots', h', rfl⟩ := h
    obtain ⟨l₁, l₂, hl, hl'⟩ := reduceOption_fillFirst h'
    exact ⟨b :: l₁, l₂, by simp [hl], by simp [hl']⟩

/-- A fill takes the first free cell, which may be between two live ones. -/
theorem live_fill {t t' : Slotted α cap} (h : t.fill a = some t') :
    ∃ l₁ l₂, t.live = l₁ ++ l₂ ∧ t'.live = l₁ ++ a :: l₂ := by
  unfold fill at h
  split at h
  · rename_i hfill
    cases h
    exact reduceOption_fillFirst hfill
  · cases h

/-- It fails exactly when every cell is taken. -/
theorem fill_eq_none {t : Slotted α cap} : t.fill a = none ↔ t.live.length = cap := by
  have hfull : fillFirst a t.slots = none ↔ t.live.length = cap := by
    have hiff := List.reduceOption_length_eq_iff (l := t.slots)
    rw [t.size] at hiff
    rw [fillFirst_eq_none, live, hiff]
  rw [← hfull, fill]
  split
  · rename_i hfill
    simp [hfill]
  · rename_i hfill
    simp [hfill]

/-- Rewrite the entry of `k`, or take in a new one. -/
def upsert (t : Slotted α cap) (key : α → κ) (k : κ) (f : α → α) (a : α) : Bool × Slotted α cap :=
  if (t.find (isAt key k)).isSome then (true, t.modify (isAt key k) f)
  else match t.fill a with
    | some t' => (true, t')
    | none => (false, t)

/-- A free cell takes in an entry of a new key, and there is one unless the map is full. -/
theorem shows_fill {t : Slotted α cap} (h : Tabulates key cap t.live m) (hk : m (key a) = none) :
    (t.fill a = none ∧ put key cap m a = (false, m)) ∨
      ∃ t', t.fill a = some t' ∧ put key cap m a = (true, Function.update m (key a) (some a)) ∧
        Tabulates key cap t'.live (Function.update m (key a) (some a)) := by
  cases hfill : t.fill a with
  | none => exact .inl ⟨rfl, put_full h hk (fill_eq_none.mp hfill)⟩
  | some t' =>
    have hroom : t.live.length < cap := by
      refine Nat.lt_of_le_of_ne t.length_live fun hfull => ?_
      rw [fill_eq_none.mpr hfull] at hfill
      cases hfill
    obtain ⟨l₁, l₂, hl, hl'⟩ := live_fill hfill
    refine .inr ⟨t', rfl, put_new h hroom, ?_⟩
    rw [hl] at h hroom
    rw [hl']
    exact h.insert hk hroom

/-- The same `upsert` where cells may be freed: a new entry may land in the middle. -/
theorem upsert_spec {t : Slotted α cap} (h : Tabulates key cap t.live m) (hf : ∀ a, key (f a) = key a) (hk : key a = k) :
    (t.upsert key k f a).1 = (put key cap m (((m k).map f).getD a)).1 ∧
      Tabulates key cap (t.upsert key k f a).2.live (put key cap m (((m k).map f).getD a)).2 := by
  unfold upsert
  rw [find_eq, h.finds]
  cases hm : m k with
  | some b =>
    rw [if_pos Option.isSome_some, Option.map_some, Option.getD_some, put_amended h hf hm, live_modify]
    exact ⟨rfl, h.amend hf⟩
  | none =>
    rw [if_neg (by simp), Option.map_none, Option.getD_none]
    rcases shows_fill h (hk ▸ hm) with ⟨hfill, hput⟩ | ⟨t', hfill, hput, ht'⟩
    · rw [hfill, hput]
      exact ⟨rfl, h⟩
    · rw [hfill, hput]
      exact ⟨rfl, ht'⟩

/-- Free the cell of the first entry that `p` accepts. -/
def free (t : Slotted α cap) (p : α → Bool) : Slotted α cap where
  slots := modifyFirst (fun o => o.any p) (fun _ => none) t.slots
  size := by rw [length_modifyFirst, t.size]

/-- Freeing the first that matches removes it from what is held. -/
theorem live_free (t : Slotted α cap) : (t.free p).live = t.live.eraseP p := by
  simp only [live, free]
  induction t.slots with
  | nil => rfl
  | cons o slots ih =>
    cases o with
    | none => simpa [modifyFirst] using ih
    | some a =>
      rw [List.reduceOption_cons_of_some, modifyFirst, Option.any_some, List.eraseP_cons]
      cases p a with
      | true => rfl
      | false => simpa using ih

/-- Free the cells of all entries that `p` accepts. -/
def freeAll (t : Slotted α cap) (p : α → Bool) : Slotted α cap where
  slots := t.slots.map fun o => if o.any p then none else o
  size := by rw [List.length_map, t.size]

/-- Freeing all that match filters what is held. -/
theorem live_freeAll (t : Slotted α cap) : (t.freeAll p).live = t.live.filter fun a => !p a := by
  simp only [live, freeAll]
  induction t.slots with
  | nil => rfl
  | cons o slots ih =>
    cases o with
    | none => simpa using ih
    | some a =>
      rw [List.reduceOption_cons_of_some, List.map_cons, Option.any_some, List.filter_cons]
      cases p a with
      | true => simpa using ih
      | false => simpa using ih

/-- Rewrite all entries. -/
def each (t : Slotted α cap) (f : α → α) : Slotted α cap where
  slots := t.slots.map (Option.map f)
  size := by rw [List.length_map, t.size]

theorem live_each (t : Slotted α cap) : (t.each f).live = t.live.map f := List.reduceOption_map

/-! A table from which nothing is ever taken away fills its cells from the first on. -/

section

variable {t : Slotted α cap}

/-- The entries in use come first. -/
def Packed (t : Slotted α cap) (l : List α) : Prop := t.slots = l.map some ++ List.replicate (cap - l.length) none

theorem packed_empty : (empty : Slotted α cap).Packed [] := rfl

theorem Packed.live (h : t.Packed l) : t.live = l := by
  rw [Slotted.live, h, List.reduceOption_append, List.reduceOption_replicate_none, List.append_nil]
  simp [List.reduceOption]

theorem Packed.find (h : t.Packed l) (p : α → Bool) : t.find p = l.find? p := by rw [find_eq, h.live]

theorem modifyFirst_some (rest : List (Option α)) (hrest : ∀ o ∈ rest, o = none) :
    modifyFirst (fun o => o.any p) (Option.map f) (l.map some ++ rest) = (modifyFirst p f l).map some ++ rest := by
  induction l with
  | nil =>
    induction rest with
    | nil => rfl
    | cons o rest ih =>
      obtain rfl := hrest o List.mem_cons_self
      have hmore := ih fun o ho => hrest o (List.mem_cons_of_mem _ ho)
      simpa [modifyFirst] using hmore
  | cons a l ih =>
    rw [List.map_cons, List.cons_append, modifyFirst, modifyFirst, Option.any_some]
    split
    · rfl
    · rw [ih]
      rfl

/-- A change in place keeps the table packed. -/
theorem Packed.modify (h : t.Packed l) : (t.modify p f).Packed (modifyFirst p f l) := by
  have hslots : (t.modify p f).slots = modifyFirst (fun o => o.any p) (Option.map f) t.slots := rfl
  rw [Packed, hslots, h, length_modifyFirst]
  exact modifyFirst_some _ fun o ho => List.eq_of_mem_replicate ho

theorem fillFirst_packed (n : Nat) :
    fillFirst a (l.map some ++ List.replicate (n + 1) none) = some ((l ++ [a]).map some ++ List.replicate n none) := by
  induction l with
  | nil => rfl
  | cons b l ih =>
    rw [List.map_cons, List.cons_append, fillFirst, ih]
    rfl

theorem map_fill (t : Slotted α cap) : (t.fill a).map Slotted.slots = fillFirst a t.slots := by
  unfold Slotted.fill
  split
  · rename_i hslots
    exact hslots.symm
  · rename_i hslots
    exact hslots.symm

/-- In a packed table a fill appends. -/
theorem Packed.fill (h : t.Packed l) (hroom : l.length < cap) : ∃ t', t.fill a = some t' ∧ t'.Packed (l ++ [a]) := by
  have hfill : fillFirst a t.slots = some ((l ++ [a]).map some ++ List.replicate (cap - (l ++ [a]).length) none) := by
    rw [h, List.length_append, List.length_singleton, ← fillFirst_packed]
    congr 3
    omega
  rw [← map_fill] at hfill
  exact Option.map_eq_some_iff.mp hfill

/-- A fill fails when the packed table is full. -/
theorem Packed.full (h : t.Packed l) (hfull : l.length = cap) : t.fill a = none := fill_eq_none.mpr (h.live ▸ hfull)

theorem Packed.each (h : t.Packed l) : (t.each f).Packed (l.map f) := by
  have hslots : (t.each f).slots = t.slots.map (Option.map f) := rfl
  rw [Packed, hslots, h]
  simp

end

end Slotted

end FiniteMaps
