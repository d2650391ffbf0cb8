import Mathlib.Data.List.Nodup
import SlopSync.Keyed

/-! # Insertion-ordered maps

A map that remembers the order in which its keys first came: setting a key that is there keeps its place, and walking the
map meets the oldest key first.  The entries carry that no key occurs twice, so that an entry is found by its key. -/

structure OrderedMap (κ α : Type) where
  entries : List (κ × α)
  nodup : (entries.map Prod.fst).Nodup

namespace OrderedMap

open Keyed

variable {κ α : Type} [DecidableEq κ]

def empty : OrderedMap κ α := ⟨[], List.nodup_nil⟩

instance : Inhabited (OrderedMap κ α) := ⟨empty⟩

def keys (m : OrderedMap κ α) : List κ := m.entries.map Prod.fst

def get (m : OrderedMap κ α) (k : κ) : Option α := (m.entries.find? (fun e => e.1 == k)).map Prod.snd

def has (m : OrderedMap κ α) (k : κ) : Bool := (m.get k).isSome

def delete (m : OrderedMap κ α) (k : κ) : OrderedMap κ α where
  entries := m.entries.filter (fun e => e.1 != k)
  nodup := m.nodup.sublist (List.filter_sublist.map _)

theorem mem_keys {m : OrderedMap κ α} {k : κ} : k ∈ m.keys ↔ m.has k = true := by
  simp [keys, has, get, List.find?_isSome]

theorem keys_modifyFirst (m : OrderedMap κ α) (k : κ) (a : α) :
    (modifyFirst (fun e : κ × α => e.1 == k) (fun e => (e.1, a)) m.entries).map Prod.fst = m.keys :=
  map_modifyFirst (g := Prod.fst) (fun _ => by rfl) m.entries

theorem nodup_set (m : OrderedMap κ α) (k : κ) (a : α) :
    ((if m.has k then modifyFirst (fun e => e.1 == k) (fun e => (e.1, a)) m.entries
      else m.entries ++ [(k, a)]).map Prod.fst).Nodup := by
  split
  · rw [keys_modifyFirst]
    exact m.nodup
  · rename_i h
    have hk : k ∉ m.entries.map Prod.fst := fun hk => h (mem_keys.mp hk)
    rw [List.map_append]
    refine List.Nodup.append m.nodup (List.nodup_singleton k) ?_
    simpa using hk

/-- A key that is there keeps its place. -/
def set (m : OrderedMap κ α) (k : κ) (a : α) : OrderedMap κ α where
  entries :=
    if m.has k then modifyFirst (fun e => e.1 == k) (fun e => (e.1, a)) m.entries else m.entries ++ [(k, a)]
  nodup := nodup_set m k a

/-! ## Looking up -/

theorem mem_entries {m : OrderedMap κ α} {k : κ} {a : α} : (k, a) ∈ m.entries ↔ m.get k = some a := by
  constructor
  · intro h
    have hfind : (m.entries.find? (fun e => e.1 == k)) = some (k, a) := by
      obtain ⟨x, hx⟩ := Option.isSome_iff_exists.mp
        (List.find?_isSome.mpr ⟨(k, a), h, beq_self_eq_true k⟩ : (m.entries.find? (fun e => e.1 == k)).isSome = true)
      have hmem := List.mem_of_find?_eq_some hx
      have hkey : x.1 = k := by simpa using List.find?_some hx
      rw [hx, List.inj_on_of_nodup_map m.nodup hmem h hkey]
    rw [get, hfind]
    rfl
  · intro h
    obtain ⟨x, hx, rfl⟩ := Option.map_eq_some_iff.mp h
    have hkey : x.1 = k := by simpa using List.find?_some hx
    subst hkey
    exact List.mem_of_find?_eq_some hx

@[simp] theorem get_empty (k : κ) : (empty : OrderedMap κ α).get k = none := rfl

@[simp] theorem get_set_self (m : OrderedMap κ α) (k : κ) (a : α) : (m.set k a).get k = some a := by
  have hmem : (k, a) ∈ (m.set k a).entries := by
    unfold set
    dsimp only
    split
    · rename_i h
      obtain ⟨b, hb⟩ := Option.isSome_iff_exists.mp h
      have hself := find?_modifyFirst_self (p := fun e : κ × α => e.1 == k) (f := fun e => (e.1, a)) (fun _ => rfl)
        m.entries
      obtain ⟨x, hx, -⟩ := Option.map_eq_some_iff.mp hb
      have hkey : x.1 = k := by simpa using List.find?_some hx
      rw [hx, Option.map_some, hkey] at hself
      exact List.mem_of_find?_eq_some hself
    · exact List.mem_append_right _ (List.mem_singleton.mpr rfl)
  exact mem_entries.mp hmem

theorem get_set_ne (m : OrderedMap κ α) {k k' : κ} (a : α) (h : k' ≠ k) : (m.set k a).get k' = m.get k' := by
  unfold get set
  dsimp only
  split
  · rw [find?_modifyFirst_other (q := fun e : κ × α => e.1 == k')]
    · intro e he
      have hkey : e.1 = k := by simpa using he
      simpa [hkey] using Ne.symm h
    · intro e he
      have hkey : e.1 = k := by simpa using he
      simpa [hkey] using Ne.symm h
  · rw [List.find?_append]
    have hlast : [(k, a)].find? (fun e => e.1 == k') = none := by simpa using Ne.symm h
    rw [hlast, Option.or_none]

@[simp] theorem get_delete_self (m : OrderedMap κ α) (k : κ) : (m.delete k).get k = none := by
  simp [get, delete, List.find?_filter]

theorem get_delete_ne (m : OrderedMap κ α) {k k' : κ} (h : k' ≠ k) : (m.delete k).get k' = m.get k' := by
  unfold get delete
  dsimp only
  rw [List.find?_filter]
  congr 2
  funext e
  by_cases he : e.1 = k'
  · simp [he, h]
  · simp [he]

theorem get_delete_some {m : OrderedMap κ α} {k k' : κ} {a : α} (h : (m.delete k).get k' = some a) :
    k' ≠ k ∧ m.get k' = some a := by
  by_cases hk : k' = k
  · subst hk
    rw [get_delete_self] at h
    cases h
  · exact ⟨hk, (get_delete_ne m hk).symm.trans h⟩

theorem get_set_some {m : OrderedMap κ α} {k k' : κ} {a b : α} (h : (m.set k a).get k' = some b) :
    (k' = k ∧ b = a) ∨ (k' ≠ k ∧ m.get k' = some b) := by
  by_cases hk : k' = k
  · subst hk
    rw [get_set_self] at h
    exact .inl ⟨rfl, (Option.some.inj h).symm⟩
  · exact .inr ⟨hk, (get_set_ne m a hk).symm.trans h⟩

/-! ## Filling a map from a list -/

/-- Later items overwrite earlier ones. -/
def ofList {β : Type} (key : β → κ) (l : List β) : OrderedMap κ β := l.foldl (fun m b => m.set (key b) b) empty

theorem get_foldl_set {β : Type} (key : β → κ) (k : κ) : ∀ (l : List β) (m : OrderedMap κ β),
    (l.foldl (fun m b => m.set (key b) b) m).get k = (l.reverse.find? (fun b => key b == k)).or (m.get k)
  | [], m => by simp
  | b :: l, m => by
    rw [List.foldl_cons, get_foldl_set key k l, List.reverse_cons, List.find?_append, Option.or_assoc]
    congr 1
    by_cases hb : k = key b
    · subst hb
      simp
    · rw [get_set_ne m b hb]
      have hbk : (key b == k) = false := by simpa using Ne.symm hb
      simp [hbk]

/-- What is found under a key is the last item that has it. -/
theorem get_ofList {β : Type} (key : β → κ) (l : List β) (k : κ) :
    (ofList key l).get k = l.reverse.find? (fun b => key b == k) := by
  rw [ofList, get_foldl_set, get_empty, Option.or_none]

end OrderedMap
