import SlopSync.Keyed
import SlopSync.Registry

/-! # Who controls each source

`session/safety.hpp`, `SourceOwnershipTable`.  Up to four application-defined source ids, each with at most
one owning session.  The table is read through `ownerOf`; the lemmas say how `acquire` and `update` change it.
`releaseAllOf` of the source is the loop over `ownedBy` in `releaseSessionSources`, which also tells the delegate. -/

namespace SlopSync

open Keyed

structure OwnerEntry where
  sourceId : UInt8
  owner : UInt32 := 0
  role : AccessLevel := .watch
  deriving DecidableEq, Repr

def kMaxSources : Nat := 4

/-- The used entries, in table order. -/
structure SourceOwnershipTable where
  entries : List OwnerEntry := []
  fits : entries.length ≤ kMaxSources := by first | exact Nat.zero_le _ | decide
  keyed : (entries.map OwnerEntry.sourceId).Nodup := by first | exact List.nodup_nil | decide
  deriving DecidableEq

inductive AcquireResult
  | acquired | alreadyOwner | conflict | takenOver
  deriving DecidableEq, Repr

namespace SourceOwnershipTable

def find (t : SourceOwnershipTable) (src : UInt8) : Option OwnerEntry :=
  t.entries.find? (fun e => e.sourceId == src)

/-- The session that owns `src`; 0 when there is none. -/
def ownerOf (t : SourceOwnershipTable) (src : UInt8) : UInt32 :=
  ((t.find src).map OwnerEntry.owner).getD 0

/-- The role of the owner when it took `src`. -/
def ownerRoleOf (t : SourceOwnershipTable) (src : UInt8) : AccessLevel :=
  ((t.find src).map OwnerEntry.role).getD .watch

/-- Rewrite the entry of `src`. -/
def update (t : SourceOwnershipTable) (src : UInt8) (owner : UInt32) (role : AccessLevel) :
    SourceOwnershipTable where
  entries := modifyFirst (fun e => e.sourceId == src) (fun e => { e with owner, role }) t.entries
  fits := by simpa using t.fits
  keyed := by
    have h := map_modifyFirst (p := fun e : OwnerEntry => e.sourceId == src)
      (f := fun e => { e with owner, role }) (g := OwnerEntry.sourceId) (fun _ => rfl) t.entries
    rw [h]
    exact t.keyed

/-- The table with an entry for `src`, or nothing when four other ids are in use. -/
def findOrCreate (t : SourceOwnershipTable) (src : UInt8) : Option SourceOwnershipTable :=
  if hf : (t.find src).isSome then some t
  else if h : t.entries.length < kMaxSources then
    some
      { entries := t.entries ++ [{ sourceId := src }]
        fits := by rw [List.length_append]; exact h
        keyed := by
          have hnone : t.entries.find? (fun e => e.sourceId == src) = none := by simpa [find] using hf
          rw [List.map_append, List.nodup_append]
          refine ⟨t.keyed, by simp, ?_⟩
          intro a ha b hb
          obtain ⟨e, he, rfl⟩ := List.mem_map.mp ha
          have := List.find?_eq_none.mp hnone e he
          simp only [List.map_cons, List.map_nil, List.mem_singleton] at hb
          subst hb
          simpa using this }
  else none

/-- The first session to activate a source owns it; a takeover needs a role at least the owner's.  Refusals
leave the new, unowned entry behind. -/
def acquire (t : SourceOwnershipTable) (src : UInt8) (sid : UInt32) (role : AccessLevel) (takeover : Bool) :
    AcquireResult × SourceOwnershipTable :=
  match t.findOrCreate src with
  | none => (.conflict, t)
  | some t' =>
    let owner := t'.ownerOf src
    let ownerRole := ((t'.find src).map OwnerEntry.role).getD .watch
    if owner = 0 then (.acquired, t'.update src sid role)
    else if owner = sid then (.alreadyOwner, t')
    else if takeover && decide (ownerRole ≤ role) then (.takenOver, t'.update src sid role)
    else (.conflict, t')

/-- The sources `sid` owns, in table order. -/
def ownedBy (t : SourceOwnershipTable) (sid : UInt32) : List UInt8 :=
  (t.entries.filter (fun e => e.owner == sid)).map OwnerEntry.sourceId

/-! ## What the operations change -/

theorem find_update_self (t : SourceOwnershipTable) (src : UInt8) (o : UInt32) (r : AccessLevel) :
    (t.update src o r).find src = (t.find src).map (fun e => { e with owner := o, role := r }) :=
  find?_modifyFirst_self (p := fun e : OwnerEntry => e.sourceId == src)
    (f := fun e : OwnerEntry => { e with owner := o, role := r }) (fun _ => rfl) t.entries

theorem find_update_other (t : SourceOwnershipTable) {src s : UInt8} (h : s ≠ src) (o : UInt32) (r : AccessLevel) :
    (t.update src o r).find s = t.find s := by
  have hkey : ∀ a : OwnerEntry, (a.sourceId == src) = true → (a.sourceId == s) = false := by
    intro a ha
    simp only [beq_iff_eq] at ha
    simp [ha, Ne.symm h]
  exact find?_modifyFirst_other (f := fun e => { e with owner := o, role := r }) hkey (fun a ha => hkey a ha) t.entries

theorem ownerOf_update_self {t : SourceOwnershipTable} {src : UInt8} (h : (t.find src).isSome) (o : UInt32)
    (r : AccessLevel) : (t.update src o r).ownerOf src = o := by
  obtain ⟨e, he⟩ := Option.isSome_iff_exists.mp h
  simp [ownerOf, find_update_self, he]

theorem ownerRoleOf_update_self {t : SourceOwnershipTable} {src : UInt8} (h : (t.find src).isSome) (o : UInt32)
    (r : AccessLevel) : (t.update src o r).ownerRoleOf src = r := by
  obtain ⟨e, he⟩ := Option.isSome_iff_exists.mp h
  simp [ownerRoleOf, find_update_self, he]

theorem ownerRoleOf_update_other (t : SourceOwnershipTable) {src s : UInt8} (h : s ≠ src) (o : UInt32)
    (r : AccessLevel) : (t.update src o r).ownerRoleOf s = t.ownerRoleOf s := by
  simp [ownerRoleOf, find_update_other t h]

theorem ownerOf_update_other (t : SourceOwnershipTable) {src s : UInt8} (h : s ≠ src) (o : UInt32)
    (r : AccessLevel) : (t.update src o r).ownerOf s = t.ownerOf s := by
  simp [ownerOf, find_update_other t h]

/-- Creating an entry records no owner. -/
theorem findOrCreate_spec {t t' : SourceOwnershipTable} {src : UInt8} (h : t.findOrCreate src = some t') :
    (t'.find src).isSome ∧ ∀ s, t'.ownerOf s = t.ownerOf s ∧ t'.ownerRoleOf s = t.ownerRoleOf s := by
  simp only [findOrCreate] at h
  split at h
  · rename_i hf
    cases h
    exact ⟨hf, fun _ => ⟨rfl, rfl⟩⟩
  · rename_i hf
    split at h
    · cases h
      have hnone : t.entries.find? (fun e => e.sourceId == src) = none := by simpa [find] using hf
      refine ⟨by simp [find, List.find?_append, hnone], fun s => ?_⟩
      simp only [ownerOf, ownerRoleOf, find, List.find?_append]
      cases hs : t.entries.find? (fun e => e.sourceId == s) with
      | some e => simp
      | none =>
        by_cases he : src = s
        · simp [he]
        · have : (src == s) = false := by simpa using he
          simp [this]
    · cases h

/-- **What one acquisition does**: a free source or a permitted takeover makes `sid` the owner, with its role;
otherwise no owner changes. -/
theorem acquire_spec {t t' : SourceOwnershipTable} {src : UInt8} {sid : UInt32} {role : AccessLevel}
    {takeover : Bool} {res : AcquireResult} (h : t.acquire src sid role takeover = (res, t')) :
    ((res = .acquired ∧ t.ownerOf src = 0) ∨
        (res = .takenOver ∧ takeover = true ∧ t.ownerOf src ≠ 0 ∧ t.ownerOf src ≠ sid ∧ t.ownerRoleOf src ≤ role)) ∧
        t'.ownerOf = Function.update t.ownerOf src sid ∧ t'.ownerRoleOf = Function.update t.ownerRoleOf src role ∨
      ((res = .alreadyOwner ∧ t.ownerOf src = sid ∧ sid ≠ 0) ∨ res = .conflict) ∧
        t'.ownerOf = t.ownerOf ∧ t'.ownerRoleOf = t.ownerRoleOf := by
  simp only [acquire] at h
  split at h
  · cases h
    exact .inr ⟨.inr rfl, rfl, rfl⟩
  · rename_i t₁ hc
    obtain ⟨hsome, hkeep⟩ := findOrCreate_spec hc
    have hown : t₁.ownerOf = t.ownerOf := funext fun s => (hkeep s).1
    have hrole : t₁.ownerRoleOf = t.ownerRoleOf := funext fun s => (hkeep s).2
    have htaken : (t₁.update src sid role).ownerOf = Function.update t.ownerOf src sid ∧
        (t₁.update src sid role).ownerRoleOf = Function.update t.ownerRoleOf src role := by
      rw [← hown, ← hrole]
      constructor
      · funext s
        by_cases hs : s = src
        · subst hs
          rw [Function.update_self, ownerOf_update_self hsome]
        · rw [Function.update_of_ne hs, ownerOf_update_other t₁ hs]
      · funext s
        by_cases hs : s = src
        · subst hs
          rw [Function.update_self, ownerRoleOf_update_self hsome]
        · rw [Function.update_of_ne hs, ownerRoleOf_update_other t₁ hs]
    rw [hown] at h
    split at h
    · rename_i h0
      cases h
      exact .inl ⟨.inl ⟨rfl, h0⟩, htaken⟩
    · rename_i h0
      split at h
      · rename_i hsid
        cases h
        exact .inr ⟨.inl ⟨rfl, hsid, fun e => h0 (hsid.trans e)⟩, hown, hrole⟩
      · rename_i hsid
        split at h
        · rename_i hover
          rw [Bool.and_eq_true, decide_eq_true_eq] at hover
          cases h
          refine .inl ⟨.inr ⟨rfl, hover.1, h0, hsid, ?_⟩, htaken⟩
          rw [← hrole]
          exact hover.2
        · cases h
          exact .inr ⟨.inr rfl, hown, hrole⟩

/-- Releasing a source leaves it without an owner, known to the table or not. -/
theorem ownerOf_update_zero (t : SourceOwnershipTable) (src s : UInt8) (r : AccessLevel) :
    (t.update src 0 r).ownerOf s = if s = src then 0 else t.ownerOf s := by
  by_cases h : s = src
  · subst h
    rw [if_pos rfl, ownerOf, find_update_self]
    cases t.find s <;> rfl
  · rw [if_neg h, ownerOf_update_other t h]

theorem ownerRoleOf_update_watch (t : SourceOwnershipTable) (src s : UInt8) (o : UInt32) :
    (t.update src o .watch).ownerRoleOf s = if s = src then .watch else t.ownerRoleOf s := by
  by_cases h : s = src
  · subst h
    rw [if_pos rfl, ownerRoleOf, find_update_self]
    cases t.find s <;> rfl
  · rw [if_neg h, ownerRoleOf, find_update_other t h]
    rfl

theorem find_of_mem {t : SourceOwnershipTable} {e : OwnerEntry} (h : e ∈ t.entries) : t.find e.sourceId = some e := by
  have hk := t.keyed
  rw [find]
  generalize t.entries = l at h hk
  induction l with
  | nil => cases h
  | cons a l ih =>
    rw [List.map_cons, List.nodup_cons] at hk
    rcases List.mem_cons.mp h with rfl | h
    · simp
    · have hne : (a.sourceId == e.sourceId) = false := by
        rw [beq_eq_false_iff_ne]
        intro heq
        exact hk.1 (heq ▸ List.mem_map_of_mem h)
      rw [List.find?_cons, hne]
      exact ih h hk.2

theorem ownerOf_of_mem_ownedBy {t : SourceOwnershipTable} {sid : UInt32} {s : UInt8} (h : s ∈ t.ownedBy sid) :
    t.ownerOf s = sid := by
  simp only [ownedBy, List.mem_map, List.mem_filter, beq_iff_eq] at h
  obtain ⟨e, ⟨he, ho⟩, rfl⟩ := h
  simp [ownerOf, find_of_mem he, ho]

theorem mem_ownedBy {t : SourceOwnershipTable} {sid : UInt32} {s : UInt8} (h0 : sid ≠ 0) :
    s ∈ t.ownedBy sid ↔ t.ownerOf s = sid := by
  refine ⟨ownerOf_of_mem_ownedBy, fun ho => ?_⟩
  simp only [ownedBy, List.mem_map, List.mem_filter, beq_iff_eq]
  simp only [ownerOf, find] at ho
  cases hf : t.entries.find? (fun e => e.sourceId == s) with
  | none =>
    rw [hf] at ho
    exact absurd ho.symm h0
  | some e =>
    rw [hf] at ho
    have hs : e.sourceId = s := by simpa using List.find?_some hf
    exact ⟨e, ⟨List.mem_of_find?_eq_some hf, by simpa using ho⟩, hs⟩

theorem nodup_ownedBy (t : SourceOwnershipTable) (sid : UInt32) : (t.ownedBy sid).Nodup :=
  t.keyed.sublist (List.filter_sublist.map OwnerEntry.sourceId)

end SourceOwnershipTable

end SlopSync
