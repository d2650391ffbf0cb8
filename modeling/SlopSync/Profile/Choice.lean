import Mathlib.Data.List.Basic
import SlopSync.Profile.Decoder

/-! # Decoders that choose

A decoder may refuse without a read, look at the type of the value first, or try another read where one fails.  `mapOf` is a
map with a bound on its pairs, `enum` an enumeration by its wire values.

`record_ascending` is how a fact about the state of a record is shown: it holds at the start, and each key keeps it. -/

namespace SlopSync

open CborWriter CborReader

namespace CborDecoder

variable {α β σ τ : Type}

/-- Fail, whatever comes. -/
def refuse (e : DecodeError) : CborDecoder α where
  read _ := .error e
  ofTree _ := none
  takes := takes_error e

/-- A decoder for each type of value. -/
def byType (k : MajorType → CborDecoder α) : CborDecoder α where
  read r := do
    let ty ← r.peekType
    (k ty).read r
  ofTree t := (k t.type).ofTree t
  takes := takes_peek fun ty => (k ty).takes

/-- Where the first read fails, the second starts at the same place. -/
def orElse (d d' : CborDecoder α) (e : DecodeError) : CborDecoder α where
  read r := match d.read r with
    | .ok x => .ok x
    | .error _ => match d'.read r with
      | .ok x => .ok x
      | .error _ => .error e
  ofTree t := (d.ofTree t).or (d'.ofTree t)
  takes := by
    constructor
    · intro r r' a hlo hr hok
      cases h : d.read r with
      | ok x =>
        obtain rfl : x = (a, r') := by simpa [h] using hok
        obtain ⟨t, hfits, hsplit, hstack, hof⟩ := d.takes.sound hlo hr h
        exact ⟨t, hfits, hsplit, hstack, by rw [hof, Option.some_or]⟩
      | error e₁ =>
        cases h' : d'.read r with
        | error e₂ => simp [h, h'] at hok
        | ok x =>
          obtain rfl : x = (a, r') := by simpa [h, h'] using hok
          obtain ⟨t, hfits, hsplit, hstack, hof⟩ := d'.takes.sound hlo hr h'
          have hnone : d.ofTree t = none := by
            by_contra hsome
            obtain ⟨b, hb⟩ := Option.ne_none_iff_exists'.mp hsome
            have hread := d.takes.complete (u := r'.rest) hlo hr hfits hb
            rw [← hsplit, h] at hread
            cases hread
          exact ⟨t, hfits, hsplit, hstack, by rw [hnone, Option.none_or, hof]⟩
    · intro t u s a hlo hs hfits hof
      cases h : d.ofTree t with
      | some b =>
        rw [h, Option.some_or] at hof
        obtain rfl := Option.some.inj hof
        rw [d.takes.complete (u := u) hlo hs hfits h]
      | none =>
        rw [h, Option.none_or] at hof
        rw [d'.takes.complete (u := u) hlo hs hfits hof]
        cases hread : d.read ⟨t.encode ++ u, s⟩ with
        | error e₁ => rfl
        | ok x =>
          have hsome := ((d.takes.ok_iff hlo hs hfits).mp hread).1
          rw [h] at hsome
          cases hsome

/-- A map that is refused for the number of its pairs, or read into one state. -/
def mapOf (bad : Nat → Prop) [DecidablePred bad] (e : DecodeError) (init : Nat → σ) (field : Nat → σ → CborDecoder σ)
    (done : Nat → σ → τ) : CborDecoder τ where
  read r := do
    let (n, r) ← r.readMapHeader
    if bad n then .error e
    else
      let (s, r) ← pairs (fun k s => (field k s).read) n (init n) r
      return (done n s, r)
  ofTree
    | .map ps => if bad ps.length then none
      else (ps.foldlM (fun s p => (field p.1 s).ofTree p.2) (init ps.length)).map (done ps.length)
    | _ => none
  takes := (takes_map (fun k s => (field k s).takes.mono (Nat.zero_le _)) bad e init done).congr (fun _ => rfl)
    (fun t => by cases t <;> rfl)

/-- A value of an enumeration, whose wire values are the positions in the list. -/
def enum (vs : List α) : CborDecoder α := uint.andThen fun v => vs[v.toNat]?.elim (.error .malformed) .ok

@[simp] theorem refuse_ofTree (e : DecodeError) (t : CborTree) : (refuse e : CborDecoder α).ofTree t = none := rfl

@[simp] theorem byType_ofTree (k : MajorType → CborDecoder α) (t : CborTree) :
    (byType k).ofTree t = (k t.type).ofTree t := rfl

@[simp] theorem orElse_ofTree (d d' : CborDecoder α) (e : DecodeError) (t : CborTree) :
    (d.orElse d' e).ofTree t = (d.ofTree t).or (d'.ofTree t) := rfl

theorem enum_ofTree [DecidableEq α] {vs : List α} {a : α} (ha : a ∈ vs) (hlen : vs.length ≤ 2 ^ 64) :
    (enum vs).ofTree (.uint (vs.idxOf a)) = some a := by
  have hlt := List.idxOf_lt_length_of_mem ha
  have hsize : UInt64.size = 2 ^ 64 := rfl
  rw [enum, andThen_ofTree, uint_ofTree, Option.bind_some, UInt64.toNat_ofNat_of_lt' (by omega),
    List.getElem?_eq_getElem hlt, List.getElem_idxOf hlt]
  rfl

/-! ## What is kept -/

/-- The keys of a map come in order, and each is met at most once.  `P k` is what holds while all keys so far are below `k`. -/
theorem foldlM_ascending (step : σ → Nat × CborTree → Option σ) {P : Nat → σ → Prop} {ps : List (Nat × CborTree)}
    (hstep : ∀ k p s s', p ∈ ps → k ≤ p.1 → P k s → step s p = some s' → P (p.1 + 1) s') (hasc : CborTree.Ascending ps)
    {k : Nat} {s s' : σ} (hfrom : ∀ p ∈ ps, k ≤ p.1) (hs : P k s) (hfold : ps.foldlM step s = some s') : ∃ k, P k s' := by
  induction ps generalizing k s with
  | nil =>
    obtain rfl := Option.some.inj hfold
    exact ⟨k, hs⟩
  | cons p ps ih =>
    obtain ⟨hfirst, hasc⟩ := List.pairwise_cons.mp hasc
    rw [List.foldlM_cons] at hfold
    obtain ⟨s₁, hs₁, hfold⟩ := Option.bind_eq_some_iff.mp hfold
    exact ih (fun k q s s' hq => hstep k q s s' (List.mem_cons_of_mem p hq)) hasc
      (fun q hq => hfirst q.1 (List.mem_map_of_mem hq))
      (hstep k p s s₁ (List.mem_cons_self ..) (hfrom p (List.mem_cons_self ..)) hs hs₁) hfold

/-- **What each key of a record keeps, the record keeps.** -/
theorem record_ascending {init s : σ} {field : Nat → σ → CborDecoder σ} {P : Nat → σ → Prop} {t : CborTree} {d : Nat}
    (hstep : ∀ k j s v s' d, k ≤ j → P k s → CborTree.Fits d v → (field j s).ofTree v = some s' → P (j + 1) s')
    (hinit : P 0 init) (ht : CborTree.Fits d t) (h : (record init field).ofTree t = some s) : ∃ k, P k s := by
  cases ht with
  | @map d ps _ hasc _ hps =>
    exact foldlM_ascending (fun s p => (field p.1 s).ofTree p.2)
      (fun k p s s' hp hk hs => hstep k p.1 s p.2 s' d hk hs (hps p hp)) hasc (fun p _ => Nat.zero_le p.1) hinit h
  | _ => cases h

end CborDecoder

end SlopSync
