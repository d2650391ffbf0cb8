import Mathlib.Algebra.Order.Archimedean.Basic
import Mathlib.Algebra.Order.Field.Basic
import Mathlib.Data.List.Chain
import Mathlib.Tactic.Linarith
import Mathlib.Tactic.Ring

/-! # Token buckets

A bucket fills at a rate up to its capacity, and gives what is asked of it or nothing.

- `taken_le`: what is taken in a stretch of time is at most a full bucket and what flows in meanwhile;
- `prompt_serve`: one token asked for after a pause in which one flows in is given;
- `drip_unbounded`: a drip that is always served takes no more than flows in, so it must not be too fast. -/

namespace Buckets

/-- `rate` tokens flow in for each unit of time. -/
structure Bucket (K : Type) where
  rate : K
  cap : K
  level : K

/-- Something asked of a bucket, and whether it was given. -/
structure Draw where
  time : Nat
  amount : Nat
  ok : Bool
  deriving DecidableEq, Repr

namespace Draw

def counts (start stop : Nat) (x : Draw) : Bool := x.ok && decide (start ≤ x.time ∧ x.time ≤ stop)

end Draw

/-- What was given from `start` to `stop`. -/
def taken (start stop : Nat) (log : List Draw) : Nat := ((log.filter (Draw.counts start stop)).map Draw.amount).sum

/-- One token asked for `gap` or more after all that was given is given. -/
def Prompt {K : Type} [Field K] [LinearOrder K] (gap : K) (log : List Draw) : Prop :=
  ∀ earlier x later, log = earlier ++ x :: later → x.amount = 1 →
    (∀ y ∈ earlier, y.ok = true → 0 < y.amount → gap ≤ (x.time : K) - y.time) → x.ok = true

theorem taken_cons (start stop : Nat) (x : Draw) (log : List Draw) :
    taken start stop (x :: log) = (if x.counts start stop then x.amount else 0) + taken start stop log := by
  rw [taken, List.filter_cons]
  split
  · rw [List.map_cons, List.sum_cons]
    rfl
  · rw [Nat.zero_add]
    rfl

section

variable {K : Type} [Field K] [LinearOrder K] [IsStrictOrderedRing K]

namespace Bucket

def refill (b : Bucket K) (dt : K) : Bucket K := { b with level := min b.cap (b.level + b.rate * dt) }

/-- All or nothing. -/
def take (b : Bucket K) (n : K) : Bool × Bucket K :=
  if n ≤ b.level then (true, { b with level := b.level - n }) else (false, b)

/-- Draws of the given times and amounts, since `last`. -/
def serve (b : Bucket K) (last : Nat) : List (Nat × Nat) → List Draw
  | [] => []
  | (time, amount) :: rest =>
    let b := b.refill ((time : K) - last)
    ⟨time, amount, (b.take amount).1⟩ :: serve (b.take amount).2 time rest

end Bucket

/-- Times in order. -/
def Ordered (last : Nat) (asks : List (Nat × Nat)) : Prop := (last :: asks.map Prod.fst).IsChain (· ≤ ·)

variable {b : Bucket K} {last : Nat} {asks : List (Nat × Nat)}

theorem ordered_cons {last : Nat} {a : Nat × Nat} {asks : List (Nat × Nat)} :
    Ordered last (a :: asks) ↔ last ≤ a.1 ∧ Ordered a.1 asks := List.isChain_cons_cons

omit [IsStrictOrderedRing K] in
theorem take_spec (b : Bucket K) (n : K) : (b.take n).2.rate = b.rate ∧ (b.take n).2.cap = b.cap ∧
    (b.take n).2.level = if (b.take n).1 then b.level - n else b.level := by
  unfold Bucket.take
  split <;> exact ⟨rfl, rfl, rfl⟩

theorem take_level (b : Bucket K) (hb : 0 ≤ b.level) (n : Nat) :
    0 ≤ (b.take n).2.level ∧ (b.take n).2.level ≤ b.level := by
  have hn : (0 : K) ≤ n := Nat.cast_nonneg n
  unfold Bucket.take
  split
  · rename_i h
    exact ⟨sub_nonneg.mpr h, sub_le_self _ hn⟩
  · exact ⟨hb, le_refl _⟩

omit [IsStrictOrderedRing K] in
/-- Nothing is taken in a stretch that is over. -/
theorem taken_over (b : Bucket K) {start stop : Nat} (hover : stop < last) (hasks : Ordered last asks) :
    taken start stop (b.serve last asks) = 0 := by
  induction asks generalizing b last with
  | nil => rfl
  | cons a asks ih =>
    obtain ⟨time, amount⟩ := a
    obtain ⟨hle, hrest⟩ := ordered_cons.mp hasks
    dsimp only at hle
    rw [Bucket.serve, taken_cons, ih _ (Nat.lt_of_lt_of_le hover hle) hrest, if_neg]
    simp only [Draw.counts, Bool.and_eq_true, decide_eq_true_eq, not_and]
    omega

/-- **What is taken** from `start` to `stop`. -/
theorem taken_le (hrate : 0 ≤ b.rate) (hlow : 0 ≤ b.level) (hcap : b.level ≤ b.cap) (hasks : Ordered last asks)
    {start stop : Nat} (hwindow : start ≤ stop) (hopen : last ≤ stop) :
    (taken start stop (b.serve last asks) : K) ≤
      if last < start then b.cap + b.rate * ((stop : K) - start) else b.level + b.rate * ((stop : K) - last) := by
  have hspan : 0 ≤ b.rate * ((stop : K) - start) := mul_nonneg hrate (sub_nonneg.mpr (by exact_mod_cast hwindow))
  have hwait : 0 ≤ b.rate * ((stop : K) - last) := mul_nonneg hrate (sub_nonneg.mpr (by exact_mod_cast hopen))
  induction asks generalizing b last with
  | nil =>
    rw [Bucket.serve, taken, List.filter_nil, List.map_nil, List.sum_nil, Nat.cast_zero]
    split <;> linarith
  | cons a asks ih =>
    obtain ⟨time, amount⟩ := a
    obtain ⟨hle, hrest⟩ := ordered_cons.mp hasks
    dsimp only at hle hrest
    have hfill : 0 ≤ b.rate * ((time : K) - last) := mul_nonneg hrate (sub_nonneg.mpr (by exact_mod_cast hle))
    rw [Bucket.serve, taken_cons, Nat.cast_add]
    generalize hnow : b.refill ((time : K) - last) = b'
    have hrate' : b'.rate = b.rate := by rw [← hnow]; rfl
    have hcap' : b'.cap = b.cap := by rw [← hnow]; rfl
    have hlevel : b'.level = min b.cap (b.level + b.rate * ((time : K) - last)) := by rw [← hnow]; rfl
    have hfull : b'.level ≤ b.cap := by
      rw [hlevel]
      exact min_le_left _ _
    have hflow : b'.level ≤ b.level + b.rate * ((time : K) - last) := by
      rw [hlevel]
      exact min_le_right _ _
    have hlow' : 0 ≤ b'.level := by
      rw [hlevel]
      exact le_min (by linarith) (by linarith)
    obtain ⟨htrate, htcap, htlevel⟩ := take_spec b' (amount : K)
    obtain ⟨htlow, hthigh⟩ := take_level b' hlow' amount
    by_cases hover : stop < time
    · rw [taken_over _ hover hrest, if_neg, Nat.cast_zero, add_zero]
      · split <;> linarith
      · simp only [Draw.counts, Bool.and_eq_true, decide_eq_true_eq, not_and]
        omega
    · have hin : time ≤ stop := Nat.not_lt.mp hover
      have hspan' : 0 ≤ b.rate * ((stop : K) - time) := mul_nonneg hrate (sub_nonneg.mpr (by exact_mod_cast hin))
      have hnext := @ih (b'.take amount).2 time (by rw [htrate, hrate']; exact hrate) htlow
        (by rw [htcap, hcap']; exact hthigh.trans hfull) hrest hin (by rw [htrate, hrate']; exact hspan)
        (by rw [htrate, hrate']; exact hspan')
      rw [htrate, htcap, hrate', hcap'] at hnext
      by_cases hearly : time < start
      · rw [if_pos hearly] at hnext
        rw [if_pos (Nat.lt_of_le_of_lt hle hearly), if_neg, Nat.cast_zero, zero_add]
        · exact hnext
        · simp only [Draw.counts, Bool.and_eq_true, decide_eq_true_eq, not_and]
          omega
      · rw [if_neg hearly, htlevel] at hnext
        have hsum : (((if (Draw.mk time amount (b'.take amount).1).counts start stop then amount else 0 : Nat) : K) +
            taken start stop ((b'.take amount).2.serve time asks)) ≤ b'.level + b.rate * ((stop : K) - time) := by
          cases hok : (b'.take (amount : K)).1 with
          | true =>
            rw [hok, if_pos rfl] at hnext
            split <;> push_cast <;> linarith [Nat.cast_nonneg (α := K) amount]
          | false =>
            rw [hok, if_neg Bool.false_ne_true] at hnext
            rw [if_neg (by simp [Draw.counts]), Nat.cast_zero, zero_add]
            exact hnext
        refine hsum.trans ?_
        split
        · have hwider : b.rate * ((stop : K) - time) ≤ b.rate * ((stop : K) - start) := by
            have hstart : (start : K) ≤ time := by exact_mod_cast Nat.not_lt.mp hearly
            exact mul_le_mul_of_nonneg_left (by linarith) hrate
          linarith
        · have hsplit : b.rate * ((stop : K) - last) = b.rate * ((time : K) - last) + b.rate * ((stop : K) - time) := by
            ring
          linarith

/-- How full a bucket is since something was last given: full when nothing was. -/
def Recovered (b : Bucket K) (last : Nat) : Option Nat → Prop
  | none => b.level = b.cap
  | some given => given ≤ last ∧ min b.cap (b.rate * ((last : K) - given)) ≤ b.level

/-- A pause of `gap` after all that was given is enough for one token. -/
theorem prompt_from {gap : K} {given : Option Nat} (hrate : 0 ≤ b.rate) (hlow : 0 ≤ b.level) (hcap : b.level ≤ b.cap)
    (hone : 1 ≤ b.cap) (hgap : ∀ d : Nat, gap ≤ d → 1 ≤ b.rate * d) (hasks : Ordered last asks)
    (hrec : Recovered b last given) {earlier later : List Draw} {x : Draw}
    (hlog : b.serve last asks = earlier ++ x :: later) (hx : x.amount = 1)
    (hgiven : ∀ p, given = some p → gap ≤ (x.time : K) - p)
    (hearlier : ∀ y ∈ earlier, y.ok = true → 0 < y.amount → gap ≤ (x.time : K) - y.time) : x.ok = true := by
  induction asks generalizing b last given earlier with
  | nil => simp [Bucket.serve] at hlog
  | cons a asks ih =>
    obtain ⟨time, amount⟩ := a
    obtain ⟨hle, hrest⟩ := ordered_cons.mp hasks
    dsimp only at hle hrest
    have hfill : 0 ≤ b.rate * ((time : K) - last) := mul_nonneg hrate (sub_nonneg.mpr (by exact_mod_cast hle))
    rw [Bucket.serve] at hlog
    generalize hnow : b.refill ((time : K) - last) = b' at hlog
    have hrate' : b'.rate = b.rate := by rw [← hnow]; rfl
    have hcap' : b'.cap = b.cap := by rw [← hnow]; rfl
    have hlevel : b'.level = min b.cap (b.level + b.rate * ((time : K) - last)) := by rw [← hnow]; rfl
    have hlow' : 0 ≤ b'.level := by
      rw [hlevel]
      exact le_min (by linarith) (by linarith)
    have hfull : b'.level ≤ b'.cap := by
      rw [hlevel, hcap']
      exact min_le_left _ _
    -- the pause may be longer by now
    have hrec' : Recovered b' time given := by
      cases given with
      | none =>
        have heq : b.level = b.cap := hrec
        rw [Recovered, hlevel, hcap', heq]
        exact min_eq_left (by linarith)
      | some p =>
        obtain ⟨hp, hmin⟩ := hrec
        refine ⟨hp.trans hle, ?_⟩
        rw [hlevel, hcap', hrate']
        have hsum : b.rate * ((time : K) - p) = b.rate * ((last : K) - p) + b.rate * ((time : K) - last) := by ring
        refine le_min (min_le_left _ _) ?_
        rcases min_cases b.cap (b.rate * ((last : K) - p)) with ⟨h, -⟩ | ⟨h, -⟩
        · rw [h] at hmin
          exact (min_le_left _ _).trans (by linarith)
        · rw [h] at hmin
          exact (min_le_right _ _).trans (by linarith)
    obtain ⟨htrate, htcap, htlevel⟩ := take_spec b' (amount : K)
    obtain ⟨htlow, hthigh⟩ := take_level b' hlow' amount
    cases earlier with
    | nil =>
      rw [List.nil_append, List.cons.injEq] at hlog
      obtain ⟨rfl, -⟩ := hlog
      dsimp only at hx hgiven ⊢
      have henough : 1 ≤ b'.level := by
        cases given with
        | none =>
          have heq : b'.level = b'.cap := hrec'
          rw [heq, hcap']
          exact hone
        | some p =>
          obtain ⟨hp, hmin⟩ := hrec'
          have hwait := hgap (time - p) (by rw [Nat.cast_sub hp]; exact hgiven p rfl)
          rw [Nat.cast_sub hp] at hwait
          rw [hcap', hrate'] at hmin
          exact (le_min hone hwait).trans hmin
      rw [hx, Nat.cast_one, Bucket.take, if_pos henough]
    | cons y earlier =>
      rw [List.cons_append, List.cons.injEq] at hlog
      obtain ⟨rfl, hlog⟩ := hlog
      have hnext : ∀ given' : Option Nat, Recovered (b'.take (amount : K)).2 time given' →
          (∀ p, given' = some p → gap ≤ (x.time : K) - p) → x.ok = true := fun given' hrec'' hgiven' =>
        ih (by rw [htrate, hrate']; exact hrate) htlow
          (by rw [htcap]; exact hthigh.trans hfull) (by rw [htcap, hcap']; exact hone)
          (by rw [htrate, hrate']; exact hgap) hrest hrec'' hlog hgiven'
          fun y hy => hearlier y (List.mem_cons_of_mem _ hy)
      by_cases htook : (b'.take (amount : K)).1 = true ∧ 0 < amount
      · refine hnext (some time) ⟨le_refl _, ?_⟩ fun p hp => ?_
        · rw [sub_self, mul_zero]
          exact (min_le_right _ _).trans htlow
        · cases hp
          exact hearlier _ List.mem_cons_self htook.1 htook.2
      · refine hnext given ?_ hgiven
        have hsame : (b'.take (amount : K)).2.level = b'.level := by
          rw [htlevel]
          split
          · rename_i hok
            have hzero : amount = 0 := Nat.eq_zero_of_not_pos fun h => htook ⟨hok, h⟩
            rw [hzero, Nat.cast_zero, sub_zero]
          · rfl
        cases given with
        | none =>
          rw [Recovered, hsame, htcap]
          exact hrec'
        | some p =>
          rw [Recovered, hsame, htcap, htrate]
          exact hrec'

/-- **A full bucket is prompt**: what flows in during the pause is a token. -/
theorem prompt_serve {gap : K} (hrate : 0 ≤ b.rate) (hfull : b.level = b.cap) (hone : 1 ≤ b.cap)
    (hgap : ∀ d : Nat, gap ≤ d → 1 ≤ b.rate * d) (hasks : Ordered last asks) : Prompt gap (b.serve last asks) := by
  intro earlier x later hlog hx hearlier
  have hlow : 0 ≤ b.level := by
    rw [hfull]
    exact zero_le_one.trans hone
  have hrec : Recovered b last none := hfull
  exact prompt_from hrate hlow hfull.le hone hgap hasks hrec hlog hx (fun p hp => by cases hp) hearlier

omit [IsStrictOrderedRing K] in
/-- Before anything was given a prompt bucket has a token. -/
theorem Prompt.first {gap : K} {time : Nat} (h : Prompt gap (b.serve last ((time, 1) :: asks))) :
    1 ≤ (b.refill ((time : K) - last)).level := by
  have hok : ((b.refill ((time : K) - last)).take ((1 : Nat) : K)).1 = true :=
    h [] _ _ rfl rfl fun y hy => absurd hy List.not_mem_nil
  by_contra hnone
  rw [Nat.cast_one, Bucket.take, if_neg hnone] at hok
  cases hok

/-! ## A drip -/

omit [IsStrictOrderedRing K] in
theorem asks_serve (b : Bucket K) (last : Nat) (asks : List (Nat × Nat)) :
    (b.serve last asks).map (fun x => (x.time, x.amount)) = asks := by
  induction asks generalizing b last with
  | nil => rfl
  | cons a asks ih =>
    rw [Bucket.serve, List.map_cons, ih]

end

/-- One token at a time, every `d`. -/
def drip (start d n : Nat) : List (Nat × Nat) := (List.range n).map fun k => (start + k * d, 1)

theorem mem_drip {start d n : Nat} {a : Nat × Nat} (h : a ∈ drip start d n) :
    a.2 = 1 ∧ start ≤ a.1 ∧ a.1 + d ≤ start + n * d := by
  obtain ⟨k, hk, rfl⟩ := List.mem_map.mp h
  have hle : (k + 1) * d ≤ n * d := Nat.mul_le_mul_right d (List.mem_range.mp hk)
  rw [Nat.add_mul, Nat.one_mul] at hle
  exact ⟨rfl, by omega, by dsimp only; omega⟩

theorem drip_pairwise (start d n : Nat) : (drip start d n).Pairwise fun a a' => a.1 + d ≤ a'.1 := by
  rw [drip, List.pairwise_map]
  refine List.pairwise_lt_range.imp fun {k k'} hlt => ?_
  have hle : (k + 1) * d ≤ k' * d := Nat.mul_le_mul_right d hlt
  rw [Nat.add_mul, Nat.one_mul] at hle
  omega

theorem chain_drip {last start d n m : Nat} (hlast : last ≤ start) (hlate : start < last + m) (hd : d < m) :
    (last :: (drip start d n).map Prod.fst).IsChain fun t t' => t ≤ t' ∧ t' < t + m := by
  have hstep : ∀ n start, ((drip start d n).map Prod.fst).IsChain fun t t' => t ≤ t' ∧ t' < t + m := by
    intro n start
    rw [drip, List.map_map, List.isChain_iff_getElem]
    intro i hi
    simp only [List.length_map, List.length_range] at hi
    simp only [List.getElem_map, List.getElem_range, Function.comp_apply, Nat.add_mul, Nat.one_mul]
    omega
  refine List.isChain_cons.mpr ⟨fun t ht => ?_, hstep n start⟩
  cases n with
  | zero => simp [drip] at ht
  | succ n =>
    rw [drip, List.range_succ_eq_map, List.map_cons, List.map_cons, List.head?_cons] at ht
    have heq : start + 0 * d = t := Option.mem_some_iff.mp ht
    omega

section

variable {K : Type} [Field K] [LinearOrder K] [IsStrictOrderedRing K] {b : Bucket K} {last start d n : Nat} {gap : K}

/-- A prompt bucket serves all of a drip that is slow enough. -/
theorem drip_ok (hprompt : Prompt gap (b.serve last (drip start d n))) (hgap : gap ≤ d) :
    ∀ x ∈ b.serve last (drip start d n), x.ok = true := by
  intro x hx
  obtain ⟨earlier, later, hlog⟩ := List.append_of_mem hx
  have hasks := asks_serve b last (drip start d n)
  have hone : x.amount = 1 := by
    have hmem : (x.time, x.amount) ∈ drip start d n := by
      rw [← hasks]
      exact List.mem_map_of_mem hx
    exact (mem_drip hmem).1
  have hspaced := drip_pairwise start d n
  rw [← hasks, List.pairwise_map, hlog] at hspaced
  refine hprompt earlier x later hlog hone fun y hy _ _ => ?_
  have hle : y.time + d ≤ x.time := (List.pairwise_append.mp hspaced).2.2 y hy x List.mem_cons_self
  have hcast : ((y.time + d : Nat) : K) ≤ x.time := by exact_mod_cast hle
  rw [Nat.cast_add] at hcast
  linarith

/-- And gives as many tokens as were asked for. -/
theorem taken_drip (hprompt : Prompt gap (b.serve last (drip start d (n + 1)))) (hgap : gap ≤ d) :
    taken start (start + n * d) (b.serve last (drip start d (n + 1))) = n + 1 := by
  have hasks := asks_serve b last (drip start d (n + 1))
  have hall : ∀ x ∈ b.serve last (drip start d (n + 1)), x.counts start (start + n * d) = true := by
    intro x hx
    have hmem : (x.time, x.amount) ∈ drip start d (n + 1) := by
      rw [← hasks]
      exact List.mem_map_of_mem hx
    obtain ⟨-, hlo, hhi⟩ := mem_drip hmem
    rw [Nat.add_mul, Nat.one_mul] at hhi
    rw [Draw.counts, drip_ok hprompt hgap x hx, Bool.true_and, decide_eq_true_eq]
    exact ⟨hlo, by omega⟩
  have hamounts : (b.serve last (drip start d (n + 1))).map Draw.amount = List.replicate (n + 1) 1 := by
    have hsnd := congrArg (List.map Prod.snd) hasks
    rw [List.map_map] at hsnd
    refine hsnd.trans ?_
    rw [drip, List.map_map, List.eq_replicate_iff]
    exact ⟨by simp, by simp⟩
  rw [taken, List.filter_eq_self.mpr hall, hamounts, List.sum_replicate_nat, Nat.mul_one]

/-- No bound that grows more slowly than a drip holds for all of it. -/
theorem drip_unbounded [Archimedean K] {c slope : K} (hslope : slope < 1)
    (h : ∀ n : Nat, ((n + 1 : Nat) : K) ≤ c + slope * n) : False := by
  obtain ⟨n, hn⟩ := exists_nat_gt ((c - 1) / (1 - slope))
  have hpos : 0 < 1 - slope := by linarith
  rw [div_lt_iff₀ hpos] at hn
  have hbound := h n
  push_cast at hbound
  have hexpand : (n : K) * (1 - slope) = n - slope * n := by ring
  linarith

end

end Buckets
