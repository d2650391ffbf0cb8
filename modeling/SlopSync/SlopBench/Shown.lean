import Mathlib.Tactic.NormNum
import SlopSync.SlopBench.Hub

/-! # What a mirrored value shows

`Displays t l v` says which values an intent field `l` can show in a STATE field of type `t`: a text that fits a text
field, a number the type holds, and where no number is mirrored only what zero stands for.

* `Displays.shows` — what the mirror of such a value packs is read back as the value the ECHO reports;
* `readAt_packFields` — a field that lies in the buffer is read from the payload as it was packed. -/

namespace SlopSync

/-! ## Rounding -/

namespace F32

theorem llround_range (x : F32) : -2 ^ 63 ≤ x.llround ∧ x.llround < 2 ^ 63 := by
  unfold llround
  split
  · dsimp only
    split <;> omega
  · decide

/-- Below zero only what rounds to zero does not round to something below zero. -/
theorem llround_zero {x : F32} (hx : F32.le 0 x = false) (h : 0 ≤ x.llround) : x.llround = 0 := by
  match x with
  | nan | negInf => exact absurd h (by decide)
  | posInf => exact absurd hx (by decide)
  | fin q =>
    have hq : ¬ 0 ≤ q := of_decide_eq_false hx
    have hfloor : 0 ≤ ⌊-q + 1 / 2⌋ := Int.floor_nonneg.mpr (by linarith [not_le.mp hq])
    simp only [llround, if_neg hq] at h ⊢
    split at h <;> split <;> omega

theorem ofBits_zero : ofBits 0 = fin 0 := by
  have h : ofBits 0 = fin (1 * (((0 : Nat) : ℚ) / 2 ^ 149)) := rfl
  rw [h]
  norm_num

theorem llround_ofBits_zero : (ofBits 0).llround = 0 := by
  rw [ofBits_zero]
  norm_num [llround]

end F32

namespace SlopBench

open PackedFieldType

/-! ## Values that can be shown -/

/-- What a STATE field has to say to show a value: a flag is one or zero, and nothing shows a byte string. -/
def shownAs : IntentValue → Option Shown
  | .u64 v => some (.number (.fin v.toNat))
  | .i64 v => some (.number (.fin v.toInt))
  | .f32 bits => some (.number (.ofBits bits))
  | .bool b => some (.number (.fin (if b then 1 else 0)))
  | .tstr s => some (.text s)
  | .bstr _ => none

/-- A number that stands for itself in a field: any float in a float field, a whole number the type holds in another. -/
def Exact (t : PackedFieldType) (x : UInt32) : Prop :=
  t = .f32 ∨ t.Holds (F32.ofBits x).llround ∧ F32.ofBits x = .fin (F32.ofBits x).llround

/-- A number whose rounding a field shows: a whole number in a float field, what rounds into the range in another. -/
def Rounds (t : PackedFieldType) (x : UInt32) : Prop :=
  t.Holds (F32.ofBits x).llround ∨ t = .f32 ∧ F32.ofBits x = .fin (F32.ofBits x).llround

/-- The values an intent field shows in a STATE field of type `t`. -/
inductive Displays (t : PackedFieldType) (l : IntentFieldLink) : IntentValue → Prop
  | text {s : Bytes} (ht : t.isString = true) (hlen : s.length ≤ t.wireSize) (hnul : 0 ∉ s) : Displays t l (.tstr s)
  | float {bits x : UInt32} (hx : l.physical (.f32 bits) = some x) (h : Exact t x) : Displays t l (.f32 bits)
  | unsigned {v : UInt64} {x : UInt32} (hx : l.physical (.u64 v) = some x) (h0 : 0 ≤ (F32.ofBits x).llround)
      (h : Rounds t x) : Displays t l (.u64 v)
  | signed {v : Int64} {x : UInt32} (hx : l.physical (.i64 v) = some x) (h : Rounds t x) : Displays t l (.i64 v)
  | zero {v : IntentValue} (ht : t.isString = false) (hx : l.physical v = none)
      (h0 : shownAs v = some (.number (.fin 0))) : Displays t l v

section

variable {t : PackedFieldType} {l : IntentFieldLink} {x : UInt32} {v : IntentValue} {rest : Bytes}

theorem Exact.isString (h : Exact t x) : t.isString = false := by
  cases t <;> simp_all [Exact, Holds, PackedFieldType.isString]

theorem Rounds.isString (h : Rounds t x) : t.isString = false := by
  cases t <;> simp_all [Rounds, Holds, PackedFieldType.isString]

theorem Exact.read (h : Exact t x) : t.readValue (t.packField x ++ rest) = .number (.ofBits x) := by
  rcases h with rfl | ⟨hk, hx⟩
  · exact readValue_packField_f32 x rest
  · rw [readValue_packField rest hk, ← hx]

theorem Rounds.read (h : Rounds t x) :
    t.readValue (t.packField x ++ rest) = .number (.fin (F32.ofBits x).llround) := by
  rcases h with hk | ⟨rfl, hx⟩
  · exact readValue_packField rest hk
  · rw [readValue_packField_f32, ← hx]

theorem exact_zero (ht : t.isString = false) : Exact t 0 := by
  refine (em (t = .f32)).imp_right fun hf => ⟨?_, ?_⟩
  · rw [F32.llround_ofBits_zero]
    revert hf ht
    cases t <;> decide
  · rw [F32.llround_ofBits_zero, F32.ofBits_zero]
    rfl

/-- The integer an unsigned value is echoed as. -/
theorem toNat_withNumericValue (h0 : 0 ≤ (F32.ofBits x).llround) :
    ((if F32.le 0 (.ofBits x) then UInt64.ofInt (F32.ofBits x).llround else 0 : UInt64).toNat : Int) =
      (F32.ofBits x).llround := by
  cases hle : F32.le 0 (.ofBits x) with
  | false =>
    rw [F32.llround_zero hle h0]
    rfl
  | true =>
    have hlt := (F32.llround_range (.ofBits x)).2
    have hnat := toNat_emod (n := 64) h0 (by omega)
    rw [if_pos rfl, UInt64.ofInt, UInt64.toNat_ofNat', Nat.mod_eq_of_lt (by omega), hnat]

/-- **What the mirror of such a value packs is what its ECHO reports.** -/
theorem Displays.shows (h : Displays t l v) {f : FieldRuntime} (hf : f.cfg.layoutType = t) {g : MirrorTarget}
    (hg : g.isString = t.isString) (due : UInt32) :
    ∃ s, shownAs (l.applied v) = some s ∧ t.readValue ((f.set (l.mirror v due g)).pack ++ rest) = s := by
  subst hf
  -- where a number is mirrored the field packs it
  have hpack : f.cfg.layoutType.isString = false →
      (f.set (l.mirror v due g)).pack = f.cfg.layoutType.packField ((l.physical v).getD 0) := by
    intro ht
    have hgs : g.isString = false := hg.trans ht
    simp [IntentFieldLink.mirror, FieldRuntime.set, hgs, FieldRuntime.pack, FieldConfig.isStringLayout, ht]
  cases h with
  | @text s ht hlen hnul =>
    have hgs : g.isString = true := hg.trans ht
    have happ : l.applied (.tstr s) = .tstr s := by
      have hnone : l.physical (.tstr s) = none := by simp [IntentFieldLink.physical, numericValueOf]
      simp [IntentFieldLink.applied, hnone]
    refine ⟨.text s, by rw [happ]; rfl, ?_⟩
    have hset : (f.set (l.mirror (.tstr s) due g)).pack = f.cfg.layoutType.packStringField s := by
      simp [IntentFieldLink.mirror, FieldRuntime.set, hgs, FieldRuntime.pack, FieldConfig.isStringLayout, ht]
    rw [hset, readValue_packStringField rest ht hlen hnul]
  | @float bits x hx hexact =>
    refine ⟨.number (.ofBits x), by simp [IntentFieldLink.applied, hx, withNumericValue, shownAs], ?_⟩
    rw [hpack hexact.isString, hx]
    exact hexact.read
  | @unsigned v x hx h0 hround =>
    refine ⟨.number (.fin (F32.ofBits x).llround), ?_, ?_⟩
    · have hnat := toNat_withNumericValue h0
      simp only [IntentFieldLink.applied, hx, withNumericValue, shownAs]
      exact congrArg (fun z : Int => some (Shown.number (.fin (z : ℚ)))) hnat
    · rw [hpack hround.isString, hx]
      exact hround.read
  | @signed v x hx hround =>
    have hrange := F32.llround_range (.ofBits x)
    refine ⟨.number (.fin (F32.ofBits x).llround), ?_, ?_⟩
    · simp only [IntentFieldLink.applied, hx, withNumericValue, shownAs]
      rw [Int64.toInt_ofInt_of_le hrange.1 hrange.2]
    · rw [hpack hround.isString, hx]
      exact hround.read
  | zero ht hx h0 =>
    refine ⟨.number (.fin 0), by simp [IntentFieldLink.applied, hx, h0], ?_⟩
    rw [hpack ht, hx, Option.getD_none, (exact_zero ht).read, F32.ofBits_zero]

end

/-! ## Payloads -/

/-- Where field `i` ends in a payload. -/
def fieldEnd (fields : List FieldConfig) (i : Nat) : Nat :=
  ((fields.take (i + 1)).map fun f => f.layoutType.wireSize).sum

@[simp] theorem length_pack (f : FieldRuntime) : f.pack.length = f.cfg.layoutType.wireSize := by
  unfold FieldRuntime.pack
  split <;> simp

/-- **A field that lies in the buffer is read as it was packed.** -/
theorem readAt_packFields {f : FieldRuntime} : ∀ {fields : List FieldRuntime} {i : Nat} {o : Nat},
    fields[i]? = some f → o + fieldEnd (fields.map FieldRuntime.cfg) i ≤ Limits.minTransportPayload →
      ∃ rest, readAt (fields.map FieldRuntime.cfg) i (packFields o fields) =
        some (f.cfg.layoutType.readValue (f.pack ++ rest))
  | [], i, o, h, _ => by simp at h
  | g :: fields, 0, o, h, hend => by
    obtain rfl : g = f := by simpa using h
    have hfit : o + g.cfg.layoutType.wireSize ≤ Limits.minTransportPayload := by
      simpa [fieldEnd] using hend
    refine ⟨packFields (o + g.cfg.layoutType.wireSize) fields, ?_⟩
    simp [readAt, packFields, not_lt.mpr hfit]
  | g :: fields, i + 1, o, h, hend => by
    have hsum : o + (g.cfg.layoutType.wireSize + fieldEnd (fields.map FieldRuntime.cfg) i) ≤
        Limits.minTransportPayload := by
      simpa [fieldEnd] using hend
    obtain ⟨rest, hread⟩ := readAt_packFields (f := f) (i := i)
      (o := o + g.cfg.layoutType.wireSize) (by simpa using h) (by omega)
    refine ⟨rest, ?_⟩
    have hfit : ¬ Limits.minTransportPayload < o + g.cfg.layoutType.wireSize := by omega
    have hdrop : (g.pack ++ packFields (o + g.cfg.layoutType.wireSize) fields).drop g.cfg.layoutType.wireSize =
        packFields (o + g.cfg.layoutType.wireSize) fields := List.drop_left' (length_pack g)
    simp only [List.map_cons, readAt, packFields, if_neg hfit, hdrop]
    exact hread

end SlopBench

end SlopSync
