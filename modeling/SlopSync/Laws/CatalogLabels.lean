import SlopSync.CatalogTrees
import SlopSync.Contents

/-! # Labels in the pool of a decoder

The labels of a field are read into the pool one after the other, those of its bits before its options, and the levels of
the options after both.  `Extends` is what one of these reads comes to: only the label pool has changed, and so many labels
are new at its end.

* `decodeOptions_ok`, `decodeBits_ok`, `decodeOptionAccess_ok` — what each read makes of a tree. -/

namespace SlopSync.Builder

open CborWriter CborReader CborDecoder

variable {caps : Capacities} {c c' c'' : BasicCatalog caps} {t : CborTree} {ref : LabelRef}

/-- `c'` is `c` with these labels at the end of its pool. -/
structure Extends (c c' : BasicCatalog caps) (l : List Label) : Prop where
  same : c' = { c with labelPool := c'.labelPool }
  live : c'.labelPool.live = c.labelPool.live ++ l

namespace Extends

variable {l l' : List Label}

theorem refl (c : BasicCatalog caps) : Extends c c [] := ⟨rfl, (List.append_nil _).symm⟩

/-- One extension after another. -/
theorem trans (h : Extends c c' l) (h' : Extends c' c'' l') : Extends c c'' (l ++ l') := by
  refine ⟨?_, by rw [h'.live, h.live, List.append_assoc]⟩
  rw [h'.same, h.same]

/-- The pool uses as many cells more as there are labels. -/
theorem used (h : Extends c c' l) : c'.labelPool.used.toNat = c.labelPool.used.toNat + l.length := by
  rw [← Pool.length_live, h.live, List.length_append, Pool.length_live]

/-- An extended pool stays within its capacity. -/
theorem room (h : Extends c c' l) : c.labelPool.used.toNat + l.length ≤ caps.labels := by
  rw [← h.used]
  exact c'.labelPool.fits

end Extends

/-! ## One label -/

theorem push_some {α : Type} {cap : Nat} {p : Pool α cap} (a : α) (h : p.used.toNat < cap) : ∃ q, p.push a = some q := by
  unfold Pool.push
  rw [dif_pos h]
  exact ⟨_, rfl⟩

/-- A label that is added stands at the end of the pool. -/
theorem poolAddLabel_extends {text : Bytes} (hcap : caps.labels < 2 ^ 16) (h : c.poolAddLabel text = some c') :
    Extends c c' [{ text }] := by
  obtain ⟨p, hp, rfl⟩ := Option.map_eq_some_iff.mp h
  exact ⟨rfl, Pool.live_push (.inl hcap) hp⟩

/-- It is added where there is a cell free. -/
theorem poolAddLabel_some (text : Bytes) (h : c.labelPool.used.toNat < caps.labels) :
    ∃ c', c.poolAddLabel text = some c' := by
  obtain ⟨p, hp⟩ := push_some (p := c.labelPool) { text } h
  exact ⟨_, by rw [BasicCatalog.poolAddLabel, hp]; rfl⟩

theorem orFail_toOption {α : Type} (e : DecodeError) (o : Option α) : (orFail e o).toOption = o := by
  cases o <;> rfl

theorem map_toOption {α β : Type} (e : Except DecodeError α) (f : α → β) : (e.map f).toOption = e.toOption.map f := by
  cases e <;> rfl

@[simp] theorem pooled_toOption {α : Type} (o : Option α) : (pooled o).toOption = o := orFail_toOption _ o

/-- A label reads when it is a text, not empty and not too long. -/
theorem label_ofTree {max : Nat} {s : Bytes} : (label max).ofTree t = some s ↔ t = .text s ∧ s ≠ [] ∧ s.length ≤ max := by
  unfold label
  rw [andThen_ofTree]
  cases t with
  | text s' =>
    rw [tstr_ofTree, Option.bind_some]
    split_ifs with hbad
    · simp only [Except.toOption, reduceCtorEq, false_iff]
      rintro ⟨h, hne, hle⟩
      obtain rfl := CborTree.text.inj h
      rcases hbad with hnil | hlong
      · exact hne hnil
      · omega
    · simp only [Except.toOption, Option.some.injEq, CborTree.text.injEq]
      push Not at hbad
      exact ⟨fun h => ⟨h, h ▸ hbad.1, h ▸ hbad.2⟩, fun h => h.1⟩
  | _ => simp [tstr]

/-! ## Options -/

/-- The options read one after another into the pool. -/
theorem decodeOptions_array {ts : List CborTree} : (decodeOptions c).ofTree (.array ts) =
    if ts.length = 0 ∨ LabelRef.kMaxCount < ts.length then none
    else (ts.foldlM (fun c t => ((label optionLabelMaxBytes).ofTree t).bind c.poolAddLabel) c).map fun c' =>
      ({ offset := c.labelPool.used, count := UInt8.ofNat ts.length }, c') := by
  simp only [decodeOptions, array, andThen_ofTree, pooled_toOption]

/-- The reference to labels from `start` on. -/
def refTo (start : UInt16) (l : List Label) : LabelRef := { offset := start, count := UInt8.ofNat l.length }

def unlevelled (texts : List Bytes) : List Label := texts.map fun text => { text }

/-- Labels that read extend the pool by their texts. -/
theorem foldlM_labels (hcap : caps.labels < 2 ^ 16) {ts : List CborTree}
    (h : ts.foldlM (fun c t => ((label optionLabelMaxBytes).ofTree t).bind c.poolAddLabel) c = some c') :
    ∃ texts : List Bytes, ts = texts.map .text ∧ (∀ s ∈ texts, s ≠ [] ∧ s.length ≤ optionLabelMaxBytes) ∧
      Extends c c' (unlevelled texts) := by
  induction ts generalizing c with
  | nil =>
    obtain rfl := Option.some.inj h
    exact ⟨[], rfl, by simp, .refl c⟩
  | cons t ts ih =>
    rw [List.foldlM_cons] at h
    obtain ⟨c₁, hstep, hrest⟩ := Option.bind_eq_some_iff.mp h
    obtain ⟨s, hs, hadd⟩ := Option.bind_eq_some_iff.mp hstep
    obtain ⟨rfl, hne, hle⟩ := label_ofTree.mp hs
    obtain ⟨texts, rfl, hall, hext⟩ := ih hrest
    exact ⟨s :: texts, rfl, List.forall_mem_cons.mpr ⟨⟨hne, hle⟩, hall⟩, (poolAddLabel_extends hcap hadd).trans hext⟩

/-- Labels read when each is one and there is room for all. -/
theorem foldlM_labels_some (hcap : caps.labels < 2 ^ 16) {texts : List Bytes}
    (hall : ∀ s ∈ texts, s ≠ [] ∧ s.length ≤ optionLabelMaxBytes)
    (hroom : c.labelPool.used.toNat + texts.length ≤ caps.labels) :
    ∃ c', (texts.map CborTree.text).foldlM (fun c t => ((label optionLabelMaxBytes).ofTree t).bind c.poolAddLabel) c =
      some c' := by
  induction texts generalizing c with
  | nil => exact ⟨c, rfl⟩
  | cons s texts ih =>
    obtain ⟨hs, hall⟩ := List.forall_mem_cons.mp hall
    rw [List.length_cons] at hroom
    obtain ⟨c₁, hadd⟩ := poolAddLabel_some (c := c) s (by omega)
    have hused := (poolAddLabel_extends hcap hadd).used
    rw [List.length_singleton] at hused
    obtain ⟨c', h⟩ := ih (c := c₁) hall (by omega)
    refine ⟨c', ?_⟩
    rw [List.map_cons, List.foldlM_cons, label_ofTree.mpr ⟨rfl, hs⟩, Option.bind_some, hadd]
    exact h

/-- Options that can be sent. -/
structure OptionTexts (texts : List Bytes) : Prop where
  some : texts ≠ []
  count : texts.length ≤ LabelRef.kMaxCount
  each : ∀ s ∈ texts, s ≠ [] ∧ s.length ≤ optionLabelMaxBytes

/-- **What a list of options comes to.** -/
theorem decodeOptions_ok (hcap : caps.labels < 2 ^ 16) (h : (decodeOptions c).ofTree t = some (ref, c')) :
    ∃ texts, t = .arrayOf .text texts ∧ OptionTexts texts ∧ Extends c c' (unlevelled texts) ∧
      ref = refTo c.labelPool.used (unlevelled texts) := by
  cases t with
  | array ts =>
    rw [decodeOptions_array] at h
    split_ifs at h with hbad
    push Not at hbad
    obtain ⟨c₁, hfold, hpair⟩ := Option.map_eq_some_iff.mp h
    obtain ⟨rfl, rfl⟩ := Prod.mk.inj hpair
    obtain ⟨texts, rfl, hall, hext⟩ := foldlM_labels hcap hfold
    rw [List.length_map] at hbad
    refine ⟨texts, rfl, ⟨fun hnil => hbad.1 (by rw [hnil]; rfl), hbad.2, hall⟩, hext, ?_⟩
    rw [refTo, unlevelled, List.length_map, List.length_map]
  | _ => cases h

/-- Options that were sent read back. -/
theorem decodeOptions_some (hcap : caps.labels < 2 ^ 16) {texts : List Bytes} (h : OptionTexts texts)
    (hroom : c.labelPool.used.toNat + texts.length ≤ caps.labels) :
    ∃ c', (decodeOptions c).ofTree (.arrayOf .text texts) = some (refTo c.labelPool.used (unlevelled texts), c') ∧
      Extends c c' (unlevelled texts) := by
  obtain ⟨c', hfold⟩ := foldlM_labels_some (c := c) hcap h.each hroom
  have hpos := List.length_pos_of_ne_nil h.some
  have hcount := h.count
  have hof : (decodeOptions c).ofTree (.arrayOf .text texts) = some (refTo c.labelPool.used (unlevelled texts), c') := by
    rw [CborTree.arrayOf, decodeOptions_array, if_neg (by rw [List.length_map]; omega), hfold, Option.map_some, refTo,
      unlevelled, List.length_map, List.length_map]
  obtain ⟨texts', htexts, -, hext, -⟩ := decodeOptions_ok hcap hof
  obtain rfl : texts = texts' := by
    have hinj : Function.Injective CborTree.text := fun a b h => CborTree.text.inj h
    exact hinj.list_map (CborTree.array.inj htexts)
  exact ⟨c', hof, hext⟩

/-! ## Bits -/

/-- The labels of named bits, with empty ones in the gaps; `filled` of them are there. -/
def bitTexts : Nat → List (Bytes × Nat) → List Bytes
  | _, [] => []
  | filled, b :: named => List.replicate (b.2 - filled) [] ++ b.1 :: bitTexts (b.2 + 1) named

/-- What trimming makes of one more in front. -/
theorem trimmed_cons (b : Bytes) (bits : List Bytes) :
    BasicCatalog.trimmed (b :: bits) =
      if b = [] ∧ BasicCatalog.trimmed bits = [] then [] else b :: BasicCatalog.trimmed bits := by
  simp only [BasicCatalog.trimmed, List.rdropWhile, List.reverse_cons, List.dropWhile_append, List.isEmpty_iff,
    List.reverse_eq_nil_iff]
  by_cases hrest : List.dropWhile List.isEmpty bits.reverse = []
  · rw [if_pos hrest]
    cases b with
    | nil => simp [hrest]
    | cons x b => simp [hrest]
  · rw [if_neg hrest, if_neg (fun h => hrest h.2)]
    simp

/-- **The names that are sent say the bits, but for the unnamed ones at the end.** -/
theorem bitTexts_named (bits : List Bytes) (filled : Nat) :
    bitTexts filled ((bits.zipIdx filled).filter fun b => b.1 ≠ []) = BasicCatalog.trimmed bits := by
  induction bits generalizing filled with
  | nil => rfl
  | cons b bits ih =>
    have hrest := ih (filled + 1)
    rw [List.zipIdx_cons, trimmed_cons]
    by_cases hb : b = []
    · rw [List.filter_cons_of_neg (by simpa using hb), ← hrest]
      cases hnamed : (bits.zipIdx (filled + 1)).filter fun b => b.1 ≠ [] with
      | nil => simp [bitTexts, hb]
      | cons x named =>
        have hmem : x ∈ (bits.zipIdx (filled + 1)).filter fun b => b.1 ≠ [] := by
          rw [hnamed]
          exact List.mem_cons_self ..
        obtain ⟨hle, -, -⟩ := List.mem_zipIdx (x := x.1) (i := x.2) (List.mem_filter.mp hmem).1
        have hgap : x.2 - filled = (x.2 - (filled + 1)) + 1 := by omega
        have hone : bitTexts filled (x :: named) = [] :: bitTexts (filled + 1) (x :: named) := by
          rw [bitTexts, hgap, List.replicate_succ, List.cons_append, bitTexts]
        rw [hone, if_neg (by simp [bitTexts]), hb]
    · rw [List.filter_cons_of_pos (by simpa using hb), if_neg (fun h => hb h.1)]
      simp only [bitTexts, Nat.sub_self, List.replicate_zero, List.nil_append, hrest]

/-- A name of a bit. -/
structure BitName (b : Bytes × Nat) : Prop where
  some : b.1 ≠ []
  length : b.1.length ≤ 24
  bit : b.2 < 8

/-- Bits as a decoder leaves them. -/
structure BitTexts (bits : List Bytes) : Prop where
  trimmed : BasicCatalog.trimmed bits = bits
  count : bits.length ≤ 8
  each : ∀ s ∈ bits, s.length ≤ 24

/-- The texts of named bits are trimmed bit labels again. -/
theorem bitTexts_texts {named : List (Bytes × Nat)} {filled : Nat} (hall : ∀ b ∈ named, BitName b)
    (hfilled : ∀ b ∈ named, filled ≤ b.2) (hasc : (named.map Prod.snd).Pairwise (· < ·)) :
    BasicCatalog.trimmed (bitTexts filled named) = bitTexts filled named ∧
      (named ≠ [] → filled + (bitTexts filled named).length ≤ 8 ∧ bitTexts filled named ≠ []) ∧
      ∀ s ∈ bitTexts filled named, s.length ≤ 24 := by
  induction named generalizing filled with
  | nil => exact ⟨rfl, fun h => absurd rfl h, by simp [bitTexts]⟩
  | cons b named ih =>
    obtain ⟨hb, hall⟩ := List.forall_mem_cons.mp hall
    obtain ⟨hle, -⟩ := List.forall_mem_cons.mp hfilled
    obtain ⟨hfirst, hasc⟩ := List.pairwise_cons.mp hasc
    have hrest : ∀ x ∈ named, b.2 + 1 ≤ x.2 := fun x hx => hfirst x.2 (List.mem_map_of_mem hx)
    obtain ⟨htrim, hlen, heach⟩ := ih hall hrest hasc
    have hbit := hb.bit
    have htail : BasicCatalog.trimmed (b.1 :: bitTexts (b.2 + 1) named) = b.1 :: bitTexts (b.2 + 1) named := by
      rw [trimmed_cons, if_neg (fun h => hb.some h.1), htrim]
    have hgap : ∀ n, BasicCatalog.trimmed (List.replicate n [] ++ b.1 :: bitTexts (b.2 + 1) named) =
        List.replicate n [] ++ b.1 :: bitTexts (b.2 + 1) named := by
      intro n
      induction n with
      | zero => exact htail
      | succ n ihn =>
        rw [List.replicate_succ, List.cons_append, trimmed_cons, ihn, if_neg (by simp)]
    refine ⟨hgap _, fun _ => ⟨?_, by simp [bitTexts]⟩, ?_⟩
    · rw [bitTexts, List.length_append, List.length_replicate, List.length_cons]
      cases named with
      | nil =>
        simp only [bitTexts, List.length_nil]
        omega
      | cons x named =>
        have hrest := (hlen (by simp)).1
        omega
    · simp only [bitTexts, List.forall_mem_append, List.forall_mem_cons]
      exact ⟨fun s hs => by rw [List.eq_of_mem_replicate hs]; exact Nat.zero_le 24, hb.length, heach⟩

/-- A named bit extends the pool by the unnamed bits before it and its name. -/
theorem fillTo_extends {filled bit : Nat} {text : Bytes} (hcap : caps.labels < 2 ^ 16)
    (h : fillTo c filled bit text = some c') :
    Extends c c' (unlevelled (List.replicate (bit - filled) [] ++ [text])) := by
  unfold fillTo at h
  split at h
  · rename_i labelPool hpush
    obtain rfl := Option.some.inj h
    have hlive := (Pool.pushAll_spec (p := c.labelPool)
      (l := List.replicate (bit - filled) ({ text := [] } : Label) ++ [{ text := text }]) (.inl hcap)).2 (by rw [hpush])
    rw [hpush] at hlive
    refine ⟨rfl, ?_⟩
    rw [hlive, unlevelled, List.map_append, List.map_replicate, List.map_singleton]
  · cases h

theorem pushAll_room {α : Type} {cap : Nat} {p : Pool α cap} {l : List α} (hcap : cap < 2 ^ 16)
    (h : p.used.toNat + l.length ≤ cap) : (Pool.pushAll l p).1 = true := by
  induction l generalizing p with
  | nil => rfl
  | cons a l ih =>
    rw [List.length_cons] at h
    obtain ⟨q, hq⟩ := push_some (p := p) a (by omega)
    have hused := Pool.used_push (.inl hcap) hq
    rw [Pool.pushAll, hq]
    exact ih (by omega)

/-- Where there is room for them. -/
theorem fillTo_some {filled bit : Nat} (text : Bytes) (hcap : caps.labels < 2 ^ 16)
    (hroom : c.labelPool.used.toNat + (bit - filled + 1) ≤ caps.labels) : ∃ c', fillTo c filled bit text = some c' := by
  have hok := pushAll_room (p := c.labelPool) (l := List.replicate (bit - filled) ({ text := [] } : Label) ++ [{ text := text }]) hcap (by
    rw [List.length_append, List.length_replicate, List.length_singleton]
    exact hroom)
  unfold fillTo
  split
  · exact ⟨_, rfl⟩
  · rename_i hpush
    rw [hpush] at hok
    cases hok

/-- One named bit. -/
def bitStep (s : Nat × BasicCatalog caps) (p : Nat × CborTree) : Option (Nat × BasicCatalog caps) :=
  if 8 ≤ p.1 then none
  else ((label 24).ofTree p.2).bind fun text => (fillTo s.2 s.1 p.1 text).map fun c => (max s.1 p.1 + 1, c)

/-- The bits of a map read one after another. -/
theorem decodeBits_map {ps : List (Nat × CborTree)} : (decodeBits c).ofTree (.map ps) =
    if ps.length = 0 ∨ 8 < ps.length then none
    else (ps.foldlM bitStep (0, c)).map fun s => ({ offset := c.labelPool.used, count := UInt8.ofNat s.1 }, s.2) := by
  simp only [decodeBits, mapOf]
  congr 2
  refine congrArg (fun step => ps.foldlM step (0, c)) ?_
  funext s p
  rw [bitStep]
  split_ifs
  · rfl
  · simp only [andThen_ofTree, map_toOption, pooled_toOption]

/-- Bits that read ascend and extend the pool by their texts. -/
theorem foldlM_bits (hcap : caps.labels < 2 ^ 16) {ps : List (Nat × CborTree)} {filled filled' : Nat}
    (hasc : CborTree.Ascending ps) (hfilled : ∀ p ∈ ps, filled ≤ p.1)
    (h : ps.foldlM bitStep (filled, c) = some (filled', c')) :
    ∃ named : List (Bytes × Nat), ps = named.map bitPair ∧ (∀ b ∈ named, BitName b) ∧
      Extends c c' (unlevelled (bitTexts filled named)) ∧ filled' = filled + (bitTexts filled named).length := by
  induction ps generalizing c filled with
  | nil =>
    obtain ⟨rfl, rfl⟩ := Prod.mk.inj (Option.some.inj h)
    exact ⟨[], rfl, by simp, .refl c, rfl⟩
  | cons p ps ih =>
    obtain ⟨k, v⟩ := p
    obtain ⟨hfirst, hasc⟩ := List.pairwise_cons.mp hasc
    have hle : filled ≤ k := hfilled (k, v) (List.mem_cons_self ..)
    rw [List.foldlM_cons] at h
    obtain ⟨s₁, hstep, hrest⟩ := Option.bind_eq_some_iff.mp h
    rw [bitStep] at hstep
    split_ifs at hstep with hbit
    obtain ⟨text, htext, hstep⟩ := Option.bind_eq_some_iff.mp hstep
    obtain ⟨hv, hne, hlen⟩ := label_ofTree.mp htext
    obtain ⟨c₁, hfill, rfl⟩ := Option.map_eq_some_iff.mp hstep
    have hmax : max filled k + 1 = k + 1 := by rw [Nat.max_eq_right hle]
    rw [hmax] at hrest
    have hbehind : ∀ p ∈ ps, k + 1 ≤ p.1 := fun p hp => hfirst p.1 (List.mem_map_of_mem hp)
    obtain ⟨named, rfl, hall, hext, rfl⟩ := ih hasc hbehind hrest
    refine ⟨(text, k) :: named, by rw [List.map_cons, bitPair]; exact congrArg (fun v => (k, v) :: _) hv,
      List.forall_mem_cons.mpr ⟨⟨hne, hlen, by omega⟩, hall⟩, ?_, ?_⟩
    · have hboth := (fillTo_extends hcap hfill).trans hext
      rw [unlevelled, unlevelled, ← List.map_append, List.append_assoc] at hboth
      exact hboth
    · simp only [bitTexts, List.length_append, List.length_replicate, List.length_cons]
      omega

/-- Bits read when they ascend and there is room. -/
theorem foldlM_bits_some (hcap : caps.labels < 2 ^ 16) {named : List (Bytes × Nat)} {filled : Nat}
    (hall : ∀ b ∈ named, BitName b) (hfilled : ∀ b ∈ named, filled ≤ b.2)
    (hasc : (named.map Prod.snd).Pairwise (· < ·))
    (hroom : c.labelPool.used.toNat + (bitTexts filled named).length ≤ caps.labels) :
    ∃ s, (named.map bitPair).foldlM bitStep (filled, c) = some s := by
  induction named generalizing c filled with
  | nil => exact ⟨_, rfl⟩
  | cons b named ih =>
    obtain ⟨hb, hall⟩ := List.forall_mem_cons.mp hall
    have hle := hfilled b (List.mem_cons_self ..)
    obtain ⟨hfirst, hasc⟩ := List.pairwise_cons.mp hasc
    simp only [bitTexts, List.length_append, List.length_replicate, List.length_cons] at hroom
    obtain ⟨c₁, hfill⟩ : ∃ c₁, fillTo c filled b.2 b.1 = some c₁ := fillTo_some b.1 hcap (by omega)
    have hused := (fillTo_extends hcap hfill).used
    simp only [unlevelled, List.length_map, List.length_append, List.length_replicate, List.length_singleton] at hused
    have hrest : ∀ x ∈ named, b.2 + 1 ≤ x.2 := fun x hx => hfirst x.2 (List.mem_map_of_mem hx)
    obtain ⟨s, hs⟩ := ih (c := c₁) hall hrest hasc
      (by omega)
    refine ⟨s, ?_⟩
    have hstep : bitStep (filled, c) (bitPair b) = some (b.2 + 1, c₁) := by
      have hbit : ¬8 ≤ (bitPair b).1 := Nat.not_le.mpr hb.bit
      have htext : (label 24).ofTree (bitPair b).2 = some b.1 := label_ofTree.mpr ⟨rfl, hb.some, hb.length⟩
      rw [bitStep, if_neg hbit, htext, Option.bind_some]
      simp only [bitPair, hfill, Option.map_some, Nat.max_eq_right hle]
    rw [List.map_cons, List.foldlM_cons, hstep]
    exact hs

theorem ascending_bits {named : List (Bytes × Nat)} :
    CborTree.Ascending (named.map bitPair) ↔ (named.map Prod.snd).Pairwise (· < ·) := by
  rw [CborTree.Ascending, List.map_map]
  exact Iff.rfl

/-- **What a map of named bits comes to.** -/
theorem decodeBits_ok (hcap : caps.labels < 2 ^ 16) {d : Nat} (ht : CborTree.Fits d t)
    (h : (decodeBits c).ofTree t = some (ref, c')) :
    ∃ bits, bits ≠ [] ∧ BitTexts bits ∧ Extends c c' (unlevelled bits) ∧
      ref = refTo c.labelPool.used (unlevelled bits) := by
  cases ht with
  | @map d ps _ hasc _ _ =>
    rw [decodeBits_map] at h
    split_ifs at h with hbad
    push Not at hbad
    obtain ⟨s, hfold, hpair⟩ := Option.map_eq_some_iff.mp h
    obtain ⟨rfl, rfl⟩ := Prod.mk.inj hpair
    have hfold : ps.foldlM bitStep (0, c) = some (s.1, s.2) := hfold
    obtain ⟨named, rfl, hall, hext, hcount⟩ := foldlM_bits hcap hasc (fun p _ => Nat.zero_le _) hfold
    rw [List.length_map] at hbad
    have hnamed : named ≠ [] := fun hnil => hbad.1 (by rw [hnil]; rfl)
    obtain ⟨htrim, hlen, heach⟩ := bitTexts_texts hall (fun b _ => Nat.zero_le b.2) (ascending_bits.mp hasc)
    obtain ⟨hlen, hne⟩ := hlen hnamed
    refine ⟨bitTexts 0 named, hne, ⟨htrim, by omega, heach⟩, hext, ?_⟩
    rw [refTo, unlevelled, List.length_map, hcount, Nat.zero_add]
  | _ => cases h

/-- A bit that is named is none of those behind the last name. -/
theorem mem_named {bits : List Bytes} {b : Bytes × Nat} {start : Nat} (h : b ∈ bits.zipIdx start) (hb : b.1 ≠ []) :
    b.1 ∈ BasicCatalog.trimmed bits ∧ b.2 < start + (BasicCatalog.trimmed bits).length := by
  induction bits generalizing start with
  | nil => cases h
  | cons x bits ih =>
    rw [List.zipIdx_cons] at h
    rcases List.mem_cons.mp h with rfl | h
    · rw [trimmed_cons, if_neg (fun h => hb h.1), List.length_cons]
      exact ⟨List.mem_cons_self .., by dsimp only; omega⟩
    · obtain ⟨hmem, hlt⟩ := ih h
      rw [trimmed_cons, if_neg (fun h => List.ne_nil_of_mem hmem h.2), List.length_cons]
      exact ⟨List.mem_cons_of_mem _ hmem, by omega⟩

/-- The names written for bit labels are names. -/
theorem namedBits_names {bits : List Bytes} (h : BitTexts (BasicCatalog.trimmed bits)) :
    ∀ b ∈ namedBits bits, BitName b := by
  intro b hb
  obtain ⟨hmem, hne⟩ := List.mem_filter.mp hb
  have hne : b.1 ≠ [] := by simpa using hne
  obtain ⟨hmem, hlt⟩ := mem_named hmem hne
  have hcount := h.count
  exact ⟨hne, h.each b.1 hmem, by omega⟩

/-- The bits written for bit labels ascend. -/
theorem ascending_named (bits : List Bytes) : ((namedBits bits).map Prod.snd).Pairwise (· < ·) := by
  have hall : (bits.zipIdx.map Prod.snd).Pairwise (· < ·) := by
    rw [List.zipIdx_map_snd]
    exact List.pairwise_lt_range'
  exact hall.sublist (List.filter_sublist.map Prod.snd)

theorem length_named_le (filled : Nat) (named : List (Bytes × Nat)) : named.length ≤ (bitTexts filled named).length := by
  induction named generalizing filled with
  | nil => exact Nat.le_refl 0
  | cons b named ih =>
    have hrest := ih (b.2 + 1)
    rw [bitTexts, List.length_append, List.length_cons, List.length_cons]
    omega

/-- Bit labels that were sent read back. -/
theorem decodeBits_some (hcap : caps.labels < 2 ^ 16) {bits : List Bytes} (hnamed : namedBits bits ≠ [])
    (h : BitTexts (BasicCatalog.trimmed bits))
    (hroom : c.labelPool.used.toNat + (BasicCatalog.trimmed bits).length ≤ caps.labels) :
    ∃ c', (decodeBits c).ofTree (.map ((namedBits bits).map bitPair)) =
        some (refTo c.labelPool.used (unlevelled (BasicCatalog.trimmed bits)), c') ∧
      Extends c c' (unlevelled (BasicCatalog.trimmed bits)) := by
  have htexts : bitTexts 0 (namedBits bits) = BasicCatalog.trimmed bits := bitTexts_named bits 0
  have hnames := namedBits_names h
  have hasc := ascending_named bits
  have hlen := length_named_le 0 (namedBits bits)
  have hpos := List.length_pos_of_ne_nil hnamed
  have hcount := h.count
  rw [htexts] at hlen
  obtain ⟨s, hfold⟩ := foldlM_bits_some (c := c) hcap hnames (fun b _ => Nat.zero_le b.2) hasc (by
    rw [htexts]
    exact hroom)
  have hfold : ((namedBits bits).map bitPair).foldlM bitStep (0, c) = some (s.1, s.2) := hfold
  obtain ⟨named, heq, -, hext, hfilled⟩ := foldlM_bits hcap (ascending_bits.mpr hasc)
    (fun p _ => Nat.zero_le p.1) hfold
  obtain rfl : namedBits bits = named := by
    have hinj : Function.Injective bitPair := by
      rintro ⟨s, k⟩ ⟨s', k'⟩ h
      simp only [bitPair, Prod.mk.injEq, CborTree.text.injEq] at h
      rw [h.1, h.2]
    exact hinj.list_map heq
  rw [htexts] at hext hfilled
  refine ⟨s.2, ?_, hext⟩
  rw [decodeBits_map, if_neg (by rw [List.length_map]; omega), hfold, Option.map_some, refTo, unlevelled, List.length_map,
    hfilled, Nat.zero_add]

/-! ## Levels -/

/-- `c'` is `c` with other labels in its pool. -/
structure Relabels (c c' : BasicCatalog caps) (l : List Label) : Prop where
  same : c' = { c with labelPool := c'.labelPool }
  live : c'.labelPool.live = l

/-- Labels with new levels. -/
def relevel (l : List Label) (levels : List AccessLevel) : List Label :=
  List.zipWith (fun label access => { label with access }) l levels

theorem poolSetLabelAccess_at {l l' : List Label} {x : Label} (hcap : caps.labels < 2 ^ 16)
    (hlive : c.labelPool.live = l ++ x :: l') (a : AccessLevel) :
    ∃ c', c.poolSetLabelAccess (UInt16.ofNat l.length) a = some c' ∧ Relabels c c' (l ++ { x with access := a } :: l') := by
  have hused := Pool.length_live c.labelPool
  have hfits := c.labelPool.fits
  rw [hlive, List.length_append, List.length_cons] at hused
  have hindex : (UInt16.ofNat l.length).toNat = l.length := by
    rw [UInt16.toNat_ofNat']
    omega
  unfold BasicCatalog.poolSetLabelAccess
  rw [if_pos (by rw [UInt16.lt_iff_toNat_lt, hindex]; omega), hindex]
  exact ⟨_, rfl, rfl, Pool.live_modify_at hlive⟩

def levelStep (start : Nat) (s : Nat × BasicCatalog caps) (t : CborTree) : Option (Nat × BasicCatalog caps) :=
  ((enum accessLevels).ofTree t).bind fun a =>
    (s.2.poolSetLabelAccess (UInt16.ofNat (start + s.1)) a).map fun c => (s.1 + 1, c)

theorem decodeOptionAccess_array {ts : List CborTree} : (decodeOptionAccess ref c).ofTree (.array ts) =
    if ref.count = 0 ∨ ts.length ≠ ref.count.toNat then none
    else (ts.foldlM (levelStep ref.offset.toNat) (0, c)).map Prod.snd := by
  simp only [decodeOptionAccess, array, andThen_ofTree, map_toOption, orFail_toOption]
  rfl

/-- There must be options. -/
theorem decodeOptionAccess_none (h : ref.count = 0) : (decodeOptionAccess ref c).ofTree t = none := by
  cases t with
  | array ts => rw [decodeOptionAccess_array, if_pos (.inl h)]
  | _ => rfl

/-- The levels of the options from `done` on. -/
theorem foldlM_levels {front done rest : List Label} {levels : List AccessLevel} {ts : List CborTree}
    (hcap : caps.labels < 2 ^ 16) (hlive : c.labelPool.live = front ++ done ++ rest)
    (hts : List.Forall₂ (fun t a => (enum accessLevels).ofTree t = some a) ts levels)
    (hlen : levels.length = rest.length) :
    ∃ c', ts.foldlM (levelStep front.length) (done.length, c) = some (done.length + ts.length, c') ∧
      Relabels c c' (front ++ done ++ relevel rest levels) := by
  induction hts generalizing c done rest with
  | nil =>
    obtain rfl := List.eq_nil_of_length_eq_zero hlen.symm
    exact ⟨c, rfl, rfl, by simpa [relevel] using hlive⟩
  | @cons t a ts levels hta _ ih =>
    cases rest with
    | nil => cases hlen
    | cons x rest =>
      obtain ⟨c₁, hset, hsame, hlive₁⟩ := poolSetLabelAccess_at hcap hlive a
      have hdone : (done ++ [{ x with access := a }]).length = done.length + 1 := by
        rw [List.length_append, List.length_singleton]
      have hlive₂ : c₁.labelPool.live = front ++ (done ++ [{ x with access := a }]) ++ rest := by
        rw [hlive₁]
        simp
      obtain ⟨c', hfold, hsame', hlive'⟩ := ih hlive₂ (by simpa using hlen)
      refine ⟨c', ?_, ?_, ?_⟩
      · have hstep : levelStep front.length (done.length, c) t = some (done.length + 1, c₁) := by
          rw [List.length_append] at hset
          simp only [levelStep, hta, Option.bind_some, hset, Option.map_some]
        rw [List.foldlM_cons, hstep]
        rw [hdone] at hfold
        refine hfold.trans ?_
        rw [List.length_cons, Nat.add_assoc, Nat.add_comm 1]
      · rw [hsame', hsame]
      · rw [hlive']
        simp [relevel]

/-- The tree of a level. -/
theorem level_ofTree (a : AccessLevel) : (enum accessLevels).ofTree (enumTree accessLevels a) = some a :=
  enum_ofTree (by cases a <;> decide) (by decide)

/-- **What a list of levels does to the options it is for.** -/
theorem decodeOptionAccess_ok {front options : List Label} (hcap : caps.labels < 2 ^ 16)
    (hlive : c.labelPool.live = front ++ options) (hoffset : ref.offset.toNat = front.length)
    (hcount : ref.count.toNat = options.length) (h : (decodeOptionAccess ref c).ofTree t = some c') :
    ∃ levels, levels.length = options.length ∧ options ≠ [] ∧ Relabels c c' (front ++ relevel options levels) := by
  cases t with
  | array ts =>
    rw [decodeOptionAccess_array] at h
    split_ifs at h with hbad
    push Not at hbad
    obtain ⟨s, hfold, rfl⟩ := Option.map_eq_some_iff.mp h
    have hlevels : ∃ levels, List.Forall₂ (fun t a => (enum accessLevels).ofTree t = some a) ts levels := by
      clear hbad h hlive
      generalize (0, c) = s₀ at hfold
      induction ts generalizing s₀ with
      | nil => exact ⟨[], .nil⟩
      | cons t ts ih =>
        rw [List.foldlM_cons] at hfold
        obtain ⟨s₁, hstep, hfold⟩ := Option.bind_eq_some_iff.mp hfold
        obtain ⟨a, ha, -⟩ := Option.bind_eq_some_iff.mp hstep
        obtain ⟨levels, hlevels⟩ := ih s₁ hfold
        exact ⟨a :: levels, .cons ha hlevels⟩
    obtain ⟨levels, hlevels⟩ := hlevels
    have hlen : levels.length = options.length := by rw [← hlevels.length_eq, ← hcount, hbad.2]
    have hlive : c.labelPool.live = front ++ [] ++ options := by rw [List.append_nil, hlive]
    obtain ⟨c₁, hfold₁, hrelabels⟩ := foldlM_levels hcap hlive hlevels hlen
    rw [hoffset] at hfold
    have heq := hfold.symm.trans hfold₁
    obtain rfl := Option.some.inj heq
    refine ⟨levels, hlen, fun hnil => hbad.1 (UInt8.toNat_inj.mp (by rw [hcount, hnil]; rfl)), ?_⟩
    rw [List.append_nil] at hrelabels
    exact hrelabels
  | _ => cases h

theorem decodeOptionAccess_some {front options : List Label} {levels : List AccessLevel} (hcap : caps.labels < 2 ^ 16)
    (hlive : c.labelPool.live = front ++ options) (hoffset : ref.offset.toNat = front.length)
    (hcount : ref.count.toNat = options.length) (hlen : levels.length = options.length) (hne : levels ≠ []) :
    ∃ c', (decodeOptionAccess ref c).ofTree (.arrayOf (enumTree accessLevels) levels) = some c' ∧
      Relabels c c' (front ++ relevel options levels) := by
  have hpos := List.length_pos_of_ne_nil hne
  have hlevels : List.Forall₂ (fun t a => (enum accessLevels).ofTree t = some a) (levels.map (enumTree accessLevels))
      levels := by
    rw [List.forall₂_map_left_iff, List.forall₂_same]
    exact fun a _ => level_ofTree a
  have hlive : c.labelPool.live = front ++ [] ++ options := by rw [List.append_nil, hlive]
  obtain ⟨c', hfold, hrelabels⟩ := foldlM_levels hcap hlive hlevels hlen
  have hzero : ref.count ≠ 0 := by
    intro h
    rw [h, UInt8.toNat_zero] at hcount
    omega
  refine ⟨c', ?_, by rwa [List.append_nil] at hrelabels⟩
  rw [CborTree.arrayOf, decodeOptionAccess_array, if_neg (by simp [hzero, hcount, hlen]), hoffset]
  rw [List.length_nil] at hfold
  rw [hfold, Option.map_some]

/-! ## References -/

/-- What a reference to labels in the pool resolves to. -/
theorem labels_refTo {front l back : List Label} {start : UInt16} (hcount : l.length ≤ 255)
    (hlive : c.labelPool.live = front ++ (l ++ back)) (hstart : start.toNat = front.length) :
    c.labels (refTo start l) = l := by
  have hused := Pool.length_live c.labelPool
  rw [hlive, List.length_append, List.length_append] at hused
  have hlen : (UInt8.ofNat l.length).toNat = l.length := by
    rw [UInt8.toNat_ofNat']
    omega
  unfold BasicCatalog.labels
  by_cases hnil : l = []
  · rw [if_pos (by rw [refTo, hnil]; rfl), hnil]
  · have hpos := List.length_pos_of_ne_nil hnil
    have hne : (refTo start l).count ≠ 0 := by
      intro h
      have hzero := congrArg UInt8.toNat h
      rw [refTo, hlen, UInt8.toNat_zero] at hzero
      omega
    rw [if_neg hne]
    simp only [refTo, hlen, hstart]
    rw [Pool.slice_eq (by omega), hlive, List.drop_left, List.take_left, Option.getD_some]

@[simp] theorem labels_none (c : BasicCatalog caps) : c.labels {} = [] := rfl

/-- What other references resolve to does not change while the pool grows. -/
theorem labels_extends {l : List Label} (h : Extends c c' l) (hknown : ∀ x ∈ ref.cells, x < c.labelPool.used.toNat) :
    c'.labels ref = c.labels ref := by
  unfold BasicCatalog.labels
  by_cases hzero : ref.count = 0
  · rw [if_pos hzero, if_pos hzero]
  · have hpos : 0 < ref.count.toNat := Nat.pos_of_ne_zero fun h0 => hzero (UInt8.toNat_inj.mp h0)
    have hlast := hknown (ref.offset.toNat + (ref.count.toNat - 1)) (by rw [LabelRef.cells, List.mem_range'_1]; omega)
    rw [if_neg hzero, if_neg hzero, Pool.slice_grows (Pool.grows_of_append h.live) (by omega)]

end SlopSync.Builder
