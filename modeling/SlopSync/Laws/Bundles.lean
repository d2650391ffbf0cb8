import SlopSync.BundleWriter

/-! # The bundle writer and the view

* `parse_bundle` — the view reads what the format puts together, and `bundle_of_parse` — it reads nothing else.
* `Filling` — the writer's buffer holds the samples accepted; `Filling.addSample` is its step and `Filling.addAll` its run.

The constructor leaves the count to the first sample that is accepted. -/

namespace SlopSync

/-! ## The format -/

/-- Offsets, then samples. -/
def bundleBody (tOffs : List UInt16) (samples : List Bytes) : Bytes := tOffs.flatMap le16 ++ samples.flatten

section

variable {tOffs : List UInt16} {samples : List Bytes} {size : Nat} {bs rest : Bytes}

theorem leNat_le16 (v : UInt16) : UInt16.ofNat (leNat (le16 v)) = v := by
  refine UInt16.toNat_inj.mp ?_
  have := v.toNat_lt
  simp [leNat, le16, Nat.shiftRight_eq_div_pow]
  omega

theorem leNat_le32 (v : UInt32) : UInt32.ofNat (leNat (le32 v)) = v := by
  refine UInt32.toNat_inj.mp ?_
  have := v.toNat_lt
  simp [leNat, le32, Nat.shiftRight_eq_div_pow]
  omega

theorem le16_leNat {bs : Bytes} (h : bs.length = 2) : le16 (UInt16.ofNat (leNat bs)) = bs := by
  match bs, h with
  | [a, b], _ =>
    have ha := a.toNat_lt
    have hb := b.toNat_lt
    simp only [le16, List.cons.injEq, and_true, ← UInt8.toNat_inj]
    constructor
    · simp [leNat]
    · simp [leNat, Nat.shiftRight_eq_div_pow]
      omega

theorem le32_leNat {bs : Bytes} (h : bs.length = 4) : le32 (UInt32.ofNat (leNat bs)) = bs := by
  match bs, h with
  | [a, b, c, d], _ =>
    have ha := a.toNat_lt
    have hb := b.toNat_lt
    have hc := c.toNat_lt
    have hd := d.toNat_lt
    simp only [le32, List.cons.injEq, and_true, ← UInt8.toNat_inj]
    refine ⟨?_, ?_, ?_, ?_⟩ <;> simp [leNat, Nat.shiftRight_eq_div_pow] <;> omega

/-- Pieces of one size, out of their concatenation. -/
theorem pieces_flatten (l : List Bytes) (h : ∀ p ∈ l, p.length = size) (rest : Bytes) :
    pieces size l.length (l.flatten ++ rest) = l := by
  induction l with
  | nil => rfl
  | cons p l ih =>
    have hp := h p List.mem_cons_self
    rw [List.length_cons, pieces, List.flatten_cons, List.append_assoc, List.take_left' hp, List.drop_left' hp,
      ih fun q hq => h q (List.mem_cons_of_mem _ hq)]

theorem flatten_pieces (size n : Nat) (bs : Bytes) : (pieces size n bs).flatten = bs.take (n * size) := by
  induction n generalizing bs with
  | zero => rw [pieces, List.flatten_nil, Nat.zero_mul, List.take_zero]
  | succ n ih => rw [pieces, List.flatten_cons, ih, Nat.succ_mul, Nat.add_comm, List.take_add]

theorem length_pieces (size n : Nat) (bs : Bytes) : (pieces size n bs).length = n := by
  induction n generalizing bs with
  | zero => rfl
  | succ n ih => rw [pieces, List.length_cons, ih]

theorem mem_pieces {n : Nat} {p : Bytes} (h : n * size ≤ bs.length) (hp : p ∈ pieces size n bs) : p.length = size := by
  induction n generalizing bs with
  | zero => cases hp
  | succ n ih =>
    rw [Nat.succ_mul] at h
    rcases List.mem_cons.mp hp with rfl | hp
    · rw [List.length_take]
      omega
    · exact ih (by rw [List.length_drop]; omega) hp

theorem length_flatMap_le16 (tOffs : List UInt16) : (tOffs.flatMap le16).length = 2 * tOffs.length := by
  induction tOffs with
  | nil => rfl
  | cons t tOffs ih =>
    rw [List.flatMap_cons, List.length_append, ih, List.length_cons]
    simp only [le16, List.length_cons, List.length_nil]
    omega

theorem length_flatten_samples (h : ∀ p ∈ samples, p.length = size) : samples.flatten.length = samples.length * size := by
  induction samples with
  | nil => exact (Nat.zero_mul _).symm
  | cons p samples ih =>
    rw [List.flatten_cons, List.length_append, h p List.mem_cons_self, ih fun q hq => h q (List.mem_cons_of_mem _ hq),
      List.length_cons, Nat.succ_mul, Nat.add_comm]

/-- What the view accepts, besides sizes. -/
structure Offsets (tOffs : List UInt16) : Prop where
  count : tOffs.length ≤ Limits.bundleMaxSamples
  increase : offsetsIncrease tOffs = true
  span : ∀ t ∈ tOffs.getLast?, t.toNat ≤ Limits.bundleMaxSpanMs * 1000

theorem length_bundle (tBase : UInt32) (count r : UInt8) (hlen : samples.length = tOffs.length)
    (hsize : ∀ p ∈ samples, p.length = size) :
    (le32 tBase ++ [count, r] ++ bundleBody tOffs samples).length =
      kStreamBundleHeaderBytes + kStreamBundleTOffBytes * tOffs.length + tOffs.length * size := by
  simp only [bundleBody, List.length_append, length_flatMap_le16, length_flatten_samples hsize, hlen, le32, List.length_cons,
    List.length_nil, kStreamBundleHeaderBytes, kStreamBundleTOffBytes]
  omega

/-- The offsets and the samples of a body. -/
theorem pieces_body (hlen : samples.length = tOffs.length) (hsize : ∀ p ∈ samples, p.length = size) :
    (pieces 2 tOffs.length (bundleBody tOffs samples)).map (fun b => UInt16.ofNat (leNat b)) = tOffs ∧
      pieces size tOffs.length ((bundleBody tOffs samples).drop (2 * tOffs.length)) = samples := by
  constructor
  · have hflat : tOffs.flatMap le16 = (tOffs.map le16).flatten := List.flatMap_def ..
    have hpieces : pieces 2 (tOffs.map le16).length ((tOffs.map le16).flatten ++ samples.flatten) = tOffs.map le16 :=
      pieces_flatten _ (by simp [le16]) _
    rw [List.length_map] at hpieces
    rw [bundleBody, hflat, hpieces, List.map_map]
    exact List.map_id'' leNat_le16 tOffs
  · have hpieces := pieces_flatten samples hsize []
    rw [List.append_nil, hlen] at hpieces
    rw [bundleBody, ← length_flatMap_le16 tOffs, List.drop_left, hpieces]

/-- **The view reads the format.** -/
theorem parse_bundle (tBase : UInt32) (r : UInt8) (ho : Offsets tOffs) (hlen : samples.length = tOffs.length)
    (hsize : ∀ p ∈ samples, p.length = size) :
    BundleView.parse (le32 tBase ++ [UInt8.ofNat tOffs.length, r] ++ bundleBody tOffs samples) size =
      some { tBase, tOffs, samples } := by
  have hcount : leNat [UInt8.ofNat tOffs.length] = tOffs.length := by
    have hle : tOffs.length ≤ 32 := ho.count
    simp [leNat]
    omega
  have hlength := length_bundle tBase (UInt8.ofNat tOffs.length) r hlen hsize
  have h6 : kStreamBundleHeaderBytes = 6 := rfl
  have h2 : kStreamBundleTOffBytes = 2 := rfl
  obtain ⟨hoffs, hsamples⟩ := pieces_body hlen hsize
  generalize hbs : le32 tBase ++ [UInt8.ofNat tOffs.length, r] ++ bundleBody tOffs samples = bs at hlength
  have htake : bs.take 4 = le32 tBase := by rw [← hbs]; rfl
  have hbyte : (bs.drop 4).take 1 = [UInt8.ofNat tOffs.length] := by rw [← hbs]; rfl
  have hbody : bs.drop 6 = bundleBody tOffs samples := by rw [← hbs]; rfl
  have hrest : bs.drop (6 + 2 * tOffs.length) = (bundleBody tOffs samples).drop (2 * tOffs.length) := by
    rw [← List.drop_drop, hbody]
  have hspan : tOffs.getLast?.any (fun t => decide (Limits.bundleMaxSpanMs * 1000 < t.toNat)) = false := by
    have hmax := ho.span
    revert hmax
    cases tOffs.getLast? with
    | none => exact fun _ => rfl
    | some t => exact fun hmax => decide_eq_false (Nat.not_lt.mpr (hmax t rfl))
  rw [h6, h2] at hlength
  have hheader : ¬bs.length < 6 := by omega
  have hroom : ¬bs.length < 6 + 2 * tOffs.length := by omega
  have htotal : ¬bs.length < 6 + 2 * tOffs.length + tOffs.length * size := by omega
  unfold BundleView.parse
  dsimp only
  rw [htake, hbyte, hbody, hcount, hrest, hoffs, hsamples, leNat_le32, ho.increase, hspan, if_neg hheader,
    if_neg (Nat.not_lt.mpr ho.count), if_neg hroom, if_neg (by decide), if_neg (by decide), if_neg htotal]

/-- The parts of a bundle of the exact size put it together again. -/
theorem bytes_split {n : Nat} (hn : leNat ((bs.drop 4).take 1) = n) (hlength : bs.length = 6 + 2 * n + n * size) :
    ∃ r, bs = le32 (UInt32.ofNat (leNat (bs.take 4))) ++ [UInt8.ofNat n, r] ++
      bundleBody ((pieces 2 n (bs.drop 6)).map fun b => UInt16.ofNat (leNat b)) (pieces size n (bs.drop (6 + 2 * n))) := by
  obtain ⟨e, r, hfour⟩ : ∃ e r, bs.drop 4 = e :: r :: bs.drop 6 := by
    refine ⟨bs[4], bs[5], ?_⟩
    rw [List.drop_eq_getElem_cons (by omega), List.drop_eq_getElem_cons (by omega)]
  have hbyte : UInt8.ofNat n = e := by
    rw [← hn, hfour]
    simp [leNat]
  have hoffs : ((pieces 2 n (bs.drop 6)).map fun b => UInt16.ofNat (leNat b)).flatMap le16 = (bs.drop 6).take (n * 2) := by
    have hsame : ∀ p ∈ pieces 2 n (bs.drop 6), le16 (UInt16.ofNat (leNat p)) = p := fun p hp =>
      le16_leNat (mem_pieces (by rw [List.length_drop]; omega) hp)
    rw [← flatten_pieces, List.flatMap_map, List.flatMap_def, List.map_congr_left hsame, List.map_id']
  have hbody : bundleBody ((pieces 2 n (bs.drop 6)).map fun b => UInt16.ofNat (leNat b)) (pieces size n (bs.drop (6 + 2 * n))) =
      bs.drop 6 := by
    have hall : (bs.drop (6 + 2 * n)).take (n * size) = bs.drop (6 + 2 * n) :=
      List.take_of_length_le (by rw [List.length_drop]; omega)
    rw [bundleBody, hoffs, flatten_pieces, hall, ← List.drop_drop, Nat.mul_comm 2 n, List.take_append_drop]
  refine ⟨r, ?_⟩
  rw [hbyte, hbody, le32_leNat (by rw [List.length_take]; omega)]
  calc bs = bs.take 4 ++ bs.drop 4 := (List.take_append_drop 4 bs).symm
    _ = bs.take 4 ++ [e, r] ++ bs.drop 6 := by
      rw [hfour]
      simp

/-- **The view reads nothing else.** -/
theorem bundle_of_parse {b : BundleView} (h : BundleView.parse bs size = some b)
    (hexact : bs.length = kStreamBundleHeaderBytes + kStreamBundleTOffBytes * b.sampleCount + b.sampleCount * size) :
    Offsets b.tOffs ∧ b.samples.length = b.tOffs.length ∧ (∀ p ∈ b.samples, p.length = size) ∧
      ∃ r, bs = le32 b.tBase ++ [UInt8.ofNat b.tOffs.length, r] ++ bundleBody b.tOffs b.samples := by
  unfold BundleView.parse at h
  split at h
  · cases h
  rename_i hheader
  dsimp only at h
  split at h
  · cases h
  rename_i hcap
  split at h
  · cases h
  rename_i hroom
  split at h
  · cases h
  rename_i hinc
  split at h
  · cases h
  rename_i hspan
  split at h
  · cases h
  rename_i htotal
  cases h
  generalize hn : leNat ((bs.drop 4).take 1) = n at *
  have hcount : ((pieces 2 n (bs.drop 6)).map fun b => UInt16.ofNat (leNat b)).length = n := by
    rw [List.length_map, length_pieces]
  have hlength : bs.length = 6 + 2 * n + n * size := by
    rw [BundleView.sampleCount, hcount] at hexact
    exact hexact
  refine ⟨⟨by rw [hcount]; omega, by simpa using hinc, fun t ht => ?_⟩, ?_, fun p hp => ?_, ?_⟩
  · by_contra hlt
    refine hspan ?_
    rw [ht]
    exact decide_eq_true (Nat.lt_of_not_le hlt)
  · rw [hcount, length_pieces]
  · refine mem_pieces ?_ hp
    rw [List.length_drop]
    omega
  · rw [hcount]
    exact bytes_split hn hlength

end

/-! ## The writer -/

section

variable {tOffs : List UInt16} {t : UInt16}

theorem offsetsIncrease_go_snoc (tOffs : List UInt16) (a t : UInt16) :
    offsetsIncrease.go a (tOffs ++ [t]) = (offsetsIncrease.go a tOffs && decide (tOffs.getLast?.getD a < t)) := by
  induction tOffs generalizing a with
  | nil => exact Bool.and_true _
  | cons b tOffs ih =>
    rw [List.cons_append, offsetsIncrease.go, offsetsIncrease.go, ih, Bool.and_assoc, List.getLast?_cons, Option.getD_some]

theorem Offsets.nil : Offsets [] := ⟨by decide, rfl, fun _ h => by cases h⟩

/-- What the writer checks of the next offset is what the view will. -/
theorem Offsets.snoc {w : BundleWriter} (h : Offsets w.tOffs) (hcount : ¬Limits.bundleMaxSamples ≤ w.sampleCount)
    (horder : w.inOrder t = true) (hspan : ¬Limits.bundleMaxSpanMs * 1000 < t.toNat) : Offsets (w.tOffs ++ [t]) := by
  refine ⟨?_, ?_, ?_⟩
  · rw [List.length_append, List.length_singleton]
    exact Nat.lt_of_not_le hcount
  · have hinc := h.increase
    unfold BundleWriter.inOrder at horder
    revert hinc horder
    cases w.tOffs with
    | nil =>
      intro horder _
      simpa [offsetsIncrease, offsetsIncrease.go] using horder
    | cons a tOffs =>
      intro horder hinc
      rw [List.getLast?_cons] at horder
      rw [offsetsIncrease, Bool.and_eq_true] at hinc
      rw [List.cons_append, offsetsIncrease, offsetsIncrease_go_snoc, hinc.1, hinc.2]
      exact horder
  · intro u hu
    rw [List.getLast?_append, List.getLast?_singleton] at hu
    cases hu
    exact Nat.le_of_not_lt hspan

/-- Offsets without the last one, and what it had to be. -/
theorem Offsets.unsnoc {l : List UInt16} (h : Offsets (l ++ [t])) :
    Offsets l ∧ l.length < Limits.bundleMaxSamples ∧ (∀ w : BundleWriter, w.tOffs = l → w.inOrder t = true) ∧
      t.toNat ≤ Limits.bundleMaxSpanMs * 1000 := by
  have hcount := h.count
  rw [List.length_append, List.length_singleton] at hcount
  have hspan : t.toNat ≤ Limits.bundleMaxSpanMs * 1000 := h.span t (by simp)
  have hinc := h.increase
  cases l with
  | nil =>
    refine ⟨Offsets.nil, hcount, fun w hw => ?_, hspan⟩
    rw [BundleWriter.inOrder, hw]
    simpa [offsetsIncrease, offsetsIncrease.go] using hinc
  | cons a l =>
    rw [List.cons_append, offsetsIncrease, offsetsIncrease_go_snoc, Bool.and_eq_true, Bool.and_eq_true] at hinc
    obtain ⟨ha, hgo, hlast⟩ := hinc
    refine ⟨⟨Nat.le_of_succ_le hcount, ?_, fun u hu => ?_⟩, hcount, fun w hw => ?_, hspan⟩
    · rw [offsetsIncrease, ha, hgo]
      rfl
    · rw [List.getLast?_cons] at hu
      cases hu
      have hlt := UInt16.lt_iff_toNat_lt.mp (of_decide_eq_true hlast)
      omega
    · rw [BundleWriter.inOrder, hw, List.getLast?_cons]
      exact hlast

theorem Offsets.left {l : List UInt16} (rest : List UInt16) (h : Offsets (l ++ rest)) : Offsets l := by
  induction rest using List.reverseRecOn with
  | nil => rwa [List.append_nil] at h
  | append_singleton rest t ih =>
    rw [← List.append_assoc] at h
    exact ih h.unsnoc.1

end

/-- The count in the buffer: before the first sample it is what the buffer held. -/
def countByte (first : UInt8) (tOffs : List UInt16) : UInt8 :=
  if tOffs = [] then first else UInt8.ofNat tOffs.length

/-- The buffer holds the samples accepted. -/
structure Filling (w : BundleWriter) (tBase : UInt32) (size total : Nat) (first : UInt8) (samples : List Bytes) (slack : Bytes) :
    Prop where
  valid : w.valid = true
  base : w.tBase = tBase
  sampleSize : w.sampleSize = size
  total : w.out.length = total
  offsets : Offsets w.tOffs
  count : samples.length = w.tOffs.length
  size : ∀ p ∈ samples, p.length = size
  out : w.out = le32 tBase ++ [countByte first w.tOffs, 0] ++ bundleBody w.tOffs samples ++ slack

namespace BundleWriter

variable {w w' : BundleWriter} {tOff : UInt16} {sample : Bytes}

/-- **A call that returns false changes nothing.** -/
theorem addSample_false (h : (w.addSample tOff sample).1 = false) : (w.addSample tOff sample).2 = w := by
  revert h
  unfold addSample
  split_ifs <;> simp

/-- When a call returns true, and what it does. -/
theorem addSample_true : (w.addSample tOff sample).1 = true ↔
    w.valid = true ∧ sample.length = w.sampleSize ∧ ¬Limits.bundleMaxSamples ≤ w.sampleCount ∧ w.inOrder tOff = true ∧
      ¬Limits.bundleMaxSpanMs * 1000 < tOff.toNat ∧ w.newTotal ≤ w.out.length := by
  unfold addSample
  split_ifs with h1 h2 h3 h4 h5 h6
  · exact iff_of_false nofun fun h => by simp [h.1] at h1
  · exact iff_of_false nofun fun h => h2 h.2.1
  · exact iff_of_false nofun fun h => h.2.2.1 h3
  · exact iff_of_false nofun fun h => by simp [h.2.2.2.1] at h4
  · exact iff_of_false nofun fun h => h.2.2.2.2.1 h5
  · exact iff_of_false nofun fun h => Nat.not_lt.mpr h.2.2.2.2.2 h6
  · exact iff_of_true rfl ⟨by simpa using h1, not_not.mp h2, h3, by simpa using h4, h5, Nat.le_of_not_lt h6⟩

theorem addSample_ok (h : (w.addSample tOff sample).1 = true) : (w.addSample tOff sample).2 =
    { w with out := (w.append tOff sample).set 4 (UInt8.ofNat (w.sampleCount + 1)), tOffs := w.tOffs ++ [tOff] } := by
  revert h
  unfold addSample
  split_ifs <;> simp

end BundleWriter

namespace Filling

variable {w : BundleWriter} {tBase : UInt32} {size total : Nat} {first : UInt8} {samples : List Bytes} {slack : Bytes}
  {tOff : UInt16} {sample : Bytes}

/-- The header and the offsets. -/
theorem length_head (w : BundleWriter) (tBase : UInt32) (count : UInt8) :
    (le32 tBase ++ [count, 0] ++ w.tOffs.flatMap le16).length =
      kStreamBundleHeaderBytes + kStreamBundleTOffBytes * w.sampleCount := by
  rw [List.length_append, length_flatMap_le16]
  rfl

theorem length_slack (h : Filling w tBase size total first samples slack) :
    total = kStreamBundleHeaderBytes + kStreamBundleTOffBytes * w.sampleCount + w.sampleCount * size + slack.length := by
  rw [← h.total, h.out, List.length_append, length_bundle _ _ _ h.count h.size]
  rfl

theorem length_body (h : Filling w tBase size total first samples slack) : samples.flatten.length = w.sampleCount * size := by
  rw [length_flatten_samples h.size, h.count]
  rfl

/-- The samples, two bytes on. -/
theorem shift_eq (h : Filling w tBase size total first samples slack) (head : Bytes)
    (hhead : head.length = kStreamBundleHeaderBytes + kStreamBundleTOffBytes * w.sampleCount)
    (hout : w.out = head ++ (samples.flatten ++ slack)) (hroom : 2 ≤ slack.length) :
    ∃ two : Bytes, two.length = 2 ∧
      (if 0 < w.sampleCount then
        splice w.out (kStreamBundleHeaderBytes + kStreamBundleTOffBytes * w.sampleCount + kStreamBundleTOffBytes)
          ((w.out.drop (kStreamBundleHeaderBytes + kStreamBundleTOffBytes * w.sampleCount)).take (w.sampleCount * w.sampleSize))
      else w.out) = head ++ (two ++ (samples.flatten ++ slack.drop 2)) := by
  have htwo : ((samples.flatten ++ slack).take 2).length = 2 := by
    rw [List.length_take, List.length_append]
    omega
  refine ⟨(samples.flatten ++ slack).take 2, htwo, ?_⟩
  rw [← hhead, h.sampleSize, ← h.length_body, hout, List.drop_left, List.take_left]
  by_cases hn : 0 < w.sampleCount
  · have hcut : head ++ (samples.flatten ++ slack) =
        (head ++ (samples.flatten ++ slack).take 2) ++ (samples.flatten ++ slack).drop 2 := by
      rw [List.append_assoc, List.take_append_drop]
    have hlen : head.length + kStreamBundleTOffBytes = (head ++ (samples.flatten ++ slack).take 2).length := by
      rw [List.length_append, htwo]
      rfl
    have hrest : ((samples.flatten ++ slack).drop 2).drop samples.flatten.length = slack.drop 2 := by
      rw [List.drop_drop, Nat.add_comm, ← List.drop_drop, List.drop_left]
    rw [if_pos hn, hlen]
    nth_rewrite 1 [hcut]
    rw [splice_left, hrest]
    simp only [List.append_assoc]
  · have hnil : samples.flatten = [] := by
      rw [← List.length_eq_zero_iff, h.length_body, Nat.le_zero.mp (Nat.le_of_not_lt hn), Nat.zero_mul]
    rw [if_neg hn, hnil, List.nil_append, List.nil_append, List.take_append_drop]

/-- The buffer with one more sample, its count apart. -/
theorem append_eq (h : Filling w tBase size total first samples slack) (tOff : UInt16) (hsample : sample.length = size)
    (hroom : w.newTotal ≤ total) :
    w.append tOff sample = le32 tBase ++ [countByte first w.tOffs, 0] ++ bundleBody (w.tOffs ++ [tOff]) (samples ++ [sample]) ++
      slack.drop (2 + size) := by
  have hslack := h.length_slack
  have hlen : 2 ≤ slack.length := by
    have hmul := Nat.add_mul w.sampleCount 1 size
    simp only [BundleWriter.newTotal, kStreamBundleTOffBytes, h.sampleSize] at hroom hslack
    omega
  have hhead := length_head w tBase (countByte first w.tOffs)
  have hout := h.out
  rw [bundleBody, ← List.append_assoc, List.append_assoc _ samples.flatten] at hout
  generalize le32 tBase ++ [countByte first w.tOffs, 0] = pre at hhead hout ⊢
  obtain ⟨two, htwo, hshift⟩ := h.shift_eq _ hhead hout hlen
  have hoffset : (le16 tOff).length = two.length := htwo.symm
  have hlast : kStreamBundleHeaderBytes + kStreamBundleTOffBytes * w.sampleCount + kStreamBundleTOffBytes +
      w.sampleCount * w.sampleSize = (pre ++ w.tOffs.flatMap le16 ++ le16 tOff ++ samples.flatten).length := by
    rw [List.length_append, List.length_append, hhead, h.length_body, h.sampleSize]
    rfl
  unfold BundleWriter.append
  dsimp only
  rw [hshift, ← hhead, splice_left, hoffset, List.drop_left, hhead, hlast, ← List.append_assoc, splice_left, hsample, List.drop_drop]
  simp only [bundleBody, List.flatMap_append, List.flatMap_cons, List.flatMap_nil, List.append_nil, List.flatten_append,
    List.flatten_cons, List.flatten_nil, List.append_assoc]

/-- **One call that returns true.** -/
theorem addSample (h : Filling w tBase size total first samples slack) (hok : (w.addSample tOff sample).1 = true) :
    Filling (w.addSample tOff sample).2 tBase size total first (samples ++ [sample]) (slack.drop (2 + size)) := by
  obtain ⟨-, hsample, hcount, horder, hspan, hroom⟩ := BundleWriter.addSample_true.mp hok
  rw [h.sampleSize] at hsample
  rw [h.total] at hroom
  have happend := h.append_eq tOff hsample hroom
  have hcountByte : countByte first (w.tOffs ++ [tOff]) = UInt8.ofNat (w.sampleCount + 1) := by
    rw [countByte, if_neg (by simp), List.length_append, List.length_singleton]
    rfl
  have hout : (w.append tOff sample).set 4 (UInt8.ofNat (w.sampleCount + 1)) =
      le32 tBase ++ [countByte first (w.tOffs ++ [tOff]), 0] ++ bundleBody (w.tOffs ++ [tOff]) (samples ++ [sample]) ++
        slack.drop (2 + size) := by
    rw [happend, hcountByte]
    rfl
  have hlen : (samples ++ [sample]).length = (w.tOffs ++ [tOff]).length := by
    rw [List.length_append, List.length_append, List.length_singleton, List.length_singleton, h.count]
  have hsize : ∀ p ∈ samples ++ [sample], p.length = size := by
    intro p hp
    rcases List.mem_append.mp hp with hp | hp
    · exact h.size p hp
    · rw [List.mem_singleton.mp hp, hsample]
  have htotal : ((w.append tOff sample).set 4 (UInt8.ofNat (w.sampleCount + 1))).length = total := by
    have hslack := h.length_slack
    have hmul := Nat.add_mul w.sampleCount 1 size
    simp only [BundleWriter.newTotal, kStreamBundleTOffBytes, h.sampleSize] at hroom hslack
    rw [hout, List.length_append, length_bundle _ _ _ hlen hsize, List.length_drop, List.length_append, List.length_singleton]
    show kStreamBundleHeaderBytes + 2 * (w.sampleCount + 1) + (w.sampleCount + 1) * size + (slack.length - (2 + size)) = total
    omega
  rw [BundleWriter.addSample_ok hok]
  exact ⟨h.valid, h.base, h.sampleSize, htotal, h.offsets.snoc hcount horder hspan, hlen, hsize, hout⟩

/-- **Every sequence of calls.** -/
theorem addAll (h : Filling w tBase size total first samples slack) (calls : List (UInt16 × Bytes)) :
    ∃ slack', Filling (w.addAll calls).1 tBase size total first (samples ++ (w.addAll calls).2.map Prod.snd) slack' ∧
      (w.addAll calls).1.tOffs = w.tOffs ++ (w.addAll calls).2.map Prod.fst := by
  induction calls generalizing w samples slack with
  | nil => exact ⟨slack, by simpa [BundleWriter.addAll] using h, by simp [BundleWriter.addAll]⟩
  | cons call calls ih =>
    obtain ⟨tOff, sample⟩ := call
    cases hok : (w.addSample tOff sample).1 with
    | false =>
      have hsame := BundleWriter.addSample_false hok
      obtain ⟨slack', h', hoffs⟩ := ih h
      refine ⟨slack', ?_, ?_⟩ <;> simp only [BundleWriter.addAll, hok, hsame] <;> simpa
    | true =>
      obtain ⟨slack', h', hoffs⟩ := ih (h.addSample hok)
      have htOffs : (w.addSample tOff sample).2.tOffs = w.tOffs ++ [tOff] := by rw [BundleWriter.addSample_ok hok]
      refine ⟨slack', ?_, ?_⟩
      · simpa [BundleWriter.addAll, hok] using h'
      · simp [BundleWriter.addAll, hok, hoffs, htOffs]

/-- The buffer up to the size reported. -/
theorem take_finalize (h : Filling w tBase size total first samples slack) :
    0 < w.finalize ∧ w.out.take w.finalize = le32 tBase ++ [countByte first w.tOffs, 0] ++ bundleBody w.tOffs samples := by
  have hlen : w.finalize = (le32 tBase ++ [countByte first w.tOffs, 0] ++ bundleBody w.tOffs samples).length := by
    rw [length_bundle _ _ _ h.count h.size, BundleWriter.finalize, if_pos h.valid, h.sampleSize]
    rfl
  refine ⟨?_, ?_⟩
  · rw [BundleWriter.finalize, if_pos h.valid]
    have hpos : 0 < kStreamBundleHeaderBytes := by decide
    omega
  · rw [h.out, hlen, List.take_left]

/-- The view reads the buffer once there is a sample, or where the count was zero before. -/
theorem parse_iff (h : Filling w tBase size total first samples slack) :
    BundleView.parse (w.out.take w.finalize) size = some { tBase, tOffs := w.tOffs, samples } ↔ w.tOffs ≠ [] ∨ first = 0 := by
  rw [h.take_finalize.2]
  by_cases hnil : w.tOffs = []
  · have hsamples : samples = [] := by
      rw [← List.length_eq_zero_iff, h.count, hnil]
      rfl
    rw [countByte, if_pos hnil, hnil, hsamples]
    constructor
    · intro hparse
      by_contra hne
      have hcount : (leNat [first]) ≠ 0 := by
        intro hzero
        refine hne (.inr (UInt8.toNat_inj.mp ?_))
        simpa [leNat] using hzero
      have hlength : (le32 tBase ++ [first, 0] ++ bundleBody [] []).length = 6 := rfl
      have hbyte : ((le32 tBase ++ [first, 0] ++ bundleBody [] []).drop 4).take 1 = [first] := rfl
      unfold BundleView.parse at hparse
      dsimp only at hparse
      rw [hlength, hbyte, if_neg (by decide)] at hparse
      split at hparse
      · cases hparse
      · rw [if_pos (by omega)] at hparse
        cases hparse
    · rintro (hne | rfl)
      · exact absurd rfl hne
      · exact parse_bundle tBase 0 .nil rfl (by simp)
  · rw [countByte, if_neg hnil]
    exact iff_of_true (parse_bundle tBase 0 h.offsets h.count h.size) (.inl hnil)

/-- **Samples that the view would read are all taken.** -/
theorem addAll_zip (h : Filling w tBase size total first samples slack) (tOffs : List UInt16) (more : List Bytes)
    (ho : Offsets (w.tOffs ++ tOffs)) (hlen : more.length = tOffs.length) (hsize : ∀ p ∈ more, p.length = size)
    (hroom : kStreamBundleHeaderBytes + kStreamBundleTOffBytes * (w.tOffs ++ tOffs).length + (w.tOffs ++ tOffs).length * size ≤ total) :
    (w.addAll (tOffs.zip more)).2 = tOffs.zip more := by
  induction tOffs generalizing w samples slack more with
  | nil => rfl
  | cons t tOffs ih =>
    obtain ⟨sample, more, rfl⟩ : ∃ sample more', more = sample :: more' := by
      cases more with
      | nil => cases hlen
      | cons sample more => exact ⟨sample, more, rfl⟩
    obtain ⟨-, hcount, horder, hspan⟩ := (Offsets.left (l := w.tOffs ++ [t]) tOffs (by simpa using ho)).unsnoc
    have hfits : w.newTotal ≤ w.out.length := by
      have hmore : (w.sampleCount + 1) * size ≤ (w.tOffs ++ t :: tOffs).length * size := by
        refine Nat.mul_le_mul_right size ?_
        rw [List.length_append, List.length_cons, BundleWriter.sampleCount]
        omega
      rw [List.length_append, List.length_cons] at hroom
      rw [List.length_append, List.length_cons] at hmore
      rw [h.total, BundleWriter.newTotal, h.sampleSize]
      simp only [kStreamBundleTOffBytes, BundleWriter.sampleCount] at hroom hmore ⊢
      omega
    have hok : (w.addSample t sample).1 = true :=
      BundleWriter.addSample_true.mpr ⟨h.valid, by rw [hsize sample List.mem_cons_self, h.sampleSize], Nat.not_le.mpr hcount,
        horder w rfl, Nat.not_lt.mpr hspan, hfits⟩
    have htOffs : (w.addSample t sample).2.tOffs = w.tOffs ++ [t] := by rw [BundleWriter.addSample_ok hok]
    have hnext := ih (h.addSample hok) more (by rw [htOffs]; simpa using ho) (by simpa using hlen)
      (fun p hp => hsize p (List.mem_cons_of_mem _ hp)) (by rw [htOffs]; simpa using hroom)
    rw [List.zip_cons_cons, BundleWriter.addAll]
    dsimp only
    rw [hok, hnext]
    rfl

end Filling

/-! ## The two sides -/

section

variable {out : Bytes} {size : Nat}

/-- The constructor. -/
theorem writes_init (tBase : UInt32) (size : Nat) (h : kStreamBundleHeaderBytes ≤ out.length) :
    (∃ slack, Filling (BundleWriter.init out tBase size) tBase size out.length (out.getD 4 0) [] slack) ∧
      (BundleWriter.init out tBase size).tOffs = [] := by
  have h6 : 6 ≤ out.length := h
  have hfour : out.drop 4 = out[4] :: out[5] :: out.drop 6 := by
    rw [List.drop_eq_getElem_cons (by omega), List.drop_eq_getElem_cons (by omega)]
  have hget : out.getD 4 0 = out[4] := by rw [List.getD_eq_getElem?_getD, List.getElem?_eq_getElem (by omega), Option.getD_some]
  have hbase := splice_left [] out (le32 tBase)
  rw [List.nil_append, List.nil_append, List.length_nil, show (le32 tBase).length = 4 by rfl, hfour] at hbase
  have hout : (splice out 0 (le32 tBase)).set 5 0 = le32 tBase ++ [countByte (out.getD 4 0) [], 0] ++ bundleBody [] [] ++ out.drop 6 := by
    rw [hbase, hget]
    rfl
  have hlength : ((splice out 0 (le32 tBase)).set 5 0).length = out.length := by
    rw [hout, List.length_append, List.length_drop]
    show 6 + (out.length - 6) = out.length
    omega
  rw [BundleWriter.init, if_pos h]
  exact ⟨⟨out.drop 6, rfl, rfl, rfl, hlength, Offsets.nil, rfl, by simp, hout⟩, rfl⟩

/-- A writer whose header did not fit takes nothing. -/
theorem addAll_invalid {w : BundleWriter} (h : w.valid = false) (calls : List (UInt16 × Bytes)) : (w.addAll calls).1 = w := by
  induction calls with
  | nil => rfl
  | cons call calls ih =>
    have hno : (w.addSample call.1 call.2).1 = false := by
      rw [← Bool.not_eq_true]
      intro hok
      have := (BundleWriter.addSample_true.mp hok).1
      rw [h] at this
      cases this
    rw [BundleWriter.addAll]
    dsimp only
    rw [BundleWriter.addSample_false hno, ih]

/-- A sample that an empty writer takes. -/
def FitsFirst (total size : Nat) (call : UInt16 × Bytes) : Prop :=
  call.1 = 0 ∧ call.2.length = size ∧ kStreamBundleHeaderBytes + kStreamBundleTOffBytes + size ≤ total

theorem addSample_first {w : BundleWriter} {tBase : UInt32} {total : Nat} {first : UInt8} {slack : Bytes}
    (h : Filling w tBase size total first [] slack) (hnil : w.tOffs = []) (call : UInt16 × Bytes) :
    (w.addSample call.1 call.2).1 = true ↔ FitsFirst total size call := by
  have hcount : w.sampleCount = 0 := by rw [BundleWriter.sampleCount, hnil]; rfl
  have horder : w.inOrder call.1 = true ↔ call.1 = 0 := by rw [BundleWriter.inOrder, hnil]; exact beq_iff_eq
  have hspan : call.1 = 0 → ¬Limits.bundleMaxSpanMs * 1000 < call.1.toNat := by
    rintro h0
    rw [h0]
    decide
  rw [BundleWriter.addSample_true, horder, h.sampleSize, h.total, BundleWriter.newTotal, hcount, h.sampleSize, Nat.mul_zero,
    Nat.add_zero, Nat.zero_add, Nat.one_mul]
  constructor
  · rintro ⟨-, hsample, -, h0, -, hroom⟩
    exact ⟨h0, hsample, hroom⟩
  · rintro ⟨h0, hsample, hroom⟩
    exact ⟨h.valid, hsample, by decide, h0, hspan h0, hroom⟩

/-- Something is accepted when some call fits an empty writer. -/
theorem accepted_iff {w : BundleWriter} {tBase : UInt32} {total : Nat} {first : UInt8} {slack : Bytes}
    (h : Filling w tBase size total first [] slack) (hnil : w.tOffs = []) (calls : List (UInt16 × Bytes)) :
    (w.addAll calls).2 ≠ [] ↔ ∃ call ∈ calls, FitsFirst total size call := by
  induction calls with
  | nil => simp [BundleWriter.addAll]
  | cons call calls ih =>
    obtain ⟨tOff, sample⟩ := call
    have hone := addSample_first h hnil (tOff, sample)
    dsimp only at hone
    cases hok : (w.addSample tOff sample).1 with
    | false =>
      have hnot : ¬FitsFirst total size (tOff, sample) := by
        rw [← hone, hok]
        exact Bool.false_ne_true
      rw [BundleWriter.addAll]
      dsimp only
      rw [hok, BundleWriter.addSample_false hok, List.exists_mem_cons_iff, ← ih, if_neg Bool.false_ne_true]
      exact (or_iff_right hnot).symm
    | true =>
      rw [BundleWriter.addAll]
      dsimp only
      rw [hok, if_pos rfl]
      exact iff_of_true (List.cons_ne_nil _ _) ⟨_, List.mem_cons_self, hone.mp hok⟩

end

/-- **The writer and the view agree, once a sample is in**: after any calls the view reads the samples accepted exactly when
the header never fitted, the byte of the count was zero, or some call fits an empty writer; a call that fails changes
nothing; and a bundle of the exact size is written again from its samples under the same condition. -/
theorem bundle_agrees_iff (size : Nat) :
    (∀ (out : Bytes) (tBase : UInt32) (calls : List (UInt16 × Bytes)),
      let r := (BundleWriter.init out tBase size).addAll calls
      (0 < r.1.finalize → BundleView.parse (r.1.out.take r.1.finalize) size =
        some { tBase, tOffs := r.2.map Prod.fst, samples := r.2.map Prod.snd }) ↔
      out.length < kStreamBundleHeaderBytes ∨ out.getD 4 0 = 0 ∨ ∃ call ∈ calls, FitsFirst out.length size call) ∧
    (∀ (w : BundleWriter) (tOff : UInt16) (sample : Bytes), (w.addSample tOff sample).1 = false →
      (w.addSample tOff sample).2 = w) ∧
    ∀ (payload : Bytes) (b : BundleView) (out : Bytes), BundleView.parse payload size = some b →
      payload.length = kStreamBundleHeaderBytes + kStreamBundleTOffBytes * b.sampleCount + b.sampleCount * size →
      payload.length ≤ out.length →
      let w := ((BundleWriter.init out b.tBase size).addAll (b.tOffs.zip b.samples)).1
      w.out.take w.finalize = payload.set 5 0 ↔ out.getD 4 0 = 0 ∨ b.sampleCount ≠ 0 := by
  refine ⟨fun out tBase calls => ?_, fun w tOff sample => BundleWriter.addSample_false,
    fun payload b out hparse hexact hroom => ?_⟩
  · by_cases hheader : kStreamBundleHeaderBytes ≤ out.length
    · obtain ⟨⟨slack, hinit⟩, hnil⟩ := writes_init tBase size hheader
      obtain ⟨slack', h, hoffs⟩ := hinit.addAll calls
      rw [List.nil_append] at h
      rw [hnil, List.nil_append] at hoffs
      have hiff := h.parse_iff
      rw [hoffs] at hiff
      dsimp only
      rw [forall_prop_of_true h.take_finalize.1, hiff, ← accepted_iff hinit hnil, ne_eq, List.map_eq_nil_iff,
        or_iff_right (Nat.not_lt.mpr hheader)]
      exact or_comm
    · have hinvalid : BundleWriter.init out tBase size = { out, tBase, sampleSize := size } := by
        rw [BundleWriter.init, if_neg hheader]
      refine iff_of_true (fun hpos => ?_) (.inl (Nat.lt_of_not_le hheader))
      rw [hinvalid, addAll_invalid rfl] at hpos
      exact absurd hpos (Nat.lt_irrefl 0)
  · obtain ⟨ho, hlen, hsize, r, hbytes⟩ := bundle_of_parse hparse hexact
    have hheader : kStreamBundleHeaderBytes ≤ out.length := by omega
    obtain ⟨⟨slack, hinit⟩, hnil⟩ := writes_init b.tBase size hheader
    have hall := hinit.addAll_zip b.tOffs b.samples (by rwa [hnil, List.nil_append]) hlen hsize
      (by rw [hnil, List.nil_append]; exact Nat.le_trans (Nat.le_of_eq hexact.symm) hroom)
    obtain ⟨slack', h, hoffs⟩ := hinit.addAll (b.tOffs.zip b.samples)
    rw [hall, List.nil_append, List.map_snd_zip (Nat.le_of_eq hlen)] at h
    rw [hall, hnil, List.nil_append, List.map_fst_zip (Nat.le_of_eq hlen.symm)] at hoffs
    have htake := h.take_finalize.2
    rw [hoffs] at htake
    have hset : payload.set 5 0 = le32 b.tBase ++ [UInt8.ofNat b.tOffs.length, 0] ++ bundleBody b.tOffs b.samples := by
      rw [hbytes]
      rfl
    dsimp only
    rw [htake, hset, List.append_left_inj, List.append_right_inj, List.cons.injEq, countByte, BundleView.sampleCount, ne_eq,
      List.length_eq_zero_iff]
    by_cases hoffsNil : b.tOffs = []
    · rw [if_pos hoffsNil, hoffsNil]
      simp
    · rw [if_neg hoffsNil]
      simp [hoffsNil]

/-- A buffer that held a 7 where the count goes: a writer with no sample yet shows a bundle that does not parse. -/
theorem empty_bundle_unreadable :
    ¬∀ (out : Bytes) (tBase : UInt32) (size : Nat) (calls : List (UInt16 × Bytes)),
      let r := (BundleWriter.init out tBase size).addAll calls
      0 < r.1.finalize → BundleView.parse (r.1.out.take r.1.finalize) size =
        some { tBase, tOffs := r.2.map Prod.fst, samples := r.2.map Prod.snd } := by
  intro h
  have := h [0, 0, 0, 0, 7, 0, 0, 0] 1000 1 [(5, [9])] (by decide)
  revert this
  decide

/-- One sample into a buffer of sevens, and a bundle written again. -/
theorem bundle_agrees_sevens :
    (0 < ((BundleWriter.init (List.replicate 9 7) 1000 1).addAll [(0, [9])]).1.finalize →
      BundleView.parse (((BundleWriter.init (List.replicate 9 7) 1000 1).addAll [(0, [9])]).1.out.take
        ((BundleWriter.init (List.replicate 9 7) 1000 1).addAll [(0, [9])]).1.finalize) 1 =
        some { tBase := 1000
               tOffs := ((BundleWriter.init (List.replicate 9 7) 1000 1).addAll [(0, [9])]).2.map Prod.fst
               samples := ((BundleWriter.init (List.replicate 9 7) 1000 1).addAll [(0, [9])]).2.map Prod.snd }) ∧
      ((BundleWriter.init (List.replicate 9 7) 1000 1).addSample 3 [9]).2 = BundleWriter.init (List.replicate 9 7) 1000 1 :=
  ⟨((bundle_agrees_iff 1).1 (List.replicate 9 7) 1000 [(0, [9])]).mpr
      (.inr (.inr ⟨(0, [9]), List.mem_singleton_self _, rfl, rfl, by decide⟩)),
    (bundle_agrees_iff 1).2.1 _ 3 [9] (by decide)⟩

end SlopSync
