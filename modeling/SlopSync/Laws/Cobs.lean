import SlopSync.SerialCobs

/-! # COBS is lossless

`cobs` is the encoding without the buffer: the run so far, then the rest of the input.

* `encode_eq` — the back-patching encoder writes it.
* `decode_eq` — the decoder takes it apart.
* `CodeAt` — where the decoder finds its code bytes; `decoded_code` says what they are when it accepts. -/

namespace SlopSync

/-- The encoding of `run` followed by the input; `owed`: an end after no byte still gets a code byte. -/
def cobs (owed : Bool) (run : Bytes) : Bytes → Bytes
  | [] => if owed ∨ run ≠ [] then UInt8.ofNat (run.length + 1) :: run else []
  | b :: src =>
    if b = 0 then UInt8.ofNat (run.length + 1) :: run ++ cobs true [] src
    else if run.length = 253 then 255 :: (run ++ [b]) ++ cobs false [] src
    else cobs owed (run ++ [b]) src

section

variable {owed : Bool} {run src done slack pre : Bytes}

theorem set_after (pre : Bytes) (x b : UInt8) (slack : Bytes) : (pre ++ x :: slack).set pre.length b = pre ++ b :: slack := by
  rw [List.set_append_right _ _ (Nat.le_refl _), Nat.sub_self, List.set_cons_zero]

/-- The code of a run. -/
theorem code_ne_zero {n : Nat} (h : n < 254) : UInt8.ofNat (n + 1) ≠ 0 := by
  intro heq
  have := congrArg UInt8.toNat heq
  rw [UInt8.toNat_ofNat'] at this
  have hzero : (0 : UInt8).toNat = 0 := rfl
  omega

theorem code_toNat {n : Nat} (h : n < 254) : (UInt8.ofNat (n + 1)).toNat = n + 1 := by
  rw [UInt8.toNat_ofNat']
  omega

theorem code_ne_max {n : Nat} (h : n < 254) : UInt8.ofNat (n + 1) ≠ 0xFF := by
  intro heq
  have := congrArg UInt8.toNat heq
  rw [code_toNat h] at this
  have hmax : (0xFF : UInt8).toNat = 255 := rfl
  omega

/-! ## The encoding -/

theorem cobs_ne_nil (run src : Bytes) : cobs true run src ≠ [] := by
  induction src generalizing run with
  | nil => simp [cobs]
  | cons b src ih =>
    unfold cobs
    split
    · simp
    · split
      · simp
      · exact ih _

/-- No byte of it is zero. -/
theorem cobs_no_zero (hrun : ∀ x ∈ run, x ≠ 0) (hlt : run.length < 254) : ∀ x ∈ cobs owed run src, x ≠ 0 := by
  induction src generalizing owed run with
  | nil =>
    intro x hx
    unfold cobs at hx
    split at hx
    · rcases List.mem_cons.mp hx with rfl | hx
      · exact code_ne_zero hlt
      · exact hrun x hx
    · exact absurd hx List.not_mem_nil
  | cons b src ih =>
    intro x hx
    unfold cobs at hx
    split at hx
    · rw [List.cons_append, List.mem_cons, List.mem_append] at hx
      rcases hx with rfl | hx | hx
      · exact code_ne_zero hlt
      · exact hrun x hx
      · exact ih (by simp) (by simp) x hx
    · rename_i hb
      have hrun' : ∀ x ∈ run ++ [b], x ≠ 0 := by
        intro x hx
        rcases List.mem_append.mp hx with hx | hx
        · exact hrun x hx
        · rw [List.mem_singleton.mp hx]
          exact hb
      split at hx
      · rw [List.cons_append, List.mem_cons, List.mem_append] at hx
        rcases hx with rfl | hx | hx
        · decide
        · exact hrun' x hx
        · exact ih (by simp) (by simp) x hx
      · rename_i hfull
        refine ih hrun' ?_ x hx
        rw [List.length_append, List.length_singleton]
        omega

theorem length_cobs (hlt : run.length < 254) :
    (cobs owed run src).length ≤ run.length + src.length + (run.length + src.length) / 254 + 1 := by
  induction src generalizing owed run with
  | nil =>
    unfold cobs
    split <;> simp
  | cons b src ih =>
    unfold cobs
    split
    · have hrest : (cobs true [] src).length ≤ _ := ih (by simp)
      simp only [List.length_nil, Nat.zero_add] at hrest
      simp only [List.cons_append, List.length_cons, List.length_append]
      omega
    · split
      · rename_i hfull
        have hrest : (cobs false [] src).length ≤ _ := ih (by simp)
        simp only [List.length_nil, Nat.zero_add] at hrest
        simp only [List.cons_append, List.length_cons, List.length_append, List.length_nil]
        omega
      · rename_i hfull
        have hrest : (cobs owed (run ++ [b]) src).length ≤ _ :=
          ih (by rw [List.length_append, List.length_singleton]; omega)
        simp only [List.length_append, List.length_cons, List.length_nil] at hrest ⊢
        omega

/-! ## The encoder -/

/-- The encoder with `done` written, a slot, the run so far and room for more. -/
structure Encodes (e : CobsEncoder) (owed : Bool) (done run slack : Bytes) : Prop where
  dst : ∃ x, e.dst = done ++ x :: (run ++ slack)
  writeIndex : e.writeIndex = done.length + 1 + run.length
  codeIndex : e.codeIndex = done.length
  code : e.code = UInt8.ofNat (run.length + 1)
  finalZero : e.finalZero = owed
  short : run.length < 254

namespace Encodes

variable {e : CobsEncoder} {b : UInt8}

theorem length_dst (h : Encodes e owed done run slack) : e.dst.length = done.length + 1 + run.length + slack.length := by
  obtain ⟨x, hx⟩ := h.dst
  rw [hx]
  simp only [List.length_append, List.length_cons]
  omega

/-- The slot of the run is filled in. -/
theorem patch (h : Encodes e owed done run slack) (code : UInt8) :
    e.dst.set e.codeIndex code = done ++ code :: (run ++ slack) := by
  obtain ⟨x, hx⟩ := h.dst
  rw [hx, h.codeIndex, set_after]

/-- A byte goes behind the run. -/
theorem push {x : UInt8} (h : Encodes e owed done run (x :: slack)) (b : UInt8) :
    ∃ y, e.dst.set e.writeIndex b = done ++ y :: ((run ++ [b]) ++ slack) := by
  obtain ⟨y, hy⟩ := h.dst
  refine ⟨y, ?_⟩
  have hsplit : done ++ y :: (run ++ x :: slack) = (done ++ y :: run) ++ x :: slack := by simp
  have hlen : done.length + 1 + run.length = (done ++ y :: run).length := by
    simp only [List.length_append, List.length_cons]
    omega
  rw [hy, h.writeIndex, hsplit, hlen, set_after]
  simp

/-- A zero ends the run; its byte is the next slot. -/
theorem put_zero {x : UInt8} (h : Encodes e owed done run (x :: slack)) :
    ∃ e', e.put 0 = some e' ∧ Encodes e' true (done ++ UInt8.ofNat (run.length + 1) :: run) [] slack := by
  have hlen := h.length_dst
  rw [List.length_cons] at hlen
  refine ⟨{ dst := e.dst.set e.codeIndex e.code, writeIndex := e.writeIndex + 1, codeIndex := e.writeIndex }, ?_, ?_⟩
  · unfold CobsEncoder.put
    rw [if_pos rfl]
    dsimp only
    rw [List.length_set, if_neg (by rw [hlen, h.writeIndex]; omega)]
  · refine ⟨⟨x, ?_⟩, ?_, ?_, rfl, rfl, by simp⟩
    · show e.dst.set e.codeIndex e.code = _
      rw [h.patch, h.code]
      simp
    · show e.writeIndex + 1 = _
      rw [h.writeIndex]
      simp only [List.length_append, List.length_cons, List.length_nil]
      omega
    · show e.writeIndex = _
      rw [h.writeIndex]
      simp only [List.length_append, List.length_cons]
      omega

/-- A byte joins the run. -/
theorem put_byte {x : UInt8} (h : Encodes e owed done run (x :: slack)) (hb : b ≠ 0) (hshort : run.length ≠ 253) :
    ∃ e', e.put b = some e' ∧ Encodes e' owed done (run ++ [b]) slack := by
  have hlen := h.length_dst
  rw [List.length_cons] at hlen
  have hcode : e.code + 1 = UInt8.ofNat ((run ++ [b]).length + 1) := by
    rw [h.code, List.length_append, List.length_singleton]
    exact (UInt8.ofNat_add (run.length + 1) 1).symm
  have hlt : (run ++ [b]).length < 254 := by
    have := h.short
    rw [List.length_append, List.length_singleton]
    omega
  refine ⟨{ e with dst := e.dst.set e.writeIndex b, writeIndex := e.writeIndex + 1, code := e.code + 1 }, ?_, ?_⟩
  · unfold CobsEncoder.put
    rw [if_neg hb, if_neg (by rw [hlen, h.writeIndex]; omega)]
    dsimp only
    rw [if_neg (by rw [hcode]; exact code_ne_max hlt)]
  · refine ⟨h.push b, ?_, h.codeIndex, hcode, h.finalZero, hlt⟩
    show e.writeIndex + 1 = _
    rw [h.writeIndex, List.length_append, List.length_singleton]
    omega

/-- A byte makes the run maximal. -/
theorem put_last {x y : UInt8} (h : Encodes e owed done run (x :: y :: slack)) (hb : b ≠ 0) (hfull : run.length = 253) :
    ∃ e', e.put b = some e' ∧ Encodes e' false (done ++ 255 :: (run ++ [b])) [] slack := by
  have hlen := h.length_dst
  rw [List.length_cons, List.length_cons] at hlen
  have hcode : e.code + 1 = 0xFF := by
    rw [h.code, hfull]
    rfl
  obtain ⟨z, hpush⟩ := h.push b
  refine ⟨{ dst := (e.dst.set e.writeIndex b).set e.codeIndex 0xFF, writeIndex := e.writeIndex + 1 + 1
            codeIndex := e.writeIndex + 1, finalZero := false }, ?_, ?_⟩
  · unfold CobsEncoder.put
    rw [if_neg hb, if_neg (by rw [hlen, h.writeIndex]; omega)]
    dsimp only
    rw [if_pos hcode, List.length_set, List.length_set, if_neg (by rw [hlen, h.writeIndex]; omega), hcode]
  · refine ⟨⟨y, ?_⟩, ?_, ?_, rfl, rfl, by simp⟩
    · show (e.dst.set e.writeIndex b).set e.codeIndex 0xFF = _
      rw [hpush, h.codeIndex, set_after]
      simp
    · show e.writeIndex + 1 + 1 = _
      rw [h.writeIndex]
      simp only [List.length_append, List.length_cons, List.length_nil]
      omega
    · show e.writeIndex + 1 = _
      rw [h.writeIndex]
      simp only [List.length_append, List.length_cons, List.length_nil]
      omega

theorem finish_nil (h : Encodes e owed done run slack) :
    ∃ slack', e.finish = ((done ++ cobs owed run []).length, done ++ cobs owed run [] ++ slack') := by
  have hiff : (e.finalZero || e.code != 1) = true ↔ (owed = true ∨ run ≠ []) := by
    rw [Bool.or_eq_true, h.finalZero, bne_iff_ne, h.code]
    refine or_congr_right ?_
    rw [ne_eq, ne_eq, ← UInt8.toNat_inj, code_toNat h.short, ← List.length_eq_zero_iff]
    have hone : (1 : UInt8).toNat = 1 := rfl
    omega
  unfold CobsEncoder.finish cobs
  by_cases hend : owed = true ∨ run ≠ []
  · refine ⟨slack, ?_⟩
    rw [if_pos (hiff.mpr hend), if_pos hend, h.patch, h.code, h.writeIndex]
    refine Prod.ext ?_ ?_
    · simp only [List.length_append, List.length_cons]
      omega
    · simp
  · obtain ⟨x, hx⟩ := h.dst
    refine ⟨x :: slack, ?_⟩
    have hnil : run = [] := by
      by_contra hne
      exact hend (.inr hne)
    rw [if_neg (mt hiff.mp hend), if_neg hend, h.writeIndex, hx, hnil]
    simp

/-- The encoder writes the encoding. -/
theorem putAll (h : Encodes e owed done run slack) (hroom : src.length + (run.length + src.length) / 254 ≤ slack.length) :
    ∃ e', e.putAll src = some e' ∧
      ∃ slack', e'.finish = ((done ++ cobs owed run src).length, done ++ cobs owed run src ++ slack') := by
  induction src generalizing e owed done run slack with
  | nil => exact ⟨e, rfl, h.finish_nil⟩
  | cons b src ih =>
    rw [List.length_cons] at hroom
    cases slack with
    | nil => simp at hroom
    | cons x slack =>
      rw [List.length_cons] at hroom
      unfold cobs
      by_cases hb : b = 0
      · subst hb
        obtain ⟨e', hput, h'⟩ := h.put_zero
        obtain ⟨e'', hall, slack', hfinish⟩ := ih h' (by simp only [List.length_nil]; omega)
        refine ⟨e'', ?_, slack', ?_⟩
        · rw [CobsEncoder.putAll, hput, Option.bind_some, hall]
        · rw [if_pos rfl, hfinish]
          simp
      · rw [if_neg hb]
        by_cases hfull : run.length = 253
        · cases slack with
          | nil =>
            simp only [List.length_nil] at hroom
            omega
          | cons y slack =>
            rw [List.length_cons] at hroom
            obtain ⟨e', hput, h'⟩ := h.put_last hb hfull
            obtain ⟨e'', hall, slack', hfinish⟩ := ih h' (by simp only [List.length_nil]; omega)
            refine ⟨e'', ?_, slack', ?_⟩
            · rw [CobsEncoder.putAll, hput, Option.bind_some, hall]
            · rw [if_pos hfull, hfinish]
              simp
        · obtain ⟨e', hput, h'⟩ := h.put_byte hb hfull
          obtain ⟨e'', hall, slack', hfinish⟩ := ih h' (by rw [List.length_append, List.length_singleton]; omega)
          refine ⟨e'', ?_, slack', ?_⟩
          · rw [CobsEncoder.putAll, hput, Option.bind_some, hall]
          · rw [if_neg hfull, hfinish]

end Encodes

/-- **The encoder writes the encoding**, into any destination of the documented size. -/
theorem encode_eq {dst : Bytes} (hroom : src.length + src.length / 254 + 1 ≤ dst.length) :
    ∃ slack, cobsEncode src dst = some ((cobs true [] src).length, cobs true [] src ++ slack) := by
  cases dst with
  | nil => simp at hroom
  | cons x slack =>
    have hstart : Encodes (CobsEncoder.mk (x :: slack) 1 0 1 true) true [] [] slack :=
      ⟨⟨x, rfl⟩, rfl, rfl, rfl, rfl, by simp⟩
    rw [List.length_cons] at hroom
    have hfits : src.length + (([] : Bytes).length + src.length) / 254 ≤ slack.length := by
      rw [List.length_nil, Nat.zero_add]
      omega
    obtain ⟨e, hall, slack', hfinish⟩ := hstart.putAll hfits
    refine ⟨slack', ?_⟩
    rw [cobsEncode, if_neg (by simp), hall, Option.map_some, hfinish]
    simp

/-! ## The decoder -/

/-- A run is copied behind what is written. -/
theorem copy_eq (rest : Bytes) : ∀ (run pre slack : Bytes), run.length ≤ slack.length →
    cobsCopy run.length (run ++ rest) pre.length (pre ++ slack) =
      .ok (rest, (pre ++ run).length, pre ++ run ++ slack.drop run.length)
  | [], pre, slack, _ => by simp [cobsCopy]
  | b :: run, pre, slack, hroom => by
    cases slack with
    | nil => simp at hroom
    | cons x slack =>
      have hfits : ¬(pre ++ x :: slack).length ≤ pre.length := by
        simp only [List.length_append, List.length_cons]
        omega
      have hnext := copy_eq rest run (pre ++ [b]) slack (by simpa using hroom)
      rw [List.length_append, List.length_singleton] at hnext
      rw [List.length_cons, List.cons_append, cobsCopy, if_neg hfits, set_after]
      rw [show pre ++ b :: slack = (pre ++ [b]) ++ slack by simp, hnext]
      simp

/-- One run: its bytes are copied, and a code below the maximum stands for a zero if more follows. -/
theorem runs_code {code : UInt8} (fuel : Nat) (rest : Bytes) (hcode : code ≠ 0) (hlen : code.toNat - 1 = run.length)
    (hroom : run.length ≤ slack.length) :
    cobsRuns (fuel + 1) (code :: (run ++ rest)) pre.length (pre ++ slack) =
      if code ≠ 0xFF ∧ rest ≠ [] then
        if (pre ++ slack).length ≤ (pre ++ run).length then .error .capacityExceeded
        else cobsRuns fuel rest ((pre ++ run).length + 1) ((pre ++ run ++ slack.drop run.length).set (pre ++ run).length 0)
      else cobsRuns fuel rest (pre ++ run).length (pre ++ run ++ slack.drop run.length) := by
  have hsame : (pre ++ run ++ slack.drop run.length).length = (pre ++ slack).length := by
    simp only [List.length_append, List.length_drop]
    omega
  rw [cobsRuns, if_neg hcode, hlen, copy_eq rest run pre slack hroom]
  dsimp only
  rw [hsame]

/-- **The decoder takes the encoding apart.** -/
theorem decode_eq (hlt : run.length < 254) {fuel : Nat} (hfuel : (cobs owed run src).length ≤ fuel)
    (hroom : run.length + src.length ≤ slack.length) :
    cobsRuns fuel (cobs owed run src) pre.length (pre ++ slack) =
      .ok ((pre ++ run ++ src).length, pre ++ run ++ src ++ slack.drop (run ++ src).length) := by
  induction src generalizing owed run pre slack fuel with
  | nil =>
    unfold cobs at hfuel ⊢
    by_cases hend : owed = true ∨ run ≠ []
    · rw [if_pos hend] at hfuel ⊢
      obtain ⟨fuel, rfl⟩ := Nat.exists_eq_add_of_le' (show 1 ≤ fuel by rw [List.length_cons] at hfuel; omega)
      have hrun : cobsRuns (fuel + 1) (UInt8.ofNat (run.length + 1) :: (run ++ [])) pre.length (pre ++ slack) = _ :=
        runs_code fuel [] (code_ne_zero hlt) (by rw [code_toNat hlt]; rfl) (Nat.le_trans (Nat.le_add_right _ _) hroom)
      rw [List.append_nil, if_neg (by simp)] at hrun
      rw [hrun]
      cases fuel <;> simp [cobsRuns]
    · rw [if_neg hend]
      have hnil : run = [] := by
        by_contra hne
        exact hend (.inr hne)
      subst hnil
      cases fuel <;> simp [cobsRuns]
  | cons b src ih =>
    rw [List.length_cons] at hroom
    unfold cobs at hfuel ⊢
    by_cases hb : b = 0
    · -- the run is copied, and the zero the code stands for goes behind it
      rw [if_pos hb, List.cons_append] at hfuel ⊢
      obtain ⟨fuel, rfl⟩ := Nat.exists_eq_add_of_le' (show 1 ≤ fuel by rw [List.length_cons] at hfuel; omega)
      have hfits : ¬(pre ++ slack).length ≤ (pre ++ run).length := by
        simp only [List.length_append]
        omega
      rw [runs_code fuel _ (code_ne_zero hlt) (by rw [code_toNat hlt]; rfl) (by omega),
        if_pos ⟨code_ne_max hlt, cobs_ne_nil _ _⟩, if_neg hfits]
      obtain ⟨x, slack', hslack⟩ : ∃ x slack', slack.drop run.length = x :: slack' := by
        cases hdrop : slack.drop run.length with
        | nil =>
          have := List.drop_eq_nil_iff.mp hdrop
          omega
        | cons x slack' => exact ⟨x, slack', rfl⟩
      have hleft : slack'.length + 1 = slack.length - run.length := by
        rw [← List.length_cons, ← hslack, List.length_drop]
      have hnext : cobsRuns fuel (cobs true [] src) (pre ++ run ++ [0]).length (pre ++ run ++ [0] ++ slack') = _ :=
        ih (by simp) (by simp only [List.length_cons, List.length_append] at hfuel; omega) (by rw [List.length_nil]; omega)
      rw [hslack, set_after, show (pre ++ run).length + 1 = (pre ++ run ++ [0]).length by simp [Nat.add_assoc],
        show pre ++ run ++ 0 :: slack' = (pre ++ run ++ [0]) ++ slack' by simp, hnext, hb]
      have hdrop : slack'.drop src.length = slack.drop (run.length + (src.length + 1)) := by
        rw [← List.drop_drop, hslack, List.drop_succ_cons]
      simp [hdrop]
    · rw [if_neg hb] at hfuel ⊢
      by_cases hfull : run.length = 253
      · -- a maximal run stands for its bytes only
        rw [if_pos hfull, List.cons_append] at hfuel ⊢
        obtain ⟨fuel, rfl⟩ := Nat.exists_eq_add_of_le' (show 1 ≤ fuel by rw [List.length_cons] at hfuel; omega)
        have hlen : (run ++ [b]).length = 254 := by rw [List.length_append, List.length_singleton, hfull]
        have hnext : cobsRuns fuel (cobs false [] src) (pre ++ (run ++ [b])).length (pre ++ (run ++ [b]) ++ slack.drop 254) = _ :=
          ih (by simp) (by simp only [List.length_cons, List.length_append] at hfuel; omega)
          (by rw [List.length_nil, List.length_drop]; omega)
        rw [runs_code fuel _ (by decide) (by rw [hlen]; rfl) (by omega), if_neg (by simp), hlen, hnext]
        have hdrop : (slack.drop 254).drop src.length = slack.drop (253 + (src.length + 1)) := by
          rw [List.drop_drop]
          congr 1
          omega
        simp [hdrop, hfull]
      · rw [if_neg hfull] at hfuel ⊢
        rw [ih (by rw [List.length_append, List.length_singleton]; omega) hfuel
          (by rw [List.length_append, List.length_singleton]; omega)]
        simp

end

/-! ## What the decoder accepts -/

/-- The positions at which the decoder reads a code byte. -/
inductive CodeAt (src : Bytes) : Nat → Prop
  | start : CodeAt src 0
  | next {p : Nat} {code : UInt8} (h : CodeAt src p) (hcode : src[p]? = some code) (hne : code ≠ 0) :
      CodeAt src (p + code.toNat)

section

variable {src dst dst' rest : Bytes} {code : UInt8} {fuel writeIndex writeIndex' p : Nat} {r : Nat × Bytes}

theorem copy_ok : ∀ {n : Nat} {src dst : Bytes} {writeIndex : Nat},
    cobsCopy n src writeIndex dst = .ok (rest, writeIndex', dst') →
      n ≤ src.length ∧ rest = src.drop n ∧ writeIndex' = writeIndex + n
  | 0, src, dst, writeIndex, h => by
    rw [cobsCopy] at h
    cases h
    exact ⟨Nat.zero_le _, rfl, rfl⟩
  | _ + 1, [], _, _, h => by cases h
  | n + 1, b :: src, dst, writeIndex, h => by
    rw [cobsCopy] at h
    split at h
    · cases h
    · obtain ⟨hle, hrest, hindex⟩ := copy_ok h
      exact ⟨Nat.succ_le_succ hle, hrest, by omega⟩

/-- What one accepted run says. -/
theorem runs_ok (h : cobsRuns (fuel + 1) (code :: src) writeIndex dst = .ok r) :
    code ≠ 0 ∧ code.toNat - 1 ≤ src.length ∧
      ∃ writeIndex' dst', cobsRuns fuel (src.drop (code.toNat - 1)) writeIndex' dst' = .ok r ∧
        (writeIndex' = writeIndex + (code.toNat - 1) ∨
          src.drop (code.toNat - 1) ≠ [] ∧ writeIndex' = writeIndex + (code.toNat - 1) + 1) := by
  rw [cobsRuns] at h
  split at h
  · cases h
  · rename_i hcode
    cases hcopy : cobsCopy (code.toNat - 1) src writeIndex dst with
    | error e =>
      rw [hcopy] at h
      cases h
    | ok r' =>
      obtain ⟨rest, writeIndex', dst'⟩ := r'
      obtain ⟨hle, rfl, rfl⟩ := copy_ok hcopy
      rw [hcopy] at h
      dsimp only at h
      refine ⟨hcode, hle, ?_⟩
      split at h
      · rename_i hmore
        split at h
        · cases h
        · exact ⟨_, _, h, .inr ⟨hmore.2, rfl⟩⟩
      · exact ⟨_, _, h, .inl rfl⟩

/-- Every run takes one byte more than it writes; the zero a code stands for is paid by the next code. -/
theorem runs_written (hfuel : src.length ≤ fuel) (h : cobsRuns fuel src writeIndex dst = .ok r) :
    r.1 ≤ writeIndex + (src.length - 1) := by
  induction fuel generalizing src writeIndex dst with
  | zero =>
    rw [cobsRuns] at h
    cases h
    exact Nat.le_add_right _ _
  | succ fuel ih =>
    cases src with
    | nil =>
      rw [cobsRuns] at h
      cases h
      exact Nat.le_add_right _ _
    | cons code src =>
      obtain ⟨-, hle, writeIndex', dst', hnext, hindex⟩ := runs_ok h
      rw [List.length_cons] at hfuel ⊢
      have hwritten := ih (by rw [List.length_drop]; omega) hnext
      rw [List.length_drop] at hwritten
      rcases hindex with hindex | ⟨hmore, hindex⟩
      · omega
      · have hpos : 0 < (src.drop (code.toNat - 1)).length := List.length_pos_iff.mpr hmore
        rw [List.length_drop] at hpos
        omega

theorem CodeAt.past (h : CodeAt (code :: src) p) (hcode : code ≠ 0) :
    p = 0 ∨ ∃ q, p = code.toNat + q ∧ CodeAt (src.drop (code.toNat - 1)) q := by
  have hpos : 0 < code.toNat := by
    have := mt UInt8.toNat_inj.mp hcode
    have hzero : (0 : UInt8).toNat = 0 := rfl
    omega
  induction h with
  | start => exact .inl rfl
  | next hat hnext hne ih =>
    refine .inr ?_
    rcases ih with rfl | ⟨q, rfl, hq⟩
    · cases hnext
      exact ⟨0, by omega, .start⟩
    · refine ⟨_, Nat.add_assoc _ _ _, hq.next ?_ hne⟩
      rw [List.getElem?_drop, ← hnext, ← List.getElem?_cons_succ (a := code)]
      congr 1
      omega

/-- At every code position of an input it accepts there is a code, and its run is there. -/
theorem decoded_code (hfuel : src.length ≤ fuel) (h : cobsRuns fuel src writeIndex dst = .ok r) (hat : CodeAt src p)
    (hcode : src[p]? = some code) : code ≠ 0 ∧ p + code.toNat ≤ src.length := by
  induction fuel generalizing src writeIndex dst p with
  | zero =>
    rw [List.length_eq_zero_iff.mp (Nat.le_zero.mp hfuel)] at hcode
    simp at hcode
  | succ fuel ih =>
    cases src with
    | nil => simp at hcode
    | cons first src =>
      obtain ⟨hne, hle, writeIndex', dst', hnext, -⟩ := runs_ok h
      rw [List.length_cons] at hfuel ⊢
      rcases hat.past hne with rfl | ⟨q, rfl, hq⟩
      · cases hcode
        exact ⟨hne, by omega⟩
      · have hpos : 0 < first.toNat := by
          have := mt UInt8.toNat_inj.mp hne
          have hzero : (0 : UInt8).toNat = 0 := rfl
          omega
        have hthere : (src.drop (first.toNat - 1))[q]? = some code := by
          rw [List.getElem?_drop, ← hcode, ← List.getElem?_cons_succ (a := first)]
          congr 1
          omega
        obtain ⟨hok, hend⟩ := ih (by rw [List.length_drop]; omega) hnext hq hthere
        rw [List.length_drop] at hend
        exact ⟨hok, by omega⟩

end

/-- **COBS is lossless**, and the decoder refuses what no encoder wrote: a zero where it reads a code, and a run that the
input does not hold. -/
theorem cobs_lossless :
    (∀ s dst out : Bytes, s.length + s.length / 254 + 1 ≤ dst.length → s.length ≤ out.length →
      ∃ code slack, cobsEncode s dst = some (code.length, code ++ slack) ∧
        1 ≤ code.length ∧ code.length ≤ s.length + s.length / 254 + 1 ∧ (∀ x ∈ code, x ≠ 0) ∧
        cobsDecode code out = .ok (s.length, s ++ out.drop s.length)) ∧
    (∀ (src dst dst' : Bytes) (n : Nat), src ≠ [] → cobsDecode src dst = .ok (n, dst') → n ≤ src.length - 1) ∧
    ∀ (src dst : Bytes) (p : Nat) (code : UInt8), CodeAt src p → src[p]? = some code →
      code = 0 ∨ src.length < p + code.toNat → ∃ e, cobsDecode src dst = .error e := by
  refine ⟨fun s dst out hdst hout => ?_, fun src dst dst' n _ h => ?_, fun src dst p code hat hcode hbad => ?_⟩
  · obtain ⟨slack, hencode⟩ := encode_eq hdst
    have hdecode : cobsRuns (cobs true [] s).length (cobs true [] s) ([] : Bytes).length ([] ++ out) = _ :=
      decode_eq (by simp) (Nat.le_refl _) (by rw [List.length_nil]; omega)
    have hlength : (cobs true [] s).length ≤ _ := length_cobs (by simp)
    rw [List.length_nil, Nat.zero_add] at hlength
    refine ⟨cobs true [] s, slack, hencode, List.length_pos_iff.mpr (cobs_ne_nil _ _), hlength,
      cobs_no_zero (by simp) (by simp), ?_⟩
    simpa [cobsDecode] using hdecode
  · have := runs_written (Nat.le_refl _) h
    omega
  · cases hdecode : cobsDecode src dst with
    | error e => exact ⟨e, rfl⟩
    | ok r =>
      obtain ⟨hne, hend⟩ := decoded_code (Nat.le_refl _) hdecode hat hcode
      rcases hbad with hzero | hlong
      · exact absurd hzero hne
      · omega

/-- A run of one, a zero, a run of one; the zero alone in the next input is no code. -/
theorem cobs_lossless_runs :
    (∃ code slack, cobsEncode [7, 0, 9] [0, 0, 0, 0] = some (code.length, code ++ slack) ∧
        1 ≤ code.length ∧ code.length ≤ 4 ∧ (∀ x ∈ code, x ≠ 0) ∧
        cobsDecode code [1, 1, 1, 1] = .ok (3, [7, 0, 9] ++ [1])) ∧
      4 ≤ ([2, 7, 2, 9, 1] : Bytes).length - 1 ∧ ∃ e, cobsDecode [2, 7, 0] [1, 1, 1] = .error e :=
  ⟨cobs_lossless.1 [7, 0, 9] [0, 0, 0, 0] [1, 1, 1, 1] (by decide) (by decide),
    cobs_lossless.2.1 [2, 7, 2, 9, 1] [1, 1, 1, 1, 1] [7, 0, 9, 0, 1] 4 (by decide) (by decide),
    cobs_lossless.2.2 [2, 7, 0] [1, 1, 1] 2 0 (CodeAt.next .start (show ([2, 7, 0] : Bytes)[0]? = some 2 from rfl) (by decide)) rfl (.inl rfl)⟩

end SlopSync
