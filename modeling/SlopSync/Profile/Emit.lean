import SlopSync.Profile.Tree

/-! # Writing trees

A tree is written by the calls its shape asks for.  A writer with room for the encoding of a tree of the profile appends
it and fills one slot (`emit_done`); a writer that has not failed afterwards had the room, and the tree was one of the
profile (`emit_only`). -/

namespace SlopSync

namespace CborWriter

open CborTree (Ascending encodeItems encodePairs)

/-- `CborWriter::nullVal`. -/
def nullVal (w : CborWriter) : CborWriter := (w.put [UInt8.ofNat ((7 <<< 5) ||| 22)]).consumeOne

mutual

/-- Write a tree. -/
def emit : CborTree → CborWriter → CborWriter
  | .uint n, w => w.uintVal n
  | .negInt n, w => w.intVal (-1 - n)
  | .bytes s, w => w.bstrVal s
  | .text s, w => w.tstrVal s
  | .bool b, w => w.boolVal b
  | .null, w => w.nullVal
  | .f32 bits, w => w.f32Val bits
  | .array ts, w => emitItems ts (w.arrayHeader ts.length)
  | .map ps, w => emitPairs ps (w.mapHeader ps.length)

def emitItems : List CborTree → CborWriter → CborWriter
  | [], w => w
  | t :: ts, w => emitItems ts (emit t w)

def emitPairs : List (Nat × CborTree) → CborWriter → CborWriter
  | [], w => w
  | (k, t) :: ps, w => emitPairs ps (emit t (w.key k))

end

@[simp] theorem emitItems_nil (w : CborWriter) : emitItems [] w = w := rfl

@[simp] theorem emitItems_cons (t : CborTree) (ts : List CborTree) (w : CborWriter) :
    emitItems (t :: ts) w = emitItems ts (emit t w) := rfl

@[simp] theorem emitPairs_nil (w : CborWriter) : emitPairs [] w = w := rfl

@[simp] theorem emitPairs_cons (p : Nat × CborTree) (ps : List (Nat × CborTree)) (w : CborWriter) :
    emitPairs (p :: ps) w = emitPairs ps (emit p.2 (w.key p.1)) := rfl

/-- Writing two lists of pairs is writing the one and then the other. -/
theorem emitPairs_append (ps qs : List (Nat × CborTree)) (w : CborWriter) :
    emitPairs (ps ++ qs) w = emitPairs qs (emitPairs ps w) := by
  induction ps generalizing w with
  | nil => rfl
  | cons p ps ih => exact ih (emit p.2 (w.key p.1))

/-! ## Failures stay -/

/-- A writer that has not failed after a put had not failed before it. -/
theorem put_failed {w : CborWriter} {bs : Bytes} (h : (w.put bs).failed = false) : w.failed = false := by
  unfold put at h
  split_ifs at h with hw
  · exact h
  · simpa using hw

/-- A writer that has not failed after a string had not failed before it. -/
theorem strVal_failed {w : CborWriter} {m : Nat} {s : Bytes} (h : (w.strVal m s).failed = false) : w.failed = false := by
  unfold strVal at h
  dsimp only at h
  split_ifs at h with hw
  · exact put_failed (put_failed h)
  · exact put_failed (put_failed h)

/-- A writer that has not failed after opening a container had not failed before. -/
theorem openContainer_failed {w : CborWriter} {b : Bool} {n : Nat} (h : (w.openContainer b n).failed = false) :
    w.failed = false := by
  unfold openContainer at h
  split_ifs at h with hw
  · exact h
  all_goals simpa using hw

/-- A writer that has not failed after a key had not failed before it. -/
theorem key_failed {w : CborWriter} {k : Nat} (h : (w.key k).failed = false) : w.failed = false := by
  by_contra hw
  unfold key at h
  rw [if_pos (by simpa using hw)] at h
  exact hw h

mutual

/-- A writer that has not failed after a tree had not failed before it. -/
theorem emit_failed : ∀ {t : CborTree} {w : CborWriter}, (emit t w).failed = false → w.failed = false
  | .uint _, _, h => put_failed h
  | .negInt n, w, h => by
    rw [emit, intVal, if_neg (by omega)] at h
    exact put_failed h
  | .bytes _, _, h => strVal_failed h
  | .text _, _, h => strVal_failed h
  | .bool _, _, h => put_failed h
  | .null, _, h => put_failed h
  | .f32 _, w, h => by
    rw [emit] at h
    unfold f32Val at h
    dsimp only at h
    split_ifs at h
    · exact put_failed h
    · exact put_failed h
  | .array _, _, h => openContainer_failed (put_failed (emitItems_failed h))
  | .map _, _, h => openContainer_failed (put_failed (emitPairs_failed h))

/-- A writer that has not failed after a list of items had not failed before it. -/
theorem emitItems_failed : ∀ {ts : List CborTree} {w : CborWriter}, (emitItems ts w).failed = false → w.failed = false
  | [], _, h => h
  | _ :: _, _, h => emit_failed (emitItems_failed h)

/-- A writer that has not failed after a list of pairs had not failed before it. -/
theorem emitPairs_failed : ∀ {ps : List (Nat × CborTree)} {w : CborWriter}, (emitPairs ps w).failed = false →
    w.failed = false
  | [], _, h => h
  | (_, _) :: _, _, h => key_failed (emit_failed (emitPairs_failed h))

end

/-! ## What fits is written -/

/-- The writer after these bytes. -/
def wrote (w : CborWriter) (bs : Bytes) (s : List CborFrame) : CborWriter :=
  { cap := w.cap, out := w.out ++ bs, failed := false, stack := s }

@[simp] theorem wrote_cap (w : CborWriter) (bs : Bytes) (s : List CborFrame) : (w.wrote bs s).cap = w.cap := rfl
@[simp] theorem wrote_out (w : CborWriter) (bs : Bytes) (s : List CborFrame) : (w.wrote bs s).out = w.out ++ bs := rfl
@[simp] theorem wrote_failed (w : CborWriter) (bs : Bytes) (s : List CborFrame) : (w.wrote bs s).failed = false := rfl
@[simp] theorem wrote_stack (w : CborWriter) (bs : Bytes) (s : List CborFrame) : (w.wrote bs s).stack = s := rfl

/-- Two writes are one. -/
@[simp] theorem wrote_wrote (w : CborWriter) (bs cs : Bytes) (s s' : List CborFrame) :
    (w.wrote bs s).wrote cs s' = w.wrote (bs ++ cs) s' := by
  simp [wrote]

/-- The writer has not failed, and has room for these bytes. -/
structure Room (w : CborWriter) (bs : Bytes) : Prop where
  ok : w.failed = false
  room : w.out.length + bs.length ≤ w.cap

/-- Room for two writes is room for the first. -/
theorem Room.left {w : CborWriter} {bs cs : Bytes} (h : w.Room (bs ++ cs)) : w.Room bs := by
  have hr := h.room
  rw [List.length_append] at hr
  exact ⟨h.ok, by omega⟩

/-- Room for two writes is room for the second after the first. -/
theorem Room.right {w : CborWriter} {bs cs : Bytes} {s : List CborFrame} (h : w.Room (bs ++ cs)) :
    (w.wrote bs s).Room cs := by
  have hr := h.room
  rw [List.length_append] at hr
  exact ⟨rfl, by simp only [wrote_out, wrote_cap, List.length_append]; omega⟩

theorem Room.within {w : CborWriter} {bs : Bytes} {s : List CborFrame} (h : w.Room bs) : (w.wrote [] s).Room bs :=
  ⟨rfl, by simpa using h.room⟩

/-- Room for each in turn is room for both. -/
theorem Room.append {w : CborWriter} {bs cs : Bytes} {s : List CborFrame} (h : w.Room bs) (h' : (w.wrote bs s).Room cs) :
    w.Room (bs ++ cs) := by
  have hr := h'.room
  simp only [wrote_out, wrote_cap, List.length_append] at hr
  exact ⟨h.ok, by rw [List.length_append]; omega⟩

section Write

variable {w : CborWriter} {bs : Bytes}

/-- Where there is room a put writes its bytes. -/
theorem put_wrote (h : w.Room bs) : w.put bs = w.wrote bs w.stack := by
  unfold put
  rw [if_neg (by simp [h.ok]), if_neg (Nat.not_lt.mpr h.room)]
  simp [wrote, h.ok]

/-- A put that is written had room. -/
theorem put_room (h : (w.put bs).failed = false) : w.Room bs := by
  refine ⟨put_failed h, ?_⟩
  unfold put at h
  rw [if_neg (by simp [put_failed h])] at h
  split_ifs at h with hroom
  exact Nat.le_of_not_lt hroom

/-- Bytes that fill a slot. -/
theorem item_wrote (h : w.Room bs) : (w.put bs).consumeOne = w.wrote bs (consume w.stack) := by
  rw [put_wrote h]
  rfl

/-- Where there is room a float is written, and counted in its container. -/
theorem f32Val_wrote {bits : UInt32} (h : w.Room (0xFA :: bigEndian 4 bits.toNat)) :
    w.f32Val bits = w.wrote (0xFA :: bigEndian 4 bits.toNat) (consume w.stack) := by
  unfold f32Val
  rw [put_wrote h]
  rfl

/-- Where there is room a string is written, and counted in its container. -/
theorem strVal_wrote {m : Nat} {s : Bytes} (h : w.Room (head m s.length ++ s)) :
    w.strVal m s = w.wrote (head m s.length ++ s) (consume w.stack) := by
  unfold strVal writeHead
  rw [put_wrote h.left, put_wrote (Room.right h)]
  simp [consumeOne, wrote]

/-- A string that is written had room. -/
theorem strVal_room {m : Nat} {s : Bytes} (h : (w.strVal m s).failed = false) : w.Room (head m s.length ++ s) := by
  unfold strVal writeHead at h
  dsimp only at h
  have hput : ((w.put (head m s.length)).put s).failed = false := by
    split_ifs at h with hw
    · exact h
    · exact h
  have hhead := put_room (put_failed hput)
  rw [put_wrote hhead] at hput
  exact hhead.append (put_room hput)

/-- A container with the given slots left is open, or was closed at once. -/
theorem openContainer_wrote {b : Bool} {n : Nat} (hok : w.failed = false) (hs : w.stack.length < kMaxDepth) :
    w.openContainer b n = w.wrote [] (opened ⟨b, n, none⟩ w.stack) := by
  unfold openContainer opened
  rw [if_neg (by simp [hok]), if_neg (by omega)]
  split_ifs <;> simp [wrote, hok]

/-- An array is opened where there is room and depth. -/
theorem arrayHeader_wrote {n : Nat} (h : w.Room (head 4 n)) (hs : w.stack.length < kMaxDepth) :
    w.arrayHeader n = w.wrote (head 4 n) (opened ⟨false, n, none⟩ w.stack) := by
  unfold arrayHeader writeHead
  rw [openContainer_wrote h.ok hs, put_wrote h.within]
  simp

/-- A map is opened where there is room and depth, with two slots to a pair. -/
theorem mapHeader_wrote {n : Nat} (h : w.Room (head 5 n)) (hs : w.stack.length < kMaxDepth) :
    w.mapHeader n = w.wrote (head 5 n) (opened ⟨true, slotsOf true n, none⟩ w.stack) := by
  unfold mapHeader writeHead
  rw [openContainer_wrote h.ok hs, put_wrote h.within]
  simp [slotsOf]

/-- A container that is opened had both. -/
theorem openContainer_room {b : Bool} {m n k : Nat} (h : ((w.openContainer b n).writeHead m k).failed = false) :
    w.stack.length < kMaxDepth ∧ w.Room (head m k) := by
  have hopen := put_failed h
  have hok := openContainer_failed hopen
  have hs : w.stack.length < kMaxDepth := by
    unfold openContainer at hopen
    rw [if_neg (by simp [hok])] at hopen
    split_ifs at hopen <;> omega
  rw [openContainer_wrote hok hs] at h
  have hroom := (put_room h).room
  exact ⟨hs, hok, by simpa using hroom⟩

/-- A key above the last one of the map that is open. -/
theorem key_wrote {n k : Nat} {last : Option Nat} {s : List CborFrame} (h : w.Room (head 0 k))
    (hs : w.stack = opened ⟨true, slotsOf true (n + 1), last⟩ s) (hlast : ∀ l ∈ last, l < k) :
    w.key k = w.wrote (head 0 k) (⟨true, slotsOf true n + 1, some k⟩ :: s) := by
  have hany : last.any (fun l => decide (k ≤ l)) = false := by
    cases last with
    | none => rfl
    | some l => simpa using hlast l rfl
  rw [opened_map] at hs
  unfold key
  rw [if_neg (by simp [h.ok]), hs]
  simp only [Bool.not_true, Bool.false_eq_true, if_false, hany]
  have hkey : CborWriter.Room { w with stack := ⟨true, slotsOf true (n + 1), some k⟩ :: s } (head 0 k) := ⟨h.ok, h.room⟩
  rw [writeHead, item_wrote hkey, consume_key]
  rfl

/-- A key that is written had room and ascended. -/
theorem key_room {n k : Nat} {last : Option Nat} {s : List CborFrame} (h : (w.key k).failed = false)
    (hs : w.stack = opened ⟨true, slotsOf true (n + 1), last⟩ s) : w.Room (head 0 k) ∧ ∀ l ∈ last, l < k := by
  have hok := key_failed h
  rw [opened_map] at hs
  unfold key at h
  rw [if_neg (by simp [hok]), hs] at h
  simp only [Bool.not_true, Bool.false_eq_true, if_false] at h
  split_ifs at h with hany
  refine ⟨⟨hok, (put_room h).room⟩, ?_⟩
  intro l hl
  obtain rfl := Option.mem_def.mp hl
  simpa using hany

end Write

mutual

/-- **A tree of the profile is written where there is room for it.** -/
theorem emit_done : ∀ {t : CborTree} {w : CborWriter}, w.Room t.encode → w.stack.length ≤ kMaxDepth →
    CborTree.Fits (kMaxDepth - w.stack.length) t → emit t w = w.wrote t.encode (consume w.stack)
  | .uint _, _, h, _, _ => item_wrote h
  | .negInt n, w, h, _, _ => by
    rw [emit, intVal, if_neg (by omega), show (-1 - (-1 - (n : Int))).toNat = n by omega]
    exact item_wrote h
  | .bytes _, _, h, _, _ => strVal_wrote h
  | .text _, _, h, _, _ => strVal_wrote h
  | .bool _, _, h, _, _ => item_wrote h
  | .null, _, h, _, _ => item_wrote h
  | .f32 _, _, h, _, _ => f32Val_wrote h
  | .array ts, w, h, hs, hfits => by
    generalize hd : kMaxDepth - w.stack.length = d at hfits
    cases hfits with
    | @array d _ hn hts =>
      have hs' : w.stack.length < kMaxDepth := by omega
      have hitems := emitItems_done (w := w.wrote (head 4 ts.length) (opened ⟨false, ts.length, none⟩ w.stack))
        (Room.right h) rfl hs' (by rwa [show kMaxDepth - (w.stack.length + 1) = d by omega])
      rw [emit, arrayHeader_wrote (Room.left h) hs', hitems]
      simp [CborTree.encode]
  | .map ps, w, h, hs, hfits => by
    generalize hd : kMaxDepth - w.stack.length = d at hfits
    cases hfits with
    | @map d _ hn hasc hk hps =>
      have hs' : w.stack.length < kMaxDepth := by omega
      have hpairs := emitPairs_done
        (w := w.wrote (head 5 ps.length) (opened ⟨true, slotsOf true ps.length, none⟩ w.stack)) (Room.right h) rfl hs'
        hasc (by simp) (by rwa [show kMaxDepth - (w.stack.length + 1) = d by omega])
      rw [emit, mapHeader_wrote (Room.left h) hs', hpairs]
      simp [CborTree.encode]

/-- The items of an array, by induction on them: each is written and counted. -/
theorem emitItems_done : ∀ {ts : List CborTree} {w : CborWriter} {s : List CborFrame}, w.Room (encodeItems ts) →
    w.stack = opened ⟨false, ts.length, none⟩ s → s.length < kMaxDepth →
    (∀ t ∈ ts, CborTree.Fits (kMaxDepth - (s.length + 1)) t) → emitItems ts w = w.wrote (encodeItems ts) (consume s)
  | [], w, s, h, hs, _, _ => by
    obtain ⟨cap, out, failed, stack⟩ := w
    obtain rfl : failed = false := h.ok
    obtain rfl : stack = consume s := hs
    simp [wrote]
  | t :: ts, w, s, h, hs, hlt, hts => by
    obtain ⟨ht, hts⟩ := List.forall_mem_cons.mp hts
    have hframe : w.stack = ⟨false, ts.length + 1, none⟩ :: s := hs
    have hdone := emit_done (w := w) (Room.left h) (by rw [hframe]; exact hlt) (by rw [hframe]; exact ht)
    rw [emitItems_cons, hdone, emitItems_done (s := s) (Room.right h) (by
      rw [wrote_stack, hframe, consume_cons (Nat.succ_pos _)]
      rfl) hlt hts]
    simp

/-- The pairs of a map, by induction on them: keys ascending, each value counted. -/
theorem emitPairs_done : ∀ {ps : List (Nat × CborTree)} {w : CborWriter} {s : List CborFrame} {o : Option Nat},
    w.Room (encodePairs ps) → w.stack = opened ⟨true, slotsOf true ps.length, o⟩ s → s.length < kMaxDepth →
    Ascending ps → (∀ l ∈ o, ∀ p ∈ ps, l < p.1) → (∀ p ∈ ps, CborTree.Fits (kMaxDepth - (s.length + 1)) p.2) →
    emitPairs ps w = w.wrote (encodePairs ps) (consume s)
  | [], w, s, o, h, hs, _, _, _, _ => by
    obtain ⟨cap, out, failed, stack⟩ := w
    obtain rfl : failed = false := h.ok
    obtain rfl : stack = consume s := hs
    simp [wrote]
  | (k, t) :: ps, w, s, o, h, hs, hlt, hasc, hlast, hps => by
    obtain ⟨ht, hps⟩ := List.forall_mem_cons.mp hps
    obtain ⟨hfirst, hasc⟩ := List.pairwise_cons.mp hasc
    have hkey := key_wrote (Room.left h) hs fun l hl => hlast l hl (k, t) (List.mem_cons_self ..)
    have hdone := emit_done (w := w.wrote (head 0 k) (⟨true, slotsOf true ps.length + 1, some k⟩ :: s))
      (Room.left (Room.right h)) hlt ht
    have hrest := emitPairs_done
      (w := (w.wrote (head 0 k) (⟨true, slotsOf true ps.length + 1, some k⟩ :: s)).wrote t.encode
        (consume (⟨true, slotsOf true ps.length + 1, some k⟩ :: s)))
      (o := some k) (Room.right (Room.right h)) (consume_cons (Nat.succ_pos _)) hlt hasc (by
        intro l hl p hp
        obtain rfl := Option.some.inj (Option.mem_def.mp hl)
        exact hfirst _ (List.mem_map_of_mem hp)) hps
    rw [wrote_stack] at hdone
    rw [emitPairs_cons, hkey, hdone, hrest]
    simp

end

/-! ## Only what fits is written -/

/-- Integers, keys and counts are those of the calls. -/
inductive Typed : CborTree → Prop
  | uint {n : Nat} (h : n < 2 ^ 64) : Typed (.uint n)
  | negInt {n : Nat} (h : n < 2 ^ 64) : Typed (.negInt n)
  | bytes (s : Bytes) : Typed (.bytes s)
  | text (s : Bytes) : Typed (.text s)
  | bool (b : Bool) : Typed (.bool b)
  | null : Typed .null
  | f32 (bits : UInt32) : Typed (.f32 bits)
  | array {ts : List CborTree} (hn : ts.length < 2 ^ 32) (h : ∀ t ∈ ts, Typed t) : Typed (.array ts)
  | map {ps : List (Nat × CborTree)} (hn : ps.length < 2 ^ 32) (hk : ∀ p ∈ ps, p.1 < 2 ^ 64)
      (h : ∀ p ∈ ps, Typed p.2) : Typed (.map ps)

/-- What is written stays inside the buffer. -/
theorem Room.out_le {w : CborWriter} {bs : Bytes} {s : List CborFrame} (h : w.Room bs) :
    (w.wrote bs s).out.length ≤ (w.wrote bs s).cap := by
  have hr := h.room
  simpa [List.length_append] using hr

/-- So no string written is longer than the buffer. -/
theorem Room.length_lt {w : CborWriter} {m : Nat} {s : Bytes} (h : w.Room (head m s.length ++ s))
    (hcap : w.cap < 2 ^ 64) : s.length < 2 ^ 64 := by
  have hr := h.room
  rw [List.length_append] at hr
  omega

mutual

/-- **What a writer wrote was a tree of the profile, and there was room.** -/
theorem emit_only : ∀ {t : CborTree} {w : CborWriter}, Typed t → w.cap < 2 ^ 64 → w.stack.length ≤ kMaxDepth →
    (emit t w).failed = false → CborTree.Fits (kMaxDepth - w.stack.length) t ∧ w.Room t.encode
  | .uint _, _, ht, _, _, h => by
    cases ht with
    | uint hn => exact ⟨.uint hn, put_room h⟩
  | .negInt n, w, ht, _, _, h => by
    rw [emit, intVal, if_neg (by omega), show (-1 - (-1 - (n : Int))).toNat = n by omega] at h
    cases ht with
    | negInt hn => exact ⟨.negInt hn, put_room h⟩
  | .bytes _, _, _, hcap, _, h => ⟨.bytes ((strVal_room h).length_lt hcap), strVal_room h⟩
  | .text _, _, _, hcap, _, h => ⟨.text ((strVal_room h).length_lt hcap), strVal_room h⟩
  | .bool b, _, _, _, _, h => ⟨.bool b, put_room h⟩
  | .null, _, _, _, _, h => ⟨.null, put_room h⟩
  | .f32 bits, w, _, _, _, h => by
    refine ⟨.f32 bits, put_room ?_⟩
    rw [emit] at h
    unfold f32Val at h
    dsimp only at h
    split_ifs at h
    · exact h
    · exact h
  | .array ts, w, ht, hcap, _, h => by
    cases ht with
    | array hn hts =>
      rw [emit] at h
      obtain ⟨hs, hhead⟩ := openContainer_room (emitItems_failed h)
      rw [arrayHeader_wrote hhead hs] at h
      obtain ⟨hfits, hroom⟩ := emitItems_only (w := w.wrote (head 4 ts.length) (opened ⟨false, ts.length, none⟩ w.stack))
        hts hcap hhead.out_le rfl hs h
      obtain ⟨d, hd⟩ : ∃ d, kMaxDepth - w.stack.length = d + 1 := ⟨kMaxDepth - w.stack.length - 1, by omega⟩
      rw [hd]
      exact ⟨.array hn (by rwa [show kMaxDepth - (w.stack.length + 1) = d by omega] at hfits), hhead.append hroom⟩
  | .map ps, w, ht, hcap, _, h => by
    cases ht with
    | map hn hk hps =>
      rw [emit] at h
      obtain ⟨hs, hhead⟩ := openContainer_room (emitPairs_failed h)
      rw [mapHeader_wrote hhead hs] at h
      obtain ⟨hasc, -, hfits, hroom⟩ := emitPairs_only
        (w := w.wrote (head 5 ps.length) (opened ⟨true, slotsOf true ps.length, none⟩ w.stack)) hps hcap hhead.out_le rfl hs h
      obtain ⟨d, hd⟩ : ∃ d, kMaxDepth - w.stack.length = d + 1 := ⟨kMaxDepth - w.stack.length - 1, by omega⟩
      rw [hd]
      exact ⟨.map hn hasc hk (by rwa [show kMaxDepth - (w.stack.length + 1) = d by omega] at hfits),
        hhead.append hroom⟩

/-- Items that were written fit, each within the depth and the sizes of the profile. -/
theorem emitItems_only : ∀ {ts : List CborTree} {w : CborWriter} {s : List CborFrame}, (∀ t ∈ ts, Typed t) →
    w.cap < 2 ^ 64 → w.out.length ≤ w.cap → w.stack = opened ⟨false, ts.length, none⟩ s → s.length < kMaxDepth →
    (emitItems ts w).failed = false →
    (∀ t ∈ ts, CborTree.Fits (kMaxDepth - (s.length + 1)) t) ∧ w.Room (encodeItems ts)
  | [], _, _, _, _, hout, _, _, h => ⟨by simp, h, hout⟩
  | t :: ts, w, s, htyped, hcap, hout, hs, hlt, h => by
    obtain ⟨ht, hts⟩ := List.forall_mem_cons.mp htyped
    have hframe : w.stack = ⟨false, ts.length + 1, none⟩ :: s := hs
    rw [emitItems_cons] at h
    obtain ⟨hfits, hroom⟩ := emit_only ht hcap (by rw [hframe]; exact hlt) (emitItems_failed h)
    have hdone := emit_done hroom (by rw [hframe]; exact hlt) hfits
    rw [hdone] at h
    rw [hframe] at hfits
    obtain ⟨hfits', hroom'⟩ := emitItems_only (w := w.wrote t.encode (consume w.stack)) (s := s) hts hcap hroom.out_le (by
      rw [wrote_stack, hframe]
      exact consume_cons (Nat.succ_pos _)) hlt h
    exact ⟨List.forall_mem_cons.mpr ⟨hfits, hfits'⟩, hroom.append hroom'⟩

/-- Pairs that were written fit, each within the depth and the sizes of the profile. -/
theorem emitPairs_only : ∀ {ps : List (Nat × CborTree)} {w : CborWriter} {s : List CborFrame} {o : Option Nat},
    (∀ p ∈ ps, Typed p.2) → w.cap < 2 ^ 64 → w.out.length ≤ w.cap →
    w.stack = opened ⟨true, slotsOf true ps.length, o⟩ s → s.length < kMaxDepth → (emitPairs ps w).failed = false →
    Ascending ps ∧ (∀ l ∈ o, ∀ p ∈ ps, l < p.1) ∧ (∀ p ∈ ps, CborTree.Fits (kMaxDepth - (s.length + 1)) p.2) ∧
      w.Room (encodePairs ps)
  | [], _, _, _, _, _, hout, _, _, h => ⟨List.Pairwise.nil, by simp, by simp, h, hout⟩
  | (k, t) :: ps, w, s, o, htyped, hcap, hout, hs, hlt, h => by
    obtain ⟨ht, hps⟩ := List.forall_mem_cons.mp htyped
    rw [emitPairs_cons] at h
    obtain ⟨hkroom, hlast⟩ := key_room (emit_failed (emitPairs_failed h)) hs
    rw [key_wrote hkroom hs hlast] at h
    obtain ⟨hfits, hroom⟩ := emit_only (w := w.wrote (head 0 k) (⟨true, slotsOf true ps.length + 1, some k⟩ :: s)) ht
      hcap hlt (emitPairs_failed h)
    rw [emit_done hroom hlt hfits] at h
    obtain ⟨hasc, habove, hfits', hroom'⟩ := emitPairs_only
      (w := (w.wrote (head 0 k) (⟨true, slotsOf true ps.length + 1, some k⟩ :: s)).wrote t.encode
        (consume (⟨true, slotsOf true ps.length + 1, some k⟩ :: s)))
      (o := some k) hps hcap hroom.out_le (consume_cons (Nat.succ_pos _)) hlt h
    have habove := habove k rfl
    refine ⟨List.pairwise_cons.mpr ⟨?_, hasc⟩, ?_, List.forall_mem_cons.mpr ⟨hfits, hfits'⟩,
      hkroom.append (hroom.append hroom')⟩
    · intro x hx
      obtain ⟨y, hy, rfl⟩ := List.mem_map.mp hx
      exact habove y hy
    · intro l hl
      exact List.forall_mem_cons.mpr ⟨hlast l hl, fun x hx => (hlast l hl).trans (habove x hx)⟩

end

/-- A new writer reports the encoding of a tree that fits. -/
theorem emit_result {t : CborTree} {cap : Nat} (ht : CborTree.Fits kMaxDepth t) (hcap : t.encode.length ≤ cap) :
    (emit t { cap }).result = some t.encode := by
  have hroom : CborWriter.Room { cap } t.encode := ⟨rfl, by simpa using hcap⟩
  rw [emit_done hroom (Nat.zero_le _) ht]
  simp [result, wrote]

/-- What a new writer reports is the encoding of the tree. -/
theorem result_emit {t : CborTree} {cap : Nat} {bs : Bytes} (ht : Typed t) (hcap : cap < 2 ^ 64)
    (h : (emit t { cap }).result = some bs) :
    bs = t.encode ∧ CborTree.Fits kMaxDepth t ∧ t.encode.length ≤ cap := by
  have hok : (emit t { cap }).failed = false := by
    by_contra hfail
    rw [result, if_pos (by simpa using hfail)] at h
    cases h
  obtain ⟨hfits, hroom⟩ := emit_only ht hcap (Nat.zero_le _) hok
  have hlen := hroom.room
  rw [emit_done hroom (Nat.zero_le _) hfits] at h
  refine ⟨?_, hfits, by simpa using hlen⟩
  simpa [result, wrote, eq_comm] using h

end CborWriter

end SlopSync
