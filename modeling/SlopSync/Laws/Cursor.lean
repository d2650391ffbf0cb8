import SlopSync.CborCursor

/-! # The CBOR cursor is safe

* `Safe` — the cursor is in its input, at most four frames are open, and each waits for something.
* `Passed` — what any call makes of a safe cursor.
* `skipWithin_spec` — a skip fills one slot; by induction on the calls it may have open, and on the elements of a container.
* The `shown_` lemmas — each read shows what the read of `CborReader` returns. -/

namespace SlopSync.CborCursor

open CborReader (MajorType Head SimpleHead SimpleKind)

/-! ## Frames -/

/-- Every open frame waits for something. -/
def Waiting (fs : List CborFrame) : Prop := ∀ f ∈ fs, 0 < f.remaining

section

variable {f : CborFrame} {fs : List CborFrame}

/-- A container that has just got its last item is closed with its parents. -/
theorem afterConsume_eq (f : CborFrame) (fs : List CborFrame) :
    afterConsume f fs = if f.remaining = 0 then consumeOne fs else f :: fs := by
  cases fs <;> rfl

/-- One item less in the innermost container; a container with none left is closed. -/
theorem consumeOne_cons (f : CborFrame) (fs : List CborFrame) :
    consumeOne (f :: fs) =
      if f.remaining ≤ 1 then consumeOne fs else { f with remaining := f.remaining - 1 } :: fs := by
  rw [consumeOne, afterConsume_eq]
  by_cases h : f.remaining ≤ 1
  · rw [if_pos h, if_pos (by dsimp only; omega)]
  · rw [if_neg h, if_neg (by dsimp only; omega)]

/-- Every container still open waits for an item. -/
theorem waiting_consumeOne (h : Waiting fs) : Waiting (consumeOne fs) ∧ (consumeOne fs).length ≤ fs.length := by
  induction fs with
  | nil => exact ⟨h, Nat.le_refl _⟩
  | cons f fs ih =>
    obtain ⟨hf, hfs⟩ := List.forall_mem_cons.mp h
    obtain ⟨hw, hlen⟩ := ih hfs
    rw [consumeOne_cons]
    split
    · exact ⟨hw, Nat.le_succ_of_le hlen⟩
    · exact ⟨List.forall_mem_cons.mpr ⟨by dsimp only; omega, hfs⟩, Nat.le_refl _⟩

end

/-! ## Safe cursors -/

structure Safe (c : CborCursor) : Prop where
  pos : c.pos ≤ c.input.length
  depth : c.stack.length ≤ CborWriter.kMaxDepth
  waiting : Waiting c.stack

/-- From a safe cursor to a safe one further on. -/
structure Passed (c c' : CborCursor) : Prop where
  input : c'.input = c.input
  pos : c.pos ≤ c'.pos
  safe : Safe c'

theorem Passed.refl {c : CborCursor} (h : Safe c) : Passed c c := ⟨rfl, Nat.le_refl _, h⟩

theorem Passed.trans {c c' c'' : CborCursor} (h : Passed c c') (h' : Passed c' c'') : Passed c c'' :=
  ⟨h'.input.trans h.input, h.pos.trans h'.pos, h'.safe⟩

section

variable {c : CborCursor} {h : Head} {s : SimpleHead} {n : Nat}

/-- A head that parses lies inside the input. -/
theorem parseHeadRaw_fits (hp : c.parseHeadRaw = .ok h) : c.pos + h.totalBytes ≤ c.input.length := by
  unfold parseHeadRaw reader CborReader.parseHeadRaw at hp
  dsimp only at hp
  cases hrest : c.input.drop c.pos with
  | nil =>
    rw [hrest] at hp
    cases hp
  | cons ib more =>
    have hlen := congrArg List.length hrest
    rw [List.length_drop, List.length_cons] at hlen
    rw [hrest] at hp
    dsimp only at hp
    split at hp
    · cases hp
    split at hp
    · cases hp
    split at hp
    · cases hp
      dsimp only
      omega
    split at hp
    · cases hp
    split at hp
    · cases hp
    split at hp
    · cases hp
    · cases hp
      dsimp only
      omega

/-- A simple value that parses lies inside the input. -/
theorem parseSimpleRaw_fits (hp : c.parseSimpleRaw = .ok s) : c.pos + s.totalBytes ≤ c.input.length := by
  unfold parseSimpleRaw reader CborReader.parseSimpleRaw at hp
  dsimp only at hp
  cases hrest : c.input.drop c.pos with
  | nil =>
    rw [hrest] at hp
    cases hp
  | cons ib more =>
    have hlen := congrArg List.length hrest
    rw [List.length_drop, List.length_cons] at hlen
    rw [hrest] at hp
    dsimp only at hp
    split at hp
    · cases hp
    split at hp
    · cases hp
      dsimp only
      omega
    · cases hp
      dsimp only
      omega
    · cases hp
      dsimp only
      omega
    · split at hp
      · cases hp
      · cases hp
        dsimp only
        omega
    all_goals cases hp

/-- Consuming within the input keeps the cursor safe. -/
theorem passed_consume (hs : Safe c) (hn : c.pos + n ≤ c.input.length) : Passed c (c.consume n) := by
  obtain ⟨hwaiting, hlen⟩ := waiting_consumeOne hs.waiting
  exact ⟨rfl, Nat.le_add_right _ _, hn, hlen.trans hs.depth, hwaiting⟩

/-! ## Reads -/

/-- What a read does that fails without a trace: it fails and leaves the cursor, or it passes one item. -/
def Reads {α : Type} (c : CborCursor) (r : Except DecodeError α × CborCursor) : Prop :=
  (∃ e, r = (.error e, c)) ∨ ∃ v c', r = (.ok v, c') ∧ Passed c c' ∧ c'.stack = consumeOne c.stack

/-- A read decided by its head is safe. -/
theorem reads_head {α : Type} (f : Head → Option α) (hs : Safe c) : Reads c (readHead f c) := by
  unfold readHead
  cases hp : c.parseHeadRaw with
  | error e => exact .inl ⟨e, rfl⟩
  | ok h =>
    dsimp only
    cases f h with
    | none => exact .inl ⟨_, rfl⟩
    | some v => exact .inr ⟨v, _, rfl, passed_consume hs (parseHeadRaw_fits hp), rfl⟩

/-- A read decided by a simple value is safe. -/
theorem reads_simple {α : Type} (f : SimpleHead → Option α) (hs : Safe c) : Reads c (readSimple f c) := by
  unfold readSimple
  cases hp : c.parseSimpleRaw with
  | error e => exact .inl ⟨e, rfl⟩
  | ok s =>
    dsimp only
    cases f s with
    | none => exact .inl ⟨_, rfl⟩
    | some v => exact .inr ⟨v, _, rfl, passed_consume hs (parseSimpleRaw_fits hp), rfl⟩

/-- A string is handed out only when all of it lies inside the input. -/
theorem reads_str (major : Nat) (hs : Safe c) : Reads c (readStr major c) := by
  unfold readStr
  cases hp : c.parseHeadRaw with
  | error e => exact .inl ⟨e, rfl⟩
  | ok h =>
    have hfits := parseHeadRaw_fits hp
    dsimp only
    split
    · exact .inl ⟨_, rfl⟩
    · split
      · exact .inl ⟨_, rfl⟩
      · rename_i hroom
        exact .inr ⟨_, _, rfl, passed_consume hs (by omega), rfl⟩

/-- The view of a string is behind the cursor, and inside the input whatever length the head claims. -/
theorem view_readStr {major : Nat} {v : View} (hv : (readStr major c).1 = .ok v) :
    c.pos ≤ v.start ∧ v.start + v.length ≤ c.input.length := by
  unfold readStr at hv
  cases hp : c.parseHeadRaw with
  | error e =>
    rw [hp] at hv
    cases hv
  | ok h =>
    have hfits := parseHeadRaw_fits hp
    rw [hp] at hv
    dsimp only at hv
    split at hv
    · cases hv
    · split at hv
      · cases hv
      · rename_i hroom
        cases hv
        dsimp only
        omega

/-- A key is an item of the innermost map. -/
theorem reads_key (hs : Safe c) : (∃ e, c.readKey = (.error e, c)) ∨
    ∃ k c', c.readKey = (.ok k, c') ∧ Passed c c' ∧
      ∃ f fs, c.stack = f :: fs ∧ c'.stack = consumeOne ({ f with lastKey := some k } :: fs) := by
  unfold readKey
  cases hp : c.parseHeadRaw with
  | error e => exact .inl ⟨e, rfl⟩
  | ok h =>
    dsimp only
    split
    · exact .inl ⟨_, rfl⟩
    · cases hstack : c.stack with
      | nil => exact .inl ⟨_, rfl⟩
      | cons f fs =>
        dsimp only
        split
        · exact .inl ⟨_, rfl⟩
        · split
          · exact .inl ⟨_, rfl⟩
          · refine .inr ⟨h.arg, _, rfl, ?_, f, fs, rfl, rfl⟩
            have hwaiting := hs.waiting
            have hdepth := hs.depth
            rw [hstack] at hwaiting hdepth
            obtain ⟨hf, hfs⟩ := List.forall_mem_cons.mp hwaiting
            have hs' : Safe { c with stack := { f with lastKey := some h.arg } :: fs } :=
              ⟨hs.pos, hdepth, List.forall_mem_cons.mpr ⟨hf, hfs⟩⟩
            obtain ⟨hinput, hpos, hsafe⟩ := passed_consume hs' (parseHeadRaw_fits hp)
            exact ⟨hinput, hpos, hsafe⟩

/-! ## Containers -/

/-- In a container above the frames `fs`, with so many slots left; behind it when there are none. -/
def Inside (isMap : Bool) (fs : List CborFrame) : Nat → List CborFrame → Prop
  | 0, stack => stack = consumeOne fs
  | slots + 1, stack => ∃ lastKey, stack = { isMap, remaining := slots + 1, lastKey } :: fs

/-- A container entered counts one item less in its parent. -/
theorem inside_consumeOne (isMap : Bool) (fs : List CborFrame) (slots : Nat) (lastKey : Option Nat) :
    Inside isMap fs slots (consumeOne ({ isMap, remaining := slots + 1, lastKey } :: fs)) := by
  rw [consumeOne_cons]
  cases slots with
  | zero => exact if_pos (Nat.le_refl 1)
  | succ slots => exact ⟨lastKey, if_neg (by dsimp only; omega)⟩

/-- A container is entered, or left at once when it is empty. -/
theorem reads_container (major : Nat) (isMap : Bool) (hs : Safe c) :
    (∃ e, enterContainer major isMap c = (.error e, c)) ∨
      ∃ n c', enterContainer major isMap c = (.ok n, c') ∧ Passed c c' ∧
        Inside isMap c.stack (if isMap then n * 2 else n) c'.stack := by
  unfold enterContainer
  cases hp : c.parseHeadRaw with
  | error e => exact .inl ⟨e, rfl⟩
  | ok h =>
    dsimp only
    split
    · exact .inl ⟨_, rfl⟩
    split
    · exact .inl ⟨_, rfl⟩
    rename_i hdepth
    split
    · exact .inl ⟨_, rfl⟩
    refine .inr ⟨h.arg, _, rfl, ?_⟩
    rw [afterConsume_eq]
    generalize (if isMap then h.arg * 2 else h.arg) = slots
    cases slots with
    | zero =>
      obtain ⟨hwaiting, hlen⟩ := waiting_consumeOne hs.waiting
      exact ⟨⟨rfl, Nat.le_add_right _ _, parseHeadRaw_fits hp, hlen.trans hs.depth, hwaiting⟩, rfl⟩
    | succ slots =>
      have hwaiting : Waiting ({ isMap, remaining := slots + 1 } :: c.stack) :=
        List.forall_mem_cons.mpr ⟨Nat.succ_pos slots, hs.waiting⟩
      exact ⟨⟨rfl, Nat.le_add_right _ _, parseHeadRaw_fits hp, Nat.le_of_not_lt hdepth, hwaiting⟩, none, rfl⟩

end

/-! ## Skips -/

/-- A skip stays within its calls, and leaves the frames as `p` says when it succeeds. -/
def Skips (c : CborCursor) (p : List CborFrame → Prop) (k : Skip) : Prop :=
  ∃ r c', k = some (r, c') ∧ Passed c c' ∧ ∀ b, r = .ok b → p c'.stack

section

variable {c : CborCursor} {calls n : Nat} {f : CborCursor → Skip} {fs : List CborFrame} {p : List CborFrame → Prop}

/-- An error leaves the cursor where it was. -/
theorem skips_error (hs : Safe c) (e : DecodeError) : Skips c p (some (.error e, c)) := ⟨.error e, c, rfl, .refl hs, nofun⟩

/-- A read is a skip of one item. -/
theorem Reads.skips {α : Type} {r : Except DecodeError α × CborCursor} (hs : Safe c) (h : Reads c r) :
    Skips c (· = consumeOne c.stack) (skipped r) := by
  rcases h with ⟨e, rfl⟩ | ⟨v, c', rfl, hpassed, hstack⟩
  · exact skips_error hs e
  · exact ⟨.ok true, c', rfl, hpassed, fun _ _ => hstack⟩

/-- The elements of a container, each of which takes `width` slots of it. -/
theorem skipLoop_spec {isMap : Bool} {width : Nat}
    (hf : ∀ k c, Safe c → Inside isMap fs (width * k + width) c.stack → Skips c (Inside isMap fs (width * k)) (f c)) :
    ∀ n c, Safe c → Inside isMap fs (width * n) c.stack → Skips c (· = consumeOne fs) (skipLoop f n c)
  | 0, c, hs, hinside => ⟨.ok true, c, rfl, .refl hs, fun _ _ => hinside⟩
  | n + 1, c, hs, hinside => by
    obtain ⟨r, c', hcall, hpassed, hnext⟩ := hf n c hs hinside
    rw [skipLoop, hcall]
    cases r with
    | error e => exact ⟨.error e, c', rfl, hpassed, nofun⟩
    | ok b =>
      obtain ⟨r, c'', hloop, hpassed', hend⟩ := skipLoop_spec hf n c' hpassed.safe (hnext b rfl)
      exact ⟨r, c'', hloop, hpassed.trans hpassed', hend⟩

/-- A key fills one slot, and its value the next. -/
theorem skips_pair {slots : Nat}
    (hvalue : ∀ c, Safe c → Inside true fs (slots + 1) c.stack → Skips c (Inside true fs slots) (f c))
    (hs : Safe c) (hinside : Inside true fs (slots + 2) c.stack) :
    Skips c (Inside true fs slots) (match c.readKey with
      | (.error e, c) => some (.error e, c)
      | (.ok _, c) => f c) := by
  obtain ⟨lastKey, hstack⟩ := hinside
  rcases reads_key hs with ⟨e, hkey⟩ | ⟨key, c', hkey, hpassed, g, gs, hg, hstack'⟩
  · rw [hkey]
    exact skips_error hs e
  · rw [hkey]
    obtain ⟨rfl, rfl⟩ := List.cons.inj (hg.symm.trans hstack)
    have hinside' : Inside true gs (slots + 1) c'.stack := by
      rw [hstack']
      exact inside_consumeOne true _ (slots + 1) (some key)
    obtain ⟨r, c'', hskip, hpassed', hend⟩ := hvalue c' hpassed.safe hinside'
    exact ⟨r, c'', hskip, hpassed.trans hpassed', hend⟩

/-- **A skip goes no deeper than the frames that can be open**, and fills one slot. -/
theorem skipWithin_spec : ∀ (calls : Nat) (c : CborCursor), Safe c → CborWriter.kMaxDepth < c.stack.length + calls →
    Skips c (· = consumeOne c.stack) (skipWithin calls c)
  | 0, c, hs, hdeep => absurd hs.depth (Nat.not_le.mpr hdeep)
  | calls + 1, c, hs, hdeep => by
    -- a value inside a container of `c` has one frame more below it, and one call less
    have hvalue : ∀ (isMap : Bool) (slots : Nat) (c' : CborCursor), Safe c' → Inside isMap c.stack (slots + 1) c'.stack →
        Skips c' (Inside isMap c.stack slots) (skipWithin calls c') := by
      intro isMap slots c' hs' ⟨lastKey, hstack⟩
      have hdeep' : CborWriter.kMaxDepth < c'.stack.length + calls := by
        rw [hstack, List.length_cons]
        omega
      obtain ⟨r, c'', hskip, hpassed, hend⟩ := skipWithin_spec calls c' hs' hdeep'
      refine ⟨r, c'', hskip, hpassed, fun b hb => ?_⟩
      rw [hend b hb, hstack]
      exact inside_consumeOne isMap c.stack slots lastKey
    unfold skipWithin
    cases c.peekType with
    | error e => exact skips_error hs e
    | ok t =>
      cases t with
      | uint => exact (reads_head _ hs).skips hs
      | negInt => exact (reads_head _ hs).skips hs
      | byteString => exact (reads_str 2 hs).skips hs
      | textString => exact (reads_str 3 hs).skips hs
      | tag => exact skips_error hs _
      | array =>
        dsimp only [readArrayHeader]
        rcases reads_container 4 false hs with ⟨e, hread⟩ | ⟨n, c', hread, hpassed, hinside⟩
        · rw [hread]
          exact skips_error hs e
        · rw [hread]
          have hinside' : Inside false c.stack (1 * n) c'.stack := by rwa [Nat.one_mul]
          obtain ⟨r, c'', hloop, hpassed', hend⟩ :=
            skipLoop_spec (fun k c'' hs'' h => hvalue false (1 * k) c'' hs'' h) n c' hpassed.safe hinside'
          exact ⟨r, c'', hloop, hpassed.trans hpassed', hend⟩
      | map =>
        dsimp only [readMapHeader]
        rcases reads_container 5 true hs with ⟨e, hread⟩ | ⟨n, c', hread, hpassed, hinside⟩
        · rw [hread]
          exact skips_error hs e
        · rw [hread]
          have hinside' : Inside true c.stack (2 * n) c'.stack := by rwa [Nat.mul_comm]
          obtain ⟨r, c'', hloop, hpassed', hend⟩ :=
            skipLoop_spec (fun k c'' hs'' h => skips_pair (hvalue true (2 * k)) hs'' h) n c' hpassed.safe hinside'
          exact ⟨r, c'', hloop, hpassed.trans hpassed', hend⟩
      | simple =>
        dsimp only
        cases hp : c.parseSimpleRaw with
        | error e => exact skips_error hs e
        | ok s => exact ⟨.ok true, _, rfl, passed_consume hs (parseSimpleRaw_fits hp), fun _ _ => rfl⟩

end

/-! ## Calls -/

/-- A call that fails without a trace, or moves on. -/
def Tries {α : Type} (c : CborCursor) (r : Except DecodeError α × CborCursor) : Prop :=
  (∃ e, r = (.error e, c)) ∨ ∃ v c', r = (.ok v, c') ∧ Passed c c'

/-- What a call may do to a safe cursor. -/
structure Sound (c : CborCursor) (k : Call) (r : Returned × CborCursor) : Prop where
  passed : Passed c r.2
  view : ∀ v, r.1 = .view v → c.pos ≤ v.start ∧ v.start + v.length ≤ c.input.length
  kept : ∀ e, r.1 = .error e → k ≠ .skipValue → r.2 = c
  found : r.1 ≠ .lost

section

variable {c : CborCursor} {k : Call}

theorem Reads.tries {α : Type} {r : Except DecodeError α × CborCursor} (h : Reads c r) : Tries c r := by
  rcases h with h | ⟨v, c', hr, hpassed, _⟩
  · exact .inl h
  · exact .inr ⟨v, c', hr, hpassed⟩

/-- Entering a container either succeeds safely or leaves the cursor where it was. -/
theorem tries_container (major : Nat) (isMap : Bool) (hs : Safe c) : Tries c (enterContainer major isMap c) := by
  rcases reads_container major isMap hs with h | ⟨n, c', hr, hpassed, _⟩
  · exact .inl h
  · exact .inr ⟨n, c', hr, hpassed⟩

/-- Reading a key either succeeds safely or leaves the cursor where it was. -/
theorem tries_key (hs : Safe c) : Tries c c.readKey := by
  rcases reads_key hs with h | ⟨n, c', hr, hpassed, _⟩
  · exact .inl h
  · exact .inr ⟨n, c', hr, hpassed⟩

/-- Peeking moves nothing. -/
theorem tries_peek (hs : Safe c) : Tries c (c.peekType, c) := by
  cases c.peekType with
  | error e => exact .inl ⟨e, rfl⟩
  | ok t => exact .inr ⟨t, c, rfl, .refl hs⟩

/-- A try is sound whichever way it ends. -/
theorem Tries.returned {α : Type} {r : Except DecodeError α × CborCursor} (hs : Safe c) (h : Tries c r) :
    Sound c k (returned r) := by
  rcases h with ⟨e, rfl⟩ | ⟨v, c', rfl, hpassed⟩
  · exact ⟨.refl hs, nofun, fun _ _ _ => rfl, nofun⟩
  · exact ⟨hpassed, nofun, nofun, nofun⟩

theorem sound_str (major : Nat) (hs : Safe c) : Sound c k (returnedView (readStr major c)) := by
  have hview := @view_readStr c major
  rcases reads_str major hs with ⟨e, hr⟩ | ⟨v, c', hr, hpassed, _⟩
  · rw [hr]
    exact ⟨.refl hs, nofun, fun _ _ _ => rfl, nofun⟩
  · rw [hr] at hview ⊢
    refine ⟨hpassed, fun w hw => ?_, nofun, nofun⟩
    cases hw
    exact hview rfl

/-- Skipping is sound, at any depth of nesting. -/
theorem sound_skip (hs : Safe c) : Sound c .skipValue (c.call .skipValue) := by
  have hdeep : CborWriter.kMaxDepth < c.stack.length + (CborWriter.kMaxDepth + 1) := by omega
  obtain ⟨r, c', hskip, hpassed, _⟩ := skipWithin_spec (CborWriter.kMaxDepth + 1) c hs hdeep
  unfold call skipValue
  dsimp only
  rw [hskip]
  cases r with
  | error e => exact ⟨hpassed, nofun, fun _ _ hne => absurd rfl hne, nofun⟩
  | ok b => exact ⟨hpassed, nofun, nofun, nofun⟩

/-- Every call is sound. -/
theorem call_sound (hs : Safe c) (k : Call) : Sound c k (c.call k) := by
  cases k with
  | peekType => exact (tries_peek hs).returned hs
  | readKey => exact (tries_key hs).returned hs
  | readUint => exact (reads_head _ hs).tries.returned hs
  | readInt => exact (reads_head _ hs).tries.returned hs
  | readBool => exact (reads_simple _ hs).tries.returned hs
  | readNull => exact (reads_simple _ hs).tries.returned hs
  | readF32 => exact (reads_simple _ hs).tries.returned hs
  | readTstr => exact sound_str 3 hs
  | readBstr => exact sound_str 2 hs
  | readMapHeader => exact (tries_container 5 true hs).returned hs
  | readArrayHeader => exact (tries_container 4 false hs).returned hs
  | skipValue => exact sound_skip hs

/-! ## Runs -/

def run (c : CborCursor) (ks : List Call) : CborCursor := ks.foldl (fun c k => (c.call k).2) c

/-- So a run of calls, whatever they return, stays inside the input. -/
theorem passed_run (hs : Safe c) (ks : List Call) : Passed c (c.run ks) := by
  induction ks generalizing c with
  | nil => exact .refl hs
  | cons k ks ih =>
    have hpassed := (call_sound hs k).passed
    exact hpassed.trans (ih hpassed.safe)

theorem safe_start (input : Bytes) : Safe { input } := ⟨Nat.zero_le _, Nat.zero_le _, nofun⟩

end

/-- **The cursor is safe on any input, whatever is called in whatever order.**  After any calls it is in the input with at
most four frames open; one more call moves it forward or leaves it, a view lies in the input, a call that fails is a pure
peek unless it skips, and a skip needs at most four levels of recursion. -/
theorem cursor_safe (input : Bytes) (ks : List Call) (k : Call) :
    let c := CborCursor.run { input } ks
    let r := c.call k
    (c.input = input ∧ c.pos ≤ input.length ∧ c.stack.length ≤ 4) ∧
      (r.2.input = input ∧ c.pos ≤ r.2.pos ∧ r.2.pos ≤ input.length ∧ r.2.stack.length ≤ 4) ∧
      (∀ v, r.1 = .view v → c.pos ≤ v.start ∧ v.start + v.length ≤ input.length) ∧
      (∀ e, r.1 = .error e → k ≠ .skipValue → r.2 = c) ∧ r.1 ≠ .lost := by
  intro c r
  obtain ⟨hinput, -, hs⟩ := passed_run (safe_start input) ks
  obtain ⟨⟨hinput', hforward, hs'⟩, hview, hkept, hfound⟩ := call_sound hs k
  have hi : c.input = input := hinput
  have hi' : r.2.input = input := hinput'.trans hinput
  refine ⟨⟨hi, ?_, hs.depth⟩, ⟨hi', hforward, ?_, hs'.depth⟩, fun v hv => ?_, hkept, hfound⟩
  · rw [← hi]
    exact hs.pos
  · rw [← hi']
    exact hs'.pos
  · rw [← hi]
    exact hview v hv

/-- A text that claims 2^64 - 1 bytes is refused, and may still be read as something else. -/
theorem cursor_safe_long :
    (CborCursor.call { input := [0x7B, 255, 255, 255, 255, 255, 255, 255, 255] } .readTstr).2 =
      { input := [0x7B, 255, 255, 255, 255, 255, 255, 255, 255] } :=
  (cursor_safe [0x7B, 255, 255, 255, 255, 255, 255, 255, 255] [] .readTstr).2.2.2.1 .truncated (by decide) (by decide)

/-! ## The decoders' reader

A failing read leaves the cursor, so a reader that fails without a cursor shows all there is to see. -/

section

variable {c : CborCursor}

/-- What a read shows of itself. -/
def shown {α : Type} (r : Except DecodeError α × CborCursor) : Except DecodeError (α × CborReader) :=
  r.1.map fun v => (v, r.2.reader)

/-- The cursor counts as the writer does. -/
theorem consumeOne_eq (fs : List CborFrame) : consumeOne fs = CborWriter.consume fs := by
  induction fs with
  | nil => rfl
  | cons f fs ih => rw [consumeOne_cons, CborWriter.consume, ih]

/-- Consuming in the cursor advances the decoders' reader by as much. -/
theorem reader_consume (c : CborCursor) (n : Nat) : (c.consume n).reader = c.reader.advance n := by
  unfold reader consume CborReader.advance
  rw [List.drop_drop, consumeOne_eq]

theorem shown_ok {α : Type} (v : α) (c : CborCursor) : shown (.ok v, c) = .ok (v, c.reader) := rfl

theorem shown_error {α : Type} (e : DecodeError) (c : CborCursor) : shown (α := α) (.error e, c) = .error e := rfl

/-- A read by head shows the decoders' reader the same. -/
theorem shown_readHead {α : Type} (f : Head → Option α) (c : CborCursor) :
    shown (readHead f c) = c.reader.parseHeadRaw.bind fun h =>
      match f h with
      | none => .error .malformed
      | some v => .ok (v, c.reader.advance h.totalBytes) := by
  unfold readHead parseHeadRaw
  cases c.reader.parseHeadRaw with
  | error e => rfl
  | ok h =>
    dsimp only [Except.bind]
    cases f h with
    | none => rfl
    | some v => rw [shown_ok, reader_consume]

theorem shown_readUint (c : CborCursor) : shown c.readUint = c.reader.readUint := by
  unfold readUint CborReader.readUint
  rw [shown_readHead]
  refine congrArg (Except.bind _) (funext fun h => ?_)
  by_cases hmajor : h.major = 0 <;> simp [hmajor]

theorem shown_readInt (c : CborCursor) : shown c.readInt = c.reader.readInt := by
  unfold readInt CborReader.readInt
  rw [shown_readHead]
  refine congrArg (Except.bind _) (funext fun h => ?_)
  by_cases hmajor : h.major = 0
  · simp [hmajor]
  · by_cases hmajor' : h.major = 1 <;> simp [hmajor, hmajor']

/-- A read by simple value shows the decoders' reader the same. -/
theorem shown_readSimple {α : Type} (f : SimpleHead → Option α) (c : CborCursor) :
    shown (readSimple f c) = c.reader.parseSimpleRaw.bind fun s =>
      match f s with
      | none => .error .malformed
      | some v => .ok (v, c.reader.advance s.totalBytes) := by
  unfold readSimple parseSimpleRaw
  cases c.reader.parseSimpleRaw with
  | error e => rfl
  | ok s =>
    dsimp only [Except.bind]
    cases f s with
    | none => rfl
    | some v => rw [shown_ok, reader_consume]

theorem shown_readBool (c : CborCursor) : shown c.readBool = c.reader.readBool := by
  unfold readBool CborReader.readBool
  rw [shown_readSimple]
  refine congrArg (Except.bind _) (funext fun s => ?_)
  obtain ⟨kind, bits, total⟩ := s
  cases kind <;> rfl

theorem shown_readF32 (c : CborCursor) : shown c.readF32 = c.reader.readF32 := by
  unfold readF32 CborReader.readF32
  rw [shown_readSimple]
  refine congrArg (Except.bind _) (funext fun s => ?_)
  by_cases hkind : s.kind = .float32 <;> simp [hkind]

theorem shown_readKey (c : CborCursor) : shown c.readKey = c.reader.readKey := by
  unfold readKey CborReader.readKey parseHeadRaw
  cases c.reader.parseHeadRaw with
  | error e => rfl
  | ok h =>
    dsimp only [bind, Except.bind, reader]
    split
    · rfl
    · cases c.stack with
      | nil => rfl
      | cons f fs =>
        dsimp only
        split
        · rfl
        · split
          · rfl
          · rw [shown_ok, reader_consume]
            rfl

/-- Entering a container shows the decoders' reader the same. -/
theorem shown_enterContainer (major : Nat) (isMap : Bool) (c : CborCursor) :
    shown (enterContainer major isMap c) = c.reader.enterContainer major isMap := by
  have hstack : c.reader.stack = c.stack := rfl
  have hrest : c.reader.rest = c.input.drop c.pos := rfl
  unfold enterContainer CborReader.enterContainer parseHeadRaw
  rw [hstack, hrest]
  cases c.reader.parseHeadRaw with
  | error e => rfl
  | ok h =>
    dsimp only [bind, Except.bind]
    split
    · rfl
    split
    · rfl
    split
    · rfl
    rw [shown_ok, afterConsume_eq]
    by_cases hzero : h.arg = 0
    · rw [if_pos (by simp [hzero]), if_pos hzero, ← reader_consume, hzero]
      rfl
    · rw [if_neg (by cases isMap <;> simp [hzero]), if_neg hzero, reader, List.drop_drop]

/-- A view shows its bytes. -/
theorem shown_readStr (major : Nat) (c : CborCursor) :
    (shown (readStr major c)).map (fun r => ((c.input.drop r.1.start).take r.1.length, r.2)) = c.reader.readStr major := by
  unfold readStr CborReader.readStr parseHeadRaw
  cases c.reader.parseHeadRaw with
  | error e => rfl
  | ok h =>
    have htail : c.reader.rest.drop h.totalBytes = c.input.drop (c.pos + h.totalBytes) := List.drop_drop
    dsimp only [bind, Except.bind]
    rw [htail, List.length_drop]
    split
    · rfl
    · split
      · rfl
      · rw [shown_ok, reader_consume]
        rfl

end

end SlopSync.CborCursor
