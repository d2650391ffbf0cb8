import SlopSync.SlopBench.Config

/-! # What a configuration stores

Every number of a file has a slot in the configuration.  A log of the tokens, the newest first, accounts for what the parser
stores:

* `Records` — a slot that the log mentions holds the value of its last token, and no other slot loses its value;
* `records_run` — the log of a file accounts for its configuration, from the lines by `Records.append`. -/

namespace SlopSync.BenchConfig

/-! ## Failing computations -/

theorem bind_eq_ok {ε α β : Type} {x : Except ε α} {f : α → Except ε β} {b : β} :
    x >>= f = .ok b ↔ ∃ a, x = .ok a ∧ f a = .ok b := by
  cases x with
  | error e => exact iff_of_false nofun (by rintro ⟨a, h, -⟩; cases h)
  | ok a => exact ⟨fun h => ⟨a, rfl, h⟩, by rintro ⟨a', h, hb⟩; cases h; exact hb⟩

theorem bind_eq_error {ε α β : Type} {x : Except ε α} {f : α → Except ε β} {e : ε} :
    x >>= f = .error e ↔ x = .error e ∨ ∃ a, x = .ok a ∧ f a = .error e := by
  cases x with
  | error e' =>
    constructor
    · intro h
      cases h
      exact .inl rfl
    · rintro (h | ⟨a, h, -⟩)
      · cases h
        rfl
      · cases h
  | ok a => exact ⟨fun h => .inr ⟨a, rfl, h⟩, by rintro (h | ⟨a', h, he⟩) <;> cases h; exact he⟩

/-! ## Slots -/

inductive FieldSlot
  | key | defaultValue | min | max | animHz | animA | animB
  deriving DecidableEq, Repr

inductive ChannelSlot
  | id | rateHz | writes | echoDelay | capacity | perItemMax | nameMax
  | field (j : Nat) (s : FieldSlot)
  deriving DecidableEq, Repr

inductive Slot
  | hubEchoDelay
  | channel (i : Nat) (s : ChannelSlot)
  deriving DecidableEq, Repr

/-- What a slot holds. -/
inductive Number
  | uint (n : Nat)
  | float (x : F32)
  deriving DecidableEq, Repr

def FieldConfig.stored (f : FieldConfig) : FieldSlot → Option Number
  | .key => f.key.map fun k => .uint k.toNat
  | .defaultValue => f.defaultValue.map .float
  | .min => f.min.map .float
  | .max => f.max.map .float
  | .animHz => some (.float f.animHz)
  | .animA => some (.float f.animA)
  | .animB => some (.float f.animB)

def ChannelConfig.stored (ch : ChannelConfig) : ChannelSlot → Option Number
  | .id => some (.uint ch.id.toNat)
  | .rateHz => some (.float ch.rateHz)
  | .writes => ch.writes.map fun id => .uint id.toNat
  | .echoDelay => ch.echoDelay.map fun ms => .uint ms.toNat
  | .capacity => some (.uint ch.storeCapacity.toNat)
  | .perItemMax => some (.uint ch.storePerItemMax.toNat)
  | .nameMax => some (.uint ch.storeNameMax.toNat)
  | .field j s => ch.fields[j]?.bind fun f => f.stored s

def HubConfig.stored (cfg : HubConfig) : Slot → Option Number
  | .hubEchoDelay => some (.uint cfg.echoDelayMs.toNat)
  | .channel i s => cfg.channels[i]?.bind fun ch => ch.stored s

/-- The slots that hold a `float`. -/
def FieldSlot.isFloat : FieldSlot → Bool
  | .key => false
  | _ => true

def ChannelSlot.isFloat : ChannelSlot → Bool
  | .rateHz => true
  | .field _ s => s.isFloat
  | _ => false

def Slot.isFloat : Slot → Bool
  | .hubEchoDelay => false
  | .channel _ s => s.isFloat

/-- The limits of a field. -/
def FieldSlot.isLimit : FieldSlot → Bool
  | .min | .max => true
  | _ => false

def ChannelSlot.isLimit : ChannelSlot → Bool
  | .field _ s => s.isLimit
  | _ => false

def Slot.isLimit : Slot → Bool
  | .hubEchoDelay => false
  | .channel _ s => s.isLimit

/-- What the parser makes of a token. -/
def tokenValue (bits : Nat) (isFloat : Bool) (t : Token) : Number :=
  if isFloat then .float (parseFloatTok t).1 else .uint (parseUintTok bits t).1.toNat

/-! ## The numbers of a file -/

/-- The slot of an attribute. -/
def attrSlot (t : Token) : Option FieldSlot :=
  if (splitAttr t).1 = "key".toList then some .key
  else if (splitAttr t).1 = "default".toList then some .defaultValue
  else none

/-- The numbers behind the unit of a field; of two bare ones the first is the minimum. -/
def attrNumerals : Bool → List Token → List (FieldSlot × Token)
  | _, [] => []
  | minGiven, t :: attrs =>
    if '=' ∈ t then attrNumerals minGiven attrs ++ ((attrSlot t).map fun s => (s, (splitAttr t).2)).toList
    else attrNumerals true attrs ++ [(if minGiven then .max else .min, t)]

def propSlot (kw : Token) : Option ChannelSlot :=
  if kw = "rate_hz".toList then some .rateHz
  else if kw = "writes".toList then some .writes
  else if kw = "echo_delay_ms".toList then some .echoDelay
  else if kw = "capacity".toList then some .capacity
  else if kw = "per_item_max".toList then some .perItemMax
  else if kw = "name_max".toList then some .nameMax
  else none

/-- The numbers of a line in the block of a channel. -/
def propNumerals (ch : ChannelConfig) : List Token → List (ChannelSlot × Token)
  | [] => []
  | kw :: args =>
    if kw = "field".toList then (attrNumerals false (args.drop 3)).map fun e => (.field ch.fields.length e.1, e.2)
    else if kw = "animate".toList then
      match args with
      | [name, _, hz, p2, p3] =>
        match ch.fields.findIdx? fun f => f.name = name with
        | none => []
        | some j => [(.field j .animB, p3), (.field j .animA, p2), (.field j .animHz, hz)]
      | _ => []
    else match args with
      | [v] => ((propSlot kw).map fun s => (s, v)).toList
      | _ => []

/-- The numbers of a line. -/
def tokenNumerals (st : ParseState) : List Token → List (Slot × Token)
  | [] => []
  | kw :: args =>
    if kw = "hub".toList then []
    else if (classFromKeyword kw).isSome then
      (args.take 1).map fun t => (.channel st.out.channels.length .id, t)
    else match st.mode with
      | .none => []
      | .hub => if kw = "echo_delay_ms".toList then (args.take 1).map fun t => (.hubEchoDelay, t) else []
      | .channel i =>
        match st.out.channels[i]? with
        | none => []
        | some ch => (propNumerals ch (kw :: args)).map fun e => (.channel i e.1, e.2)

def lineNumerals (st : ParseState) (rawLine : List Char) : List (Slot × Token) :=
  if content rawLine = [] then [] else tokenNumerals st (tokenize (content rawLine))

/-- The numbers of the lines that are accepted, the newest first. -/
def numerals (bits : Nat) (path : String) : ParseState → List (List Char) → List (Slot × Token)
  | _, [] => []
  | st, l :: ls =>
    match parseLine bits path st l with
    | .error _ => []
    | .ok st' => numerals bits path st' ls ++ lineNumerals st l

/-! ## Records -/

section

variable {σ τ : Type} [DecidableEq σ] [DecidableEq τ] {value : σ → Token → Number} {limit : σ → Bool}
  {log log' : List (σ × Token)} {before between after : σ → Option Number}

/-- A log accounts for what changed.  No slot loses its value, and a limit has none that is not in the log. -/
def Records (value : σ → Token → Number) (limit : σ → Bool) (log : List (σ × Token)) (before after : σ → Option Number) :
    Prop :=
  ∀ s, match log.lookup s with
    | some t => after s = some (value s t)
    | none => (∀ v, before s = some v → after s = some v) ∧ (limit s = true → after s = before s)

theorem records_refl (s : σ → Option Number) : Records value limit [] s s := fun _ => ⟨fun _ h => h, fun _ => rfl⟩

/-- What two parts of a file record, the file records. -/
theorem Records.append (h : Records value limit log before between) (h' : Records value limit log' between after) :
    Records value limit (log' ++ log) before after := by
  intro s
  have hs := h s
  have hs' := h' s
  rw [List.lookup_append]
  cases hlog' : log'.lookup s with
  | some t =>
    rw [hlog'] at hs'
    exact hs'
  | none =>
    rw [hlog'] at hs'
    rw [Option.none_or]
    cases hlog : log.lookup s with
    | some t =>
      rw [hlog] at hs
      exact hs'.1 _ hs
    | none =>
      rw [hlog] at hs
      exact ⟨fun v hv => hs'.1 v (hs.1 v hv), fun hl => (hs'.2 hl).trans (hs.2 hl)⟩

/-- One slot is written. -/
theorem records_single {s : σ} {t : Token} (hs : after s = some (value s t)) (hother : ∀ s', s' ≠ s → after s' = before s') :
    Records value limit [(s, t)] before after := by
  intro s'
  by_cases h : s' = s
  · subst h
    rw [List.lookup_cons_self]
    exact hs
  · rw [List.lookup_cons, beq_false_of_ne h]
    exact ⟨fun v hv => (hother s' h).trans hv, fun _ => hother s' h⟩

/-- Slots that had no value before. -/
theorem Records.fresh (h : Records value limit log before after) (hlimit : ∀ s, limit s = true → before s = none) :
    Records value limit log (fun _ => none) after := by
  intro s
  have hs := h s
  cases hlog : log.lookup s with
  | some t =>
    rw [hlog] at hs
    exact hs
  | none =>
    rw [hlog] at hs
    exact ⟨nofun, fun hl => (hs.2 hl).trans (hlimit s hl)⟩

/-! ## Parts of a record -/

variable {part : σ → τ}

/-- A log of one part of a record, seen in the whole. -/
theorem lookup_map_part (hpart : Function.Injective part) (log : List (σ × Token)) (s : σ) :
    (log.map fun e => (part e.1, e.2)).lookup (part s) = log.lookup s := by
  induction log with
  | nil => rfl
  | cons e log ih =>
    obtain ⟨r, t⟩ := e
    rw [List.map_cons, List.lookup_cons, List.lookup_cons, ih]
    by_cases h : s = r
    · subst h
      rw [beq_self_eq_true, beq_self_eq_true]
    · rw [beq_false_of_ne h, beq_false_of_ne fun h' => h (hpart h')]

omit [DecidableEq σ] in
theorem lookup_map_other {s' : τ} (hs : ∀ s, s' ≠ part s) (log : List (σ × Token)) :
    (log.map fun e => (part e.1, e.2)).lookup s' = none := by
  induction log with
  | nil => rfl
  | cons e log ih => rw [List.map_cons, List.lookup_cons, beq_false_of_ne (hs e.1), ih]

theorem getElem?_concat_ne {γ : Type} (l : List γ) (x : γ) {k : Nat} (hk : k ≠ l.length) : (l ++ [x])[k]? = l[k]? := by
  rcases Nat.lt_or_gt_of_ne hk with hlt | hgt
  · rw [List.getElem?_append_left hlt]
  · have hlen : (l ++ [x]).length ≤ k := by
      rw [List.length_append, List.length_singleton]
      omega
    rw [List.getElem?_eq_none hlen, List.getElem?_eq_none (Nat.le_of_lt hgt)]

/-- What is recorded of a part is recorded of the whole, when nothing else changes. -/
theorem Records.lift {value' : τ → Token → Number} {limit' : τ → Bool} {before' after' : τ → Option Number}
    (hpart : Function.Injective part) (hvalue : ∀ s, value' (part s) = value s) (hlimit : ∀ s, limit' (part s) = limit s)
    (h : Records value limit log (fun s => before' (part s)) fun s => after' (part s))
    (hother : ∀ s', (∀ s, s' ≠ part s) → after' s' = before' s') :
    Records value' limit' (log.map fun e => (part e.1, e.2)) before' after' := by
  intro s'
  by_cases hs : ∃ s, s' = part s
  · obtain ⟨s, rfl⟩ := hs
    have := h s
    rw [lookup_map_part hpart, hvalue, hlimit]
    exact this
  · have hs' : ∀ s, s' ≠ part s := fun s hs'' => hs ⟨s, hs''⟩
    rw [lookup_map_other hs']
    exact ⟨fun v hv => (hother s' hs').trans hv, fun _ => hother s' hs'⟩

end

/-! ## Numbers -/

section

variable {bits : Nat} {p : Place} {limit : Option UInt32} {v msg : Token}

theorem toNat_toUInt8 {n : UInt32} (h : n ≤ 0xFF) : n.toUInt8.toNat = n.toNat := by
  have hle : n.toNat ≤ 255 := UInt32.le_iff_toNat_le.mp h
  rw [UInt32.toNat_toUInt8]
  exact Nat.mod_eq_of_lt (by omega)

theorem toNat_toUInt16 {n : UInt32} (h : n ≤ 0xFFFF) : n.toUInt16.toNat = n.toNat := by
  have hle : n.toNat ≤ 65535 := UInt32.le_iff_toNat_le.mp h
  rw [UInt32.toNat_toUInt16]
  exact Nat.mod_eq_of_lt (by omega)

/-- A bounded number is within its bound. -/
theorem parseBounded_ok {msg : String} {n : UInt32} (h : parseBounded bits p limit v msg = .ok n) :
    n = (parseUintTok bits v).1 ∧ ∀ m, limit = some m → n ≤ m := by
  unfold parseBounded at h
  dsimp only at h
  split at h
  · cases h
  · rename_i hn
    cases h
    refine ⟨rfl, ?_⟩
    rintro m rfl
    simp only [Option.any_some, decide_eq_true_eq, not_or] at hn
    exact UInt32.not_lt.mp hn.2

end

/-! ## Fields -/

section

variable {bits : Nat} {p : Place} {f f' : FieldConfig} {t : Token} {attrs : List Token} {ch ch' : ChannelConfig}

/-- What is recorded of a field. -/
abbrev RecordsField (bits : Nat) (log : List (FieldSlot × Token)) (before after : FieldSlot → Option Number) : Prop :=
  Records (fun s => tokenValue bits s.isFloat) FieldSlot.isLimit log before after

/-- What an attribute can do. -/
theorem parseAttr_ok (h : parseAttr bits p f t = .ok f') :
    ('=' ∈ t ∧ attrSlot t = some .key ∧ (parseUintTok bits (splitAttr t).2).1 ≤ 0xFF ∧
      f' = { f with key := some (parseUintTok bits (splitAttr t).2).1.toUInt8 }) ∨
    ('=' ∈ t ∧ attrSlot t = some .defaultValue ∧
      f' = { f with defaultValue := some (parseFloatTok (splitAttr t).2).1 }) ∨
    ('=' ∉ t ∧ f.min.isSome = false ∧ f' = { f with min := some (parseFloatTok t).1 }) ∨
    ('=' ∉ t ∧ f.min.isSome = true ∧ f' = { f with max := some (parseFloatTok t).1 }) := by
  unfold parseAttr at h
  dsimp only at h
  split at h
  · rename_i heq
    split at h
    · rename_i hkey
      split at h
      · cases h
      · rename_i hv
        rw [not_or] at hv
        cases h
        exact .inl ⟨heq, if_pos hkey, UInt32.not_lt.mp hv.2, rfl⟩
    · rename_i hkey
      split at h
      · rename_i hdefault
        split at h
        · cases h
        · cases h
          exact .inr (.inl ⟨heq, by rw [attrSlot, if_neg hkey, if_pos hdefault], rfl⟩)
      · cases h
  · rename_i heq
    split at h
    · cases h
    split at h
    · rename_i hmin
      cases h
      exact .inr (.inr (.inl ⟨heq, by rwa [← Option.not_isSome, Bool.not_eq_true'] at hmin, rfl⟩))
    · rename_i hmin
      split at h
      · cases h
        exact .inr (.inr (.inr ⟨heq, by rwa [← Option.not_isSome, Bool.not_eq_true', Bool.not_eq_false] at hmin, rfl⟩))
      · cases h

/-- An attribute records the number it sets. -/
theorem recordsField_attr (h : parseAttr bits p f t = .ok f') :
    RecordsField bits (attrNumerals f.min.isSome [t]) f.stored f'.stored ∧
      f'.min.isSome = (f.min.isSome || !decide ('=' ∈ t)) ∧ f'.name = f.name := by
  rw [attrNumerals, attrNumerals, attrNumerals]
  rcases parseAttr_ok h with ⟨heq, hslot, hv, rfl⟩ | ⟨heq, hslot, rfl⟩ | ⟨heq, hmin, rfl⟩ | ⟨heq, hmin, rfl⟩
  · rw [if_pos heq, hslot]
    refine ⟨records_single ?_ ?_, by simp [heq], rfl⟩
    · exact congrArg (fun n => some (Number.uint n)) (toNat_toUInt8 hv)
    · intro s hs
      cases s with
      | key => exact absurd rfl hs
      | _ => rfl
  · rw [if_pos heq, hslot]
    refine ⟨records_single rfl ?_, by simp [heq], rfl⟩
    intro s hs
    cases s with
    | defaultValue => exact absurd rfl hs
    | _ => rfl
  · rw [if_neg heq, hmin]
    refine ⟨records_single rfl ?_, by simp [heq], rfl⟩
    intro s hs
    cases s with
    | min => exact absurd rfl hs
    | _ => rfl
  · rw [if_neg heq, hmin]
    refine ⟨records_single rfl ?_, by simp, rfl⟩
    intro s hs
    cases s with
    | max => exact absurd rfl hs
    | _ => rfl

/-- The attributes of a field record their numbers, one after another. -/
theorem recordsField_attrs (h : attrs.foldlM (parseAttr bits p) f = .ok f') :
    RecordsField bits (attrNumerals f.min.isSome attrs) f.stored f'.stored ∧ f'.name = f.name := by
  induction attrs generalizing f with
  | nil =>
    cases h
    exact ⟨records_refl _, rfl⟩
  | cons t attrs ih =>
    rw [List.foldlM_cons] at h
    cases ht : parseAttr bits p f t with
    | error e =>
      rw [ht] at h
      cases h
    | ok g =>
      rw [ht] at h
      obtain ⟨hfirst, hmin, hname⟩ := recordsField_attr ht
      obtain ⟨hrest, hname'⟩ := ih h
      rw [hmin] at hrest
      refine ⟨?_, hname'.trans hname⟩
      have happend := hfirst.append hrest
      rw [attrNumerals, attrNumerals, attrNumerals] at happend
      rw [attrNumerals]
      by_cases heq : '=' ∈ t
      · rw [if_pos heq] at happend ⊢
        simpa [heq] using happend
      · rw [if_neg heq] at happend ⊢
        simpa [heq] using happend

/-- A new field has no numbers yet. -/
theorem newField_ok {cls : SlopBench.ClassKind} {name typeStr unit : Token} (h : newField p cls name typeStr unit = .ok f) :
    f.name = name ∧ f.min = none ∧ f.max = none := by
  unfold newField at h
  dsimp only at h
  split at h
  · split at h
    · cases h
    · cases h
      exact ⟨rfl, rfl, rfl⟩
  · split at h
    · cases h
    · cases h
      exact ⟨rfl, rfl, rfl⟩

/-- What a field line that parses consists of. -/
theorem parseFieldLine_ok {tok : List Token} (h : parseFieldLine bits p ch tok = .ok ch') :
    ∃ kw name typeStr unit attrs f, tok = kw :: name :: typeStr :: unit :: attrs ∧ name ∉ ch.fields.map FieldConfig.name ∧
      f.name = name ∧ RecordsField bits (attrNumerals false attrs) (fun _ => none) f.stored ∧
      ch' = { ch with fields := ch.fields ++ [f] } := by
  unfold parseFieldLine at h
  split at h
  · cases h
  split at h
  · rename_i kw name typeStr unit attrs
    split at h
    · cases h
    · rename_i hname
      obtain ⟨f₀, hnew, h⟩ := bind_eq_ok.mp h
      obtain ⟨f, hattrs, h⟩ := bind_eq_ok.mp h
      obtain ⟨-, -, h⟩ := bind_eq_ok.mp h
      cases h
      obtain ⟨hname₀, hmin, hmax⟩ := newField_ok hnew
      obtain ⟨hrecords, hname'⟩ := recordsField_attrs hattrs
      rw [hmin] at hrecords
      refine ⟨kw, name, typeStr, unit, attrs, f, rfl, hname, hname'.trans hname₀, hrecords.fresh ?_, rfl⟩
      intro s hs
      cases s with
      | min => rw [FieldConfig.stored, hmin]; rfl
      | max => rw [FieldConfig.stored, hmax]; rfl
      | _ => cases hs
  · cases h

end

/-! ## Channels -/

section

variable {bits : Nat} {p : Place} {ch ch' : ChannelConfig} {tok : List Token}

abbrev RecordsChannel (bits : Nat) (log : List (ChannelSlot × Token)) (before after : ChannelSlot → Option Number) : Prop :=
  Records (fun s => tokenValue bits s.isFloat) ChannelSlot.isLimit log before after

theorem field_injective (j : Nat) : Function.Injective (ChannelSlot.field j) := fun _ _ h => (ChannelSlot.field.inj h).2

/-- One of the fields is another, or is new. -/
theorem recordsChannel_fields {fields : List FieldConfig} {j : Nat} {log : List (FieldSlot × Token)}
    (hother : ∀ k, k ≠ j → fields[k]? = ch.fields[k]?)
    (h : RecordsField bits log (fun s => ch.fields[j]?.bind fun f => f.stored s) fun s => fields[j]?.bind fun f => f.stored s) :
    RecordsChannel bits (log.map fun e => (.field j e.1, e.2)) ch.stored { ch with fields }.stored := by
  refine Records.lift (field_injective j) (fun _ => rfl) (fun _ => rfl) h fun s hs => ?_
  cases s with
  | field k s =>
    have hk : k ≠ j := fun hk => hs s (by rw [hk])
    rw [ChannelConfig.stored, ChannelConfig.stored, hother k hk]
  | _ => rfl

/-- A field is added. -/
theorem recordsChannel_push {f : FieldConfig} {log : List (FieldSlot × Token)}
    (h : RecordsField bits log (fun _ => none) f.stored) :
    RecordsChannel bits (log.map fun e => (.field ch.fields.length e.1, e.2)) ch.stored
      { ch with fields := ch.fields ++ [f] }.stored := by
  refine recordsChannel_fields (fun k hk => getElem?_concat_ne ch.fields f hk) ?_
  rw [List.getElem?_eq_none (Nat.le_refl _), List.getElem?_concat_length]
  exact h

/-- A field is changed. -/
theorem recordsChannel_modify {j : Nat} {f : FieldConfig} {g : FieldConfig → FieldConfig} {log : List (FieldSlot × Token)}
    (hj : ch.fields[j]? = some f) (h : RecordsField bits log f.stored (g f).stored) :
    RecordsChannel bits (log.map fun e => (.field j e.1, e.2)) ch.stored { ch with fields := ch.fields.modify j g }.stored := by
  refine recordsChannel_fields (fun k hk => List.getElem?_modify_ne g ch.fields hk.symm) ?_
  rw [List.getElem?_modify_eq, hj]
  exact h

theorem recordsField_animate (f : FieldConfig) (kind : AnimKind) (hz p2 p3 : Token) :
    RecordsField bits [(.animB, p3), (.animA, p2), (.animHz, hz)] f.stored
      (f.animate kind (parseFloatTok hz).1 (parseFloatTok p2).1 (parseFloatTok p3).1).stored := by
  intro s
  cases s with
  | animHz | animA | animB => exact rfl
  | key | defaultValue | min | max => exact ⟨fun _ h => h, fun _ => rfl⟩

/-- What the lines in a block keep: the names differ, and only an intent writes. -/
structure ChannelConfig.Sound (ch : ChannelConfig) : Prop where
  names : (ch.fields.map FieldConfig.name).Nodup
  writes : ch.writes.isSome = true → ch.cls = .intent

/-- A field line records its numbers in the channel. -/
theorem recordsChannel_field (h : parseFieldLine bits p ch tok = .ok ch') :
    RecordsChannel bits ((attrNumerals false (tok.drop 4)).map fun e => (.field ch.fields.length e.1, e.2)) ch.stored
      ch'.stored ∧ (ch.Sound → ch'.Sound) := by
  obtain ⟨kw, name, typeStr, unit, attrs, f, rfl, hfresh, rfl, hrecords, rfl⟩ := parseFieldLine_ok h
  refine ⟨recordsChannel_push hrecords, fun hs => ⟨?_, hs.writes⟩⟩
  rw [List.map_append, List.map_singleton]
  exact List.nodup_append.mpr ⟨hs.names, List.nodup_singleton _, fun a ha b hb heq => by
    rw [List.mem_singleton] at hb
    exact hfresh (hb ▸ heq ▸ ha)⟩

theorem names_modify {g : FieldConfig → FieldConfig} (hg : ∀ f, (g f).name = f.name) (fields : List FieldConfig) (j : Nat) :
    (fields.modify j g).map FieldConfig.name = fields.map FieldConfig.name := by
  refine List.ext_getElem? fun k => ?_
  rw [List.getElem?_map, List.getElem?_map]
  by_cases hk : j = k
  · subst hk
    rw [List.getElem?_modify_eq]
    cases fields[j]? with
    | none => rfl
    | some f => exact congrArg some (hg f)
  · rw [List.getElem?_modify_ne g fields hk]

/-- An animate line records its numbers in the field it names. -/
theorem recordsChannel_animate (h : parseAnimateLine p ch tok = .ok ch') :
    ∃ kw name kindStr hz p2 p3 j, tok = [kw, name, kindStr, hz, p2, p3] ∧
      (ch.fields.findIdx? fun f => f.name = name) = some j ∧
      RecordsChannel bits [(.field j .animB, p3), (.field j .animA, p2), (.field j .animHz, hz)] ch.stored ch'.stored ∧
      (ch.Sound → ch'.Sound) := by
  unfold parseAnimateLine at h
  split at h
  · cases h
  split at h
  · rename_i kw name kindStr hz p2 p3
    split at h
    · cases h
    rename_i j hj
    split at h
    · cases h
    rename_i kind _
    dsimp only at h
    split at h
    · cases h
    cases h
    obtain ⟨hlt, -, -⟩ := List.findIdx?_eq_some_iff_getElem.mp hj
    have hget := List.getElem?_eq_getElem hlt
    refine ⟨kw, name, kindStr, hz, p2, p3, j, rfl, hj,
      recordsChannel_modify hget (recordsField_animate _ kind hz p2 p3), fun hs => ⟨?_, hs.writes⟩⟩
    rw [names_modify (g := FieldConfig.animate _ _ _ _) fun _ => rfl]
    exact hs.names
  · cases h

theorem onlyFor_ok {cls : SlopBench.ClassKind} {msg : String} {u : Unit} (h : onlyFor p cls ch msg = .ok u) : ch.cls = cls := by
  unfold onlyFor at h
  split at h
  · cases h
  · rename_i hcls
    exact not_ne_iff.mp hcls

/-- A bounded number, for a channel of one class only. -/
theorem recordsChannel_bounded {cls : SlopBench.ClassKind} {limit : Option UInt32} {v : Token} {msg₁ msg₂ : String}
    {put : UInt32 → ChannelConfig} {s : ChannelSlot}
    (h : (onlyFor p cls ch msg₁ >>= fun _ => parseBounded bits p limit v msg₂ >>= fun n => Except.ok (put n)) = .ok ch')
    (hfloat : s.isFloat = false)
    (hput : ∀ n, (∀ m, limit = some m → n ≤ m) → (put n).stored s = some (.uint n.toNat))
    (hother : ∀ n s', s' ≠ s → (put n).stored s' = ch.stored s')
    (hsound : ∀ n, ch.cls = cls → ch.Sound → (put n).Sound) :
    RecordsChannel bits [(s, v)] ch.stored ch'.stored ∧ (ch.Sound → ch'.Sound) := by
  obtain ⟨u, honly, h⟩ := bind_eq_ok.mp h
  obtain ⟨n, hn, h⟩ := bind_eq_ok.mp h
  cases h
  obtain ⟨rfl, hle⟩ := parseBounded_ok hn
  refine ⟨records_single ?_ (hother _), hsound _ (onlyFor_ok honly)⟩
  rw [hput _ hle, tokenValue, hfloat, if_neg Bool.false_ne_true]

/-- A property of one value. -/
theorem recordsChannel_value {kw v : Token} (hfield : kw ≠ "field".toList) (hanimate : kw ≠ "animate".toList)
    (h : parseChannelProp bits p ch [kw, v] = .ok ch') :
    RecordsChannel bits (((propSlot kw).map fun s => (s, v)).toList) ch.stored ch'.stored ∧ (ch.Sound → ch'.Sound) := by
  rw [parseChannelProp, if_neg hfield, if_neg hanimate] at h
  dsimp only at h
  by_cases hcategory : kw = "category".toList
  · subst hcategory
    rw [if_pos rfl] at h
    cases h
    exact ⟨records_refl _, fun hs => ⟨hs.names, hs.writes⟩⟩
  rw [if_neg hcategory] at h
  by_cases hrate : kw = "rate_hz".toList
  · subst hrate
    rw [if_pos rfl] at h
    split at h
    · cases h
    · cases h
      refine ⟨records_single rfl fun s hs => ?_, fun hs => ⟨hs.names, hs.writes⟩⟩
      cases s with
      | rateHz => exact absurd rfl hs
      | _ => rfl
  rw [if_neg hrate] at h
  by_cases haccess : kw = "access".toList
  · subst haccess
    rw [if_pos rfl] at h
    split at h
    · cases h
      exact ⟨records_refl _, fun hs => ⟨hs.names, hs.writes⟩⟩
    split at h
    · cases h
      exact ⟨records_refl _, fun hs => ⟨hs.names, hs.writes⟩⟩
    split at h
    · cases h
      exact ⟨records_refl _, fun hs => ⟨hs.names, hs.writes⟩⟩
    · cases h
  rw [if_neg haccess] at h
  by_cases hwrites : kw = "writes".toList
  · subst hwrites
    rw [if_pos rfl] at h
    refine recordsChannel_bounded (s := .writes) h rfl (fun n hle => ?_) (fun n s hs => ?_)
      fun n hcls hs => ⟨hs.names, fun _ => hcls⟩
    · exact congrArg (fun n => some (Number.uint n)) (toNat_toUInt16 (hle _ rfl))
    · cases s with
      | writes => exact absurd rfl hs
      | _ => rfl
  rw [if_neg hwrites] at h
  by_cases hecho : kw = "echo_delay_ms".toList
  · subst hecho
    rw [if_pos rfl] at h
    refine recordsChannel_bounded (s := .echoDelay) h rfl (fun n _ => rfl) (fun n s hs => ?_)
      fun n _ hs => ⟨hs.names, hs.writes⟩
    cases s with
    | echoDelay => exact absurd rfl hs
    | _ => rfl
  rw [if_neg hecho] at h
  by_cases hkind : kw = "kind".toList
  · subst hkind
    rw [if_pos rfl] at h
    obtain ⟨u, -, h⟩ := bind_eq_ok.mp h
    cases h
    exact ⟨records_refl _, fun hs => ⟨hs.names, hs.writes⟩⟩
  rw [if_neg hkind] at h
  by_cases hcapacity : kw = "capacity".toList
  · subst hcapacity
    rw [if_pos rfl] at h
    refine recordsChannel_bounded (s := .capacity) h rfl (fun n hle => ?_) (fun n s hs => ?_)
      fun n _ hs => ⟨hs.names, hs.writes⟩
    · exact congrArg (fun n => some (Number.uint n)) (toNat_toUInt16 (hle _ rfl))
    · cases s with
      | capacity => exact absurd rfl hs
      | _ => rfl
  rw [if_neg hcapacity] at h
  by_cases hitem : kw = "per_item_max".toList
  · subst hitem
    rw [if_pos rfl] at h
    refine recordsChannel_bounded (s := .perItemMax) h rfl (fun n _ => rfl) (fun n s hs => ?_)
      fun n _ hs => ⟨hs.names, hs.writes⟩
    cases s with
    | perItemMax => exact absurd rfl hs
    | _ => rfl
  rw [if_neg hitem] at h
  by_cases hname : kw = "name_max".toList
  · subst hname
    rw [if_pos rfl] at h
    refine recordsChannel_bounded (s := .nameMax) h rfl (fun n hle => ?_) (fun n s hs => ?_)
      fun n _ hs => ⟨hs.names, hs.writes⟩
    · exact congrArg (fun n => some (Number.uint n)) (toNat_toUInt16 (hle _ rfl))
    · cases s with
      | nameMax => exact absurd rfl hs
      | _ => rfl
  rw [if_neg hname] at h
  cases h

/-- A property of a channel records the number it sets. -/
theorem recordsChannel_prop (h : parseChannelProp bits p ch tok = .ok ch') :
    RecordsChannel bits (propNumerals ch tok) ch.stored ch'.stored ∧ (ch.Sound → ch'.Sound) := by
  cases tok with
  | nil => cases h
  | cons kw args =>
    unfold propNumerals
    dsimp only
    by_cases hfield : kw = "field".toList
    · unfold parseChannelProp at h
      dsimp only at h
      rw [if_pos hfield] at h ⊢
      exact recordsChannel_field h
    by_cases hanimate : kw = "animate".toList
    · unfold parseChannelProp at h
      dsimp only at h
      rw [if_neg hfield, if_pos hanimate] at h ⊢
      obtain ⟨kw', name, kindStr, hz, p2, p3, j, htok, hj, hrecords, hs⟩ := recordsChannel_animate h
      obtain ⟨rfl, rfl⟩ := List.cons.inj htok
      dsimp only
      rw [hj]
      exact ⟨hrecords, hs⟩
    rw [if_neg hfield, if_neg hanimate]
    split
    · exact recordsChannel_value hfield hanimate h
    · rename_i hargs
      unfold parseChannelProp at h
      dsimp only at h
      rw [if_neg hfield, if_neg hanimate] at h
      split at h
      · exact absurd rfl (hargs _)
      · cases h

end

/-! ## Lines -/

section

variable {bits : Nat} {p : Place} {path : String} {cfg cfg' : HubConfig} {ch ch' : ChannelConfig} {st st' : ParseState}
  {tok : List Token} {l : List Char} {ls : List (List Char)}

abbrev RecordsHub (bits : Nat) (log : List (Slot × Token)) (before after : Slot → Option Number) : Prop :=
  Records (fun s => tokenValue bits s.isFloat) Slot.isLimit log before after

theorem channel_injective (i : Nat) : Function.Injective (Slot.channel i) := fun _ _ h => (Slot.channel.inj h).2

/-- One of the channels is another, or is new. -/
theorem recordsHub_channels {channels : List ChannelConfig} {i : Nat} {log : List (ChannelSlot × Token)}
    (hother : ∀ k, k ≠ i → channels[k]? = cfg.channels[k]?)
    (h : RecordsChannel bits log (fun s => cfg.channels[i]?.bind fun ch => ch.stored s)
      fun s => channels[i]?.bind fun ch => ch.stored s) :
    RecordsHub bits (log.map fun e => (.channel i e.1, e.2)) cfg.stored { cfg with channels }.stored := by
  refine Records.lift (channel_injective i) (fun _ => rfl) (fun _ => rfl) h fun s hs => ?_
  cases s with
  | hubEchoDelay => rfl
  | channel k s =>
    have hk : k ≠ i := fun hk => hs s (by rw [hk])
    rw [HubConfig.stored, HubConfig.stored, hother k hk]

/-- A channel is changed. -/
theorem recordsHub_set {i : Nat} {log : List (ChannelSlot × Token)} (hi : cfg.channels[i]? = some ch)
    (h : RecordsChannel bits log ch.stored ch'.stored) :
    RecordsHub bits (log.map fun e => (.channel i e.1, e.2)) cfg.stored
      { cfg with channels := cfg.channels.set i ch' }.stored := by
  refine recordsHub_channels (fun k hk => List.getElem?_set_ne hk.symm) ?_
  rw [List.getElem?_set_self (List.getElem?_eq_some_iff.mp hi).1, hi]
  exact h

/-- A channel is added; what its header says is its id. -/
theorem recordsHub_push {log : List (ChannelSlot × Token)} (h : RecordsChannel bits log (fun _ => none) ch.stored) :
    RecordsHub bits (log.map fun e => (.channel cfg.channels.length e.1, e.2)) cfg.stored
      { cfg with channels := cfg.channels ++ [ch] }.stored := by
  refine recordsHub_channels (fun k hk => getElem?_concat_ne cfg.channels ch hk) ?_
  rw [List.getElem?_eq_none (Nat.le_refl _), List.getElem?_concat_length]
  exact h

/-- A property of the hub records the number it sets. -/
theorem recordsHub_prop (h : parseHubProp bits p cfg tok = .ok cfg') :
    ∃ kw v, tok = [kw, v] ∧ cfg'.channels = cfg.channels ∧
      RecordsHub bits (if kw = "echo_delay_ms".toList then [(.hubEchoDelay, v)] else []) cfg.stored cfg'.stored := by
  unfold parseHubProp at h
  split at h
  · cases h
  · rename_i kw v
    refine ⟨kw, v, rfl, ?_⟩
    by_cases hname : kw = "name".toList
    · subst hname
      rw [if_pos rfl] at h
      cases h
      exact ⟨rfl, records_refl _⟩
    rw [if_neg hname] at h
    by_cases hversion : kw = "fw_version".toList
    · subst hversion
      rw [if_pos rfl] at h
      cases h
      exact ⟨rfl, records_refl _⟩
    rw [if_neg hversion] at h
    by_cases hproduct : kw = "product".toList
    · subst hproduct
      rw [if_pos rfl] at h
      cases h
      exact ⟨rfl, records_refl _⟩
    rw [if_neg hproduct] at h
    by_cases hecho : kw = "echo_delay_ms".toList
    · rw [if_pos hecho] at h ⊢
      obtain ⟨ms, hms, h⟩ := bind_eq_ok.mp h
      cases h
      obtain ⟨rfl, -⟩ := parseBounded_ok hms
      refine ⟨rfl, records_single rfl fun s hs => ?_⟩
      cases s with
      | hubEchoDelay => exact absurd rfl hs
      | channel i s => rfl
    · rw [if_neg hecho] at h
      cases h
  · cases h

/-- A block opens with the id it is given. -/
theorem parseBlock_ok {cls : SlopBench.ClassKind} {kw : Token} {args : List Token} (h : parseBlock bits p cls kw args = .ok ch) :
    RecordsChannel bits ((args.take 1).map fun t => (.id, t)) (fun _ => none) ch.stored ∧ ch.Sound := by
  unfold parseBlock at h
  split at h
  · rename_i idStr name
    dsimp only at h
    split at h
    · cases h
    · rename_i hid
      rw [not_or] at hid
      cases h
      refine ⟨fun s => ?_, ⟨List.nodup_nil, nofun⟩⟩
      cases s with
      | id => exact congrArg (fun n => some (Number.uint n)) (toNat_toUInt16 (UInt32.not_lt.mp hid.2))
      | field j s => exact ⟨nofun, fun _ => rfl⟩
      | _ => exact ⟨nofun, nofun⟩
  · cases h

/-- What holds between two lines. -/
structure ParseState.Sound (st : ParseState) : Prop where
  channels : ∀ ch ∈ st.out.channels, ch.Sound
  mode : ∀ i, st.mode = .channel i → i < st.out.channels.length

/-- A line of tokens records its numbers, wherever it stands. -/
theorem recordsHub_tokens (h : parseTokens bits p st tok = .ok st') :
    RecordsHub bits (tokenNumerals st tok) st.out.stored st'.out.stored ∧ (st.Sound → st'.Sound) := by
  cases tok with
  | nil => cases h
  | cons kw args =>
    rw [parseTokens] at h
    rw [tokenNumerals]
    by_cases hhub : kw = "hub".toList
    · rw [if_pos hhub] at h ⊢
      cases h
      exact ⟨records_refl _, fun hs => ⟨hs.channels, fun i hi => by cases hi⟩⟩
    rw [if_neg hhub] at h ⊢
    cases hcls : classFromKeyword kw with
    | some cls =>
      rw [hcls] at h
      obtain ⟨ch, hblock, h⟩ := bind_eq_ok.mp h
      cases h
      obtain ⟨hrecords, hsound⟩ := parseBlock_ok hblock
      rw [Option.isSome_some, if_pos rfl]
      refine ⟨?_, fun hs => ⟨fun ch' hmem => ?_, fun i hi => ?_⟩⟩
      · have hpush : RecordsHub bits _ st.out.stored { st.out with channels := st.out.channels ++ [ch] }.stored :=
          recordsHub_push hrecords
        rwa [List.map_map] at hpush
      · rcases List.mem_append.mp hmem with hmem | hmem
        · exact hs.channels ch' hmem
        · rw [List.mem_singleton.mp hmem]
          exact hsound
      · cases hi
        rw [List.length_append, List.length_singleton]
        exact Nat.lt_succ_self _
    | none =>
      rw [hcls] at h
      rw [Option.isSome_none, if_neg Bool.false_ne_true]
      cases hmode : st.mode with
      | none =>
        rw [hmode] at h
        cases h
      | hub =>
        rw [hmode] at h
        obtain ⟨out, hprop, h⟩ := bind_eq_ok.mp h
        cases h
        obtain ⟨kw', v, htok, hchannels, hrecords⟩ := recordsHub_prop hprop
        obtain ⟨rfl, rfl⟩ := List.cons.inj htok
        refine ⟨hrecords, fun hs => ⟨?_, fun i hi => ?_⟩⟩
        · dsimp only
          rw [hchannels]
          exact hs.channels
        · cases hi
      | channel i =>
        rw [hmode] at h
        dsimp only at h ⊢
        cases hi : st.out.channels[i]? with
        | none =>
          rw [hi] at h
          cases h
        | some ch =>
          rw [hi] at h
          obtain ⟨ch', hprop, h⟩ := bind_eq_ok.mp h
          cases h
          obtain ⟨hrecords, hsound⟩ := recordsChannel_prop hprop
          refine ⟨recordsHub_set hi hrecords, fun hs => ⟨fun c hc => ?_, fun j hj => ?_⟩⟩
          · rcases List.mem_or_eq_of_mem_set hc with hc | rfl
            · exact hs.channels c hc
            · exact hsound (hs.channels ch (List.mem_of_getElem? hi))
          · dsimp only at hj ⊢
            rw [List.length_set]
            exact hs.mode j (hmode.trans hj)

/-- A line of the file records its numbers. -/
theorem recordsHub_line (h : parseLine bits path st l = .ok st') :
    RecordsHub bits (lineNumerals st l) st.out.stored st'.out.stored ∧ (st.Sound → st'.Sound) := by
  unfold parseLine at h
  unfold lineNumerals
  dsimp only at h
  split at h
  · rename_i hempty
    cases h
    rw [if_pos hempty]
    exact ⟨records_refl _, fun hs => ⟨hs.channels, hs.mode⟩⟩
  · rename_i hempty
    rw [if_neg hempty]
    obtain ⟨hrecords, hsound⟩ := recordsHub_tokens h
    exact ⟨hrecords, fun hs => hsound ⟨hs.channels, hs.mode⟩⟩

/-- **The log of the lines accounts for what they store.** -/
theorem records_run (h : ls.foldlM (parseLine bits path) st = .ok st') :
    RecordsHub bits (numerals bits path st ls) st.out.stored st'.out.stored ∧ (st.Sound → st'.Sound) := by
  induction ls generalizing st with
  | nil =>
    cases h
    exact ⟨records_refl _, id⟩
  | cons l ls ih =>
    rw [List.foldlM_cons] at h
    obtain ⟨st₁, hline, hrest⟩ := bind_eq_ok.mp h
    obtain ⟨hfirst, hsound⟩ := recordsHub_line hline
    obtain ⟨hlater, hsound'⟩ := ih hrest
    rw [numerals, hline]
    exact ⟨hfirst.append hlater, fun hs => hsound' (hsound hs)⟩

theorem sound_start : ({} : ParseState).Sound where
  channels _ h := absurd h List.not_mem_nil
  mode _ h := Mode.noConfusion h

end

end SlopSync.BenchConfig
