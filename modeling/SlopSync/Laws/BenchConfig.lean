import SlopSync.SlopBench.Stored

/-! # The bench configuration stores what its file says

* `agreed_iff` — every slot holds what each of its tokens writes, and every minimum is at most its maximum, just when the
  tokens themselves agree.
* `wellFormed_of_validate` — what the cross references promise.
* `located_line`, `load_error` — an error names a line of the file or one of its channels. -/

namespace SlopSync.BenchConfig

/-! ## Tokens -/

section

variable {bits n : Nat} {t : Token} {q : ℚ}

/-- Digits behind a sign or a prefix.  A minus sign is harmless before a zero. -/
theorem parseUintTok_digits {base : Nat} {negative : Bool} {u ds : Token} (hbits : 32 ≤ bits)
    (hchars : ∀ c ∈ t, c ≠ '\x00' ∧ isSpace c = false) (hne : t ≠ [])
    (hbase : (if hasHexPrefix t then 16 else 10) = base)
    (hsign : sign t = (negative, u)) (hnoHex : (if base = 16 then hexPrefix u else u) = ds) (h : ds ≠ [])
    (hds : ∀ c ∈ ds, isDigit base c = true) (hlt : digitsValue base ds < 2 ^ 32)
    (hzero : negative = true → digitsValue base ds = 0) : (parseUintTok bits t).1.toNat = digitsValue base ds := by
  have hpow : 2 ^ 32 ≤ 2 ^ bits := Nat.pow_le_pow_right (by decide) hbits
  have hnumber : strtoul bits base t = (digitsValue base ds, []) := by
    rw [strtoul_digits (dropSpace_eq fun c hc => (hchars c hc).2) hsign hnoHex h hds,
      if_neg (Nat.not_le.mpr (Nat.lt_of_lt_of_le hlt hpow))]
    cases negative with
    | false => rfl
    | true =>
      rw [hzero rfl, if_pos rfl, Nat.sub_zero, Nat.mod_self]
  unfold parseUintTok
  rw [if_neg hne, cString_eq fun c hc => (hchars c hc).1, hbase]
  dsimp only
  rw [hnumber]
  exact UInt32.toNat_ofNat_of_lt' hlt

/-- Digits are neither blanks nor NUL. -/
theorem chars_digits {base : Nat} {ds : Token} (hbase : base ≤ 16) (hds : ∀ c ∈ ds, isDigit base c = true) :
    ∀ c ∈ ds, c ≠ '\x00' ∧ isSpace c = false := fun c hc =>
  ⟨(ne_of_isDigit hbase (hds c hc)).2.1, (ne_of_isDigit hbase (hds c hc)).1⟩

theorem chars_cons {c : Char} {ds : Token} (hc : c ≠ '\x00' ∧ isSpace c = false)
    (hds : ∀ c ∈ ds, c ≠ '\x00' ∧ isSpace c = false) : ∀ d ∈ c :: ds, d ≠ '\x00' ∧ isSpace d = false :=
  List.forall_mem_cons.mpr ⟨hc, hds⟩

/-- Decimal digits never look like a hex prefix. -/
theorem hasHexPrefix_decimal {ds : Token} (hds : ∀ c ∈ ds, isDigit 10 c = true) : hasHexPrefix ds = false := by
  unfold hasHexPrefix
  have hne : ∀ x : Char, isDigit 10 x = false → ds[1]? ≠ some x := by
    intro x hx hget
    rw [hds x (List.mem_of_getElem? hget)] at hx
    cases hx
  rw [decide_eq_false (hne 'x' (by decide)), decide_eq_false (hne 'X' (by decide)), Bool.or_self, Bool.and_false]

theorem hasHexPrefix_sign {c : Char} (hc : c ≠ '0') (ds : Token) : hasHexPrefix (c :: ds) = false := by
  unfold hasHexPrefix
  have hne : (c :: ds)[0]? ≠ some '0' := fun h => hc (Option.some.inj h)
  rw [decide_eq_false hne, Bool.and_false, Bool.false_and]

/-- An integer below `2 ^ 32` is read as it stands, whatever the width of an `unsigned long`. -/
theorem parseUintTok_integer (hbits : 32 ≤ bits) (h : IsInteger t n) (hn : n < 2 ^ 32) :
    (parseUintTok bits t).1.toNat = n := by
  generalize hz : (n : ℤ) = z at h
  cases h with
  | decimal h hds =>
    obtain rfl : n = digitsValue 10 t := Int.ofNat.inj hz
    have hbase : (if hasHexPrefix t then 16 else 10) = 10 := by
      rw [hasHexPrefix_decimal hds]
      rfl
    exact parseUintTok_digits hbits (chars_digits (by decide) hds) h hbase (sign_digits (by decide) hds)
      (if_neg (by decide)) h hds hn nofun
  | @plus ds h hds =>
    obtain rfl : n = digitsValue 10 ds := Int.ofNat.inj hz
    have hbase : (if hasHexPrefix ('+' :: ds) then 16 else 10) = 10 := by
      rw [hasHexPrefix_sign (by decide)]
      rfl
    have hsign : sign ('+' :: ds) = (false, ds) := rfl
    exact parseUintTok_digits hbits (chars_cons (by decide) (chars_digits (by decide) hds)) (List.cons_ne_nil _ _) hbase hsign
      (if_neg (by decide)) h hds hn nofun
  | @minus ds h hds =>
    obtain ⟨hzero, rfl⟩ : digitsValue 10 ds = 0 ∧ n = 0 := by omega
    have hbase : (if hasHexPrefix ('-' :: ds) then 16 else 10) = 10 := by
      rw [hasHexPrefix_sign (by decide)]
      rfl
    have hsign : sign ('-' :: ds) = (true, ds) := rfl
    exact (parseUintTok_digits hbits (chars_cons (by decide) (chars_digits (by decide) hds)) (List.cons_ne_nil _ _) hbase hsign
      (if_neg (by decide)) h hds (by omega) fun _ => hzero).trans hzero
  | @hex ds x hx h hds =>
    obtain rfl : n = digitsValue 16 ds := Int.ofNat.inj hz
    obtain ⟨d, more, rfl⟩ := List.exists_cons_of_ne_nil h
    have hxchar : x ≠ '\x00' ∧ isSpace x = false := by
      rcases hx with rfl | rfl
      · decide
      · decide
    have hbase : (if hasHexPrefix ('0' :: x :: d :: more) then 16 else 10) = 16 := by
      rcases hx with rfl | rfl
      · exact if_pos (by simp [hasHexPrefix])
      · exact if_pos (by simp [hasHexPrefix])
    have hsign : sign ('0' :: x :: d :: more) = (false, '0' :: x :: d :: more) := rfl
    have hnoHex : hexPrefix ('0' :: x :: d :: more) = d :: more := if_pos ⟨hx, hds d List.mem_cons_self⟩
    exact parseUintTok_digits hbits (chars_cons (by decide) (chars_cons hxchar (chars_digits (by decide) hds)))
      (List.cons_ne_nil _ _) hbase hsign ((if_pos rfl).trans hnoHex) h hds hn nofun

/-- On a number, `strtod` returns the nearest float to it. -/
theorem parseFloatTok_number (h : IsNumber t q) : (parseFloatTok t).1 = .nearest q := by
  have hne : t ≠ [] := by
    rintro rfl
    obtain ⟨-, r, hliteral, -⟩ := h
    cases hliteral
  rw [parseFloatTok, if_neg hne, strtof_number h]

end

/-! ## Stored numbers -/

/-- The token writes the number: exactly, or the nearest `float` to it. -/
def Exact (t : Token) : Number → Prop
  | .uint n => IsInteger t n
  | .float x => ∃ q, IsNumber t q ∧ x = .nearest q ∧ x.finite = true

/-- The configuration holds what the tokens write. -/
def Stores (cfg : HubConfig) (log : List (Slot × Token)) : Prop :=
  ∀ e ∈ log, ∃ v, cfg.stored e.1 = some v ∧ Exact e.2 v

def HubConfig.Ordered (cfg : HubConfig) : Prop :=
  ∀ ch ∈ cfg.channels, ∀ f ∈ ch.fields, ∀ a b, f.min = some a → f.max = some b → a.le b = true

/-- Two tokens write one number, which fits 32 bits or a `float`. -/
def Agree (isFloat : Bool) (t t' : Token) : Prop :=
  if isFloat then ∃ q q', IsNumber t q ∧ IsNumber t' q' ∧ F32.nearest q = F32.nearest q' ∧ (F32.nearest q).finite = true
  else ∃ n : Nat, n < 2 ^ 32 ∧ IsInteger t n ∧ IsInteger t' n

/-- All tokens of a slot write one number, and no minimum is above its maximum. -/
structure Agreed (log : List (Slot × Token)) : Prop where
  slots : ∀ e ∈ log, ∀ e' ∈ log, e.1 = e'.1 → Agree e.1.isFloat e.2 e'.2
  limits : ∀ i j t t', (.channel i (.field j .min), t) ∈ log → (.channel i (.field j .max), t') ∈ log →
    ∃ q q', IsNumber t q ∧ IsNumber t' q' ∧ (F32.nearest q).le (F32.nearest q') = true

section

variable {bits : Nat} {cfg : HubConfig} {log : List (Slot × Token)}

theorem lookup_mem {s : Slot} {t : Token} (h : log.lookup s = some t) : (s, t) ∈ log := by
  obtain ⟨l₁, l₂, rfl, -⟩ := List.lookup_eq_some_iff.mp h
  exact List.mem_append_right l₁ List.mem_cons_self

/-- What a log holds can be looked up in it. -/
theorem exists_lookup {e : Slot × Token} (h : e ∈ log) : ∃ t, log.lookup e.1 = some t :=
  Option.isSome_iff_exists.mp (List.lookup_isSome_iff.mpr ⟨e, h, beq_self_eq_true e.1⟩)

/-- A slot in the log holds what the parser makes of its last token. -/
theorem stored_of_mem (hrecords : RecordsHub bits log (({} : HubConfig).stored) cfg.stored) {e : Slot × Token} (h : e ∈ log) :
    ∃ t, (e.1, t) ∈ log ∧ cfg.stored e.1 = some (tokenValue bits e.1.isFloat t) := by
  obtain ⟨t, ht⟩ := exists_lookup h
  have hs := hrecords e.1
  rw [ht] at hs
  exact ⟨t, lookup_mem ht, hs⟩

/-- A limit comes from the log. -/
theorem mem_of_stored (hrecords : RecordsHub bits log (({} : HubConfig).stored) cfg.stored) {i j : Nat} {s : FieldSlot}
    {v : Number} (hlimit : s.isLimit = true) (h : cfg.stored (.channel i (.field j s)) = some v) :
    ∃ t, (Slot.channel i (.field j s), t) ∈ log ∧ v = .float (parseFloatTok t).1 := by
  have hs := hrecords (.channel i (.field j s))
  cases hlookup : log.lookup (.channel i (.field j s)) with
  | some t =>
    rw [hlookup] at hs
    refine ⟨t, lookup_mem hlookup, ?_⟩
    have hfloat : s.isFloat = true := by
      cases s <;> first | rfl | cases hlimit
    rw [h] at hs
    have hv := Option.some.inj hs
    rw [hv]
    exact if_pos hfloat
  | none =>
    rw [hlookup] at hs
    rw [hs.2 hlimit] at h
    cases h

/-- Every value of the file is stored exactly when the lines that set one slot agree. -/
theorem stores_iff (hbits : 32 ≤ bits) (hrecords : RecordsHub bits log (({} : HubConfig).stored) cfg.stored) :
    Stores cfg log ↔ ∀ e ∈ log, ∀ e' ∈ log, e.1 = e'.1 → Agree e.1.isFloat e.2 e'.2 := by
  constructor
  · intro h e he e' he' hslot
    obtain ⟨v, hv, hexact⟩ := h e he
    obtain ⟨v', hv', hexact'⟩ := h e' he'
    obtain ⟨t, -, ht⟩ := stored_of_mem hrecords he
    rw [← hslot, hv] at hv'
    cases hv'
    rw [ht] at hv
    cases hv
    unfold Agree
    unfold tokenValue at hexact hexact'
    split
    · rename_i hfloat
      rw [if_pos hfloat] at hexact hexact'
      obtain ⟨q, hq, hx, hfinite⟩ := hexact
      obtain ⟨q', hq', hx', -⟩ := hexact'
      exact ⟨q, q', hq, hq', hx.symm.trans hx', by rwa [← hx]⟩
    · rename_i hfloat
      rw [if_neg hfloat] at hexact hexact'
      exact ⟨_, UInt32.toNat_lt _, hexact, hexact'⟩
  · intro h e he
    obtain ⟨t, hmem, ht⟩ := stored_of_mem hrecords he
    have hagree := h e he _ hmem rfl
    refine ⟨_, ht, ?_⟩
    unfold Agree at hagree
    unfold tokenValue
    split
    · rename_i hfloat
      rw [if_pos hfloat] at hagree
      obtain ⟨q, q', hq, hq', hnearest, hfinite⟩ := hagree
      rw [parseFloatTok_number hq']
      exact ⟨q, hq, hnearest.symm, by rwa [← hnearest]⟩
    · rename_i hfloat
      rw [if_neg hfloat] at hagree
      obtain ⟨n, hn, hint, hint'⟩ := hagree
      rw [parseUintTok_integer hbits hint' hn]
      exact hint

/-- **The configuration holds what the file writes just when the tokens agree.** -/
theorem agreed_iff (hbits : 32 ≤ bits) (hrecords : RecordsHub bits log (({} : HubConfig).stored) cfg.stored) :
    Stores cfg log ∧ cfg.Ordered ↔ Agreed log := by
  constructor
  · rintro ⟨hstores, hordered⟩
    refine ⟨(stores_iff hbits hrecords).mp hstores, fun i j t t' ht ht' => ?_⟩
    obtain ⟨v, hv, hexact⟩ := hstores _ ht
    obtain ⟨v', hv', hexact'⟩ := hstores _ ht'
    dsimp only [HubConfig.stored, ChannelConfig.stored] at hv hv'
    obtain ⟨ch, hch, hv⟩ := Option.bind_eq_some_iff.mp hv
    obtain ⟨f, hf, hv⟩ := Option.bind_eq_some_iff.mp hv
    rw [hch, Option.bind_some, hf, Option.bind_some] at hv'
    obtain ⟨a, ha, rfl⟩ := Option.map_eq_some_iff.mp hv
    obtain ⟨b, hb, rfl⟩ := Option.map_eq_some_iff.mp hv'
    obtain ⟨q, hq, rfl, -⟩ := hexact
    obtain ⟨q', hq', rfl, -⟩ := hexact'
    exact ⟨q, q', hq, hq', hordered ch (List.mem_of_getElem? hch) f (List.mem_of_getElem? hf) _ _ ha hb⟩
  · intro h
    refine ⟨(stores_iff hbits hrecords).mpr h.slots, fun ch hch f hf a b ha hb => ?_⟩
    obtain ⟨i, hi⟩ := List.mem_iff_getElem?.mp hch
    obtain ⟨j, hj⟩ := List.mem_iff_getElem?.mp hf
    have hmin : cfg.stored (.channel i (.field j .min)) = some (.float a) := by
      rw [HubConfig.stored, hi, Option.bind_some, ChannelConfig.stored, hj, Option.bind_some, FieldConfig.stored, ha]
      rfl
    have hmax : cfg.stored (.channel i (.field j .max)) = some (.float b) := by
      rw [HubConfig.stored, hi, Option.bind_some, ChannelConfig.stored, hj, Option.bind_some, FieldConfig.stored, hb]
      rfl
    obtain ⟨t, ht, hta⟩ := mem_of_stored hrecords rfl hmin
    obtain ⟨t', ht', htb⟩ := mem_of_stored hrecords rfl hmax
    cases hta
    cases htb
    obtain ⟨q, q', hq, hq', hle⟩ := h.limits i j t t' ht ht'
    rwa [parseFloatTok_number hq, parseFloatTok_number hq']

end

/-! ## Cross references -/

/-- The key of a field of an INTENT or EVENT channel. -/
def FieldConfig.wireKey (f : FieldConfig) : Nat := (f.key.getD 0).toNat

structure HubConfig.WellFormed (cfg : HubConfig) : Prop where
  ids : (cfg.channels.map ChannelConfig.id).Nodup
  reserved : ∀ ch ∈ cfg.channels, 0x80 ≤ ch.id.toNat
  keys : ∀ ch ∈ cfg.channels, ch.cls = .intent ∨ ch.cls = .event → (ch.fields.map FieldConfig.wireKey).Pairwise (· < ·)
  names : ∀ ch ∈ cfg.channels, (ch.fields.map FieldConfig.name).Nodup
  writes : ∀ ch ∈ cfg.channels, ∀ id, ch.writes = some id → ∃ target ∈ cfg.channels, target.id = id ∧ target.cls = .state

section

variable {cfg : HubConfig} {ch : ChannelConfig} {channels : List ChannelConfig} {fields : List FieldConfig}
  {seenIds : List UInt16} {last : Option UInt8} {u : Unit}

/-- Keys that pass the check ascend strictly, from above the last key seen. -/
theorem validateKeys_ok (h : validateKeys ch last fields = .ok u) :
    (∀ f ∈ fields, ∀ k, last = some k → k.toNat < f.wireKey) ∧ (fields.map FieldConfig.wireKey).Pairwise (· < ·) := by
  induction fields generalizing last with
  | nil => exact ⟨fun f hf => absurd hf List.not_mem_nil, .nil⟩
  | cons f fields ih =>
    have hrest : validateKeys ch (some (f.key.getD 0)) fields = .ok u ∧ ∀ k, last = some k → k.toNat < f.wireKey := by
      unfold validateKeys at h
      dsimp only at h
      split at h
      · rename_i k
        split at h
        · cases h
        · rename_i hkey
          refine ⟨h, fun k' hk' => ?_⟩
          cases hk'
          exact UInt8.lt_iff_toNat_lt.mp (UInt8.not_le.mp hkey)
      · exact ⟨h, nofun⟩
    obtain ⟨hall, hpairwise⟩ := ih hrest.1
    have hafter : ∀ g ∈ fields, f.wireKey < g.wireKey := fun g hg => hall g hg _ rfl
    refine ⟨fun g hg k hk => ?_, ?_⟩
    · rcases List.mem_cons.mp hg with rfl | hg
      · exact hrest.2 k hk
      · exact Nat.lt_trans (hrest.2 k hk) (hafter g hg)
    · rw [List.map_cons]
      exact List.pairwise_cons.mpr ⟨fun k hk => by
        obtain ⟨g, hg, rfl⟩ := List.mem_map.mp hk
        exact hafter g hg, hpairwise⟩

/-- Ids that pass are at least 0x80 and new, and their channels' keys ascend where keys matter. -/
theorem validateIds_ok (h : validateIds seenIds channels = .ok u) :
    (∀ ch ∈ channels, 0x80 ≤ ch.id.toNat ∧ ch.id ∉ seenIds ∧
      (ch.cls = .intent ∨ ch.cls = .event → (ch.fields.map FieldConfig.wireKey).Pairwise (· < ·))) ∧
      (channels.map ChannelConfig.id).Nodup := by
  induction channels generalizing seenIds with
  | nil => exact ⟨fun c hc => absurd hc List.not_mem_nil, List.nodup_nil⟩
  | cons ch channels ih =>
    unfold validateIds at h
    split at h
    · cases h
    rename_i hid
    split at h
    · cases h
    rename_i hfresh
    obtain ⟨v, hkeys, hrest⟩ := bind_eq_ok.mp h
    obtain ⟨hall, hnodup⟩ := ih hrest
    refine ⟨List.forall_mem_cons.mpr ⟨⟨?_, hfresh, fun hcls => ?_⟩, fun c hc => ?_⟩, ?_⟩
    · exact UInt16.le_iff_toNat_le.mp (UInt16.not_lt.mp hid)
    · rw [validateFields, if_pos hcls] at hkeys
      exact (validateKeys_ok hkeys).2
    · obtain ⟨hle, hnot, hc⟩ := hall c hc
      exact ⟨hle, fun hmem => hnot (List.mem_cons_of_mem _ hmem), hc⟩
    · rw [List.map_cons]
      refine List.nodup_cons.mpr ⟨fun hmem => ?_, hnodup⟩
      obtain ⟨c, hc, heq⟩ := List.mem_map.mp hmem
      exact (hall c hc).2.1 (heq ▸ List.mem_cons_self)

/-- A `writes` that passes names a STATE channel of the file. -/
theorem validateWrites_ok (h : validateWrites cfg channels = .ok u) {id : UInt16} (hch : ch ∈ channels)
    (hcls : ch.cls = .intent) (hwrites : ch.writes = some id) :
    ∃ target ∈ cfg.channels, target.id = id ∧ target.cls = .state := by
  induction channels with
  | nil => cases hch
  | cons c channels ih =>
    unfold validateWrites at h
    rcases List.mem_cons.mp hch with rfl | hch
    · rw [if_neg (not_not_intro hcls), hwrites] at h
      dsimp only at h
      split at h
      · cases h
      · rename_i target hfind
        split at h
        · cases h
        · rename_i hstate
          exact ⟨target, List.mem_of_find?_eq_some hfind, by simpa using List.find?_some hfind, not_ne_iff.mp hstate⟩
    · refine ih ?_ hch
      split at h
      · exact h
      · split at h
        · exact h
        · split at h
          · cases h
          · split at h
            · cases h
            · exact h

/-- So a configuration that passes is well formed. -/
theorem wellFormed_of_validate (hsound : ∀ ch ∈ cfg.channels, ch.Sound) (h : validate cfg = .ok u) : cfg.WellFormed := by
  obtain ⟨v, hids, hwrites⟩ := bind_eq_ok.mp h
  obtain ⟨hall, hnodup⟩ := validateIds_ok hids
  refine ⟨hnodup, fun ch hch => (hall ch hch).1, fun ch hch => (hall ch hch).2.2, fun ch hch => (hsound ch hch).names, ?_⟩
  intro ch hch id hid
  exact validateWrites_ok hwrites hch ((hsound ch hch).writes (by rw [hid]; rfl)) hid

end

/-! ## Errors -/

/-- An error of a line, in the two shapes it has. -/
def Place.Names (p : Place) (e : Failure) : Prop :=
  ∃ msg, e = .error (p.path ++ ":" ++ toString p.lineNo ++ ": " ++ msg) ∨
    e = .error ("line " ++ toString p.lineNo ++ ": " ++ msg)

/-- Whatever fails names the line. -/
def Located {α : Type} (p : Place) (x : Except Failure α) : Prop := ∀ e, x = .error e → p.Names e

section

variable {bits : Nat} {p : Place} {path : String} {cfg : HubConfig} {ch : ChannelConfig} {st st' : ParseState} {kw : Token}
  {tok args : List Token} {l : List Char} {ls : List (List Char)} {e : Failure}

theorem located_ok {α : Type} (a : α) : Located p (.ok a) := nofun

/-- Every failure raised at a place names that place. -/
theorem located_fail {α : Type} (msg : String) : Located p (p.fail msg : Except Failure α) := by
  intro e he
  cases he
  exact ⟨msg, .inl rfl⟩

theorem located_failLine {α : Type} (msg : String) : Located p (p.failLine msg : Except Failure α) := by
  intro e he
  cases he
  exact ⟨msg, .inr rfl⟩

/-- Failures of a sequence are located when those of its parts are. -/
theorem located_bind {α β : Type} {x : Except Failure α} {f : α → Except Failure β} (hx : Located p x)
    (hf : ∀ a, Located p (f a)) : Located p (x >>= f) := by
  intro e he
  rcases bind_eq_error.mp he with he | ⟨a, -, he⟩
  · exact hx e he
  · exact hf a e he

theorem located_ite {α : Type} {c : Prop} [Decidable c] {x y : Except Failure α} (hx : Located p x) (hy : Located p y) :
    Located p (if c then x else y) := by
  split
  · exact hx
  · exact hy

/-- Failures of a loop are located when those of its steps are. -/
theorem located_foldlM {α β : Type} {f : β → α → Except Failure β} (hf : ∀ b a, Located p (f b a)) :
    ∀ (l : List α) (b : β), Located p (l.foldlM f b)
  | [], b => located_ok b
  | a :: l, b => by
    rw [List.foldlM_cons]
    exact located_bind (hf b a) fun b' => located_foldlM hf l b'

/-- An attribute that does not parse is reported with its line. -/
theorem located_attr (f : FieldConfig) (t : Token) : Located p (parseAttr bits p f t) := by
  unfold parseAttr
  refine located_ite (located_ite ?_ (located_ite ?_ (located_fail _))) (located_ite (located_fail _) ?_)
  · exact located_ite (located_fail _) (located_ok _)
  · exact located_ite (located_fail _) (located_ok _)
  · exact located_ite (located_ok _) (located_ite (located_ok _) (located_fail _))

/-- A field that cannot be created is reported with its line. -/
theorem located_newField (cls : SlopBench.ClassKind) (name typeStr unit : Token) :
    Located p (newField p cls name typeStr unit) := by
  unfold newField
  refine located_ite ?_ ?_
  · split
    · exact located_fail _
    · exact located_ok _
  · split
    · exact located_fail _
    · exact located_ok _

/-- A field that fails its check is reported with its line. -/
theorem located_checkField (cls : SlopBench.ClassKind) (f : FieldConfig) : Located p (checkField p cls f) :=
  located_ite (located_fail _) (located_ite (located_fail _) (located_ite (located_fail _) (located_ok _)))

/-- Any error of a field line names the line. -/
theorem located_fieldLine : Located p (parseFieldLine bits p ch tok) := by
  unfold parseFieldLine
  refine located_ite (located_fail _) ?_
  split
  · refine located_ite (located_fail _) (located_bind (located_newField _ _ _ _) fun f₀ => ?_)
    refine located_bind (located_foldlM located_attr _ f₀) fun f => ?_
    exact located_bind (located_checkField _ f) fun _ => located_ok _
  · exact located_fail _

theorem located_animateLine : Located p (parseAnimateLine p ch tok) := by
  unfold parseAnimateLine
  refine located_ite (located_fail _) ?_
  split
  · split
    · exact located_fail _
    · split
      · exact located_fail _
      · exact located_ite (located_fail _) (located_ok _)
  · exact located_fail _

theorem located_bounded (limit : Option UInt32) (v : Token) (msg : String) : Located p (parseBounded bits p limit v msg) :=
  located_ite (located_fail _) (located_ok _)

theorem located_onlyFor (cls : SlopBench.ClassKind) (msg : String) : Located p (onlyFor p cls ch msg) :=
  located_ite (located_fail _) (located_ok _)

/-- Any error of a channel property names the line. -/
theorem located_channelProp : Located p (parseChannelProp bits p ch (kw :: args)) := by
  unfold parseChannelProp
  refine located_ite located_fieldLine (located_ite located_animateLine ?_)
  split
  · -- one property after the other, in the order of the source
    refine located_ite (located_ok _) (located_ite (located_ite (located_fail _) (located_ok _)) (located_ite ?_
      (located_ite ?_ (located_ite ?_ (located_ite ?_ (located_ite ?_ (located_ite ?_ (located_ite ?_ (located_fail _)))))))))
    · exact located_ite (located_ok _) (located_ite (located_ok _) (located_ite (located_ok _) (located_fail _)))
    · exact located_bind (located_onlyFor _ _) fun _ => located_bind (located_bounded _ _ _) fun _ => located_ok _
    · exact located_bind (located_onlyFor _ _) fun _ => located_bind (located_bounded _ _ _) fun _ => located_ok _
    · exact located_bind (located_onlyFor _ _) fun _ => located_ok _
    · exact located_bind (located_onlyFor _ _) fun _ => located_bind (located_bounded _ _ _) fun _ => located_ok _
    · exact located_bind (located_onlyFor _ _) fun _ => located_bind (located_bounded _ _ _) fun _ => located_ok _
    · exact located_bind (located_onlyFor _ _) fun _ => located_bind (located_bounded _ _ _) fun _ => located_ok _
  · exact located_fail _

/-- Any error of a hub property names the line. -/
theorem located_hubProp : Located p (parseHubProp bits p cfg (kw :: args)) := by
  unfold parseHubProp
  split
  · rename_i heq
    cases heq
  · refine located_ite (located_ok _) (located_ite (located_ok _) (located_ite (located_ok _) (located_ite ?_ (located_fail _))))
    exact located_bind (located_bounded _ _ _) fun _ => located_ok _
  · exact located_fail _

/-- Any error in opening a block names the line. -/
theorem located_block (cls : SlopBench.ClassKind) : Located p (parseBlock bits p cls kw args) := by
  unfold parseBlock
  split
  · exact located_ite (located_failLine _) (located_ok _)
  · exact located_failLine _

/-- So every error of a line with tokens names the line. -/
theorem located_tokens (hs : st.Sound) : Located p (parseTokens bits p st (kw :: args)) := by
  unfold parseTokens
  refine located_ite (located_ok _) ?_
  split
  · exact located_bind (located_block _) fun _ => located_ok _
  · split
    · exact located_bind located_hubProp fun _ => located_ok _
    · rename_i i hmode
      split
      · rename_i hnone
        exact absurd (hs.mode i hmode) (Nat.not_lt.mpr (List.getElem?_eq_none_iff.mp hnone))
      · exact located_bind located_channelProp fun _ => located_ok _
    · exact located_failLine _

/-- A line of vertical tabs and form feeds: it is not empty, and has no token. -/
def Blank (l : List Char) : Prop := content l ≠ [] ∧ tokenize (content l) = []

/-- A blank line is read past the end of its token array. -/
theorem parseLine_blank (h : Blank l) : parseLine bits path st l = .error .undefined := by
  unfold parseLine
  dsimp only
  rw [if_neg h.1, h.2]
  rfl

theorem located_line (hs : st.Sound) (h : ¬Blank l) : Located ⟨path, st.lineNo + 1⟩ (parseLine bits path st l) := by
  unfold parseLine
  dsimp only
  by_cases hempty : content l = []
  · rw [if_pos hempty]
    exact located_ok _
  · rw [if_neg hempty]
    obtain ⟨kw, args, htok⟩ := List.exists_cons_of_ne_nil fun hnil => h ⟨hempty, hnil⟩
    rw [htok]
    exact located_tokens ⟨hs.channels, hs.mode⟩

/-- Parsing a line's tokens leaves the line counter alone. -/
theorem lineNo_tokens (h : parseTokens bits p st tok = .ok st') : st'.lineNo = st.lineNo := by
  unfold parseTokens at h
  split at h
  · cases h
  split at h
  · cases h
    rfl
  split at h
  · obtain ⟨ch, -, h⟩ := bind_eq_ok.mp h
    cases h
    rfl
  split at h
  · obtain ⟨out, -, h⟩ := bind_eq_ok.mp h
    cases h
    rfl
  · split at h
    · cases h
    · obtain ⟨ch, -, h⟩ := bind_eq_ok.mp h
      cases h
      rfl
  · cases h

/-- Parsing a line counts it. -/
theorem lineNo_line (h : parseLine bits path st l = .ok st') : st'.lineNo = st.lineNo + 1 := by
  unfold parseLine at h
  dsimp only at h
  split at h
  · cases h
    rfl
  · exact lineNo_tokens h

/-- Parsing lines counts them all. -/
theorem lineNo_run (h : ls.foldlM (parseLine bits path) st = .ok st') : st'.lineNo = st.lineNo + ls.length := by
  induction ls generalizing st with
  | nil =>
    cases h
    rfl
  | cons l ls ih =>
    rw [List.foldlM_cons] at h
    obtain ⟨st₁, hline, hrest⟩ := bind_eq_ok.mp h
    rw [ih hrest, lineNo_line hline, List.length_cons]
    omega

/-- The line that is refused. -/
theorem run_error (h : ls.foldlM (parseLine bits path) st = .error e) :
    ∃ pre l post st', ls = pre ++ l :: post ∧ pre.foldlM (parseLine bits path) st = .ok st' ∧
      parseLine bits path st' l = .error e := by
  induction ls generalizing st with
  | nil => cases h
  | cons l ls ih =>
    rw [List.foldlM_cons] at h
    rcases bind_eq_error.mp h with hline | ⟨st₁, hline, hrest⟩
    · exact ⟨[], l, ls, st, rfl, rfl, hline⟩
    · obtain ⟨pre, l', post, st', rfl, hpre, hl'⟩ := ih hrest
      refine ⟨l :: pre, l', post, st', rfl, ?_, hl'⟩
      rw [List.foldlM_cons, hline]
      exact hpre

/-- The first line refused decides the run, whatever follows it. -/
theorem run_refused {pre post : List (List Char)} (hpre : pre.foldlM (parseLine bits path) st = .ok st')
    (hline : parseLine bits path st' l = .error e) : (pre ++ l :: post).foldlM (parseLine bits path) st = .error e := by
  rw [List.foldlM_append]
  refine bind_eq_error.mpr (.inr ⟨st', hpre, ?_⟩)
  rw [List.foldlM_cons]
  exact bind_eq_error.mpr (.inl hline)

/-! ## Errors of the cross references -/

/-- An error that names a channel, by its name or its id. -/
def NamesChannel (channels : List ChannelConfig) (e : Failure) : Prop :=
  ∃ ch ∈ channels, (∃ msg, e = .error ("channel " ++ quoted ch.name ++ msg) ∨ e = .error ("intent " ++ quoted ch.name ++ msg)) ∨
    e = .error ("duplicate channel id 0x" ++ hex ch.id.toNat)

/-- An error about keys names its channel. -/
theorem validateKeys_error {last : Option UInt8} {fields : List FieldConfig} (h : validateKeys ch last fields = .error e) :
    ∃ msg, e = .error ("channel " ++ quoted ch.name ++ msg) := by
  induction fields generalizing last with
  | nil => cases h
  | cons f fields ih =>
    unfold validateKeys at h
    dsimp only at h
    split at h
    · split at h
      · cases h
        exact ⟨_, congrArg Failure.error (by simp only [String.append_assoc]; rfl)⟩
      · exact ih h
    · exact ih h

/-- An error about ids names its channel. -/
theorem validateIds_error {seenIds : List UInt16} {channels : List ChannelConfig}
    (h : validateIds seenIds channels = .error e) : NamesChannel channels e := by
  induction channels generalizing seenIds with
  | nil => cases h
  | cons ch channels ih =>
    unfold validateIds at h
    split at h
    · cases h
      exact ⟨ch, List.mem_cons_self, .inl ⟨_, .inl (congrArg Failure.error (by simp only [String.append_assoc]; rfl))⟩⟩
    split at h
    · cases h
      exact ⟨ch, List.mem_cons_self, .inr rfl⟩
    rcases bind_eq_error.mp h with hkeys | ⟨u, -, hrest⟩
    · unfold validateFields at hkeys
      split at hkeys
      · obtain ⟨msg, hmsg⟩ := validateKeys_error hkeys
        exact ⟨ch, List.mem_cons_self, .inl ⟨msg, .inl hmsg⟩⟩
      · cases hkeys
    · obtain ⟨c, hc, hnames⟩ := ih hrest
      exact ⟨c, List.mem_cons_of_mem _ hc, hnames⟩

/-- An error about `writes` names its channel. -/
theorem validateWrites_error {channels : List ChannelConfig} (h : validateWrites cfg channels = .error e) :
    NamesChannel channels e := by
  induction channels with
  | nil => cases h
  | cons ch channels ih =>
    have hmore : NamesChannel channels e → NamesChannel (ch :: channels) e := by
      rintro ⟨c, hc, hnames⟩
      exact ⟨c, List.mem_cons_of_mem _ hc, hnames⟩
    unfold validateWrites at h
    split at h
    · exact hmore (ih h)
    · split at h
      · exact hmore (ih h)
      · split at h
        · cases h
          exact ⟨ch, List.mem_cons_self, .inl ⟨_, .inr (congrArg Failure.error (by simp only [String.append_assoc]; rfl))⟩⟩
        · split at h
          · cases h
            exact ⟨ch, List.mem_cons_self, .inl ⟨_, .inr (congrArg Failure.error (by simp only [String.append_assoc]; rfl))⟩⟩
          · exact hmore (ih h)

theorem validate_error (h : validate cfg = .error e) : NamesChannel cfg.channels e := by
  rcases bind_eq_error.mp h with h | ⟨u, -, h⟩
  · exact validateIds_error h
  · exact validateWrites_error h

end

/-! ## The promise -/

/-- An error that names a line of the file, or a channel of it. -/
def NamesPlace (bits : Nat) (path : String) (text : List Char) (e : Failure) : Prop :=
  (∃ n, 1 ≤ n ∧ n ≤ (lines text).length ∧ Place.Names ⟨path, n⟩ e) ∨
    ∃ st, (lines text).foldlM (parseLine bits path) {} = .ok st ∧ NamesChannel st.out.channels e

/-- What is promised of a file: an accepted one is stored as it stands and is well formed, and another has an error. -/
def Promise (bits : Nat) (path : String) (text : List Char) : Prop :=
  match loadConfigFile bits path (some text) with
  | .ok cfg => (Stores cfg (numerals bits path {} (lines text)) ∧ cfg.Ordered) ∧ cfg.WellFormed
  | .error e => NamesPlace bits path text e

/-- No line that is reached is blank, and the tokens of an accepted file agree. -/
structure Meant (bits : Nat) (path : String) (text : List Char) : Prop where
  blank : ∀ pre l post st, lines text = pre ++ l :: post → pre.foldlM (parseLine bits path) {} = .ok st → ¬Blank l
  agreed : ∀ cfg, loadConfigFile bits path (some text) = .ok cfg → Agreed (numerals bits path {} (lines text))

section

variable {bits : Nat} {path : String} {text : List Char} {cfg : HubConfig} {e : Failure}

/-- A file that loads has its numbers recorded and is well formed. -/
theorem load_ok (h : loadConfigFile bits path (some text) = .ok cfg) :
    RecordsHub bits (numerals bits path {} (lines text)) ({} : HubConfig).stored cfg.stored ∧ cfg.WellFormed := by
  obtain ⟨st, hrun, h⟩ := bind_eq_ok.mp h
  obtain ⟨u, hvalidate, h⟩ := bind_eq_ok.mp h
  cases h
  obtain ⟨hrecords, hsound⟩ := records_run hrun
  exact ⟨hrecords, wellFormed_of_validate (hsound sound_start).channels hvalidate⟩

/-- A file that is refused names the place. -/
theorem load_error (h : loadConfigFile bits path (some text) = .error e) (hblank : e ≠ .undefined) :
    NamesPlace bits path text e := by
  rcases bind_eq_error.mp h with hrun | ⟨st, hrun, h⟩
  · obtain ⟨pre, l, post, st, hlines, hpre, hline⟩ := run_error hrun
    have hl : ¬Blank l := by
      intro hl
      rw [parseLine_blank hl] at hline
      cases hline
      exact hblank rfl
    have hnumber := lineNo_run hpre
    refine .inl ⟨st.lineNo + 1, Nat.le_add_left 1 _, ?_, located_line ((records_run hpre).2 sound_start) hl e hline⟩
    rw [hlines, hnumber, List.length_append, List.length_cons]
    exact Nat.add_le_add (Nat.le_of_eq (Nat.zero_add _)) (Nat.le_add_left 1 _)
  · rcases bind_eq_error.mp h with hvalidate | ⟨u, -, h⟩
    · exact .inr ⟨st, hrun, validate_error hvalidate⟩
    · cases h

/-- Loading reads out of bounds exactly when a blank line is reached. -/
theorem load_undefined_iff : loadConfigFile bits path (some text) = .error .undefined ↔
    ∃ pre l post st, lines text = pre ++ l :: post ∧ pre.foldlM (parseLine bits path) {} = .ok st ∧ Blank l := by
  constructor
  · intro h
    rcases bind_eq_error.mp h with hrun | ⟨st, hrun, h⟩
    · obtain ⟨pre, l, post, st, hlines, hpre, hline⟩ := run_error hrun
      refine ⟨pre, l, post, st, hlines, hpre, ?_⟩
      by_contra hl
      obtain ⟨msg, hmsg | hmsg⟩ := located_line ((records_run hpre).2 sound_start) hl _ hline
      · cases hmsg
      · cases hmsg
    · rcases bind_eq_error.mp h with hvalidate | ⟨u, -, h⟩
      · obtain ⟨ch, -, ⟨msg, hmsg | hmsg⟩ | hmsg⟩ := validate_error hvalidate
        · cases hmsg
        · cases hmsg
        · cases hmsg
      · cases h
  · rintro ⟨pre, l, post, st, hlines, hpre, hl⟩
    refine bind_eq_error.mpr (.inl ?_)
    rw [hlines]
    exact run_refused hpre (parseLine_blank hl)

theorem not_namesPlace_undefined : ¬NamesPlace bits path text .undefined := by
  rintro (⟨n, -, -, msg, h | h⟩ | ⟨st, -, ch, -, ⟨msg, h | h⟩ | h⟩)
  all_goals cases h

end

/-- **The loader keeps its promise for the files that mean what they say**: no line that is reached consists of vertical
tabs and form feeds, and in an accepted file all numbers are in range, a slot is given one number only, and a minimum is at
most its maximum. -/
theorem promise_iff {bits : Nat} (hbits : 32 ≤ bits) (path : String) (text : List Char) :
    Promise bits path text ↔ Meant bits path text := by
  unfold Promise
  cases hload : loadConfigFile bits path (some text) with
  | ok cfg =>
    obtain ⟨hrecords, hwf⟩ := load_ok hload
    dsimp only
    rw [agreed_iff hbits hrecords, and_iff_left hwf]
    constructor
    · refine fun h => ⟨fun pre l post st hlines hpre hl => ?_, fun _ _ => h⟩
      rw [load_undefined_iff.mpr ⟨pre, l, post, st, hlines, hpre, hl⟩] at hload
      cases hload
    · exact fun h => h.agreed cfg hload
  | error e =>
    dsimp only
    constructor
    · refine fun h => ⟨fun pre l post st hlines hpre hl => ?_, fun cfg hcfg => ?_⟩
      · rw [load_undefined_iff.mpr ⟨pre, l, post, st, hlines, hpre, hl⟩] at hload
        cases hload
        exact not_namesPlace_undefined h
      · rw [hload] at hcfg
        cases hcfg
    · intro h
      refine load_error hload ?_
      rintro rfl
      obtain ⟨pre, l, post, st, hlines, hpre, hl⟩ := load_undefined_iff.mp hload
      exact h.blank pre l post st hlines hpre hl

/-- A heater: a setting with limits, and the state it writes. -/
def heaterFile : List Char :=
  ("hub\n  echo_delay_ms 7\nstate 0x1300 aux-state\n  rate_hz 5\n  field heat_pct f32 % 0 100\n" ++
    "intent 0x3300 aux-set\n  writes 0x1300\n  field heat_pct f32 % 0 99.5 key=1\n").toList

/-- Its numbers, the last one first. -/
def heaterNumerals : List (Slot × Token) :=
  [(.channel 1 (.field 0 .key), ['1']), (.channel 1 (.field 0 .max), ['9', '9', '.', '5']),
   (.channel 1 (.field 0 .min), ['0']), (.channel 1 .writes, ['0', 'x', '1', '3', '0', '0']),
   (.channel 1 .id, ['0', 'x', '3', '3', '0', '0']), (.channel 0 (.field 0 .max), ['1', '0', '0']),
   (.channel 0 (.field 0 .min), ['0']), (.channel 0 .rateHz, ['5']), (.channel 0 .id, ['0', 'x', '1', '3', '0', '0']),
   (.hubEchoDelay, ['7'])]

/-- The numerals of the heater's file agree wherever they meet. -/
theorem agreed_heater : Agreed heaterNumerals := by
  -- by `List.all`, since `∀ c ∈ t` may be decided over all characters there are
  have hdecimal : ∀ t : Token, t ≠ [] → t.all (isDigit 10) = true → digitsValue 10 t < 2 ^ 32 → Agree false t t := by
    intro t hne hds hlt
    have hdigits := List.all_eq_true.mp hds
    exact ⟨_, hlt, .decimal hne hdigits, .decimal hne hdigits⟩
  have hhex : ∀ t : Token, t ≠ [] → t.all (isDigit 16) = true → digitsValue 16 t < 2 ^ 32 →
      Agree false ('0' :: 'x' :: t) ('0' :: 'x' :: t) := by
    intro t hne hds hlt
    have hdigits := List.all_eq_true.mp hds
    exact ⟨_, hlt, .hex (.inl rfl) hne hdigits, .hex (.inl rfl) hne hdigits⟩
  have hnumber : ∀ (t : Token) (q : ℚ), (t.all fun c => c != '\x00' && !isSpace c) = true → (sign t).1 = false →
      floatLiteral (sign t).2 = some (.number q, []) → IsNumber t q := by
    intro t q hchars hsign hlit
    refine ⟨fun c hc => ?_, q, hlit, by rw [hsign, if_neg Bool.false_ne_true]⟩
    have hplain := List.all_eq_true.mp hchars c hc
    rw [Bool.and_eq_true, bne_iff_ne, Bool.not_eq_true'] at hplain
    exact hplain
  have hzero : IsNumber ['0'] 0 := hnumber _ _ (by decide +kernel) (by decide +kernel) (by decide +kernel)
  have hfive : IsNumber ['5'] 5 := hnumber _ _ (by decide +kernel) (by decide +kernel) (by decide +kernel)
  have hhundred : IsNumber ['1', '0', '0'] 100 := hnumber _ _ (by decide +kernel) (by decide +kernel) (by decide +kernel)
  have hhalf : IsNumber ['9', '9', '.', '5'] (199 / 2) := hnumber _ _ (by decide +kernel) (by decide +kernel) (by decide +kernel)
  have hfloat : ∀ {t : Token} {q : ℚ}, IsNumber t q → (F32.nearest q).finite = true → Agree true t t :=
    fun h hfin => ⟨_, _, h, h, rfl, hfin⟩
  have heach : ∀ e ∈ heaterNumerals, Agree e.1.isFloat e.2 e.2 := by
    simp only [heaterNumerals, List.forall_mem_cons]
    refine ⟨hdecimal _ ?_ ?_ ?_, hfloat hhalf ?_, hfloat hzero ?_, hhex _ ?_ ?_ ?_, hhex _ ?_ ?_ ?_, hfloat hhundred ?_,
      hfloat hzero ?_, hfloat hfive ?_, hhex _ ?_ ?_ ?_, hdecimal _ ?_ ?_ ?_, nofun⟩ <;> decide +kernel
  constructor
  · -- no slot is given twice
    intro e he e' he' hslot
    obtain rfl := List.inj_on_of_nodup_map (by decide : (heaterNumerals.map Prod.fst).Nodup) he he' hslot
    exact heach e he
  · intro i j t t' hmin hmax
    simp [heaterNumerals] at hmin hmax
    rcases hmin with ⟨-, rfl⟩ | ⟨⟨rfl, -⟩, rfl⟩
    · rcases hmax with ⟨-, rfl⟩ | ⟨-, rfl⟩
      · exact ⟨0, 199 / 2, hzero, hhalf, by decide +kernel⟩
      · exact ⟨0, 100, hzero, hhundred, by decide +kernel⟩
    · rcases hmax with ⟨⟨h, -⟩, -⟩ | ⟨-, rfl⟩
      · cases h
      · exact ⟨0, 100, hzero, hhundred, by decide +kernel⟩

/-- So the promise holds of that file. -/
theorem promise_heater : Promise 32 "c" heaterFile := by
  have hnumerals : numerals 32 "c" {} (lines heaterFile) = heaterNumerals := by decide +kernel
  have htoken : ∀ l ∈ lines heaterFile, ¬(content l ≠ [] ∧ tokenize (content l) = []) := by decide +kernel
  have hmeant : Meant 32 "c" heaterFile := by
    generalize heaterFile = text at hnumerals htoken
    refine ⟨fun pre l post st hlines _ => htoken l ?_, fun _ _ => hnumerals ▸ agreed_heater⟩
    rw [hlines]
    exact List.mem_append_right pre List.mem_cons_self
  rw [promise_iff (Nat.le_refl 32)]
  exact hmeant

theorem le_zero_of_minus {ds : Token} {z : ℤ} (h : IsInteger ('-' :: ds) z) : z ≤ 0 := by
  cases h with
  | decimal _ hds => exact absurd (hds '-' List.mem_cons_self) (by decide)
  | minus _ _ => omega

/-- A delay of -1 becomes one of 4294967295, on either width of an `unsigned long`. -/
theorem negative_delay_wraps :
    ¬Promise 32 "c" "hub\necho_delay_ms -1".toList ∧ ¬Promise 64 "c" "hub\necho_delay_ms -1".toList := by
  have hwraps : ∀ bits, loadConfigFile bits "c" (some "hub\necho_delay_ms -1".toList) = .ok { echoDelayMs := 4294967295 } →
      (Slot.hubEchoDelay, ['-', '1']) ∈ numerals bits "c" {} (lines "hub\necho_delay_ms -1".toList) →
      ¬Promise bits "c" "hub\necho_delay_ms -1".toList := by
    intro bits hload hmem h
    unfold Promise at h
    rw [hload] at h
    obtain ⟨v, hv, hexact⟩ := h.1.1 _ hmem
    cases hv
    exact absurd (le_zero_of_minus hexact) (by decide)
  exact ⟨hwraps 32 (by decide +kernel) (by decide +kernel), hwraps 64 (by decide +kernel) (by decide +kernel)⟩

end SlopSync.BenchConfig
