import SlopSync.Contents

/-! # The builder keeps its pools consistent

`Sound` is the invariant: the entries of each form tile the pool of that form, and no cell of the label pool has two
references.  It speaks of references that no field has yet (`rs`), since labels are interned before the field they belong to.

- `attach_spec`: one more field for the most recent entry;
- `Interns`: what interning labels comes to;
- `call_spec`: one call;
- `builder_consistent`: all of them. -/

namespace SlopSync.Builder

open BasicCatalog

variable {caps theirs : Capacities} {c d : BasicCatalog caps} {e : CatalogEntry} {ref : LabelRef} {rs : List LabelRef}
  {form : FieldForm} {labels : List Label}

/-! ## The invariant -/

structure Sound (c : BasicCatalog caps) (rs : List LabelRef) : Prop where
  tiles : ∀ form, c.entries.live.flatMap (CatalogEntry.cells form) = List.range (c.pool form).used.toNat
  single : ∀ e ∈ c.entries.live, e.form = .store → e.fieldCount.toNat ≤ 1
  known : ∀ x ∈ (c.refs ++ rs).flatMap LabelRef.cells, x < c.labelPool.used.toNat
  once : ((c.refs ++ rs).flatMap LabelRef.cells).Nodup

/-- A sound catalog's label references name pairwise different cells. -/
theorem Sound.apart (h : Sound c rs) : Apart c := by
  refine ⟨fun form => ?_, ?_⟩
  · rw [h.tiles]
    exact List.nodup_range
  · have honce := h.once
    rw [List.flatMap_append] at honce
    exact (List.nodup_append.mp honce).1

/-- References that are given up. -/
theorem Sound.drop (h : Sound c rs) : Sound c [] := by
  refine ⟨h.tiles, h.single, fun x hx => h.known x ?_, ?_⟩
  · rw [List.append_nil] at hx
    rw [List.flatMap_append]
    exact List.mem_append_left _ hx
  · rw [List.append_nil]
    exact h.apart.labels

/-- The label pool grows, and that a call failed is noted or not. -/
def relabel (c : BasicCatalog caps) (labelPool : Pool Label caps.labels) (overflow : Bool) : BasicCatalog caps :=
  { c with labelPool, overflow }

/-- Growing the label pool keeps a catalog sound. -/
theorem Sound.grow {q : Pool Label caps.labels} {overflow : Bool} (h : Sound c rs) (hgrows : c.labelPool.Grows q) :
    Sound (relabel c q overflow) rs :=
  ⟨fun form => by cases form <;> exact h.tiles _, h.single,
    fun x hx => Nat.lt_of_lt_of_le (h.known x hx) hgrows.used_le, h.once⟩

/-! ## Contents that stay -/

/-- The fields of an entry, for any form. -/
def fieldsOf (c : BasicCatalog caps) (form : FieldForm) (e : CatalogEntry) : List (Payload form) :=
  if e.form = form then ((c.pool form).slice e.fieldOffset.toNat e.fieldCount.toNat).getD [] else []

/-- The items an entry shows are the cells of its own range, read one by one; a store entry holds one descriptor at
most. -/
theorem items_eq (h : e.form = .store → e.fieldCount.toNat ≤ 1) :
    c.items e = (fieldsOf c e.form e).map (c.item e.form) := by
  unfold items fieldsOf
  rw [if_pos rfl]
  cases hform : e.form with
  | layout => rw [layoutFields, if_pos hform]; rfl
  | schema => rw [schemaFields, if_pos hform]; rfl
  | store =>
    unfold storeDescriptor
    have hle := h hform
    by_cases hone : e.fieldCount = 1
    · rw [if_pos ⟨hform, hone⟩, hone]
      change _ = ((c.storePool.slice e.fieldOffset.toNat 1).getD []).map (c.item .store)
      cases hslice : c.storePool.slice e.fieldOffset.toNat 1 with
      | none => rfl
      | some l =>
        obtain ⟨d, rfl⟩ := List.length_eq_one_iff.mp (Pool.length_slice hslice)
        rfl
    · have hzero : e.fieldCount.toNat = 0 := by
        have hne : e.fieldCount.toNat ≠ 1 := fun h1 => hone (UInt8.toNat_inj.mp h1)
        omega
      rw [if_neg (fun hand => hone hand.2), hzero, Pool.slice_zero]
      rfl

/-- The cells of an entry are in use. -/
theorem Sound.in_pool (h : Sound c rs) (he : e ∈ c.entries.live) :
    e.fieldCount.toNat = 0 ∨ e.fieldOffset.toNat + e.fieldCount.toNat ≤ (c.pool e.form).used.toNat := by
  refine Nat.eq_zero_or_pos _ |>.imp id fun hpos => ?_
  have hmem : e.fieldOffset.toNat + (e.fieldCount.toNat - 1) ∈ c.entries.live.flatMap (CatalogEntry.cells e.form) := by
    refine List.mem_flatMap.mpr ⟨e, he, ?_⟩
    rw [CatalogEntry.cells, if_pos rfl, List.mem_range'_1]
    omega
  rw [h.tiles, List.mem_range] at hmem
  omega

/-- A reference into the used part of the pool reads the same after the pool has grown. -/
theorem labels_eq (hpool : c.labelPool.Grows d.labelPool) (h : ∀ x ∈ ref.cells, x < c.labelPool.used.toNat) :
    d.labels ref = c.labels ref := by
  unfold BasicCatalog.labels
  by_cases hzero : ref.count = 0
  · rw [if_pos hzero, if_pos hzero]
  · have hpos : 0 < ref.count.toNat := Nat.pos_of_ne_zero fun h0 => hzero (UInt8.toNat_inj.mp h0)
    have hlast := h (ref.offset.toNat + (ref.count.toNat - 1)) (by rw [LabelRef.cells, List.mem_range'_1]; omega)
    rw [if_neg hzero, if_neg hzero, Pool.slice_grows hpool (by omega)]

/-- A field all of whose references lie in the used part reads the same after the pool has grown. -/
theorem item_eq {a : Payload form} (hpool : c.labelPool.Grows d.labelPool)
    (h : ∀ x ∈ (Payload.refs form a).flatMap LabelRef.cells, x < c.labelPool.used.toNat) :
    d.item form a = c.item form a := by
  have href : ∀ ref ∈ Payload.refs form a, d.labels ref = c.labels ref :=
    fun ref hr => labels_eq hpool fun x hx => h x (List.mem_flatMap.mpr ⟨ref, hr, hx⟩)
  cases form with
  | layout => simp only [item, href a.bits (by simp [Payload.refs]), href a.options (by simp [Payload.refs])]
  | schema => simp only [item, href a.options (by simp [Payload.refs])]
  | store => rfl

/-- The references of a field in use are among those of the catalog. -/
theorem mem_refs {a : Payload form} (ha : a ∈ (c.pool form).live) (hr : ref ∈ Payload.refs form a) : ref ∈ c.refs := by
  unfold refs
  cases form with
  | layout => exact List.mem_append_left _ (List.mem_flatMap.mpr ⟨a, ha, hr⟩)
  | schema => exact List.mem_append_right _ (List.mem_flatMap.mpr ⟨a, ha, hr⟩)
  | store => cases hr

/-- What an entry contains stays while the pools grow. -/
theorem Sound.content_eq (h : Sound c rs) (hpools : ∀ form, (c.pool form).Grows (d.pool form))
    (hlabels : c.labelPool.Grows d.labelPool) (he : e ∈ c.entries.live) : d.content e = c.content e := by
  have hfields : fieldsOf d e.form e = fieldsOf c e.form e := by
    unfold fieldsOf
    rw [if_pos rfl, if_pos rfl]
    rcases h.in_pool he with hzero | hin
    · rw [hzero, Pool.slice_zero, Pool.slice_zero]
    · rw [Pool.slice_grows (hpools e.form) hin]
  have hitems : ∀ a ∈ fieldsOf c e.form e, d.item e.form a = c.item e.form a := by
    intro a ha
    have hlive : a ∈ (c.pool e.form).live := by
      unfold fieldsOf at ha
      rw [if_pos rfl] at ha
      rcases h.in_pool he with hzero | hin
      · rw [hzero, Pool.slice_zero] at ha
        cases ha
      · rw [Pool.slice_eq hin] at ha
        exact List.mem_of_mem_drop (List.mem_of_mem_take ha)
    refine item_eq hlabels fun x hx => h.known x ?_
    obtain ⟨ref, hr, hx⟩ := List.mem_flatMap.mp hx
    exact List.mem_flatMap.mpr ⟨ref, List.mem_append_left _ (mem_refs hlive hr), hx⟩
  unfold content
  rw [items_eq (h.single e he), items_eq (h.single e he), hfields, List.map_congr_left hitems]

/-- Interning more labels changes nothing a reader of the catalog sees. -/
theorem Sound.contents_relabel {q : Pool Label caps.labels} {overflow : Bool} (h : Sound c rs)
    (hgrows : c.labelPool.Grows q) : (relabel c q overflow).contents = c.contents :=
  List.map_congr_left fun _ he =>
    h.content_eq (d := relabel c q overflow) (fun form => by cases form <;> exact Pool.Grows.refl _) hgrows he

/-! ## What a call does -/

structure Outcome (c : BasicCatalog caps) (r : Result caps Unit) (needs : Counter → Nat) (after : List Content) : Prop where
  sound : Sound r.catalog []
  done : r.answer = some () → r.catalog.overflow = c.overflow ∧ r.catalog.contents = after ∧
    ∀ k, r.catalog.used k ≤ c.used k + needs k
  failed : r.answer = none → r.catalog.overflow = true ∧ c.contents <+: r.catalog.contents

/-- A call that latches `overflow` and returns false is within what a call may do. -/
theorem Outcome.latch {needs : Counter → Nat} {after : List Content} (h : Sound c rs) : Outcome c c.latch needs after := by
  have hsame : (relabel c c.labelPool true).contents = c.contents := h.contents_relabel (Pool.Grows.refl _)
  refine ⟨h.drop.grow (Pool.Grows.refl _), (fun hsome => by cases hsome), fun _ => ⟨rfl, ?_⟩⟩
  exact ⟨[], (List.append_nil _).trans hsame.symm⟩

/-- A new entry is empty. -/
theorem addEntry_spec (h : Sound c rs) (hroom : c.Room (only .entries 1)) (header : CatalogEntry) :
    Outcome c (c.addEntry header) (only .entries 1) (c.contents ++ [⟨header.header, []⟩]) := by
  unfold addEntry
  cases hpush : c.entries.push { header with fieldCount := 0, fieldOffset := (c.pool header.form).used } with
  | none => exact Outcome.latch h
  | some entries =>
    have hone : c.entries.Room 1 := hroom .entries
    have hlive := Pool.live_push hone hpush
    have hused := Pool.used_push hone hpush
    have hd := h.drop
    refine ⟨⟨fun form => ?_, fun e he => ?_, hd.known, hd.once⟩, fun _ => ⟨rfl, ?_, fun k => ?_⟩, fun hn => nomatch hn⟩
    · have hcells : CatalogEntry.cells form
          { header with fieldCount := 0, fieldOffset := (c.pool header.form).used } = [] := by
        unfold CatalogEntry.cells
        split <;> rfl
      have htiles := hd.tiles form
      simp only [hlive, List.flatMap_append, List.flatMap_cons, List.flatMap_nil, hcells, List.append_nil]
      cases form <;> exact htiles
    · simp only [hlive] at he
      rcases List.mem_append.mp he with he | he
      · exact hd.single e he
      · rw [List.mem_singleton.mp he]
        intro _
        exact Nat.zero_le 1
    · have hold : c.entries.live.map (BasicCatalog.content { c with entries }) = c.contents :=
        List.map_congr_left fun _ he =>
          hd.content_eq (fun form => by cases form <;> exact Pool.Grows.refl _) (Pool.Grows.refl _) he
      have hnew : BasicCatalog.content { c with entries }
          { header with fieldCount := 0, fieldOffset := (c.pool header.form).used } = ⟨header.header, []⟩ := by
        have hsingle : (0 : UInt8).toNat ≤ 1 := Nat.zero_le 1
        unfold content
        rw [items_eq (e := { header with fieldCount := 0, fieldOffset := (c.pool header.form).used }) fun _ => hsingle]
        unfold fieldsOf
        rw [if_pos rfl, UInt8.toNat_zero, Pool.slice_zero]
        rfl
      simp only [contents, hlive, List.map_append, List.map_cons, List.map_nil, hold, hnew]
    · cases k with
      | entries => exact Nat.le_of_eq hused
      | fields form => cases form <;> exact Nat.le_add_right _ _
      | labels => exact Nat.le_add_right _ _

/-! ## One more field -/

section

variable {p : Pool (Payload form) (caps.of form)} {a : Payload form}

theorem pool_setPool_self : (c.setPool form p).pool form = p := by cases form <;> rfl

theorem pool_setPool_other {other : FieldForm} (h : other ≠ form) : (c.setPool form p).pool other = c.pool other := by
  cases form <;> cases other <;> first | rfl | exact absurd rfl h

@[simp] theorem entries_setPool : (c.setPool form p).entries = c.entries := by cases form <;> rfl
@[simp] theorem labelPool_setPool : (c.setPool form p).labelPool = c.labelPool := by cases form <;> rfl
@[simp] theorem overflow_setPool : (c.setPool form p).overflow = c.overflow := by cases form <;> rfl

/-- One more cell in a pool adds exactly that cell's references. -/
theorem refs_setPool (hlive : p.live = (c.pool form).live ++ [a]) :
    (c.setPool form p).refs.Perm (c.refs ++ Payload.refs form a) := by
  unfold refs
  cases form with
  | layout =>
    change (p.live.flatMap (Payload.refs .layout) ++ c.schemaPool.live.flatMap (Payload.refs .schema)).Perm _
    rw [hlive, List.flatMap_append, List.append_assoc, List.append_assoc]
    exact List.Perm.append_left _ (by simpa using List.perm_append_comm)
  | schema =>
    change (c.layoutPool.live.flatMap (Payload.refs .layout) ++ p.live.flatMap (Payload.refs .schema)).Perm _
    rw [hlive, List.flatMap_append, List.append_assoc]
    refine List.Perm.append_left _ ?_
    rw [List.flatMap_singleton]
    exact List.Perm.refl _
  | store => simp [setPool, Payload.refs]

/-- The catalog after `a` came to the pool of `form` and the most recent entry took it. -/
def attached (c : BasicCatalog caps) (form : FieldForm) (p : Pool (Payload form) (caps.of form)) : BasicCatalog caps :=
  { c.setPool form p with
    entries := c.entries.modify (c.entries.used.toNat - 1) fun e => { e with fieldCount := e.fieldCount + 1 } }

theorem pool_attached (other : FieldForm) : (attached c form p).pool other = (c.setPool form p).pool other := by
  cases other <;> rfl

/-- Attaching a field leaves every label where it was. -/
theorem labels_attached (ref : LabelRef) : (attached c form p).labels ref = c.labels ref := by
  simp [BasicCatalog.labels, attached]

theorem item_attached (other : FieldForm) (x : Payload other) : (attached c form p).item other x = c.item other x := by
  cases other <;> simp only [item, labels_attached]

end

/-- The most recent entry ends where its pool does, and `a` has come to the pool. -/
structure Open (c : BasicCatalog caps) (init : List CatalogEntry) (e : CatalogEntry)
    (p : Pool (Payload e.form) (caps.of e.form)) (a : Payload e.form) : Prop where
  entries : c.entries.live = init ++ [e]
  ends : e.fieldOffset.toNat + e.fieldCount.toNat = (c.pool e.form).used.toNat
  count : (e.fieldCount + 1).toNat = e.fieldCount.toNat + 1
  live : p.live = (c.pool e.form).live ++ [a]

namespace Open

variable {init : List CatalogEntry} {p : Pool (Payload e.form) (caps.of e.form)} {a : Payload e.form}

theorem used (ho : Open c init e p a) : p.used.toNat = (c.pool e.form).used.toNat + 1 := by
  rw [← Pool.length_live, ho.live, List.length_append, Pool.length_live, List.length_singleton]

/-- Attaching a field bumps the last entry's `fieldCount` and touches no other entry. -/
theorem live_attached (ho : Open c init e p a) :
    (attached c e.form p).entries.live = init ++ [{ e with fieldCount := e.fieldCount + 1 }] :=
  Pool.live_modify_last ho.entries

/-- The cells of the most recent entry come last. -/
theorem cells_concat (ho : Open c init e p a) (other : FieldForm) :
    (attached c e.form p).entries.live.flatMap (CatalogEntry.cells other) =
      c.entries.live.flatMap (CatalogEntry.cells other) ++
        if other = e.form then [(c.pool e.form).used.toNat] else [] := by
  have hform : ({ e with fieldCount := e.fieldCount + 1 } : CatalogEntry).form = e.form := rfl
  simp only [ho.live_attached, ho.entries, List.flatMap_append, List.flatMap_cons, List.flatMap_nil, List.append_nil,
    List.append_assoc]
  congr 1
  unfold CatalogEntry.cells
  rw [hform]
  by_cases heq : e.form = other
  · rw [if_pos heq, if_pos heq, if_pos heq.symm]
    dsimp only
    rw [ho.count, List.range'_1_concat, ho.ends]
  · rw [if_neg heq, if_neg heq, if_neg (Ne.symm heq)]
    rfl

/-- The catalog with the field attached is sound once the field's references are those still owed. -/
theorem sound (ho : Open c init e p a) (h : Sound c rs)
    (hrefs : (Payload.refs e.form a).flatMap LabelRef.cells = rs.flatMap LabelRef.cells)
    (hstore : e.form = .store → e.fieldCount.toNat = 0) : Sound (attached c e.form p) [] := by
  have hcells : ((attached c e.form p).refs.flatMap LabelRef.cells).Perm ((c.refs ++ rs).flatMap LabelRef.cells) := by
    have hperm := (refs_setPool ho.live).flatMap_right LabelRef.cells
    rwa [List.flatMap_append, hrefs, ← List.flatMap_append] at hperm
  have hlabels : (attached c e.form p).labelPool = c.labelPool := labelPool_setPool
  refine ⟨fun other => ?_, fun x hx => ?_, fun x hx => ?_, ?_⟩
  · rw [ho.cells_concat, h.tiles, pool_attached]
    by_cases heq : other = e.form
    · subst heq
      rw [if_pos rfl, pool_setPool_self, ho.used, List.range_succ]
    · rw [if_neg heq, pool_setPool_other heq, List.append_nil]
  · rw [ho.live_attached] at hx
    rcases List.mem_append.mp hx with hx | hx
    · exact h.single x (by rw [ho.entries]; exact List.mem_append_left _ hx)
    · rw [List.mem_singleton.mp hx]
      intro hform
      have hzero := hstore hform
      dsimp only
      rw [ho.count]
      omega
  · rw [List.append_nil] at hx
    rw [hlabels]
    exact h.known x (hcells.mem_iff.mp hx)
  · rw [List.append_nil, hcells.nodup_iff]
    exact h.once

/-- The most recent entry has `a` for its last field, and nothing else has changed. -/
theorem contents (ho : Open c init e p a) (h : Sound c rs) (hstore : e.form = .store → e.fieldCount.toNat = 0) :
    (attached c e.form p).contents = addItem c.contents (c.item e.form a) := by
  have hgrows : ∀ other, (c.pool other).Grows ((attached c e.form p).pool other) := by
    intro other
    rw [pool_attached]
    by_cases heq : other = e.form
    · subst heq
      rw [pool_setPool_self]
      exact Pool.grows_of_append ho.live
    · rw [pool_setPool_other heq]
      exact Pool.Grows.refl _
  have hlabels : c.labelPool.Grows (attached c e.form p).labelPool := by
    rw [show (attached c e.form p).labelPool = c.labelPool from labelPool_setPool]
    exact Pool.Grows.refl _
  have hinit : init.map (attached c e.form p).content = init.map c.content := by
    refine List.map_congr_left fun x hx => h.content_eq hgrows hlabels ?_
    rw [ho.entries]
    exact List.mem_append_left _ hx
  have hold : c.items e = (fieldsOf c e.form e).map (c.item e.form) :=
    items_eq (h.single e (by rw [ho.entries]; exact List.mem_append_right _ List.mem_cons_self))
  have hlast : (attached c e.form p).items { e with fieldCount := e.fieldCount + 1 } =
      c.items e ++ [c.item e.form a] := by
    obtain ⟨l, hl, hl'⟩ := Pool.slice_push ho.live ho.ends
    have hsingle : e.form = .store → (e.fieldCount + 1).toNat ≤ 1 := fun hform => by
      rw [ho.count, hstore hform]
    rw [items_eq (e := { e with fieldCount := e.fieldCount + 1 }) hsingle, hold]
    unfold fieldsOf
    rw [if_pos rfl, if_pos rfl, pool_attached]
    change ((((c.setPool e.form p).pool e.form).slice e.fieldOffset.toNat (e.fieldCount + 1).toNat).getD []).map
      ((attached c e.form p).item e.form) = _
    rw [pool_setPool_self, ho.count, hl, hl', Option.getD_some, Option.getD_some, List.map_append, List.map_singleton]
    rw [item_attached, List.map_congr_left fun x _ => item_attached e.form x]
  unfold BasicCatalog.contents
  rw [ho.live_attached, ho.entries, List.map_append, List.map_append, List.map_singleton, List.map_singleton,
    addItem_concat, hinit]
  unfold content
  rw [hlast]
  rfl

end Open

/-- One more field, whose references were interned for it. -/
theorem attach_spec {a : Payload form} {limit : Nat} (h : Sound c rs)
    (hrefs : (Payload.refs form a).flatMap LabelRef.cells = rs.flatMap LabelRef.cells) (hroom : c.Room (only (.fields form) 1))
    (hlimit : limit ≤ 64) (hstore : form = .store → limit = 1) :
    Outcome c (c.attach form limit a) (only (.fields form) 1) (addItem c.contents (c.item form a)) := by
  unfold attach
  cases hlast : c.entries.live.getLast? with
  | none => exact Outcome.latch h
  | some e =>
    cases hpush : (c.pool form).push a with
    | none => exact Outcome.latch h
    | some p =>
      dsimp only
      split
      · exact Outcome.latch h
      split
      · exact Outcome.latch h
      rename_i hguard hbelow
      rw [not_or, not_not, not_not] at hguard
      obtain ⟨rfl, hend⟩ := hguard
      obtain ⟨init, hlive⟩ := List.getLast?_eq_some_iff.mp hlast
      have hfield : (c.pool e.form).Room 1 := by
        have hk := hroom (.fields e.form)
        rwa [only, if_pos rfl] at hk
      have ho : Open c init e p a := by
        refine ⟨hlive, hend, ?_, Pool.live_push hfield hpush⟩
        rw [UInt8.toNat_add, UInt8.toNat_one]
        omega
      have hzero : e.form = .store → e.fieldCount.toNat = 0 := fun hform => by
        have := hstore hform
        omega
      refine ⟨ho.sound h hrefs hzero, fun _ => ⟨overflow_setPool, ho.contents h hzero, fun k => ?_⟩, fun hn => nomatch hn⟩
      change (attached c e.form p).used k ≤ _
      unfold only
      cases k with
      | entries => exact Nat.le_add_right _ _
      | fields other =>
        simp only [BasicCatalog.used, pool_attached, Counter.fields.injEq]
        by_cases heq : other = e.form
        · subst heq
          rw [pool_setPool_self, ho.used, if_pos rfl]
        · rw [pool_setPool_other heq, if_neg heq]
          exact Nat.le_refl _
      | labels =>
        have hlabels : (attached c e.form p).labelPool = c.labelPool := labelPool_setPool
        simp only [BasicCatalog.used, hlabels]
        exact Nat.le_add_right _ _

/-! ## Labels -/

/-- `q` is `p` with the labels that `ref` stands for. -/
structure Names {cap : Nat} (p : Pool Label cap) (labels : List Label) (ref : LabelRef) (q : Pool Label cap) : Prop where
  live : q.live = p.live ++ labels
  count : ref.count.toNat = labels.length
  offset : labels ≠ [] → ref.offset = p.used

section

variable {q : Pool Label caps.labels} {overflow : Bool}

/-- The pool after interning extends the pool before it. -/
theorem Names.grows (h : Names c.labelPool labels ref q) : c.labelPool.Grows q := Pool.grows_of_append h.live

/-- Interning takes as many cells as there are labels. -/
theorem Names.used (h : Names c.labelPool labels ref q) : q.used.toNat = c.labelPool.used.toNat + labels.length := by
  rw [← Pool.length_live, h.live, List.length_append, Pool.length_live]

/-- The reference names exactly the cells just taken. -/
theorem Names.cells (h : Names c.labelPool labels ref q) :
    ref.cells = List.range' c.labelPool.used.toNat labels.length := by
  rw [LabelRef.cells, h.count]
  cases hl : labels with
  | nil => rfl
  | cons a l => rw [h.offset (by rw [hl]; exact List.cons_ne_nil a l)]

/-- The reference stands for the labels, and goes on doing so. -/
theorem Names.labels_eq (h : Names c.labelPool labels ref q) (hd : q.Grows d.labelPool) : d.labels ref = labels := by
  unfold BasicCatalog.labels
  have hcount := h.count
  by_cases hzero : ref.count = 0
  · rw [hzero] at hcount
    rw [if_pos hzero, List.eq_nil_of_length_eq_zero hcount.symm]
  · have hne : labels ≠ [] := by
      rintro rfl
      exact hzero (UInt8.toNat_inj.mp hcount)
    have hin : ref.offset.toNat + ref.count.toNat ≤ q.used.toNat := by
      rw [h.offset hne, hcount, h.used]
    have hlen : (c.labelPool.live).length = ref.offset.toNat := by rw [Pool.length_live, h.offset hne]
    rw [if_neg hzero, Pool.slice_grows hd hin, Pool.slice_eq hin, h.live, ← hlen, List.drop_left, hcount, List.take_length]
    rfl

/-- New labels have cells of their own. -/
theorem Names.sound (hn : Names c.labelPool labels ref q) (h : Sound c rs) :
    Sound (relabel c q overflow) (rs ++ [ref]) := by
  have hg : Sound (relabel c q overflow) rs := h.grow hn.grows
  have hcells : ((relabel c q overflow).refs ++ (rs ++ [ref])).flatMap LabelRef.cells =
      (c.refs ++ rs).flatMap LabelRef.cells ++ List.range' c.labelPool.used.toNat labels.length := by
    rw [← List.append_assoc, List.flatMap_append, List.flatMap_singleton, hn.cells]
    rfl
  refine ⟨hg.tiles, hg.single, fun x hx => ?_, ?_⟩
  · rw [hcells] at hx
    change x < q.used.toNat
    rw [hn.used]
    rcases List.mem_append.mp hx with hx | hx
    · exact Nat.lt_of_lt_of_le (h.known x hx) (Nat.le_add_right _ _)
    · exact (List.mem_range'_1.mp hx).2
  · rw [hcells, List.nodup_append]
    refine ⟨h.once, List.nodup_range', fun x hx y hy => ?_⟩
    have hlt := h.known x hx
    have hle := (List.mem_range'_1.mp hy).1
    omega

end

/-- What interning labels comes to: a reference to them at the end of the pool, or a failure that is noted. -/
def Interns (c : BasicCatalog caps) (labels : List Label) (r : Result caps LabelRef) : Prop :=
  (∃ q ref, r = ⟨some ref, relabel c q c.overflow⟩ ∧ Names c.labelPool labels ref q) ∨
    ∃ q, r = ⟨none, relabel c q true⟩ ∧ c.labelPool.Grows q

theorem Interns.latch : Interns c labels c.latch := .inr ⟨c.labelPool, rfl, Pool.Grows.refl _⟩

/-- Nothing to intern. -/
theorem Interns.nil : Interns c [] ⟨some {}, c⟩ :=
  .inl ⟨c.labelPool, {}, rfl, (List.append_nil _).symm, rfl, fun hne => absurd rfl hne⟩

/-- `poolLabels` interns all of its labels, in order, when there is room for them. -/
theorem poolLabels_spec {count : UInt8} (hcount : count.toNat = labels.length) (hroom : c.labelPool.Room labels.length) :
    Interns c labels (c.poolLabels labels count) := by
  obtain ⟨hgrows, hall⟩ := Pool.pushAll_spec hroom
  unfold poolLabels
  dsimp only
  cases hok : (Pool.pushAll labels c.labelPool).1 with
  | true =>
    rw [if_pos rfl]
    exact .inl ⟨_, _, rfl, hall hok, hcount, fun _ => rfl⟩
  | false =>
    rw [if_neg (by simp)]
    exact .inr ⟨_, rfl, hgrows⟩

/-- `internLabels` interns the list without its trailing null entries. -/
theorem internLabels_spec {bits : List Bytes} {maxCount : Nat} (hmax : maxCount ≤ 255)
    (hroom : c.labelPool.Room (trimmed bits).length) :
    Interns c (labelled (trimmed bits) []) (c.internLabels bits maxCount) := by
  unfold internLabels labelled
  dsimp only
  by_cases hnil : trimmed bits = []
  · rw [if_pos hnil, hnil]
    exact Interns.nil
  rw [if_neg hnil]
  split
  · exact Interns.latch
  · rename_i hle
    refine poolLabels_spec ?_ (by rwa [List.length_map])
    rw [List.length_map, UInt8.toNat_ofNat', Nat.mod_eq_of_lt (by omega)]

/-- A reference the source catalog knows reads as many labels as it counts. -/
theorem length_labels {src : BasicCatalog theirs} (hknown : src.Known ref) : (src.labels ref).length = ref.count.toNat := by
  unfold BasicCatalog.labels
  by_cases hzero : ref.count = 0
  · rw [if_pos hzero, hzero]
    rfl
  · have hin := hknown.resolve_left hzero
    rw [if_neg hzero, Pool.slice_eq hin, Option.getD_some, List.length_take, List.length_drop, Pool.length_live]
    omega

/-- `reintern` interns the labels the reference has in the source catalog. -/
theorem reintern_spec {src : BasicCatalog theirs} (hknown : src.Known ref) (hroom : c.labelPool.Room (src.labels ref).length) :
    Interns c (src.labels ref) (c.reintern src ref) := by
  have hlen := length_labels hknown
  unfold reintern
  by_cases hzero : ref.count = 0
  · have hnil : src.labels ref = [] := if_pos hzero
    rw [if_pos hzero, hnil]
    exact Interns.nil
  · rw [if_neg hzero, if_neg (by rw [hlen]; exact fun hne => hne rfl)]
    exact poolLabels_spec hlen.symm hroom

/-! ## Labels and then a field -/

namespace BasicCatalog

variable {needs more : Counter → Nat}

/-- Room for two steps leaves room for the second when the first takes no more than its share. -/
theorem Room.grown (hroom : c.Room (needs + more)) (hused : ∀ k, d.used k ≤ c.used k + more k) : d.Room needs := by
  intro k
  refine (hroom k).imp id fun hlt => ?_
  have := hused k
  simp only [Pi.add_apply] at hlt
  omega

theorem Room.left (hroom : c.Room (needs + more)) : c.Room needs := hroom.grown fun _ => Nat.le_add_right _ _

theorem Room.right (hroom : c.Room (needs + more)) : c.Room more := by
  rw [add_comm] at hroom
  exact hroom.left

theorem Room.of_labels {n : Nat} (hroom : c.Room (only .labels n)) : c.labelPool.Room n := hroom .labels

end BasicCatalog

section

variable {needs more : Counter → Nat} {after : List Content} {r : Result caps Unit}

/-- A call that another one has prepared. -/
theorem Outcome.prepared (ho : Outcome d r needs after) (hoverflow : d.overflow = c.overflow) (hcontents : d.contents = c.contents)
    (hused : ∀ k, d.used k ≤ c.used k + more k) : Outcome c r (needs + more) after where
  sound := ho.sound
  done := by
    intro hr
    obtain ⟨hover, hafter, hk⟩ := ho.done hr
    refine ⟨hover.trans hoverflow, hafter, fun k => (hk k).trans ?_⟩
    have := hused k
    simp only [Pi.add_apply]
    omega
  failed := by
    rw [← hcontents]
    exact ho.failed

/-- Interning counts against the label pool only. -/
theorem Names.used_le {q : Pool Label caps.labels} (hn : Names c.labelPool labels ref q) (k : Counter) :
    (relabel c q c.overflow).used k ≤ c.used k + only .labels labels.length k := by
  cases k with
  | entries => exact Nat.le_add_right _ _
  | fields form => cases form <;> exact Nat.le_add_right _ _
  | labels => exact Nat.le_of_eq hn.used

/-- A catalog that only grew by labels passes on the outcome of what comes next. -/
theorem Names.outcome {q : Pool Label caps.labels} (hn : Names c.labelPool labels ref q) (h : Sound c rs)
    (ho : Sound (relabel c q c.overflow) (rs ++ [ref]) → (relabel c q c.overflow).contents = c.contents →
      Outcome (relabel c q c.overflow) r needs after) : Outcome c r (needs + only .labels labels.length) after :=
  (ho (hn.sound h) (h.contents_relabel hn.grows)).prepared rfl (h.contents_relabel hn.grows) hn.used_le

/-- A call that interns labels and then builds on their reference: either step may latch. -/
theorem Interns.andThen {interned : Result caps LabelRef} {next : LabelRef → BasicCatalog caps → Result caps Unit}
    (hi : Interns c labels interned) (h : Sound c rs)
    (hnext : ∀ q ref, Names c.labelPool labels ref q → Outcome c (next ref (relabel c q c.overflow)) needs after) :
    Outcome c (interned.andThen next) needs after := by
  rcases hi with ⟨q, ref, rfl, hn⟩ | ⟨q, rfl, hgrows⟩
  · exact hnext q ref hn
  · refine ⟨h.drop.grow hgrows, (fun hsome => by cases hsome), fun _ => ⟨rfl, ?_⟩⟩
    exact ⟨[], (List.append_nil _).trans (h.contents_relabel hgrows).symm⟩

end

theorem cells_absent (h : ref.count = 0) : ref.cells = [] := by
  rw [LabelRef.cells, h]
  rfl

/-- A reference of count 0 reads no labels. -/
theorem labels_absent (h : ref.count = 0) : c.labels ref = [] := if_pos h

/-- `addLayoutField` adds the field to the open layout entry, or latches. -/
theorem addLayoutField_spec {f : LayoutField} (h : Sound c rs)
    (hrefs : f.bits.cells ++ f.options.cells = rs.flatMap LabelRef.cells) (hroom : c.Room (only (.fields .layout) 1)) :
    Outcome c (c.addLayoutField f) (only (.fields .layout) 1)
      (addItem c.contents (.layout f.plain (c.labels f.bits) (c.labels f.options))) :=
  attach_spec h (by simpa [Payload.refs] using hrefs) hroom (Nat.le_refl _) fun hs => nomatch hs

/-- `addSchemaField` does the same for a schema entry. -/
theorem addSchemaField_spec {f : SchemaField} (h : Sound c rs) (hrefs : f.options.cells = rs.flatMap LabelRef.cells)
    (hroom : c.Room (only (.fields .schema) 1)) :
    Outcome c (c.addSchemaField f) (only (.fields .schema) 1) (addItem c.contents (.schema f.plain (c.labels f.options))) :=
  attach_spec h (by simpa [Payload.refs] using hrefs) hroom (Nat.le_refl _) fun hs => nomatch hs

/-- `addStoreDescriptor` does the same for a store entry, once. -/
theorem addStoreDescriptor_spec {s : StoreDescriptor} (h : Sound c []) (hroom : c.Room (only (.fields .store) 1)) :
    Outcome c (c.addStoreDescriptor s) (only (.fields .store) 1) (addItem c.contents (.store s)) :=
  attach_spec h rfl hroom (by decide) fun _ => rfl

/-- `addBitfieldField` interns the bit labels first and then adds the field that refers to them. -/
theorem addBitfieldField_spec {f : LayoutField} {bits : List Bytes} (h : Sound c []) (hmeant : f.options.count = 0)
    (hroom : c.Room (only (.fields .layout) 1 + only .labels (trimmed bits).length)) :
    Outcome c (c.addBitfieldField f bits) (only (.fields .layout) 1 + only .labels (trimmed bits).length)
      (addItem c.contents (.layout f.plain (labelled (trimmed bits) []) [])) := by
  have hlen : (labelled (trimmed bits) []).length = (trimmed bits).length := List.length_map _
  refine (internLabels_spec (by decide) (hroom.right.of_labels)).andThen h fun q ref hn => ?_
  rw [← hlen] at hroom ⊢
  refine hn.outcome h fun hs hc => ?_
  have hspec := addLayoutField_spec (f := { f with bits := ref }) hs (by simp [cells_absent hmeant])
    (hroom.grown hn.used_le)
  rwa [hc, hn.labels_eq (Pool.Grows.refl _), labels_absent hmeant] at hspec

/-- Labels that are not empty are all kept. -/
theorem trimmed_eq {options : List Bytes} (h : options.any List.isEmpty = false) : trimmed options = options := by
  rw [trimmed, List.rdropWhile_eq_self_iff]
  intro hne
  have hno := List.any_eq_false.mp h _ (List.getLast_mem hne)
  exact hno

/-- What `checkOptionLabels` lets pass. -/
theorem check_spec {options : List Bytes} {next : Unit → BasicCatalog caps → Result caps Unit} {needs : Counter → Nat}
    {after : List Content} (h : Sound c rs)
    (hnext : trimmed options = options → Outcome c (next () c) needs after) :
    Outcome c ((c.checkOptionLabels options).andThen next) needs after := by
  unfold checkOptionLabels
  cases hany : options.any List.isEmpty with
  | true => exact Outcome.latch h
  | false => exact hnext (trimmed_eq hany)

/-- Options are interned whole. -/
theorem options_spec {options : List Bytes} {next : LabelRef → BasicCatalog caps → Result caps Unit}
    {needs : Counter → Nat} {after : List Content} (h : Sound c []) (hroom : c.labelPool.Room options.length)
    (hnext : ∀ q ref, Names c.labelPool (labelled options []) ref q →
      Outcome c (next ref (relabel c q c.overflow)) needs after) :
    Outcome c ((c.checkOptionLabels options).andThen fun _ c =>
      (c.internLabels options LabelRef.kMaxCount).andThen next) needs after := by
  refine check_spec h fun htrim => ?_
  have hi : Interns c (labelled (trimmed options) []) (c.internLabels options LabelRef.kMaxCount) :=
    internLabels_spec (by decide) (by rw [htrim]; exact hroom)
  rw [htrim] at hi
  exact hi.andThen h hnext

/-- `addSelectField` does the same with its option labels. -/
theorem addSelectField_spec {f : LayoutField} {options : List Bytes} (h : Sound c []) (hmeant : f.bits.count = 0)
    (hroom : c.Room (only (.fields .layout) 1 + only .labels options.length)) :
    Outcome c (c.addSelectField f options) (only (.fields .layout) 1 + only .labels options.length)
      (addItem c.contents (.layout f.plain [] (labelled options []))) := by
  have hlen : (labelled options []).length = options.length := List.length_map _
  refine options_spec h hroom.right.of_labels fun q ref hn => ?_
  rw [← hlen] at hroom ⊢
  refine hn.outcome h fun hs hc => ?_
  have hspec := addLayoutField_spec (f := { f with options := ref }) hs (by simp [cells_absent hmeant])
    (hroom.grown hn.used_le)
  rwa [hc, hn.labels_eq (Pool.Grows.refl _), labels_absent hmeant] at hspec

/-! ### Levels -/

/-- The labels from `offset` on get their levels. -/
theorem setAccess_spec (c : BasicCatalog caps) (overflow : Bool) {access : List AccessLevel} {offset : Nat} {q : Pool Label caps.labels}
    {xs ys : List Label} (hlive : q.live = xs ++ ys) (hoffset : xs.length = offset) (hlen : ys.length = access.length) :
    ∃ q', (relabel c q overflow).setAccess offset access = relabel c q' overflow ∧
      q'.live = xs ++ List.zipWith (fun label a => { label with access := a }) ys access := by
  induction access generalizing offset q xs ys with
  | nil =>
    rw [List.eq_nil_of_length_eq_zero hlen] at hlive ⊢
    exact ⟨q, rfl, hlive⟩
  | cons a access ih =>
    obtain ⟨y, ys, rfl⟩ := List.exists_cons_of_length_eq_add_one hlen
    have hmodify : (q.modify offset fun label => { label with access := a }).live =
        (xs ++ [{ y with access := a }]) ++ ys := by
      rw [← hoffset, Pool.live_modify_at hlive, List.append_assoc]
      rfl
    have hnext : (xs ++ [{ y with access := a }]).length = offset + 1 := by simp [hoffset]
    obtain ⟨q', heq, hq'⟩ := ih hmodify hnext (by simpa using hlen)
    refine ⟨q', heq, ?_⟩
    rw [hq', List.append_assoc, List.zipWith_cons_cons]
    rfl

/-- Levels of their own for labels that were just interned. -/
theorem Names.setAccess (overflow : Bool) {q : Pool Label caps.labels} {options : List Bytes} {access : List AccessLevel}
    (hn : Names c.labelPool (labelled options []) ref q) (hlen : access.length = options.length) (hne : access ≠ []) :
    ∃ q', (relabel c q overflow).setAccess ref.offset.toNat (access.take ref.count.toNat) = relabel c q' overflow ∧
      Names c.labelPool (labelled options access) ref q' := by
  have hplain : (labelled options []).length = options.length := List.length_map _
  have hcount : ref.count.toNat = access.length := by rw [hn.count, hplain, hlen]
  have hsome : labelled options [] ≠ [] := by
    intro hnil
    rw [hnil] at hplain
    exact hne (List.eq_nil_of_length_eq_zero (hlen.trans hplain.symm))
  have hoffset : c.labelPool.live.length = ref.offset.toNat := by rw [Pool.length_live, hn.offset hsome]
  obtain ⟨q', heq, hlive⟩ := setAccess_spec c overflow hn.live hoffset (hplain.trans hlen.symm)
  have hzip : labelled options access =
      List.zipWith (fun (label : Label) a => { label with access := a }) (labelled options []) access := by
    obtain ⟨a, l, rfl⟩ := List.exists_cons_of_ne_nil hne
    simp only [labelled, List.zipWith_map_left]
  rw [hcount, List.take_length]
  refine ⟨q', heq, by rw [hlive, hzip], ?_, fun _ => hn.offset hsome⟩
  rw [hzip, List.length_zipWith, hplain, hcount, hlen, Nat.min_self]

/-- `addSelectSchemaField` interns the options, sets their access levels and adds the field. -/
theorem addSelectSchemaField_spec {f : SchemaField} {options : List Bytes} {access : List AccessLevel} (h : Sound c [])
    (hroom : c.Room (only (.fields .schema) 1 + only .labels options.length)) :
    Outcome c (c.addSelectSchemaField f options access) (only (.fields .schema) 1 + only .labels options.length)
      (addItem c.contents (.schema { f.plain with hasOptionAccess := f.hasOptionAccess || !access.isEmpty }
        (labelled options access))) := by
  unfold addSelectSchemaField
  split
  · exact Outcome.latch h
  rename_i hlengths
  have hlen : (labelled options []).length = options.length := List.length_map _
  refine options_spec h hroom.right.of_labels fun q ref hn => ?_
  by_cases hnone : access = []
  · subst hnone
    rw [if_neg (by simp)]
    rw [← hlen] at hroom ⊢
    refine hn.outcome h fun hs hc => ?_
    have hspec := addSchemaField_spec (f := { f with options := ref }) hs (by simp) (hroom.grown hn.used_le)
    rw [hc, hn.labels_eq (Pool.Grows.refl _)] at hspec
    simpa [SchemaField.plain] using hspec
  · have hsome : access.length ≠ 0 := fun hzero => hnone (List.eq_nil_of_length_eq_zero hzero)
    have hequal : access.length = options.length := not_not.mp fun hne => hlengths ⟨hsome, hne⟩
    obtain ⟨q', heq, hn'⟩ := hn.setAccess c.overflow hequal hnone
    have hlen' : (labelled options access).length = options.length := by
      rw [← hn'.count, hn.count, hlen]
    rw [if_pos hsome, heq]
    rw [← hlen'] at hroom ⊢
    refine hn'.outcome h fun hs hc => ?_
    have hspec := addSchemaField_spec (f := { f with options := ref, hasOptionAccess := true }) hs (by simp)
      (hroom.grown hn'.used_le)
    have hflag : (f.hasOptionAccess || !access.isEmpty) = true := by simp [hnone]
    rw [hc, hn'.labels_eq (Pool.Grows.refl _)] at hspec
    rw [hflag]
    exact hspec

/-! ## Copies -/

theorem only_add (k : Counter) (m n : Nat) : only k (m + n) = only k m + only k n := by
  funext x
  simp only [only, Pi.add_apply]
  split <;> rfl

theorem only_zero (k : Counter) : only k 0 = 0 := by
  funext x
  simp [only]

/-- What one item takes. -/
def Item.needs (form : FieldForm) (x : Item) : Counter → Nat := only (.fields form) 1 + only .labels x.labels.length

/-- What a list of items needs: a field cell for each, and a label cell for each of their labels. -/
theorem sum_needs (l : List Item) :
    (l.map (Item.needs form)).sum = only (.fields form) l.length + only .labels (l.flatMap Item.labels).length := by
  induction l with
  | nil => simp [only_zero]
  | cons x l ih =>
    rw [List.map_cons, List.sum_cons, ih, List.length_cons, List.flatMap_cons, List.length_append, only_add, only_add]
    unfold Item.needs
    abel

/-- `copyLayoutField` adds the field with the labels it has in the source catalog. -/
theorem copyLayoutField_spec {src : BasicCatalog theirs} {f : LayoutField} (h : Sound c [])
    (hknown : src.Known f.bits ∧ src.Known f.options) (hroom : c.Room ((src.item .layout f).needs .layout)) :
    Outcome c (copyLayoutField src c f) ((src.item .layout f).needs .layout) (addItem c.contents (src.item .layout f)) := by
  have hneeds : (src.item .layout f).needs .layout = only (.fields .layout) 1 + only .labels (src.labels f.options).length +
      only .labels (src.labels f.bits).length := by
    simp only [Item.needs, item, Item.labels, List.length_append, only_add]
    abel
  rw [hneeds] at hroom ⊢
  refine (reintern_spec hknown.1 hroom.right.of_labels).andThen h fun q bits hn => hn.outcome h fun hs hc => ?_
  have hroom' := hroom.grown hn.used_le
  refine (reintern_spec hknown.2 hroom'.right.of_labels).andThen hs fun q' options hn' => hn'.outcome hs fun hs' hc' => ?_
  have hspec := addLayoutField_spec (f := { f with bits, options }) hs' (by simp) (hroom'.grown hn'.used_le)
  have hgrows : q.Grows q' := hn'.grows
  have hbits : (relabel (relabel c q c.overflow) q' (relabel c q c.overflow).overflow).labels bits = src.labels f.bits :=
    hn.labels_eq hgrows
  dsimp only at hspec
  rw [hc', hc, hn'.labels_eq (Pool.Grows.refl _), hbits] at hspec
  exact hspec

/-- `copySchemaField` does the same for a schema field. -/
theorem copySchemaField_spec {src : BasicCatalog theirs} {f : SchemaField} (h : Sound c []) (hknown : src.Known f.options)
    (hroom : c.Room ((src.item .schema f).needs .schema)) :
    Outcome c (copySchemaField src c f) ((src.item .schema f).needs .schema) (addItem c.contents (src.item .schema f)) := by
  refine (reintern_spec hknown (hroom.right.of_labels)).andThen h fun q options hn => hn.outcome h fun hs hc => ?_
  have hspec := addSchemaField_spec (f := { f with options }) hs (by simp) (hroom.grown hn.used_le)
  rw [hc, hn.labels_eq (Pool.Grows.refl _)] at hspec
  exact hspec

/-- The last entry is filled, or what came before it is still there. -/
structure Fills (c : BasicCatalog caps) (r : Result caps Unit) (needs : Counter → Nat) (init : List Content) (last : Content) :
    Prop where
  sound : Sound r.catalog []
  done : r.answer = some () → r.catalog.overflow = c.overflow ∧ r.catalog.contents = init ++ [last] ∧
    ∀ k, r.catalog.used k ≤ c.used k + needs k
  failed : r.answer = none → r.catalog.overflow = true ∧ init <+: r.catalog.contents

section

variable {needs : Counter → Nat} {init : List Content} {last : Content}

theorem Outcome.fills {r : Result caps Unit} {item : Item} (ho : Outcome c r needs (addItem c.contents item))
    (hc : c.contents = init ++ [last]) : Fills c r needs init { last with items := last.items ++ [item] } where
  sound := ho.sound
  done := by
    intro hr
    obtain ⟨hover, hafter, hused⟩ := ho.done hr
    exact ⟨hover, by rw [hafter, hc, addItem_concat], hused⟩
  failed := by
    intro hr
    obtain ⟨hover, hkept⟩ := ho.failed hr
    rw [hc] at hkept
    exact ⟨hover, (List.prefix_append _ _).trans hkept⟩

/-- A copy loop: each step adds one item, so the loop adds them all, or stops at the first that latches. -/
theorem forEach_spec {α : Type} {step : BasicCatalog caps → α → Result caps Unit} {item : α → Item} {l : List α}
    (hstep : ∀ (c : BasicCatalog caps), ∀ a ∈ l, Sound c [] → c.Room ((item a).needs form) →
      Outcome c (step c a) ((item a).needs form) (addItem c.contents (item a)))
    (h : Sound c []) (hroom : c.Room ((l.map item).map (Item.needs form)).sum) (hc : c.contents = init ++ [last]) :
    Fills c (forEach step c l) ((l.map item).map (Item.needs form)).sum init { last with items := last.items ++ l.map item } := by
  induction l generalizing c last with
  | nil =>
    refine ⟨h, fun _ => ⟨rfl, ?_, fun _ => Nat.le_refl _⟩, fun hn => nomatch hn⟩
    rw [List.map_nil, List.append_nil]
    exact hc
  | cons a l ih =>
    rw [List.map_cons, List.map_cons, List.sum_cons] at hroom ⊢
    have hone := (hstep c a List.mem_cons_self h hroom.left).fills hc
    unfold forEach Result.andThen
    cases hanswer : (step c a).answer with
    | none =>
      obtain ⟨hover, hkept⟩ := hone.failed hanswer
      exact ⟨hone.sound, (fun hsome => by cases hsome), fun _ => ⟨hover, hkept⟩⟩
    | some u =>
      obtain ⟨hover, hafter, hused⟩ := hone.done hanswer
      have hroom' : (step c a).catalog.Room ((l.map item).map (Item.needs form)).sum := by
        rw [add_comm] at hroom
        exact hroom.grown hused
      have hrest := ih (fun c b hb => hstep c b (List.mem_cons_of_mem a hb)) hone.sound hroom' hafter
      refine ⟨hrest.sound, fun hr => ?_, hrest.failed⟩
      obtain ⟨hover', hafter', hused'⟩ := hrest.done hr
      refine ⟨hover'.trans hover, ?_, fun k => ?_⟩
      · rw [hafter', List.append_assoc]
        rfl
      · have h1 := hused k
        have h2 := hused' k
        simp only [Pi.add_apply]
        omega

end

/-- `copyPayload` fills the entry just opened with every item of the source entry. -/
theorem copyPayload_spec {src : BasicCatalog theirs} {init : List Content} (h : Sound c []) (hmeant : src.Resolves e)
    (hroom : c.Room ((src.items e).map (Item.needs e.form)).sum) (hc : c.contents = init ++ [⟨e.header, []⟩]) :
    Fills c (c.copyPayload src e) ((src.items e).map (Item.needs e.form)).sum init (src.content e) := by
  unfold copyPayload content
  unfold Resolves at hmeant
  unfold items at hroom ⊢
  cases hform : e.form with
  | layout =>
    rw [hform] at hmeant hroom
    have hstep : ∀ (c : BasicCatalog caps), ∀ f ∈ src.layoutFields e, Sound c [] →
        c.Room ((src.item .layout f).needs .layout) → Outcome c (copyLayoutField src c f)
          ((src.item .layout f).needs .layout) (addItem c.contents (src.item .layout f)) :=
      fun c f hf hs hr => copyLayoutField_spec hs (hmeant f hf) hr
    exact forEach_spec hstep h hroom hc
  | schema =>
    rw [hform] at hmeant hroom
    have hstep : ∀ (c : BasicCatalog caps), ∀ f ∈ src.schemaFields e, Sound c [] →
        c.Room ((src.item .schema f).needs .schema) → Outcome c (copySchemaField src c f)
          ((src.item .schema f).needs .schema) (addItem c.contents (src.item .schema f)) :=
      fun c f hf hs hr => copySchemaField_spec hs (hmeant f hf) hr
    exact forEach_spec hstep h hroom hc
  | store =>
    rw [hform] at hmeant hroom
    obtain ⟨d, hd⟩ := Option.isSome_iff_exists.mp hmeant
    have hneeds : (Item.store d).needs .store = only (.fields .store) 1 := by
      rw [Item.needs, Item.labels, List.length_nil, only_zero, add_zero]
    simp only [hd, Option.toList_some, List.map_cons, List.map_nil, List.sum_cons, List.sum_nil, add_zero, item,
      hneeds] at hroom ⊢
    exact (addStoreDescriptor_spec h hroom).fills hc

/-- `addEntryFrom` adds the source entry whole when there is room for it. -/
theorem addEntryFrom_spec {src : BasicCatalog theirs} (h : Sound c []) (hmeant : src.Resolves e)
    (hroom : c.Room (only .entries 1 + only (.fields e.form) (src.items e).length +
      only .labels ((src.items e).flatMap Item.labels).length)) :
    Outcome c (c.addEntryFrom src e) (only .entries 1 + only (.fields e.form) (src.items e).length +
      only .labels ((src.items e).flatMap Item.labels).length) (c.contents ++ [src.content e]) := by
  rw [add_assoc, ← sum_needs] at hroom ⊢
  have hentry := addEntry_spec h hroom.left e
  unfold addEntryFrom Result.andThen
  cases hanswer : (c.addEntry e).answer with
  | none =>
    obtain ⟨hover, hkept⟩ := hentry.failed hanswer
    exact ⟨hentry.sound, (fun hsome => by cases hsome), fun _ => ⟨hover, hkept⟩⟩
  | some u =>
    obtain ⟨hover, hafter, hused⟩ := hentry.done hanswer
    rw [add_comm] at hroom
    have hfills := copyPayload_spec hentry.sound hmeant (hroom.grown hused) hafter
    refine ⟨hfills.sound, fun hr => ?_, hfills.failed⟩
    obtain ⟨hover', hafter', hused'⟩ := hfills.done hr
    refine ⟨hover'.trans hover, hafter', fun k => (hused' k).trans ?_⟩
    have := hused k
    simp only [Pi.add_apply]
    omega

/-! ## Sequences of calls -/

/-- One call of the builder, whichever it is: it adds what it asks for, or latches. -/
theorem call_spec {x : Call} (h : Sound c []) (hmeant : x.Meant) (hroom : c.Room x.needs) :
    Outcome c (c.call x) x.needs (x.asks c.contents) := by
  cases x with
  | addEntry header => exact addEntry_spec h hroom header
  | addLayoutField f =>
    obtain ⟨hbits, hoptions⟩ := hmeant
    have hspec := addLayoutField_spec (f := f) h (by simp [cells_absent hbits, cells_absent hoptions]) hroom
    rw [labels_absent hbits, labels_absent hoptions] at hspec
    exact hspec
  | addBitfieldField f bits => exact addBitfieldField_spec h hmeant hroom
  | addSelectField f options => exact addSelectField_spec h hmeant hroom
  | addSchemaField f =>
    have hspec := addSchemaField_spec (f := f) h (by simp [cells_absent hmeant]) hroom
    rw [labels_absent hmeant] at hspec
    exact hspec
  | addSelectSchemaField f options access => exact addSelectSchemaField_spec h hroom
  | addStoreDescriptor d => exact addStoreDescriptor_spec h hroom
  | addEntryFrom theirs src e => exact addEntryFrom_spec h hmeant hroom

/-- `clear` leaves a sound catalog with no reference owed. -/
theorem sound_clear (c : BasicCatalog caps) : Sound c.clear [] := by
  refine ⟨fun form => ?_, (fun e he => by cases he), (fun x hx => by cases hx), List.nodup_nil⟩
  cases form <;> rfl

/-- A run allowed to its end is allowed up to any point, and from there on. -/
theorem allows_append {earlier later : List Call} (h : c.Allows (earlier ++ later)) :
    c.Allows earlier ∧ (c.run earlier).Allows later := by
  induction earlier generalizing c with
  | nil => exact ⟨trivial, h⟩
  | cons x earlier ih =>
    obtain ⟨hx, hrest⟩ := h
    obtain ⟨hearlier, hlater⟩ := ih hrest
    exact ⟨⟨hx, hearlier⟩, hlater⟩

/-- A sequence keeps the invariant; while nothing overflows, each call has done what it was asked. -/
theorem run_spec {calls : List Call} (h : Sound c []) (hallows : c.Allows calls) :
    Sound (c.run calls) [] ∧
      ((c.run calls).ok = true → c.ok = true ∧ (c.run calls).contents = calls.foldl Call.asks c.contents) := by
  induction calls generalizing c with
  | nil => exact ⟨h, fun hok => ⟨hok, rfl⟩⟩
  | cons x calls ih =>
    obtain ⟨⟨hmeant, hroom⟩, hrest⟩ := hallows
    have hcall := call_spec h hmeant hroom
    obtain ⟨hsound, hall⟩ := ih hcall.sound hrest
    refine ⟨hsound, fun hok => ?_⟩
    obtain ⟨hok', hcontents⟩ := hall hok
    cases hanswer : (c.call x).answer with
    | none => simp [ok, (hcall.failed hanswer).1] at hok'
    | some u =>
      obtain ⟨hover, hafter, -⟩ := hcall.done hanswer
      rw [ok, hover] at hok'
      refine ⟨hok', hcontents.trans ?_⟩
      rw [hafter]
      rfl

/-- **The builder keeps its pools consistent.**  Fields that come without references, entries that can be read where they are
copied from and counters that do not wrap: then a catalog that is `ok` contains what the calls asked for, every cell of its
pools has one owner, and a call that fails is noted and leaves the entries before it alone. -/
theorem builder_consistent (c : BasicCatalog caps) (calls : List Call) (h : c.clear.Allows calls) :
    ((c.clear.run calls).ok = true →
      (c.clear.run calls).contents = calls.foldl Call.asks [] ∧ (c.clear.run calls).Apart) ∧
    ∀ earlier x later, calls = earlier ++ x :: later → ((c.clear.run earlier).call x).answer = none →
      ((c.clear.run earlier).call x).catalog.overflow = true ∧
        (c.clear.run earlier).contents <+: ((c.clear.run earlier).call x).catalog.contents := by
  refine ⟨fun hok => ?_, fun earlier x later hcalls hfail => ?_⟩
  · obtain ⟨hsound, hall⟩ := run_spec (sound_clear c) h
    exact ⟨(hall hok).2, hsound.apart⟩
  · rw [hcalls] at h
    obtain ⟨hearlier, ⟨hmeant, hroom⟩, -⟩ := allows_append h
    exact (call_spec (run_spec (sound_clear c) hearlier).1 hmeant hroom).failed hfail

/-- A mode with two names, in a catalog of its own. -/
theorem builder_consistent_mode :
    (BasicCatalog.empty : BasicCatalog { entries := 1, layoutFields := 1, labels := 2 }).clear.Allows
        [.addEntry { id := 0x0080 }, .addSelectField {} [[111], [112]]] ∧
      ((BasicCatalog.empty : BasicCatalog { entries := 1, layoutFields := 1, labels := 2 }).clear.run
        [.addEntry { id := 0x0080 }, .addSelectField {} [[111], [112]]]).contents =
        [⟨{ id := 0x0080 }, [.layout {} [] [{ text := [111] }, { text := [112] }]]⟩] := by
  have hsmall : ∀ (c : BasicCatalog { entries := 1, layoutFields := 1, labels := 2 }) needs, c.Room needs :=
    fun c needs k => .inl (by rcases k with _ | form | _ <;> first | decide | (cases form <;> decide))
  have hallows : (BasicCatalog.empty : BasicCatalog { entries := 1, layoutFields := 1, labels := 2 }).clear.Allows
      [.addEntry { id := 0x0080 }, .addSelectField {} [[111], [112]]] :=
    ⟨⟨trivial, hsmall _ _⟩, ⟨rfl, hsmall _ _⟩, trivial⟩
  exact ⟨hallows, ((builder_consistent _ _ hallows).1 (by decide)).1⟩

/-- Copying a store that has no descriptor yet fails, and the catalog says that it is well. -/
theorem copy_fails_unnoticed :
    ((BasicCatalog.empty : BasicCatalog { entries := 1 }).clear.call
        (.addEntryFrom { entries := 1 } BasicCatalog.empty { cls := .store })).answer = none ∧
      ((BasicCatalog.empty : BasicCatalog { entries := 1 }).clear.call
        (.addEntryFrom { entries := 1 } BasicCatalog.empty { cls := .store })).catalog.ok = true := by
  decide

end SlopSync.Builder
