import SlopSync.SlopBench.Shown

/-! # Echoes and the state that shows them

An accepted value is reported in the ECHO and is due in STATE after the echo delay.  `Run` is the life of a bench hub:
intents as they arrive, each with the echoes it leaves waiting, and ticks, which move the due ones to the shown.

`ShowsEchoes` is what the bench is for: at a tick, each field shows the latest echo that is due.  `AllShowable` and
`Orderly` are the conditions under which it does.  The rest is what an operation leaves of the tables: their shape
(`Keeps`), one field of them (`cell`) and what was published of them (`Published`). -/

namespace SlopSync.SlopBench

/-- A value the ECHO of an accepted intent reported for a field that is mirrored.  `dueAt` is the end of the echo delay,
in milliseconds that do not wrap, and `seq` counts the accepted values. -/
structure Echo where
  stateId : UInt16
  fieldIndex : Nat
  value : IntentValue
  dueAt : Nat
  seq : Nat
  deriving DecidableEq, Repr

namespace Echo

def SameField (e e' : Echo) : Prop := e.stateId = e'.stateId ∧ e.fieldIndex = e'.fieldIndex

/-- Due before, or at the same time and accepted no later. -/
def Before (e e' : Echo) : Prop := e.dueAt < e'.dueAt ∨ e.dueAt = e'.dueAt ∧ e.seq ≤ e'.seq

theorem Before.refl (e : Echo) : e.Before e := .inr ⟨rfl, Nat.le_refl _⟩

/-- The mirror of the echo is due at a tick, by the wrapping clock. -/
def isDue (nowMs : Nat) (e : Echo) : Bool := timeReached (UInt32.ofNat nowMs) (UInt32.ofNat e.dueAt)

end Echo

/-! ## What was configured -/

def HubConfig.layout (cfg : HubConfig) (stateId : UInt16) : Option (List FieldConfig) :=
  (cfg.channels.find? fun ch => ch.cls = .state ∧ ch.id = stateId).map ChannelConfig.fields

def HubConfig.field (cfg : HubConfig) (stateId : UInt16) (i : Nat) : Option FieldConfig :=
  (cfg.layout stateId).bind fun fields => fields[i]?

/-- The value the last published payload of a channel has in field `i`. -/
def shownAt (cfg : HubConfig) (h : BenchHub) (stateId : UInt16) (i : Nat) : Option PackedFieldType.Shown := do
  let fields ← cfg.layout stateId
  let payload ← h.published stateId
  readAt fields i payload

/-! ## Runs -/

/-- The link of a requested value and its target, when it has them. -/
def IntentRuntime.mirrored (rt : IntentRuntime) (rf : IntentValueField) : Option (IntentFieldLink × MirrorTarget) := do
  let l ← rt.findLink rf.key
  let g ← l.target
  return (l, g)

/-- The echoes of the requested values that are mirrored, counted from `next`. -/
def IntentRuntime.echoes (rt : IntentRuntime) (now : Nat) : Nat → IntentValueMap → List Echo
  | _, [] => []
  | next, rf :: rest =>
    match rt.mirrored rf with
    | some (l, g) => ⟨g.stateId, g.fieldIndex, l.applied rf.value, now + rt.echoDelayMs.toNat, next⟩ ::
        rt.echoes now (next + 1) rest
    | none => rt.echoes now next rest

def echoesOf (cfg : HubConfig) (now next : Nat) (channelId : UInt16) (requested : IntentValueMap) : List Echo :=
  match findIntent (buildIntents cfg) channelId with
  | some rt => rt.echoes now next (requested.take kIntentMaxValueFields)
  | none => []

/-- The life of a bench hub, with the echoes it has mirrored, those that wait, and the time of the last tick.  An intent
is applied at a clock reading that is not before the last tick's. -/
inductive Run (cfg : HubConfig) (anim : FieldConfig → UInt32 → UInt32) (startMs : UInt32)
    (okIntent : UInt16 → IntentValueMap → Prop) (okTick : List Echo → Nat → Prop) :
    BenchHub → List Echo → List Echo → Nat → Prop
  | boot (start : Nat) : Run cfg anim startMs okIntent okTick (boot cfg) [] [] start
  | intent {h : BenchHub} {shown waiting : List Echo} {last : Nat} {channelId : UInt16} {requested : IntentValueMap}
      (run : Run cfg anim startMs okIntent okTick h shown waiting last) (now : Nat) (hlast : last ≤ now)
      (ok : okIntent channelId requested) :
      Run cfg anim startMs okIntent okTick (applyIntent h (UInt32.ofNat now) channelId requested).2 shown
        (waiting ++ echoesOf cfg now (shown.length + waiting.length) channelId requested) last
  | tick {h : BenchHub} {shown waiting : List Echo} {last now : Nat}
      (run : Run cfg anim startMs okIntent okTick h shown waiting last) (hlast : last ≤ now) (ok : okTick waiting now) :
      Run cfg anim startMs okIntent okTick (tick anim startMs (UInt32.ofNat now) h)
        (shown ++ waiting.filter (Echo.isDue now)) (waiting.filter fun e => !e.isDue now) now

/-- At a tick, every field no animation drives shows the latest echo that is due: what another intent left due later, or
at the same time, has intervened. -/
def ShowsEchoes (cfg : HubConfig) (h : BenchHub) (accepted : List Echo) (now : Nat) : Prop :=
  ∀ e ∈ accepted, e.dueAt ≤ now → (∀ e' ∈ accepted, e'.SameField e → e'.dueAt ≤ now → e'.Before e) →
    (∀ f, cfg.field e.stateId e.fieldIndex = some f → f.animated = false) →
      ∃ s, shownAs e.value = some s ∧ shownAt cfg h e.stateId e.fieldIndex = some s

/-! ## The conditions -/

/-- The value can be shown where it is mirrored to. -/
def Showable (cfg : HubConfig) (l : IntentFieldLink) (g : MirrorTarget) (v : IntentValue) : Prop :=
  ∀ fields f, cfg.layout g.stateId = some fields → fields[g.fieldIndex]? = some f → f.animated = false →
    fieldEnd fields g.fieldIndex ≤ Limits.minTransportPayload ∧ Displays f.layoutType l v

/-- Every mirrored value of an intent can be shown. -/
def AllShowable (cfg : HubConfig) (channelId : UInt16) (requested : IntentValueMap) : Prop :=
  ∀ rt, findIntent (buildIntents cfg) channelId = some rt → ∀ rf ∈ requested.take kIntentMaxValueFields, ∀ l g,
    rt.mirrored rf = some (l, g) → Showable cfg l g rf.value

/-- The tick comes within half a wrap of the clock of everything that waits, and of the mirrors it finds due those of one
field were accepted in the order of their due times. -/
structure Orderly (waiting : List Echo) (now : Nat) : Prop where
  near : ∀ e ∈ waiting, now < e.dueAt + 2 ^ 31 ∧ e.dueAt ≤ now + 2 ^ 31
  inOrder : (waiting.filter fun e => e.dueAt ≤ now).Pairwise fun e e' => e.SameField e' → e.dueAt ≤ e'.dueAt

/-- In an orderly queue an echo is due when its time has come. -/
theorem Orderly.isDue {waiting : List Echo} {now : Nat} (h : Orderly waiting now) {e : Echo} (he : e ∈ waiting) :
    e.isDue now = decide (e.dueAt ≤ now) := by
  obtain ⟨hlate, hearly⟩ := h.near e he
  rw [Bool.eq_iff_iff, Echo.isDue, timeReached_iff, decide_eq_true_eq, UInt32.toNat_sub, UInt32.toNat_ofNat',
    UInt32.toNat_ofNat']
  omega

/-! ## The tables keep their shape -/

def StateRuntime.layout (sr : StateRuntime) : UInt16 × List FieldConfig := (sr.id, sr.fields.map FieldRuntime.cfg)

/-- The STATE tables have the channels and fields of the configuration. -/
def Keeps (cfg : HubConfig) (states : List StateRuntime) : Prop :=
  states.map StateRuntime.layout = (buildStates cfg).map StateRuntime.layout

section

variable {cfg : HubConfig} {anim : FieldConfig → UInt32 → UInt32} {states : List StateRuntime} {t : UInt32}

theorem layout_animate (sr : StateRuntime) : (sr.animate anim t).layout = sr.layout := by
  have hcfg : ∀ f : FieldRuntime, (f.animate anim t).cfg = f.cfg := by
    intro f
    unfold FieldRuntime.animate
    split <;> rfl
  simp [StateRuntime.layout, StateRuntime.animate, Function.comp_def, hcfg]

theorem cfg_set (pm : PendingMirror) (f : FieldRuntime) : (f.set pm).cfg = f.cfg := by
  unfold FieldRuntime.set
  split <;> rfl

theorem layout_set (pm : PendingMirror) (sr : StateRuntime) : (sr.set pm).layout = sr.layout := by
  unfold StateRuntime.set
  split
  · have hmap : (sr.fields.modify pm.fieldIndex (FieldRuntime.set pm)).map FieldRuntime.cfg =
        sr.fields.map FieldRuntime.cfg := by
      refine List.ext_getElem? fun k => ?_
      rw [List.getElem?_map, List.getElem?_map, List.getElem?_modify]
      cases sr.fields[k]? with
      | none => rfl
      | some f => split <;> simp [cfg_set]
    exact congrArg (Prod.mk sr.id) hmap
  · rfl

theorem Keeps.animate (h : Keeps cfg states) : Keeps cfg (states.map (StateRuntime.animate anim t)) := by
  unfold Keeps
  rw [List.map_map, ← h]
  exact List.map_congr_left fun sr _ => layout_animate sr

/-- A mirror changes values, not the layout. -/
theorem Keeps.applyMirror (h : Keeps cfg states) (pm : PendingMirror) : Keeps cfg (applyMirror states pm) :=
  (Keyed.map_modifyFirst (layout_set pm) states).trans h

theorem Keeps.clean (h : Keeps cfg states) : Keeps cfg (states.map StateRuntime.clean) := by
  unfold Keeps
  rw [List.map_map, ← h]
  rfl

/-- The first channel of an id is found in the tables as it is in the configuration. -/
theorem Keeps.layout (h : Keeps cfg states) (id : UInt16) :
    cfg.layout id = (findState states id).map fun sr => sr.fields.map FieldRuntime.cfg := by
  have hfind : ∀ l : List StateRuntime, (findState l id).map (fun sr => sr.fields.map FieldRuntime.cfg) =
      ((l.map StateRuntime.layout).find? fun p => p.1 = id).map Prod.snd := by
    intro l
    rw [List.find?_map, Option.map_map]
    rfl
  rw [hfind, h, ← hfind, findState, buildStates, List.find?_map, Option.map_map, List.find?_filter, HubConfig.layout]
  have hfields : ((fun sr : StateRuntime => sr.fields.map FieldRuntime.cfg) ∘ ChannelConfig.state) =
      ChannelConfig.fields := by
    funext ch
    simp [ChannelConfig.state, Function.comp_def, FieldConfig.runtime]
  rw [hfields]
  refine congrArg _ (congrArg (fun p => List.find? p cfg.channels) (funext fun ch => ?_))
  exact decide_eq_decide.mpr ⟨fun ⟨hc, hi⟩ => ⟨decide_eq_true hc, decide_eq_true hi⟩,
    fun ⟨hc, hi⟩ => ⟨of_decide_eq_true hc, of_decide_eq_true hi⟩⟩

/-- The ids of the state tables stay distinct. -/
theorem Keeps.distinct (h : Keeps cfg states) : (states.map StateRuntime.id).Nodup := by
  have hids : states.map StateRuntime.id = (cfg.channels.filter fun ch => ch.cls = .state).map ChannelConfig.id := by
    calc states.map StateRuntime.id = (states.map StateRuntime.layout).map Prod.fst := by rw [List.map_map]; rfl
      _ = ((buildStates cfg).map StateRuntime.layout).map Prod.fst := by rw [h]
      _ = _ := by rw [List.map_map, buildStates, List.map_map]; rfl
  rw [hids]
  exact cfg.distinct.sublist (List.filter_sublist.map _)

end

/-! ## One field -/

def cell (states : List StateRuntime) (id : UInt16) (i : Nat) : Option FieldRuntime :=
  (findState states id).bind fun sr => sr.fields[i]?

section

variable {cfg : HubConfig} {anim : FieldConfig → UInt32 → UInt32} {states : List StateRuntime} {t : UInt32}
  {id : UInt16} {i : Nat} {f : FieldRuntime} {pm : PendingMirror}

/-- A cell has the configuration its field was declared with. -/
theorem Keeps.cell (h : Keeps cfg states) (id : UInt16) (i : Nat) :
    cfg.field id i = (cell states id i).map FieldRuntime.cfg := by
  rw [HubConfig.field, h.layout, SlopBench.cell]
  cases findState states id <;> simp

theorem cell_animate : cell (states.map (StateRuntime.animate anim t)) id i =
    (cell states id i).map (FieldRuntime.animate anim t) := by
  rw [cell, findState, List.find?_map]
  have hid : ((fun sr : StateRuntime => decide (sr.id = id)) ∘ StateRuntime.animate anim t) = fun sr => decide (sr.id = id) :=
    rfl
  rw [hid, cell, findState]
  cases states.find? fun sr => decide (sr.id = id) <;> simp [StateRuntime.animate]

theorem cell_clean : cell (states.map StateRuntime.clean) id i = cell states id i := by
  rw [cell, findState, List.find?_map]
  have hid : ((fun sr : StateRuntime => decide (sr.id = id)) ∘ StateRuntime.clean) =
      fun sr => decide (sr.id = id) := rfl
  rw [hid, cell, findState]
  cases states.find? fun sr => decide (sr.id = id) <;> rfl

theorem id_set (pm : PendingMirror) (sr : StateRuntime) : (sr.set pm).id = sr.id := congrArg Prod.fst (layout_set pm sr)

/-- A mirror writes its field. -/
theorem cell_applyMirror_self (h : cell states pm.stateId pm.fieldIndex = some f) :
    cell (applyMirror states pm) pm.stateId pm.fieldIndex = some (f.set pm) := by
  obtain ⟨sr, hsr, hf⟩ := Option.bind_eq_some_iff.mp h
  have hfind : findState (applyMirror states pm) pm.stateId = some (sr.set pm) := by
    rw [findState, applyMirror, Keyed.find?_modifyFirst_self (fun sr => by rw [id_set])]
    exact congrArg _ hsr
  rw [cell, hfind, Option.bind_some, StateRuntime.set, if_pos (List.getElem?_eq_some_iff.mp hf).1]
  rw [List.getElem?_modify_eq, hf]
  rfl

/-- And no other. -/
theorem cell_applyMirror_other (h : ¬ (pm.stateId = id ∧ pm.fieldIndex = i)) :
    cell (applyMirror states pm) id i = cell states id i := by
  by_cases hid : pm.stateId = id
  · subst hid
    have hi : pm.fieldIndex ≠ i := fun e => h ⟨rfl, e⟩
    rw [cell, findState, applyMirror, Keyed.find?_modifyFirst_self (fun sr => by rw [id_set]), cell, findState]
    cases states.find? fun sr => decide (sr.id = pm.stateId) with
    | none => rfl
    | some sr =>
      simp only [Option.map_some, Option.bind_some, StateRuntime.set]
      split
      · exact List.getElem?_modify_ne _ _ hi
      · rfl
  · have hfind : findState (applyMirror states pm) id = findState states id := by
      refine Keyed.find?_modifyFirst_other (fun sr hsr => ?_) (fun sr hsr => ?_) states
      · simpa using fun e => hid ((of_decide_eq_true hsr).symm.trans e)
      · rw [id_set]
        simpa using fun e => hid ((of_decide_eq_true hsr).symm.trans e)
    rw [cell, hfind, cell]

end

/-! ## Publishing -/

/-- A channel that has not changed since was published as it is. -/
def Published (published : UInt16 → Option Bytes) (states : List StateRuntime) : Prop :=
  ∀ sr ∈ states, sr.dirty = false → published sr.id = some sr.payload

section

variable {anim : FieldConfig → UInt32 → UInt32} {published : UInt16 → Option Bytes} {states : List StateRuntime} {t : UInt32}

/-- A table that is clean after an animation was not animated. -/
theorem animate_of_clean {sr : StateRuntime} (h : (sr.animate anim t).dirty = false) : sr.animate anim t = sr := by
  obtain ⟨hdirty, hnone⟩ := Bool.or_eq_false_iff.mp h
  have hfields : sr.fields.map (FieldRuntime.animate anim t) = sr.fields := by
    refine (List.map_congr_left fun f hf => ?_).trans (List.map_id _)
    have := List.any_eq_false.mp hnone f hf
    simp [FieldRuntime.animate, this]
  rw [StateRuntime.animate, hfields, hdirty, hnone]
  exact congrArg (StateRuntime.mk sr.id sr.fields) hdirty.symm

/-- What was published stays published under an animation. -/
theorem Published.animate (h : Published published states) :
    Published published (states.map (StateRuntime.animate anim t)) := by
  intro sr hsr hclean
  obtain ⟨sr', hmem, rfl⟩ := List.mem_map.mp hsr
  have heq := animate_of_clean hclean
  rw [heq] at hclean ⊢
  exact h sr' hmem hclean

/-- What was published stays published under a mirror. -/
theorem Published.applyMirror (h : Published published states) (pm : PendingMirror) :
    Published published (applyMirror states pm) := by
  intro sr hsr hclean
  rcases Keyed.mem_modifyFirst hsr with hmem | ⟨sr', hmem, -, rfl⟩
  · exact h sr hmem hclean
  · unfold StateRuntime.set at hclean ⊢
    split at hclean
    · cases hclean
    · rename_i hlen
      rw [if_neg hlen]
      exact h sr' hmem hclean

/-- Publishing one table leaves the others' payloads. -/
theorem publishDirty_other {sr : StateRuntime} {id : UInt16} (h : sr.id ≠ id) : publishDirty published sr id = published id := by
  unfold publishDirty
  split
  · exact Function.update_of_ne (Ne.symm h) _ _
  · rfl

theorem foldl_publishDirty_other {id : UInt16} : ∀ {states : List StateRuntime} {published : UInt16 → Option Bytes},
    (∀ sr ∈ states, sr.id ≠ id) → states.foldl publishDirty published id = published id
  | [], _, _ => rfl
  | sr :: states, published, h => by
    rw [List.foldl_cons, foldl_publishDirty_other fun x hx => h x (List.mem_cons_of_mem sr hx)]
    exact publishDirty_other (h sr List.mem_cons_self)

/-- Publishing the changed channels leaves every channel published as it is. -/
theorem foldl_publishDirty : ∀ {states : List StateRuntime} {published : UInt16 → Option Bytes},
    (states.map StateRuntime.id).Nodup → Published published states →
      ∀ sr ∈ states, states.foldl publishDirty published sr.id = some sr.payload
  | [], _, _, _ => fun _ h => nomatch h
  | sr :: states, published, hnodup, h => by
    obtain ⟨hnew, hnodup⟩ := List.nodup_cons.mp hnodup
    have hother : ∀ x ∈ states, sr.id ≠ x.id := fun x hx e => hnew (e ▸ List.mem_map_of_mem hx)
    intro x hx
    rw [List.foldl_cons]
    rcases List.mem_cons.mp hx with rfl | hx
    · rw [foldl_publishDirty_other fun y hy => (hother y hy).symm, publishDirty]
      split
      · exact Function.update_self ..
      · rename_i hclean
        exact h x List.mem_cons_self (by simpa using hclean)
    · refine foldl_publishDirty hnodup (fun y hy hclean => ?_) x hx
      rw [publishDirty_other (hother y hy)]
      exact h y (List.mem_cons_of_mem sr hy) hclean

/-- The mirrors of a tick keep the tables. -/
theorem foldl_applyMirror {cfg : HubConfig} {states : List StateRuntime} (hkeep : Keeps cfg states)
    (hpub : Published published states) (pms : List PendingMirror) :
    Keeps cfg (pms.foldl applyMirror states) ∧ Published published (pms.foldl applyMirror states) := by
  induction pms generalizing states with
  | nil => exact ⟨hkeep, hpub⟩
  | cons pm pms ih => exact ih (hkeep.applyMirror pm) (hpub.applyMirror pm)

/-- What every table shows is published once the tables are clean. -/
theorem Published.clean (h : ∀ sr ∈ states, published sr.id = some sr.payload) :
    Published published (states.map StateRuntime.clean) := by
  intro sr hsr _
  obtain ⟨sr', hmem, rfl⟩ := List.mem_map.mp hsr
  exact h sr' hmem

end

end SlopSync.SlopBench
