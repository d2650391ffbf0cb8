import SlopSync.Contents
import SlopSync.Intents
import SlopSync.Laws.Arrays
import SlopSync.Laws.Builder
import SlopSync.Laws.Rings

/-! # The hub's tables in memory

The hub has its tables as lists, and its catalog with every reference resolved.  The arrays, the rings and the catalog of the
builder hold them: whatever is done, memory answers as the hub's table does and shows what it has.

- `subscriptions_follow`, `snapshots_follow`, `grants_follow`, `knocks_follow`, `owners_follow`: the tables; with the maps that
  the arrays are, the hub's tables are maps too (`subscriptions_tabulate` and so on);
- `events_follow`, `tail_follows`, `stores_follow`: the rings;
- `catalog_run`: the catalog. -/

namespace SlopSync.Memory

open Circular FiniteMaps Following Keyed

/-- A refusal changes nothing. -/
def attempt {σ : Type} (s : σ) : Option σ → Bool × σ
  | some s' => (true, s')
  | none => (false, s)

/-! ## Subscriptions -/

section

variable {t : Arrays.SubscriptionTable Limits.maxSubscriptionsPerSession} {s : SubscriptionTable}

/-- An operation on the model's subscriptions, with its answer. -/
def subscriptionStep (s : SubscriptionTable) : Arrays.SubscriptionOp → Bool × SubscriptionTable
  | .upsert ch rate priority => attempt s (s.upsert ch rate priority)
  | .remove ch => ((s.find ch).isSome, s.remove ch)
  | .edit ch f => ((s.find ch).isSome, s.update ch f.apply)

/-- One operation on the subscriptions, in memory and in the model. -/
theorem subscription_step (op : Arrays.SubscriptionOp) (h : t.live = s.entries) :
    (t.step op).1 = (subscriptionStep s op).1 ∧ (t.step op).2.live = (subscriptionStep s op).2.entries := by
  have hfind : ∀ ch, Filled.find t (isAt SubscriptionEntry.channelId ch) = s.find ch := by
    intro ch
    rw [Filled.find, h]
    rfl
  cases op with
  | upsert ch rate priority =>
    have hcount : t.count = s.entries.length := by rw [← h, Filled.length_live]
    unfold Arrays.SubscriptionTable.step Arrays.SubscriptionTable.upsert Filled.upsert subscriptionStep SubscriptionTable.upsert
    dsimp only
    rw [hfind]
    split
    · refine ⟨rfl, ?_⟩
      rw [Filled.live_modify, h]
      rfl
    by_cases hroom : s.entries.length < Limits.maxSubscriptionsPerSession
    · rw [dif_pos hroom, dif_pos (hcount ▸ hroom)]
      refine ⟨rfl, ?_⟩
      rw [Filled.live_append, h]
      rfl
    · rw [dif_neg hroom, dif_neg (hcount ▸ hroom)]
      exact ⟨rfl, h⟩
  | remove ch =>
    obtain ⟨hok, hlive⟩ := Filled.remove_spec (p := isAt SubscriptionEntry.channelId ch) t
    rw [h] at hlive
    exact ⟨hok.trans (congrArg Option.isSome (hfind ch)), hlive⟩
  | edit ch f =>
    have hlive := Filled.live_modify (p := isAt SubscriptionEntry.channelId ch) (f := f.apply) t
    rw [h] at hlive
    exact ⟨congrArg Option.isSome (hfind ch), hlive⟩

/-- So the array follows the model over any sequence of operations. -/
theorem subscriptions_follow (ops : List Arrays.SubscriptionOp) :
    Following.Follows (fun t s => t.live = s.entries) (fun t op => some (Arrays.SubscriptionTable.step t op)) subscriptionStep
      (Arrays.SubscriptionTable.empty : Arrays.SubscriptionTable Limits.maxSubscriptionsPerSession) {} ops :=
  follows_of_total (fun _ _ op h => subscription_step op h) rfl

/-- The hub's subscriptions are a map. -/
theorem subscriptions_tabulate (ops : List Arrays.SubscriptionOp) :
    Following.Follows (fun s m => Tabulates SubscriptionEntry.channelId Limits.maxSubscriptionsPerSession s.entries m)
      (fun s op => some (subscriptionStep s op)) (Arrays.subscriptionMap Limits.maxSubscriptionsPerSession) {}
      (fun _ => none) ops := by
  have hmap : Following.Follows Arrays.SubscriptionShows (fun t op => some (Arrays.SubscriptionTable.step t op))
      (Arrays.subscriptionMap Limits.maxSubscriptionsPerSession) Arrays.SubscriptionTable.empty (fun _ => none) ops :=
    follows_of_total (fun _ _ op => Arrays.subscriptions_step op) Tabulates.nil
  refine ((subscriptions_follow ops).between hmap).mono ?_
  rintro s m ⟨t, hlive, hshows⟩
  exact hlive ▸ hshows

end

/-! ## Retained values -/

section

variable {t : Arrays.RetainedStore 32} {s : RetainedStore}

/-- A publish into the model's retained values. -/
def snapshotStep (s : RetainedStore) (op : UInt16 × Bytes) : Option UInt16 × RetainedStore :=
  match s.publish op.1 op.2 with
  | some (s', seq) => (some seq, s')
  | none => (none, s)

/-- The slots show the entries, and all of them are valid. -/
structure SameSnapshots (t : Arrays.RetainedStore 32) (s : RetainedStore) : Prop where
  entries : t.live.map Arrays.RetainedSlot.shown = s.entries
  valid : ∀ e ∈ t.live, e.valid = true

/-- Looking a channel up gives the same value. -/
theorem SameSnapshots.find (h : SameSnapshots t s) (ch : UInt16) :
    (Arrays.RetainedStore.find t ch).map Arrays.RetainedSlot.shown = s.get ch := by
  rw [RetainedStore.get, ← h.entries, List.find?_map]
  rfl

/-- One publish, in memory and in the model. -/
theorem snapshot_step (op : UInt16 × Bytes) (h : SameSnapshots t s) :
    (t.step op).1 = (snapshotStep s op).1 ∧ SameSnapshots (t.step op).2 (snapshotStep s op).2 := by
  obtain ⟨ch, payload⟩ := op
  have hcount : t.count = s.entries.length := by rw [← h.entries, List.length_map, Filled.length_live]
  unfold Arrays.RetainedStore.step Arrays.RetainedStore.publish snapshotStep RetainedStore.publish
  dsimp only
  by_cases hlen : Limits.minTransportPayload < payload.length
  · rw [dif_pos hlen, if_pos hlen]
    exact ⟨rfl, h⟩
  rw [dif_neg hlen, if_neg hlen, ← h.find]
  have hle := Nat.not_lt.mp hlen
  cases hf : Arrays.RetainedStore.find t ch with
  | some e =>
    have hsame : ∀ x : Arrays.RetainedSlot, isAt RetainedEntry.channelId ch x.shown =
        isAt Arrays.RetainedSlot.channelId ch x := fun _ => rfl
    have hentries : (modifyFirst (isAt Arrays.RetainedSlot.channelId ch) (Arrays.RetainedSlot.publish payload hle)
        t.live).map Arrays.RetainedSlot.shown = modifyFirst (isAt RetainedEntry.channelId ch)
          (fun e => { e with seq := e.seq + 1, payload }) (t.live.map Arrays.RetainedSlot.shown) :=
      map_rewrite (fun x => Arrays.shown_publish hle x) hsame t.live
    rw [← Filled.live_modify, h.entries] at hentries
    refine ⟨rfl, hentries, fun x hx => ?_⟩
    rw [Filled.live_modify] at hx
    rcases mem_modifyFirst hx with hx | ⟨y, -, -, rfl⟩
    · exact h.valid x hx
    · rfl
  | none =>
    dsimp only [Option.map_none]
    by_cases hroom : s.entries.length < 32
    · rw [dif_pos hroom, dif_pos (hcount ▸ hroom)]
      refine ⟨rfl, ?_, fun x hx => ?_⟩
      · rw [Filled.live_append, List.map_append, List.map_singleton, h.entries, Arrays.shown_publish hle]
        rfl
      · rw [Filled.live_append] at hx
        rcases List.mem_append.mp hx with hx | hx
        · exact h.valid x hx
        · rw [List.mem_singleton.mp hx]
          rfl
    · rw [dif_neg hroom, dif_neg (hcount ▸ hroom)]
      exact ⟨rfl, h⟩

/-- So the store follows the model. -/
theorem snapshots_follow (ops : List (UInt16 × Bytes)) :
    Following.Follows SameSnapshots (fun t op => some (Arrays.RetainedStore.step t op)) snapshotStep
      (Arrays.RetainedStore.empty : Arrays.RetainedStore 32) {} ops :=
  follows_of_total (fun _ _ op h => snapshot_step op h) ⟨rfl, fun _ he => by cases he⟩

/-- The hub's snapshots are a map. -/
theorem snapshots_tabulate (ops : List (UInt16 × Bytes)) :
    Following.Follows (fun s m => Tabulates RetainedEntry.channelId 32 s.entries m) (fun s op => some (snapshotStep s op))
      (Arrays.retainedMap 32) {} (fun _ => none) ops := by
  have hmap : Following.Follows Arrays.RetainedShows (fun t op => some (Arrays.RetainedStore.step t op)) (Arrays.retainedMap 32)
      Arrays.RetainedStore.empty (fun _ => none) ops :=
    follows_of_total (fun _ _ op => Arrays.retained_step op) ⟨Tabulates.nil, fun _ he => by cases he⟩
  refine ((snapshots_follow ops).between hmap).mono ?_
  rintro s m ⟨t, hsame, hshows⟩
  exact hsame.entries ▸ hshows.shows

end

/-! ## Publish grants -/

section

variable {t : Arrays.PublishGrants} {s : HubSession}

/-- An operation on a session's publish grants. -/
def grantStep (s : HubSession) : Arrays.GrantOp → Bool × HubSession
  | .add ch rate nowMs burst burstRequested curveFamily =>
    attempt s (s.addPublishGrant ch rate nowMs burst burstRequested curveFamily)
  | .edit ch f => ((s.publishGrants.find ch).isSome, { s with publishGrants := s.publishGrants.modify ch f.apply })

/-- One operation on the publish grants. -/
theorem grant_step (op : Arrays.GrantOp) (h : t.Packed s.publishGrants.grants) :
    (t.step op).1 = (grantStep s op).1 ∧ (t.step op).2.Packed (grantStep s op).2.publishGrants.grants := by
  have hfind : ∀ ch, Slotted.find t (isAt PublishGrant.channelId ch) = s.publishGrants.find ch := fun ch => h.find _
  cases op with
  | add ch rate nowMs burst burstRequested curveFamily =>
    unfold Arrays.PublishGrants.step Arrays.PublishGrants.addPublishGrant Slotted.upsert grantStep HubSession.addPublishGrant
    dsimp only
    rw [hfind]
    split
    · exact ⟨rfl, h.modify⟩
    by_cases hroom : s.publishGrants.grants.length < kMaxPublishGrants
    · obtain ⟨t', hfill, ht'⟩ := h.fill (a := Arrays.PublishGrants.granted rate nowMs burst burstRequested curveFamily
        { channelId := ch }) hroom
      rw [dif_pos hroom, hfill]
      exact ⟨rfl, ht'⟩
    · rw [dif_neg hroom, h.full (Nat.le_antisymm s.publishGrants.fits (Nat.not_lt.mp hroom))]
      exact ⟨rfl, h⟩
  | edit ch f => exact ⟨congrArg Option.isSome (hfind ch), h.modify⟩

/-- So they follow. -/
theorem grants_follow (ops : List Arrays.GrantOp) :
    Following.Follows (fun t s => t.Packed s.publishGrants.grants) (fun t op => some (Arrays.PublishGrants.step t op)) grantStep
      Slotted.empty {} ops :=
  follows_of_total (fun _ _ op h => grant_step op h) Slotted.packed_empty

/-- The grants of a session are a map. -/
theorem grants_tabulate (ops : List Arrays.GrantOp) :
    Following.Follows (fun s m => Tabulates PublishGrant.channelId kMaxPublishGrants s.publishGrants.grants m)
      (fun s op => some (grantStep s op)) Arrays.grantMap {} (fun _ => none) ops := by
  have hmap : Following.Follows Arrays.GrantShows (fun t op => some (Arrays.PublishGrants.step t op)) Arrays.grantMap
      Slotted.empty (fun _ => none) ops :=
    follows_of_total (fun _ _ op => Arrays.grants_step op) Slotted.shows_empty
  refine ((grants_follow ops).between hmap).mono ?_
  rintro s m ⟨t, hpacked, hshows⟩
  exact hpacked.live ▸ hshows

end

/-! ## Pending knocks -/

section

variable {t : Arrays.PendingPairingList Limits.pairingPendingMax} {l : PendingPairingList}

/-- An operation on the pending knocks. -/
def knockStep (l : PendingPairingList) : Arrays.KnockOp → Arrays.KnockAnswer × PendingPairingList
  | .add inst sid expiresAtMs mode =>
    let r := attempt l (l.add inst sid expiresAtMs mode)
    (.done r.1, r.2)
  | .edit inst f => (.done (l.find inst).isSome, l.modify inst f.apply)
  | .remove inst => (.done (l.find inst).isSome, l.remove inst)
  | .expire nowMs =>
    (.ofList (l.select (PendingPairingList.expired nowMs)), l.drop (PendingPairingList.expired nowMs))
  | .dropBySession sid =>
    (.ofList (l.select (PendingPairingList.ofSession sid)), l.drop (PendingPairingList.ofSession sid))

theorem isAt_knock (inst : InstanceId) : isAt PendingKnock.instanceId inst = PendingPairingList.isFor inst := by
  funext k
  rw [Bool.eq_iff_iff, isAt_iff, PendingPairingList.isFor, beq_iff_eq]

/-- Changing a knock in the array changes it in the list. -/
theorem knock_modify (inst : InstanceId) (f : PendingKnock → PendingKnock) (h : t.slots = l.slots) :
    (t.modify (isAt PendingKnock.instanceId inst) f).slots = (l.modify inst f).slots := by
  rw [isAt_knock]
  exact congrArg (modifyFirst (fun o => o.any (PendingPairingList.isFor inst)) (Option.map f)) h

/-- A sweep takes out the same knocks. -/
theorem knock_sweep (p : PendingKnock → Bool) (h : t.slots = l.slots) :
    (Arrays.PendingPairingList.sweep t p).1 = l.select p ∧
      (Arrays.PendingPairingList.sweep t p).2.slots = (l.drop p).slots := by
  constructor
  · rw [Arrays.PendingPairingList.sweep, PendingPairingList.select, Slotted.live, List.reduceOption, h]
    exact List.filter_filterMap ..
  · exact congrArg (List.map fun o => if o.any p then none else o) h

/-- One operation on the pending knocks. -/
theorem knock_step (op : Arrays.KnockOp) (h : t.slots = l.slots) :
    (t.step op).1 = (knockStep l op).1 ∧ (t.step op).2.slots = (knockStep l op).2.slots := by
  have hfind : ∀ inst, Slotted.find t (isAt PendingKnock.instanceId inst) = l.find inst := by
    intro inst
    rw [Slotted.find, h, isAt_knock]
    rfl
  cases op with
  | add inst sid expiresAtMs mode =>
    unfold Arrays.PendingPairingList.step Arrays.PendingPairingList.add Slotted.upsert knockStep PendingPairingList.add
    dsimp only
    rw [hfind]
    split
    · exact ⟨rfl, knock_modify inst _ h⟩
    have hfill := Slotted.map_fill (a := ({ instanceId := inst, sessionId := sid, expiresAtMs, mode } : PendingKnock)) t
    rw [h] at hfill
    split
    · rename_i t' ht
      rw [ht] at hfill
      split
      · rename_i hnone
        cases hfill.trans hnone
      · rename_i slots hslots
        exact ⟨rfl, Option.some.inj (hfill.trans hslots)⟩
    · rename_i ht
      rw [ht] at hfill
      split
      · exact ⟨rfl, h⟩
      · rename_i slots hslots
        cases hfill.trans hslots
  | edit inst f =>
    exact ⟨congrArg (fun o : Option PendingKnock => Arrays.KnockAnswer.done o.isSome) (hfind inst),
      knock_modify inst f.apply h⟩
  | remove inst =>
    unfold Arrays.PendingPairingList.step Arrays.PendingPairingList.remove Arrays.PendingPairingList.find knockStep
    dsimp only
    rw [hfind]
    split
    · rename_i hsome
      refine ⟨by rw [hsome], ?_⟩
      rw [isAt_knock]
      exact congrArg (modifyFirst (fun o => o.any (PendingPairingList.isFor inst)) fun _ => none) h
    · rename_i hnone
      rw [Bool.not_eq_true, Option.isSome_eq_false_iff, Option.isNone_iff_eq_none] at hnone
      rw [hnone]
      exact ⟨rfl, h.trans (modifyUsed_none hnone).symm⟩
  | expire nowMs =>
    obtain ⟨hfired, hslots⟩ := knock_sweep (PendingPairingList.expired nowMs) h
    exact ⟨congrArg Arrays.KnockAnswer.ofList hfired, hslots⟩
  | dropBySession sid =>
    obtain ⟨hfired, hslots⟩ := knock_sweep (PendingPairingList.ofSession sid) h
    exact ⟨congrArg Arrays.KnockAnswer.ofList hfired, hslots⟩

/-- So they follow, slot by slot. -/
theorem knocks_follow (ops : List Arrays.KnockOp) :
    Following.Follows (fun t l => t.slots = l.slots) (fun t op => some (Arrays.PendingPairingList.step t op)) knockStep
      (Slotted.empty : Arrays.PendingPairingList Limits.pairingPendingMax) {} ops :=
  follows_of_total (fun _ _ op h => knock_step op h) rfl

/-- The knocks that wait are a map. -/
theorem knocks_tabulate (ops : List Arrays.KnockOp) :
    Following.Follows (fun l m => Tabulates PendingKnock.instanceId Limits.pairingPendingMax l.slots.reduceOption m)
      (fun l op => some (knockStep l op)) (Arrays.knockMap Limits.pairingPendingMax) {} (fun _ => none) ops := by
  have hmap : Following.Follows Arrays.KnockShows (fun t op => some (Arrays.PendingPairingList.step t op))
      (Arrays.knockMap Limits.pairingPendingMax) Slotted.empty (fun _ => none) ops :=
    follows_of_total (fun _ _ op => Arrays.knocks_step op) Slotted.shows_empty
  refine ((knocks_follow ops).between hmap).mono ?_
  rintro l m ⟨t, hslots, hshows⟩
  exact hslots ▸ hshows

end

/-! ## Source ownership -/

section

variable {t : Arrays.SourceOwnershipTable} {s : SourceOwnershipTable}

/-- An operation on the source table. -/
def ownerStep (s : SourceOwnershipTable) : Arrays.OwnershipOp → Arrays.OwnershipAnswer × SourceOwnershipTable
  | .acquire src sid role takeover =>
    (.acquired (s.acquire src sid role takeover).1, (s.acquire src sid role takeover).2)
  | .release src sid =>
    if (s.find src).any fun e => e.owner == sid then (.released true, s.update src 0 .watch) else (.released false, s)
  | .releaseAllOf sid =>
    (.told {src | src ∈ s.ownedBy sid} (s.ownedBy sid).length,
      (s.ownedBy sid).foldl (fun s src => s.update src 0 .watch) s)

theorem owner_find (h : t.Packed s.entries) (src : UInt8) : Arrays.SourceOwnershipTable.find t src = s.find src := h.find _

theorem entries_update (s : SourceOwnershipTable) (src : UInt8) (o : UInt32) (r : AccessLevel) :
    (s.update src o r).entries = s.entries.map fun e => if e.sourceId = src then { e with owner := o, role := r } else e :=
  modifyFirst_eq_map s.keyed

/-- Sources that are given up one after the other. -/
theorem entries_updates (sources : List UInt8) (s : SourceOwnershipTable) :
    (sources.foldl (fun s src => s.update src 0 .watch) s).entries =
      s.entries.map fun e => if e.sourceId ∈ sources then Arrays.SourceOwnershipTable.released e else e := by
  induction sources generalizing s with
  | nil => simp
  | cons src sources ih =>
    rw [List.foldl_cons, ih, entries_update, List.map_map]
    refine List.map_congr_left fun e _ => ?_
    by_cases hsrc : e.sourceId = src <;> by_cases hmem : e.sourceId ∈ sources <;>
      simp_all [Arrays.SourceOwnershipTable.released]

/-- Releasing everything a session owns clears those entries and no others. -/
theorem entries_releaseAll (s : SourceOwnershipTable) (sid : UInt32) :
    ((s.ownedBy sid).foldl (fun s src => s.update src 0 .watch) s).entries =
      s.entries.map fun e => if e.owner == sid then Arrays.SourceOwnershipTable.released e else e := by
  rw [entries_updates]
  refine List.map_congr_left fun e he => ?_
  have howned : e.sourceId ∈ s.ownedBy sid ↔ e.owner = sid := by
    constructor
    · intro hmem
      have howner := SourceOwnershipTable.ownerOf_of_mem_ownedBy hmem
      rwa [SourceOwnershipTable.ownerOf, SourceOwnershipTable.find_of_mem he] at howner
    · rintro rfl
      exact List.mem_map_of_mem (List.mem_filter.mpr ⟨he, beq_self_eq_true _⟩)
  simp only [howned, beq_iff_eq]

/-- Finding or making an entry goes the same way in both. -/
theorem owner_findOrCreate (src : UInt8) (h : t.Packed s.entries) :
    (Arrays.SourceOwnershipTable.findOrCreate t src = none ∧ s.findOrCreate src = none) ∨
      ∃ t' s', Arrays.SourceOwnershipTable.findOrCreate t src = some t' ∧ s.findOrCreate src = some s' ∧
        t'.Packed s'.entries := by
  unfold Arrays.SourceOwnershipTable.findOrCreate SourceOwnershipTable.findOrCreate
  rw [owner_find h]
  by_cases hsome : (s.find src).isSome
  · rw [if_pos hsome, dif_pos hsome]
    exact .inr ⟨t, s, rfl, rfl, h⟩
  rw [if_neg hsome, dif_neg hsome]
  by_cases hroom : s.entries.length < kMaxSources
  · obtain ⟨t', hfill, ht'⟩ := h.fill (a := ({ sourceId := src } : OwnerEntry)) hroom
    rw [dif_pos hroom]
    exact .inr ⟨t', _, hfill, rfl, ht'⟩
  · rw [dif_neg hroom]
    exact .inl ⟨h.full (Nat.le_antisymm s.fits (Nat.not_lt.mp hroom)), rfl⟩

/-- Acquiring a source goes the same way in both. -/
theorem owner_acquire (src : UInt8) (sid : UInt32) (role : AccessLevel) (takeover : Bool) (h : t.Packed s.entries) :
    (Arrays.SourceOwnershipTable.acquire t src sid role takeover).1 = (s.acquire src sid role takeover).1 ∧
      (Arrays.SourceOwnershipTable.acquire t src sid role takeover).2.Packed (s.acquire src sid role takeover).2.entries := by
  unfold Arrays.SourceOwnershipTable.acquire SourceOwnershipTable.acquire
  rcases owner_findOrCreate src h with ⟨ht, hs⟩ | ⟨t', s', ht, hs, h'⟩
  · rw [ht, hs]
    exact ⟨rfl, h⟩
  rw [ht, hs]
  dsimp only
  obtain ⟨e, he⟩ := Option.isSome_iff_exists.mp (SourceOwnershipTable.findOrCreate_spec hs).1
  rw [owner_find h', SourceOwnershipTable.ownerOf, he]
  dsimp only [Option.map_some, Option.getD_some]
  split
  · exact ⟨rfl, h'.modify⟩
  split
  · exact ⟨rfl, h'⟩
  split
  · exact ⟨rfl, h'.modify⟩
  · exact ⟨rfl, h'⟩

/-- One operation on the source table. -/
theorem owner_step (op : Arrays.OwnershipOp) (h : t.Packed s.entries) :
    (t.step op).1 = (ownerStep s op).1 ∧ (t.step op).2.Packed (ownerStep s op).2.entries := by
  cases op with
  | acquire src sid role takeover =>
    obtain ⟨hanswer, hafter⟩ := owner_acquire src sid role takeover h
    exact ⟨congrArg Arrays.OwnershipAnswer.acquired hanswer, hafter⟩
  | release src sid =>
    unfold Arrays.SourceOwnershipTable.step Arrays.SourceOwnershipTable.release ownerStep
    dsimp only
    rw [owner_find h]
    split
    · exact ⟨rfl, h.modify⟩
    · exact ⟨rfl, h⟩
  | releaseAllOf sid =>
    have hsources : (Arrays.SourceOwnershipTable.releaseAllOf t sid).1 = s.ownedBy sid := by
      rw [Arrays.SourceOwnershipTable.releaseAllOf, h.live]
      rfl
    unfold Arrays.SourceOwnershipTable.step ownerStep
    dsimp only
    rw [hsources, entries_releaseAll]
    exact ⟨rfl, h.each⟩

/-- So it follows. -/
theorem owners_follow (ops : List Arrays.OwnershipOp) :
    Following.Follows (fun t s => t.Packed s.entries) (fun t op => some (Arrays.SourceOwnershipTable.step t op)) ownerStep
      Slotted.empty {} ops :=
  follows_of_total (fun _ _ op h => owner_step op h) Slotted.packed_empty

/-- Who controls each source is a map. -/
theorem owners_tabulate (ops : List Arrays.OwnershipOp) :
    Following.Follows (fun s m => Tabulates OwnerEntry.sourceId kMaxSources s.entries m) (fun s op => some (ownerStep s op))
      Arrays.ownershipMap {} (fun _ => none) ops := by
  have hmap : Following.Follows Arrays.OwnershipShows (fun t op => some (Arrays.SourceOwnershipTable.step t op)) Arrays.ownershipMap
      Slotted.empty (fun _ => none) ops :=
    follows_of_total (fun _ _ op => Arrays.owners_step op) Slotted.shows_empty
  refine ((owners_follow ops).between hmap).mono ?_
  rintro s m ⟨t, hpacked, hshows⟩
  exact hpacked.live ▸ hshows

end

/-! ## Rings -/

section

variable {σ α β : Type} {depth capacity : Nat} {view : σ → α} {payload : Bytes} {a : α} {l : List α}

/-- Keeping the last of a list is dropping its oldest. -/
theorem keepLast_eq_dropOldest (hpos : 0 < depth) (h : l.length ≤ depth) :
    keepLast depth (l ++ [a]) = Keyed.dropOldest depth l a := by
  rw [keepLast_concat hpos, Keyed.dropOldest, keepLast]
  congr 1
  split
  · congr 1
    omega
  · rw [show l.length - (depth - 1) = 0 by omega, List.drop_zero]

theorem map_dropOldest (g : α → β) : (Keyed.dropOldest depth l a).map g = Keyed.dropOldest depth (l.map g) (g a) := by
  unfold Keyed.dropOldest
  rw [List.length_map, List.map_append, List.map_singleton]
  split
  · rw [List.map_drop]
  · rfl

/-- What fits in a slot is pushed, and the oldest item makes room for it. -/
theorem dropping_push {q : Rings.Dropping σ depth} {write : payload.length ≤ capacity → σ → σ}
    (hwrite : ∀ h s, view (write h s) = a) (hpos : 0 < depth) (hle : payload.length ≤ capacity) :
    ∃ q', q.push capacity payload write = some (true, q') ∧
      q'.ring.items view = Keyed.dropOldest depth (q.ring.items view) a ∧
      q'.dropped = if (q.ring.items view).length = depth then q.dropped + 1 else q.dropped := by
  have hfits : (q.ring.items view).length ≤ depth := by
    rw [length_items]
    exact q.ring.fits
  refine ⟨{ ring := q.ring.push (write hle) hpos, dropped := if q.ring.count = depth then q.dropped + 1 else q.dropped },
    ?_, (items_push (hwrite hle) q.ring hpos).trans (keepLast_eq_dropOldest hpos hfits), ?_⟩
  · rw [Rings.Dropping.push, dif_neg (Nat.not_lt.mpr hle), dif_pos hpos]
  · rw [length_items]

end

/-! ## Queued events -/

section

variable {r : Rings.EventQueue Limits.eventQueueDepthPerSubscriber kEventSlotCapacity} {q : EventQueue}

/-- An operation on the event queue. -/
def eventStep (q : EventQueue) : Rings.QueueOp → Rings.QueueAnswer × EventQueue
  | .push channelId payload => (.pushed (decide (payload.length ≤ kEventSlotCapacity)), q.push channelId payload)
  | .pop =>
    match q.pop with
    | some (e, rest) => (.popped (some (e.channelId, e.bytes)), rest)
    | none => (.popped none, q)

/-- The ring holds what the queue holds. -/
structure SameEvents (r : Rings.EventQueue Limits.eventQueueDepthPerSubscriber kEventSlotCapacity) (q : EventQueue) :
    Prop where
  contents : r.contents = q.queued.map fun e => (e.channelId, e.bytes)
  dropped : r.dropped = q.eventsDropped

/-- One operation on the event queue. -/
theorem event_step (op : Rings.QueueOp) (h : SameEvents r q) :
    ∃ r', Rings.EventQueue.step r op = some ((eventStep q op).1, r') ∧ SameEvents r' (eventStep q op).2 := by
  cases op with
  | push channelId payload =>
    unfold Rings.EventQueue.step Rings.EventQueue.push eventStep EventQueue.push
    dsimp only
    by_cases hcap : kEventSlotCapacity < payload.length
    · rw [Rings.Dropping.push, dif_pos hcap, if_pos hcap, decide_eq_false (Nat.not_le.mpr hcap)]
      exact ⟨r, rfl, h⟩
    have hle := Nat.not_lt.mp hcap
    have hshort : payload.length < 2 ^ 16 := Nat.lt_of_le_of_lt hle (by decide)
    have hwrite : ∀ hle s, (Rings.EventSlot.write channelId payload hle s : Rings.EventSlot kEventSlotCapacity).shown =
        (channelId, payload) := fun hle s =>
      (Rings.EventSlot.shown_write channelId payload hle s).trans
        ((Rings.EventSlot.shown_write_iff channelId payload).mpr hshort)
    obtain ⟨r', hpush, hitems, hdropped⟩ := dropping_push (q := r) hwrite (by decide) hle
    rw [hpush, if_neg hcap, decide_eq_true hle]
    have hcontents : r.ring.items Rings.EventSlot.shown = q.queued.map fun e => (e.channelId, e.bytes) := h.contents
    refine ⟨r', rfl, ?_, ?_⟩
    · rw [Rings.EventQueue.contents, hitems, hcontents, map_dropOldest]
    · rw [hdropped, hcontents, List.length_map, h.dropped]
  | pop =>
    have hshows : r.Shows Rings.EventSlot.shown ⟨q.queued.map fun e => (e.channelId, e.bytes), r.dropped.toNat⟩ :=
      ⟨h.contents, rfl⟩
    obtain ⟨hanswer, hafter⟩ := Rings.pop_shows hshows
    have hdropped : r.pop.2.dropped = q.eventsDropped := (UInt32.toNat_inj.mp hafter.dropped).trans h.dropped
    have hcontents : r.pop.2.contents = (q.queued.map fun e => (e.channelId, e.bytes)).drop 1 := hafter.contents
    cases hq : q.queued with
    | nil =>
      have hpop : q.pop = none := by
        unfold EventQueue.pop
        split
        · rfl
        · rename_i he
          cases hq.symm.trans he
      rw [hq] at hanswer hcontents
      refine ⟨r.pop.2, ?_, ?_⟩
      · rw [Rings.EventQueue.step, hanswer, eventStep, hpop]
        rfl
      · rw [eventStep, hpop]
        exact ⟨hcontents.trans (by rw [hq]; rfl), hdropped⟩
    | cons e rest =>
      obtain ⟨q', hpop, hrest, hdropped'⟩ := EventQueue.pop_cons hq
      rw [hq] at hanswer hcontents
      refine ⟨r.pop.2, ?_, ?_⟩
      · rw [Rings.EventQueue.step, hanswer, eventStep, hpop]
        rfl
      · rw [eventStep, hpop]
        exact ⟨hcontents.trans (by rw [hrest]; rfl), hdropped.trans hdropped'.symm⟩

/-- So the ring follows the queue. -/
theorem events_follow (ops : List Rings.QueueOp) :
    Following.Follows SameEvents Rings.EventQueue.step eventStep
      (.empty : Rings.EventQueue Limits.eventQueueDepthPerSubscriber kEventSlotCapacity) {} ops :=
  follows_of_steps (fun _ _ op h => event_step op h) ⟨items_empty, rfl⟩

end

/-! ## The tail of the log -/

section

variable {r : Rings.EventReplayRing Limits.logReplayDepthDefault kEventSlotCapacity} {l : EventReplayRing}

/-- A push of a log line; one that is too long is refused by the ring and by the log. -/
def tailStep (l : EventReplayRing) (payload : Bytes) : Bool × EventReplayRing :=
  (decide (payload.length ≤ kEventSlotCapacity), l.push payload)

/-- The ring holds the tail of the log. -/
structure SameTail (r : Rings.EventReplayRing Limits.logReplayDepthDefault kEventSlotCapacity) (l : EventReplayRing) :
    Prop where
  contents : r.contents = l.entries
  dropped : r.dropped = l.dropped
  newest : ∀ want, r.forEachNewest want = some ((l.newest want).length, l.newest want)

theorem sameTail_of_contents (h : r.contents = l.entries) (hdropped : r.dropped = l.dropped) : SameTail r l :=
  ⟨h, hdropped, fun want => by
    have hlen : (l.newest want).length = min want r.ring.count := by
      have hcount : r.ring.count = l.entries.length := h ▸ (length_items r.ring).symm
      rw [hcount]
      exact length_keepLast want l.entries
    rw [Rings.EventReplayRing.forEachNewest, if_pos (by decide), newest_eq, ← Rings.EventReplayRing.contents, h, hlen]
    rfl⟩

/-- One push of a log line. -/
theorem tail_step (payload : Bytes) (h : SameTail r l) :
    ∃ r', Rings.EventReplayRing.push r payload = some ((tailStep l payload).1, r') ∧ SameTail r' (tailStep l payload).2 := by
  unfold Rings.EventReplayRing.push tailStep EventReplayRing.push
  dsimp only
  by_cases hcap : kEventSlotCapacity < payload.length
  · rw [Rings.Dropping.push, dif_pos hcap, if_pos hcap, decide_eq_false (Nat.not_le.mpr hcap)]
    exact ⟨r, rfl, h⟩
  have hle := Nat.not_lt.mp hcap
  have hshort : payload.length < 2 ^ 16 := Nat.lt_of_le_of_lt hle (by decide)
  have hwrite : ∀ hle s, (Rings.Cell.copy payload hle s : Rings.Cell kEventSlotCapacity).view = payload := fun hle s =>
    (Rings.Cell.view_copy payload hle s).trans ((Rings.Cell.take_mod_iff payload).mpr hshort)
  obtain ⟨r', hpush, hitems, hdropped⟩ := dropping_push (q := r) hwrite (by decide) hle
  rw [hpush, if_neg hcap, decide_eq_true hle]
  have hcontents : r.ring.items Rings.Cell.view = l.entries := h.contents
  refine ⟨r', rfl, sameTail_of_contents ?_ ?_⟩
  · rw [Rings.EventReplayRing.contents, hitems, hcontents]
  · rw [hdropped, hcontents, h.dropped]

/-- So the ring follows the tail of the log. -/
theorem tail_follows (payloads : List Bytes) :
    Following.Follows SameTail Rings.EventReplayRing.push tailStep
      (.empty : Rings.EventReplayRing Limits.logReplayDepthDefault kEventSlotCapacity) {} payloads :=
  follows_of_steps (fun _ _ payload h => tail_step payload h) (sameTail_of_contents items_empty rfl)

end

/-! ## The stores of a session -/

section

variable {m : Rings.IntentRing Limits.idempotencyRingDepth kRingSlotCapacity} {r : IntentRing}

/-- An operation on the intent ring. -/
def storeStep (r : IntentRing) : Rings.StoreOp → Option Bool × IntentRing
  | .store id payload =>
    let x := attempt r (r.store id payload)
    (some x.1, x.2)
  | .clear => (none, {})

/-- The slots in use, in the order of the array. -/
structure SameStores (m : Rings.IntentRing Limits.idempotencyRingDepth kRingSlotCapacity) (r : IntentRing) : Prop where
  slots : (m.slots.toList.take m.count).map Rings.IntentSlot.tagged = r.slots.map fun s => (true, s.intentId, s.bytes)
  head : m.head = r.head

theorem SameStores.count (h : SameStores m r) : m.count = r.slots.length := by
  have hlen := congrArg List.length h.slots
  have hfits := m.fits
  simp at hlen
  omega

/-- An id is answered with the same bytes. -/
theorem SameStores.lookup (h : SameStores m r) (id : UInt16) : m.lookup id = r.lookup id := by
  have hm : m.lookup id = (((m.slots.toList.take m.count).map Rings.IntentSlot.tagged).find? fun x =>
      x.1 && x.2.1 == id).map fun x => x.2.2 := by
    rw [List.find?_map, Option.map_map]
    rfl
  have hr : r.lookup id = ((r.slots.map fun s => (true, s.intentId, s.bytes)).find? fun x =>
      x.1 && x.2.1 == id).map fun x => x.2.2 := by
    rw [List.find?_map, Option.map_map]
    rfl
  rw [hm, hr, h.slots]

/-- One operation on the intent ring. -/
theorem store_step (op : Rings.StoreOp) (h : SameStores m r) :
    ∃ m', m.step op = some ((storeStep r op).1, m') ∧ SameStores m' (storeStep r op).2 := by
  cases op with
  | clear => exact ⟨m.clear, rfl, rfl, rfl⟩
  | store id payload =>
    unfold Rings.IntentRing.step Rings.IntentRing.store storeStep IntentRing.store
    dsimp only
    by_cases hcap : kRingSlotCapacity < payload.length
    · rw [dif_pos hcap, if_pos hcap]
      exact ⟨m, rfl, h⟩
    have hpos : 0 < Limits.idempotencyRingDepth := by decide
    have hle := Nat.not_lt.mp hcap
    have hshort : payload.length < 2 ^ 16 := Nat.lt_of_le_of_lt hle (by decide)
    have hhead : m.head < Limits.idempotencyRingDepth := m.wraps ▸ Nat.mod_lt _ hpos
    have htagged : (Rings.IntentSlot.write id payload hle m.slots[m.head]).tagged = (true, id, payload) :=
      congrArg (fun bytes => (true, id, bytes)) <|
        (Rings.Cell.view_copy payload hle _).trans ((Rings.Cell.take_mod_iff payload).mpr hshort)
    rw [dif_neg hcap, dif_pos hpos, if_neg hcap]
    refine ⟨_, rfl, ?_, congrArg (fun n => (n + 1) % Limits.idempotencyRingDepth) h.head⟩
    dsimp only [attempt]
    rw [Vector.toList_set, IntentRing.writeHead, ← h.count, ← h.head]
    by_cases hfull : m.count < Limits.idempotencyRingDepth
    · -- the head is the first slot that was never used
      have hlt : m.count < (m.slots.toList.set m.head (Rings.IntentSlot.write id payload hle m.slots[m.head])).length := by
        rw [List.length_set, Vector.length_toList]
        exact hfull
      have hlast : (m.slots.toList.set m.head (Rings.IntentSlot.write id payload hle m.slots[m.head]))[m.count] =
          Rings.IntentSlot.write id payload hle m.slots[m.head] := by
        simp [m.starts hfull]
      rw [if_pos hfull, if_pos hfull, List.take_succ_eq_append_getElem hlt, hlast, List.take_set_of_le (m.starts hfull).ge]
      rw [List.map_append, List.map_append, h.slots, List.map_singleton, List.map_singleton, htagged]
    · have hcount : m.count = Limits.idempotencyRingDepth := Nat.le_antisymm m.fits (Nat.not_lt.mp hfull)
      have hslots := h.slots
      rw [List.take_of_length_le (by rw [Vector.length_toList, hcount])] at hslots
      rw [if_neg hfull, if_neg hfull, List.take_of_length_le (by rw [List.length_set, Vector.length_toList, hcount])]
      rw [List.map_set, List.map_set, htagged, hslots]

/-- So it follows, and every lookup with it. -/
theorem stores_follow (ops : List Rings.StoreOp) :
    Following.Follows (fun m r => SameStores m r ∧ ∀ id, m.lookup id = r.lookup id) Rings.IntentRing.step storeStep
      ({} : Rings.IntentRing Limits.idempotencyRingDepth kRingSlotCapacity) {} ops :=
  have hrun : Following.Follows SameStores Rings.IntentRing.step storeStep
      ({} : Rings.IntentRing Limits.idempotencyRingDepth kRingSlotCapacity) {} ops :=
    follows_of_steps (fun _ _ op h => store_step op h) ⟨rfl, rfl⟩
  hrun.mono fun _ _ h => ⟨h, h.lookup⟩

end

/-! ## The catalog -/

section

variable {caps : Builder.Capacities}

def StreamKinds.segments : UInt8 := 1

def schemaField (f : Builder.SchemaField) (options : List Builder.Label) : SchemaField where
  key := f.key
  access := if f.hasAccess then some f.access else none
  optionAccess := if f.hasOptionAccess then some (options.map Builder.Label.access) else none

/-- What the hub reads of an entry, each part through its accessor. -/
def catalogEntry (c : Builder.BasicCatalog caps) (e : Builder.CatalogEntry) : CatalogEntry where
  id := e.id
  cls := e.cls
  dir := e.dir
  access := e.access
  maxRateHz := F32.ofBits e.maxRateHz
  defaultPriority := e.defaultPriority
  replayDepth := if e.hasReplayDepth then some e.replayDepth.toNat else none
  segments := e.streamKind == StreamKinds.segments
  layoutWireSize := ((c.layoutFields e).map fun f => f.type.wireSize).sum
  schema := (c.schemaFields e).map fun f => schemaField f (c.labels f.options)
  store := (c.storeDescriptor e).map fun d => { storeId := d.storeId }

def catalog (c : Builder.BasicCatalog caps) : Catalog := c.entries.live.map (catalogEntry c)

def itemSize : Builder.Item → Nat
  | .layout f _ _ => f.type.wireSize
  | _ => 0

def itemField : Builder.Item → Option SchemaField
  | .schema f options => some (schemaField f options)
  | _ => none

def itemStore : Builder.Item → Option StoreDescriptor
  | .store d => some { storeId := d.storeId }
  | _ => none

/-- The same of the contents of a catalog. -/
def ofContent (x : Builder.Content) : CatalogEntry where
  id := x.header.id
  cls := x.header.cls
  dir := x.header.dir
  access := x.header.access
  maxRateHz := F32.ofBits x.header.maxRateHz
  defaultPriority := x.header.defaultPriority
  replayDepth := if x.header.hasReplayDepth then some x.header.replayDepth.toNat else none
  segments := x.header.streamKind == StreamKinds.segments
  layoutWireSize := (x.items.map itemSize).sum
  schema := x.items.filterMap itemField
  store := x.items.findSome? itemStore

/-- A channel is looked up in the entries as they lie. -/
theorem find_catalog (c : Builder.BasicCatalog caps) (id : UInt16) :
    (catalog c).find id = (c.entries.live.find? fun e => e.id == id).map (catalogEntry c) := List.find?_map ..

/-- The layout size of an entry, read off its items. -/
theorem sizes_items (c : Builder.BasicCatalog caps) (e : Builder.CatalogEntry) :
    ((c.items e).map itemSize).sum = ((c.layoutFields e).map fun f => f.type.wireSize).sum := by
  unfold Builder.BasicCatalog.items
  cases hform : e.form with
  | layout =>
    dsimp only
    rw [List.map_map]
    rfl
  | schema =>
    have hzero : itemSize ∘ c.item .schema = fun _ => 0 := rfl
    simp [Builder.BasicCatalog.layoutFields, hform, hzero]
  | store =>
    have hzero : itemSize ∘ c.item .store = fun _ => 0 := rfl
    simp [Builder.BasicCatalog.layoutFields, hform, hzero]

theorem fields_items (c : Builder.BasicCatalog caps) (e : Builder.CatalogEntry) :
    (c.items e).filterMap itemField = (c.schemaFields e).map fun f => schemaField f (c.labels f.options) := by
  unfold Builder.BasicCatalog.items
  cases hform : e.form with
  | layout =>
    have hnone : ∀ f, itemField (c.item .layout f) = none := fun _ => rfl
    simp [Builder.BasicCatalog.schemaFields, hform, hnone]
  | schema =>
    dsimp only
    rw [List.filterMap_map, ← List.filterMap_eq_map]
    rfl
  | store =>
    have hnone : ∀ d, itemField (c.item .store d) = none := fun _ => rfl
    simp [Builder.BasicCatalog.schemaFields, hform, hnone]

theorem store_items (c : Builder.BasicCatalog caps) (e : Builder.CatalogEntry) :
    (c.items e).findSome? itemStore = (c.storeDescriptor e).map fun d => { storeId := d.storeId } := by
  unfold Builder.BasicCatalog.items
  cases hform : e.form with
  | layout =>
    have hnone : itemStore ∘ c.item .layout = fun _ => none := rfl
    simp [Builder.BasicCatalog.storeDescriptor, hform, List.findSome?_map, hnone]
  | schema =>
    have hnone : itemStore ∘ c.item .schema = fun _ => none := rfl
    simp [Builder.BasicCatalog.storeDescriptor, hform, List.findSome?_map, hnone]
  | store => cases c.storeDescriptor e <;> rfl

/-- The hub's view of an entry is read off its contents. -/
theorem catalogEntry_eq (c : Builder.BasicCatalog caps) (e : Builder.CatalogEntry) :
    catalogEntry c e = ofContent (c.content e) := by
  rw [catalogEntry, ← sizes_items, ← fields_items, ← store_items]
  rfl

/-- The hub's view of a catalog is read off its contents. -/
theorem catalog_eq (c : Builder.BasicCatalog caps) : catalog c = c.contents.map ofContent := by
  rw [catalog, Builder.BasicCatalog.contents, List.map_map]
  exact List.map_congr_left fun e _ => catalogEntry_eq c e

/-- A hub whose catalog was built has the channels that the calls asked for. -/
theorem catalog_run (c : Builder.BasicCatalog caps) (calls : List Builder.Call) (h : c.clear.Allows calls)
    (hok : (c.clear.run calls).ok = true) :
    catalog (c.clear.run calls) = (calls.foldl Builder.Call.asks []).map ofContent := by
  rw [catalog_eq, ((Builder.run_spec (Builder.sound_clear c) h).2 hok).2]
  rfl

end

end SlopSync.Memory
