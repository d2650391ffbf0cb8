import SlopSync.Arrays
import SlopSync.Follows

/-! # The keyed tables are finite maps

Each table with the map from keys to entries that it is, operation by operation.  What an operation answers is what the map
says, and after any sequence of them a search finds what the map has.

- `subscriptions_step`, `grants_step`, `knocks_step`, `owners_step`, `retained_step`: one operation of each table;
- `tables_are_maps`: whole runs. -/

namespace SlopSync.Arrays

open FiniteMaps Following Keyed

/-- The entries in use have different keys and fit, and `find` gives what the map has. -/
structure Holds {κ α : Type} (key : α → κ) (capacity : Nat) (find : κ → Option α) (used : List α) (m : κ → Option α) :
    Prop where
  once : (used.map key).Nodup
  atMost : used.length ≤ capacity
  finds : ∀ k, find k = m k

theorem Holds.of_shows {κ α : Type} [DecidableEq κ] {key : α → κ} {capacity : Nat} {find : κ → Option α} {used : List α}
    {m : κ → Option α} (h : Tabulates key capacity used m) (hfind : ∀ k, find k = used.find? (isAt key k)) :
    Holds key capacity find used m := ⟨h.once, h.atMost, fun k => (hfind k).trans (h.finds k)⟩

/-! ## Subscriptions -/

inductive SubscriptionOp
  | upsert (ch : UInt16) (rate : F32) (priority : Priority)
  | remove (ch : UInt16)
  | edit (ch : UInt16) (f : Edit SubscriptionEntry.channelId)

section

variable {capacity : Nat} {t : SubscriptionTable capacity} {m : UInt16 → Option SubscriptionEntry}

def SubscriptionTable.step (t : SubscriptionTable capacity) : SubscriptionOp → Bool × SubscriptionTable capacity
  | .upsert ch rate priority => upsert t ch rate priority
  | .remove ch => remove t ch
  | .edit ch f => ((find t ch).isSome, edit t ch f)

noncomputable def subscriptionMap (capacity : Nat) (m : UInt16 → Option SubscriptionEntry) :
    SubscriptionOp → Bool × (UInt16 → Option SubscriptionEntry)
  | .upsert ch rate priority =>
    put SubscriptionEntry.channelId capacity m { channelId := ch, grantedRateHz := rate, priority }
  | .remove ch => ((m ch).isSome, Function.update m ch none)
  | .edit ch f => ((m ch).isSome, amend m ch f.apply)

def SubscriptionShows (t : SubscriptionTable capacity) (m : UInt16 → Option SubscriptionEntry) : Prop :=
  Tabulates SubscriptionEntry.channelId capacity t.live m

theorem subscriptions_step (op : SubscriptionOp) (h : SubscriptionShows t m) :
    (t.step op).1 = (subscriptionMap capacity m op).1 ∧ SubscriptionShows (t.step op).2 (subscriptionMap capacity m op).2 := by
  cases op with
  | upsert ch rate priority =>
    -- an entry that is there is overwritten in all but its channel
    have hvalue : ((m ch).map fun e : SubscriptionEntry =>
        { e with grantedRateHz := rate, priority, everPushed := false, lastPushMs := 0 }).getD
          { channelId := ch, grantedRateHz := rate, priority } = { channelId := ch, grantedRateHz := rate, priority } := by
      cases hm : m ch with
      | none => rfl
      | some e => simp [(h.get_iff.mp hm).2]
    have hspec := Filled.upsert_spec (k := ch)
      (f := fun e : SubscriptionEntry => { e with grantedRateHz := rate, priority, everPushed := false, lastPushMs := 0 })
      (a := { channelId := ch, grantedRateHz := rate, priority }) h (fun _ => rfl) rfl
    rwa [hvalue] at hspec
  | remove ch =>
    obtain ⟨hok, hlive⟩ := Filled.remove_spec (p := isAt SubscriptionEntry.channelId ch) t
    have hfind : Filled.find t (isAt SubscriptionEntry.channelId ch) = m ch := h.finds ch
    refine ⟨hok.trans (congrArg Option.isSome hfind), ?_⟩
    have hshows := h.erase (k := ch)
    rwa [← hlive] at hshows
  | edit ch f =>
    refine ⟨congrArg Option.isSome (h.finds ch), ?_⟩
    have hshows := h.amend (k := ch) f.keeps
    rwa [← Filled.live_modify] at hshows

end

/-! ## Retained values -/

section

variable {capacity : Nat} {s : RetainedStore capacity} {m : UInt16 → Option RetainedEntry} {ch : UInt16} {payload : Bytes}

def RetainedStore.step (s : RetainedStore capacity) (op : UInt16 × Bytes) : Option UInt16 × RetainedStore capacity :=
  publish s op.1 op.2

/-- A payload over the transport floor is refused, and the sequence number counts what was published. -/
noncomputable def retainedMap (capacity : Nat) (m : UInt16 → Option RetainedEntry) (op : UInt16 × Bytes) :
    Option UInt16 × (UInt16 → Option RetainedEntry) :=
  if Limits.minTransportPayload < op.2.length then (none, m)
  else
    let seq := ((m op.1).map RetainedEntry.seq).getD 0 + 1
    let r := put RetainedEntry.channelId capacity m { channelId := op.1, seq, payload := op.2 }
    (if r.1 then some seq else none, r.2)

structure RetainedShows (s : RetainedStore capacity) (m : UInt16 → Option RetainedEntry) : Prop where
  shows : Tabulates RetainedEntry.channelId capacity (s.live.map RetainedSlot.shown) m
  valid : ∀ e ∈ s.live, e.valid = true

theorem RetainedShows.find (h : RetainedShows s m) (ch : UInt16) :
    (RetainedStore.find s ch).map RetainedSlot.shown = m ch := by
  rw [← h.shows.finds, List.find?_map]
  rfl

theorem RetainedShows.get (h : RetainedShows s m) (ch : UInt16) : RetainedStore.get s ch = m ch := by
  rw [← h.find, RetainedStore.get]
  cases hf : RetainedStore.find s ch with
  | none => rfl
  | some e => rw [Option.filter_some, if_pos (h.valid e (List.mem_of_find?_eq_some hf))]

/-- A payload that is not refused is read back. -/
theorem shown_publish (hlen : payload.length ≤ Limits.minTransportPayload) (e : RetainedSlot) :
    (e.publish payload hlen).shown = { e.shown with seq := e.seq + 1, payload } := by
  have hview : (e.publish payload hlen).view = payload := by
    have hshort : payload.length < 2 ^ 16 := Nat.lt_of_le_of_lt hlen (by decide)
    exact (Rings.Cell.view_copy payload hlen e.toCell).trans ((Rings.Cell.take_mod_iff payload).mpr hshort)
  simp only [RetainedSlot.shown, hview]
  rfl

theorem retained_step (op : UInt16 × Bytes) (h : RetainedShows s m) :
    (s.step op).1 = (retainedMap capacity m op).1 ∧ RetainedShows (s.step op).2 (retainedMap capacity m op).2 := by
  obtain ⟨ch, payload⟩ := op
  unfold RetainedStore.step RetainedStore.publish retainedMap
  dsimp only
  by_cases hlen : Limits.minTransportPayload < payload.length
  · rw [dif_pos hlen, if_pos hlen]
    exact ⟨rfl, h⟩
  rw [dif_neg hlen, if_neg hlen, ← h.find]
  have hle := Nat.not_lt.mp hlen
  cases hf : RetainedStore.find s ch with
  | some e =>
    have hm : m ch = some e.shown := by rw [← h.find, hf, Option.map_some]
    have hchannel : e.channelId = ch := (h.shows.get_iff.mp hm).2
    have hput := put_old (a := { channelId := ch, seq := e.seq + 1, payload }) h.shows (by rw [hm]; simp)
    have hseq : ((some e).map RetainedSlot.shown |>.map RetainedEntry.seq).getD 0 + 1 = e.seq + 1 := rfl
    rw [hseq, hput]
    refine ⟨rfl, ?_, fun x hx => ?_⟩
    · have hshows := h.shows.amend (k := ch) (f := fun x => { x with seq := x.seq + 1, payload }) fun _ => rfl
      rw [amend_some hm, ← map_rewrite (fun x => shown_publish hle x) (fun _ => rfl), ← Filled.live_modify] at hshows
      rw [← hchannel] at hshows ⊢
      exact hshows
    · rw [Filled.live_modify] at hx
      rcases mem_modifyFirst hx with hx | ⟨y, -, -, rfl⟩
      · exact h.valid x hx
      · rfl
  | none =>
    have hm : m ch = none := by rw [← h.find, hf, Option.map_none]
    have hlength : (s.live.map RetainedSlot.shown).length = s.count := by rw [List.length_map, Filled.length_live]
    have hseq : ((none : Option RetainedSlot).map RetainedSlot.shown |>.map RetainedEntry.seq).getD 0 + 1 = 1 := rfl
    rw [hseq]
    by_cases hroom : s.count < capacity
    · have hlt : (s.live.map RetainedSlot.shown).length < capacity := by rwa [hlength]
      have hput := put_new (a := { channelId := ch, seq := 1, payload }) h.shows hlt
      rw [dif_pos hroom, hput]
      refine ⟨rfl, ?_, fun x hx => ?_⟩
      · have hshows := h.shows.append (a := { channelId := ch, seq := 1, payload }) hm hlt
        have hshown := shown_publish hle { RetainedSlot.blank with channelId := ch }
        rw [Filled.live_append, List.map_append, List.map_singleton, hshown]
        exact hshows
      · rw [Filled.live_append] at hx
        rcases List.mem_append.mp hx with hx | hx
        · exact h.valid x hx
        · rw [List.mem_singleton.mp hx]
          rfl
    · have hfull : (s.live.map RetainedSlot.shown).length = capacity := by
        rw [hlength]
        exact Nat.le_antisymm s.fits (Nat.not_lt.mp hroom)
      rw [dif_neg hroom, put_full h.shows hm hfull]
      exact ⟨rfl, h⟩

end

/-! ## Publish grants -/

inductive GrantOp
  | add (ch : UInt16) (rate : F32) (nowMs : UInt32) (burst : F32) (burstRequested : Bool) (curveFamily : UInt8)
  | edit (ch : UInt16) (f : Edit PublishGrant.channelId)

section

variable {t : PublishGrants} {m : UInt16 → Option PublishGrant}

def PublishGrants.step (t : PublishGrants) : GrantOp → Bool × PublishGrants
  | .add ch rate nowMs burst burstRequested curveFamily => addPublishGrant t ch rate nowMs burst burstRequested curveFamily
  | .edit ch f => ((publishGrantFor t ch).isSome, edit t ch f)

noncomputable def grantMap (m : UInt16 → Option PublishGrant) : GrantOp → Bool × (UInt16 → Option PublishGrant)
  | .add ch rate nowMs burst burstRequested curveFamily =>
    put PublishGrant.channelId kMaxPublishGrants m
      (PublishGrants.granted rate nowMs burst burstRequested curveFamily { channelId := ch })
  | .edit ch f => ((m ch).isSome, amend m ch f.apply)

def GrantShows (t : PublishGrants) (m : UInt16 → Option PublishGrant) : Prop :=
  Tabulates PublishGrant.channelId kMaxPublishGrants t.live m

theorem grants_step (op : GrantOp) (h : GrantShows t m) :
    (t.step op).1 = (grantMap m op).1 ∧ GrantShows (t.step op).2 (grantMap m op).2 := by
  cases op with
  | add ch rate nowMs burst burstRequested curveFamily =>
    have hvalue : ((m ch).map (PublishGrants.granted rate nowMs burst burstRequested curveFamily)).getD
        (PublishGrants.granted rate nowMs burst burstRequested curveFamily { channelId := ch }) =
          PublishGrants.granted rate nowMs burst burstRequested curveFamily { channelId := ch } := by
      cases hm : m ch with
      | none => rfl
      | some g => simp [PublishGrants.granted, (h.get_iff.mp hm).2]
    have hspec := Slotted.upsert_spec (k := ch) (f := PublishGrants.granted rate nowMs burst burstRequested curveFamily)
      (a := PublishGrants.granted rate nowMs burst burstRequested curveFamily { channelId := ch }) h (fun _ => rfl) rfl
    rwa [hvalue] at hspec
  | edit ch f =>
    refine ⟨congrArg Option.isSome ((Slotted.find_eq t).trans (h.finds ch)), ?_⟩
    have hshows := h.amend (k := ch) f.keeps
    rwa [← Slotted.live_modify] at hshows

end

/-! ## Pending knocks -/

inductive KnockOp
  | add (inst : InstanceId) (sid expiresAtMs : UInt32) (mode : UInt8)
  | edit (inst : InstanceId) (f : Edit PendingKnock.instanceId)
  | remove (inst : InstanceId)
  | expire (nowMs : UInt32)
  | dropBySession (sid : UInt32)

/-- `fired`: the knocks that the callback saw, and how often it was called. -/
inductive KnockAnswer
  | done (ok : Bool)
  | fired (knocks : Set PendingKnock) (calls : Nat)

section

variable {cap : Nat} {t : PendingPairingList cap} {m : InstanceId → Option PendingKnock}

def KnockAnswer.ofList (knocks : List PendingKnock) : KnockAnswer := .fired {k | k ∈ knocks} knocks.length

def PendingPairingList.step (t : PendingPairingList cap) : KnockOp → KnockAnswer × PendingPairingList cap
  | .add inst sid expiresAtMs mode => (.done (add t inst sid expiresAtMs mode).1, (add t inst sid expiresAtMs mode).2)
  | .edit inst f => (.done (find t inst).isSome, edit t inst f)
  | .remove inst => (.done (remove t inst).1, (remove t inst).2)
  | .expire nowMs => (.ofList (expire t nowMs).1, (expire t nowMs).2)
  | .dropBySession sid => (.ofList (dropBySession t sid).1, (dropBySession t sid).2)

/-- The knocks of the map that `p` accepts are reported, each of them once, and forgotten. -/
noncomputable def sweepMap (m : InstanceId → Option PendingKnock) (p : PendingKnock → Bool) :
    KnockAnswer × (InstanceId → Option PendingKnock) :=
  let knocks := {k | m k.instanceId = some k ∧ p k = true}
  (.fired knocks knocks.ncard, fun inst => (m inst).filter fun k => !p k)

noncomputable def knockMap (cap : Nat) (m : InstanceId → Option PendingKnock) :
    KnockOp → KnockAnswer × (InstanceId → Option PendingKnock)
  | .add inst sid expiresAtMs mode =>
    -- how the device calls itself survives a second knock
    let knock := match m inst with
      | some k => { k with sessionId := sid, expiresAtMs, mode }
      | none => { instanceId := inst, sessionId := sid, expiresAtMs, mode }
    let r := put PendingKnock.instanceId cap m knock
    (.done r.1, r.2)
  | .edit inst f => (.done (m inst).isSome, amend m inst f.apply)
  | .remove inst => (.done (m inst).isSome, Function.update m inst none)
  | .expire nowMs => sweepMap m (SlopSync.PendingPairingList.expired nowMs)
  | .dropBySession sid => sweepMap m (SlopSync.PendingPairingList.ofSession sid)

def KnockShows (t : PendingPairingList cap) (m : InstanceId → Option PendingKnock) : Prop :=
  Tabulates PendingKnock.instanceId cap t.live m

theorem sweep_step (p : PendingKnock → Bool) (h : KnockShows t m) :
    KnockAnswer.ofList (PendingPairingList.sweep t p).1 = (sweepMap m p).1 ∧
      KnockShows (PendingPairingList.sweep t p).2 (sweepMap m p).2 := by
  obtain ⟨hset, hcard⟩ := h.selected p
  have hshows := h.keep fun k => !p k
  rw [← Slotted.live_freeAll] at hshows
  refine ⟨?_, hshows⟩
  simp only [KnockAnswer.ofList, PendingPairingList.sweep, sweepMap, hset, hcard]

theorem knocks_step (op : KnockOp) (h : KnockShows t m) :
    (t.step op).1 = (knockMap cap m op).1 ∧ KnockShows (t.step op).2 (knockMap cap m op).2 := by
  cases op with
  | add inst sid expiresAtMs mode =>
    have hspec := Slotted.upsert_spec (k := inst) (f := fun k : PendingKnock => { k with sessionId := sid, expiresAtMs, mode })
      (a := { instanceId := inst, sessionId := sid, expiresAtMs, mode }) h (fun _ => rfl) rfl
    have hvalue : ((m inst).map fun k : PendingKnock => { k with sessionId := sid, expiresAtMs, mode }).getD
        { instanceId := inst, sessionId := sid, expiresAtMs, mode } =
          match m inst with
          | some k => { k with sessionId := sid, expiresAtMs, mode }
          | none => { instanceId := inst, sessionId := sid, expiresAtMs, mode } := by
      cases m inst <;> rfl
    rw [hvalue] at hspec
    exact ⟨congrArg KnockAnswer.done hspec.1, hspec.2⟩
  | edit inst f =>
    refine ⟨congrArg (fun o : Option PendingKnock => KnockAnswer.done o.isSome) ((Slotted.find_eq t).trans (h.finds inst)), ?_⟩
    have hshows := h.amend (k := inst) f.keeps
    rwa [← Slotted.live_modify] at hshows
  | remove inst =>
    have hfind : PendingPairingList.find t inst = m inst := (Slotted.find_eq t).trans (h.finds inst)
    unfold PendingPairingList.step knockMap PendingPairingList.remove
    dsimp only
    rw [hfind]
    cases hm : m inst with
    | none =>
      rw [if_neg (by simp), ← hm, Function.update_eq_self]
      exact ⟨by rw [hm]; rfl, h⟩
    | some k =>
      have hshows := h.erase (k := inst)
      rw [← Slotted.live_free] at hshows
      rw [if_pos Option.isSome_some]
      exact ⟨rfl, hshows⟩
  | expire nowMs => exact sweep_step _ h
  | dropBySession sid => exact sweep_step _ h

end

/-! ## Source ownership -/

inductive OwnershipOp
  | acquire (src : UInt8) (sid : UInt32) (role : AccessLevel) (takeover : Bool)
  | release (src : UInt8) (sid : UInt32)
  | releaseAllOf (sid : UInt32)

/-- `told`: the sources that the callback saw, and how often it was called. -/
inductive OwnershipAnswer
  | acquired (result : AcquireResult)
  | released (ok : Bool)
  | told (sources : Set UInt8) (calls : Nat)

section

variable {t : SourceOwnershipTable} {m : UInt8 → Option OwnerEntry}

def SourceOwnershipTable.step (t : SourceOwnershipTable) : OwnershipOp → OwnershipAnswer × SourceOwnershipTable
  | .acquire src sid role takeover =>
    (.acquired (acquire t src sid role takeover).1, (acquire t src sid role takeover).2)
  | .release src sid => (.released (release t src sid).1, (release t src sid).2)
  | .releaseAllOf sid =>
    (.told {src | src ∈ (releaseAllOf t sid).1} (releaseAllOf t sid).1.length, (releaseAllOf t sid).2)

open Classical in
/-- A source that the table does not know has no owner. -/
noncomputable def acquireMap (m : UInt8 → Option OwnerEntry) (src : UInt8) (sid : UInt32) (role : AccessLevel)
    (takeover : Bool) : AcquireResult × (UInt8 → Option OwnerEntry) :=
  let e := (m src).getD { sourceId := src }
  let own := Function.update m src (some { sourceId := src, owner := sid, role })
  if Full kMaxSources m src then (.conflict, m)
  else if e.owner = 0 then (.acquired, own)
  else if e.owner = sid then (.alreadyOwner, m)
  else if takeover = true ∧ e.role ≤ role then (.takenOver, own)
  else (.conflict, m)

noncomputable def ownershipMap (m : UInt8 → Option OwnerEntry) : OwnershipOp → OwnershipAnswer × (UInt8 → Option OwnerEntry)
  | .acquire src sid role takeover =>
    (.acquired (acquireMap m src sid role takeover).1, (acquireMap m src sid role takeover).2)
  | .release src sid =>
    if (m src).any fun e => e.owner == sid then (.released true, amend m src fun e => { e with owner := 0, role := .watch })
    else (.released false, m)
  | .releaseAllOf sid =>
    let sources := {src | (m src).any (fun e => e.owner == sid) = true}
    (.told sources sources.ncard,
      fun src => (m src).map fun e => if e.owner == sid then { e with owner := 0, role := .watch } else e)

def OwnershipShows (t : SourceOwnershipTable) (m : UInt8 → Option OwnerEntry) : Prop :=
  Tabulates OwnerEntry.sourceId kMaxSources t.live m

theorem OwnershipShows.find (h : OwnershipShows t m) (src : UInt8) : SourceOwnershipTable.find t src = m src :=
  (Slotted.find_eq t).trans (h.finds src)

theorem acquire_step (src : UInt8) (sid : UInt32) (role : AccessLevel) (takeover : Bool) (h : OwnershipShows t m) :
    (SourceOwnershipTable.acquire t src sid role takeover).1 = (acquireMap m src sid role takeover).1 ∧
      OwnershipShows (SourceOwnershipTable.acquire t src sid role takeover).2 (acquireMap m src sid role takeover).2 := by
  have hown : ∀ (t' : SourceOwnershipTable) (m' : UInt8 → Option OwnerEntry) (e : OwnerEntry), OwnershipShows t' m' →
      m' src = some e → OwnershipShows (t'.modify (isAt OwnerEntry.sourceId src) fun e => { e with owner := sid, role })
        (Function.update m' src (some { sourceId := src, owner := sid, role })) := by
    intro t' m' e h' he
    have hkey : e.sourceId = src := (h'.get_iff.mp he).2
    have hshows := h'.amend (k := src) (f := fun e => { e with owner := sid, role }) fun _ => rfl
    rw [← Slotted.live_modify, amend_some he, hkey] at hshows
    exact hshows
  unfold SourceOwnershipTable.acquire SourceOwnershipTable.findOrCreate acquireMap
  rw [h.find]
  cases hm : m src with
  | some e =>
    have hroom : ¬Full kMaxSources m src := fun hfull => by
      rw [(h.full_iff.mp hfull).1] at hm
      cases hm
    rw [if_pos Option.isSome_some, if_neg hroom]
    dsimp only [Option.getD_some]
    rw [h.find, hm]
    dsimp only
    split
    · exact ⟨rfl, hown t m e h hm⟩
    split
    · exact ⟨rfl, h⟩
    by_cases htake : takeover = true ∧ e.role ≤ role
    · rw [if_pos htake, if_pos (by simpa using htake)]
      exact ⟨rfl, hown t m e h hm⟩
    · rw [if_neg htake, if_neg (by simpa using htake)]
      exact ⟨rfl, h⟩
  | none =>
    rw [if_neg (by simp)]
    dsimp only [Option.getD_none]
    rcases Slotted.shows_fill (a := ({ sourceId := src } : OwnerEntry)) h hm with ⟨hfill, hput⟩ | ⟨t', hfill, hput, ht'⟩
    · have hfull : Full kMaxSources m src := h.full_iff.mpr ⟨hm, Slotted.fill_eq_none.mp hfill⟩
      rw [hfill, if_pos hfull]
      exact ⟨rfl, h⟩
    · have hroom : ¬Full kMaxSources m src := fun hfull => by
        rw [put, if_pos hfull] at hput
        cases hput
      have hnew : OwnershipShows t' (Function.update m src (some { sourceId := src })) := ht'
      have hshows := hown t' _ _ hnew (Function.update_self _ _ _)
      rw [Function.update_idem] at hshows
      rw [hfill, if_neg hroom]
      dsimp only
      rw [hnew.find, Function.update_self]
      exact ⟨rfl, hshows⟩

theorem owners_step (op : OwnershipOp) (h : OwnershipShows t m) :
    (t.step op).1 = (ownershipMap m op).1 ∧ OwnershipShows (t.step op).2 (ownershipMap m op).2 := by
  cases op with
  | acquire src sid role takeover =>
    obtain ⟨hanswer, hshows⟩ := acquire_step src sid role takeover h
    exact ⟨congrArg OwnershipAnswer.acquired hanswer, hshows⟩
  | release src sid =>
    unfold SourceOwnershipTable.step ownershipMap SourceOwnershipTable.release
    dsimp only
    rw [h.find]
    split
    · have hshows := h.amend (k := src) (f := SourceOwnershipTable.released) fun _ => rfl
      rw [← Slotted.live_modify] at hshows
      exact ⟨rfl, hshows⟩
    · exact ⟨rfl, h⟩
  | releaseAllOf sid =>
    have hkeep : ∀ e : OwnerEntry,
        (if e.owner == sid then SourceOwnershipTable.released e else e).sourceId = e.sourceId := by
      intro e
      split <;> rfl
    have hshows := h.each hkeep
    rw [← Slotted.live_each] at hshows
    refine ⟨?_, hshows⟩
    have hset : {src | src ∈ (SourceOwnershipTable.releaseAllOf t sid).1} =
        {src | (m src).any (fun e => e.owner == sid) = true} := by
      ext src
      simp only [SourceOwnershipTable.releaseAllOf, Set.mem_ofPred_eq, List.mem_map, List.mem_filter]
      rw [Option.any_eq_true]
      refine exists_congr fun e => ?_
      rw [h.get_iff]
      exact and_right_comm
    have hnodup : (SourceOwnershipTable.releaseAllOf t sid).1.Nodup :=
      h.once.sublist (List.filter_sublist.map OwnerEntry.sourceId)
    have hcalls : (SourceOwnershipTable.releaseAllOf t sid).1.length =
        Set.ncard {src | (m src).any (fun e => e.owner == sid) = true} := by
      rw [← hset, ← List.toFinset_card_of_nodup hnodup, ← Set.ncard_coe_finset]
      congr 1
      ext src
      simp
    simp only [SourceOwnershipTable.step, ownershipMap, hset, hcalls]

end

/-! ## Whole runs -/

def SubscriptionTable.Is {capacity : Nat} (t : SubscriptionTable capacity) (m : UInt16 → Option SubscriptionEntry) : Prop :=
  Holds SubscriptionEntry.channelId capacity (find t) t.live m

def PublishGrants.Is (t : PublishGrants) (m : UInt16 → Option PublishGrant) : Prop :=
  Holds PublishGrant.channelId kMaxPublishGrants (publishGrantFor t) t.live m

def PendingPairingList.Is {cap : Nat} (t : PendingPairingList cap) (m : InstanceId → Option PendingKnock) : Prop :=
  Holds PendingKnock.instanceId cap (find t) t.live m

def SourceOwnershipTable.Is (t : SourceOwnershipTable) (m : UInt8 → Option OwnerEntry) : Prop :=
  Holds OwnerEntry.sourceId kMaxSources (find t) t.live m

def RetainedStore.Is {capacity : Nat} (s : RetainedStore capacity) (m : UInt16 → Option RetainedEntry) : Prop :=
  Holds RetainedEntry.channelId capacity (get s) (s.live.map RetainedSlot.shown) m

/-- **The tables are finite maps.**  Whatever is done to it, a table answers as the map does, has at most one entry for each
key, and `find` gives what the map has there; an insertion is refused only for want of room or, in the store of retained
values, for a payload over the transport floor. -/
theorem tables_are_maps :
    (∀ (capacity : Nat) ops, Follows SubscriptionTable.Is (fun t op => some (SubscriptionTable.step t op))
      (subscriptionMap capacity) (SubscriptionTable.empty : SubscriptionTable capacity) (fun _ => none) ops) ∧
    (∀ ops, Follows PublishGrants.Is (fun t op => some (PublishGrants.step t op))
      grantMap Slotted.empty (fun _ => none) ops) ∧
    (∀ (cap : Nat) ops, Follows PendingPairingList.Is (fun t op => some (PendingPairingList.step t op))
      (knockMap cap) (Slotted.empty : PendingPairingList cap) (fun _ => none) ops) ∧
    (∀ ops, Follows SourceOwnershipTable.Is (fun t op => some (SourceOwnershipTable.step t op))
      ownershipMap Slotted.empty (fun _ => none) ops) ∧
    ∀ (capacity : Nat) ops, Follows RetainedStore.Is (fun s op => some (RetainedStore.step s op))
      (retainedMap capacity) (RetainedStore.empty : RetainedStore capacity) (fun _ => none) ops := by
  refine ⟨fun capacity ops => ?_, fun ops => ?_, fun cap ops => ?_, fun ops => ?_, fun capacity ops => ?_⟩
  · have hempty : SubscriptionShows (SubscriptionTable.empty : SubscriptionTable capacity) fun _ => none := Tabulates.nil
    have hrun : Follows SubscriptionShows (fun t op => some (SubscriptionTable.step t op)) (subscriptionMap capacity) _ _ ops :=
      follows_of_total (fun t m op => subscriptions_step op) hempty
    exact hrun.mono fun t m h => .of_shows h fun _ => rfl
  · have hrun : Follows GrantShows (fun t op => some (PublishGrants.step t op)) grantMap _ _ ops :=
      follows_of_total (fun t m op => grants_step op) Slotted.shows_empty
    exact hrun.mono fun t m h => .of_shows h fun _ => Slotted.find_eq t
  · have hrun : Follows KnockShows (fun t op => some (PendingPairingList.step t op)) (knockMap cap) _ _ ops :=
      follows_of_total (fun t m op => knocks_step op) Slotted.shows_empty
    exact hrun.mono fun t m h => .of_shows h fun _ => Slotted.find_eq t
  · have hrun : Follows OwnershipShows (fun t op => some (SourceOwnershipTable.step t op)) ownershipMap _ _ ops :=
      follows_of_total (fun t m op => owners_step op) Slotted.shows_empty
    exact hrun.mono fun t m h => .of_shows h fun _ => Slotted.find_eq t
  · have hempty : RetainedShows (RetainedStore.empty : RetainedStore capacity) fun _ => none :=
      ⟨Tabulates.nil, fun e he => nomatch he⟩
    have hrun : Follows RetainedShows (fun s op => some (RetainedStore.step s op)) (retainedMap capacity) _ _ ops :=
      follows_of_total (fun s m op => retained_step op) hempty
    exact hrun.mono fun s m h => ⟨h.shows.once, h.shows.atMost, h.get⟩

/-- One byte over the floor is refused by an empty store. -/
theorem long_snapshot_refused :
    (RetainedStore.publish (RetainedStore.empty : RetainedStore 1) 0x0040 (List.replicate 243 0)).1 = none ∧
      ¬Full 1 (fun _ => none : UInt16 → Option RetainedEntry) 0x0040 := by
  constructor
  · have hlong : Limits.minTransportPayload < (List.replicate 243 (0 : UInt8)).length := by
      rw [List.length_replicate]
      decide
    rw [RetainedStore.publish, dif_pos hlong]
  · intro hfull
    have hone := (((Tabulates.nil : Tabulates RetainedEntry.channelId 1 [] _).full_iff).mp hfull).2
    cases hone

end SlopSync.Arrays
