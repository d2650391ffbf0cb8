import SlopSync.Codec.Intent
import SlopSync.Codec.Welcome
import SlopSync.Hub.Intent

/-! # Integers of the wire

The wire carries integers of up to 64 bits, and a message keeps 8, 16 or 32 of them.  Some reads bound what they take;
the others cut it.  For each decoder: the integers of the message are those of the wire iff the ones that are not bounded
fit their field. -/

namespace SlopSync

open CborWriter CborReader CborDecoder

/-- The integer, where there is one, is below the bound. -/
def Below (b : Nat) (o : Option Nat) : Prop := ∀ n ∈ o, n < b

instance (b : Nat) (o : Option Nat) : Decidable (Below b o) :=
  inferInstanceAs (Decidable (∀ n ∈ o, n < b))

section Cuts

variable {o : Option Nat} (h : Below (2 ^ 64) o)
include h

/-- Cutting to eight bits is faithful below 2^8. -/
theorem cut8_getD : (UInt64.ofNat (o.getD 0)).toUInt8.toNat = o.getD 0 ↔ Below (2 ^ 8) o := by
  cases o with
  | none => simp [Below]
  | some n =>
    have hn : n < 2 ^ 64 := h n rfl
    rw [Option.getD_some, UInt64.toNat_toUInt8, UInt64.toNat_ofNat_of_lt' hn]
    simp only [Below, Option.mem_def, Option.some.injEq, forall_eq']
    omega

/-- To sixteen below 2^16. -/
theorem cut16_getD : (UInt64.ofNat (o.getD 0)).toUInt16.toNat = o.getD 0 ↔ Below (2 ^ 16) o := by
  cases o with
  | none => simp [Below]
  | some n =>
    have hn : n < 2 ^ 64 := h n rfl
    rw [Option.getD_some, UInt64.toNat_toUInt16, UInt64.toNat_ofNat_of_lt' hn]
    simp only [Below, Option.mem_def, Option.some.injEq, forall_eq']
    omega

/-- To thirty-two below 2^32. -/
theorem cut32_getD : (UInt64.ofNat (o.getD 0)).toUInt32.toNat = o.getD 0 ↔ Below (2 ^ 32) o := by
  cases o with
  | none => simp [Below]
  | some n =>
    have hn : n < 2 ^ 64 := h n rfl
    rw [Option.getD_some, UInt64.toNat_toUInt32, UInt64.toNat_ofNat_of_lt' hn]
    simp only [Below, Option.mem_def, Option.some.injEq, forall_eq']
    omega

/-- The same where the integer must be there. -/
theorem cut8_some {v : UInt64} (hv : o.map UInt64.ofNat = some v) :
    o = some v.toUInt8.toNat ↔ Below (2 ^ 8) o := by
  obtain ⟨n, rfl, rfl⟩ := Option.map_eq_some_iff.mp hv
  have hn : n < 2 ^ 64 := h n rfl
  rw [Option.some_inj, UInt64.toNat_toUInt8, UInt64.toNat_ofNat_of_lt' hn]
  simp only [Below, Option.mem_def, Option.some.injEq, forall_eq']
  omega

theorem cut16_some {v : UInt64} (hv : o.map UInt64.ofNat = some v) :
    o = some v.toUInt16.toNat ↔ Below (2 ^ 16) o := by
  obtain ⟨n, rfl, rfl⟩ := Option.map_eq_some_iff.mp hv
  have hn : n < 2 ^ 64 := h n rfl
  rw [Option.some_inj, UInt64.toNat_toUInt16, UInt64.toNat_ofNat_of_lt' hn]
  simp only [Below, Option.mem_def, Option.some.injEq, forall_eq']
  omega

theorem cut32_some {v : UInt64} (hv : o.map UInt64.ofNat = some v) :
    o = some v.toUInt32.toNat ↔ Below (2 ^ 32) o := by
  obtain ⟨n, rfl, rfl⟩ := Option.map_eq_some_iff.mp hv
  have hn : n < 2 ^ 64 := h n rfl
  rw [Option.some_inj, UInt64.toNat_toUInt32, UInt64.toNat_ofNat_of_lt' hn]
  simp only [Below, Option.mem_def, Option.some.injEq, forall_eq']
  omega

end Cuts

namespace CborTree

theorem mem_of_lookup {ps : List (Nat × CborTree)} {k : Nat} {t : CborTree} (h : ps.lookup k = some t) : (k, t) ∈ ps := by
  induction ps with
  | nil => cases h
  | cons p ps ih =>
    obtain ⟨j, u⟩ := p
    rw [List.lookup_cons] at h
    by_cases hj : k = j
    · subst hj
      obtain rfl : u = t := by simpa using h
      exact List.mem_cons_self ..
    · rw [show (k == j) = false by simpa using hj] at h
      exact List.mem_cons_of_mem _ (ih h)

/-- What stands under a key fits too. -/
theorem Fits.get {d k : Nat} {t u : CborTree} (h : Fits d t) (hu : t.get k = some u) : Fits d u := by
  cases h with
  | map _ _ _ hps => exact (hps _ (mem_of_lookup hu)).mono (Nat.le_succ _)
  | _ => cases hu

/-- An integer that stands in a tree of the profile has at most 64 bits. -/
theorem Fits.uintAt {d : Nat} {t : CborTree} (h : Fits d t) (k : Nat) : Below (2 ^ 64) (t.uintAt k) := by
  intro n hn
  unfold CborTree.uintAt at hn
  split at hn
  · rename_i m hget
    obtain rfl := Option.some.inj hn
    cases h.get hget with
    | uint hm => exact hm
  · cases hn

/-- What stands in its arrays fits too. -/
theorem Fits.itemsAt {d : Nat} {t : CborTree} (h : Fits d t) (k : Nat) : ∀ u ∈ t.itemsAt k, Fits d u := by
  intro u hu
  unfold CborTree.itemsAt at hu
  split at hu
  · rename_i ts hget
    have hfits := h.get hget
    cases hfits with
    | array _ hts => exact (hts u hu).mono (Nat.le_succ _)
  · cases hu

end CborTree

namespace CborDecoder

variable {σ α : Type} {init s : σ} {field : Nat → σ → CborDecoder σ} {t : CborTree} {d : Nat}

theorem uint_some {t : CborTree} {v : UInt64} (h : uint.ofTree t = some v) : ∃ n, t = .uint n ∧ v = UInt64.ofNat n := by
  cases t <;> cases h
  exact ⟨_, rfl, rfl⟩

/-- What an integer sets, and what is there when it is absent. -/
theorem record_value {β : Type} (get : σ → β) (k : Nat) (set : σ → UInt64 → σ) (val : UInt64 → β)
    (hother : ∀ j s, j ≠ k → Keeps get s (field j s))
    (hkey : ∀ s, field k s = uint.map (set s)) (hget : ∀ s v, get (set s v) = val v)
    (ht : CborTree.Fits d t) (h : (record init field).ofTree t = some s) :
    get s = ((t.uintAt k).map fun n => val (UInt64.ofNat n)).getD (get init) := by
  rcases record_get get k hother ht h with ⟨hnone, hs⟩ | ⟨v, s₁, s₂, hv, hstep, hs⟩
  · rw [hs, CborTree.uintAt, hnone]
    rfl
  · rw [hkey, map_ofTree] at hstep
    obtain ⟨x, hx, rfl⟩ := Option.map_eq_some_iff.mp hstep
    obtain ⟨n, rfl, rfl⟩ := uint_some hx
    rw [hs, hget, CborTree.uintAt, hv]
    rfl

/-- An integer that may be absent. -/
theorem record_uint (get : σ → Option UInt64) (k : Nat) (set : σ → UInt64 → σ)
    (hother : ∀ j s, j ≠ k → Keeps get s (field j s))
    (hkey : ∀ s, field k s = uint.map (set s)) (hget : ∀ s v, get (set s v) = some v) (hinit : get init = none)
    (ht : CborTree.Fits d t) (h : (record init field).ofTree t = some s) :
    get s = (t.uintAt k).map UInt64.ofNat := by
  rw [record_value get k set some hother hkey hget ht h, hinit]
  cases t.uintAt k <;> rfl

/-- An integer that is zero when it is absent. -/
theorem record_uint_zero (get : σ → UInt64) (k : Nat) (set : σ → UInt64 → σ)
    (hother : ∀ j s, j ≠ k → Keeps get s (field j s))
    (hkey : ∀ s, field k s = uint.map (set s)) (hget : ∀ s v, get (set s v) = v) (hinit : get init = 0)
    (ht : CborTree.Fits d t) (h : (record init field).ofTree t = some s) :
    get s = UInt64.ofNat ((t.uintAt k).getD 0) := by
  rw [record_value get k set id hother hkey hget ht h, hinit]
  cases t.uintAt k <;> rfl

/-- A list that is empty when it is absent. -/
theorem record_list (get : σ → List α) (k : Nat) (set : σ → List α → σ) {cap : Nat} {item : CborDecoder α}
    (hother : ∀ j s, j ≠ k → Keeps get s (field j s))
    (hkey : ∀ s, field k s = (list cap item).map (set s)) (hget : ∀ s v, get (set s v) = v) (hinit : get init = [])
    (ht : CborTree.Fits d t) (h : (record init field).ofTree t = some s) :
    List.Forall₂ (fun t a => item.ofTree t = some a) (t.itemsAt k) (get s) := by
  rcases record_get get k hother ht h with ⟨hnone, hs⟩ | ⟨v, s₁, s₂, hv, hstep, hs⟩
  · rw [hs, hinit, CborTree.itemsAt, hnone]
    exact .nil
  · rw [hkey, map_ofTree] at hstep
    obtain ⟨x, hx, rfl⟩ := Option.map_eq_some_iff.mp hstep
    obtain ⟨ts, rfl, hts⟩ := list_some hx
    rw [hs, hget, CborTree.itemsAt, hv]
    exact hts

end CborDecoder

/-- A list of messages is on the wire when each of them is. -/
theorem forall₂_map_iff {α β γ : Type} {R : β → α → Prop} (P : γ → β → Prop) {Q : β → Prop} (g : α → γ) {bs : List β}
    {as : List α} (h : List.Forall₂ R bs as) (hiff : ∀ b ∈ bs, ∀ a, R b a → (P (g a) b ↔ Q b)) :
    List.Forall₂ P (as.map g) bs ↔ ∀ b ∈ bs, Q b := by
  induction h with
  | nil => simp
  | cons hr _ ih =>
    obtain ⟨hb, hbs⟩ := List.forall_mem_cons.mp hiff
    rw [List.map_cons, List.forall₂_cons, List.forall_mem_cons, hb _ hr, ih hbs]

namespace Wire

/-! ## Wishes and grants -/

/-- Channel and priority are those of the entry, zero where it has none. -/
structure EntryOnWire (channelId : UInt16) (priority : UInt8) (t : CborTree) : Prop where
  channelId : channelId.toNat = (t.uintAt CborKey.channelId).getD 0
  priority : priority.toNat = (t.uintAt CborKey.priority).getD 0

structure EntryInRange (t : CborTree) : Prop where
  channelId : Below (2 ^ 16) (t.uintAt CborKey.channelId)
  priority : Below (2 ^ 8) (t.uintAt CborKey.priority)

/-- Both are cut from the integers of the entry. -/
theorem entry_onWire_iff {d : Nat} {t : CborTree} {channelId priority : UInt64} (ht : CborTree.Fits d t)
    (hchannel : channelId = UInt64.ofNat ((t.uintAt CborKey.channelId).getD 0))
    (hpriority : priority = UInt64.ofNat ((t.uintAt CborKey.priority).getD 0)) :
    EntryOnWire channelId.toUInt16 priority.toUInt8 t ↔ EntryInRange t := by
  have hc := cut16_getD (ht.uintAt CborKey.channelId)
  have hp := cut8_getD (ht.uintAt CborKey.priority)
  rw [← hchannel] at hc
  rw [← hpriority] at hp
  exact ⟨fun ⟨h₁, h₂⟩ => ⟨hc.mp h₁, hp.mp h₂⟩, fun ⟨h₁, h₂⟩ => ⟨hc.mpr h₁, hp.mpr h₂⟩⟩

/-- A wish is on the wire when its integers were in range. -/
theorem wish_onWire_iff {d : Nat} {t : CborTree} {f : WishFields} (ht : CborTree.Fits d t)
    (h : (record {} WishFields.field).ofTree t = some f) :
    EntryOnWire f.wish.channelId f.wish.priority t ↔ EntryInRange t := by
  have hchannel := record_uint_zero WishFields.channelId CborKey.channelId (fun f v => { f with channelId := v })
    (fun _ _ hj => by simp [WishFields.field, hj]) (fun _ => rfl) (fun _ _ => rfl) rfl ht h
  have hpriority := record_uint_zero WishFields.priority CborKey.priority (fun f v => { f with priority := v })
    (fun _ _ hj => by simp [WishFields.field, hj]) (fun _ => rfl) (fun _ _ => rfl) rfl ht h
  exact entry_onWire_iff ht hchannel hpriority

theorem publishWish_onWire_iff {d : Nat} {t : CborTree} {f : PublishWishFields} (ht : CborTree.Fits d t)
    (h : (record {} PublishWishFields.field).ofTree t = some f) :
    f.wish.channelId.toNat = (t.uintAt CborKey.channelId).getD 0 ↔ Below (2 ^ 16) (t.uintAt CborKey.channelId) := by
  have hchannel := record_uint_zero PublishWishFields.channelId CborKey.channelId (fun f v => { f with channelId := v })
    (fun _ _ hj => by simp [PublishWishFields.field, hj]) (fun _ => rfl) (fun _ _ => rfl) rfl ht h
  have hc := cut16_getD (ht.uintAt CborKey.channelId)
  rwa [← hchannel] at hc

theorem grant_onWire_iff {d : Nat} {t : CborTree} {f : GrantFields} (ht : CborTree.Fits d t)
    (h : (record {} GrantFields.field).ofTree t = some f) :
    EntryOnWire f.grant.channelId f.grant.priority t ↔ EntryInRange t := by
  have hchannel := record_uint_zero GrantFields.channelId CborKey.channelId (fun f v => { f with channelId := v })
    (fun _ _ hj => by simp [GrantFields.field, hj]) (fun _ => rfl) (fun _ _ => rfl) rfl ht h
  have hpriority := record_uint_zero GrantFields.priority CborKey.priority (fun f v => { f with priority := v })
    (fun _ _ hj => by simp [GrantFields.field, hj]) (fun _ => rfl) (fun _ _ => rfl) rfl ht h
  exact entry_onWire_iff ht hchannel hpriority

theorem grantedPublish_onWire_iff {d : Nat} {t : CborTree} {f : GrantedPublishFields} (ht : CborTree.Fits d t)
    (h : (record {} GrantedPublishFields.field).ofTree t = some f) :
    f.publish.channelId.toNat = (t.uintAt CborKey.channelId).getD 0 ↔ Below (2 ^ 16) (t.uintAt CborKey.channelId) := by
  have hchannel := record_uint_zero GrantedPublishFields.channelId CborKey.channelId (fun f v => { f with channelId := v })
    (fun _ _ hj => by simp [GrantedPublishFields.field, hj]) (fun _ => rfl) (fun _ _ => rfl) rfl ht h
  have hc := cut16_getD (ht.uintAt CborKey.channelId)
  rwa [← hchannel] at hc

/-! ## HELLO -/

/-- The channels and priorities of the wishes are those of the wire. -/
structure HelloMsg.OnWire (m : HelloMsg) (t : CborTree) : Prop where
  subscriptions : List.Forall₂ (fun s t => EntryOnWire s.channelId s.priority t) m.subscriptions
    (t.itemsAt CborKey.subscriptions)
  publishes : List.Forall₂ (fun p t => p.channelId.toNat = (t.uintAt CborKey.channelId).getD 0) m.publishes
    (t.itemsAt CborKey.publishes)

structure HelloInRange (t : CborTree) : Prop where
  subscriptions : ∀ u ∈ t.itemsAt CborKey.subscriptions, EntryInRange u
  publishes : ∀ u ∈ t.itemsAt CborKey.publishes, Below (2 ^ 16) (u.uintAt CborKey.channelId)

theorem HelloFields.msg_ok {f : HelloFields} {m : HelloMsg} (h : f.msg = .ok m) :
    m.subscriptions = f.subscriptions.map WishFields.wish ∧ m.publishes = f.publishes.map PublishWishFields.wish := by
  unfold msg at h
  split at h
  · cases h
    exact ⟨rfl, rfl⟩
  · cases h

/-- A HELLO is on the wire when its wishes are in range. -/
theorem hello_onWire_iff {t : CborTree} {f : HelloFields} {m : HelloMsg} (ht : CborTree.Fits kMaxDepth t)
    (h : helloFields.ofTree t = some f) (hm : f.msg = .ok m) : m.OnWire t ↔ HelloInRange t := by
  have hsubs := record_list HelloFields.subscriptions CborKey.subscriptions (fun f v => { f with subscriptions := v })
    (fun _ _ hj => by simp [HelloFields.field, hj]) (fun _ => rfl) (fun _ _ => rfl) rfl ht h
  have hpubs := record_list HelloFields.publishes CborKey.publishes (fun f v => { f with publishes := v })
    (fun _ _ hj => by simp [HelloFields.field, hj]) (fun _ => rfl) (fun _ _ => rfl) rfl ht h
  have hs := forall₂_map_iff (fun (s : SubscriptionWish) t => EntryOnWire s.channelId s.priority t) WishFields.wish hsubs
    fun u hu f hf => wish_onWire_iff (ht.itemsAt _ u hu) hf
  have hp := forall₂_map_iff (fun (p : PublishWish) t => p.channelId.toNat = (t.uintAt CborKey.channelId).getD 0)
    PublishWishFields.wish hpubs
    fun u hu f hf => publishWish_onWire_iff (ht.itemsAt _ u hu) hf
  obtain ⟨hsub, hpub⟩ := HelloFields.msg_ok hm
  rw [← hsub] at hs
  rw [← hpub] at hp
  constructor
  · intro hwire
    exact ⟨hs.mp hwire.subscriptions, hp.mp hwire.publishes⟩
  · intro hrange
    exact ⟨hs.mpr hrange.subscriptions, hp.mpr hrange.publishes⟩

/-! ## SUBSCRIBE and UNSUBSCRIBE -/

/-- A SUBSCRIBE is on the wire when its wishes are in range. -/
theorem subscribe_onWire_iff {t : CborTree} {l : List WishFields} (ht : CborTree.Fits kMaxDepth t)
    (h : subscribeFields.ofTree t = some (some l)) :
    List.Forall₂ (fun (s : SubscriptionWish) t => EntryOnWire s.channelId s.priority t) (l.map WishFields.wish)
      (t.itemsAt CborKey.subscriptions) ↔ ∀ u ∈ t.itemsAt CborKey.subscriptions, EntryInRange u := by
  have hsubs := record_list (fun f : Option (List WishFields) => f.getD []) CborKey.subscriptions (fun _ v => some v)
    (fun _ _ hj => by simp [hj]) (fun _ => rfl) (fun _ _ => rfl) rfl ht h
  exact forall₂_map_iff _ _ hsubs fun u hu f hf => wish_onWire_iff (ht.itemsAt _ u hu) hf

/-- An UNSUBSCRIBE is on the wire when its channels are in range. -/
theorem unsubscribe_onWire_iff {t : CborTree} {l : List UInt64} (ht : CborTree.Fits kMaxDepth t)
    (h : unsubscribeFields.ofTree t = some (some l)) :
    List.Forall₂ (fun (c : UInt16) t => t = .uint c.toNat) (l.map UInt64.toUInt16) (t.itemsAt CborKey.subscriptions) ↔
      ∀ u ∈ t.itemsAt CborKey.subscriptions, ∀ n, u = .uint n → n < 2 ^ 16 := by
  have hsubs := record_list (fun f : Option (List UInt64) => f.getD []) CborKey.subscriptions (fun _ v => some v)
    (fun _ _ hj => by simp [hj]) (fun _ => rfl) (fun _ _ => rfl) rfl ht h
  refine forall₂_map_iff _ _ hsubs fun u hu v hv => ?_
  obtain ⟨n, rfl, rfl⟩ := uint_some hv
  have hn : n < 2 ^ 64 := by
    cases ht.itemsAt _ _ hu with
    | uint hn => exact hn
  rw [CborTree.uint.injEq, UInt64.toNat_toUInt16, UInt64.toNat_ofNat_of_lt' hn]
  constructor
  · rintro hmod m hm
    obtain rfl := CborTree.uint.inj hm
    omega
  · intro hlt
    have := hlt n rfl
    omega

/-! ## WELCOME -/

/-- The integer under a key of the `limits` sub-map. -/
def limitAt (t : CborTree) (k : Nat) : Option Nat := (t.get CborKey.limits).bind fun l => l.uintAt k

structure WelcomeMsg.OnWire (m : WelcomeMsg) (t : CborTree) : Prop where
  sessionId : t.uintAt CborKey.sessionId = some m.sessionId.toNat
  bootId : t.uintAt CborKey.bootId = some m.bootId.toNat
  cfgGen : t.uintAt CborKey.cfgGen = some m.cfgGen.toNat
  roles : t.uintAt CborKey.roles = some m.roles.toNat
  deadmanMs : t.uintAt CborKey.deadmanMs = some m.deadmanMs.toNat
  deadmanPolicy : t.uintAt CborKey.deadmanPolicy = some m.deadmanPolicy.toNat
  maxFrame : m.limits.maxFrame.toNat = (limitAt t 1).getD 0
  maxSubscriptions : m.limits.maxSubscriptions.toNat = (limitAt t 2).getD 0
  retainedPending : m.limits.retainedPending.toNat = (limitAt t 3).getD 0
  maxSubscriptionsPerFrame : m.limits.maxSubscriptionsPerFrame.toNat = (limitAt t 4).getD 0
  grants : List.Forall₂ (fun g t => EntryOnWire g.channelId g.priority t) m.grants (t.itemsAt CborKey.grants)
  grantedPublishes : List.Forall₂ (fun p t => p.channelId.toNat = (t.uintAt CborKey.channelId).getD 0)
    m.grantedPublishes (t.itemsAt CborKey.grantedPublishes)

structure WelcomeInRange (t : CborTree) : Prop where
  sessionId : Below (2 ^ 32) (t.uintAt CborKey.sessionId)
  bootId : Below (2 ^ 32) (t.uintAt CborKey.bootId)
  cfgGen : Below (2 ^ 16) (t.uintAt CborKey.cfgGen)
  roles : Below (2 ^ 8) (t.uintAt CborKey.roles)
  deadmanMs : Below (2 ^ 32) (t.uintAt CborKey.deadmanMs)
  deadmanPolicy : Below (2 ^ 8) (t.uintAt CborKey.deadmanPolicy)
  limits : ∀ k, 1 ≤ k → k ≤ 4 → Below (2 ^ 32) (limitAt t k)
  grants : ∀ u ∈ t.itemsAt CborKey.grants, EntryInRange u
  grantedPublishes : ∀ u ∈ t.itemsAt CborKey.grantedPublishes, Below (2 ^ 16) (u.uintAt CborKey.channelId)

/-- The integers of the limits, each zero where it is absent. -/
theorem limits_uint {d : Nat} {t : CborTree} {l : LimitsFields} (ht : CborTree.Fits d t)
    (h : (record {} LimitsFields.field).ofTree t = some l) :
    l.maxFrame = UInt64.ofNat ((t.uintAt 1).getD 0) ∧ l.maxSubscriptions = UInt64.ofNat ((t.uintAt 2).getD 0) ∧
      l.retainedPending = UInt64.ofNat ((t.uintAt 3).getD 0) ∧
      l.maxSubscriptionsPerFrame = UInt64.ofNat ((t.uintAt 4).getD 0) :=
  ⟨record_uint_zero LimitsFields.maxFrame 1 (fun f v => { f with maxFrame := v })
      (fun _ _ hj => by simp [LimitsFields.field, hj]) (fun _ => rfl) (fun _ _ => rfl) rfl ht h,
    record_uint_zero LimitsFields.maxSubscriptions 2 (fun f v => { f with maxSubscriptions := v })
      (fun _ _ hj => by simp [LimitsFields.field, hj]) (fun _ => rfl) (fun _ _ => rfl) rfl ht h,
    record_uint_zero LimitsFields.retainedPending 3 (fun f v => { f with retainedPending := v })
      (fun _ _ hj => by simp [LimitsFields.field, hj]) (fun _ => rfl) (fun _ _ => rfl) rfl ht h,
    record_uint_zero LimitsFields.maxSubscriptionsPerFrame 4 (fun f v => { f with maxSubscriptionsPerFrame := v })
      (fun _ _ hj => by simp [LimitsFields.field, hj]) (fun _ => rfl) (fun _ _ => rfl) rfl ht h⟩

/-- The `limits` sub-map is read from its tree. -/
theorem welcome_limits {t : CborTree} {f : WelcomeFields} {l : LimitsFields} (ht : CborTree.Fits kMaxDepth t)
    (h : welcomeFields.ofTree t = some f) (hl : f.limits = some l) :
    ∃ u, t.get CborKey.limits = some u ∧ (record {} LimitsFields.field).ofTree u = some l := by
  rcases record_get WelcomeFields.limits CborKey.limits (fun _ _ hj => by simp [WelcomeFields.field, hj]) ht h with
    ⟨-, hf⟩ | ⟨u, f₁, f₂, hu, hstep, hf⟩
  · rw [hl] at hf
    cases hf
  · obtain ⟨l', hl', rfl⟩ := Option.map_eq_some_iff.mp hstep
    obtain rfl := Option.some.inj (hl.symm.trans hf)
    exact ⟨u, hu, hl'⟩

/-- A WELCOME is on the wire when every integer of it was in range. -/
theorem welcome_onWire_iff {t : CborTree} {f : WelcomeFields} {m : WelcomeMsg} (ht : CborTree.Fits kMaxDepth t)
    (h : welcomeFields.ofTree t = some f) (hm : f.msg = .ok m) : m.OnWire t ↔ WelcomeInRange t := by
  have hsession := record_uint WelcomeFields.sessionId CborKey.sessionId (fun f v => { f with sessionId := some v })
    (fun _ _ hj => by simp [WelcomeFields.field, hj]) (fun _ => rfl) (fun _ _ => rfl) rfl ht h
  have hboot := record_uint WelcomeFields.bootId CborKey.bootId (fun f v => { f with bootId := some v })
    (fun _ _ hj => by simp [WelcomeFields.field, hj]) (fun _ => rfl) (fun _ _ => rfl) rfl ht h
  have hcfg := record_uint WelcomeFields.cfgGen CborKey.cfgGen (fun f v => { f with cfgGen := some v })
    (fun _ _ hj => by simp [WelcomeFields.field, hj]) (fun _ => rfl) (fun _ _ => rfl) rfl ht h
  have hroles := record_uint WelcomeFields.roles CborKey.roles (fun f v => { f with roles := some v })
    (fun _ _ hj => by simp [WelcomeFields.field, hj]) (fun _ => rfl) (fun _ _ => rfl) rfl ht h
  have hms := record_uint WelcomeFields.deadmanMs CborKey.deadmanMs (fun f v => { f with deadmanMs := some v })
    (fun _ _ hj => by simp [WelcomeFields.field, hj]) (fun _ => rfl) (fun _ _ => rfl) rfl ht h
  have hpolicy := record_uint WelcomeFields.deadmanPolicy CborKey.deadmanPolicy (fun f v => { f with deadmanPolicy := some v })
    (fun _ _ hj => by simp [WelcomeFields.field, hj]) (fun _ => rfl) (fun _ _ => rfl) rfl ht h
  have hgrants := record_list (fun f : WelcomeFields => f.grants.getD []) CborKey.grants (fun f v => { f with grants := some v })
    (fun _ _ hj => by simp [WelcomeFields.field, hj]) (fun _ => rfl) (fun _ _ => rfl) rfl
    ht h
  have hpubs := record_list WelcomeFields.grantedPublishes CborKey.grantedPublishes (fun f v => { f with grantedPublishes := v })
    (fun _ _ hj => by simp [WelcomeFields.field, hj]) (fun _ => rfl) (fun _ _ => rfl) rfl ht h
  unfold WelcomeFields.msg at hm
  split at hm
  · rename_i protoVer sessionId bootId etag cfgGen limits roles deadmanMs deadmanPolicy nonce grants _ hf₁ hf₂ _ hf₃
      hf₄ hf₅ hf₆ hf₇ _ hf₈
    cases hm
    obtain ⟨u, hu, hlimits⟩ := welcome_limits ht h hf₄
    obtain ⟨hl₁, hl₂, hl₃, hl₄⟩ := limits_uint (ht.get hu) hlimits
    have hlimit : ∀ k, limitAt t k = u.uintAt k := fun k => by rw [limitAt, hu]; rfl
    have hbound : ∀ k, Below (2 ^ 64) (limitAt t k) := fun k => by rw [hlimit]; exact (ht.get hu).uintAt k
    rw [← hlimit] at hl₁ hl₂ hl₃ hl₄
    have h₁ := cut32_some (ht.uintAt _) (hsession.symm.trans hf₁)
    have h₂ := cut32_some (ht.uintAt _) (hboot.symm.trans hf₂)
    have h₃ := cut16_some (ht.uintAt _) (hcfg.symm.trans hf₃)
    have h₄ := cut8_some (ht.uintAt _) (hroles.symm.trans hf₅)
    have h₅ := cut32_some (ht.uintAt _) (hms.symm.trans hf₆)
    have h₆ := cut8_some (ht.uintAt _) (hpolicy.symm.trans hf₇)
    have h₇ := cut32_getD (hbound 1)
    have h₈ := cut32_getD (hbound 2)
    have h₉ := cut32_getD (hbound 3)
    have h₁₀ := cut32_getD (hbound 4)
    rw [← hl₁] at h₇
    rw [← hl₂] at h₈
    rw [← hl₃] at h₉
    rw [← hl₄] at h₁₀
    rw [hf₈, Option.getD_some] at hgrants
    have h₁₁ := forall₂_map_iff (fun (g : Grant) t => EntryOnWire g.channelId g.priority t) GrantFields.grant hgrants
      fun u hu f hf => grant_onWire_iff (ht.itemsAt _ u hu) hf
    have h₁₂ := forall₂_map_iff (fun (p : GrantedPublish) t => p.channelId.toNat = (t.uintAt CborKey.channelId).getD 0)
      GrantedPublishFields.publish hpubs fun u hu f hf => grantedPublish_onWire_iff (ht.itemsAt _ u hu) hf
    constructor
    · intro hw
      refine ⟨h₁.mp hw.sessionId, h₂.mp hw.bootId, h₃.mp hw.cfgGen, h₄.mp hw.roles, h₅.mp hw.deadmanMs,
        h₆.mp hw.deadmanPolicy, fun k hlo hhi => ?_, h₁₁.mp hw.grants, h₁₂.mp hw.grantedPublishes⟩
      obtain rfl | rfl | rfl | rfl : k = 1 ∨ k = 2 ∨ k = 3 ∨ k = 4 := by omega
      · exact h₇.mp hw.maxFrame
      · exact h₈.mp hw.maxSubscriptions
      · exact h₉.mp hw.retainedPending
      · exact h₁₀.mp hw.maxSubscriptionsPerFrame
    · intro hr
      exact ⟨h₁.mpr hr.sessionId, h₂.mpr hr.bootId, h₃.mpr hr.cfgGen, h₄.mpr hr.roles, h₅.mpr hr.deadmanMs,
        h₆.mpr hr.deadmanPolicy, h₇.mpr (hr.limits 1 (by decide) (by decide)),
        h₈.mpr (hr.limits 2 (by decide) (by decide)), h₉.mpr (hr.limits 3 (by decide) (by decide)),
        h₁₀.mpr (hr.limits 4 (by decide) (by decide)), h₁₁.mpr hr.grants, h₁₂.mpr hr.grantedPublishes⟩
  · cases hm

end Wire

/-! ## INTENT -/

/-- The value is the one of the tree. -/
def IntentValue.OnWire : IntentValue → CborTree → Prop
  | .u64 v, .uint n => v.toNat = n
  | .i64 v, .negInt n => v.toInt = -1 - n
  | .f32 bits, .f32 bits' => bits = bits'
  | .bool b, .bool b' => b = b'
  | .tstr s, .text s' => s = s'
  | .bstr s, .bytes s' => s = s'
  | _, _ => False

/-- A negative integer that 64 bits hold with its sign. -/
def SignedInRange (t : CborTree) : Prop := ∀ n, t = .negInt n → n < 2 ^ 63

/-- The pairs of the `value` map. -/
def CborTree.valuesAt (t : CborTree) : List (Nat × CborTree) :=
  match t.get CborKey.value with
  | some (.map ps) => ps
  | _ => []

structure IntentMsg.OnWire (m : IntentMsg) (t : CborTree) : Prop where
  channelId : t.uintAt CborKey.channelId = some m.channelId.toNat
  intentId : t.uintAt CborKey.intentId = some m.intentId.toNat
  precondition : t.uintAt CborKey.precondition = m.precondition.map UInt16.toNat
  value : List.Forall₂ (fun f p => f.key.toNat = p.1 ∧ f.value.OnWire p.2) m.value t.valuesAt

structure IntentInRange (t : CborTree) : Prop where
  channelId : Below (2 ^ 16) (t.uintAt CborKey.channelId)
  intentId : Below (2 ^ 16) (t.uintAt CborKey.intentId)
  precondition : Below (2 ^ 16) (t.uintAt CborKey.precondition)
  value : ∀ p ∈ t.valuesAt, SignedInRange p.2

/-- A value is the one of its tree unless it is a negative integer of more than 64 bits. -/
theorem value_onWire_iff {d : Nat} {t : CborTree} {v : IntentValue} (ht : CborTree.Fits d t)
    (h : IntentValue.ofTree t = some v) : v.OnWire t ↔ SignedInRange t := by
  cases t with
  | uint n =>
    cases h
    have hn : n < 2 ^ 64 := by
      cases ht
      assumption
    simp only [IntentValue.OnWire, SignedInRange, UInt64.toNat_ofNat_of_lt' hn, true_iff]
    rintro m ⟨⟩
  | negInt n =>
    cases h
    have hn : n < 2 ^ 64 := by
      cases ht
      assumption
    simp only [IntentValue.OnWire, SignedInRange, CborTree.negInt.injEq, forall_eq']
    constructor
    · intro hval
      by_contra hbig
      have hlow := (-1 - Int64.ofNat n).le_toInt
      omega
    · intro hlt
      rw [Int64.toInt_sub, Int64.toInt_ofNat_of_lt hlt, show (-1 : Int64).toInt = -1 from rfl]
      exact Int.bmod_eq_of_le (by omega) (by omega)
  | bytes _ | text _ | bool _ | f32 _ =>
    cases h
    simp [IntentValue.OnWire, SignedInRange]
  | null | array _ | map _ => cases h

/-- The values read are those of the map, in order. -/
theorem foldlM_pushValue_some {ps : List (Nat × CborTree)} {l l' : IntentValueMap}
    (h : ps.foldlM pushValue l = some l') :
    ∃ fs, l' = l ++ fs ∧ List.Forall₂ (fun p f => f.key.toNat = p.1 ∧ IntentValue.ofTree p.2 = some f.value) ps fs := by
  induction ps generalizing l with
  | nil =>
    obtain rfl := Option.some.inj h
    exact ⟨[], by simp, .nil⟩
  | cons p ps ih =>
    rw [List.foldlM_cons] at h
    obtain ⟨l₁, hl₁, h⟩ := Option.bind_eq_some_iff.mp h
    rw [pushValue] at hl₁
    split_ifs at hl₁ with hkey
    obtain ⟨v, hv, rfl⟩ := Option.map_eq_some_iff.mp hl₁
    obtain ⟨fs, rfl, hfs⟩ := ih h
    refine ⟨⟨UInt8.ofNat p.1, v⟩ :: fs, by rw [List.append_assoc, List.singleton_append], .cons ⟨?_, hv⟩ hfs⟩
    rw [UInt8.toNat_ofNat']
    omega

namespace IntentFields

/-- The value map is read from its tree. -/
theorem value_of_tree {t : CborTree} {f : IntentFields} {fs : IntentValueMap} (ht : CborTree.Fits kMaxDepth t)
    (h : decoder.ofTree t = some f) (hv : f.value = some fs) :
    (∃ d, ∀ p ∈ t.valuesAt, CborTree.Fits d p.2) ∧
      List.Forall₂ (fun p f => f.key.toNat = p.1 ∧ IntentValue.ofTree p.2 = some f.value) t.valuesAt fs := by
  rcases record_get IntentFields.value CborKey.value (fun _ _ hj => by simp [IntentFields.field, hj]) ht h with
    ⟨-, hf⟩ | ⟨u, f₁, f₂, hu, hstep, hf⟩
  · rw [hv] at hf
    cases hf
  · obtain ⟨fs', hfs', rfl⟩ := Option.map_eq_some_iff.mp hstep
    obtain rfl := Option.some.inj (hv.symm.trans hf)
    have hfits := ht.get hu
    cases u with
    | map ps =>
      simp only [intentValueMap] at hfs'
      split_ifs at hfs'
      obtain ⟨fs'', rfl, hfs''⟩ := foldlM_pushValue_some hfs'
      rw [CborTree.valuesAt, hu]
      refine ⟨?_, hfs''⟩
      cases hfits with
      | map _ _ _ hps => exact ⟨_, hps⟩
    | _ => cases hfs'

end IntentFields

/-- An INTENT is on the wire when its ids are in range and no value is below -2^63. -/
theorem intent_onWire_iff {t : CborTree} {f : IntentFields} {m : IntentMsg} (ht : CborTree.Fits kMaxDepth t)
    (h : IntentFields.decoder.ofTree t = some f) (hm : f.msg = .ok m) : m.OnWire t ↔ IntentInRange t := by
  have hchannel := record_uint IntentFields.channelId CborKey.channelId (fun f v => { f with channelId := some v })
    (fun _ _ hj => by simp [IntentFields.field, hj]) (fun _ => rfl) (fun _ _ => rfl) rfl ht h
  have hintent := record_uint IntentFields.intentId CborKey.intentId (fun f v => { f with intentId := some v })
    (fun _ _ hj => by simp [IntentFields.field, hj]) (fun _ => rfl) (fun _ _ => rfl) rfl ht h
  have hpre := record_uint IntentFields.precondition CborKey.precondition (fun f v => { f with precondition := some v })
    (fun _ _ hj => by simp [IntentFields.field, hj]) (fun _ => rfl) (fun _ _ => rfl) rfl ht h
  unfold IntentFields.msg at hm
  split at hm
  · rename_i channelId intentId value hf₁ hf₂ hf₃
    cases hm
    obtain ⟨⟨d, hfits⟩, hvalues⟩ := IntentFields.value_of_tree ht h hf₃
    have h₁ := cut16_some (ht.uintAt _) (hchannel.symm.trans hf₁)
    have h₂ := cut16_some (ht.uintAt _) (hintent.symm.trans hf₂)
    have h₃ : t.uintAt CborKey.precondition = (f.precondition.map UInt64.toUInt16).map UInt16.toNat ↔
        Below (2 ^ 16) (t.uintAt CborKey.precondition) := by
      cases hp : f.precondition with
      | none =>
        rw [hp] at hpre
        have hnone : t.uintAt CborKey.precondition = none := by simpa using hpre.symm
        simp [hnone, Below]
      | some v => exact cut16_some (ht.uintAt _) (hpre.symm.trans hp)
    have h₄ := forall₂_map_iff (fun (f : IntentValueField) p => f.key.toNat = p.1 ∧ f.value.OnWire p.2) id hvalues
      (Q := fun p => SignedInRange p.2) fun p hp f hf => by
        rw [id, and_iff_right hf.1]
        exact value_onWire_iff (hfits p hp) hf.2
    rw [List.map_id] at h₄
    constructor
    · intro hwire
      exact ⟨h₁.mp hwire.channelId, h₂.mp hwire.intentId, h₃.mp hwire.precondition, h₄.mp hwire.value⟩
    · intro hrange
      exact ⟨h₁.mpr hrange.channelId, h₂.mpr hrange.intentId, h₃.mpr hrange.precondition, h₄.mpr hrange.value⟩
  · cases hm

/-! ## Ops of the hub -/

/-- The op an accepted safety intent latches. -/
def latchedOp (m : IntentMsg) : Option UInt8 := (safetyOp m).map UInt64.toUInt8

/-- The latch sees nothing of a safety op but `latchedOp`. -/
theorem latchAccepted_latchedOp {ε : Type} (w : World ε) (c : Config) (i : SlotIdx) (m : IntentMsg) (nowMs : UInt32)
    (s : Sys ε) :
    latchAccepted w c i (safetyOp m) nowMs s = latchAccepted w c i ((latchedOp m).map UInt8.toUInt64) nowMs s := by
  cases h : safetyOp m with
  | none => simp [latchedOp, h]
  | some op => simp only [latchedOp, h, Option.map_some, latchAccepted, UInt8.toUInt8_toUInt64]

/-- The op latched is the op sent when it is below 2^8. -/
theorem latchedOp_iff {m : IntentMsg} {op : UInt64} (h : safetyOp m = some op) :
    (latchedOp m).map UInt8.toNat = some op.toNat ↔ op.toNat < 2 ^ 8 := by
  rw [latchedOp, h, Option.map_some, Option.map_some, Option.some_inj, UInt64.toNat_toUInt8]
  omega

/-- The session an admin intent names; of a repeated key the last one counts. -/
def adminSession (m : IntentMsg) : Option UInt64 :=
  m.value.foldl (fun o f => match f.value with
    | .u64 v => if f.key = 2 then some v else o
    | _ => o) none

/-- The session an admin op acts on is cut from the one named. -/
theorem adminOp_session (m : IntentMsg) :
    (adminOp m).session = ((adminSession m).map UInt64.toUInt32).getD 0 := by
  have hrun : ∀ (fs : IntentValueMap) (a : AdminOp) (o : Option UInt64), a.session = (o.map UInt64.toUInt32).getD 0 →
      (fs.foldl adminField a).session = ((fs.foldl (fun o f => match f.value with
        | .u64 v => if f.key = 2 then some v else o
        | _ => o) o).map UInt64.toUInt32).getD 0 := by
    intro fs
    induction fs with
    | nil => exact fun _ _ h => h
    | cons f fs ih =>
      intro a o h
      refine ih (adminField a f) _ ?_
      obtain ⟨key, value⟩ := f
      cases value with
      | u64 v =>
        simp only [adminField]
        split_ifs with h₁ h₂ h₃ h₃ <;> first
          | exact h
          | rfl
          | exact absurd (h₁ ▸ h₂) (by decide)
      | bstr b =>
        simp only [adminField]
        split_ifs <;> exact h
      | i64 _ | f32 _ | bool _ | tstr _ => exact h
  exact hrun m.value {} none rfl

/-- It is the one named when that is below 2^32. -/
theorem adminOp_session_iff {m : IntentMsg} {v : UInt64} (h : adminSession m = some v) :
    (adminOp m).session.toNat = v.toNat ↔ v.toNat < 2 ^ 32 := by
  rw [adminOp_session, h, Option.map_some, Option.getD_some, UInt64.toNat_toUInt32]
  omega

/-! ## All of them -/

namespace Wire

/-- What a decoder with a message at its end accepts. -/
theorem message_ok {α β : Type} {d : CborDecoder α} {k : α → Except DecodeError β} {bs : Bytes} {b : β}
    (h : (do let a ← d.run bs; k a) = .ok b) :
    ∃ t rest a, CborTree.Fits kMaxDepth t ∧ bs = t.encode ++ rest ∧ d.ofTree t = some a ∧ k a = .ok b := by
  obtain ⟨a, ha, hb⟩ := bind_ok h
  obtain ⟨t, rest, ht, hbs, hof⟩ := run_ok.mp ha
  exact ⟨t, rest, a, ht, hbs, hof, hb⟩

/-- **The integers of an accepted message are those of the wire iff the ones whose reads are not bounded fit their
fields**, and the same for the ops of the hub. -/
theorem wire_integers_iff (bs : Bytes) (i : SlopSync.IntentMsg) :
    (∀ m : HelloMsg, decodeHello bs = .ok m → ∃ t rest, CborTree.Fits kMaxDepth t ∧
      bs = t.encode ++ rest ∧ (m.OnWire t ↔ HelloInRange t)) ∧
    (∀ m : SlopSync.IntentMsg, SlopSync.decodeIntent bs = .ok m → ∃ t rest, CborTree.Fits kMaxDepth t ∧
      bs = t.encode ++ rest ∧ (m.OnWire t ↔ IntentInRange t)) ∧
    (∀ l : List SubscriptionWish, decodeSubscribe bs = .ok l → ∃ t rest, CborTree.Fits kMaxDepth t ∧
      bs = t.encode ++ rest ∧
      (List.Forall₂ (fun (s : SubscriptionWish) u => EntryOnWire s.channelId s.priority u) l
        (t.itemsAt CborKey.subscriptions) ↔ ∀ u ∈ t.itemsAt CborKey.subscriptions, EntryInRange u)) ∧
    (∀ l : List UInt16, decodeUnsubscribe bs = .ok l → ∃ t rest, CborTree.Fits kMaxDepth t ∧
      bs = t.encode ++ rest ∧
      (List.Forall₂ (fun (c : UInt16) u => u = .uint c.toNat) l (t.itemsAt CborKey.subscriptions) ↔
        ∀ u ∈ t.itemsAt CborKey.subscriptions, ∀ n, u = .uint n → n < 2 ^ 16)) ∧
    (∀ m : WelcomeMsg, decodeWelcome bs = .ok m → ∃ t rest, CborTree.Fits kMaxDepth t ∧
      bs = t.encode ++ rest ∧ (m.OnWire t ↔ WelcomeInRange t)) ∧
    (∀ op : UInt64, safetyOp i = some op → ((latchedOp i).map UInt8.toNat = some op.toNat ↔ op.toNat < 2 ^ 8)) ∧
    ∀ v : UInt64, adminSession i = some v → ((adminOp i).session.toNat = v.toNat ↔ v.toNat < 2 ^ 32) := by
  refine ⟨?_, ?_, ?_, ?_, ?_, fun _ => latchedOp_iff, fun _ => adminOp_session_iff⟩
  · intro m h
    obtain ⟨t, rest, f, ht, hbs, hf, hm⟩ := message_ok h
    exact ⟨t, rest, ht, hbs, hello_onWire_iff ht hf hm⟩
  · intro m h
    rw [SlopSync.decodeIntent, IntentFields.ofPayload_run] at h
    obtain ⟨t, rest, f, ht, hbs, hf, hm⟩ := message_ok h
    exact ⟨t, rest, ht, hbs, intent_onWire_iff ht hf hm⟩
  · intro l h
    obtain ⟨t, rest, f, ht, hbs, hf, hm⟩ := message_ok h
    cases f with
    | none => cases hm
    | some wishes =>
      cases hm
      exact ⟨t, rest, ht, hbs, subscribe_onWire_iff ht hf⟩
  · intro l h
    obtain ⟨t, rest, f, ht, hbs, hf, hm⟩ := message_ok h
    cases f with
    | none => cases hm
    | some channels =>
      cases hm
      exact ⟨t, rest, ht, hbs, unsubscribe_onWire_iff ht hf⟩
  · intro m h
    obtain ⟨t, rest, f, ht, hbs, hf, hm⟩ := message_ok h
    exact ⟨t, rest, ht, hbs, welcome_onWire_iff ht hf hm⟩

/-- a SUBSCRIBE that is in range, and its wish -/
theorem wire_integers_iff_subscribe : ∃ t rest, CborTree.Fits kMaxDepth t ∧
    [0xA1, 0x0A, 0x81, 0xA2, 0x0D, 0x02, 0x0F, 0x19, 0x01, 0x00] = t.encode ++ rest ∧
    (List.Forall₂ (fun (s : SubscriptionWish) u => EntryOnWire s.channelId s.priority u)
      [{ channelId := 0x0100, rateHz := 0, priority := 2 }] (t.itemsAt CborKey.subscriptions) ↔
      ∀ u ∈ t.itemsAt CborKey.subscriptions, EntryInRange u) :=
  (wire_integers_iff _ { channelId := Channels.safetyIntents, intentId := 7 }).2.2.1 _ (by decide +kernel)

/-- Channel `0x10001` acts as channel 1, the integer `-2 ^ 64` as 0, safety op 258 as op 2, and session `2 ^ 32 + 5` as
session 5. -/
theorem wide_integers_cut :
    decodeUnsubscribe (CborTree.map [(CborKey.subscriptions, .array [.uint 0x10001])]).encode = .ok [1] ∧
    SlopSync.decodeIntent (CborTree.map [(CborKey.channelId, .uint 256), (CborKey.intentId, .uint 7),
      (CborKey.value, .map [(1, .negInt 0xFFFFFFFFFFFFFFFF)])]).encode =
      .ok { channelId := 256, intentId := 7, value := [⟨1, .i64 0⟩] } ∧
    latchedOp { channelId := Channels.safetyIntents, intentId := 7, value := [⟨1, .u64 258⟩] } = some 2 ∧
    (adminOp { channelId := Channels.sessionAdmin, intentId := 7, value := [⟨1, .u64 1⟩, ⟨2, .u64 0x100000005⟩] }).session =
      5 := by
  refine ⟨?_, ?_, ?_, ?_⟩
  · decide +kernel
  · decide +kernel
  · decide +kernel
  · decide +kernel

end Wire

end SlopSync
