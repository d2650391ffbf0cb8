import SlopSync.Hub.Bench
import SlopSync.Hub.Grants

/-! # Granted rates

A wish is any binary32 pattern.  Infinities are cut like every other number, and a NaN passes every comparison of the
clamp: it is granted as it came. -/

namespace SlopSync

open Keyed

theorem F32.lt_fin (a b : ℚ) : (F32.fin a).lt (.fin b) = decide (a < b) := rfl

theorem F32.le_fin (a b : ℚ) : (F32.fin a).le (.fin b) = decide (a ≤ b) := rfl

/-! ## The clamp -/

section

variable {wish b : F32} {m q : ℚ}

/-- A channel without a rate is on-change only, whatever was wished. -/
theorem clampRate_unpaced (wish : F32) (hm : m ≤ 0) : clampRate wish (.fin m) = .fin 0 := by
  have hle : F32.le (.fin m) 0 = true := decide_eq_true hm
  rw [clampRate, if_pos hle]
  rfl

theorem clampRate_paced (wish : F32) (hm : 0 < m) : clampRate wish (.fin m) = F32.min wish (.fin m) := by
  have hle : F32.le (.fin m) 0 = false := decide_eq_false (not_le.mpr hm)
  rw [clampRate, hle]
  rfl

/-- Everything but a NaN is cut to the ceiling. -/
theorem min_finite (hw : wish ≠ .nan) (m : ℚ) : F32.min wish (.fin m) = .negInf ∨ ∃ q, F32.min wish (.fin m) = .fin q ∧ q ≤ m := by
  cases wish with
  | nan => exact absurd rfl hw
  | negInf => exact .inl rfl
  | posInf => exact .inr ⟨m, rfl, le_refl m⟩
  | fin q =>
    by_cases hmq : m < q
    · exact .inr ⟨m, if_pos (decide_eq_true hmq), le_refl m⟩
    · exact .inr ⟨q, if_neg (by simpa [F32.lt] using hmq), not_lt.mp hmq⟩

theorem clampRate_nan (hm : 0 < m) : clampRate .nan (.fin m) = .nan := clampRate_paced .nan hm

/-- The burst of a numeric rate is a number, for every burst wished. -/
theorem clampBurst_within (hq : 0 < q) (wished : Option F32) :
    ∃ x, clampBurst (.fin q) wished = .fin x ∧ q ≤ x ∧ x ≤ Limits.maxBurstMultiple * q := by
  have hceil : q ≤ Limits.maxBurstMultiple * q := by
    have hfour : (Limits.maxBurstMultiple : ℚ) = 4 := rfl
    rw [hfour]
    linarith
  have hmul : (F32.fin q).mul (.ofNat Limits.maxBurstMultiple) = .fin (Limits.maxBurstMultiple * q) :=
    congrArg F32.fin (mul_comm q _)
  cases wished with
  | none => exact ⟨q, rfl, le_refl q, hceil⟩
  | some b =>
    have hcut : ∀ y, q ≤ y → ∃ x, (if (F32.fin (Limits.maxBurstMultiple * q)).lt (.fin y) then
        F32.fin (Limits.maxBurstMultiple * q) else .fin y) = .fin x ∧ q ≤ x ∧ x ≤ Limits.maxBurstMultiple * q := by
      intro y hy
      by_cases hover : Limits.maxBurstMultiple * q < y
      · exact ⟨_, if_pos (decide_eq_true hover), hceil, le_refl _⟩
      · exact ⟨y, if_neg (by simpa [F32.lt] using hover), hy, not_lt.mp hover⟩
    unfold clampBurst
    dsimp only
    rw [hmul]
    cases b with
    | nan =>
      rw [show F32.lt 0 .nan = false from rfl, if_neg Bool.false_ne_true,
        show (F32.fin q).lt (.fin q) = false from decide_eq_false (lt_irrefl q), if_neg Bool.false_ne_true]
      exact hcut q (le_refl q)
    | negInf =>
      rw [show F32.lt 0 .negInf = false from rfl, if_neg Bool.false_ne_true,
        show (F32.fin q).lt (.fin q) = false from decide_eq_false (lt_irrefl q), if_neg Bool.false_ne_true]
      exact hcut q (le_refl q)
    | posInf =>
      rw [show F32.lt 0 .posInf = true from rfl, if_pos rfl,
        show F32.posInf.lt (.fin q) = false from rfl, if_neg Bool.false_ne_true]
      exact ⟨_, if_pos rfl, hceil, le_refl _⟩
    | fin y =>
      by_cases hy : 0 < y
      · rw [show F32.lt 0 (.fin y) = true from decide_eq_true hy, if_pos rfl]
        by_cases hlow : y < q
        · rw [show (F32.fin y).lt (.fin q) = true from decide_eq_true hlow, if_pos rfl]
          exact hcut q (le_refl q)
        · rw [show (F32.fin y).lt (.fin q) = false from decide_eq_false hlow, if_neg Bool.false_ne_true]
          exact hcut y (not_lt.mp hlow)
      · rw [show F32.lt 0 (.fin y) = false from decide_eq_false hy, if_neg Bool.false_ne_true,
          show (F32.fin q).lt (.fin q) = false from decide_eq_false (lt_irrefl q), if_neg Bool.false_ne_true]
        exact hcut q (le_refl q)

end

/-! ## What a grant promises -/

/-- The quotient `dueForPush` turns into a number of milliseconds. -/
def periodQuotient : F32 → F32
  | .fin q => if q = 0 then .posInf else .fin (1000 / q)
  | .posInf | .negInf => .fin 0
  | .nan => .nan

def F32.Finite (x : F32) : Prop := ∃ q, x = .fin q

/-- The rate of a subscription lies between zero and the ceiling of its channel, and pushes can be timed by it. -/
structure SubscribedWithin (m : ℚ) (e : SubscriptionEntry) : Prop where
  rate : ∃ q, e.grantedRateHz = .fin q ∧ 0 ≤ q ∧ q ≤ max 0 m
  period : e.grantedRateHz.le 0 = false → (periodQuotient e.grantedRateHz).Finite

/-- The rate of a publish is positive and under the ceiling, its burst goes with the rate, and the bucket holds it. -/
structure PublishedWithin (m : ℚ) (g : PublishGrant) : Prop where
  rate : ∃ q, g.grantedRateHz = .fin q ∧ 0 < q ∧ q ≤ m ∧
    ∃ b, g.grantedBurst = .fin b ∧ q ≤ b ∧ b ≤ Limits.maxBurstMultiple * q
  bucket : g.limiter.capacity = g.grantedBurst ∧ g.limiter.tokens = g.grantedBurst

section

variable {ε : Type} {w : World ε} {c : Config} {i : SlotIdx} {s t : Sys ε} {entry : CatalogEntry} {m : ℚ}

theorem find_upsert {tbl tbl' : SubscriptionTable} {ch : UInt16} {rate : F32} {p : Priority}
    (h : tbl.upsert ch rate p = some tbl') : ∃ e, tbl'.find ch = some e ∧ e.grantedRateHz = rate := by
  unfold SubscriptionTable.upsert at h
  split at h
  · rename_i hf
    obtain ⟨old, hold⟩ := Option.isSome_iff_exists.mp hf
    cases h
    refine ⟨{ old with grantedRateHz := rate, priority := p, everPushed := false, lastPushMs := 0 }, ?_, rfl⟩
    have hself := find?_modifyFirst_self (p := fun e : SubscriptionEntry => e.channelId == ch)
      (f := fun e => { e with grantedRateHz := rate, priority := p, everPushed := false, lastPushMs := 0 })
      (fun _ => rfl) tbl.entries
    have hold' : tbl.entries.find? (fun e => e.channelId == ch) = some old := hold
    rw [hold'] at hself
    exact hself
  · rename_i hf
    split at h
    · cases h
      refine ⟨{ channelId := ch, grantedRateHz := rate, priority := p }, ?_, rfl⟩
      have hnone : tbl.entries.find? (fun e => e.channelId == ch) = none := by
        simpa [SubscriptionTable.find] using hf
      simp [SubscriptionTable.find, List.find?_append, hnone]
    · cases h

/-- The rate that is granted, by channel and wish. -/
theorem trySubscribe_rate {wish : SubscriptionWish} {g : Grant} (hentry : c.catalog.find wish.channelId = some entry)
    (h : trySubscribe c i wish s = (.ok g, t)) : ∃ e, (t.session i).subs.find wish.channelId = some e ∧
      e.grantedRateHz = g.grantedRateHz ∧
      g.grantedRateHz = if (clampRate wish.rateHz entry.maxRateHz).lt 0 then 0 else clampRate wish.rateHz entry.maxRateHz := by
  unfold trySubscribe at h
  rw [hentry] at h
  dsimp only at h
  split at h
  · cases h
  · split at h
    · cases h
    · split at h
      · cases h
      · rename_i subs hsubs
        cases h
        obtain ⟨e, hfind, hrate⟩ := find_upsert hsubs
        refine ⟨e, ?_, hrate, rfl⟩
        have hkeep : ∀ (tail : List Bytes) (u : Sys ε),
            ((tail.foldl (offerEvent i wish.channelId) u).session i).subs = (u.session i).subs := by
          intro tail
          induction tail with
          | nil => exact fun _ => rfl
          | cons bytes tail ih =>
            intro u
            refine (ih _).trans ?_
            unfold offerEvent
            rw [Sys.session_modSession]
            rfl
        have hreplay : ∀ u : Sys ε,
            ((replayEventsOnGrant c i wish.channelId u).session i).subs = (u.session i).subs := by
          intro u
          unfold replayEventsOnGrant
          split
          · rfl
          · split
            · rfl
            · exact hkeep _ u
        rw [hreplay, Sys.session_modSession]
        exact hfind

/-- Whole tokens per second: the rate cut down, but one at least. -/
def refillRate (rate : F32) : UInt32 := if rate.lt (.ofNat 1) then 1 else rate.toUInt32

/-- A positive burst is the depth of the bucket, which is full at first. -/
theorem make_burst {rate nowMs : UInt32} {burst : F32} (hburst : F32.lt 0 burst = true) :
    IngressRateLimiter.make rate nowMs burst = { ratePerSec := rate, capacity := burst, tokens := burst, lastMs := nowMs } := by
  simp [IngressRateLimiter.make, hburst]

theorem find_addPublishGrant {se se' : HubSession} {ch : UInt16} {rate burst : F32} {nowMs : UInt32} {b : Bool}
    {family : UInt8} (h : se.addPublishGrant ch rate nowMs burst b family = some se') (hburst : F32.lt 0 burst = true) :
    ∃ g, se'.publishGrants.find ch = some g ∧ g.grantedRateHz = rate ∧ g.grantedBurst = burst ∧
      g.limiter = .make (refillRate rate) nowMs burst := by
  unfold HubSession.addPublishGrant at h
  simp only [hburst, ↓reduceIte] at h
  split at h
  · rename_i hf
    obtain ⟨old, hold⟩ := Option.isSome_iff_exists.mp hf
    cases h
    have hold' : se.publishGrants.grants.find? (fun g => g.channelId == ch) = some old := hold
    have hfind := find?_modifyFirst_self (p := fun g : PublishGrant => g.channelId == ch)
      (f := fun g => { g with
        grantedRateHz := rate, grantedBurst := burst, burstRequested := b
        limiter := .make (refillRate rate) nowMs burst
        everNackedOverage := false, lastOverageNackMs := 0, curveFamily := family }) (fun _ => rfl)
      se.publishGrants.grants
    rw [hold'] at hfind
    exact ⟨_, hfind, rfl, rfl, rfl⟩
  · rename_i hf
    split at h
    · cases h
      have hnone : se.publishGrants.grants.find? (fun g => g.channelId == ch) = none := by
        simpa [PublishTable.find] using hf
      have hlast : ∀ g : PublishGrant, g.channelId = ch →
          (se.publishGrants.grants ++ [g]).find? (fun x => x.channelId == ch) = some g := by
        intro g hg
        simp [List.find?_append, hnone, hg]
      exact ⟨_, hlast _ rfl, rfl, rfl, rfl⟩
    · cases h

theorem periodQuotient_finite {q : ℚ} (h : (F32.fin q).le 0 = false) : (periodQuotient (.fin q)).Finite := by
  have hq : ¬q ≤ 0 := by simpa [F32.le] using h
  have hne : q ≠ 0 := by
    rintro rfl
    exact hq (le_refl 0)
  exact ⟨1000 / q, if_neg hne⟩

/-- A subscription is paced by a number unless a NaN was wished on a paced channel. -/
theorem subscribed_iff {wish : SubscriptionWish} {e : SubscriptionEntry}
    (hrate : e.grantedRateHz = if (clampRate wish.rateHz (.fin m)).lt 0 then 0 else clampRate wish.rateHz (.fin m)) :
    SubscribedWithin m e ↔ wish.rateHz ≠ .nan ∨ m ≤ 0 := by
  constructor
  · rintro ⟨⟨q, hq, -⟩, -⟩
    by_contra hcon
    rw [not_or, not_not, not_le] at hcon
    rw [hrate, hcon.1, clampRate_nan hcon.2] at hq
    cases hq
  · intro h
    have hnum : ∃ q, e.grantedRateHz = .fin q ∧ 0 ≤ q ∧ q ≤ max 0 m := by
      rw [hrate]
      by_cases hm : m ≤ 0
      · rw [clampRate_unpaced wish.rateHz hm]
        exact ⟨0, by decide, le_refl 0, le_max_left 0 m⟩
      · have hpos : 0 < m := not_le.mp hm
        rw [clampRate_paced wish.rateHz hpos]
        rcases min_finite (h.resolve_right hm) m with hneg | ⟨q, hq, hle⟩
        · rw [hneg]
          exact ⟨0, rfl, le_refl 0, le_max_left 0 m⟩
        · rw [hq]
          by_cases hlow : q < 0
          · exact ⟨0, if_pos (decide_eq_true hlow), le_refl 0, le_max_left 0 m⟩
          · exact ⟨q, if_neg (by simpa [F32.lt] using hlow), not_lt.mp hlow, hle.trans (le_max_right 0 m)⟩
    obtain ⟨q, hq, hbounds⟩ := hnum
    refine ⟨⟨q, hq, hbounds⟩, fun hpaced => ?_⟩
    rw [hq] at hpaced ⊢
    exact periodQuotient_finite hpaced

/-- The publish that was granted, by channel and wish. -/
theorem grantPublishWish_rate {wish : PublishWish} {gp : GrantedPublish} {nowMs : UInt32}
    (hentry : c.catalog.find wish.channelId = some entry)
    (h : grantPublishWish w c i wish nowMs s = (some gp, t)) :
    (clampRate wish.rateHz entry.maxRateHz).le 0 = false ∧ gp.grantedRateHz = clampRate wish.rateHz entry.maxRateHz ∧
      ∃ (se se' : HubSession) (family : UInt8), se.addPublishGrant wish.channelId (clampRate wish.rateHz entry.maxRateHz) nowMs
          (clampBurst (clampRate wish.rateHz entry.maxRateHz) wish.burst) wish.burst.isSome family = some se' ∧
        t.session i = se' := by
  unfold grantPublishWish at h
  rw [hentry] at h
  dsimp only at h
  split at h
  · cases h
  · split at h
    · cases h
    · rename_i hle
      split at h
      · cases h
      · rename_i se' hse'
        cases h
        refine ⟨by simpa using hle, rfl, _, se', _, hse', ?_⟩
        rw [Sys.session_modSession]

/-- A publish that is granted has a numeric rate unless a NaN was wished. -/
theorem published_rate {wish : F32} (hw : wish ≠ .nan) (hgranted : (clampRate wish (.fin m)).le 0 = false) :
    ∃ q, clampRate wish (.fin m) = .fin q ∧ 0 < q ∧ q ≤ m := by
  by_cases hm : m ≤ 0
  · rw [clampRate_unpaced wish hm] at hgranted
    cases hgranted
  · rw [clampRate_paced wish (not_le.mp hm)] at hgranted ⊢
    rcases min_finite hw m with hneg | ⟨q, hq, hle⟩
    · rw [hneg] at hgranted
      cases hgranted
    · rw [hq] at hgranted
      exact ⟨q, hq, by simpa [F32.le] using hgranted, hle⟩

theorem published_iff {wish : PublishWish} {gp : GrantedPublish} {nowMs : UInt32}
    (hentry : c.catalog.find wish.channelId = some entry) (hmax : entry.maxRateHz = .fin m)
    (h : grantPublishWish w c i wish nowMs s = (some gp, t)) :
    (∃ g, (t.session i).publishGrants.find wish.channelId = some g ∧ g.grantedRateHz = gp.grantedRateHz ∧
      PublishedWithin m g) ↔ wish.rateHz ≠ .nan := by
  obtain ⟨hgranted, hrate, se, se', family, hadd, ht⟩ := grantPublishWish_rate hentry h
  rw [hmax] at hgranted hrate hadd
  constructor
  · rintro ⟨g, -, hg, ⟨⟨q, hq, hpos, hle, -⟩, -⟩⟩ hnan
    have hm : 0 < m := lt_of_lt_of_le hpos hle
    rw [hg, hrate, hnan, clampRate_nan hm] at hq
    cases hq
  · intro hw
    obtain ⟨q, hq, hpos, hle⟩ := published_rate hw hgranted
    obtain ⟨b, hb, hlow, hhigh⟩ := clampBurst_within hpos wish.burst
    rw [hq, hb] at hadd
    have hburst : F32.lt 0 (.fin b) = true := decide_eq_true (lt_of_lt_of_le hpos hlow)
    obtain ⟨g, hfind, hgrate, hgburst, hlimiter⟩ := find_addPublishGrant hadd hburst
    rw [make_burst hburst] at hlimiter
    refine ⟨g, by rw [ht]; exact hfind, by rw [hgrate, hrate, hq], ⟨⟨q, hgrate, hpos, hle, b, hgburst, hlow, hhigh⟩, ?_⟩⟩
    rw [hgburst, hlimiter]
    exact ⟨rfl, rfl⟩

/-- **Granted rates stay under the catalog's ceiling, except for a NaN.** -/
theorem granted_rates_iff (w : World ε) (c : Config) (hmax : entry.maxRateHz = .fin m) :
    (∀ (i : SlotIdx) (s t : Sys ε) (wish : SubscriptionWish) (g : Grant), c.catalog.find wish.channelId = some entry →
      trySubscribe c i wish s = (.ok g, t) →
      ((∃ e, (t.session i).subs.find wish.channelId = some e ∧ e.grantedRateHz = g.grantedRateHz ∧ SubscribedWithin m e) ↔
        (wish.rateHz ≠ .nan ∨ m ≤ 0))) ∧
    (∀ (i : SlotIdx) (s t : Sys ε) (wish : PublishWish) (gp : GrantedPublish) (nowMs : UInt32),
      c.catalog.find wish.channelId = some entry → grantPublishWish w c i wish nowMs s = (some gp, t) →
      ((∃ g, (t.session i).publishGrants.find wish.channelId = some g ∧ g.grantedRateHz = gp.grantedRateHz ∧
        PublishedWithin m g) ↔ wish.rateHz ≠ .nan)) := by
  refine ⟨fun i s t wish g hentry h => ?_, fun i s t wish gp nowMs hentry h => published_iff hentry hmax h⟩
  obtain ⟨e, hfind, he, hrate⟩ := trySubscribe_rate hentry h
  rw [hmax] at hrate
  have hiff : SubscribedWithin m e ↔ wish.rateHz ≠ .nan ∨ m ≤ 0 := subscribed_iff (he.trans hrate)
  constructor
  · rintro ⟨e', hfind', -, hwithin⟩
    obtain rfl := Option.some.inj (hfind.symm.trans hfind')
    exact hiff.mp hwithin
  · intro hwish
    exact ⟨e, hfind, he, hiff.mpr hwish⟩

end

/-! ## A NaN is granted -/

def Bench.pacedState : CatalogEntry where
  id := 0x0101
  cls := .state
  maxRateHz := .fin 50

/-- A channel with a ceiling of 50 Hz to subscribe to, and one to publish on. -/
def Bench.paced : Config where
  catalog :=
    [Bench.pacedState,
     { id := 0x0102, cls := .stream, dir := .c2h, maxRateHz := .fin 50 }]
  etag := ByteArr.zero 8
  catalogEncoded := []

theorem granted_rates_forty :
    ∃ e, (((trySubscribe Bench.paced 0 { channelId := 0x0101, rateHz := .fin 40 }
      (boot Bench.world Bench.paced {})).2).session 0).subs.find 0x0101 = some e ∧
      e.grantedRateHz = .fin 40 ∧ SubscribedWithin 50 e := by
  have hceiling : Bench.pacedState.maxRateHz = .fin 50 := rfl
  exact ((granted_rates_iff Bench.world Bench.paced hceiling).1 0 (boot Bench.world Bench.paced {}) _
    { channelId := 0x0101, rateHz := .fin 40 } { channelId := 0x0101, grantedRateHz := .fin 40, priority := .normal } rfl
    (by rfl)).mpr (.inl (by decide))

/-- Neither the subscription nor the publish that a NaN is granted has a rate in range. -/
theorem nan_rate_granted :
    (∃ t, trySubscribe Bench.paced 0 { channelId := 0x0101, rateHz := .nan } (boot Bench.world Bench.paced {}) =
        (.ok { channelId := 0x0101, grantedRateHz := .nan, priority := .normal }, t) ∧
      ¬∃ e, (t.session 0).subs.find 0x0101 = some e ∧ SubscribedWithin 50 e) ∧
    ∃ gp t, grantPublishWish Bench.world Bench.paced 0 { channelId := 0x0102, rateHz := .nan, burst := some .posInf } 0
        (boot Bench.world Bench.paced {}) = (some gp, t) ∧ gp.grantedRateHz = .nan ∧ gp.burst = some .posInf ∧
      ¬∃ g, (t.session 0).publishGrants.find 0x0102 = some g ∧ PublishedWithin 50 g := by
  constructor
  · refine ⟨_, rfl, ?_⟩
    rintro ⟨e, he, ⟨q, hq, -⟩, -⟩
    cases he
    cases hq
  · refine ⟨_, _, rfl, by rfl, by rfl, ?_⟩
    rintro ⟨g, hg, ⟨q, hq, -⟩, -⟩
    cases hg
    cases hq

end SlopSync
