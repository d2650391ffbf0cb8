import SlopSync.Laws.Ownership
import SlopSync.Refine.Timed

/-! # No silent driver

The three liveness pumps look at a slot after its frames were read.  `View.Watched` is what they leave there, and the
frames of the slots that follow keep it: after an update a session that is live on a transport was heard a short time
ago, and one that drives a source within its own deadman window.

The stamps wrap.  They tell the time because a session on the air is looked at in every update (`View.Heard`). -/

namespace SlopSync

open Keyed Labelled

/-! ## Silence -/

/-- Milliseconds of the hub's clock since the last frame of the session. -/
def View.silence (v : View) (i : SlotIdx) : Nat := (v.clock.ms - (v.slots i).lastRxMs).toNat

/-- The session is live, on a transport. -/
structure View.OnAir (v : View) (i : SlotIdx) : Prop where
  live : (v.slots i).state = .live
  linked : (v.slots i).transport.isSome

/-- No session on the air is silent for `n` milliseconds. -/
def View.Heard (n : Nat) (v : View) : Prop := ∀ i, v.OnAir i → v.silence i < n

/-- The longest of the windows. -/
def kQuietMs : Nat := Limits.deadmanMaxMs.toNat

/-- What the liveness pumps see to. -/
structure View.Watched (v : View) (i : SlotIdx) : Prop where
  heard : v.OnAir i → v.silence i < kQuietMs
  drives : v.drawn.Nodup → v.OnAir i → ∀ src ∈ ([0, 1, 2, 3] : List UInt8), v.owner src = (v.slots i).sessionId →
    v.silence i < (v.slots i).deadmanMs.toNat
  adopts : (v.slots i).occupied → (v.slots i).state ≠ .stale → (v.slots i).transport.isSome → (v.slots i).ready = false →
    timeReached v.clock.ms ((v.slots i).grantedAtMs + Limits.catalogReadyTimeoutMs) = false

/-- No session, a stale one, or one without a transport. -/
def SlotView.Away (x : SlotView) : Prop := ¬x.occupied ∨ x.state = .stale ∨ x.transport = none

section

variable {c : Config} {now : UInt32} {rx : Option SlotIdx} {l : Label} {v v' : View} {i : SlotIdx}

theorem View.OnAir.occupied (h : v.OnAir i) : (v.slots i).occupied := occupied_live h.live

theorem SlotView.Away.off (h : (v.slots i).Away) : ¬v.OnAir i := by
  rintro ⟨hlive, hlinked⟩
  rcases h with h | h | h
  · exact h (View.OnAir.occupied ⟨hlive, hlinked⟩)
  · rw [hlive] at h
    cases h
  · rw [h] at hlinked
    cases hlinked

/-- Nothing has to be watched there. -/
theorem SlotView.Away.watched (h : (v.slots i).Away) : v.Watched i where
  heard hi := absurd hi h.off
  drives _ hi := absurd hi h.off
  adopts hocc hst hlink := by
    rcases h with h | h | h
    · exact absurd hocc h
    · exact absurd h hst
    · rw [h] at hlink
      cases hlink

/-- What the pumps look at, but for readiness. -/
def SlotView.stamps (x : SlotView) : Option TransportId × HubSessionState × UInt32 × UInt32 × UInt32 × UInt32 :=
  (x.transport, x.state, x.sessionId, x.lastRxMs, x.grantedAtMs, x.deadmanMs)

theorem SlotView.stamps_inj {x y : SlotView} (h : x.stamps = y.stamps) : x.transport = y.transport ∧ x.state = y.state ∧
    x.sessionId = y.sessionId ∧ x.lastRxMs = y.lastRxMs ∧ x.grantedAtMs = y.grantedAtMs ∧ x.deadmanMs = y.deadmanMs := by
  simpa only [SlotView.stamps, Prod.mk.injEq] using h

/-- The session is as it was, and no less ready. -/
def SlotView.Abides (x x' : SlotView) : Prop := x'.stamps = x.stamps ∧ (x'.ready = false → x.ready = false)

theorem abides_set {j : SlotIdx} {x : SlotView} (hs : v'.slots = (v.set j x).slots)
    (h : i = j → (v.slots j).Abides x ∨ x.Away) : (v.slots i).Abides (v'.slots i) ∨ (v'.slots i).Away := by
  rw [hs]
  by_cases hij : i = j
  · subst hij
    rw [View.slots_set_self]
    exact h rfl
  · rw [View.slots_set_ne v hij]
    exact .inl ⟨rfl, id⟩

/-- A frame of another slot, or none, leaves a session as it is or takes it away. -/
theorem Act.abides (hrx : rx ≠ some i) (hl : ¬l.Outer) (h : Act c now rx l v v') :
    (v.slots i).Abides (v'.slots i) ∨ (v'.slots i).Away := by
  have hmine : ∀ {j}, rx = some j → i ≠ j := fun hj he => hrx (he ▸ hj)
  cases h with
  | subs j | pubs j | role j | settle j | accept j => exact abides_set rfl fun _ => .inl ⟨rfl, id⟩
  | ready j => exact abides_set rfl fun _ => .inl ⟨rfl, fun h => by cases h⟩
  | rx j _ hj => exact abides_set rfl fun he => absurd he (hmine hj)
  | revive j hj | live j hj | enrol j _ hj | resume j _ _ _ _ hj => exact abides_set rfl fun he => absurd he (hmine hj)
  | stale j => exact abides_set rfl fun _ => .inr (.inr (.inl rfl))
  | free j => exact abides_set rfl fun _ => .inr (.inl (SlotView.not_occupied_cleared _))
  | detach j => exact abides_set rfl fun _ => .inr (.inr (.inr rfl))
  | migrate j k hj hjk =>
    rw [slots_migrate hjk, if_neg (hmine hj)]
    split
    · exact .inr (.inl (SlotView.not_occupied_cleared _))
    · exact .inl ⟨rfl, id⟩
  | attach | tick => exact (hl trivial).elim
  | _ => exact .inl ⟨rfl, id⟩

/-- A source changes hands to the session whose frame is being handled. -/
theorem Act.taken (h : Act c now rx l v v') (src : UInt8) :
    v'.owner src = v.owner src ∨ v'.owner src = 0 ∨ ∃ j, rx = some j ∧ v.Mans j (v'.owner src) := by
  cases h with
  | acquire j s _ hrx hocc hst =>
    by_cases hs : src = s
    · subst hs
      have hown : Function.update v.owner src (v.slots j).sessionId src = (v.slots j).sessionId :=
        Function.update_self ..
      exact .inr (.inr ⟨j, hrx, hocc, hst, hown.symm⟩)
    · exact .inl (Function.update_of_ne hs ..)
  | release i =>
    by_cases hs : v.owner src = (v.slots i).sessionId
    · exact .inr (.inl (if_pos hs))
    · exact .inl (if_neg hs)
  | _ => exact .inl rfl

/-- **Frames of other slots leave a watched session watched.** -/
theorem Act.watched (hids : v.Ids) (hrx : rx ≠ some i) (hl : ¬l.Outer) (h : Act c now rx l v v') (hv : v.Watched i) :
    v'.Watched i := by
  have hclock : v'.clock = v.clock := h.clock_eq (by rintro rfl; exact hl trivial)
  rcases h.abides hrx hl with ⟨hstamps, hready⟩ | haway
  · obtain ⟨ht, hst, hid, hrxMs, hgr, hdead⟩ := SlotView.stamps_inj hstamps
    have hair : v'.OnAir i → v.OnAir i := fun hi => ⟨hst ▸ hi.live, ht ▸ hi.linked⟩
    have hsil : v'.silence i = v.silence i := by unfold View.silence; rw [hclock, hrxMs]
    refine ⟨fun hi => hsil ▸ hv.heard (hair hi), fun hnd hi src hsrc hown => ?_, fun hocc hns hlink hr => ?_⟩
    · have hnd' : v.drawn.Nodup := hnd.sublist h.drawn.sublist
      have hocc := (hair hi).occupied
      rw [hsil, hdead]
      rcases h.taken src with hsame | hzero | ⟨j, hj, hmans⟩
      · exact hv.drives hnd' (hair hi) src hsrc (hsame.symm.trans (hown.trans hid))
      · exact absurd (hid ▸ hown.symm.trans hzero) (hids.1 i hocc).1
      · -- another session took it, and no two have one id
        refine absurd ?_ (hids.2 hnd' j i (fun he => hrx (he ▸ hj)) hmans.occupied hocc)
        exact hmans.id.trans (hown.trans hid)
    · rw [hclock, hgr]
      refine hv.adopts ?_ (hst ▸ hns) (ht ▸ hlink) (hready hr)
      unfold SlotView.occupied at hocc ⊢
      rwa [hst] at hocc
  · exact haway.watched

/-- Whoever comes on the air was heard just now. -/
theorem Act.onAir (hl : l ≠ .tick) (h : Act c now rx l v v') (hi : v'.OnAir i) :
    v.OnAir i ∧ (v'.slots i).lastRxMs = (v.slots i).lastRxMs ∨ (v'.slots i).lastRxMs = now := by
  have hset : ∀ {j : SlotIdx} {x : SlotView}, v'.slots = (v.set j x).slots →
      (i = j → x.state = .live → x.transport.isSome → (v.OnAir i ∧ x.lastRxMs = (v.slots i).lastRxMs) ∨ x.lastRxMs = now) →
      v.OnAir i ∧ (v'.slots i).lastRxMs = (v.slots i).lastRxMs ∨ (v'.slots i).lastRxMs = now := by
    intro j x hs hx
    obtain ⟨hlive, hlink⟩ := hi
    rw [hs] at hlive hlink ⊢
    by_cases hij : i = j
    · subst hij
      rw [View.slots_set_self] at hlive hlink ⊢
      exact hx rfl hlive hlink
    · rw [View.slots_set_ne v hij] at hlive hlink ⊢
      exact .inl ⟨⟨hlive, hlink⟩, rfl⟩
  cases h with
  | subs j | pubs j | role j | settle j | ready j | accept j =>
    exact hset rfl fun he hlive hlink => .inl ⟨by subst he; exact ⟨hlive, hlink⟩, by subst he; rfl⟩
  | rx j ms _ hms =>
    refine hset rfl fun he hlive hlink => .inr (hms ?_)
    exact View.OnAir.occupied ⟨hlive, hlink⟩
  | revive j _ _ hlast | live j _ _ hlast => exact hset rfl fun _ _ _ => .inr hlast
  | stale j => exact hset rfl fun _ hlive => by cases hlive
  | free j => exact hset rfl fun _ hlive => by cases hlive
  | enrol j x _ _ _ _ _ _ _ hst => exact hset rfl fun _ hlive => by rw [hst] at hlive; cases hlive
  | resume j _ _ _ _ _ hst => exact hset rfl fun _ hlive => by cases hst.symm.trans hlive
  | attach j t hfree => exact hset rfl fun _ hlive _ => absurd (occupied_live hlive) hfree
  | detach j => exact hset rfl fun _ _ hlink => by cases hlink
  | migrate j k _ hjk _ _ hst =>
    obtain ⟨hlive, hlink⟩ := hi
    rw [slots_migrate hjk] at hlive hlink ⊢
    split at hlive
    · rw [hst] at hlive
      cases hlive
    · split at hlive
      · cases hlive
      · rename_i hj hk
        rw [if_neg hj, if_neg hk] at hlink ⊢
        exact .inl ⟨⟨hlive, hlink⟩, rfl⟩
  | tick => exact absurd rfl hl
  | _ => exact .inl ⟨⟨hi.live, hi.linked⟩, rfl⟩

/-! ## Along a run -/

/-- No deadman window is longer than the longest. -/
def View.Windows (v : View) : Prop := ∀ i, (v.slots i).deadmanMs ≤ Limits.deadmanMaxMs

theorem Act.windows (h : Act c now rx l v v') (hv : v.Windows) : v'.Windows := by
  have hset : ∀ {j : SlotIdx} {x : SlotView}, v'.slots = (v.set j x).slots → x.deadmanMs ≤ Limits.deadmanMaxMs →
      v'.Windows := by
    intro j x hs hx i
    rw [hs]
    by_cases hij : i = j
    · subst hij
      rw [View.slots_set_self]
      exact hx
    · rw [View.slots_set_ne v hij]
      exact hv i
  cases h with
  | subs j | pubs j | role j | settle j | ready j | accept j | rx j | revive j | live j | stale j | resume j | attach j
  | detach j => exact hset rfl (hv j)
  | free j => exact hset rfl (show Limits.deadmanDefaultMs ≤ Limits.deadmanMaxMs by decide)
  | enrol j x _ _ _ _ _ _ _ _ _ _ hdead => exact hset rfl hdead
  | migrate j k _ hjk =>
    intro i
    rw [slots_migrate hjk]
    split
    · exact hv k
    · split
      · exact (by decide : Limits.deadmanDefaultMs ≤ Limits.deadmanMaxMs)
      · exact hv i
  | _ => exact hv

/-- Nothing but the clock makes a session on the air more silent. -/
theorem Act.heard {n : Nat} (hn : 0 < n) (hl : l ≠ .tick) (hnow : now = v.clock.ms) (h : Act c now rx l v v')
    (hv : v.Heard n) : v'.Heard n := by
  intro i hi
  have hclock : v'.clock = v.clock := h.clock_eq hl
  unfold View.silence
  rw [hclock]
  rcases h.onAir hl hi with ⟨hair, hlast⟩ | hlast
  · rw [hlast]
    exact hv i hair
  · rw [hlast, hnow, UInt32.sub_self]
    exact hn

end

/-! ## The pumps -/

theorem timeReached_add {ms last d : UInt32} (he : (ms - last).toNat < 2 ^ 31) (hd : d.toNat < 2 ^ 31) :
    timeReached ms (last + d) = true ↔ d.toNat ≤ (ms - last).toNat := by
  have hms := ms.toNat_lt
  have hlast := last.toNat_lt
  rw [UInt32.toNat_sub] at he ⊢
  rw [timeReached_iff, UInt32.toNat_sub, UInt32.toNat_add]
  omega

section

variable {ε : Type} {w : World ε} {c : Config} {s : Sys ε}

/-- **The pumps leave a slot alone when they find nothing to do**, and else it has no live session any more. -/
theorem away_of_expiry {i : SlotIdx} {nowMs : UInt32} {t : Sys ε} (h : Expiry w c i nowMs s t) :
    (t = s ∧ ¬DeadmanDue s i nowMs ∧ ¬IdleDue s i nowMs ∧ ((s.session i).occupied = true → ¬AdoptionDue s i nowMs)) ∨
      (t.view.slots i).Away := by
  cases h with
  | none hdead hidle hready => exact .inl ⟨rfl, hdead, hidle, hready⟩
  | deadman h => exact .inr (.inr (.inl (state_markStale i nowMs 3 s)))
  | idle h => exact .inr (.inr (.inl (state_markStale i nowMs 4 s)))
  | adoption h =>
    refine .inr (.inl fun hocc => ?_)
    have hgone := free_teardownSession (w := w) (c := c) i nowMs (sendGoodbye w i .readyTimeout s)
    rw [(occupied_view _ i).mp hocc] at hgone
    cases hgone

/-- What the pumps found is what is watched. -/
theorem watched_of_prompt {i : SlotIdx} (hdue : ¬DeadmanDue s i s.hub.monoMs.ms) (hidle : ¬IdleDue s i s.hub.monoMs.ms)
    (hready : (s.session i).occupied = true → ¬AdoptionDue s i s.hub.monoMs.ms) (hheard : s.view.Heard (2 ^ 31))
    (hwin : s.view.Windows) : s.view.Watched i := by
  have hdead : (s.session i).deadmanMs.toNat ≤ kQuietMs := UInt32.le_iff_toNat_le.mp (hwin i)
  have hsmall : kQuietMs < 2 ^ 31 := by decide
  have hwithin : ∀ d : UInt32, d.toNat < 2 ^ 31 → s.view.OnAir i →
      ¬timeReached s.hub.monoMs.ms ((s.session i).lastRxMs + d) = true → s.view.silence i < d.toNat := by
    intro d hd hi hnot
    by_contra hle
    exact hnot ((timeReached_add (hheard i hi) hd).mpr (Nat.not_lt.mp hle))
  have hdrives : s.view.OnAir i → ownsLow s.hub (s.session i).sessionId = true →
      s.view.silence i < (s.session i).deadmanMs.toNat := fun hi howns =>
    hwithin _ (hdead.trans_lt hsmall) hi fun hsilent => hdue ⟨hi.live, howns, hsilent⟩
  refine ⟨fun hi => ?_, fun _ hi src hsrc hown => hdrives hi ?_, fun hocc hst _ hr => ?_⟩
  · cases howns : ownsLow s.hub (s.session i).sessionId with
    | true => exact (hdrives hi howns).trans_le hdead
    | false =>
      exact (hwithin kIdleReapMs (by decide) hi fun hsilent => hidle ⟨hi.live, howns, hsilent⟩).trans_le (by decide)
  · exact List.any_eq_true.mpr ⟨src, hsrc, beq_iff_eq.mpr hown⟩
  · exact Bool.eq_false_of_not_eq_true fun hlate => hready ((occupied_view s i).mp hocc) ⟨hst, hr, hlate⟩

/-! ## One update -/

/-- What holds all through an update at the time `ms`. -/
structure View.InOrder (ms : UInt32) (n : Nat) (v : View) : Prop where
  clock : v.clock.ms = ms
  fresh : v.clock.init = false → v.clock.ms = 0
  heard : v.Heard n
  windows : v.Windows
  ids : v.Ids
  distinct : v.Distinct

variable {ms : UInt32} {n : Nat} {rx : Option SlotIdx} {l : Label} {v v' : View}

theorem Act.inOrder (hn : 0 < n) (hl : l ≠ .tick) (h : Act c ms rx l v v') (hv : v.InOrder ms n) : v'.InOrder ms n where
  clock := by rw [h.clock_eq hl, hv.clock]
  fresh := by rw [h.clock_eq hl]; exact hv.fresh
  heard := h.heard hn hl hv.clock.symm hv.heard
  windows := h.windows hv.windows
  ids := h.ids hv.ids
  distinct := h.distinct hv.distinct

theorem Label.timeless (h : ¬l.Outer) : l ≠ .tick := by
  rintro rfl
  exact h trivial

/-- All the frames of a slot are acts that handle its frames. -/
theorem pumpSlot_does (i : SlotIdx) : ∀ (frames : List RxFrame) (s : Sys ε), s.view.Distinct →
    Does c s.hub.monoMs.ms (some i) (fun l => ¬l.Outer) s (pumpSlot w c i s.hub.monoMs.ms frames s)
  | [], s, _ => Does.refl s
  | f :: rest, s, hd => by
    unfold pumpSlot
    split
    · exact Does.refl s
    · rename_i hlink
      have hone : Does c s.hub.monoMs.ms (some i) (fun l => ¬l.Outer) s (pumpFrame w c i s.hub.monoMs.ms f s) :=
        (pumpFrame_does f hd (isSome_of_not_isNone hlink)).mono fun _ hl => moveLabel_inner (m := .frame i f) trivial hl
      have hclock : (pumpFrame w c i s.hub.monoMs.ms f s).hub.monoMs = s.hub.monoMs :=
        Path.frame (f := View.clock) hone fun _ _ _ hl ha => ha.clock_eq (Label.timeless hl)
      have hd' : (pumpFrame w c i s.hub.monoMs.ms f s).view.Distinct :=
        Path.invariant (I := View.Distinct) hone (fun _ _ _ _ ha => ha.distinct) hd
      have hrest := pumpSlot_does i rest _ hd'
      rw [hclock] at hrest
      exact hone.trans hrest

/-- A run of acts in an update. -/
theorem inOrder_path {a b : View} (hn : 0 < n) (h : Path (Act c ms rx) (fun l => ¬l.Outer) a b)
    (ha : a.InOrder ms n) : b.InOrder ms n :=
  h.invariant (fun _ _ _ hl hact hv => hact.inOrder hn (Label.timeless hl) hv) ha

theorem watched_path {a b : View} {i : SlotIdx} (hn : 0 < n) (hrx : rx ≠ some i)
    (h : Path (Act c ms rx) (fun l => ¬l.Outer) a b) (ha : a.InOrder ms n) (hw : a.Watched i) : b.Watched i :=
  (h.invariant (I := fun v => v.InOrder ms n ∧ v.Watched i)
    (fun _ _ _ hl hact hv => ⟨hact.inOrder hn (Label.timeless hl) hv.1, hact.watched hv.1.ids hrx hl hv.2⟩) ⟨ha, hw⟩).2

/-- **The turn of one slot**: its own session is watched after it, and every other one stays so. -/
theorem updateSlot_watched (inbox : SlotIdx → List RxFrame) (i : SlotIdx) (hn : 0 < n) (hn' : n ≤ 2 ^ 31)
    (hs : s.view.InOrder ms n) : (updateSlot w c inbox ms s i).view.InOrder ms n ∧
      ∀ j, j = i ∨ s.view.Watched j → (updateSlot w c inbox ms s i).view.Watched j := by
  have hms : s.hub.monoMs.ms = ms := hs.clock
  unfold updateSlot
  split
  · rename_i hnone
    refine ⟨hs, fun j hj => hj.elim (fun he => ?_) id⟩
    subst he
    exact SlotView.Away.watched (.inr (.inr (Option.isNone_iff_eq_none.mp hnone)))
  · have hread := pumpSlot_does (w := w) (c := c) i (inbox i) s hs.distinct
    rw [hms] at hread
    generalize pumpSlot w c i ms (inbox i) s = t at hread
    have ht : t.view.InOrder ms n := inOrder_path hn hread hs
    have htms : t.hub.monoMs.ms = ms := ht.clock
    have hlive : Does c ms none (fun l => ¬l.Outer) t (pumpLiveness w c i ms t) :=
      (pumpLiveness_does i ms t).mono fun l hl => by
        have hl' : LivenessLabel t i t.hub.monoMs.ms l := htms.symm ▸ hl
        exact moveLabel_inner (w := w) (c := c) (s := t) (m := .liveness i) trivial hl'
    have hu : (pumpLiveness w c i ms t).view.InOrder ms n := inOrder_path hn hlive ht
    have hmine : (pumpLiveness w c i ms t).view.Watched i := by
      rcases away_of_expiry (pumpLiveness_expiry (w := w) (c := c) i ms t) with ⟨hsame, hdue, hidle, hready⟩ | haway
      · rw [hsame]
        subst htms
        exact watched_of_prompt hdue hidle hready (fun j hj => (ht.heard j hj).trans_le hn') ht.windows
      · exact haway.watched
    have hothers : ∀ j, j ≠ i → s.view.Watched j → (pumpLiveness w c i ms t).view.Watched j := fun j hj hw =>
      watched_path hn (Option.some_ne_none j).symm hlive ht
        (watched_path hn (fun h => hj (Option.some.inj h).symm) hread hs hw)
    generalize pumpLiveness w c i ms t = u at hu hmine hothers
    have hout : Does c ms none (fun l => ¬l.Outer) u (pumpOut w c i ms u) :=
      (pumpOut_does i ms u).mono fun _ hl => moveLabel_inner (w := w) (c := c) (s := u) (m := .out i) trivial hl
    refine ⟨inOrder_path hn hout hu, fun j hj => watched_path hn (Option.some_ne_none j).symm hout hu ?_⟩
    by_cases hji : j = i
    · subst hji
      exact hmine
    · exact hothers j hji (hj.resolve_left hji)

theorem updateFold_watched (inbox : SlotIdx → List RxFrame) (hn : 0 < n) (hn' : n ≤ 2 ^ 31) :
    ∀ (l : List SlotIdx) (s : Sys ε), s.view.InOrder ms n →
      (l.foldl (updateSlot w c inbox ms) s).view.InOrder ms n ∧
      ∀ j, j ∈ l ∨ s.view.Watched j → (l.foldl (updateSlot w c inbox ms) s).view.Watched j
  | [], s, hs => ⟨hs, fun j hj => hj.elim (fun h => by cases h) id⟩
  | i :: l, s, hs => by
    obtain ⟨hone, hturn⟩ := updateSlot_watched (w := w) (c := c) inbox i hn hn' hs
    obtain ⟨hrest, hwatched⟩ := updateFold_watched inbox hn hn' l _ hone
    refine ⟨hrest, fun j hj => hwatched j ?_⟩
    rcases hj with hj | hj
    · rcases List.mem_cons.mp hj with rfl | hj
      · exact .inr (hturn j (.inl rfl))
      · exact .inl hj
    · exact .inr (hturn j (.inr hj))

/-! ## Whole runs -/

/-- The furthest one reading of the clock takes the counter. -/
def kStrideMs : Nat := (2 ^ 32 - 1) / 1000

theorem advance_stride {m : MonotonicMs} (h : m.init = false → m.ms = 0) (nowUs : UInt32) :
    ((m.advance nowUs).ms - m.ms).toNat ≤ kStrideMs := by
  have hthousandth : ∀ x : UInt32, (x / 1000).toNat ≤ kStrideMs := by
    intro x
    have hx := x.toNat_lt
    rw [UInt32.toNat_div, show (1000 : UInt32).toNat = 1000 from rfl]
    unfold kStrideMs
    omega
  unfold MonotonicMs.advance
  cases hinit : m.init with
  | false =>
    rw [h hinit, UInt32.sub_zero]
    exact hthousandth nowUs
  | true =>
    have hcancel : ∀ d : UInt32, m.ms + d - m.ms = d := fun d => by rw [UInt32.add_comm, UInt32.add_sub_cancel]
    show (m.ms + (nowUs - m.lastUs + m.rem.toUInt32) / 1000 - m.ms).toNat ≤ kStrideMs
    rw [hcancel]
    exact hthousandth _

/-- The clock moves on, and everyone is a stride more silent. -/
theorem inOrder_tick (hn : 0 < n) (hs : s.view.InOrder s.hub.monoMs.ms n) (nowUs : UInt32) :
    (move w c s (.tick nowUs)).view.InOrder (s.hub.monoMs.advance nowUs).ms (n + kStrideMs) := by
  have hticked : ({ s with hub := { s.hub with monoMs := s.hub.monoMs.advance nowUs } } : Sys ε).view.InOrder
      (s.hub.monoMs.advance nowUs).ms (n + kStrideMs) := by
    have hinit : (s.hub.monoMs.advance nowUs).init = true := by unfold MonotonicMs.advance; split <;> rfl
    refine ⟨rfl, fun h => ?_, fun i hi => ?_, hs.windows, hs.ids, hs.distinct⟩
    · cases hinit.symm.trans h
    · have hold : (s.hub.monoMs.ms - (s.session i).lastRxMs).toNat < n := hs.heard i ⟨hi.live, hi.linked⟩
      have hstride := advance_stride hs.fresh nowUs
      show ((s.hub.monoMs.advance nowUs).ms - (s.session i).lastRxMs).toNat < n + kStrideMs
      change ((s.hub.monoMs.advance nowUs).ms - s.hub.monoMs.ms).toNat ≤ kStrideMs at hstride
      rw [UInt32.toNat_sub] at hold hstride ⊢
      have h₁ := (s.hub.monoMs.advance nowUs).ms.toNat_lt
      have h₂ := s.hub.monoMs.ms.toNat_lt
      have h₃ := (s.session i).lastRxMs.toNat_lt
      omega
  have hpair : Does c (s.hub.monoMs.advance nowUs).ms none (fun l => ¬l.Outer) _ (move w c s (.tick nowUs)) :=
    (pumpPairing_does _ _).mono fun l hl ho => by cases l <;> first | exact hl | exact ho
  exact inOrder_path (Nat.add_pos_left hn _) hpair hticked

/-- **An update watches every slot.** -/
theorem watched_update (hs : s.view.InOrder s.hub.monoMs.ms kQuietMs) (nowUs : UInt32) (inbox : SlotIdx → List RxFrame) :
    (update w c nowUs inbox s).view.InOrder (update w c nowUs inbox s).hub.monoMs.ms kQuietMs ∧
      ∀ i, (update w c nowUs inbox s).view.Watched i := by
  have hn : 0 < kQuietMs := by decide
  have htick := inOrder_tick (w := w) (c := c) hn hs nowUs
  obtain ⟨hrest, hwatched⟩ := updateFold_watched (w := w) (c := c) inbox (Nat.add_pos_left hn _) (by decide)
    allSlots _ htick
  change (update w c nowUs inbox s).view.InOrder (s.hub.monoMs.advance nowUs).ms (kQuietMs + kStrideMs) at hrest
  have hall : ∀ i, (update w c nowUs inbox s).view.Watched i := fun i => hwatched i (.inl (List.mem_finRange i))
  exact ⟨⟨rfl, hrest.fresh, fun i => (hall i).heard, hrest.windows, hrest.ids, hrest.distinct⟩, hall⟩

theorem inOrder_call {k : Call ε} (hs : s.view.InOrder s.hub.monoMs.ms kQuietMs) :
    (call w c s k).view.InOrder (call w c s k).hub.monoMs.ms kQuietMs := by
  by_cases hu : ∃ nowUs inbox, k = .update nowUs inbox
  · obtain ⟨nowUs, inbox, rfl⟩ := hu
    exact (watched_update hs nowUs inbox).1
  · have hk : ∀ nowUs inbox, k ≠ .update nowUs inbox := fun nowUs inbox h => hu ⟨nowUs, inbox, h⟩
    have hdoes : Does c s.hub.monoMs.ms none (HostLabel w s k) s (call w c s k) :=
      move_does (w := w) (m := .host k) hs.distinct hk
    rw [clock_host hs.distinct hk]
    exact Path.invariant (I := fun v => v.InOrder s.hub.monoMs.ms kQuietMs) hdoes
      (fun _ _ _ hl ha hv => ha.inOrder (by decide) (Call.untimed hl) hv) hs

theorem inOrder_boot (e : ε) : (boot w c e).view.InOrder (boot w c e).hub.monoMs.ms kQuietMs := by
  obtain ⟨r, hr⟩ := view_boot (w := w) (c := c) e
  have hms : (boot w c e).hub.monoMs.ms = (boot w c e).view.clock.ms := rfl
  rw [hms, hr]
  refine ⟨rfl, fun _ => rfl, fun i hi => ?_, fun i => (by decide : Limits.deadmanDefaultMs ≤ Limits.deadmanMaxMs),
    ⟨fun _ ho => absurd rfl ho.1, fun _ _ _ _ ho => absurd rfl ho.1⟩, fun _ _ _ ho => absurd rfl ho.1⟩
  cases hi.live

theorem inOrder_reachable (h : Reachable w c s) : s.view.InOrder s.hub.monoMs.ms kQuietMs := by
  obtain ⟨e, calls, rfl⟩ := h
  induction calls using List.reverseRecOn with
  | nil => exact inOrder_boot e
  | append_singleton calls k ih =>
    have hcall : run w c e (calls ++ [k]) = call w c (run w c e calls) k := by simp [run]
    rw [hcall]
    exact inOrder_call ih

/-- A live session on a transport was heard less than the longest window ago, one that drives a source 0 to 3 less than
its own ago, if no session id was drawn twice; one that has not adopted the catalog is not overdue. -/
structure Attended (t : Sys ε) (i : SlotIdx) : Prop where
  heard : (t.slot i).transport.isSome → (t.session i).state = .live →
    (t.hub.monoMs.ms - (t.session i).lastRxMs).toNat < Limits.deadmanMaxMs.toNat
  drives : (t.trace.filterMap drawnOf).Nodup → (t.slot i).transport.isSome → (t.session i).state = .live →
    ownsLow t.hub (t.session i).sessionId = true →
      (t.hub.monoMs.ms - (t.session i).lastRxMs).toNat < (t.session i).deadmanMs.toNat
  adopts : (t.slot i).transport.isSome → (t.session i).occupied = true → (t.session i).state ≠ .stale →
    (t.session i).ready = false →
      timeReached t.hub.monoMs.ms ((t.session i).grantedAtMs + Limits.catalogReadyTimeoutMs) = false

/-- **No silent driver.**  After every update of every run, every slot is attended to. -/
theorem deadman_coverage (h : Reachable w c s) (nowUs : UInt32) (inbox : SlotIdx → List RxFrame) (i : SlotIdx) :
    Attended (update w c nowUs inbox s) i := by
  have hw : (update w c nowUs inbox s).view.Watched i := (watched_update (inOrder_reachable h) nowUs inbox).2 i
  refine ⟨fun hlinked hlive => hw.heard ⟨hlive, hlinked⟩, fun hnd hlinked hlive howns => ?_,
    fun hlinked hocc hst hr => hw.adopts ((occupied_view _ i).mpr hocc) hst hlinked hr⟩
  obtain ⟨src, hsrc, hown⟩ := List.any_eq_true.mp howns
  exact hw.drives hnd ⟨hlive, hlinked⟩ src hsrc (beq_iff_eq.mp hown)

end

/-- The pilot, with nothing more to say, at the time `nowUs`. -/
def Bench.silent (nowUs : UInt32) : Sys Bench :=
  update Bench.world Bench.config nowUs (fun _ => []) (run Bench.world Bench.config {} (Bench.piloted ++ [Bench.steer]))

/-- 398 milliseconds are not too long, 600 are. -/
theorem deadman_coverage_silent : ((Bench.silent 400000).session 0).state = .live ∧
    ownsLow (Bench.silent 400000).hub ((Bench.silent 400000).session 0).sessionId = true ∧
    ((Bench.silent 400000).hub.monoMs.ms - ((Bench.silent 400000).session 0).lastRxMs).toNat <
      ((Bench.silent 400000).session 0).deadmanMs.toNat ∧
    ((Bench.silent 602000).session 0).state = .stale := by
  have hreach : Reachable Bench.world Bench.config (run Bench.world Bench.config {} (Bench.piloted ++ [Bench.steer])) :=
    ⟨{}, Bench.piloted ++ [Bench.steer], rfl⟩
  have hlive : ((Bench.silent 400000).session 0).state = .live := by decide +kernel
  have howns : ownsLow (Bench.silent 400000).hub ((Bench.silent 400000).session 0).sessionId = true := by decide +kernel
  have hlaw : Attended (Bench.silent 400000) 0 := deadman_coverage hreach 400000 (fun _ => []) 0
  exact ⟨hlive, howns, hlaw.drives (by decide +kernel) (by decide +kernel) hlive howns, by decide +kernel⟩

end SlopSync
