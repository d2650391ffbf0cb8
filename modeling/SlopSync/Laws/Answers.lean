import SlopSync.Hub.Bench
import SlopSync.Refine.Run
import SlopSync.Laws.Ownership

/-! # An intent is accepted once

The ring of a session answers an id that was accepted with the ECHO it got, until 32 more intents of the session were
accepted: whatever happens to the session meanwhile, whether it goes stale, is resumed or moves to another slot.  So
two acceptances of one id lie at least 32 apart.

`Remembers` is kept by every act of the abstract hub; `Kept` ties it to the history. -/

namespace SlopSync

open Keyed Labelled

/-! ## What a ring remembers -/

/-- The acceptances of a session's intents. -/
def acceptances (sid : UInt32) (trace : List (Hub × Io)) : Nat := (trace.filterMap acceptedOf).count sid

/-- How often a session id was drawn. -/
def draws (sid : UInt32) (trace : List (Hub × Io)) : Nat := (trace.filterMap drawnOf).count sid

/-- Two slots with one session id: it was drawn twice. -/
def View.Solo (v : View) : Prop :=
  ∀ i j, i ≠ j → (v.slots i).occupied → (v.slots j).occupied → (v.slots i).sessionId = (v.slots j).sessionId →
    2 ≤ v.drawn.count (v.slots i).sessionId

/-- The session `sid`, drawn once, answers `id` with `bytes`, as it did when it had had `n` acceptances. -/
structure View.Remembers (v : View) (sid : UInt32) (id : UInt16) (bytes : Bytes) (n : Nat) : Prop where
  drawn : sid ∈ v.drawn
  since : n ≤ v.accepted.count sid
  answered : v.drawn.count sid = 1 → ∀ j, (v.slots j).occupied → (v.slots j).sessionId = sid →
    ∀ k, v.accepted.count sid = n + k → k < Limits.idempotencyRingDepth → ∃ k' ≤ k, (v.slots j).ring.Holds id bytes k'

section

variable {c : Config} {now : UInt32} {rx : Option SlotIdx} {l : Label} {v v' : View}

/-- No act makes two sessions share an id, when fresh ids are fresh. -/
theorem Act.solo (h : Act c now rx l v v') (hids : v.Ids) (hv : v.Solo) : v'.Solo := by
  have hcount : ∀ sid, v.drawn.count sid ≤ v'.drawn.count sid := fun sid => h.drawn.sublist.count_le sid
  -- the newcomer, if there is one, is the first of the two
  have key : ∀ i j, i ≠ j → (v'.slots i).occupied → (v'.slots j).occupied → v.Stays v' j →
      (v'.slots i).sessionId = (v'.slots j).sessionId → 2 ≤ v'.drawn.count (v'.slots i).sessionId := by
    intro i j hij hi hj hsj heq
    obtain ⟨hoj, -, hidj⟩ := hsj hj
    cases h.seated i with
    | stays hs =>
      obtain ⟨hoi, -, hidi⟩ := hs hi
      rw [hidi]
      exact (hv i j hij hoi hoj (by rw [← hidi, ← hidj]; exact heq)).trans (hcount _)
    | admitted _ _ _ _ hdrawn =>
      have hold : (v'.slots i).sessionId ∈ v.drawn := by
        rw [heq, hidj]
        exact (hids.1 j hoj).2
      rw [hdrawn, List.count_cons_self]
      exact Nat.succ_le_succ (List.count_pos_iff.mpr hold)
    | moved k hl hki hock hfree hgone hinst hsid =>
      rw [hsid]
      refine (hv k j (fun e => hgone (e ▸ hj)) hock hoj ?_).trans (hcount _)
      rw [← hsid, ← hidj]
      exact heq
  intro i j hij hi hj heq
  cases h.seated j with
  | stays hs => exact key i j hij hi hj hs heq
  | admitted hl => exact heq ▸ key j i hij.symm hj hi (Act.others_stay h hij (.inl hl)) heq.symm
  | moved k hl => exact heq ▸ key j i hij.symm hj hi (Act.others_stay h hij (.inr ⟨k, hl⟩)) heq.symm

/-- Neither an acceptance, nor the end, the beginning or a move of a session. -/
def Label.Aside : Label → Prop
  | .accept _ | .free _ | .enrol _ _ | .migrate _ _ => False
  | _ => True

/-- An act aside from intents keeps every intent ring. -/
theorem Label.Aside.keepsRing (h : l.Aside) (j : SlotIdx) : l.KeepsRing j := by
  cases l <;> first | exact trivial | exact h.elim

/-- No acceptance. -/
def Label.Unaccepting : Label → Prop
  | .accept _ => False
  | _ => True

/-- An act aside from intents accepts nothing. -/
theorem Label.Aside.unaccepting (h : l.Aside) : l.Unaccepting := by
  cases l <;> first | exact trivial | exact h.elim

/-- An act that accepts nothing leaves the list of accepted intents alone. -/
theorem Act.accepted_eq (hl : l.Unaccepting) (h : Act c now rx l v v') : v'.accepted = v.accepted := by
  cases h with
  | accept => exact hl.elim
  | _ => rfl

/-- An act aside from intents draws no session id. -/
theorem Act.drawn_eq (hl : l.Aside) (h : Act c now rx l v v') : v'.drawn = v.drawn := by
  cases h with
  | enrol => exact hl.elim
  | _ => rfl

/-- A session that is in place stays in place. -/
theorem Act.seat (hl : l.Aside) (h : Act c now rx l v v') (j : SlotIdx) (hj : (v.slots j).occupied) :
    (v'.slots j).occupied ∧ (v'.slots j).sessionId = (v.slots j).sessionId := by
  have hset : ∀ (i : SlotIdx) (x : SlotView), x.sessionId = (v.slots i).sessionId → ((v.slots i).occupied → x.occupied) →
      ((v.set i x).slots j).occupied ∧ ((v.set i x).slots j).sessionId = (v.slots j).sessionId := by
    intro i x hid hocc
    by_cases hij : j = i
    · subst hij
      rw [View.slots_set_self]
      exact ⟨hocc hj, hid⟩
    · rw [View.slots_set_ne v hij]
      exact ⟨hj, rfl⟩
  cases h with
  | subs i | pubs i | role i | settle i | ready i | rx i | resume i | attach i | detach i => exact hset i _ rfl id
  | stale i => exact hset i _ rfl fun _ => occupied_stale rfl
  | revive i | live i => exact hset i _ rfl fun _ => occupied_live rfl
  | accept | free | enrol | migrate => exact hl.elim
  | _ => exact ⟨hj, rfl⟩

/-! ## What an act leaves of it -/

section

variable {sid : UInt32} {id : UInt16} {bytes : Bytes} {n : Nat}

/-- The session was in a slot before, with the ring it has, and nothing was drawn or accepted. -/
theorem View.Remembers.same (hr : v.Remembers sid id bytes n) (hd : v'.drawn = v.drawn) (ha : v'.accepted = v.accepted)
    (hs : ∀ j, (v'.slots j).occupied → ∃ j', (v.slots j').occupied ∧ (v.slots j').sessionId = (v'.slots j).sessionId ∧
      (v.slots j').ring = (v'.slots j).ring) : v'.Remembers sid id bytes n where
  drawn := hd ▸ hr.drawn
  since := ha ▸ hr.since
  answered h1 j hj hid k hk hlt := by
    obtain ⟨j', hj', hid', hring⟩ := hs j hj
    rw [← hring]
    exact hr.answered (hd ▸ h1) j' hj' (hid'.trans hid) k (ha ▸ hk) hlt

/-- One more intent of some session is accepted. -/
theorem View.Remembers.accept {i : SlotIdx} {x : UInt16} {ring : IntentRing} (hr : v.Remembers sid id bytes n)
    (hnew : (v.slots i).ring.lookup x = none)
    (h : ring = (v.slots i).ring ∨ ∃ bs, (v.slots i).ring.store x bs = some ring) :
    View.Remembers { v.set i { v.slots i with ring } with accepted := (v.slots i).sessionId :: v.accepted }
      sid id bytes n where
  drawn := hr.drawn
  since := hr.since.trans (List.Sublist.count_le sid (List.sublist_cons_self _ _))
  answered h1 j hj hid k hk hlt := by
    change ((v.set i { v.slots i with ring }).slots j).occupied at hj
    change ((v.set i { v.slots i with ring }).slots j).sessionId = sid at hid
    show ∃ k' ≤ k, ((v.set i { v.slots i with ring }).slots j).ring.Holds id bytes k'
    rw [List.count_cons] at hk
    by_cases hij : j = i
    · subst hij
      rw [View.slots_set_self] at hj hid ⊢
      have hcount := hr.since
      rw [if_pos (beq_iff_eq.mpr hid)] at hk
      obtain ⟨k', hk', hholds⟩ := hr.answered h1 j hj hid (k - 1) (by omega) (by omega)
      rcases h with rfl | ⟨bs, hstore⟩
      · exact ⟨k', by omega, hholds⟩
      · refine ⟨k' + 1, by omega, IntentRing.holds_store hholds (by omega) ?_ hstore⟩
        rintro rfl
        rw [hholds.lookup] at hnew
        cases hnew
    · rw [View.slots_set_ne v hij] at hj hid ⊢
      have hcount := hr.since
      obtain ⟨k', hk', hholds⟩ := hr.answered h1 j hj hid (v.accepted.count sid - n) (by omega) (by split at hk <;> omega)
      exact ⟨k', by split at hk <;> omega, hholds⟩

/-- **Every act leaves an answer where it is**, until 32 acceptances later. -/
theorem Act.remembers (h : Act c now rx l v v') (hr : v.Remembers sid id bytes n) : v'.Remembers sid id bytes n := by
  have haside : l.Aside → v'.Remembers sid id bytes n := fun hl => by
    refine hr.same (h.drawn_eq hl) (h.accepted_eq hl.unaccepting) fun j hj => ⟨j, ?_⟩
    rcases h.stays j with hs | ⟨i, r, rfl, -⟩ | ⟨i, k, rfl, -⟩
    · exact ⟨(hs hj).1, (hs hj).2.2.symm, (h.ring_eq (hl.keepsRing j)).symm⟩
    · exact hl.elim
    · exact hl.elim
  cases h with
  | accept i x ring hnew hring => exact hr.accept hnew hring
  | free i =>
    refine hr.same rfl rfl fun j hj => ⟨j, ?_⟩
    by_cases hij : j = i
    · subst hij
      rw [View.slots_set_self] at hj
      exact absurd hj (SlotView.not_occupied_cleared _)
    · rw [View.slots_set_ne v hij] at hj ⊢
      exact ⟨hj, rfl, rfl⟩
  | enrol i x =>
    refine ⟨List.mem_cons_of_mem _ hr.drawn, hr.since, fun h1 j hj hid k hk hlt => ?_⟩
    -- the session was drawn before, so it is not the one that is enrolled
    have hpos := List.count_pos_iff.mpr hr.drawn
    have hne : x.sessionId ≠ sid := by
      rintro rfl
      change (x.sessionId :: v.drawn).count x.sessionId = 1 at h1
      rw [List.count_cons_self] at h1
      omega
    change (x.sessionId :: v.drawn).count sid = 1 at h1
    rw [List.count_cons_of_ne hne] at h1
    change ((v.set i x).slots j).occupied at hj
    change ((v.set i x).slots j).sessionId = sid at hid
    show ∃ k' ≤ k, ((v.set i x).slots j).ring.Holds id bytes k'
    by_cases hij : j = i
    · subst hij
      rw [View.slots_set_self] at hid
      exact absurd hid hne
    · rw [View.slots_set_ne v hij] at hj hid ⊢
      exact hr.answered h1 j hj hid k hk hlt
  | migrate i j' hrx hij hfree ht hst htj =>
    refine hr.same rfl rfl fun j hj => ?_
    rw [slots_migrate hij] at hj ⊢
    split at hj
    · rename_i hji
      rw [if_pos hji]
      exact ⟨j', occupied_stale hst, rfl, rfl⟩
    · rename_i hji
      rw [if_neg hji]
      split at hj
      · exact absurd hj (SlotView.not_occupied_cleared _)
      · rename_i hjj
        rw [if_neg hjj]
        exact ⟨j, hj, rfl, rfl⟩
  | _ => exact haside trivial

end

end

/-! ## The history -/

/-- An answer that the ring has room for. -/
def AnsweredWith (x : Hub × Io) (sid : UInt32) (id : UInt16) (bytes : Bytes) : Prop :=
  ∃ h i, x = (h, .accepted i id (some bytes)) ∧ (h.slots i).session.sessionId = sid ∧ bytes.length ≤ kRingSlotCapacity

/-- An intent of the session was accepted, whatever became of its ECHO. -/
def AcceptedAs (x : Hub × Io) (sid : UInt32) (id : UInt16) : Prop :=
  ∃ h i echo, x = (h, .accepted i id echo) ∧ (h.slots i).session.sessionId = sid

/-- An id that was answered is not accepted again until 32 intents of the session were accepted. -/
def Apart (x : Hub × Io) (tail : List (Hub × Io)) : Prop :=
  ∀ sid id, AcceptedAs x sid id → draws sid tail = 1 → ∀ y earlier bytes, y :: earlier <:+ tail → AnsweredWith y sid id bytes →
    acceptances sid (y :: earlier) + Limits.idempotencyRingDepth ≤ acceptances sid tail

section

variable {ε : Type}

/-- The rings are true to the history. -/
structure Kept (s : Sys ε) : Prop where
  ids : s.view.Ids
  solo : s.view.Solo
  remembered : ∀ x earlier, x :: earlier <:+ s.trace → ∀ sid id bytes, AnsweredWith x sid id bytes →
    s.view.Remembers sid id bytes (acceptances sid (x :: earlier))
  apart : ∀ x tail, x :: tail <:+ s.trace → Apart x tail

variable {w : World ε} {c : Config} {now : UInt32} {rx : Option SlotIdx} {P : Label → Prop} {s t u : Sys ε}

/-- From `s` to `t` without an acceptance. -/
structure Quietly (c : Config) (now : UInt32) (rx : Option SlotIdx) (s t : Sys ε) : Prop where
  does : Does c now rx Label.Unaccepting s t
  writes : Writes (fun _ => True) (fun _ => False) s t

/-- Steps aside from intents, writing no ECHO, are quiet. -/
theorem Quietly.of_aside (h : Does c now rx Label.Aside s t) (hw : Writes (fun _ => True) (fun _ => False) s t) :
    Quietly c now rx s t :=
  ⟨h.mono fun _ hl => hl.unaccepting, hw⟩

/-- Nothing new in the history is an acceptance. -/
theorem Quietly.news (h : Quietly c now rx s t) :
    ∃ new, t.trace = new ++ s.trace ∧ ∀ x ∈ new, acceptedOf x = none := by
  obtain ⟨new, hnew, -⟩ := h.writes.grows
  refine ⟨new, hnew, List.filterMap_eq_nil_iff.mp ?_⟩
  have heq : t.trace.filterMap acceptedOf = s.trace.filterMap acceptedOf :=
    Path.frame (f := View.accepted) h.does fun _ _ _ hl ha => ha.accepted_eq hl
  rw [hnew, List.filterMap_append] at heq
  exact List.append_cancel_right (heq.trans (List.nil_append _).symm)

/-- An answered intent was accepted in the session the ECHO was sent in. -/
theorem AnsweredWith.accepted {x : Hub × Io} {sid : UInt32} {id : UInt16} {bytes : Bytes} (h : AnsweredWith x sid id bytes) :
    acceptedOf x = some sid := by
  obtain ⟨g, i, rfl, rfl, -⟩ := h
  rfl

theorem AcceptedAs.accepted {x : Hub × Io} {sid : UInt32} {id : UInt16} (h : AcceptedAs x sid id) :
    acceptedOf x = some sid := by
  obtain ⟨g, i, echo, rfl, rfl⟩ := h
  rfl

/-- What is accepted in a longer history was accepted before. -/
theorem suffix_old {new old tail : List (Hub × Io)} {x : Hub × Io} {sid : UInt32} (hnew : ∀ y ∈ new, acceptedOf y = none)
    (hx : acceptedOf x = some sid) (h : x :: tail <:+ new ++ old) : x :: tail <:+ old := by
  induction new with
  | nil => exact h
  | cons y new ih =>
    rcases List.suffix_cons_iff.mp h with heq | h
    · obtain ⟨rfl, -⟩ := List.cons.inj heq
      rw [hnew x List.mem_cons_self] at hx
      cases hx
    · exact ih (fun z hz => hnew z (List.mem_cons_of_mem y hz)) h

/-- Quiet steps keep the record. -/
theorem Kept.quietly (hk : Kept s) (h : Quietly c now rx s t) : Kept t := by
  obtain ⟨new, hnew, hnone⟩ := h.news
  have hview : t.view.Ids ∧ t.view.Solo :=
    Path.invariant (I := fun v => v.Ids ∧ v.Solo) h.does (fun _ _ _ _ ha hv => ⟨ha.ids hv.1, ha.solo hv.1 hv.2⟩)
      ⟨hk.ids, hk.solo⟩
  refine ⟨hview.1, hview.2, fun x earlier hx sid id bytes ha => ?_, fun x tail hx sid id ha => ?_⟩
  · rw [hnew] at hx
    have hold := hk.remembered x earlier (suffix_old hnone ha.accepted hx) sid id bytes ha
    exact Path.invariant (I := fun v => v.Remembers sid id bytes (acceptances sid (x :: earlier))) h.does
      (fun _ _ _ _ hact hr => hact.remembers hr) hold
  · rw [hnew] at hx
    exact hk.apart x tail (suffix_old hnone ha.accepted hx) sid id ha

theorem Kept.same (hk : Kept s) (hv : t.view = s.view) (ht : t.trace = s.trace) : Kept t where
  ids := hv ▸ hk.ids
  solo := hv ▸ hk.solo
  remembered x earlier hx sid id bytes ha := by
    rw [hv]
    exact hk.remembered x earlier (ht ▸ hx) sid id bytes ha
  apart x tail hx := hk.apart x tail (ht ▸ hx)

/-! ## Acceptance -/

theorem Label.Parks.aside {i : SlotIdx} {l : Label} (h : l.Parks i) : l.Aside := by
  cases l <;> first | exact trivial | exact h.elim

/-- The ring has been asked, and the ECHO stored. -/
def rememberEcho (i : SlotIdx) (id : UInt16) (echo : Option Bytes) (s : Sys ε) : Sys ε :=
  (s.log (.accepted i id echo)).modSession i fun se =>
    { se with intentRing := (echo.bind fun bytes => se.intentRing.store id bytes).getD se.intentRing }

/-- Remembering an ECHO of an id not in the ring is one `accept`. -/
theorem rememberEcho_act {i : SlotIdx} {id : UInt16} (echo : Option Bytes)
    (hnew : (s.session i).intentRing.lookup id = none) :
    Act c now rx (.accept i) s.view (rememberEcho i id echo s).view := by
  unfold rememberEcho
  rw [Sys.modSession, view_modSlot]
  refine Act.accept i id _ hnew ?_
  cases echo with
  | none => exact .inl rfl
  | some bytes => exact getD_store _ id bytes

/-- It keeps the record: the intent is counted as the ring takes it. -/
theorem kept_rememberEcho (c : Config) {i : SlotIdx} {id : UInt16} (echo : Option Bytes) (hk : Kept s)
    (hocc : (s.session i).occupied = true) (hnew : (s.session i).intentRing.lookup id = none) :
    Kept (rememberEcho i id echo s) := by
  have hact : Act c 0 none (.accept i) s.view (rememberEcho i id echo s).view := rememberEcho_act echo hnew
  have htrace : (rememberEcho i id echo s).trace = (s.hub, .accepted i id echo) :: s.trace := rfl
  have hocc' : (s.view.slots i).occupied := (occupied_view s i).mpr hocc
  have hsolo : (rememberEcho i id echo s).view.Solo := hact.solo hk.ids hk.solo
  have hslot : (rememberEcho i id echo s).view.slots i =
      slotView { s.slot i with session := { s.session i with
        intentRing := (echo.bind fun bytes => (s.session i).intentRing.store id bytes).getD (s.session i).intentRing } } := by
    show slotView ((rememberEcho i id echo s).hub.slots i) = _
    unfold rememberEcho
    rw [Sys.modSession, Sys.slot_modSlot_self]
    rfl
  refine ⟨hact.ids hk.ids, hsolo, fun x earlier hx sid id' bytes ha => ?_, fun x tail hx sid id' ha => ?_⟩
  · rw [htrace] at hx
    rcases List.suffix_cons_iff.mp hx with heq | hx
    · obtain ⟨rfl, rfl⟩ := List.cons.inj heq
      obtain ⟨g, j, hg, rfl, hfits⟩ := ha
      cases hg
      refine ⟨(hk.ids.1 i hocc').2, Nat.le_refl _, fun h1 k hkocc hkid n hn hlt => ?_⟩
      -- no other slot has a session of this id
      have hki : k = i := by
        by_contra hne
        have htwice := hsolo k i hne hkocc (by rw [hslot]; exact hocc') (by rw [hslot]; exact hkid)
        rw [hkid, h1] at htwice
        omega
      subst hki
      obtain ⟨r, hr⟩ : ∃ r, (s.session k).intentRing.store id bytes = some r := by
        unfold IntentRing.store
        rw [if_neg (Nat.not_lt.mpr hfits)]
        exact ⟨_, rfl⟩
      refine ⟨0, Nat.zero_le n, ?_⟩
      rw [hslot]
      show IntentRing.Holds ((Option.bind (some bytes) fun bytes => (s.session k).intentRing.store id bytes).getD _) id bytes 0
      rw [Option.bind_some, hr]
      exact IntentRing.holds_store_new hnew hr
    · exact hact.remembers (hk.remembered x earlier hx sid id' bytes ha)
  · rw [htrace] at hx
    rcases List.suffix_cons_iff.mp hx with heq | hx
    · obtain ⟨rfl, rfl⟩ := List.cons.inj heq
      obtain ⟨g, j, echo', hg, rfl⟩ := ha
      cases hg
      intro hdraws y earlier bytes hy hans
      have hrem := hk.remembered y earlier hy _ _ bytes hans
      have hsince : acceptances (s.session i).sessionId (y :: earlier) ≤ acceptances (s.session i).sessionId s.trace :=
        hrem.since
      by_contra hlt
      change ¬ acceptances (s.session i).sessionId (y :: earlier) + _ ≤ acceptances (s.session i).sessionId s.trace at hlt
      obtain ⟨k', -, hholds⟩ := hrem.answered hdraws i hocc' rfl
        (acceptances (s.session i).sessionId s.trace - acceptances (s.session i).sessionId (y :: earlier))
        (Nat.add_sub_cancel' hsince).symm (by omega)
      rw [show (s.session i).intentRing = (s.view.slots i).ring from rfl, hholds.lookup] at hnew
      cases hnew
    · exact hk.apart x tail hx sid id' ha

/-- **An acceptance of an id the ring does not know.** -/
theorem kept_acceptIntent {i : SlotIdx} {m : IntentMsg} (echo : Option Bytes) (nowMs : UInt32) (hk : Kept s)
    (hocc : (s.session i).occupied = true) (hnew : (s.session i).intentRing.lookup m.intentId = none) :
    Kept (acceptIntent w c i m echo nowMs s) := by
  have hstored := kept_rememberEcho c echo hk hocc hnew
  unfold acceptIntent
  dsimp only
  split
  · exact hstored.same (view_modSlot_of_slotView rfl).symm rfl
  · rename_i bytes
    have hsend : Quietly c nowMs none (rememberEcho i m.intentId (some bytes) s)
        (sendFrameToTracked w c i .echo m.channelId bytes nowMs 0 (rememberEcho i m.intentId (some bytes) s)).2 := by
      refine Quietly.of_aside ((sendFrameToTracked_does _ (by decide) (by decide)).mono fun _ h => h.aside) ?_
      exact writes_sendFrameToTracked (fun _ _ => trivial) i trivial (show FrameType.Bare .echo from trivial) _ _ _ _ _
    exact hstored.quietly hsend

/-! ## Intents -/

/-- An intent that the ring does not know, of a session in place. -/
structure Awaits (i : SlotIdx) (m : IntentMsg) (s : Sys ε) : Prop where
  kept : Kept s
  occupied : (s.session i).occupied = true
  unknown : (s.session i).intentRing.lookup m.intentId = none

/-- An intent still to be answered waits through steps aside from intents. -/
theorem Awaits.aside {i : SlotIdx} {m : IntentMsg} (ha : Awaits i m s) (h : Does c now rx Label.Aside s t)
    (hw : Writes (fun _ => True) (fun _ => False) s t) : Awaits i m t where
  kept := ha.kept.quietly (Quietly.of_aside h hw)
  occupied := by
    have hocc := Path.invariant (I := fun v => (v.slots i).occupied) h
      (fun _ _ _ hl hact ho => (hact.seat hl i ho).1) ((occupied_view s i).mpr ha.occupied)
    exact (occupied_view t i).mp hocc
  unknown := by
    rw [h.ring_eq fun _ hl => hl.keepsRing i]
    exact ha.unknown

/-- Accepting the intent that waited keeps the record. -/
theorem Awaits.accept {i : SlotIdx} {m : IntentMsg} (ha : Awaits i m s) (echo : Option Bytes) (nowMs : UInt32) :
    Kept (acceptIntent w c i m echo nowMs s) :=
  kept_acceptIntent echo nowMs ha.kept ha.occupied ha.unknown

/-- A NACK keeps it: nothing was accepted. -/
theorem kept_sendNackTracked (hk : Kept s) (i : SlotIdx) (n : NackMsg) (nowMs : UInt32) :
    Kept (sendNackTracked w c i n nowMs s) := by
  have hsend : Quietly c nowMs none s (sendNackTracked w c i n nowMs s) :=
    Quietly.of_aside ((sendNackTracked_does i n nowMs s).mono fun _ h => h.aside)
      (writes_sendNackTracked (fun _ _ => trivial) i trivial n nowMs s)
  exact hk.quietly hsend

theorem Label.ParksAny.aside {l : Label} (h : l.ParksAny) : l.Aside := h.elim fun _ h => h.aside

theorem Label.Latches.aside {l : Label} (h : l.Latches) : l.Aside := by
  cases l <;> first | exact trivial | exact Label.ParksAny.aside h

theorem Label.Clears.aside {l : Label} {C : Prop} (h : l.Clears C) : l.Aside := by
  cases l <;> first | exact trivial | exact Label.ParksAny.aside h

theorem Label.Issues.aside {l : Label} {j : SlotIdx} {Q : AccessLevel → Prop} {M : InstanceId → AccessLevel → Prop}
    (h : l.Issues j Q M) : l.Aside := by
  cases l <;> first | exact trivial | exact h.elim

theorem Label.Trusts.aside {l : Label} (h : l.Trusts) : l.Aside := by
  cases l <;> first | exact trivial | exact h.elim

theorem Label.Acquires.aside {l : Label} {i : SlotIdx} {T : Prop} (h : l.Acquires i T) : l.Aside := by
  cases l <;> first | exact trivial | exact h.elim

theorem Label.Applies.aside {l : Label} (h : l.Applies) : l.Aside := by
  cases l <;> first | exact trivial | exact Label.Latches.aside h

theorem Label.Ends.unaccepting {l : Label} {i : SlotIdx} (h : l.Ends i) : l.Unaccepting := by
  cases l <;> first | exact trivial | exact h.elim

section

variable {i : SlotIdx} {m : IntentMsg} {nowMs : UInt32}

/-- `estop_clear` accepts the intent or refuses it. -/
theorem kept_intentEstopClear (ha : Awaits i m s) : Kept (intentEstopClear w c i m nowMs s) := by
  unfold intentEstopClear
  dsimp only
  split
  · exact kept_sendNackTracked ha.kept i _ nowMs
  · have hclear : Does c nowMs none (Label.Clears (Consents w s)) s (clearEstop w c s).2 := clearEstop_does s
    have hcleared := ha.aside (hclear.mono fun _ h => h.aside) (writes_clearEstop (fun _ _ => trivial) s)
    split
    · exact kept_sendNackTracked hcleared.kept i _ nowMs
    · exact hcleared.accept _ nowMs

/-- An ESTOP intent is accepted once. -/
theorem kept_intentEstop (ha : Awaits i m s) : Kept (intentEstop w c i m nowMs s) := by
  unfold intentEstop
  have hstop : ∀ f, Does c nowMs none Label.Latches s (handleEstopFrame w c f nowMs s) :=
    fun f => handleEstopFrame_does f nowMs s
  exact (ha.aside ((hstop _).mono fun _ h => h.aside) (writes_handleEstopFrame (fun _ _ => trivial) _ nowMs s)).accept _
    nowMs

/-- An eviction is accepted before its GOODBYE is sent. -/
theorem kept_adminEvict {op : UInt64} {target : UInt32} (ha : Awaits i m s) :
    Kept (adminEvict w c i m op target nowMs s) := by
  unfold adminEvict
  split
  · exact kept_sendNackTracked ha.kept i _ nowMs
  · rename_i v _
    have hends : ∀ t : Sys ε, Quietly c nowMs none t
        (teardownSession w c v nowMs (sendGoodbye w v .sessionEvicted t)) := fun t =>
      ⟨(((emits_sendGoodbye v .sessionEvicted t).does (P := Label.Ends v) trivial).trans
          (teardownSession_does v nowMs _)).mono fun _ h => h.unaccepting,
        (writes_sendGoodbye (fun _ _ => trivial) v .sessionEvicted t).trans
          (writes_teardownSession (fun _ _ => trivial) v nowMs _)⟩
    exact (ha.accept _ nowMs).quietly (hends _)

/-- An approval is accepted or refused, never both. -/
theorem kept_adminApprove {op : UInt64} {a : AdminOp} (ha : Awaits i m s) :
    Kept (adminApprove w c i m op a nowMs s) := by
  unfold adminApprove
  split
  · rename_i inst role _ _
    split
    · exact kept_sendNackTracked ha.kept i _ nowMs
    · split
      · exact kept_sendNackTracked ha.kept i _ nowMs
      · rename_i k hk
        split
        · have hdrop : Does c nowMs none Label.Trusts s (publishPendingPairingState c nowMs
              (emitPairingEvent w c PairingEventKinds.expired inst.val [] k.mode .watch [] nowMs
                (modPending (fun l => l.remove inst) s))) :=
            ((removePending_does inst s trivial).trans ((emitPairingEvent_does _ _ _ _ _ _ nowMs _).mono fun _ h => h.trusts)).trans
              ((publishPendingPairingState_does nowMs _).mono fun _ h => h.trusts)
          have hremove : Writes (fun _ => True) (fun _ => False) s (modPending (fun l => l.remove inst) s) := .same rfl
          exact kept_sendNackTracked (ha.aside (hdrop.mono fun _ h => h.aside) ((hremove.trans
            (writes_emitPairingEvent (fun _ _ => trivial) _ _ _ _ _ _ _ _)).trans (writes_publishPending _ _))).kept i _ nowMs
        · rename_i j hj
          have hgrant : Does c nowMs none (Label.Issues j (Grants s inst role inst) (Grants s inst role)) s
              (issuePairGrant w c j inst role k.mode nowMs s).2 :=
            issuePairGrant_does inst role k.mode nowMs (Option.filter_eq_some_iff.mp hj).2
          have hissued := ha.aside (hgrant.mono fun _ h => h.aside)
            (writes_issuePairGrant (fun _ _ => trivial) j trivial inst role k.mode nowMs s)
          dsimp only
          split
          · exact kept_sendNackTracked hissued.kept i _ nowMs
          · exact hissued.accept _ nowMs
  · exact kept_sendNackTracked ha.kept i _ nowMs

/-- A denial is accepted or refused, never both. -/
theorem kept_adminDeny {op : UInt64} {a : AdminOp} (ha : Awaits i m s) : Kept (adminDeny w c i m op a nowMs s) := by
  have hT : ∀ ty, FrameType.Plain ty → (fun _ : FrameType => True) ty := fun _ _ => trivial
  unfold adminDeny
  split
  · exact kept_sendNackTracked ha.kept i _ nowMs
  · rename_i inst k _
    have hdrop : Does c nowMs none Label.Trusts s (modPending (fun l => l.remove inst) s) :=
      removePending_does inst s trivial
    have hdropped := ha.aside (hdrop.mono fun _ h => h.aside) (.same rfl)
    have hrevoked : Awaits i m (if k.reapproval then
        revokeDevice w c inst k.mode nowMs (modPending (fun l => l.remove inst) s)
        else modPending (fun l => l.remove inst) s) := by
      split
      · have hrevoke : Does c nowMs none Label.Trusts (modPending (fun l => l.remove inst) s)
            (revokeDevice w c inst k.mode nowMs (modPending (fun l => l.remove inst) s)) :=
          revokeDevice_does inst k.mode nowMs _
        have hset : Writes (fun _ => True) (fun _ => False) (modPending (fun l => l.remove inst) s)
            (modPairing (fun p => (p.revoke inst).getD p) (modPending (fun l => l.remove inst) s)) := .same rfl
        exact hdropped.aside (hrevoke.mono fun _ h => h.aside)
          ((hset.trans (writes_emitPairingEvent hT _ _ _ _ _ _ _ _)).trans (writes_publishRoster _))
      · exact hdropped
    have htell : ∀ t : Sys ε, Does c nowMs none Label.Trusts t (publishPendingPairingState c nowMs
        (emitPairingEvent w c PairingEventKinds.denied inst.val [] k.mode .watch [] nowMs t)) := fun t =>
      ((emitPairingEvent_does _ _ _ _ _ _ nowMs _).mono fun _ h => h.trusts).trans
        ((publishPendingPairingState_does nowMs _).mono fun _ h => h.trusts)
    exact (hrevoked.aside ((htell _).mono fun _ h => h.aside)
      ((writes_emitPairingEvent hT _ _ _ _ _ _ _ _).trans (writes_publishPending _ _))).accept _ nowMs

/-- A revocation is accepted or refused, never both. -/
theorem kept_adminRevoke {op : UInt64} {a : AdminOp} (ha : Awaits i m s) : Kept (adminRevoke w c i m op a nowMs s) := by
  unfold adminRevoke
  split
  · exact kept_sendNackTracked ha.kept i _ nowMs
  · rename_i inst q hq
    simp only [Option.bind_eq_some_iff, Option.map_eq_some_iff, Prod.mk.injEq] at hq
    obtain ⟨x, -, q', hq', rfl, rfl⟩ := hq
    have htell : Does c nowMs none Label.Trusts s (publishPendingPairingState c nowMs (publishPairedRosterState c
        (emitPairingEvent w c PairingEventKinds.revoked x.val [] 0 .watch [] nowMs
          (modPending (fun l => l.remove x) (setPairing q' s))))) := by
      refine Does.trans ?_ ((publishPendingPairingState_does nowMs _).mono fun _ h => h.trusts)
      refine Does.trans ?_ ((publishPairedRosterState_does _).mono fun _ h => h.trusts)
      refine Does.trans ?_ ((emitPairingEvent_does _ _ _ _ _ _ nowMs _).mono fun _ h => h.trusts)
      exact Does.trans (setPairing_does (PairingManager.keeps_revoke hq') trivial) (removePending_does _ _ trivial)
    have hset : Writes (fun _ => True) (fun _ => False) s (modPending (fun l => l.remove x) (setPairing q' s)) := .same rfl
    exact (ha.aside (htell.mono fun _ h => h.aside) (((hset.trans
      (writes_emitPairingEvent (fun _ _ => trivial) _ _ _ _ _ _ _ _)).trans (writes_publishRoster _)).trans
        (writes_publishPending _ _))).accept _ nowMs

/-- Every admin operation keeps the record. -/
theorem kept_handleAdminIntent (ha : Awaits i m s) : Kept (handleAdminIntent w c i m nowMs s) := by
  unfold handleAdminIntent
  dsimp only
  split
  · exact kept_sendNackTracked ha.kept i _ nowMs
  · split
    · exact kept_adminEvict ha
    · split
      · exact kept_adminApprove ha
      · split
        · exact kept_adminDeny ha
        · split
          · exact kept_adminRevoke ha
          · exact kept_sendNackTracked ha.kept i _ nowMs

/-- A delegated intent is accepted once the host has applied it. -/
theorem kept_delegateIntent {mapped : Option UInt8} (ha : Awaits i m s) (hready : (s.session i).ready = true)
    (howns : ownsMapped s.hub i mapped = true) : Kept (delegateIntent w c i m mapped nowMs s) := by
  unfold delegateIntent
  dsimp only
  have hasked : ∀ res (env : ε), Awaits i m { s.log (.applyIntent i m.channelId m.value mapped res) with env } := by
    intro res env
    have hact : Does c nowMs (some i) Label.Aside s { s.log (.applyIntent i m.channelId m.value mapped res) with env } :=
      Does.act (l := .apply i) trivial (Act.apply i _ rfl hready ⟨hready, howns⟩)
    exact ha.aside hact ((Writes.log (.applyIntent i m.channelId m.value mapped res) trivial s).trans (.same rfl))
  split
  · exact kept_sendNackTracked (hasked _ _).kept i _ nowMs
  · have happlied : ∀ (t : Sys ε) (b : Bool), Does c nowMs none Label.Applies t (noteApplied w c i m mapped.isSome b nowMs t) :=
      fun t b => noteApplied_does i m _ b nowMs t
    exact ((hasked _ _).aside ((happlied _ _).mono fun _ h => h.aside)
      (writes_noteApplied (fun _ _ => trivial) i m _ _ nowMs _)).accept _ nowMs

/-- The apply step keeps the record. -/
theorem kept_applyIntent (ha : Awaits i m s) (hactive : Active s.view i) (hready : (s.session i).ready = true) :
    Kept (applyIntent w c i m nowMs s) := by
  unfold applyIntent
  generalize w.sourceForChannel m.channelId s.env = r
  obtain ⟨mapped, env⟩ := r
  dsimp only
  have hmapped : Awaits i m { s with env } := ⟨ha.kept.same rfl rfl, ha.occupied, ha.unknown⟩
  split
  · exact kept_delegateIntent hmapped hready rfl
  · rename_i src
    have hacq : Does c nowMs (some i) (Label.Acquires i (m.takeover = true)) { s with env }
        (acquireForIntent w c i m src nowMs { s with env }).2 := acquireForIntent_does src nowMs hactive hready
    have hacquired := hmapped.aside (hacq.mono fun _ h => h.aside)
      (writes_acquireForIntent (fun _ _ => trivial) i trivial m src nowMs _)
    split
    · rename_i hok
      have hdrives := acquireForIntent_drives (s := { s with env }) hready hok
      exact kept_delegateIntent hacquired hdrives.ready (beq_iff_eq.mpr hdrives.owner)
    · exact hacquired.kept

/-- An intent that passed every check. -/
theorem kept_performIntent (ha : Awaits i m s) (hactive : Active s.view i) (hready : (s.session i).ready = true) :
    Kept (performIntent w c i m nowMs s) := by
  unfold performIntent
  split
  · exact kept_intentEstopClear ha
  · split
    · exact kept_intentEstop ha
    · split
      · exact kept_handleAdminIntent ha
      · exact kept_applyIntent ha hactive hready

theorem kept_sendNack (c : Config) (hk : Kept s) (hlink : (s.slot i).transport.isSome) (n : NackMsg) :
    Kept (sendNack w i n s) := by
  have hsend : Quietly c 0 none s (sendNack w i n s) :=
    ⟨(emits_sendNack n hlink).does trivial, writes_sendNack i trivial n s⟩
  exact hk.quietly hsend

/-- The check that the id is new, on which all the others rest, keeps the record. -/
theorem kept_admitIntent (hk : Kept s) (hactive : Active s.view i) (hlink : (s.slot i).transport.isSome) :
    Kept (admitIntent w c i m nowMs s) := by
  unfold admitIntent
  split
  · exact kept_sendNack c hk hlink _
  · rename_i hready
    rw [Bool.not_eq_true', Bool.not_eq_false] at hready
    split
    · rename_i cached _
      have hsend : Quietly c nowMs none s (sendFrameToTracked w c i .echo m.channelId cached nowMs 0 s).2 := by
        refine Quietly.of_aside ((sendFrameToTracked_does _ (by decide) (by decide)).mono fun _ h => h.aside) ?_
        exact writes_sendFrameToTracked (fun _ _ => trivial) i trivial (show FrameType.Bare .echo from trivial) _ _ _ _ _
      exact hk.quietly hsend
    · rename_i hnew
      split
      · exact kept_sendNack c hk hlink _
      · exact kept_performIntent ⟨hk, (occupied_view s i).mp hactive.occupied, hnew⟩ hactive hready

/-- `handleIntent` keeps it, a repetition and a frame that does not decode included. -/
theorem kept_handleIntent {msg : Option IntentMsg} (hk : Kept s) (hactive : Active s.view i)
    (hlink : (s.slot i).transport.isSome) : Kept (handleIntent w c i msg nowMs s) := by
  unfold handleIntent
  split
  · exact kept_sendNack c hk hlink _
  · rename_i m
    have hlim : (s.modSession i fun se =>
        { se with intentLimiter := ((s.session i).intentLimiter.allow nowMs).2 }).view = s.view := view_modSlot_of_slotView rfl
    have htrace : (s.modSession i fun se =>
        { se with intentLimiter := ((s.session i).intentLimiter.allow nowMs).2 }).trace = s.trace := rfl
    dsimp only
    generalize (s.modSession i fun se =>
      { se with intentLimiter := ((s.session i).intentLimiter.allow nowMs).2 }) = t at hlim htrace
    have hslot : slotView (t.hub.slots i) = slotView (s.hub.slots i) := congrFun (congrArg View.slots hlim) i
    have hlink' : (t.slot i).transport.isSome := by
      rw [show (t.slot i).transport = _ from congrArg SlotView.transport hslot]
      exact hlink
    have hkt : Kept t := hk.same hlim htrace
    split
    · exact kept_sendNack c hkt hlink' _
    · exact kept_admitIntent hkt (by rw [hlim]; exact hactive) hlink'

end

/-! ## Moves -/

/-- Only an INTENT frame accepts. -/
theorem accept_of_moveLabel {m : Move ε} {k : SlotIdx} (h : MoveLabel w c s m (.accept k)) :
    ∃ i seq msg, m = .frame i (.frame seq (.intent (some msg))) := by
  obtain ⟨i, seq, msg, rfl, hf⟩ := frame_of_moveLabel h trivial
  cases hf with
  | intent hl => exact ⟨i, seq, _, rfl⟩
  | sends hl => cases hl
  | hello _ hl | subscribe _ hl => exact (hl.elim id id).elim
  | reattach _ hl | stream hl | goodbye hl | pairReq hl | auth hl => exact hl.elim

theorem kept_heard (hk : Kept s) (i : SlotIdx) (seq : UInt16) : Kept (heard w s i seq) := by
  have hheard : Quietly ⟨[], ByteArr.zero 8, []⟩ s.hub.monoMs.ms (some i) s (heard w s i seq) :=
    ⟨(heard_does i seq s).mono fun l hl => by cases l <;> first | exact trivial | exact hl.elim,
      writes_heard (fun _ _ => trivial) i seq s⟩
  exact hk.quietly hheard

/-- Every move keeps the record. -/
theorem kept_move {m : Move ε} (hd : s.view.Distinct) (hok : m.Enabled s) (hk : Kept s) : Kept (move w c s m) := by
  by_cases hm : ∃ i seq msg, m = .frame i (.frame seq (.intent (some msg)))
  · obtain ⟨i, seq, msg, rfl⟩ := hm
    rw [move_frame]
    have hheard : Kept (heard w s i seq) := kept_heard hk i seq
    have hdone : Kept (dispatch w c i (.intent (some msg)) s.hub.monoMs.ms (heard w s i seq)) := by
      cases hocc : ((heard w s i seq).session i).occupied with
      | false =>
        rw [dispatch_free (m := .intent (some msg)) hocc fun _ h => by cases h]
        exact hheard
      | true =>
        have hlink : ((heard w s i seq).slot i).transport.isSome := by
          have hread := Path.frame (f := fun v => (v.slots i).transport) (heard_does (w := w) (c := c) i seq s)
            fun _ _ _ hl ha => reads_transport hl ha
          rw [show ((heard w s i seq).slot i).transport = _ from hread]
          exact hok
        unfold dispatch
        dsimp only
        rw [hocc]
        simp only [Bool.not_true, Bool.false_eq_true, if_false]
        exact kept_handleIntent hheard (awake_heard i seq s hocc) hlink
    generalize dispatch w c i (.intent (some msg)) s.hub.monoMs.ms (heard w s i seq) = t at hdone
    exact hdone.same (view_setDispatchSeq none t) rfl
  · have hdoes : Does c s.hub.monoMs.ms m.reading Label.Unaccepting s (move w c s m) :=
      (move_does hd hok).mono fun l hl => by
        cases l <;> first | exact trivial | exact hm (accept_of_moveLabel hl)
    exact hk.quietly ⟨hdoes, writes_move (fun _ _ => trivial) trivial (fun _ => trivial) (fun _ _ => id) hok⟩

theorem kept_boot (e : ε) : Kept (boot w c e) := by
  obtain ⟨r, hr⟩ := view_boot (w := w) (c := c) e
  have hnone : ∀ x ∈ (boot w c e).trace, acceptedOf x = none := List.filterMap_eq_nil_iff.mp (congrArg View.accepted hr)
  refine ⟨?_, ?_, fun x earlier hx sid id bytes ha => ?_, fun x tail hx sid id ha => ?_⟩
  · rw [hr]
    exact ⟨fun _ ho => absurd rfl ho.1, fun _ _ _ _ ho => absurd rfl ho.1⟩
  · rw [hr]
    exact fun _ _ _ ho => absurd rfl ho.1
  · have hmem := hnone x (hx.subset List.mem_cons_self)
    rw [ha.accepted] at hmem
    cases hmem
  · have hmem := hnone x (hx.subset List.mem_cons_self)
    rw [ha.accepted] at hmem
    cases hmem

/-- So it is right in every state of every run. -/
theorem reachBy_answers {G : Sys ε → Move ε → Prop} (h : ReachBy w c G s) : Kept s :=
  h.preserves kept_boot fun _ _ hok _ hd hk => kept_move hd hok hk

/-- What an INTENT gets whose id was answered: a refusal, or the ECHO once more. -/
def answerAgain (w : World ε) (c : Config) (i : SlotIdx) (m : IntentMsg) (bytes : Bytes) (nowMs : UInt32) (s : Sys ε) :
    Sys ε :=
  let (ok, intentLimiter) := (s.session i).intentLimiter.allow nowMs
  let s := s.modSession i fun se => { se with intentLimiter }
  if !ok then sendNack w i (nackIntent .rateLimited m) s
  else if !(s.session i).ready then sendNack w i (nackChannel .notReady m) s
  else (sendFrameToTracked w c i .echo m.channelId bytes nowMs 0 s).2

/-- An id the ring knows is answered from the ring. -/
theorem handleIntent_known {i : SlotIdx} {m : IntentMsg} {bytes : Bytes} (nowMs : UInt32)
    (h : (s.session i).intentRing.lookup m.intentId = some bytes) :
    handleIntent w c i (some m) nowMs s = answerAgain w c i m bytes nowMs s := by
  have hring : ((s.modSession i fun se =>
      { se with intentLimiter := ((s.session i).intentLimiter.allow nowMs).2 }).session i).intentRing.lookup m.intentId =
        some bytes := by
    rw [Sys.session, Sys.modSession, Sys.slot_modSlot_self]
    exact h
  unfold handleIntent answerAgain admitIntent
  dsimp only
  rw [hring]

/-- **An intent is accepted once.**  An id that was answered with an ECHO that the ring has room for is not accepted again
in its session before 32 more are, and until then every INTENT with this id gets the ECHO of the first. -/
theorem intents_once (h : ReachBy w c (fun _ _ => True) s) :
    (∀ x tail, x :: tail <:+ s.trace → Apart x tail) ∧
    ∀ x earlier sid id bytes, x :: earlier <:+ s.trace → AnsweredWith x sid id bytes → draws sid s.trace = 1 →
      acceptances sid s.trace < acceptances sid (x :: earlier) + Limits.idempotencyRingDepth →
      ∀ i, (s.session i).occupied = true → (s.session i).sessionId = sid → ∀ (m : IntentMsg) nowMs, m.intentId = id →
        handleIntent w c i (some m) nowMs s = answerAgain w c i m bytes nowMs s := by
  have hk := reachBy_answers h
  refine ⟨hk.apart, fun x earlier sid id bytes hx ha hdraws hcount i hocc hid m nowMs hm => ?_⟩
  have hrem := hk.remembered x earlier hx sid id bytes ha
  have hsince : acceptances sid (x :: earlier) ≤ acceptances sid s.trace := hrem.since
  obtain ⟨k', -, hholds⟩ := hrem.answered hdraws i ((occupied_view s i).mpr hocc) hid
    (acceptances sid s.trace - acceptances sid (x :: earlier)) (Nat.add_sub_cancel' hsince).symm (by omega)
  refine handleIntent_known nowMs ?_
  rw [hm]
  exact hholds.lookup

end

/-- The client steers twice with one id. -/
def Bench.repeated : List (Call Bench) :=
  Bench.piloted ++ [Bench.steer, Bench.reads 3000 0 [.intent (some { intentId := 1, channelId := 0x0100 })]]

/-- What was answered, in which session. -/
def answerOf : Hub × Io → Option (UInt32 × UInt16 × Bytes)
  | (h, .accepted i id (some bytes)) => some ((h.slots i).session.sessionId, id, bytes)
  | _ => none

/-- An answer found in the history comes from an intent accepted there. -/
theorem answeredWith_at {trace : List (Hub × Io)} {n : Nat} {sid : UInt32} {id : UInt16} {bytes : Bytes}
    (h : (trace.drop n).head?.bind answerOf = some (sid, id, bytes)) (hfits : bytes.length ≤ kRingSlotCapacity) :
    ∃ x earlier, trace.drop n = x :: earlier ∧ AnsweredWith x sid id bytes := by
  obtain ⟨x, hx, hans⟩ := Option.bind_eq_some_iff.mp h
  obtain ⟨earlier, hearlier⟩ := List.head?_eq_some_iff.mp hx
  refine ⟨x, earlier, hearlier, ?_⟩
  unfold answerOf at hans
  split at hans
  · cases hans
    exact ⟨_, _, rfl, rfl, hfits⟩
  · cases hans

/-- The second INTENT is not accepted again; a third would get the first ECHO. -/
theorem intents_once_repeated :
    acceptances 1 (run Bench.world Bench.config {} Bench.repeated).trace = 1 ∧
    handleIntent Bench.world Bench.config 0 (some { intentId := 1, channelId := 0x0100 }) 4
        (run Bench.world Bench.config {} Bench.repeated) =
      answerAgain Bench.world Bench.config 0 { intentId := 1, channelId := 0x0100 } [163, 9, 1, 18, 1, 19, 160] 4
        (run Bench.world Bench.config {} Bench.repeated) := by
  have hreach : Reachable Bench.world Bench.config (run Bench.world Bench.config {} Bench.repeated) :=
    ⟨{}, Bench.repeated, rfl⟩
  obtain ⟨x, earlier, hx, hans⟩ : ∃ x earlier,
      (run Bench.world Bench.config {} Bench.repeated).trace.drop 3 = x :: earlier ∧
        AnsweredWith x 1 1 [163, 9, 1, 18, 1, 19, 160] := answeredWith_at (by decide +kernel) (by decide)
  have hsuffix : x :: earlier <:+ (run Bench.world Bench.config {} Bench.repeated).trace := hx ▸ List.drop_suffix 3 _
  refine ⟨by decide +kernel, (intents_once (reachBy_of_reachable hreach)).2 x earlier 1 1 _ hsuffix hans
    (by decide +kernel) ?_ 0 (by decide +kernel) (by decide +kernel) _ 4 rfl⟩
  rw [← hx]
  decide +kernel
end SlopSync
