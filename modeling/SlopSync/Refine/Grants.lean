import SlopSync.Hub.Grants
import SlopSync.Refine.Lifecycle

/-! # Grants, as acts

A granted wish adds at most its own channel, which the session's role covers at that moment. -/

namespace SlopSync

open Keyed Labelled

/-- Slot `i` is granted channels. -/
def Label.Grants (i : SlotIdx) : Label → Prop
  | .chatter => True
  | .subs j | .pubs j => j = i
  | _ => False

section

variable {ε : Type} {w : World ε} {c : Config} {now : UInt32} {rx : Option SlotIdx} {P : Label → Prop}

/-- What a grant leaves alone: everything of a slot but its channels and its queue. -/
theorem grants_slot {i : SlotIdx} {l : Label} {v v' : View} (hl : l.Grants i) (h : Act c now rx l v v')
    (j : SlotIdx) :
    v'.slots j = { v.slots j with events := (v'.slots j).events, subs := (v'.slots j).subs, pubs := (v'.slots j).pubs } := by
  cases h with
  | chatter => rfl
  | subs k _ _ =>
    by_cases hj : j = k
    · subst hj
      simp
    · simp [View.slots_set_ne _ hj]
  | pubs k _ _ =>
    by_cases hj : j = k
    · subst hj
      simp
    · simp [View.slots_set_ne _ hj]
  | _ => exact hl.elim

theorem slot_of_grants {i : SlotIdx} {s s' : Sys ε} (h : Does c now rx (Label.Grants i) s s') (j : SlotIdx) :
    s'.view.slots j = { s.view.slots j with
      events := (s'.view.slots j).events, subs := (s'.view.slots j).subs, pubs := (s'.view.slots j).pubs } := by
  refine Path.invariant h (I := fun v => v.slots j = { s.view.slots j with
    events := (v.slots j).events, subs := (v.slots j).subs, pubs := (v.slots j).pubs }) ?_ rfl
  intro l v v' hl ha hv
  rw [grants_slot hl ha j, hv]

theorem le_of_not_lt {a b : AccessLevel} (h : ¬a < b) : b ≤ a := by
  rw [AccessLevel.lt_def] at h
  rw [AccessLevel.le_def]
  omega

/-! ## Subscriptions -/

theorem replayEventsOnGrant_does {i : SlotIdx} {ch : UInt16} {s : Sys ε} (hocc : (s.session i).occupied = true)
    (hsub : ch ∈ (s.view.slots i).subs) (hP : P .chatter) : Does c now rx P s (replayEventsOnGrant c i ch s) := by
  unfold replayEventsOnGrant
  split
  · exact Does.refl s
  · split
    · exact Does.refl s
    · refine (emits_replay _ ?_).does hP
      unfold subscribed
      rw [Bool.and_eq_true]
      exact ⟨hocc, (mem_subs_view s i ch).mp hsub⟩

theorem trySubscribe_does {i : SlotIdx} (wish : SubscriptionWish) {s : Sys ε}
    (hocc : (s.session i).occupied = true) : Does c now rx (Label.Grants i) s (trySubscribe c i wish s).2 := by
  unfold trySubscribe
  split
  · exact Does.refl s
  · rename_i entry hentry
    split
    · exact Does.refl s
    · split
      · exact Does.refl s
      · rename_i hrole
        dsimp only
        split
        · exact Does.refl s
        · rename_i subs hsubs
          obtain ⟨hin, hsub⟩ := SubscriptionTable.channels_upsert hsubs
          have hact : Does c now rx (Label.Grants i) s (s.modSession i fun se => { se with subs }) := by
            refine Does.act (l := .subs i) rfl ?_
            rw [Sys.modSession, view_modSlot]
            refine Act.subs i subs.channels fun ch hch => ?_
            rcases hsub ch hch with h | h
            · exact .inl h
            · subst h
              exact .inr ⟨entry, hentry, le_of_not_lt hrole⟩
          refine hact.trans (replayEventsOnGrant_does ?_ ?_ trivial)
          · rw [Sys.modSession, Sys.session, Sys.slot_modSlot_self]
            exact hocc
          · rw [Sys.modSession, view_modSlot, View.slots_set_self]
            exact hin

/-- The slot has a session and a transport. -/
structure Served (s : Sys ε) (i : SlotIdx) : Prop where
  occupied : (s.session i).occupied = true
  link : (s.slot i).transport.isSome

/-- The slot stays in use while it is granted channels. -/
theorem Served.of_grants {i j : SlotIdx} {s s' : Sys ε} (hs : Served s j) (h : Does c now rx (Label.Grants i) s s') :
    Served s' j := by
  have hslot := slot_of_grants h j
  refine ⟨?_, ?_⟩
  · rw [← occupied_view, hslot]
    exact (occupied_view s j).mpr hs.occupied
  · show (s'.view.slots j).transport.isSome
    rw [hslot]
    exact hs.link

theorem subscribeOne_does {i : SlotIdx} (wish : SubscriptionWish) (acc : List Grant × Sys ε)
    (hs : Served acc.2 i) : Does c now rx (Label.Grants i) acc.2 (subscribeOne w c i acc wish).2 := by
  have h : Does c now rx (Label.Grants i) acc.2 (trySubscribe c i wish acc.2).2 := trySubscribe_does wish hs.occupied
  unfold subscribeOne
  split
  · rename_i hres
    rw [hres] at h
    exact h.trans ((emits_sendNack _ (hs.of_grants h).link).does trivial)
  · rename_i hres
    rw [hres] at h
    exact h

/-- A fold over wishes, each granted while the slot is in use. -/
theorem foldl_grants_does {α β : Type} {i : SlotIdx} {f : α × Sys ε → β → α × Sys ε}
    (hf : ∀ acc b, Served acc.2 i → Does c now rx (Label.Grants i) acc.2 (f acc b).2) :
    ∀ (l : List β) (acc : α × Sys ε), Served acc.2 i → Does c now rx (Label.Grants i) acc.2 (l.foldl f acc).2
  | [], acc, _ => Does.refl acc.2
  | b :: l, acc, hs => (hf acc b hs).trans (foldl_grants_does hf l (f acc b) (hs.of_grants (hf acc b hs)))

theorem handleSubscribe_does {i : SlotIdx} (msg : Except DecodeError (List SubscriptionWish)) {s : Sys ε}
    (hs : Served s i) : Does c now rx (Label.Grants i) s (handleSubscribe w c i msg s) := by
  unfold handleSubscribe
  split
  · exact (emits_sendNack _ hs.link).does trivial
  · rename_i wishes
    dsimp only
    have h : Does c now rx (Label.Grants i) s (wishes.foldl (subscribeOne w c i) ([], s)).2 :=
      foldl_grants_does (fun acc b => subscribeOne_does b acc) wishes ([], s) hs
    split
    · exact h
    · exact h.trans ((emits_sendEncoded _ (hs.of_grants h).link (by decide) (by decide)).does trivial)

theorem mem_removeAll {x : UInt16} : ∀ (chs : List UInt16) (t : SubscriptionTable),
    x ∈ (chs.foldl SubscriptionTable.remove t).channels → x ∈ t.channels
  | [], _, h => h
  | ch :: chs, t, h => SubscriptionTable.channels_remove (mem_removeAll chs (t.remove ch) h)

theorem handleUnsubscribe_does (i : SlotIdx) (msg : Option (List UInt16)) (s : Sys ε) :
    Does c now rx (Label.Grants i) s (handleUnsubscribe i msg s) := by
  unfold handleUnsubscribe
  split
  · exact Does.refl s
  · rename_i chs
    refine Does.act (l := .subs i) rfl ?_
    rw [Sys.modSession, view_modSlot]
    exact Act.subs i (chs.foldl SubscriptionTable.remove (s.session i).subs).channels
      fun ch hch => .inl (mem_removeAll chs _ hch)

/-! ## Publishes -/

theorem view_effectiveFamily (ch : UInt16) (family : Option UInt8) (s : Sys ε) :
    (effectiveFamily w ch family s).2.hub = s.hub ∧ (effectiveFamily w ch family s).2.view = s.view := by
  unfold effectiveFamily
  split
  · exact ⟨rfl, rfl⟩
  · exact ⟨rfl, rfl⟩

theorem grantPublishWish_does {i : SlotIdx} (wish : PublishWish) (nowMs : UInt32) (s : Sys ε) :
    Does c now rx (Label.Grants i) s (grantPublishWish w c i wish nowMs s).2 := by
  unfold grantPublishWish
  split
  · exact Does.refl s
  · rename_i entry hentry
    split
    · exact Does.refl s
    · rename_i hok
      dsimp only
      split
      · exact Does.refl s
      · obtain ⟨hhub, hview⟩ := view_effectiveFamily (w := w) wish.channelId wish.curveFamily s
        generalize effectiveFamily w wish.channelId wish.curveFamily s = r at hhub hview
        obtain ⟨family, s₁⟩ := r
        dsimp only at hhub hview ⊢
        split
        · exact Does.of_view hview
        · rename_i se hse
          obtain ⟨heq, hch⟩ := HubSession.addPublishGrant_some hse
          refine (Does.of_view hview).trans (Does.act (l := .pubs i) rfl ?_)
          rw [Sys.modSession, view_modSlot, heq]
          refine Act.pubs i se.publishGrants.channels fun ch hmem => ?_
          rcases hch ch hmem with h | h
          · exact .inl h
          · subst h
            rw [not_or, not_or, not_not, not_not] at hok
            refine .inr ⟨entry, hentry, ?_, hok.1, hok.2.1⟩
            have hrole : (s₁.view.slots i).role = (s.session i).role := by rw [hview]; rfl
            rw [hrole]
            exact le_of_not_lt hok.2.2

theorem publishOne_does {i : SlotIdx} (nowMs : UInt32) (wish : PublishWish) (acc : List GrantedPublish × Sys ε) :
    Does c now rx (Label.Grants i) acc.2 (publishOne w c i nowMs acc wish).2 := by
  have h : Does c now rx (Label.Grants i) acc.2 (grantPublishWish w c i wish nowMs acc.2).2 :=
    grantPublishWish_does wish nowMs acc.2
  unfold publishOne
  dsimp only
  split <;> exact h

/-- PUBLISH may also find the link stalled. -/
def Label.GrantsOrParks (i : SlotIdx) (l : Label) : Prop := l.Grants i ∨ l.Parks i

theorem handlePublish_does {i : SlotIdx} (msg : Option (List PublishWish)) (nowMs : UInt32) {s : Sys ε}
    (hs : Served s i) : Does c now rx (Label.GrantsOrParks i) s (handlePublish w c i msg nowMs s) := by
  unfold handlePublish
  split
  · exact (sendNackTracked_does i _ nowMs s).mono fun _ => .inr
  · rename_i wishes
    have h : Does c now rx (Label.Grants i) s (wishes.foldl (publishOne w c i nowMs) ([], s)).2 :=
      foldl_grants_does (fun acc b _ => publishOne_does nowMs b acc) wishes ([], s) hs
    exact (h.mono fun _ => .inl).trans
      ((sendEncodedTracked_does i _ nowMs _ (by decide) (by decide)).mono fun _ => .inr)

theorem handleCatalogReady_does (i : SlotIdx) (etag : Option Etag) (s : Sys ε) :
    Does c now rx (· = .ready i) s (handleCatalogReady c i etag s) := by
  unfold handleCatalogReady
  split
  · exact Does.refl s
  · refine Does.act rfl ?_
    rw [Sys.modSession, view_modSlot]
    exact Act.ready i

end

end SlopSync
