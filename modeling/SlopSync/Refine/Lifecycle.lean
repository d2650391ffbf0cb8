import SlopSync.Hub.View

/-! # How sessions end, as acts

Each operation of `Hub/Lifecycle.lean` is a run of acts.  `Label.Parks i` are the acts of a link that is let go:
slot `i` may go stale and lose its transport, but no session ends; `Label.Ends i` adds the end of slot `i`'s
session. -/

namespace SlopSync

open Keyed Labelled

/-- Nothing is retained on the two channels whose snapshots the hub keeps in step itself. -/
def Plain (ch : UInt16) : Prop := ch ≠ Channels.safety ∧ ch ≠ Channels.controlOwner

/-- Frames and snapshots go out; knocks may be dropped. -/
def Label.Tells : Label → Prop
  | .chatter | .knocks => True
  | .retain ch => Plain ch
  | _ => False

def Label.Parks (i : SlotIdx) : Label → Prop
  | .stale j | .detach j => j = i
  | .release j reason => j = i ∧ reason = 4
  | l => l.Tells

def Label.Ends (i : SlotIdx) : Label → Prop
  | .free j => j = i
  | .release j reason => j = i ∧ reason = 4
  | l => l.Tells

/-- Telling the sessions is within what parking may do. -/
theorem Label.Tells.parks {l : Label} (h : l.Tells) (i : SlotIdx) : l.Parks i := by
  cases l <;> first | exact h | exact h.elim

theorem Label.Tells.ends {l : Label} (h : l.Tells) (i : SlotIdx) : l.Ends i := by
  cases l <;> first | exact h | exact h.elim

section

variable {ε : Type} {w : World ε} {c : Config} {now : UInt32} {rx : Option SlotIdx} {P : Label → Prop}

/-! ## Frames -/

/-- Telling changes no slot but its queue, no owner and no part of the latch. -/
theorem tells_owner {l : Label} {v v' : View} (hl : l.Tells) (h : Act c now rx l v v') : v'.owner = v.owner := by
  cases h <;> first | rfl | exact hl.elim

/-- Telling a session changes its event queue only. -/
theorem tells_slot {l : Label} {v v' : View} (hl : l.Tells) (h : Act c now rx l v v') (i : SlotIdx) :
    v'.slots i = { v.slots i with events := (v'.slots i).events } := by
  cases h <;> first | rfl | exact hl.elim

/-- So a slot that was told of things is the slot it was, its events apart. -/
theorem slot_of_tells {s s' : Sys ε} (h : Does c now rx Label.Tells s s') (i : SlotIdx) :
    s'.view.slots i = { s.view.slots i with events := (s'.view.slots i).events } := by
  refine Path.invariant h (I := fun v => v.slots i = { s.view.slots i with events := (v.slots i).events }) ?_ rfl
  intro l v v' hl ha hv
  rw [tells_slot hl ha i, hv]

/-- Telling gives nobody a source. -/
theorem Unowned.tells {s s' : Sys ε} (h : Does c now rx Label.Tells s s') {i : SlotIdx} (hu : s.view.Unowned i) :
    s'.view.Unowned i := by
  refine Path.invariant h (I := fun v => v.Unowned i) ?_ hu
  intro l v v' hl ha hv src
  rw [tells_owner hl ha, tells_slot hl ha i]
  exact hv src

/-! ## Snapshots -/

/-- Retaining changes the retained payloads only. -/
theorem view_retain (ch : UInt16) (payload : Bytes) (s : Sys ε) :
    (retain ch payload s).view = { s.view with retained := publishOr s.view.retained ch payload } := by
  unfold retain
  split
  · rename_i h
    refine View.ext rfl rfl ?_ rfl rfl rfl rfl rfl rfl rfl rfl rfl rfl rfl rfl
    show s.hub.retained = ((s.hub.retained.publish ch payload).map Prod.fst).getD s.hub.retained
    rw [h]
    rfl
  · rename_i h
    refine View.ext rfl rfl ?_ rfl rfl rfl rfl rfl rfl rfl rfl rfl rfl rfl rfl
    show _ = ((s.hub.retained.publish ch payload).map Prod.fst).getD s.hub.retained
    rw [h]
    rfl

theorem retain_does {ch : UInt16} {payload : Bytes} (s : Sys ε) (hP : P (.retain ch)) :
    Does c now rx P s (retain ch payload s) := by
  refine Does.act hP ?_
  rw [view_retain]
  exact Act.retain ch payload

/-- The list of pending knocks is announced. -/
theorem publishPendingPairingState_does (nowMs : UInt32) (s : Sys ε) :
    Does c now rx Label.Tells s (publishPendingPairingState c nowMs s) := by
  unfold publishPendingPairingState
  split
  · exact Does.refl s
  · exact retain_does s (by simp only [Label.Tells, Plain]; decide)

/-- The roster is announced. -/
theorem publishPairedRosterState_does (s : Sys ε) : Does c now rx Label.Tells s (publishPairedRosterState c s) := by
  unfold publishPairedRosterState
  split
  · exact Does.refl s
  · exact retain_does s (by simp only [Label.Tells, Plain]; decide)

/-- The owners are announced, where their channel is declared. -/
theorem view_publishControlOwner (s : Sys ε) :
    (publishControlOwnerStateIfPresent c s).view =
      { s.view with retained := snapshotOwners c s.view.retained s.view.owner } := by
  unfold publishControlOwnerStateIfPresent snapshotOwners
  split
  · rfl
  · exact view_retain _ _ s

/-! ## Source ownership -/

/-- Releasing a source leaves it without owner. -/
theorem view_releaseOne (reason : UInt8) (s : Sys ε) (a : UInt8) : (releaseOne w reason s a).view =
    { s.view with owner := fun src => if src = a then 0 else s.view.owner src
                  ownerRole := fun src => if src = a then .watch else s.view.ownerRole src
                  told := ⟨a, 0, reason, .watch, s.view.slots⟩ :: s.view.told } := by
  have hrole : (s.hub.ownership.update a 0 .watch).ownerRoleOf a = .watch := by
    rw [SourceOwnershipTable.ownerRoleOf_update_watch, if_pos rfl]
  refine View.ext rfl ?_ rfl rfl rfl rfl rfl rfl rfl rfl rfl ?_ ?_ rfl rfl
  · funext src
    exact SourceOwnershipTable.ownerOf_update_zero s.hub.ownership a src .watch
  · funext src
    exact SourceOwnershipTable.ownerRoleOf_update_watch s.hub.ownership a src 0
  · show (⟨a, 0, reason, (s.hub.ownership.update a 0 .watch).ownerRoleOf a, s.view.slots⟩ : Told) :: s.view.told = _
    rw [hrole]

/-- Releasing a list of them frees each of them; the induction is on the list. -/
theorem view_releaseFold (reason : UInt8) : ∀ (l : List UInt8) (s : Sys ε),
    (l.foldl (releaseOne w reason) s).view =
      { s.view with owner := fun src => if src ∈ l then 0 else s.view.owner src
                    ownerRole := fun src => if src ∈ l then .watch else s.view.ownerRole src
                    told := l.reverse.map (fun src => ⟨src, 0, reason, .watch, s.view.slots⟩) ++ s.view.told }
  | [], s => by simp
  | a :: l, s => by
    rw [List.foldl_cons, view_releaseFold reason l, view_releaseOne]
    refine View.ext rfl ?_ rfl rfl rfl rfl rfl rfl rfl rfl rfl ?_ ?_ rfl rfl
    · funext src
      by_cases h1 : src ∈ l <;> by_cases h2 : src = a <;> simp [h1, h2]
    · funext src
      by_cases h1 : src ∈ l <;> by_cases h2 : src = a <;> simp [h1, h2]
    · simp

/-- Releasing everything in the list of owned sources clears exactly the owner `sid`. -/
theorem clearedOf_ownedBy (t : SourceOwnershipTable) (sid : UInt32) :
    (fun src => if src ∈ t.ownedBy sid then 0 else t.ownerOf src) = clearedOf t.ownerOf sid := by
  funext src
  unfold clearedOf
  by_cases hm : src ∈ t.ownedBy sid
  · rw [if_pos hm, if_pos (SourceOwnershipTable.ownerOf_of_mem_ownedBy hm)]
  · rw [if_neg hm]
    split
    · rename_i ho
      by_cases h0 : sid = 0
      · rw [ho, h0]
      · exact absurd ((SourceOwnershipTable.mem_ownedBy h0).mpr ho) hm
    · rfl

/-- Releasing a session's sources frees those it owns and no others. -/
theorem releaseSessionSources_view (sid : UInt32) (reason : UInt8) (s : Sys ε) :
    ∃ retained, (releaseSessionSources w c sid reason s).view =
        { s.view with
          owner := clearedOf s.view.owner sid, retained
          ownerRole := fun src =>
            if src ∈ (s.hub.ownership.ownedBy sid).reverse then .watch else s.view.ownerRole src
          told := (s.hub.ownership.ownedBy sid).reverse.map (fun src => ⟨src, 0, reason, .watch, s.view.slots⟩) ++
            s.view.told } ∧
      (retained = snapshotOwners c s.view.retained (clearedOf s.view.owner sid) ∨
        (retained = s.view.retained ∧ clearedOf s.view.owner sid = s.view.owner)) := by
  have hclear := clearedOf_ownedBy s.hub.ownership sid
  unfold releaseSessionSources
  dsimp only
  split
  · rename_i hnil
    rw [List.isEmpty_iff] at hnil
    have hid : clearedOf s.view.owner sid = s.view.owner := by
      show clearedOf s.hub.ownership.ownerOf sid = s.hub.ownership.ownerOf
      rw [← hclear, hnil]
      simp
    refine ⟨s.view.retained, ?_, .inr ⟨rfl, hid⟩⟩
    rw [hnil]
    exact View.ext rfl hid.symm rfl rfl rfl rfl rfl rfl rfl rfl rfl rfl rfl rfl rfl
  · refine ⟨_, ?_, .inl rfl⟩
    rw [view_publishControlOwner, view_releaseFold]
    have hown : (fun src => if src ∈ s.hub.ownership.ownedBy sid then 0 else s.view.owner src) =
        clearedOf s.view.owner sid := hclear
    rw [hown]
    simp only [List.mem_reverse]

/-- In one act, with the reason given. -/
theorem releaseSessionSources_does {i : SlotIdx} (reason : UInt8) {s : Sys ε} (hP : P (.release i reason))
    (hocc : (s.session i).occupied = true) :
    Does c now rx P s (releaseSessionSources w c (s.session i).sessionId reason s) := by
  obtain ⟨retained, hv, h⟩ := releaseSessionSources_view (w := w) (c := c) (s.session i).sessionId reason s
  refine Does.act hP ?_
  rw [hv]
  refine Act.release i reason _ retained ((occupied_view s i).mpr hocc) ?_ ?_ ?_ h
  · exact List.nodup_reverse.mpr (SourceOwnershipTable.nodup_ownedBy _ _)
  · exact fun src hsrc => SourceOwnershipTable.ownerOf_of_mem_ownedBy (List.mem_reverse.mp hsrc)
  · exact fun h0 src hsrc => List.mem_reverse.mpr ((SourceOwnershipTable.mem_ownedBy h0).mpr hsrc)

/-- After the release the session owns nothing. -/
theorem unowned_releaseSessionSources (reason : UInt8) (s : Sys ε) (i : SlotIdx) :
    (releaseSessionSources w c (s.session i).sessionId reason s).view.Unowned i := by
  obtain ⟨retained, hv, _⟩ := releaseSessionSources_view (w := w) (c := c) (s.session i).sessionId reason s
  intro src
  rw [hv]
  show clearedOf s.view.owner (s.session i).sessionId src ≠ 0 →
    clearedOf s.view.owner (s.session i).sessionId src ≠ (s.session i).sessionId
  unfold clearedOf
  split
  · intro h
    exact absurd rfl h
  · rename_i h
    exact fun _ => h

/-! ## Ending a session -/

/-- A dropped knock was there, and no other is new. -/
theorem mem_drop {l : PendingPairingList} {p : PendingKnock → Bool} {k : PendingKnock} (h : some k ∈ (l.drop p).slots) :
    some k ∈ l.slots := by
  obtain ⟨o, ho, hk⟩ := List.mem_map.mp h
  split at hk
  · cases hk
  · exact hk ▸ ho

/-- Dropping a knock tells its session. -/
theorem dropKnock_does (nowMs : UInt32) (s : Sys ε) (k : PendingKnock) :
    Does c now rx Label.Tells s (dropKnock w c nowMs s k) :=
  ((emits_emitPairingEvent c _ _ _ _ _ _ nowMs s).does trivial).trans
    (Does.act (l := .knocks) trivial (Act.knocks _ fun _ => mem_drop))

/-- Dropping all of a session's knocks tells it of each. -/
theorem dropKnocksOf_does (sid nowMs : UInt32) (s : Sys ε) :
    Does c now rx Label.Tells s (dropKnocksOf w c sid nowMs s) := by
  unfold dropKnocksOf
  dsimp only
  split
  · exact Does.refl s
  · exact (Does.foldl (dropKnock_does nowMs) _ s).trans (publishPendingPairingState_does nowMs _)

/-- The note is not about a source. -/
def Note.Quiet : Note → Prop
  | .onSourceOwnership .. => False
  | _ => True

theorem view_notify (n : Note) (s : Sys ε) (hn : n.Quiet) : (notify w n s).view = s.view := by
  cases n <;> first | exact hn.elim | rfl

theorem slotView_resetSlot (sl : Slot) : slotView (resetSlot sl) = (slotView sl).cleared := rfl

/-- Tearing a session down releases its sources, drops its knocks and frees its slot. -/
theorem teardownSession_does (i : SlotIdx) (nowMs : UInt32) (s : Sys ε) :
    Does c now rx (Label.Ends i) s (teardownSession w c i nowMs s) := by
  unfold teardownSession
  dsimp only
  have hfree : ∀ t : Sys ε, ((t.view.slots i).occupied → t.view.Unowned i) →
      Does c now rx (Label.Ends i) t (t.modSlot i resetSlot) := by
    intro t ht
    refine Does.act (l := .free i) rfl ?_
    rw [view_modSlot, slotView_resetSlot]
    exact Act.free i ht
  split
  · rename_i hocc
    -- release, drop the knocks, then the slot is free to be reset
    have hrel : Does c now rx (Label.Ends i) s (releaseSessionSources w c (s.session i).sessionId 4 s) :=
      releaseSessionSources_does 4 ⟨rfl, rfl⟩ hocc
    have hdrop : Does c now rx Label.Tells _ (dropKnocksOf w c (s.session i).sessionId nowMs
        (releaseSessionSources w c (s.session i).sessionId 4 s)) := dropKnocksOf_does _ _ _
    have hun := Unowned.tells hdrop (unowned_releaseSessionSources 4 s i)
    have hleft : ∀ t : Sys ε, Does c now rx (Label.Ends i) t (notify w (.onSessionLeft (s.session i).sessionId) t) :=
      fun t => Does.of_view (view_notify _ t trivial)
    refine ((hrel.trans (hdrop.mono fun l hl => hl.ends i)).trans (hleft _)).trans (hfree _ fun _ => ?_)
    rw [view_notify (.onSessionLeft _) _ trivial]
    exact hun
  · rename_i hocc
    exact hfree s fun h => absurd ((occupied_view s i).mp h) hocc

/-- What a teardown leaves in the slot, and in every other one. -/
theorem slots_teardownSession (i : SlotIdx) (nowMs : UInt32) (s : Sys ε) (j : SlotIdx) :
    (teardownSession w c i nowMs s).view.slots j =
      if j = i then (s.view.slots i).cleared
      else { s.view.slots j with events := ((teardownSession w c i nowMs s).view.slots j).events } := by
  have hkeep : ∃ t : Sys ε, teardownSession w c i nowMs s = t.modSlot i resetSlot ∧
      ∀ j, t.view.slots j = { s.view.slots j with events := (t.view.slots j).events } := by
    unfold teardownSession
    dsimp only
    split
    · refine ⟨_, rfl, fun j => ?_⟩
      obtain ⟨_, hv, _⟩ := releaseSessionSources_view (w := w) (c := c) (s.session i).sessionId 4 s
      have hdrop : Does c nowMs none Label.Tells _ (dropKnocksOf w c (s.session i).sessionId nowMs
          (releaseSessionSources w c (s.session i).sessionId 4 s)) := dropKnocksOf_does _ _ _
      have := slot_of_tells hdrop j
      rw [hv] at this
      exact this
    · exact ⟨s.log (.seated i none), rfl, fun _ => rfl⟩
  obtain ⟨t, ht, hj⟩ := hkeep
  rw [ht, view_modSlot]
  by_cases h : j = i
  · subst h
    rw [if_pos rfl, View.slots_set_self, slotView_resetSlot]
    show (t.view.slots j).cleared = _
    rw [hj j]
    rfl
  · rw [if_neg h, View.slots_set_ne _ h]
    exact hj j

/-! ## Stale sessions -/

theorem slotView_stale (nowMs : UInt32) (sl : Slot) :
    slotView { sl with session := { sl.session with state := .stale, staleSinceMs := nowMs } } =
      { slotView sl with state := .stale } := rfl

/-- Slot `i` goes stale; its sources are released for this reason. -/
def Label.Suspends (i : SlotIdx) (reason : UInt8) : Label → Prop
  | .stale j => j = i
  | .release j r => j = i ∧ r = reason
  | .chatter => True
  | _ => False

theorem Label.Suspends.parks {l : Label} {i : SlotIdx} (h : l.Suspends i 4) : l.Parks i := by
  cases l <;> first | exact h | exact h.elim

/-- A session is marked STALE: its sources are released for the reason given and its link is kept. -/
theorem markStale_does {i : SlotIdx} (nowMs : UInt32) (reason : UInt8) {s : Sys ε}
    (hocc : (s.session i).occupied = true) : Does c now rx (Label.Suspends i reason) s (markStale w c i nowMs reason s) := by
  unfold markStale
  dsimp only
  have hrel : Does c now rx (Label.Suspends i reason) s (releaseSessionSources w c (s.session i).sessionId reason s) :=
    releaseSessionSources_does reason ⟨rfl, rfl⟩ hocc
  have hun := unowned_releaseSessionSources (w := w) (c := c) reason s i
  obtain ⟨retained, hv, _⟩ := releaseSessionSources_view (w := w) (c := c) (s.session i).sessionId reason s
  have hocc' : ((releaseSessionSources w c (s.session i).sessionId reason s).view.slots i).occupied := by
    rw [hv]
    exact (occupied_view s i).mpr hocc
  refine (hrel.trans (Does.act (l := .stale i) rfl ?_)).trans
    ((emits_emitSessionEvent _ _ _ _).does trivial)
  rw [Sys.modSession, view_modSlot, slotView_stale]
  exact Act.stale i hocc' hun

/-- It is STALE then. -/
theorem state_markStale (i : SlotIdx) (nowMs : UInt32) (reason : UInt8) (s : Sys ε) :
    ((markStale w c i nowMs reason s).view.slots i).state = .stale := by
  unfold markStale
  dsimp only
  have h := (emits_emitSessionEvent (w := w) SessionEventKinds.sessionStale (s.session i).sessionId nowMs
    ((releaseSessionSources w c (s.session i).sessionId reason s).modSession i fun se =>
      { se with state := .stale, staleSinceMs := nowMs })).slot i
  show (slotView _).state = _
  rw [h, Sys.modSession, Sys.slot_modSlot_self]
  rfl


/-! ## Letting go of a transport -/

/-- Closing a slot detaches its transport. -/
theorem view_closeSlot (i : SlotIdx) (s : Sys ε) :
    (closeSlot w i s).view = s.view.set i { s.view.slots i with transport := none } := by
  unfold closeSlot
  split
  · rename_i h
    have hs : s.view.slots i = { s.view.slots i with transport := none } := by
      show slotView (s.hub.slots i) = { slotView (s.hub.slots i) with transport := none }
      simp only [slotView, h]
    rw [← hs]
    exact View.ext (Function.update_eq_self i _).symm rfl rfl rfl rfl rfl rfl rfl rfl rfl rfl rfl rfl rfl rfl
  · rw [view_modSlot]
    rfl

theorem closeSlot_does {i : SlotIdx} {s : Sys ε} (hP : P (.detach i))
    (h : (s.view.slots i).occupied → (s.view.slots i).state = .stale) : Does c now rx P s (closeSlot w i s) := by
  refine Does.act hP ?_
  rw [view_closeSlot]
  exact Act.detach i h

/-- The view does not show the extras of a link. -/
theorem view_parkExtras (i : SlotIdx) (s : Sys ε) :
    ((dropBlob i s).modSlot i parkExtras).view = s.view := by
  rw [view_modSlot_of_slotView rfl]
  unfold dropBlob
  split <;> rfl

/-- A stalled link is parked: the session STALE, the transport closed. -/
theorem parkAndDetach_does (i : SlotIdx) (nowMs : UInt32) (s : Sys ε) :
    Does c now rx (Label.Parks i) s (parkAndDetach w c i nowMs s) := by
  unfold parkAndDetach
  dsimp only
  have hclose : ∀ t : Sys ε, Does c now rx (Label.Parks i) s t →
      ((t.view.slots i).occupied → (t.view.slots i).state = .stale) →
      Does c now rx (Label.Parks i) s
        ((closeSlot w i t).modSlot i fun sl => { sl with congestionLevel := 0, criticalStallSince := none }) := by
    intro t hst ht
    exact (hst.trans (closeSlot_does (P := Label.Parks i) rfl ht)).trans (Does.of_view (view_modSlot_of_slotView rfl))
  split
  · rename_i h
    rw [Bool.and_eq_true] at h
    have hmark : Does c now rx (Label.Parks i) s (markStale w c i nowMs 4 s) :=
      (markStale_does nowMs 4 h.1).mono fun _ hl => hl.parks
    have hdrop : Does c now rx Label.Tells (markStale w c i nowMs 4 s)
        (dropKnocksOf w c ((markStale w c i nowMs 4 s).session i).sessionId nowMs (markStale w c i nowMs 4 s)) :=
      dropKnocksOf_does _ _ _
    have hstate := (congrArg SlotView.state (slot_of_tells hdrop i)).trans (state_markStale i nowMs 4 s)
    have hextras := view_parkExtras i (dropKnocksOf w c ((markStale w c i nowMs 4 s).session i).sessionId nowMs
      (markStale w c i nowMs 4 s))
    refine hclose _ ((hmark.trans (hdrop.mono fun l hl => hl.parks i)).trans (Does.of_view hextras)) ?_
    rw [hextras]
    exact fun _ => hstate
  · rename_i h
    refine hclose s (Does.refl s) fun hocc => ?_
    rw [Bool.and_eq_true, not_and] at h
    have hst : (s.session i).state = .stale := by simpa using h ((occupied_view s i).mp hocc)
    exact hst

/-- A critical send that fails for too long parks the link; one that succeeds clears the stamp. -/
theorem trackCriticalSend_does (i : SlotIdx) (ok : Bool) (nowMs : UInt32) (s : Sys ε) :
    Does c now rx (Label.Parks i) s (trackCriticalSend w c i ok nowMs s) := by
  unfold trackCriticalSend
  dsimp only
  split
  · exact Does.of_view (view_modSlot_of_slotView rfl)
  · split
    · exact Does.of_view (view_modSlot_of_slotView rfl)
    · split
      · exact parkAndDetach_does i nowMs s
      · exact Does.refl s

theorem isSome_of_not_isNone {α : Type} {o : Option α} (h : ¬o.isNone = true) : o.isSome = true :=
  Option.isSome_iff_ne_none.mpr fun hn => h (Option.isNone_iff_eq_none.mpr hn)

/-- A tracked send may park the session it was meant for. -/
theorem sendFrameToTracked_does {i : SlotIdx} {type : FrameType} {ch : UInt16} {payload : Bytes} {nowMs : UInt32}
    {seq : UInt16} (s : Sys ε) (hst : type ≠ .state) (hev : type ≠ .event) :
    Does c now rx (Label.Parks i) s (sendFrameToTracked w c i type ch payload nowMs seq s).2 := by
  unfold sendFrameToTracked
  split
  · exact Does.refl s
  · rename_i hlink
    exact ((emits_sendFrameTo (isSome_of_not_isNone hlink) hst hev).does trivial).trans
      (trackCriticalSend_does i _ nowMs _)

theorem sendNackTracked_does (i : SlotIdx) (n : NackMsg) (nowMs : UInt32) (s : Sys ε) :
    Does c now rx (Label.Parks i) s (sendNackTracked w c i n nowMs s) := by
  unfold sendNackTracked
  split
  · exact Does.refl s
  · rename_i hlink
    split
    · exact trackCriticalSend_does i false nowMs s
    · exact ((emits_sendFrameTo (isSome_of_not_isNone hlink) (by decide) (by decide)).does trivial).trans
        (trackCriticalSend_does i _ nowMs _)

/-- A tracked send of an encoded message may park the session it was meant for. -/
theorem sendEncodedTracked_does (i : SlotIdx) {type : FrameType} (payload : Option Bytes) (nowMs : UInt32) (s : Sys ε)
    (hst : type ≠ .state) (hev : type ≠ .event) :
    Does c now rx (Label.Parks i) s (sendEncodedTracked w c i type payload nowMs s) := by
  unfold sendEncodedTracked
  split
  · exact Does.refl s
  · exact sendFrameToTracked_does s hst hev

/-! ## Liveness pumps -/

theorem occupied_of_live {s : Sys ε} {i : SlotIdx} (h : (s.session i).state = .live) :
    (s.session i).occupied = true := by
  rw [HubSession.occupied_iff, h]
  decide

/-- The session of slot `i` drives one of the sources 0 to 3 and was silent for its deadman window. -/
structure DeadmanDue (s : Sys ε) (i : SlotIdx) (nowMs : UInt32) : Prop where
  live : (s.session i).state = .live
  drives : ownsLow s.hub (s.session i).sessionId = true
  silent : timeReached nowMs ((s.session i).lastRxMs + (s.session i).deadmanMs) = true

/-- The session of slot `i` drives none of them and was silent for the idle window. -/
structure IdleDue (s : Sys ε) (i : SlotIdx) (nowMs : UInt32) : Prop where
  live : (s.session i).state = .live
  idle : ownsLow s.hub (s.session i).sessionId = false
  silent : timeReached nowMs ((s.session i).lastRxMs + kIdleReapMs) = true

/-- The session of slot `i` did not adopt the catalog in time. -/
structure AdoptionDue (s : Sys ε) (i : SlotIdx) (nowMs : UInt32) : Prop where
  fresh : (s.session i).state ≠ .stale
  unready : (s.session i).ready = false
  late : timeReached nowMs ((s.session i).grantedAtMs + Limits.catalogReadyTimeoutMs) = true

/-- The deadman pump marks a session STALE when its deadline has passed, and does nothing otherwise. -/
theorem pumpDeadman_cases (i : SlotIdx) (nowMs : UInt32) (s : Sys ε) :
    ¬DeadmanDue s i nowMs ∧ pumpDeadman w c i nowMs s = s ∨
      DeadmanDue s i nowMs ∧ pumpDeadman w c i nowMs s = markStale w c i nowMs 3 s := by
  unfold pumpDeadman
  dsimp only
  split
  · rename_i hlive
    exact .inl ⟨fun h => hlive h.live, rfl⟩
  · rename_i hlive
    split
    · rename_i howns
      exact .inl ⟨fun h => by simp [h.drives] at howns, rfl⟩
    · rename_i howns
      split
      · rename_i hnow
        exact .inl ⟨fun h => by simp [h.silent] at hnow, rfl⟩
      · rename_i hnow
        exact .inr ⟨⟨Decidable.of_not_not hlive, by simpa using howns, by simpa using hnow⟩, rfl⟩

/-- The idle reaper marks a session STALE when its time is up, and does nothing otherwise. -/
theorem pumpIdleReap_cases (i : SlotIdx) (nowMs : UInt32) (s : Sys ε) :
    ¬IdleDue s i nowMs ∧ pumpIdleReap w c i nowMs s = s ∨
      IdleDue s i nowMs ∧ pumpIdleReap w c i nowMs s = markStale w c i nowMs 4 s := by
  unfold pumpIdleReap
  dsimp only
  split
  · rename_i hlive
    exact .inl ⟨fun h => hlive h.live, rfl⟩
  · rename_i hlive
    split
    · rename_i howns
      exact .inl ⟨fun h => by simp [h.idle] at howns, rfl⟩
    · rename_i howns
      split
      · rename_i hnow
        exact .inl ⟨fun h => by simp [h.silent] at hnow, rfl⟩
      · rename_i hnow
        exact .inr ⟨⟨Decidable.of_not_not hlive, by simpa using howns, by simpa using hnow⟩, rfl⟩

/-- A session that never became ready is torn down when its time is up. -/
theorem pumpReadyTimeout_cases (i : SlotIdx) (nowMs : UInt32) (s : Sys ε) :
    ¬AdoptionDue s i nowMs ∧ pumpReadyTimeout w c i nowMs s = s ∨
      AdoptionDue s i nowMs ∧
        pumpReadyTimeout w c i nowMs s = teardownSession w c i nowMs (sendGoodbye w i .readyTimeout s) := by
  unfold pumpReadyTimeout
  dsimp only
  split
  · rename_i hst
    exact .inl ⟨fun h => h.fresh hst, rfl⟩
  · rename_i hst
    split
    · rename_i hr
      exact .inl ⟨fun h => by simp [h.unready] at hr, rfl⟩
    · rename_i hr
      split
      · rename_i hnow
        exact .inl ⟨fun h => by simp [h.late] at hnow, rfl⟩
      · rename_i hnow
        exact .inr ⟨⟨hst, by simpa using hr, by simpa using hnow⟩, rfl⟩

/-! ## Attaching -/

/-- Opening a transport attaches it to the slot, or fails and changes nothing. -/
theorem view_openInto (i : SlotIdx) (t : TransportId) (s : Sys ε) :
    (openInto w i t s).view = s.view ∨
      (openInto w i t s).view = s.view.set i { s.view.slots i with transport := some t } := by
  unfold openInto
  dsimp only
  split
  · refine .inr ?_
    rw [view_modSlot]
    rfl
  · exact .inl rfl

/-- The acts of an attach: a stale session may have to yield. -/
def Label.Attaches (i : SlotIdx) (t : TransportId) : Label → Prop
  | .attach j t' => j = i ∧ t' = t
  | .detach j => j = i
  | l => l.Ends i

/-- One act, of a free slot. -/
theorem openInto_does {i : SlotIdx} {t : TransportId} {s : Sys ε} (hfree : ¬(s.view.slots i).occupied)
    (hnone : (s.view.slots i).transport = none) : Does c now rx (Label.Attaches i t) s (openInto w i t s) := by
  rcases view_openInto (w := w) i t s with h | h
  · exact Does.of_view h
  · refine Does.act (l := .attach i t) ⟨rfl, rfl⟩ ?_
    rw [h]
    exact Act.attach i t hfree hnone

/-- Only a stale session is chosen to yield, and never the excluded one. -/
theorem findEvictableStale_some {h : Hub} {exclude : Option SlotIdx} {v : SlotIdx}
    (hv : findEvictableStale h exclude = some v) : (h.slots v).session.state = .stale ∧ exclude ≠ some v := by
  have hfold : ∀ (l : List SlotIdx) (best : Option SlotIdx),
      (∀ b, best = some b → (h.slots b).session.state = .stale ∧ exclude ≠ some b) →
      ∀ b, l.foldl (pickVictim h exclude) best = some b → (h.slots b).session.state = .stale ∧ exclude ≠ some b := by
    intro l
    induction l with
    | nil => exact fun best hb => hb
    | cons j l ih =>
      intro best hb
      refine ih _ fun b hbj => ?_
      unfold pickVictim at hbj
      split at hbj
      · exact hb b hbj
      · rename_i hex
        split at hbj
        · exact hb b hbj
        · rename_i hst
          have hj : (h.slots j).session.state = .stale ∧ exclude ≠ some j := ⟨Decidable.of_not_not hst, hex⟩
          split at hbj
          · cases hbj
            exact hj
          · split at hbj
            · cases hbj
              exact hj
            · exact hb b hbj
  exact hfold allSlots none (fun b hb => by cases hb) v hv

/-- The slot an attach would use: a free one, or else that of a stale session. -/
def attachTarget (h : Hub) : Option SlotIdx :=
  match freeSlot h with
  | some i => some i
  | none => findEvictableStale h none

/-- A transport is attached to the slot chosen, or refused. -/
theorem attachTransport_does (t : TransportId) (s : Sys ε) :
    Does c now rx (fun l => ∃ i, attachTarget s.hub = some i ∧ l.Attaches i t) s (attachTransport w c t s) := by
  unfold attachTransport attachTarget
  cases hfind : freeSlot s.hub with
  | some i =>
    have hi := List.find?_some hfind
    simp only [Bool.and_eq_true, Option.isNone_iff_eq_none, Bool.not_eq_true'] at hi
    have hfree : ¬(s.view.slots i).occupied := by
      rw [occupied_view, hi.2]
      decide
    have hopen : Does c now rx (Label.Attaches i t) s (openInto w i t s) := openInto_does hfree hi.1
    exact hopen.mono fun l hl => ⟨i, rfl, hl⟩
  | none =>
    dsimp only
    split
    · exact Does.refl s
    · rename_i v hv
      have hst := (findEvictableStale_some hv).1
      have hclose : Does c now rx (Label.Attaches v t) s (closeSlot w v s) := closeSlot_does rfl fun _ => hst
      have htear : Does c now rx (Label.Ends v) (closeSlot w v s)
          (teardownSession w c v (clockMs w s) (closeSlot w v s)) := teardownSession_does v _ _
      have hslot := slots_teardownSession (w := w) (c := c) v (clockMs w s) (closeSlot w v s) v
      rw [if_pos rfl, view_closeSlot] at hslot
      have hopen : Does c now rx (Label.Attaches v t) (teardownSession w c v (clockMs w s) (closeSlot w v s))
          (openInto w v t (teardownSession w c v (clockMs w s) (closeSlot w v s))) := by
        refine openInto_does ?_ ?_
        · rw [hslot]
          exact SlotView.not_occupied_cleared _
        · rw [hslot, View.slots_set_self]
          rfl
      refine ((hclose.trans (htear.mono fun l hl => ?_)).trans hopen).mono fun l hl => ⟨v, hv, hl⟩
      cases l <;> first | exact hl | exact hl.elim

/-- Only a free slot or a stale session is ever the target. -/
theorem attachTarget_stale {s : Sys ε} {i : SlotIdx} (h : attachTarget s.hub = some i)
    (hocc : (s.view.slots i).occupied) : (s.view.slots i).state = .stale := by
  unfold attachTarget at h
  split at h
  · rename_i j hfind
    cases h
    have hi := List.find?_some hfind
    simp only [Bool.and_eq_true, Bool.not_eq_true'] at hi
    rw [occupied_view, hi.2] at hocc
    cases hocc
  · exact (findEvictableStale_some h).1

end

end SlopSync
