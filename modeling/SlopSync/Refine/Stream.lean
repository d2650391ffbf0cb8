import SlopSync.Hub.Blob
import SlopSync.Hub.Stream
import SlopSync.Refine.Intent

/-! # Streams and blobs, as acts

A bundle reaches the delegate only on a channel the session was granted to publish to, and its delivery is
chatter.  The blob plane and the probes only send. -/

namespace SlopSync

open Keyed Labelled

section

variable {ε : Type} {w : World ε} {c : Config} {now : UInt32} {rx : Option SlotIdx} {P : Label → Prop}

/-! ## STREAM -/

theorem view_dropBundle (i : SlotIdx) (s : Sys ε) : (dropBundle i s).view = s.view := view_modSlot_of_slotView rfl

/-- A publish grant metered is the same grant in the view. -/
theorem view_modGrant {f : PublishGrant → PublishGrant} (hf : ∀ g, (f g).channelId = g.channelId) (i : SlotIdx)
    (ch : UInt16) (s : Sys ε) : (modGrant i ch f s).view = s.view := by
  refine view_modSlot_of_slotView ?_
  have h := PublishTable.channels_modify (s.hub.slots i).session.publishGrants ch hf
  simp only [slotView, h]

/-- Overage is refused, which may park the session. -/
theorem sendStreamOverageNack_does (i : SlotIdx) (pg : PublishGrant) (ch : UInt16) (nowMs : UInt32) (s : Sys ε) :
    Does c now rx (Label.Parks i) s (sendStreamOverageNack w c i pg ch nowMs s) := by
  unfold sendStreamOverageNack
  dsimp only
  split
  · exact Does.refl s
  · refine Does.trans ?_ (sendNackTracked_does i _ nowMs _)
    exact Does.of_view (view_modGrant (by exact fun _ => rfl) i ch s)

theorem sendSourceConflictNack_does (i : SlotIdx) (src : UInt8) (ch : UInt16) (nowMs : UInt32) (s : Sys ε) :
    Does c now rx (Label.Parks i) s (sendSourceConflictNack w c i src ch nowMs s) := by
  unfold sendSourceConflictNack
  split
  · exact Does.refl s
  · exact (Does.of_view (view_modSlot_of_slotView rfl)).trans (sendNackTracked_does i _ nowMs _)

/-- A stream takes a source that is free, and seizes none. -/
theorem acquireForStream_does {i : SlotIdx} (ch : UInt16) (src : UInt8) (nowMs : UInt32) {s : Sys ε}
    (ha : Active s.view i) (hready : (s.session i).ready = true) :
    Does c now (some i) (Label.Acquires i False) s (acquireForStream w c i ch src nowMs s).2 := by
  unfold acquireForStream
  dsimp only
  cases hacq : s.hub.ownership.acquire src (s.session i).sessionId (s.session i).role false with
  | mk res ownership =>
    dsimp only
    rcases acquire_cases (w := w) (c := c) ha hready hacq with ⟨rfl, hact⟩ | ⟨rfl, hto, hact⟩ |
      ⟨⟨rfl, -⟩ | rfl, hview⟩
    · have hclear : ∀ t : Sys ε, (t.modSlot i (clearConflict src)).view = t.view := fun _ => view_modSlot_of_slotView rfl
      exact (Does.act (l := .acquire i false) ⟨rfl, fun h => nomatch h⟩ hact).trans (Does.of_view (hclear _))
    · cases hto
    · exact Does.of_view hview
    · refine (Does.of_view ((view_dropBundle i _).trans hview)).trans ?_
      exact (sendSourceConflictNack_does i src ch nowMs _).mono fun _ h => h.acquires _

/-- A source it took is driven by its session. -/
theorem acquireForStream_drives {i : SlotIdx} {ch : UInt16} {src : UInt8} {nowMs : UInt32} {s : Sys ε}
    (hready : (s.session i).ready = true) (hok : (acquireForStream w c i ch src nowMs s).1 = true) :
    Drives (acquireForStream w c i ch src nowMs s).2.view i src := by
  unfold acquireForStream at hok ⊢
  dsimp only at hok ⊢
  cases hacq : s.hub.ownership.acquire src (s.session i).sessionId (s.session i).role false with
  | mk res ownership =>
    rw [hacq] at hok
    dsimp only at hok ⊢
    rcases SourceOwnershipTable.acquire_spec hacq with ⟨⟨rfl, -⟩ | ⟨-, hto, -⟩, hown, -⟩ | ⟨⟨rfl, hsame, -⟩ | rfl, hown, -⟩
    · have hclear : ∀ t : Sys ε, (t.modSlot i (clearConflict src)).view = t.view := fun _ => view_modSlot_of_slotView rfl
      dsimp only
      rw [hclear, view_publishControlOwner]
      refine ⟨?_, hready⟩
      show ownership.ownerOf src = (s.session i).sessionId
      rw [hown, Function.update_self]
    · cases hto
    · refine ⟨?_, hready⟩
      show ownership.ownerOf src = (s.session i).sessionId
      rw [hown, hsame]
    · cases hok

/-- Acquiring leaves the publish grants. -/
theorem acquires_pubs {l : Label} {v v' : View} {i j : SlotIdx} {T : Prop} (hl : l.Acquires i T)
    (h : Act c now rx l v v') : (v'.slots j).pubs = (v.slots j).pubs := by
  cases h with
  | stale k | detach k =>
    by_cases hj : j = k
    · subst hj
      simp
    · simp [View.slots_set_ne _ hj]
  | chatter | acquire | release | retain | knocks => rfl
  | _ => exact hl.elim

/-- Delivering a bundle is chatter on a channel the session may publish to. -/
theorem deliverBundle_does {i : SlotIdx} {ch : UInt16} {mapped : Option UInt8} (bundle : BundleView) {s : Sys ε}
    (hP : P .chatter) (hpub : ch ∈ (s.view.slots i).pubs) (hready : (s.view.slots i).ready = true)
    (howns : ownsMapped s.hub i mapped = true) :
    Does c now rx P s (deliverBundle w i ch mapped bundle s) := by
  unfold deliverBundle
  dsimp only
  have hcount : (s.modSession i fun se => { se with streamBundlesAccepted := se.streamBundlesAccepted + 1 }).view =
      s.view := view_modSlot_of_slotView rfl
  have howns' : ownsMapped (s.modSession i fun se =>
      { se with streamBundlesAccepted := se.streamBundlesAccepted + 1 }).hub i mapped = true := by
    simpa [ownsMapped, Sys.modSession] using howns
  generalize (s.modSession i fun se => { se with streamBundlesAccepted := se.streamBundlesAccepted + 1 }) = t
    at hcount howns'
  refine (Does.of_view hcount).trans (Does.act hP ?_)
  rw [view_notify (.onStreamBundle _ _ _) _ trivial]
  refine Act.chatter (fun i => (t.view.slots i).events) [⟨ch, (t.view.slots i).role, (t.view.slots i).ready, ownsMapped t.hub i mapped⟩]
    (fun _ _ hch => .inl hch) ?_
  intro x hx
  rw [List.mem_singleton.mp hx, hcount]
  exact ⟨i, .inr (.inr hpub), rfl, hready, hready, howns'⟩

/-- A bundle is delivered to the host, or refused. -/
theorem routeBundle_does {i : SlotIdx} {ch : UInt16} (bundle : BundleView) (nowMs : UInt32) {s : Sys ε}
    (ha : Active s.view i) (hready : (s.session i).ready = true) (hpub : ch ∈ (s.view.slots i).pubs) :
    Does c now (some i) (Label.Acquires i False) s (routeBundle w c i ch bundle nowMs s) := by
  unfold routeBundle
  generalize w.sourceForChannel ch s.env = r
  obtain ⟨mapped, env⟩ := r
  dsimp only
  have hmap : Does c now (some i) (Label.Acquires i False) s { s with env } := Does.of_view rfl
  refine hmap.trans ?_
  split
  · exact deliverBundle_does bundle trivial hpub hready rfl
  · rename_i src
    have hacq : Does c now (some i) (Label.Acquires i False) { s with env }
        (acquireForStream w c i ch src nowMs { s with env }).2 := acquireForStream_does ch src nowMs ha hready
    have hpubs : ((acquireForStream w c i ch src nowMs { s with env }).2.view.slots i).pubs = (s.view.slots i).pubs :=
      Path.frame (f := fun v => (v.slots i).pubs) hacq fun _ _ _ hl h => acquires_pubs hl h
    refine hacq.trans ?_
    split
    · rename_i hok
      have hdrives := acquireForStream_drives (s := { s with env }) hready hok
      exact deliverBundle_does bundle trivial (by rw [hpubs]; exact hpub) hdrives.ready (beq_iff_eq.mpr hdrives.owner)
    · exact Does.refl _

/-- A STREAM is delivered, refused or dropped. -/
theorem handleStream_does {i : SlotIdx} (ch : UInt16) (payload : Bytes) (nowMs : UInt32) {s : Sys ε}
    (ha : Active s.view i) :
    Does c now (some i) (Label.Acquires i False) s (handleStream w c i ch payload nowMs s) := by
  unfold handleStream
  split
  · exact Does.of_view (view_dropBundle i s)
  · rename_i hready
    rw [Bool.not_eq_true', Bool.not_eq_false] at hready
    split
    · exact Does.of_view (view_dropBundle i s)
    · rename_i pg hpg
      split
      · exact Does.of_view (view_dropBundle i s)
      · rename_i bundle _
        dsimp only
        have hpub : ch ∈ (s.view.slots i).pubs := PublishTable.mem_channels.mpr (Option.isSome_iff_exists.mpr ⟨pg, hpg⟩)
        have hlim : (modGrant i ch (fun g => { g with limiter := (pg.limiter.allowN nowMs bundle.sampleCount).2 }) s).view =
            s.view := view_modGrant (by exact fun _ => rfl) i ch s
        generalize modGrant i ch (fun g => { g with limiter := (pg.limiter.allowN nowMs bundle.sampleCount).2 }) s = t
          at hlim
        refine (Does.of_view hlim).trans ?_
        split
        · refine (Does.of_view (view_dropBundle i t)).trans ?_
          exact (sendStreamOverageNack_does i _ ch nowMs _).mono fun _ h => h.acquires _
        · have hrdy : (t.view.slots i).ready = true := by
            rw [hlim]
            exact hready
          exact routeBundle_does bundle nowMs (by rw [hlim]; exact ha) hrdy (by rw [hlim]; exact hpub)

/-! ## Blobs, probes and pings -/

/-- Finding a blob's bytes changes nothing of the session. -/
theorem resolveBlobBytes_spec {i : SlotIdx} {id : BlobId} {s s' : Sys ε} {r : Except NackMsg (BlobId × Bytes)}
    (h : resolveBlobBytes w c i id s = (r, s')) : s'.view = s.view ∧ s'.slot i = s.slot i := by
  obtain ⟨hhub, htr⟩ := resolveBlobBytes_hub (w := w) (c := c) i id s
  rw [h] at hhub htr
  refine ⟨?_, congrArg (fun g : Hub => g.slots i) hhub⟩
  unfold Sys.view
  rw [show s'.hub = s.hub from hhub, show s'.trace = s.trace from htr]

/-- The view does not show a transfer. -/
theorem view_logBlob (i : SlotIdx) (step : BlobStep) (s : Sys ε) : (s.log (.blob i step)).view = s.view := rfl

theorem view_blobStep (i : SlotIdx) (step : BlobStep) (blob : Option PendingBlob) (s : Sys ε) :
    ((s.log (.blob i step)).modSlot i fun sl => { sl with blob }).view = s.view :=
  view_modSlot_of_slotView (s := s.log (.blob i step)) rfl

theorem handleBlobReq_does {i : SlotIdx} (msg : Option BlobReqMsg) {s : Sys ε} (hlink : (s.slot i).transport.isSome) :
    Does c now rx (· = .chatter) s (handleBlobReq w c i msg s) := by
  unfold handleBlobReq
  split
  · exact (emits_sendNack _ hlink).does rfl
  · split
    · rename_i heq
      obtain ⟨hview, hslot⟩ := resolveBlobBytes_spec heq
      exact (Does.of_view hview).trans ((emits_sendNack _ (by rw [hslot]; exact hlink)).does rfl)
    · rename_i heq
      obtain ⟨hview, hslot⟩ := resolveBlobBytes_spec heq
      refine (Does.of_view hview).trans ?_
      split
      · exact (emits_sendNack _ (by rw [hslot]; exact hlink)).does rfl
      · exact Does.of_view (view_blobStep i _ (some _) _)

/-- A blob that changed is refused. -/
theorem refuseBlob_does {i : SlotIdx} (pb : PendingBlob) (n : NackMsg) {s : Sys ε}
    (hlink : (s.slot i).transport.isSome) : Does c now rx (· = .chatter) s (refuseBlob w i pb n s) := by
  have hend : ∀ t : Sys ε, (endBlob i .refused t).view = t.view := view_blobStep i _ none
  exact Does.trans ((emits_sendNack _ hlink).does rfl) (Does.of_view (hend _))

/-- Chunks are sent until the budget or the link gives out; the induction is on the budget. -/
theorem drainBlob_does {i : SlotIdx} (id : BlobId) (encoded : Bytes) : ∀ (budget : Nat) (pb : PendingBlob) {s : Sys ε},
    (s.slot i).transport.isSome → Does c now rx (· = .chatter) s (drainBlob w i id encoded budget pb s)
  | 0, pb, s, _ => by
    unfold drainBlob
    split
    · exact Does.of_view (view_blobStep i _ none s)
    · exact Does.of_view (view_modSlot_of_slotView rfl)
  | budget + 1, pb, s, hlink => by
    unfold drainBlob
    split
    · exact Does.of_view (view_blobStep i _ none s)
    · split
      · exact refuseBlob_does pb _ hlink
      · rename_i bytes _
        have hemits : Emits s (sendFrameTo w i .blobChunk Channels.catalog bytes 0 s).2 :=
          emits_sendFrameTo hlink (by decide) (by decide)
        have hsend : Does c now rx (· = .chatter) s (sendFrameTo w i .blobChunk Channels.catalog bytes 0 s).2 :=
          hemits.does rfl
        have hlink₁ : ((sendFrameTo w i .blobChunk Channels.catalog bytes 0 s).2.slot i).transport.isSome := by
          rw [hemits.transport i]
          exact hlink
        have hkeep : ∀ t : Sys ε, (t.modSlot i fun sl => { sl with blob := some pb }).view = t.view :=
          fun _ => view_modSlot_of_slotView rfl
        dsimp only
        split
        · exact hsend.trans (drainBlob_does id encoded budget pb.advance hlink₁)
        · exact hsend.trans (Does.of_view (hkeep _))

/-- The blob pump is chatter. -/
theorem pumpBlobTransfer_does (i : SlotIdx) (s : Sys ε) :
    Does c now rx (· = .chatter) s (pumpBlobTransfer w c i s) := by
  unfold pumpBlobTransfer
  split
  · exact Does.refl s
  · rename_i pb _
    split
    · exact Does.of_view (view_blobStep i _ none s)
    · rename_i hlink
      rw [Bool.or_eq_true, not_or] at hlink
      have hlink₁ := isSome_of_not_isNone hlink.1
      split
      · rename_i heq
        obtain ⟨hview, hslot⟩ := resolveBlobBytes_spec heq
        exact (Does.of_view ((view_logBlob i _ _).trans hview)).trans (refuseBlob_does pb _ (by rw [← hslot] at hlink₁; exact hlink₁))
      · rename_i id bytes t heq
        obtain ⟨hview, hslot⟩ := resolveBlobBytes_spec heq
        rw [← hslot] at hlink₁
        dsimp only
        have hresumed := view_logBlob i (.resumed (some (bytes, id.generation.getD 0))) t
        refine (Does.of_view (hresumed.trans hview)).trans ?_
        split
        · exact refuseBlob_does pb _ hlink₁
        · exact drainBlob_does _ _ _ pb hlink₁

theorem handlePing_does {i : SlotIdx} (payload : Bytes) {s : Sys ε} (hlink : (s.slot i).transport.isSome) :
    Does c now rx (· = .chatter) s (handlePing w i payload s) :=
  (emits_sendFrameTo hlink (by decide) (by decide)).does rfl

theorem handleClock_does {i : SlotIdx} (payload : Bytes) {s : Sys ε} (hlink : (s.slot i).transport.isSome) :
    Does c now rx (· = .chatter) s (handleClock w i payload s) := by
  unfold handleClock
  split
  · exact Does.refl s
  · exact (emits_sendFrameTo hlink (by decide) (by decide)).does rfl

/-- A burst of probes. -/
theorem probes_does {i : SlotIdx} (size : Nat) : ∀ (l : List Nat) {s : Sys ε}, (s.slot i).transport.isSome →
    Does c now rx (· = .chatter) s (l.foldl (fun s k => (sendFrameTo w i .probe 0 (probeFrame size k) 0 s).2) s)
  | [], s, _ => Does.refl s
  | k :: l, s, hlink => by
    have hemits : Emits s (sendFrameTo w i .probe 0 (probeFrame size k) 0 s).2 :=
      emits_sendFrameTo hlink (by decide) (by decide)
    have hsend : Does c now rx (· = .chatter) s (sendFrameTo w i .probe 0 (probeFrame size k) 0 s).2 := hemits.does rfl
    refine hsend.trans (probes_does size l ?_)
    rw [hemits.transport i]
    exact hlink

theorem handleProbeRequest_does (i : SlotIdx) (s : Sys ε) :
    Does c now rx (· = .chatter) s (handleProbeRequest w i s) := by
  unfold handleProbeRequest
  split
  · exact Does.refl s
  · rename_i t ht
    generalize (if Limits.headerBytes < w.mtu t then w.mtu t - Limits.headerBytes else Limits.minTransportPayload)
      % 2 ^ 16 = mtuPayload
    dsimp only
    split
    · exact Does.refl s
    · exact probes_does _ _ (Option.isSome_iff_exists.mpr ⟨t, ht⟩)

theorem handleProbeReportFrame_does (i : SlotIdx) (msg : Option ProbeResult) (s : Sys ε) :
    Does c now rx (· = .chatter) s (handleProbeReportFrame i msg s) := by
  unfold handleProbeReportFrame
  split
  · exact Does.refl s
  · exact Does.of_view (view_modSlot_of_slotView rfl)

end

end SlopSync
