import SlopSync.ClockSync
import SlopSync.Hub.Bench
import SlopSync.Refine.Lifecycle

/-! # The scheduling horizon

`handleStream` refuses a segment bundle whose first sample starts too far ahead and takes the other samples on trust.

- `Grows`: how the history grows; every handler on the way of a bundle leaves only one kind of entry out of account,
  the one that hands a bundle to the delegate (`grows_handleStream`);
- `timeDelta_sampleTime`: a sample starts its offset after the base, seen from the hub's clock as well;
- `segment_horizon_iff`: every sample of a delivered bundle is within the horizon when the last one is. -/

namespace SlopSync

section

variable {ε : Type} {w : World ε} {c : Config} {P Q : Io → Prop} {s t u : Sys ε}

/-! ## Histories -/

/-- The history of `t` is that of `s` and entries that satisfy `P`. -/
def Grows (P : Io → Prop) (s t : Sys ε) : Prop := ∃ new, t.trace = new ++ s.trace ∧ ∀ x ∈ new, P x.2

namespace Grows

protected theorem refl (s : Sys ε) : Grows P s s := ⟨[], rfl, fun _ h => absurd h List.not_mem_nil⟩

theorem of_eq (h : t.trace = s.trace) : Grows P s t := ⟨[], h, fun _ h => absurd h List.not_mem_nil⟩

protected theorem trans (h₁ : Grows P s t) (h₂ : Grows P t u) : Grows P s u := by
  obtain ⟨n₁, ht₁, hn₁⟩ := h₁
  obtain ⟨n₂, ht₂, hn₂⟩ := h₂
  refine ⟨n₂ ++ n₁, by rw [ht₂, ht₁, List.append_assoc], fun x hx => ?_⟩
  rcases List.mem_append.mp hx with hx | hx
  · exact hn₂ x hx
  · exact hn₁ x hx

theorem mono (h : Grows P s t) (hPQ : ∀ io, P io → Q io) : Grows Q s t := by
  obtain ⟨new, ht, hnew⟩ := h
  exact ⟨new, ht, fun x hx => hPQ _ (hnew x hx)⟩

theorem log {io : Io} (hio : P io) (s : Sys ε) : Grows P s (s.log io) :=
  ⟨[(s.hub, io)], rfl, fun x hx => by rw [List.mem_singleton.mp hx]; exact hio⟩

/-- A loop of steps that grow a history so grows it so. -/
theorem foldl {α : Type} {f : Sys ε → α → Sys ε} (hf : ∀ s a, Grows P s (f s a)) :
    ∀ (l : List α) (s : Sys ε), Grows P s (l.foldl f s)
  | [], s => Grows.refl s
  | a :: l, s => (hf s a).trans (foldl hf l (f s a))

/-- What a handler logs is among the entries that `P` allows. -/
theorem mem (h : Grows P s t) {new : List (Hub × Io)} (ht : t.trace = new ++ s.trace) {x : Hub × Io} (hx : x ∈ new) :
    P x.2 := by
  obtain ⟨old, hold, hall⟩ := h
  rw [ht, List.append_cancel_right_eq] at hold
  exact hall x (hold ▸ hx)

end Grows

/-! ## Everything but a delivery -/

/-- The entry does not hand a bundle to the delegate. -/
def NoBundle (io : Io) : Prop := ∀ ch sid b, io ≠ .note (.onStreamBundle ch sid b)

/-- A send delivers no bundle. -/
theorem Emits.grows (h : Emits s t) : Grows NoBundle s t := by
  obtain ⟨new, ht, hnew⟩ := h.trace
  refine ⟨new, ht, fun x hx ch sid b he => ?_⟩
  have hio := hnew x hx
  obtain ⟨hub, io⟩ := x
  cases he
  exact hio

theorem grows_notify {n : Note} (hn : NoBundle (.note n)) (s : Sys ε) : Grows NoBundle s (notify w n s) :=
  Grows.log hn s

theorem grows_retain (ch : UInt16) (payload : Bytes) (s : Sys ε) : Grows NoBundle s (retain ch payload s) := by
  unfold retain
  split
  · exact Grows.refl s
  · exact Grows.log (fun _ _ _ h => by cases h) s

theorem grows_publishControlOwner (s : Sys ε) : Grows NoBundle s (publishControlOwnerStateIfPresent c s) := by
  unfold publishControlOwnerStateIfPresent
  split
  · exact Grows.refl s
  · exact grows_retain _ _ s

theorem grows_releaseOne (reason : UInt8) (s : Sys ε) (src : UInt8) : Grows NoBundle s (releaseOne w reason s src) :=
  (Grows.of_eq rfl).trans (grows_notify (fun _ _ _ h => by cases h) _)

/-- Releasing sources delivers no bundle. -/
theorem grows_releaseSessionSources (sid : UInt32) (reason : UInt8) (s : Sys ε) :
    Grows NoBundle s (releaseSessionSources w c sid reason s) := by
  unfold releaseSessionSources
  dsimp only
  split
  · exact Grows.refl s
  · exact (Grows.foldl (grows_releaseOne reason) _ s).trans (grows_publishControlOwner _)

theorem grows_dropKnocksOf (sid nowMs : UInt32) (s : Sys ε) : Grows NoBundle s (dropKnocksOf w c sid nowMs s) := by
  have hdrop : ∀ (s : Sys ε) (k : PendingKnock), Grows NoBundle s (dropKnock w c nowMs s k) := fun s k =>
    (emits_emitPairingEvent c _ _ _ _ _ _ nowMs s).grows.trans (Grows.of_eq rfl)
  unfold dropKnocksOf
  dsimp only
  split
  · exact Grows.refl s
  · refine Grows.trans (Grows.foldl hdrop (s.hub.pairing.pending.select (PendingPairingList.ofSession sid)) s) ?_
    unfold publishPendingPairingState
    split
    · exact Grows.refl _
    · exact grows_retain _ _ _

/-- Marking a session STALE delivers no bundle. -/
theorem grows_markStale (i : SlotIdx) (nowMs : UInt32) (reason : UInt8) (s : Sys ε) :
    Grows NoBundle s (markStale w c i nowMs reason s) := by
  unfold markStale
  dsimp only
  have hrelease := grows_releaseSessionSources (w := w) (c := c) (s.session i).sessionId reason s
  generalize releaseSessionSources w c (s.session i).sessionId reason s = t at hrelease
  exact (hrelease.trans (Grows.of_eq rfl)).trans (emits_emitSessionEvent _ _ _ _).grows

theorem grows_closeSlot (i : SlotIdx) (s : Sys ε) : Grows NoBundle s (closeSlot w i s) := by
  unfold closeSlot
  split
  · exact Grows.refl s
  · exact (Grows.log (fun _ _ _ h => by cases h) s).trans (Grows.of_eq rfl)

theorem grows_dropBlob (i : SlotIdx) (s : Sys ε) : Grows NoBundle s (dropBlob i s) := by
  unfold dropBlob
  split
  · exact Grows.log (fun _ _ _ h => by cases h) s
  · exact Grows.refl s

/-- Parking a session delivers no bundle. -/
theorem grows_parkAndDetach (i : SlotIdx) (nowMs : UInt32) (s : Sys ε) :
    Grows NoBundle s (parkAndDetach w c i nowMs s) := by
  unfold parkAndDetach
  dsimp only
  refine Grows.trans ?_ ((grows_closeSlot i _).trans (Grows.of_eq rfl))
  split
  · exact ((grows_markStale i nowMs 4 s).trans (grows_dropKnocksOf _ nowMs _)).trans
      ((grows_dropBlob i _).trans (Grows.of_eq rfl))
  · exact Grows.refl s

/-- A critical send delivers no bundle. -/
theorem grows_trackCriticalSend (i : SlotIdx) (ok : Bool) (nowMs : UInt32) (s : Sys ε) :
    Grows NoBundle s (trackCriticalSend w c i ok nowMs s) := by
  unfold trackCriticalSend
  dsimp only
  split
  · exact Grows.of_eq rfl
  · split
    · exact Grows.of_eq rfl
    · split
      · exact grows_parkAndDetach i nowMs s
      · exact Grows.refl s

theorem grows_sendNackTracked (i : SlotIdx) (n : NackMsg) (nowMs : UInt32) (s : Sys ε) :
    Grows NoBundle s (sendNackTracked w c i n nowMs s) := by
  unfold sendNackTracked
  split
  · exact Grows.refl s
  · rename_i hlink
    split
    · exact grows_trackCriticalSend i false nowMs s
    · rename_i bytes _
      have hsend : Emits s (sendFrameTo w i .nack 0 bytes 0 s).2 :=
        emits_sendFrameTo (isSome_of_not_isNone hlink) (by decide) (by decide)
      exact hsend.grows.trans (grows_trackCriticalSend i _ nowMs _)

theorem grows_sendStreamOverageNack (i : SlotIdx) (pg : PublishGrant) (ch : UInt16) (nowMs : UInt32) (s : Sys ε) :
    Grows NoBundle s (sendStreamOverageNack w c i pg ch nowMs s) := by
  unfold sendStreamOverageNack
  split
  · exact Grows.refl s
  · exact (Grows.of_eq rfl).trans (grows_sendNackTracked i _ nowMs _)

/-- Acquiring a source for a stream delivers no bundle. -/
theorem grows_acquireForStream (i : SlotIdx) (ch : UInt16) (src : UInt8) (nowMs : UInt32) (s : Sys ε) :
    Grows NoBundle s (acquireForStream w c i ch src nowMs s).2 := by
  unfold acquireForStream
  dsimp only
  generalize ht : ({ s with hub := { s.hub with ownership :=
    (s.hub.ownership.acquire src (s.session i).sessionId (s.session i).role false).2 } } : Sys ε) = t
  have hown : Grows NoBundle s t := Grows.of_eq (by rw [← ht])
  split
  · refine (hown.trans (Grows.of_eq (t := dropBundle i t) rfl)).trans ?_
    unfold sendSourceConflictNack
    split
    · exact Grows.refl _
    · exact (Grows.of_eq rfl).trans (grows_sendNackTracked i _ nowMs _)
  · have hnote := grows_notify (w := w) (n := .onSourceOwnership src (s.session i).sessionId 0)
      (fun _ _ _ h => by cases h) t
    exact ((hown.trans hnote).trans (grows_publishControlOwner _)).trans (Grows.of_eq rfl)
  · exact hown
  · exact hown

/-! ## What is delivered -/

/-- The one delivery a STREAM frame can lead to is that of its own bundle. -/
def DeliversOnly (c : Config) (ch : UInt16) (payload : Bytes) (nowUs : UInt32) (io : Io) : Prop :=
  ∀ ch' sid b, io = .note (.onStreamBundle ch' sid b) → ch' = ch ∧ parseBundle c ch payload nowUs = some b

/-- What delivers nothing delivers only what it should. -/
theorem NoBundle.deliversOnly {ch : UInt16} {payload : Bytes} {nowUs : UInt32} {io : Io} (h : NoBundle io) :
    DeliversOnly c ch payload nowUs io := fun _ _ _ he => absurd he (h _ _ _)

/-- Routing delivers the bundle it was given, to its channel. -/
theorem grows_routeBundle {i : SlotIdx} {ch : UInt16} {payload : Bytes} {nowUs : UInt32} {b : BundleView}
    (hparse : parseBundle c ch payload nowUs = some b) (nowMs : UInt32) (s : Sys ε) :
    Grows (DeliversOnly c ch payload nowUs) s (routeBundle w c i ch b nowMs s) := by
  have hdeliver : ∀ (mapped : Option UInt8) (t : Sys ε),
      Grows (DeliversOnly c ch payload nowUs) t (deliverBundle w i ch mapped b t) := by
    intro mapped t
    have hlog : DeliversOnly c ch payload nowUs (.delivered i ch mapped) := fun _ _ _ h => by cases h
    have hcount : Grows (DeliversOnly c ch payload nowUs) t _ :=
      (Grows.of_eq rfl).trans (Grows.log hlog
        (t.modSession i fun se => { se with streamBundlesAccepted := se.streamBundlesAccepted + 1 }))
    refine hcount.trans (Grows.log ?_ _)
    rintro ch' sid b' ⟨⟩
    exact ⟨rfl, hparse⟩
  have henv : ∀ env : ε, Grows (DeliversOnly c ch payload nowUs) s { s with env } := fun _ => Grows.of_eq rfl
  unfold routeBundle
  dsimp only
  split
  · exact (henv _).trans (hdeliver none _)
  · rename_i src _
    have hacq := (grows_acquireForStream (w := w) (c := c) i ch src nowMs
      { s with env := (w.sourceForChannel ch s.env).2 }).mono
        (Q := DeliversOnly c ch payload nowUs) fun _ hio => hio.deliversOnly
    split
    · exact ((henv _).trans hacq).trans (hdeliver _ _)
    · exact (henv _).trans hacq

/-- So a STREAM delivers the bundle it carries, or none. -/
theorem grows_handleStream (i : SlotIdx) (ch : UInt16) (payload : Bytes) (nowMs : UInt32) (s : Sys ε) :
    Grows (DeliversOnly c ch payload (w.nowUs s.env)) s (handleStream w c i ch payload nowMs s) := by
  have hmod : ∀ f, Grows (DeliversOnly c ch payload (w.nowUs s.env)) s (modGrant i ch f s) := fun _ => Grows.of_eq rfl
  have hdrop : ∀ f, Grows (DeliversOnly c ch payload (w.nowUs s.env)) s (dropBundle i (modGrant i ch f s)) :=
    fun _ => Grows.of_eq rfl
  unfold handleStream
  split
  · exact Grows.of_eq rfl
  · split
    · exact Grows.of_eq rfl
    · split
      · exact Grows.of_eq rfl
      · rename_i hparse
        dsimp only
        split
        · exact (hdrop _).trans ((grows_sendStreamOverageNack i _ ch nowMs _).mono fun _ hio => hio.deliversOnly)
        · exact (hmod _).trans (grows_routeBundle hparse nowMs _)

end

/-! ## Offsets -/

theorem offsetsIncrease_go : ∀ {last : UInt16} {ts : List UInt16}, offsetsIncrease.go last ts = true →
    (last :: ts).Pairwise (· < ·)
  | _, [], _ => List.pairwise_singleton _ _
  | last, t :: ts, h => by
    rw [offsetsIncrease.go, Bool.and_eq_true, decide_eq_true_eq] at h
    have ht := offsetsIncrease_go h.2
    refine List.pairwise_cons.mpr ⟨fun u hu => ?_, ht⟩
    rcases List.mem_cons.mp hu with rfl | hu
    · exact h.1
    · exact UInt16.lt_trans h.1 (List.rel_of_pairwise_cons ht hu)

/-- The parser's test says that offsets increase. -/
theorem pairwise_of_offsetsIncrease {ts : List UInt16} (h : offsetsIncrease ts = true) : ts.Pairwise (· < ·) := by
  cases ts with
  | nil => exact List.Pairwise.nil
  | cons t ts =>
    rw [offsetsIncrease, Bool.and_eq_true] at h
    exact offsetsIncrease_go h.2

namespace BundleView

/-- When sample `k` starts, on the hub's clock. -/
def sampleTimeUs (b : BundleView) (k : Nat) (hk : k < b.sampleCount) : UInt32 := b.tBase + b.tOffs[k].toUInt32

/-- The offset of the last sample. -/
def span (b : BundleView) : Nat := b.tOffs.getLast?.elim 0 UInt16.toNat

variable {bs : Bytes} {n : Nat} {b : BundleView}

/-- A bundle that parses has increasing offsets within the span allowed. -/
theorem parse_offsets (h : parse bs n = some b) :
    b.tOffs.Pairwise (· < ·) ∧ b.span ≤ Limits.bundleMaxSpanMs * 1000 := by
  unfold parse at h
  split at h
  · cases h
  · dsimp only at h
    split at h
    · cases h
    · split at h
      · cases h
      · split at h
        · cases h
        · rename_i hinc
          split at h
          · cases h
          · rename_i hspan
            split at h
            · cases h
            · cases h
              refine ⟨pairwise_of_offsetsIncrease (by simpa using hinc), ?_⟩
              unfold span
              dsimp only
              revert hspan
              generalize List.getLast? _ = last
              cases last with
              | none => exact fun _ => Nat.zero_le _
              | some t =>
                simp only [Option.any_some, decide_eq_true_eq, Option.elim_some]
                omega

/-- No offset is above the last. -/
theorem offset_le_span (h : b.tOffs.Pairwise (· < ·)) {k : Nat} (hk : k < b.sampleCount) :
    b.tOffs[k].toNat ≤ b.span := by
  have hk' : k < b.tOffs.length := hk
  have hne : b.tOffs ≠ [] := List.ne_nil_of_length_pos (by omega)
  rw [span, List.getLast?_eq_some_getLast hne, Option.elim_some, List.getLast_eq_getElem hne]
  rcases Nat.lt_or_ge k (b.tOffs.length - 1) with hlt | hge
  · exact le_of_lt (UInt16.lt_iff_toNat_lt.mp (List.pairwise_iff_getElem.mp h k _ hk' (by omega) hlt))
  · have hlast : k = b.tOffs.length - 1 := by omega
    simp only [hlast, le_refl]

/-- The span is the last offset. -/
theorem span_eq_offset (h : b.sampleCount ≠ 0) :
    ∃ k, ∃ hk : k < b.sampleCount, b.tOffs[k].toNat = b.span := by
  have hne : b.tOffs ≠ [] := List.ne_nil_of_length_pos (Nat.pos_of_ne_zero h)
  refine ⟨b.tOffs.length - 1, Nat.sub_lt (Nat.pos_of_ne_zero h) Nat.one_pos, ?_⟩
  rw [span, List.getLast?_eq_some_getLast hne, Option.elim_some, List.getLast_eq_getElem hne]

/-- Seen from the hub's clock, a sample starts its offset after the base: the schedule check keeps the base away from
the end of the window. -/
theorem timeDelta_sampleTime {now : UInt32} {k : Nat} (hk : k < b.sampleCount)
    (hbase : timeDelta b.tBase now ≤ 250000) :
    timeDelta (b.sampleTimeUs k hk) now = timeDelta b.tBase now + b.tOffs[k].toNat := by
  have hoff := b.tOffs[k].toNat_lt
  have hsum : (b.sampleTimeUs k hk - now).toNat = ((b.tBase - now).toNat + b.tOffs[k].toNat) % 2 ^ 32 := by
    rw [sampleTimeUs, UInt32.toNat_sub, UInt32.toNat_sub, UInt32.toNat_add, UInt16.toNat_toUInt32]
    have := b.tBase.toNat_lt
    have := now.toNat_lt
    omega
  rw [timeDelta_eq] at hbase ⊢
  rw [timeDelta_eq, hsum]
  have hlt := (b.tBase - now).toNat_lt
  split at hbase <;> split <;> omega

end BundleView

/-! ## The horizon -/

section

variable {ε : Type} {c : Config} {ch : UInt16} {payload : Bytes} {nowUs : UInt32} {b : BundleView} {entry : CatalogEntry}

/-- A bundle the hub takes parses, has samples and passes the horizon test. -/
theorem parseBundle_eq (hentry : c.catalog.find ch = some entry) (h : parseBundle c ch payload nowUs = some b) :
    BundleView.parse payload entry.layoutWireSize = some b ∧ b.sampleCount ≠ 0 ∧ tooFarAhead entry b nowUs = false := by
  unfold parseBundle at h
  rw [hentry] at h
  dsimp only at h
  split at h
  · cases h
  · split at h
    · cases h
    · rename_i hparse
      split at h
      · cases h
      · rename_i hok
        cases h
        simp only [Bool.or_eq_true, decide_eq_true_eq, not_or, Bool.not_eq_true] at hok
        exact ⟨hparse, hok.1, hok.2⟩

/-- That test is about the base alone. -/
theorem tooFarAhead_iff (hseg : entry.isSegmentClass = true) :
    tooFarAhead entry b nowUs = true ↔ 250000 < timeDelta b.tBase nowUs := by
  rw [tooFarAhead, hseg, Bool.true_and, decide_eq_true_eq]
  rfl

/-- A bundle that starts in the past passes. -/
theorem parseBundle_late (hentry : c.catalog.find ch = some entry) (hseg : entry.isSegmentClass = true)
    (hdir : entry.dir = .c2h) (hparse : BundleView.parse payload entry.layoutWireSize = some b)
    (hcount : b.sampleCount ≠ 0) (hlate : timeDelta b.tBase nowUs ≤ 0) : parseBundle c ch payload nowUs = some b := by
  have hcls : entry.cls = .stream := by
    rw [CatalogEntry.isSegmentClass, Bool.and_eq_true, beq_iff_eq] at hseg
    exact hseg.1
  have hnot : tooFarAhead entry b nowUs = false := by
    rw [← Bool.not_eq_true, tooFarAhead_iff hseg]
    omega
  simp [parseBundle, hentry, hcls, hdir, hparse, hcount, hnot]

/-- The samples of a bundle that passed. -/
theorem within_horizon_iff (hentry : c.catalog.find ch = some entry) (hseg : entry.isSegmentClass = true)
    (h : parseBundle c ch payload nowUs = some b) :
    (∀ k (hk : k < b.sampleCount), timeDelta (b.sampleTimeUs k hk) nowUs ≤ 250000) ↔
      timeDelta b.tBase nowUs + b.span ≤ 250000 := by
  obtain ⟨hparse, hcount, hahead⟩ := parseBundle_eq hentry h
  obtain ⟨hinc, -⟩ := BundleView.parse_offsets hparse
  have hbase : timeDelta b.tBase nowUs ≤ 250000 := by
    rw [← Bool.not_eq_true, tooFarAhead_iff hseg] at hahead
    omega
  constructor
  · intro hall
    obtain ⟨k, hk, hspan⟩ := BundleView.span_eq_offset hcount
    have := hall k hk
    rw [BundleView.timeDelta_sampleTime hk hbase] at this
    omega
  · intro hspan k hk
    have := BundleView.offset_le_span hinc hk
    rw [BundleView.timeDelta_sampleTime hk hbase]
    omega

/-- **The scheduling horizon.**  A bundle in the past is not refused for that; of a bundle handed to the delegate every
sample is at most 250 ms ahead of the hub's clock exactly when the last one is. -/
theorem segment_horizon_iff (w : World ε) (hentry : c.catalog.find ch = some entry) (hseg : entry.isSegmentClass = true)
    (payload : Bytes) (i : SlotIdx) (nowMs : UInt32) (s : Sys ε) :
    (∀ b, entry.dir = .c2h → BundleView.parse payload entry.layoutWireSize = some b → b.sampleCount ≠ 0 →
      timeDelta b.tBase (w.nowUs s.env) ≤ 0 → parseBundle c ch payload (w.nowUs s.env) = some b) ∧
    ∀ new, (handleStream w c i ch payload nowMs s).trace = new ++ s.trace →
      ∀ hub ch' sid b, (hub, .note (.onStreamBundle ch' sid b)) ∈ new →
        ((∀ k (hk : k < b.sampleCount), timeDelta (b.sampleTimeUs k hk) (w.nowUs s.env) ≤ 250000) ↔
          timeDelta b.tBase (w.nowUs s.env) + b.span ≤ 250000) := by
  refine ⟨fun b hdir hparse hcount hlate => parseBundle_late hentry hseg hdir hparse hcount hlate, ?_⟩
  intro new hnew hub ch' sid b hmem
  obtain ⟨-, hpass⟩ := (grows_handleStream i ch payload nowMs s).mem hnew hmem ch' sid b rfl
  exact within_horizon_iff hentry hseg hpass

end

/-! ## A bundle across the horizon -/

def Bench.segments : CatalogEntry :=
  { id := 0x0103, cls := .stream, dir := .c2h, access := .control, maxRateHz := .fin 100, segments := true
    layoutWireSize := 1 }

def Bench.moving : Config where
  catalog := [Bench.segments]
  etag := ByteArr.zero 8
  catalogEncoded := []

/-- A client in control that publishes segments, one millisecond in. -/
def Bench.publishing : Sys Bench :=
  run Bench.world Bench.moving { answer := .control, clockUs := 1000 }
    [.attachTransport 0, Bench.reads 1000 0
      [.hello (some { Bench.helloWith 1 0 with publishes := [{ channelId := 0x0103, rateHz := .fin 50 }] })]]

/-- Two one-byte samples, 20 ms apart. -/
def Bench.pair (tBase : UInt32) : Bytes := le32 tBase ++ [2, 0] ++ le16 0 ++ le16 20000 ++ [7, 7]

/-- A pair that began a millisecond ago is parsed. -/
theorem segment_horizon_late :
    parseBundle Bench.moving 0x0103 (Bench.pair 0) 1000 = some ⟨0, [0, 20000], [[7], [7]]⟩ := by
  have hnow : Bench.world.nowUs Bench.publishing.env = 1000 := by decide +kernel
  have hentry : Bench.moving.catalog.find 0x0103 = some Bench.segments := rfl
  have h := (segment_horizon_iff Bench.world hentry rfl (Bench.pair 0) 0 1 Bench.publishing).1
    ⟨0, [0, 20000], [[7], [7]]⟩
  rw [hnow] at h
  exact h rfl (by decide +kernel) (by decide) (by decide)

def Io.bundle? : Io → Option BundleView
  | .note (.onStreamBundle _ _ b) => some b
  | _ => none

theorem Io.bundle?_eq_some {io : Io} {b : BundleView} (h : io.bundle? = some b) :
    ∃ ch sid, io = .note (.onStreamBundle ch sid b) := by
  cases io with
  | note n =>
    cases n with
    | onStreamBundle ch sid b' =>
      cases h
      exact ⟨ch, sid, rfl⟩
    | _ => cases h
  | _ => cases h

/-- The first sample is 250 ms ahead and passes; the second is 270 ms ahead and goes to the delegate with it. -/
theorem sample_beyond_horizon :
    ¬∀ s : Sys Bench, Reachable Bench.world Bench.moving s →
      ∀ new, (handleStream Bench.world Bench.moving 0 0x0103 (Bench.pair 251000) 1 s).trace = new ++ s.trace →
        ∀ hub ch sid b, (hub, .note (.onStreamBundle ch sid b)) ∈ new →
          ∀ k (hk : k < b.sampleCount), timeDelta (b.sampleTimeUs k hk) (Bench.world.nowUs s.env) ≤ 250000 := by
  intro h
  obtain ⟨new, hnew, -⟩ := grows_handleStream (w := Bench.world) (c := Bench.moving) 0 0x0103 (Bench.pair 251000) 1
    Bench.publishing
  have hlen : Bench.publishing.trace.length <
      (handleStream Bench.world Bench.moving 0 0x0103 (Bench.pair 251000) 1 Bench.publishing).trace.length := by
    decide +kernel
  have hhead : ((handleStream Bench.world Bench.moving 0 0x0103 (Bench.pair 251000) 1
      Bench.publishing).trace.head?.bind fun x => x.2.bundle?) = some ⟨251000, [0, 20000], [[7], [7]]⟩ := by
    decide +kernel
  rw [hnew] at hlen hhead
  cases new with
  | nil => simp at hlen
  | cons x rest =>
    obtain ⟨hub, io⟩ := x
    rw [List.cons_append, List.head?_cons, Option.bind_some] at hhead
    obtain ⟨ch, sid, rfl⟩ := Io.bundle?_eq_some hhead
    have hfar := h Bench.publishing ⟨_, _, rfl⟩ _ hnew hub ch sid _ List.mem_cons_self 1 (by decide)
    revert hfar
    decide +kernel

end SlopSync
