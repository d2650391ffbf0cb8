import SlopSync.Client.Bench
import SlopSync.Client.Does

/-! # The session of a client

What a client in SYNCING or LIVE knows comes from one WELCOME, accepted since `connect` was last called: its session,
its grants, and, once LIVE, a catalog and as many snapshots as the hub promised.  The one call that can break this is a
`connect` that fails after a session was up: it returns before it leaves SYNCING or LIVE. -/

namespace SlopSync

namespace Client

open Labelled

/-! ## The history of a connection -/

def Io.isConnect : Io → Bool
  | .connect => true
  | _ => false

def Io.accepted : Io → Option WelcomeMsg
  | .welcomed m => some m
  | _ => none

/-- The grants of a GRANT frame that was read. -/
def Io.regranted : Io → Option (List GrantEntry)
  | .rx (.frame (.grant (some g))) => some g.grants
  | _ => none

/-- What happened since `connect` was last called, the newest first. -/
def sinceConnect (h : History) : History := h.takeWhile fun x => !x.2.isConnect

/-- The WELCOMEs accepted. -/
def welcomes (h : History) : List WelcomeMsg := h.filterMap fun x => x.2.accepted

/-- The table of a WELCOME after the GRANT frames read since. -/
def regrants (h : History) (t : GrantTable) : GrantTable :=
  (h.filterMap fun x => x.2.regranted).foldr (fun gs t => gs.foldl GrantTable.grant t) t

/-- A transfer was completed, and each of its chunks was taken. -/
def Reassembled (h : History) : Prop :=
  ∃ c : Client, (c, Io.assembled) ∈ h ∧ c.chunkReassembler.complete = true ∧
    ∀ i < c.chunkReassembler.chunkCount.toNat, ∃ d index, (d, Io.chunk c.chunkReassembler.chunkCount index) ∈ h ∧
      index.toNat = i

/-- The value held of a channel was received. -/
def Received (h : History) (e : ShadowEntry) : Prop :=
  ∃ d, (d, Io.rx (.frame (.state e.channelId e.slot.seq e.slot.value))) ∈ h

/-- What a client knows of the session `m`, accepted by `cl`, after `later`. -/
structure Adopted (c cl : Client) (m : WelcomeMsg) (later : History) : Prop where
  sessionId : c.sessionId = m.sessionId
  grants : c.grants = regrants later ⟨m.grants, m.bound⟩
  required : c.requiredRetained = m.retainedPending
  ready : c.catalogReady = true → cl.cachedEtag = m.catalogEtag ∨ Reassembled later
  chunks : cl.cachedEtag = m.catalogEtag ∨ ∀ i, c.chunkReassembler.received.getD i false = true →
    ∃ d index, (d, Io.chunk c.chunkReassembler.chunkCount index) ∈ later ∧ index.toNat = i
  received : ∀ e ∈ c.shadows.rows, e.slot.valid = true → Received later e
  count : c.adoptedCount.toNat ≤ c.shadows.channels.length

/-- Exactly one WELCOME was accepted in this connection, and `P` holds of it and of what came after. -/
def Accepted (h : History) (P : Client → WelcomeMsg → History → Prop) : Prop :=
  ∃ cl m later earlier, sinceConnect h = later ++ (cl, Io.welcomed m) :: earlier ∧ welcomes later = [] ∧
    welcomes earlier = [] ∧ P cl m later

structure Lawful (c : Client) (h : History) : Prop where
  counted : c.chunkReassembler.Counted
  fresh : c.state = .helloSent → welcomes (sinceConnect h) = []
  session : c.state = .syncing ∨ c.state = .live → Accepted h (Adopted c)
  live : c.state = .live → c.catalogReady = true ∧ c.requiredRetained ≤ c.adoptedCount

/-! ## What leaves a session alone -/

/-- An entry that says nothing about the session. -/
def Io.Plain (x : Io) : Prop := x.isConnect = false ∧ x.accepted = none ∧ x.regranted = none

/-- An entry that is no `connect` belongs to the connection it follows. -/
theorem sinceConnect_cons {c : Client} {x : Io} (hx : x.isConnect = false) (h : History) :
    sinceConnect ((c, x) :: h) = (c, x) :: sinceConnect h := by
  unfold sinceConnect
  rw [List.takeWhile_cons]
  simp [hx]

theorem welcomes_cons {c : Client} {x : Io} (hx : x.accepted = none) (h : History) :
    welcomes ((c, x) :: h) = welcomes h := by
  unfold welcomes
  rw [List.filterMap_cons, hx]

/-- An entry without a GRANT leaves the regrants as they were. -/
theorem regrants_cons {c : Client} {x : Io} (hx : x.regranted = none) (h : History) (t : GrantTable) :
    regrants ((c, x) :: h) t = regrants h t := by
  unfold regrants
  rw [List.filterMap_cons, hx]

/-- What was reassembled stays in the history. -/
theorem Reassembled.cons {h : History} (hr : Reassembled h) (x : Client × Io) : Reassembled (x :: h) := by
  obtain ⟨c, hmem, hc, hall⟩ := hr
  refine ⟨c, List.mem_cons_of_mem x hmem, hc, fun i hi => ?_⟩
  obtain ⟨d, index, hd, hidx⟩ := hall i hi
  exact ⟨d, index, List.mem_cons_of_mem x hd, hidx⟩

/-- What was received stays in the history. -/
theorem Received.cons {h : History} {e : ShadowEntry} (hr : Received h e) (x : Client × Io) : Received (x :: h) e := by
  obtain ⟨d, hd⟩ := hr
  exact ⟨d, List.mem_cons_of_mem x hd⟩

/-- One more entry of the history; a GRANT is not yet acted on. -/
theorem Adopted.cons {c cl : Client} {m : WelcomeMsg} {later : History} (ha : Adopted c cl m later) {d : Client}
    {x : Io} (hx : x.regranted = none) : Adopted c cl m ((d, x) :: later) where
  sessionId := ha.sessionId
  grants := by
    rw [regrants_cons hx]
    exact ha.grants
  required := ha.required
  ready h := (ha.ready h).imp_right fun hr => hr.cons _
  chunks := ha.chunks.imp_right fun hall i hi => by
    obtain ⟨d', index, hd, hidx⟩ := hall i hi
    exact ⟨d', index, List.mem_cons_of_mem _ hd, hidx⟩
  received e he hv := (ha.received e he hv).cons _
  count := ha.count

/-- Two clients that are in the same session, whatever its state. -/
structure SameSession (c d : Client) : Prop where
  sessionId : d.sessionId = c.sessionId
  grants : d.grants = c.grants
  shadows : d.shadows = c.shadows
  requiredRetained : d.requiredRetained = c.requiredRetained
  adoptedCount : d.adoptedCount = c.adoptedCount
  catalogReady : d.catalogReady = c.catalogReady
  chunkReassembler : d.chunkReassembler = c.chunkReassembler

/-- What was adopted from a WELCOME depends on the session's fields only. -/
theorem Adopted.same {c d cl : Client} {m : WelcomeMsg} {later : History} (ha : Adopted c cl m later)
    (h : SameSession c d) : Adopted d cl m later where
  sessionId := h.sessionId.trans ha.sessionId
  grants := h.grants.trans ha.grants
  required := h.requiredRetained.trans ha.required
  ready hr := ha.ready (h.catalogReady ▸ hr)
  chunks := by
    rw [h.chunkReassembler]
    exact ha.chunks
  received := by
    rw [h.shadows]
    exact ha.received
  count := by
    rw [h.adoptedCount, h.shadows]
    exact ha.count

theorem Accepted.mono {h : History} {P Q : Client → WelcomeMsg → History → Prop} (ha : Accepted h P)
    (hPQ : ∀ cl m later, P cl m later → Q cl m later) : Accepted h Q := by
  obtain ⟨cl, m, later, earlier, hs, hl, he, hP⟩ := ha
  exact ⟨cl, m, later, earlier, hs, hl, he, hPQ cl m later hP⟩

/-- Within a connection, an entry that accepts no WELCOME keeps the last one accepted. -/
theorem Accepted.cons {h : History} {P : Client → WelcomeMsg → History → Prop} {d : Client} {x : Io}
    (hx : x.isConnect = false) (hw : x.accepted = none) (ha : Accepted h fun cl m later => P cl m ((d, x) :: later)) :
    Accepted ((d, x) :: h) P := by
  obtain ⟨cl, m, later, earlier, hs, hl, he, hP⟩ := ha
  refine ⟨cl, m, (d, x) :: later, earlier, ?_, ?_, he, hP⟩
  · rw [sinceConnect_cons hx, hs]
    rfl
  · rw [welcomes_cons hw]
    exact hl

/-- The session's law depends on its own fields and the state. -/
theorem Lawful.same {c d : Client} {h : History} (hl : Lawful c h) (hs : SameSession c d) (hst : d.state = c.state) :
    Lawful d h where
  counted := hs.chunkReassembler ▸ hl.counted
  fresh he := hl.fresh (hst ▸ he)
  session he := (hl.session (hst ▸ he)).mono fun _ _ _ ha => ha.same hs
  live he := by
    rw [hs.catalogReady, hs.requiredRetained, hs.adoptedCount]
    exact hl.live (hst ▸ he)

/-- A plain entry of the history keeps it. -/
theorem Lawful.cons {c d : Client} {h : History} {x : Io} (hl : Lawful c h) (hx : x.Plain) : Lawful c ((d, x) :: h) where
  counted := hl.counted
  fresh he := by
    rw [sinceConnect_cons hx.1, welcomes_cons hx.2.1]
    exact hl.fresh he
  session he := Accepted.cons hx.1 hx.2.1 ((hl.session he).mono fun _ _ _ ha => ha.cons hx.2.2)
  live := hl.live

/-- The session is over, whatever else was known. -/
theorem Lawful.close {c : Client} {h : History} (hl : Lawful c h) : Lawful { c with state := .closed } h where
  counted := hl.counted
  fresh he := by cases he
  session he := by rcases he with he | he <;> cases he
  live he := by cases he

/-- SYNCING is over. -/
theorem Lawful.goLive {c : Client} {h : History} (hl : Lawful c h) (hst : c.state = .syncing)
    (hr : c.catalogReady = true) (hc : c.requiredRetained ≤ c.adoptedCount) : Lawful { c with state := .live } h where
  counted := hl.counted
  fresh he := by cases he
  session _ := (hl.session (.inl hst)).mono fun _ _ _ ha => ha.same ⟨rfl, rfl, rfl, rfl, rfl, rfl, rfl⟩
  live _ := ⟨hr, hc⟩

section

variable {ε : Type} {w : World ε} {s t : Sys ε}

def Sys.Lawful (s : Sys ε) : Prop := Client.Lawful s.client s.trace

theorem Sys.Lawful.modify {f : Client → Client} (hs : s.Lawful) (h : SameSession s.client (f s.client))
    (hst : (f s.client).state = s.client.state) : (s.modify f).Lawful :=
  Lawful.same hs h hst

/-- The acts that leave the session as it is, or end it, or make it LIVE when it may be. -/
def Act.Calm : Act ε → Prop
  | .log x => x.Plain
  | .become st => st = .closed ∨ st = .live
  | .reset | .welcome _ | .ready _ | .forget | .begin _ _ | .insert _ _ | .adopt | .shadow _ _ _ | .grant _ => False
  | _ => True

theorem sameSession_of_same {c d : Client} (h : Same c d) : SameSession c d :=
  ⟨h.sessionId, h.grants, h.shadows, h.requiredRetained, h.adoptedCount, h.catalogReady, h.chunkReassembler⟩

/-- A log and a change of the client's own fields. -/
theorem Sys.Lawful.logged {x : Io} {e : ε} (hs : s.Lawful) (hx : x.Plain) {d : Client}
    (h : SameSession s.client d) (hst : d.state = s.client.state) :
    Sys.Lawful { client := d, env := e, trace := (s.client, x) :: s.trace } :=
  Lawful.same (Lawful.cons hs hx) h hst

/-- A calm act keeps the law. -/
theorem lawful_calm {a : Act ε} (ha : a.Calm) (hok : a.Ok w s) (hs : s.Lawful) : (a.apply w s).Lawful := by
  cases a with
  | log x => exact Lawful.cons hs ha
  | minor f => exact Lawful.same hs (sameSession_of_same (hok s.client)) (hok s.client).state
  | become st =>
    rcases ha with rfl | rfl
    · exact Lawful.close hs
    · obtain ⟨hst, hr, hc⟩ := hok.2 rfl
      exact Lawful.goLive hs hst hr hc
  | reset | welcome | ready | forget | begin | insert | adopt | shadow | grant => exact ha.elim
  | observe ch payload =>
    refine Lawful.same (c := s.client) hs ?_ ?_
    · show SameSession s.client (observeLatch ch payload s.client)
      unfold observeLatch
      split <;> exact ⟨rfl, rfl, rfl, rfl, rfl, rfl, rfl⟩
    · exact (observeLatch_steady ch payload s.client).state
  | world e => exact hs
  | pin key =>
    exact Lawful.same (c := s.client) (d := (setHubPublicKey key s).client) hs ⟨rfl, rfl, rfl, rfl, rfl, rfl, rfl⟩ rfl
  | write type ch payload bytes =>
    simp only [Act.apply, writeFrame]
    split <;> exact hs.logged ⟨rfl, rfl, rfl⟩ ⟨rfl, rfl, rfl, rfl, rfl, rfl, rfl⟩ rfl
  | initiated f | repeated f => exact hs.logged ⟨rfl, rfl, rfl⟩ ⟨rfl, rfl, rfl, rfl, rfl, rfl, rfl⟩ rfl
  | advance | drop | settle | echoed | queue | verify | judge | draw | arm | request | startProbe | stopProbe
  | initiate | giveUp =>
    exact Sys.Lawful.modify hs ⟨rfl, rfl, rfl, rfl, rfl, rfl, rfl⟩ rfl

theorem Act.In.calm {T : FrameType → Prop} {N : Note → Prop} {K : Act ε → Prop} (hK : ∀ a, K a → a.Calm) :
    ∀ a : Act ε, Act.In T N K a → a.Calm :=
  Act.In.of_kinds (fun _ => trivial) (fun _ => trivial) (fun _ _ _ _ _ => trivial) (fun _ _ => ⟨rfl, rfl, rfl⟩) hK

/-- A sequence of calm acts keeps the law. -/
theorem lawful_does (h : Does w Act.Calm s t) (hs : s.Lawful) : t.Lawful :=
  Path.invariant (I := Sys.Lawful) h (fun _ _ _ ha ⟨hok, heq⟩ hx => heq ▸ lawful_calm ha hok hx) hs

/-! ## The catalog -/

theorem Adopted.begin {c cl : Client} {m : WelcomeMsg} {later : History} (ha : Adopted c cl m later)
    (h : BlobChunkHeader) (nowMs : UInt32) : Adopted (beginTransfer h nowMs c) cl m later := by
  unfold beginTransfer
  split
  · refine { ha with chunks := .inr fun i hi => ?_ }
    dsimp only at hi
    rw [ChunkReassembler.received_begin] at hi
    cases hi
  · exact ha

/-- Beginning a transfer keeps the law: only the reassembler changes. -/
theorem Lawful.begin {c : Client} {h : History} (hl : Lawful c h) (hd : BlobChunkHeader) (nowMs : UInt32) :
    Lawful (beginTransfer hd nowMs c) h := by
  have hstate : (beginTransfer hd nowMs c).state = c.state ∧ (beginTransfer hd nowMs c).catalogReady = c.catalogReady ∧
      (beginTransfer hd nowMs c).requiredRetained = c.requiredRetained ∧
      (beginTransfer hd nowMs c).adoptedCount = c.adoptedCount := by
    unfold beginTransfer
    split <;> exact ⟨rfl, rfl, rfl, rfl⟩
  obtain ⟨hst, hready, hreq, hcount⟩ := hstate
  refine ⟨?_, fun he => hl.fresh (hst ▸ he), fun he => (hl.session (hst ▸ he)).mono fun _ _ _ ha => ha.begin hd nowMs,
    fun he => ?_⟩
  · unfold beginTransfer
    split
    · exact ChunkReassembler.counted_begin _ hd nowMs
    · exact hl.counted
  · rw [hready, hreq, hcount]
    exact hl.live (hst ▸ he)

/-- A chunk is noted before it is taken. -/
theorem Adopted.insert {c cl d : Client} {m : WelcomeMsg} {later : History} {payload : Bytes} (ha : Adopted c cl m later)
    (nowMs : UInt32) (hnew : ∀ hd, c.chunkReassembler.accepts payload = some hd →
      (d, Io.chunk hd.chunkCount hd.chunkIndex) ∈ later) :
    Adopted { c with chunkReassembler := c.chunkReassembler.insert payload nowMs } cl m later := by
  refine { ha with chunks := ha.chunks.imp_right fun hall i hi => ?_ }
  dsimp only at hi ⊢
  rw [ChunkReassembler.chunkCount_insert]
  rcases ChunkReassembler.received_insert hi with hi | ⟨hd, hacc, rfl⟩
  · exact hall i hi
  · exact ⟨d, hd.chunkIndex, (ChunkReassembler.accepts_lt hacc).1 ▸ hnew hd hacc, rfl⟩

/-- Inserting a chunk keeps the law. -/
theorem insertChunk_lawful {payload : Bytes} {nowMs : UInt32} (hs : s.Lawful) : (insertChunk payload nowMs s).Lawful := by
  unfold insertChunk
  dsimp only
  split
  · rename_i hnone
    refine ⟨ChunkReassembler.counted_insert hs.counted payload nowMs, hs.fresh, fun he => ?_, hs.live⟩
    exact (hs.session he).mono fun _ _ _ ha => ha.insert (d := s.client) nowMs fun hd hacc => by
      rw [hnone] at hacc
      cases hacc
  · rename_i hd hacc
    have hlog : (s.log (.chunk hd.chunkCount hd.chunkIndex)).Lawful := Lawful.cons hs ⟨rfl, rfl, rfl⟩
    refine ⟨ChunkReassembler.counted_insert hs.counted payload nowMs, hlog.fresh, fun he => ?_, hlog.live⟩
    refine Accepted.cons rfl rfl ((hs.session he).mono fun _ _ _ ha => ?_)
    refine (ha.cons (d := s.client) (x := .chunk hd.chunkCount hd.chunkIndex) rfl).insert (d := s.client) nowMs
      fun hd' hacc' => ?_
    rw [hacc] at hacc'
    obtain rfl := Option.some.inj hacc'
    exact List.mem_cons_self

/-- A transfer that is complete was reassembled. -/
theorem Adopted.assembled {c cl : Client} {m : WelcomeMsg} {later : History} (ha : Adopted c cl m later)
    (hcounted : c.chunkReassembler.Counted) (hc : c.chunkReassembler.complete = true) :
    cl.cachedEtag = m.catalogEtag ∨ Reassembled ((c, .assembled) :: later) := by
  refine ha.chunks.imp_right fun hall => ⟨c, List.mem_cons_self, hc, fun i hi => ?_⟩
  obtain ⟨d, index, hd, hidx⟩ := hall i (ChunkReassembler.received_of_complete hcounted hc hi)
  exact ⟨d, index, List.mem_cons_of_mem _ hd, hidx⟩

/-- Going LIVE keeps the law; the guard of `checkLiveTransition` is what LIVE promises. -/
theorem checkLiveTransition_lawful (hs : s.Lawful) : (checkLiveTransition w s).Lawful :=
  lawful_does ((checkLiveTransition_does (T := fun _ => True) (N := fun _ => True) trivial (.inr rfl)).mono
    (Act.In.calm fun _ h => h)) hs

/-- A complete transfer that matches the announced etag is adopted, and only that. -/
theorem adoptCatalog_lawful (hs : s.Lawful) (hc : s.client.chunkReassembler.complete = true) :
    (adoptCatalog w s).Lawful := by
  unfold adoptCatalog
  refine checkLiveTransition_lawful (lawful_does ((sendCatalogReady_does (T := fun _ => True) (N := fun _ => True)
    trivial).mono (Act.In.calm fun _ h => h)) ?_)
  have hlog : (s.log .assembled).Lawful := Lawful.cons hs ⟨rfl, rfl, rfl⟩
  refine ⟨hs.counted, hlog.fresh, fun he => ?_, fun he => ⟨rfl, (hs.live he).2⟩⟩
  refine Accepted.cons rfl rfl ((hs.session he).mono fun _ _ _ ha => ?_)
  exact { ha.cons (d := s.client) (x := .assembled) rfl with ready := fun _ => ha.assembled hs.counted hc }

/-- A chunk keeps the law whether it is refused, kept or completes the catalog. -/
theorem handleBlobChunk_lawful {payload : Bytes} {nowMs : UInt32} (hs : s.Lawful) :
    (handleBlobChunk w payload nowMs s).Lawful := by
  unfold handleBlobChunk
  split
  · exact hs
  · rename_i h _
    split
    · exact hs
    · split
      · exact hs
      · have hinsert : (insertChunk payload nowMs (s.modify (beginTransfer h nowMs))).Lawful :=
          insertChunk_lawful (hs.begin h nowMs)
        dsimp only
        split
        · rename_i hc
          exact adoptCatalog_lawful hinsert hc
        · exact hinsert

/-! ## STATE -/

/-- The frame just read, if a WELCOME was accepted before. -/
theorem Accepted.head {h : History} {P : Client → WelcomeMsg → History → Prop} {x : Client × Io}
    (hc : x.2.isConnect = false) (hw : x.2.accepted = none) (ha : Accepted (x :: h) P) :
    Accepted (x :: h) fun cl m later => P cl m later ∧ x ∈ later := by
  obtain ⟨cl, m, later, earlier, hs, hl, he, hP⟩ := ha
  refine ⟨cl, m, later, earlier, hs, hl, he, hP, ?_⟩
  rw [sinceConnect_cons hc] at hs
  cases later with
  | nil =>
    have hx : x = (cl, .welcomed m) := (List.cons.inj hs).1
    rw [hx] at hw
    cases hw
  | cons y later =>
    obtain ⟨rfl, -⟩ := List.cons.inj hs
    exact List.mem_cons_self

/-- The snapshot of a frame that was read takes its place, whatever becomes of it. -/
theorem Adopted.shadow {c cl d : Client} {m : WelcomeMsg} {later : History} {ch seq : UInt16} {payload : Bytes}
    {e : ShadowEntry} {shadows : ShadowTable} (ha : Adopted c cl m later)
    (hx : (d, Io.rx (.frame (.state ch seq payload))) ∈ later)
    (hfind : c.shadows.findOrCreateShadow ch = some (e, shadows)) :
    Adopted { c with shadows := shadows.update ch (applyStateFrame seq payload e.slot).2, readyPending := false } cl m
      later := by
  obtain ⟨hin, hchan, hrows⟩ := ShadowTable.findOrCreate_some hfind
  have hold : ∀ x ∈ shadows.rows, x.slot.valid = true → Received later x := by
    intro x hmem hv
    rcases hrows x hmem with hmem | hinvalid
    · exact ha.received x hmem hv
    · rw [hinvalid] at hv
      cases hv
  have hcount : shadows.channels.length = c.shadows.channels.length := congrArg List.length hchan
  refine { ha with received := ?_, count := ?_ }
  · intro x hmem hv
    dsimp only at hmem
    unfold applyStateFrame at hmem
    split at hmem
    · rw [ShadowTable.update_found hin] at hmem
      exact hold x hmem hv
    · split at hmem
      · rw [ShadowTable.update_found hin] at hmem
        exact hold x hmem hv
      · rcases ShadowTable.mem_update hmem with hmem | rfl
        · exact hold x hmem hv
        · exact ⟨d, hx⟩
  · dsimp only
    refine ha.count.trans (hcount.symm.trans_le ?_)
    unfold applyStateFrame
    split
    · rw [ShadowTable.update_found hin]
    · split
      · rw [ShadowTable.update_found hin]
      · rw [ShadowTable.length_channels_update hin rfl]
        exact Nat.le_add_right _ _

/-- A first value is counted once it is there. -/
theorem Adopted.adopt {c cl : Client} {m : WelcomeMsg} {later : History} (ha : Adopted c cl m later)
    (hroom : c.adoptedCount.toNat < c.shadows.channels.length) :
    Adopted { c with adoptedCount := c.adoptedCount + 1 } cl m later := by
  refine { ha with count := ?_ }
  have hlen : c.shadows.channels.length ≤ kMaxShadowSlots := by
    rw [ShadowTable.length_channels]
    exact List.countP_le_length.trans c.shadows.bound
  have hmax : kMaxShadowSlots = 16 := rfl
  have hone : (c.adoptedCount + 1).toNat = c.adoptedCount.toNat + 1 := by
    rw [UInt32.toNat_add]
    show (c.adoptedCount.toNat + 1) % 2 ^ 32 = _
    omega
  dsimp only
  omega

/-- The shadow written holds a payload that was received on its channel. -/
theorem shadow_lawful {d : Client} {h : History} {ch seq : UInt16} {payload : Bytes} {e : ShadowEntry}
    {shadows : ShadowTable} (hs : s.Lawful) (hx : s.trace = (d, .rx (.frame (.state ch seq payload))) :: h)
    (hfind : s.client.shadows.findOrCreateShadow ch = some (e, shadows)) :
    (s.modify fun c => { c with
      shadows := shadows.update ch (applyStateFrame seq payload e.slot).2
      readyPending := false }).Lawful := by
  refine ⟨hs.counted, hs.fresh, fun he => ?_, hs.live⟩
  have hsession := hs.session he
  rw [hx] at hsession
  show Accepted s.trace _
  rw [hx]
  exact (Accepted.head rfl rfl hsession).mono fun _ _ _ ha => ha.1.shadow ha.2 hfind

/-- The count of channels adopted keeps pace with the shadows. -/
theorem countAdopted_lawful {v : Bool} (hs : s.Lawful)
    (hroom : s.client.state = .syncing → v = false →
      s.client.adoptedCount.toNat < s.client.shadows.channels.length) : (countAdopted w v s).Lawful := by
  unfold countAdopted
  split
  · rename_i h
    refine checkLiveTransition_lawful ⟨hs.counted, hs.fresh, fun he => ?_, fun he => ?_⟩
    · exact (hs.session he).mono fun _ _ _ ha => ha.adopt (hroom h.1 h.2)
    · rw [show (s.modify _).client.state = s.client.state from rfl, h.1] at he
      cases he
  · exact hs

/-- A STATE keeps the law. -/
theorem handleState_lawful {d : Client} {h : History} {ch seq : UInt16} {payload : Bytes} (hs : s.Lawful)
    (hx : s.trace = (d, .rx (.frame (.state ch seq payload))) :: h) : (handleState w ch seq payload s).Lawful := by
  unfold handleState
  split
  · exact hs
  · rename_i e shadows hfind
    have hshadow := shadow_lawful hs hx hfind
    dsimp only
    split
    · exact hshadow
    · rename_i hacc
      have htold := lawful_does (w := w) ((notify_does (T := fun _ => True) (N := fun _ => True) (K := fun _ => False)
        (n := .onState ch seq payload) trivial).mono (Act.In.calm fun _ h => h.elim)) hshadow
      have hcounted := countAdopted_lawful (w := w) (v := e.slot.valid) htold fun hst hinvalid => ?_
      · exact lawful_calm (w := w) (a := .observe ch payload) trivial trivial hcounted
      · obtain ⟨hin, hchan, -⟩ := ShadowTable.findOrCreate_some hfind
        obtain ⟨cl, m, later, earlier, -, -, -, ha⟩ := hs.session (.inl hst)
        have hvalid : (applyStateFrame seq payload e.slot).2.valid = true := by
          unfold applyStateFrame at hacc ⊢
          split at hacc
          · exact absurd rfl hacc
          · rename_i hlen
            rw [if_neg hlen]
            rw [hinvalid]
            rfl
        have hlen := ShadowTable.length_channels_update hin hvalid
        rw [hinvalid, hchan] at hlen
        have hcount := ha.count
        show s.client.adoptedCount.toNat < (shadows.update ch _).channels.length
        rw [hlen]
        exact Nat.lt_succ_of_le hcount

/-! ## GRANT -/

/-- A GRANT frame, read and acted on. -/
theorem Adopted.grant {c cl d : Client} {m : WelcomeMsg} {later : History} (ha : Adopted c cl m later) (g : GrantMsg) :
    Adopted { c with grants := g.grants.foldl GrantTable.grant c.grants } cl m
      ((d, .rx (.frame (.grant (some g)))) :: later) where
  sessionId := ha.sessionId
  grants := by
    show g.grants.foldl GrantTable.grant c.grants = g.grants.foldl GrantTable.grant (regrants later _)
    rw [ha.grants]
  required := ha.required
  ready h := (ha.ready h).imp_right fun hr => hr.cons _
  chunks := ha.chunks.imp_right fun hall i hi => by
    obtain ⟨d', index, hd, hidx⟩ := hall i hi
    exact ⟨d', index, List.mem_cons_of_mem _ hd, hidx⟩
  received e he hv := (ha.received e he hv).cons _
  count := ha.count

/-- A GRANT keeps the law: the table changes as the GRANT says. -/
theorem handleGrant_lawful {g : GrantMsg} {d : Client} {h : History} (hx : s.trace = (d, .rx (.frame (.grant (some g)))) :: h)
    (hs : Client.Lawful s.client h) : (handleGrant w (some g) s).Lawful := by
  have hgrant : (s.modify fun c => { c with grants := g.grants.foldl GrantTable.grant c.grants }).Lawful := by
    show Client.Lawful _ s.trace
    rw [hx]
    refine ⟨hs.counted, fun he => ?_, fun he => ?_, hs.live⟩
    · rw [sinceConnect_cons rfl, welcomes_cons rfl]
      exact hs.fresh he
    · exact Accepted.cons rfl rfl ((hs.session he).mono fun _ _ _ ha => ha.grant g)
  unfold handleGrant
  dsimp only
  split
  · exact hgrant
  · exact lawful_does (w := w) ((adoptRoles_does (T := fun _ => True) (N := fun _ => True) (K := fun _ => False) trivial
      fun _ _ => trivial).mono (Act.In.calm fun _ h => h.elim)) hgrant

/-! ## WELCOME -/

/-- A WELCOME was accepted, and the client is not yet SYNCING. -/
structure Adopting (s : Sys ε) : Prop where
  counted : s.client.chunkReassembler.Counted
  accepted : Accepted s.trace (Adopted s.client)

theorem Adopting.logged {x : Io} {e : ε} (hs : Adopting s) (hx : x.Plain) {d : Client} (h : SameSession s.client d) :
    Adopting { client := d, env := e, trace := (s.client, x) :: s.trace } where
  counted := h.chunkReassembler ▸ hs.counted
  accepted := Accepted.cons hx.1 hx.2.1 (hs.accepted.mono fun _ _ _ ha => (ha.cons hx.2.2).same h)

/-- What is done between the two. -/
def Act.Judging : Act ε → Prop
  | .judge _ | .verify _ => True
  | _ => False

theorem adopting_act {a : Act ε} (ha : Act.In (fun _ => True) (fun _ => True) Act.Judging a) (hok : a.Ok w s)
    (hs : Adopting s) : Adopting (a.apply w s) := by
  cases a with
  | world e => exact ⟨hs.counted, hs.accepted⟩
  | log x =>
    cases x with
    | note => exact hs.logged ⟨rfl, rfl, rfl⟩ ⟨rfl, rfl, rfl, rfl, rfl, rfl, rfl⟩
    | _ => exact ha.elim
  | minor f =>
    have hsame := sameSession_of_same (hok s.client)
    exact ⟨hsame.chunkReassembler ▸ hs.counted, hs.accepted.mono fun _ _ _ ha => ha.same hsame⟩
  | write type ch payload bytes =>
    simp only [Act.apply, writeFrame]
    split <;> exact hs.logged ⟨rfl, rfl, rfl⟩ ⟨rfl, rfl, rfl, rfl, rfl, rfl, rfl⟩
  | judge | verify =>
    exact ⟨hs.counted, hs.accepted.mono fun _ _ _ ha => ha.same ⟨rfl, rfl, rfl, rfl, rfl, rfl, rfl⟩⟩
  | _ => exact ha.elim

/-- Between the WELCOME and the end of its handling, what is adopted stays adopted. -/
theorem adopting_does {T : FrameType → Prop} {N : Note → Prop} {K : Act ε → Prop} (h : Does w (Act.In T N K) s t)
    (hK : ∀ a, K a → a.Judging) (hs : Adopting s) : Adopting t :=
  Path.invariant (I := Adopting) (h.mono (Act.In.mono (fun _ _ => trivial) (fun _ _ => trivial) hK))
    (fun _ _ _ ha ⟨hok, heq⟩ hx => heq ▸ adopting_act ha hok hx) hs

/-- The first WELCOME of the connection. -/
theorem accepted_first {m : WelcomeMsg} {P : Client → WelcomeMsg → History → Prop} (c : Client) {h : History}
    (hfresh : welcomes (sinceConnect h) = []) (hP : P c m []) : Accepted ((c, .welcomed m) :: h) P :=
  ⟨c, m, [], sinceConnect h, sinceConnect_cons rfl h, rfl, hfresh, hP⟩

/-- The catalog request of a fresh session does not disturb what the WELCOME brought. -/
theorem bootstrapCatalog_adopting {m : WelcomeMsg} (hs : s.Lawful) (hst : s.client.state = .helloSent) :
    Adopting (bootstrapCatalog w ((s.log (.welcomed m)).modify (adoptWelcome m))) := by
  unfold bootstrapCatalog
  split
  · rename_i hmatch
    exact ⟨hs.counted, accepted_first s.client (hs.fresh hst)
      ⟨rfl, rfl, rfl, fun _ => .inl hmatch, .inl hmatch, fun _ he => absurd he List.not_mem_nil, Nat.le_refl 0⟩⟩
  · refine adopting_does (w := w) (sendBlobReq_does (T := fun _ => True) (N := fun _ => True) (K := fun _ => False) trivial)
      (fun _ h => h.elim) ⟨ChunkReassembler.counted_new,
      accepted_first s.client (hs.fresh hst) ⟨rfl, rfl, rfl, (fun h => nomatch h), .inr fun i hi => ?_,
        fun _ he => absurd he List.not_mem_nil, Nat.le_refl 0⟩⟩
    have hnone : (List.replicate 64 false).getD i false = true := hi
    rw [ChunkReassembler.getD_replicate_false] at hnone
    cases hnone

/-- A WELCOME keeps the law: the session it opens is the one it describes. -/
theorem handleWelcome_lawful {m : WelcomeMsg} (hs : s.Lawful) : (handleWelcome w (some m) s).Lawful := by
  by_cases h : s.client.state = .helloSent
  · obtain ⟨t, ht, heq⟩ := handleWelcome_eq (w := w) m h
    rw [heq]
    have hjudging : ∀ a : Act ε, Judges m a → a.Judging := fun a ha => by
      match a with
      | .judge _ | .verify _ => trivial
    have hadopting := adopting_does ht hjudging (bootstrapCatalog_adopting hs h)
    have hsyncing : (t.modify fun c => { c with state := .syncing }).Lawful := by
      refine ⟨hadopting.counted, fun he => (nomatch he), fun _ => ?_, fun he => (nomatch he)⟩
      exact hadopting.accepted.mono fun _ _ _ ha => ha.same ⟨rfl, rfl, rfl, rfl, rfl, rfl, rfl⟩
    refine checkLiveTransition_lawful (lawful_does (w := w) ((notify_does (T := fun _ => True) (N := fun _ => True)
      (K := fun _ => False) (n := .onStateChange .syncing) trivial).mono (Act.In.calm fun _ h => h.elim)) hsyncing)
  · unfold handleWelcome
    dsimp only
    rw [if_pos h]
    exact hs

/-! ## Frames -/

/-- The frames that change what is known of the session. -/
def Inbound.Telling : Inbound → Prop
  | .welcome (some _) | .state _ _ _ | .blobChunk _ | .grant (some _) => True
  | _ => False

/-- A message that tells the session nothing allows only calm acts. -/
theorem Inbound.Allows.calm {m : Inbound} {nowMs : UInt32} (hm : ¬ m.Telling) :
    ∀ a : Act ε, m.Allows nowMs a → a.Calm
  | .log (.welcomed _), h | .welcome _, h => absurd (h ▸ trivial) hm
  | .log (.chunk _ _), h | .log .assembled, h => absurd (by obtain ⟨_, rfl⟩ := h; trivial) hm
  | .become _, .inl h => .inr h
  | .become _, .inr (.inl ⟨_, _, h⟩) => absurd (h ▸ trivial) hm
  | .become _, .inr (.inr h) => .inl h.1
  | .ready _, ⟨_, .inl ⟨_, h⟩⟩ | .ready _, ⟨_, .inr ⟨_, h⟩⟩ => absurd (h ▸ trivial) hm
  | .forget, ⟨_, h⟩ | .begin _ _, ⟨_, _, h⟩ | .insert _ _, ⟨_, h⟩ | .adopt, ⟨_, _, _, h⟩ | .shadow _ _ _, h =>
    absurd (h ▸ trivial) hm
  | .grant _, ⟨_, h, _⟩ => absurd (h ▸ trivial) hm
  | .log .connect, h | .log (.opened _), h | .log .closed, h | .log (.rx _), h | .log (.writeEstop _ _), h
  | .log (.write _ _ _ _), h | .log (.note _), h | .reset, h => h.elim
  | .world _, _ | .minor _, _ | .advance _, _ | .write _ _ _ _, _ | .drop, _ | .settle _, _ | .echoed _, _ | .queue _, _
  | .verify _, _ | .judge _, _ | .pin _, _ | .draw _, _ | .arm, _ | .request _, _ | .startProbe, _ | .stopProbe, _
  | .initiate _, _ | .initiated _, _ | .repeated _ _, _ | .giveUp, _ | .observe _ _, _ => trivial

/-- Dispatch keeps the law, message by message. -/
theorem dispatch_lawful {m : Inbound} {nowMs : UInt32} {d : Client} {h : History}
    (hx : s.trace = (d, .rx (.frame m)) :: h) (hs : Client.Lawful s.client h) : (dispatch w m nowMs s).Lawful := by
  have hlawful : (∀ g, m ≠ .grant (some g)) → s.Lawful := fun hm => by
    show Client.Lawful s.client s.trace
    rw [hx]
    refine Lawful.cons hs ⟨rfl, rfl, ?_⟩
    match m with
    | .grant (some g) => exact absurd rfl (hm g)
    | .grant none | .welcome _ | .state _ _ _ | .echo _ | .nack _ | .event _ _ | .blobChunk _ | .ping _ | .pairGrant _
    | .hubSig _ | .probe _ | .goodbye | .other => rfl
  by_cases htelling : m.Telling
  · match m with
    | .welcome (some m) => exact handleWelcome_lawful (hlawful fun _ => Inbound.noConfusion)
    | .state ch seq payload => exact handleState_lawful (hlawful fun _ => Inbound.noConfusion) hx
    | .blobChunk payload => exact handleBlobChunk_lawful (hlawful fun _ => Inbound.noConfusion)
    | .grant (some g) => exact handleGrant_lawful hx hs
  · refine lawful_does (dispatch_does.mono (Act.In.calm (Inbound.Allows.calm htelling))) (hlawful ?_)
    rintro g rfl
    exact htelling trivial

/-- A frame keeps the law. -/
theorem handleFrame_lawful {rx : RxFrame} {nowMs : UInt32} (hs : s.Lawful) : (handleFrame w nowMs s rx).Lawful := by
  have hrx : Client.Lawful { s.client with lastRxMs := nowMs } s.trace :=
    Lawful.same hs ⟨rfl, rfl, rfl, rfl, rfl, rfl, rfl⟩ rfl
  unfold handleFrame
  cases rx with
  | estop => exact Lawful.cons hrx ⟨rfl, rfl, rfl⟩
  | badEstop | short => exact Lawful.cons hs ⟨rfl, rfl, rfl⟩
  | frame m => exact dispatch_lawful rfl hrx

/-- `update` keeps the law. -/
theorem update_lawful {nowUs : UInt32} {frames : List RxFrame} (hs : s.Lawful) : (update w nowUs frames s).Lawful := by
  have hframes : ∀ (frames : List RxFrame) (s : Sys ε) (nowMs : UInt32), s.Lawful →
      (frames.foldl (handleFrame w nowMs) s).Lawful := by
    intro frames
    induction frames with
    | nil => exact fun _ _ h => h
    | cons rx frames ih => exact fun s nowMs h => ih _ nowMs (handleFrame_lawful h)
  have hpumps : ∀ (nowMs : UInt32) (s : Sys ε), Does w Act.Calm s (pumps w nowMs s) := by
    intro nowMs s
    refine Does.mono (Q := Act.Calm) (P := Act.In (fun _ => True) (fun _ => True) Act.Calm) ?_
      (Act.In.calm fun _ h => h)
    exact Does.trans (pumpPing_does trivial) (Does.trans (pumpEstopRepeat_does (fun _ => trivial) trivial)
      (Does.trans (pumpCatalogReady_does trivial) (Does.trans (pumpProbe_does trivial trivial)
        (pumpHubSigTimeout_does trivial trivial))))
  unfold update
  exact lawful_does (hpumps _ _) (hframes frames _ _ (Lawful.same hs ⟨rfl, rfl, rfl, rfl, rfl, rfl, rfl⟩ rfl))

/-! ## connect -/

/-- `connect` was called, and no WELCOME was accepted since. -/
structure Started (s : Sys ε) : Prop where
  counted : s.client.chunkReassembler.Counted
  fresh : welcomes (sinceConnect s.trace) = []

/-- What `connect` does. -/
def Act.Starting : Act ε → Prop
  | .log (.opened _) | .drop | .reset | .draw _ | .judge _ | .arm => True
  | .become st => st = .helloSent
  | _ => False

theorem Started.log {x : Io} (hs : Started s) (hc : x.isConnect = false) (ha : x.accepted = none) :
    Started (s.log x) where
  counted := hs.counted
  fresh := by
    show welcomes (sinceConnect ((s.client, x) :: s.trace)) = []
    rw [sinceConnect_cons hc, welcomes_cons ha]
    exact hs.fresh

theorem Started.congr (hs : Started s) (ht : t.trace = s.trace)
    (hr : t.client.chunkReassembler = s.client.chunkReassembler) : Started t :=
  ⟨hr ▸ hs.counted, ht ▸ hs.fresh⟩

/-- While `connect` runs, every act keeps the clean start. -/
theorem started_act {a : Act ε} (ha : Act.In (fun _ => True) (fun _ => True) Act.Starting a) (hok : a.Ok w s)
    (hs : Started s) : Started (a.apply w s) := by
  cases a with
  | world e => exact ⟨hs.counted, hs.fresh⟩
  | log x =>
    cases x with
    | note | opened => exact hs.log rfl rfl
    | _ => exact ha.elim
  | minor f => exact ⟨(hok s.client).chunkReassembler ▸ hs.counted, hs.fresh⟩
  | reset => exact ⟨ChunkReassembler.counted_new, hs.fresh⟩
  | write type ch payload bytes =>
    refine (hs.log (x := .write type ch payload (w.write bytes s.env).1) rfl rfl).congr ?_ ?_
    · simp only [Act.apply, writeFrame]
      split <;> rfl
    · simp only [Act.apply, writeFrame]
      split <;> rfl
  | become | drop | judge | draw | arm =>
    exact hs.congr (by simp only [Act.apply, Sys.modify]) (by simp only [Act.apply, Sys.modify])
  | _ => exact ha.elim

/-- `connect` begins a connection of which nothing is known yet. -/
theorem started_connect (hs : s.Lawful) : Started (connect w s).2 := by
  have hlog : Started (s.log .connect) := ⟨hs.counted, rfl⟩
  have hdoes : Does w (Act.In (fun _ => True) (fun _ => True) Act.Starting) (s.log .connect) (connect w s).2 :=
    connect_does trivial (fun _ _ => trivial) (fun _ => trivial) trivial trivial (fun _ => trivial)
      (fun _ _ _ _ => trivial) trivial rfl
  exact Path.invariant (I := Started) hdoes (fun _ _ _ ha ⟨hok, heq⟩ hx => heq ▸ started_act ha hok hx) hlog

/-- A client that has neither accepted a WELCOME nor claims to. -/
theorem Started.lawful (hs : Started s) (h : s.client.state ≠ .syncing ∧ s.client.state ≠ .live) : s.Lawful :=
  ⟨hs.counted, fun _ => hs.fresh, fun he => absurd he (not_or.mpr h), fun he => absurd he h.2⟩

/-- Where `connect` stands when it sends its HELLO. -/
def beforeHello (w : World ε) (s : Sys ε) : Sys ε :=
  let s := flushPending w (s.log .connect)
  requestSignature w (({ s.log (.opened true) with env := (w.openTransport s.env).2 } : Sys ε).modify resetSession)

/-- The transport opens, there is a HELLO that fits, and the transport takes it. -/
def CanConnect (w : World ε) (s : Sys ε) : Prop :=
  (w.openTransport (flushPending w (s.log .connect)).env).1 = true ∧
    ∃ payload bytes, encodeHello w.f32Bits (hello (beforeHello w s).client) 700 = some payload ∧
      encodeFrame .hello 0 0 payload = some bytes ∧ (w.write bytes (beforeHello w s).env).1 = true

theorem flushPending_state (s : Sys ε) : (flushPending w s).client.state = s.client.state := by
  have hfold : ∀ (ids : List UInt16) (s : Sys ε),
      (ids.foldl (fun s id => notify w (.onPendingDropped id) s) s).client.state = s.client.state := by
    intro ids
    induction ids with
    | nil => exact fun _ => rfl
    | cons id ids ih => exact fun s => ih _
  exact hfold _ s

theorem setHubAuth_state (st : HubAuthState) (s : Sys ε) : (setHubAuth w st s).client.state = s.client.state := by
  unfold setHubAuth
  split <;> rfl

theorem requestSignature_state (s : Sys ε) : (requestSignature w s).client.state = s.client.state := by
  unfold requestSignature
  split
  · rfl
  · exact setHubAuth_state _ _

/-- `sendHello` either wrote the HELLO and waits for an answer, or failed and left the state as it was. -/
theorem sendHello_cases (s : Sys ε) :
    ((sendHello w s).1 = true ∧ (sendHello w s).2.client.state = .helloSent ∧
      ∃ payload bytes, encodeHello w.f32Bits (hello s.client) 700 = some payload ∧
        encodeFrame .hello 0 0 payload = some bytes ∧ (w.write bytes s.env).1 = true) ∨
    ((sendHello w s).1 = false ∧ (sendHello w s).2.client.state = s.client.state ∧
      ¬ ∃ payload bytes, encodeHello w.f32Bits (hello s.client) 700 = some payload ∧
        encodeFrame .hello 0 0 payload = some bytes ∧ (w.write bytes s.env).1 = true) := by
  unfold sendHello sendFrame
  cases hpayload : encodeHello w.f32Bits (hello s.client) 700 with
  | none => exact .inr ⟨rfl, rfl, fun ⟨_, _, h, _⟩ => nomatch h⟩
  | some payload =>
    dsimp only
    cases hbytes : encodeFrame .hello 0 0 payload with
    | none =>
      refine .inr ⟨rfl, rfl, ?_⟩
      rintro ⟨_, _, ⟨⟩, h, _⟩
      rw [hbytes] at h
      cases h
    | some bytes =>
      dsimp only
      cases hwrite : (w.write bytes s.env).1 with
      | true => exact .inl ⟨rfl, rfl, payload, bytes, rfl, hbytes, hwrite⟩
      | false =>
        refine .inr ⟨rfl, rfl, ?_⟩
        rintro ⟨_, _, ⟨⟩, h, hok⟩
        rw [hbytes] at h
        cases h
        rw [hwrite] at hok
        cases hok

/-- A `connect` that fails leaves the state as it was. -/
theorem connect_cases (s : Sys ε) :
    ((connect w s).1 = true ∧ (connect w s).2.client.state = .helloSent ∧ CanConnect w s) ∨
    ((connect w s).1 = false ∧ (connect w s).2.client.state = s.client.state ∧ ¬ CanConnect w s) := by
  unfold connect CanConnect
  cases hopen : (w.openTransport (flushPending w (s.log .connect)).env).1 with
  | false =>
    refine .inr ⟨by simp [hopen], ?_, fun h => nomatch h.1⟩
    simp only [hopen, Bool.not_false, if_true]
    exact flushPending_state _
  | true =>
    have hhello := sendHello_cases (w := w) (beforeHello w s)
    have heq : (beforeHello w s).client.state = s.client.state := (requestSignature_state _).trans (flushPending_state _)
    simp only [hopen, Bool.not_true, Bool.false_eq_true, if_false, true_and]
    rw [heq] at hhello
    exact hhello

/-! ## Runs -/

/-- In a session, or on the way to it. -/
def Up (c : Client) : Prop := c.state = .syncing ∨ c.state = .live

/-- `connect` keeps the law where it is allowed to begin. -/
theorem connect_lawful (hs : s.Lawful) (hc : Up s.client → CanConnect w s) : (connect w s).2.Lawful := by
  refine (started_connect hs).lawful ?_
  rcases connect_cases (w := w) s with ⟨-, hst, -⟩ | ⟨-, hst, hcan⟩
  · rw [hst]
    exact ⟨nofun, nofun⟩
  · rw [hst]
    exact not_or.mp fun hup => hcan (hc hup)

/-- Every call keeps the law, a refused `connect` apart. -/
theorem call_lawful {x : Call ε} (hs : s.Lawful) (hc : x = .connect → Up s.client → CanConnect w s) :
    (call w s x).Lawful := by
  have hcalm : ∀ {t : Sys ε}, Does w (Act.In (fun _ => True) (fun _ => True) Act.Calm) s t → t.Lawful := fun h =>
    lawful_does (h.mono (Act.In.calm fun _ h => h)) hs
  cases x with
  | world e => exact hs
  | addSubscriptionWish x =>
    refine hcalm ((Does.refl s).minor (f := addSubscriptionWish x) fun c => ?_)
    unfold addSubscriptionWish
    split <;> constructor <;> rfl
  | setCachedEtag etag =>
    exact hcalm ((Does.refl s).minor (f := fun c => { c with cachedEtag := etag }) fun c => by constructor <;> rfl)
  | setClientVersion ver =>
    exact hcalm ((Does.refl s).minor (f := fun c => { c with clientVer := ver }) fun c => by constructor <;> rfl)
  | setTokenPresentationMode mode =>
    exact hcalm ((Does.refl s).minor (f := fun c => { c with presentationMode := mode }) fun c => by constructor <;> rfl)
  | connect => exact connect_lawful hs (hc rfl)
  | disconnect => exact hcalm (disconnect_does trivial (fun _ _ => trivial) trivial ⟨rfl, rfl, rfl⟩ (.inl rfl))
  | update => exact update_lawful hs
  | sendIntent => exact hcalm (sendIntent_does trivial fun _ => trivial)
  | initiateEstop => exact hcalm (initiateEstop_does trivial fun _ => trivial)
  | sendPairReq => exact hcalm (sendPairReq_does trivial)
  | sendPairKnock => exact hcalm (sendPairing_does trivial)
  | runProbe => exact hcalm (runProbe_does trivial trivial)
  | setHubPublicKey => exact hcalm (setHubPublicKey_does trivial)
  | requestHubSignature on => exact hcalm (Does.act (a := .request on) trivial trivial)

theorem lawful_boot (id : ClientIdentity) (e : ε) : (boot id e).Lawful :=
  ⟨ChunkReassembler.counted_new, nofun, nofun, nofun⟩

theorem run_append (w : World ε) (id : ClientIdentity) (e : ε) (p : List (Call ε)) (x : Call ε) :
    run w id e (p ++ [x]) = call w (run w id e p) x :=
  List.foldl_concat (call w) (boot id e) x p

/-- So it holds in every state of a run whose reconnects can begin. -/
theorem run_lawful {id : ClientIdentity} {e : ε} {calls : List (Call ε)}
    (hc : ∀ p, p ++ [.connect] <+: calls → Up (run w id e p).client → CanConnect w (run w id e p)) :
    (run w id e calls).Lawful := by
  induction calls using List.reverseRecOn with
  | nil => exact lawful_boot id e
  | append_singleton calls x ih =>
    rw [run_append]
    refine call_lawful (ih fun p hp => hc p (hp.trans (List.prefix_append calls [x]))) ?_
    rintro rfl
    exact hc calls (List.prefix_refl _)

/-- What the state of a client says of its history. -/
structure Known (c : Client) (h : History) : Prop where
  session : Up c → Accepted h fun _ m later => c.sessionId = m.sessionId ∧ c.grants = regrants later ⟨m.grants, m.bound⟩
  live : c.state = .live → Accepted h fun cl m later =>
    (cl.cachedEtag = m.catalogEtag ∨ Reassembled later) ∧
    ∃ chs : List UInt16, chs.Nodup ∧ m.retainedPending.toNat ≤ chs.length ∧
      ∀ ch ∈ chs, ∃ e, c.shadows.find ch = some e ∧ e.slot.valid = true ∧ Received later e

theorem Lawful.known {c : Client} {h : History} (hl : Lawful c h) : Known c h where
  session hup := (hl.session hup).mono fun _ _ _ ha => ⟨ha.sessionId, ha.grants⟩
  live hlive := (hl.session (.inr hlive)).mono fun _ _ _ ha => by
    obtain ⟨hready, hcount⟩ := hl.live hlive
    refine ⟨ha.ready hready, c.shadows.channels, c.shadows.nodup_channels, ?_, fun ch hch => ?_⟩
    · rw [← ha.required]
      exact (UInt32.le_iff_toNat_le.mp hcount).trans ha.count
    · obtain ⟨e, he, rfl⟩ := List.mem_map.mp hch
      obtain ⟨hmem, hv⟩ := List.mem_filter.mp he
      exact ⟨e, ShadowTable.find_of_mem hmem, hv, ha.received e hmem hv⟩

/-- **The state of a client is true to its history, and no `connect` that fails leaves a session in force, exactly when
every `connect` made in a session connects.** -/
theorem session_known_iff (w : World ε) (id : ClientIdentity) (e : ε) (calls : List (Call ε)) :
    ((∀ p, p <+: calls → Known (run w id e p).client (run w id e p).trace) ∧
      ∀ p, p ++ [.connect] <+: calls → (connect w (run w id e p)).1 = false → ¬ Up (connect w (run w id e p)).2.client) ↔
    ∀ p, p ++ [.connect] <+: calls → Up (run w id e p).client → CanConnect w (run w id e p) := by
  constructor
  · rintro ⟨-, hfail⟩ p hp hup
    rcases connect_cases (w := w) (run w id e p) with ⟨-, -, hcan⟩ | ⟨hfalse, hst, -⟩
    · exact hcan
    · refine absurd ?_ (hfail p hp hfalse)
      unfold Up
      rw [hst]
      exact hup
  · intro hc
    constructor
    · intro p hp
      exact (run_lawful fun q hq => hc q (hq.trans hp)).known
    · intro p hp hfalse
      rcases connect_cases (w := w) (run w id e p) with ⟨htrue, -, -⟩ | ⟨-, hst, hcan⟩
      · rw [htrue] at hfalse
        cases hfalse
      · unfold Up
        rw [hst]
        exact fun hup => hcan (hc p hp hup)

end

/-- The transport does not open, and the client is still LIVE. -/
theorem session_outlives_failed_connect :
    ¬ ∀ calls : List (Call Bench),
      (∀ p, p <+: calls → Known (run Bench.world {} {} p).client (run Bench.world {} {} p).trace) ∧
      ∀ p, p ++ [.connect] <+: calls → (connect Bench.world (run Bench.world {} {} p)).1 = false →
        ¬ Up (connect Bench.world (run Bench.world {} {} p)).2.client := by
  intro h
  have hfail := (h [.connect, Bench.reads 0 [.welcome (some (Bench.welcome 1))], .world { openOk := false }, .connect]).2
    [.connect, Bench.reads 0 [.welcome (some (Bench.welcome 1))], .world { openOk := false }] (List.prefix_refl _)
    (by decide +kernel)
  exact hfail (.inr (by decide +kernel))

end Client

end SlopSync
