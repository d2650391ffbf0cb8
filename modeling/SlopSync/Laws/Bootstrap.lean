import SlopSync.Laws.ClientSession
import SlopSync.Laws.Reassembly
import SlopSync.Laws.Sha256

/-! # Fetching the catalog

A client that is welcomed with an etag it does not have forgets what it had and asks for the catalog.  While the chunks
of a catalog that it reads are chunks of one, what it takes for the catalog is that one; once all of them have come, in
any order, any number of times and among any other frames, it has declared it. -/

namespace SlopSync

open Sha256 (length_hash)

/-- A transfer with more chunks than there is room for is not begun. -/
theorem begin_refused {maxChunks : Nat} {r : ChunkReassembler maxChunks} {h : BlobChunkHeader} {nowMs : UInt32}
    (hroom : maxChunks < h.chunkCount.toNat) : (r.begin h nowMs).active = false := by
  have hmore : decide (h.chunkCount.toNat ≤ maxChunks) = false := decide_eq_false (Nat.not_le.mpr hroom)
  unfold ChunkReassembler.begin
  simp [hmore]

namespace Client

open Labelled

/-- What is declared of a catalog. -/
def catalogDigest (encoded : Bytes) : Bytes := (Sha256.hash encoded).take kCatalogReadyBytes

/-- The digest sent back with CATALOG_READY has the length the frame asks for. -/
theorem length_catalogDigest (encoded : Bytes) : (catalogDigest encoded).length = kCatalogReadyBytes := by
  rw [catalogDigest, List.length_take, length_hash]
  rfl

/-- The chunk in a frame that was read. -/
def Io.brought : Io → Option Bytes
  | .rx (.frame (.blobChunk payload)) => some payload
  | _ => none

def chunksRead (h : History) : List Bytes := h.filterMap fun x => x.2.brought

section

variable (id : BlobId) (encoded : Bytes)

/-- The chunks of a catalog that were read are chunks of this one. -/
def Honest (h : History) : Prop :=
  ∀ payload ∈ chunksRead h, ∀ hd, getBlobChunkHeader payload = some hd → hd.id.isCatalog = true →
    payload ∈ blobChunks id encoded

/-- This chunk was read. -/
def Came (h : History) (k : Nat) : Prop := blobChunk id encoded k ∈ chunksRead h

/-- The catalog was declared, whether or not the transport took the frame. -/
def Declared (h : History) : Prop := ∃ d ok, (d, Io.write .catalogReady 0 (catalogDigest encoded) ok) ∈ h

/-! ## The transfer -/

/-- Nothing is transferred, or what has come of this catalog. -/
structure Fetching (came : Nat → Prop) (c : Client) : Prop where
  sized : Sized c.chunkReassembler
  transfer : c.chunkReassembler.active = true → Assembles c.chunkReassembler id encoded ∧
    c.catalogChunkCount = UInt16.ofNat (chunkCount encoded.length)
  taken : chunkCount encoded.length ≤ 64 → ∀ k < chunkCount encoded.length, came k →
    c.chunkReassembler.active = true ∧ c.chunkReassembler.received.getD k false = true

/-! ## After a WELCOME -/

/-- What was taken for the catalog since is the catalog. -/
structure Fetched (c : Client) (later : History) : Prop where
  fetching : Fetching id encoded (Came id encoded later) c
  right : ∀ d, (d, Io.assembled) ∈ later → d.chunkReassembler.assembled = encoded

/-- A catalog is at hand when it is complete, and then it was declared. -/
structure AtHand (c : Client) (later : History) : Prop where
  whole : c.catalogReady = true → c.chunkReassembler.complete = true
  ready : c.chunkReassembler.complete = true → c.catalogReady = true
  declared : c.chunkReassembler.complete = true → Declared encoded later

/-- `P` holds since a WELCOME with an etag that was news, if nothing but this catalog was read. -/
def Since (P : Client → History → Prop) (c : Client) (h : History) : Prop :=
  ∀ later cl m earlier, sinceConnect h = later ++ (cl, Io.welcomed m) :: earlier → cl.cachedEtag ≠ m.catalogEtag →
    Honest id encoded later → P c later

end

/-! ## The chunks -/

section

variable {id : BlobId} {encoded : Bytes} {came came' : Nat → Prop} {c d : Client}

/-- Fewer chunks to have come is less to claim. -/
theorem Fetching.mono (h : Fetching id encoded came c) (hcame : ∀ k < chunkCount encoded.length, came' k → came k) :
    Fetching id encoded came' c :=
  { h with taken := fun hroom k hk hc => h.taken hroom k hk (hcame k hk hc) }

/-- A transfer that is complete is the catalog. -/
theorem Fetching.assembled (h : Fetching id encoded came c) (hc : c.chunkReassembler.complete = true) :
    c.chunkReassembler.assembled = encoded := by
  have hactive : c.chunkReassembler.active = true := (Bool.and_eq_true_iff.mp hc).1
  obtain ⟨hassembles, -⟩ := h.transfer hactive
  refine (hassembles.done fun k hk => ChunkReassembler.received_of_complete hassembles.counted hc ?_).2
  rw [hassembles.count, toNat_ofNat16 hassembles.small]
  exact hk

/-- When all of it has come, the transfer is complete. -/
theorem Fetching.complete (h : Fetching id encoded came c) (hsome : 0 < chunkCount encoded.length)
    (hroom : chunkCount encoded.length ≤ 64) (hall : ∀ k < chunkCount encoded.length, came k) :
    c.chunkReassembler.complete = true := by
  obtain ⟨hactive, -⟩ := h.taken hroom 0 hsome (hall 0 hsome)
  exact ((h.transfer hactive).1.done fun k hk => (h.taken hroom k hk (hall k hk)).2).1

/-- A transfer under way is not begun again. -/
theorem Fetching.begun (h : Fetching id encoded came c) (hactive : c.chunkReassembler.active = true) {k : Nat}
    {hd : BlobChunkHeader} (hhd : getBlobChunkHeader (blobChunk id encoded k) = some hd) (nowMs : UInt32) :
    beginTransfer hd nowMs c = c := by
  rw [getBlobChunkHeader_blobChunk] at hhd
  obtain rfl := Option.some.inj hhd
  unfold beginTransfer
  rw [hactive, (h.transfer hactive).2]
  simp

theorem beginTransfer_ready (hd : BlobChunkHeader) (nowMs : UInt32) (c : Client) :
    (beginTransfer hd nowMs c).catalogReady = c.catalogReady := by
  unfold beginTransfer
  split <;> rfl

/-- The first chunk of a transfer starts it with the announced count. -/
theorem Fetching.begin (h : Fetching id encoded came c) (hsmall : chunkCount encoded.length < 2 ^ 16) {k : Nat}
    (hk : k < chunkCount encoded.length) {hd : BlobChunkHeader}
    (hhd : getBlobChunkHeader (blobChunk id encoded k) = some hd) (nowMs : UInt32) :
    Fetching id encoded came (beginTransfer hd nowMs c) ∧
      (chunkCount encoded.length ≤ 64 → (beginTransfer hd nowMs c).chunkReassembler.active = true) := by
  cases hactive : c.chunkReassembler.active with
  | true =>
    rw [h.begun hactive hhd]
    exact ⟨h, fun _ => hactive⟩
  | false =>
    have hcount : hd.chunkCount = UInt16.ofNat (chunkCount encoded.length) := by
      rw [getBlobChunkHeader_blobChunk] at hhd
      obtain rfl := Option.some.inj hhd
      rfl
    have hnone : chunkCount encoded.length ≤ 64 → ∀ j < chunkCount encoded.length, ¬came j := by
      intro hroom j hj hcame
      have htaken := (h.taken hroom j hj hcame).1
      rw [hactive] at htaken
      cases htaken
    unfold beginTransfer
    simp only [hactive, Bool.not_false, Bool.true_or, if_true]
    by_cases hroom : chunkCount encoded.length ≤ 64
    · have hbegin := assembles_begin h.sized (Nat.zero_lt_of_lt hk) hroom hsmall hhd nowMs
      exact ⟨⟨hbegin.sized, fun _ => ⟨hbegin, hcount⟩, fun _ j hj hcame => absurd hcame (hnone hroom j hj)⟩,
        fun _ => hbegin.active⟩
    · have hrefused : (c.chunkReassembler.begin hd nowMs).active = false := begin_refused (by
        rw [hcount, toNat_ofNat16 hsmall]
        exact Nat.not_le.mp hroom)
      refine ⟨⟨h.sized, fun hact => ?_, fun hle => absurd hle hroom⟩, fun hle => absurd hle hroom⟩
      rw [hrefused] at hact
      cases hact

/-- One chunk more. -/
theorem Fetching.insert (h : Fetching id encoded came c) {k : Nat} (hk : k < chunkCount encoded.length)
    (hactive : chunkCount encoded.length ≤ 64 → c.chunkReassembler.active = true) (nowMs : UInt32) :
    Fetching id encoded (fun j => came j ∨ j = k)
      { c with chunkReassembler := c.chunkReassembler.insert (blobChunk id encoded k) nowMs } := by
  cases hact : c.chunkReassembler.active with
  | true =>
    obtain ⟨hassembles, hcount⟩ := h.transfer hact
    obtain ⟨hnext, hset⟩ := hassembles.insert hk nowMs
    refine ⟨hnext.sized, fun _ => ⟨hnext, hcount⟩, fun hroom j hj hcome => ⟨hnext.active, ?_⟩⟩
    have hsize : k < c.chunkReassembler.received.length := by
      rw [hassembles.counted.size]
      exact hk.trans_le hassembles.room
    dsimp only
    rw [hset]
    rcases hcome with hbefore | rfl
    · exact getD_set_true hsize (.inl (h.taken hroom j hj hbefore).2)
    · exact getD_set_true hsize (.inr rfl)
  | false =>
    -- too long a catalog
    have hrefuses : c.chunkReassembler.insert (blobChunk id encoded k) nowMs = c.chunkReassembler := by
      unfold ChunkReassembler.insert ChunkReassembler.accepts
      rw [hact]
      rfl
    rw [hrefuses]
    refine { h with taken := fun hroom => ?_ }
    rw [hactive hroom] at hact
    cases hact

/-- A chunk more of a catalog that is complete changes nothing about that. -/
theorem Fetching.stays (h : Fetching id encoded came c) {k : Nat} (hk : k < chunkCount encoded.length)
    {hd : BlobChunkHeader} (hhd : getBlobChunkHeader (blobChunk id encoded k) = some hd) (nowMs : UInt32)
    (hc : c.chunkReassembler.complete = true) :
    ((beginTransfer hd nowMs c).chunkReassembler.insert (blobChunk id encoded k) nowMs).complete = true := by
  have hactive : c.chunkReassembler.active = true := (Bool.and_eq_true_iff.mp hc).1
  obtain ⟨hassembles, -⟩ := h.transfer hactive
  obtain ⟨hnext, hset⟩ := hassembles.insert hk nowMs
  rw [h.begun hactive hhd]
  refine (hnext.done fun j hj => ?_).1
  have hsize : k < c.chunkReassembler.received.length := by
    rw [hassembles.counted.size]
    exact hk.trans_le hassembles.room
  rw [hset]
  refine getD_set_true hsize (.inl (ChunkReassembler.received_of_complete hassembles.counted hc ?_))
  rw [hassembles.count, toNat_ofNat16 hassembles.small]
  exact hj

/-! ## What leaves it alone -/

/-- Two clients with the same transfer. -/
structure SameTransfer (c d : Client) : Prop where
  chunkReassembler : d.chunkReassembler = c.chunkReassembler
  catalogChunkCount : d.catalogChunkCount = c.catalogChunkCount
  catalogReady : d.catalogReady = c.catalogReady

/-- The transfer is read off the reassembler and the flags beside it. -/
theorem Fetching.same (h : Fetching id encoded came c) (hs : SameTransfer c d) : Fetching id encoded came d := by
  obtain ⟨hr, hcount, -⟩ := hs
  refine ⟨?_, ?_, ?_⟩
  · rw [hr]
    exact h.sized
  · rw [hr, hcount]
    exact h.transfer
  · rw [hr]
    exact h.taken

/-- An entry that has nothing to do with the catalog. -/
def Io.Aside : Io → Prop
  | .connect | .welcomed _ | .assembled | .rx (.frame (.blobChunk _)) => False
  | _ => True

theorem Io.Aside.brought {x : Io} (hx : x.Aside) : x.brought = none := by
  unfold Io.brought
  split
  · exact hx.elim
  · rfl

theorem Io.Aside.connect {x : Io} (hx : x.Aside) : x.isConnect = false := by
  cases x <;> first | rfl | exact hx.elim

theorem Io.Aside.accepted {x : Io} (hx : x.Aside) : x.accepted = none := by
  cases x <;> first | rfl | exact hx.elim

variable {P Q : Client → History → Prop} {h : History}

/-- One more entry. -/
theorem Since.cons (hP : Since id encoded P c h) {e : Client} {x : Io} (hc : x.isConnect = false)
    (hw : x.accepted = none) (hPQ : ∀ later, Honest id encoded ((e, x) :: later) → P c later → Q d ((e, x) :: later)) :
    Since id encoded Q d ((e, x) :: h) := by
  intro later cl m earlier htrace hnews honest
  rw [sinceConnect_cons hc] at htrace
  cases later with
  | nil =>
    obtain ⟨hx, -⟩ := List.cons.inj htrace
    rw [(Prod.mk.inj hx).2] at hw
    cases hw
  | cons y later =>
    obtain ⟨rfl, hrest⟩ := List.cons.inj htrace
    refine hPQ later honest (hP later cl m earlier hrest hnews fun payload hmem => honest payload ?_)
    obtain ⟨y, hy, hbrought⟩ := List.mem_filterMap.mp hmem
    exact List.mem_filterMap.mpr ⟨y, List.mem_cons_of_mem _ hy, hbrought⟩

/-- What has held since the WELCOME may be weakened. -/
theorem Since.mono (hP : Since id encoded P c h) (hPQ : ∀ later, Honest id encoded later → P c later → Q d later) :
    Since id encoded Q d h := fun later cl m earlier htrace hnews honest =>
  hPQ later honest (hP later cl m earlier htrace hnews honest)

/-- Before the first WELCOME of a connection there is nothing to say. -/
theorem Since.fresh (h' : welcomes (sinceConnect h) = []) : Since id encoded P c h := by
  intro later cl m earlier htrace
  rw [htrace, welcomes, List.filterMap_append, List.append_eq_nil_iff] at h'
  cases h'.2

/-- An entry that brings no chunk reads none. -/
theorem chunksRead_cons {e : Client} {x : Io} (hx : x.brought = none) (h : History) :
    chunksRead ((e, x) :: h) = chunksRead h := by
  unfold chunksRead
  rw [List.filterMap_cons, hx]

/-- A chunk that came before an entry without one came before it. -/
theorem Came.cons {e : Client} {x : Io} {later : History} {k : Nat} (hx : x.brought = none)
    (hcame : Came id encoded ((e, x) :: later) k) : Came id encoded later k := by
  unfold Came at hcame
  rwa [chunksRead_cons hx] at hcame

/-- An entry aside from the transfer leaves it where it was. -/
theorem Fetched.aside {e : Client} {x : Io} {later : History} (hf : Fetched id encoded c later) (hx : x.Aside)
    (hs : SameTransfer c d) : Fetched id encoded d ((e, x) :: later) where
  fetching := (hf.fetching.mono fun _ _ hcame => hcame.cons hx.brought).same hs
  right d' hd' := by
    rcases List.mem_cons.mp hd' with heq | hd'
    · rw [← (Prod.mk.inj heq).2] at hx
      exact hx.elim
    · exact hf.right d' hd'

/-- A frame that was read is no catalog yet. -/
theorem Fetched.read {e : Client} {rx : RxFrame} {later : History} (hf : Fetched id encoded c later)
    (hd : Fetching id encoded (Came id encoded ((e, Io.rx rx) :: later)) d) :
    Fetched id encoded d ((e, Io.rx rx) :: later) where
  fetching := hd
  right d' hd' := by
    rcases List.mem_cons.mp hd' with heq | hd'
    · cases heq
    · exact hf.right d' hd'

theorem Declared.cons {later : History} (hd : Declared encoded later) (y : Client × Io) :
    Declared encoded (y :: later) := by
  obtain ⟨d, ok, hmem⟩ := hd
  exact ⟨d, ok, List.mem_cons_of_mem y hmem⟩

/-- A catalog at hand stays at hand where the transfer stays. -/
theorem AtHand.same {later : History} (hs : AtHand encoded c later) (h : SameTransfer c d) :
    AtHand encoded d later := by
  obtain ⟨hr, -, hready⟩ := h
  constructor
  · rw [hr, hready]
    exact hs.whole
  · rw [hr, hready]
    exact hs.ready
  · rw [hr]
    exact hs.declared

/-- A catalog at hand stays at hand as the history grows. -/
theorem AtHand.cons {later : History} (hs : AtHand encoded c later) (y : Client × Io) :
    AtHand encoded c (y :: later) := { hs with declared := fun hc => (hs.declared hc).cons y }

/-! ## Acts -/

variable (id encoded) in
/-- Whatever was taken for the catalog is right, and declared when it is complete. -/
def Kept (c : Client) (h : History) : Prop :=
  Since id encoded (fun c later => Fetched id encoded c later ∧ AtHand encoded c later) c h

/-- The record depends on the transfer's fields only. -/
theorem Kept.same (hk : Kept id encoded c h) (hs : SameTransfer c d) : Kept id encoded d h :=
  Since.mono hk fun _ _ hP => ⟨{ hP.1 with fetching := hP.1.fetching.same hs }, hP.2.same hs⟩

/-- An entry aside keeps it. -/
theorem Kept.aside (hk : Kept id encoded c h) {e : Client} {x : Io} (hx : x.Aside) (hs : SameTransfer c d) :
    Kept id encoded d ((e, x) :: h) :=
  Since.cons hk hx.connect hx.accepted fun _ _ hP => ⟨hP.1.aside hx hs, (hP.2.same hs).cons _⟩

/-- An act that has nothing to do with the catalog, nor begins a connection. -/
def Act.Aside {ε : Type} : Act ε → Prop
  | .log x => x.Aside
  | .become st => st ≠ .helloSent
  | .reset | .ready _ | .forget | .begin _ _ | .insert _ _ => False
  | _ => True

section

variable {ε : Type} {w : World ε} {s t : Sys ε} {T : FrameType → Prop} {N : Note → Prop} {K : Act ε → Prop}

theorem Act.In.aside (hK : ∀ a : Act ε, K a → a.Aside) : ∀ a : Act ε, Act.In T N K a → a.Aside :=
  Act.In.of_kinds (fun _ => trivial) (fun _ => trivial) (fun _ _ _ _ _ => trivial) (fun _ _ => trivial) hK

theorem Kept.modify {f : Client → Client} (hs : Kept id encoded s.client s.trace)
    (h : SameTransfer s.client (f s.client)) : Kept id encoded (s.modify f).client (s.modify f).trace :=
  hs.same h

/-- An act aside keeps the record. -/
theorem kept_act {a : Act ε} (ha : a.Aside) (hok : a.Ok w s) (hs : Kept id encoded s.client s.trace) :
    Kept id encoded (a.apply w s).client (a.apply w s).trace := by
  cases a with
  | log x => exact hs.aside ha ⟨rfl, rfl, rfl⟩
  | minor f =>
    have hsame := hok s.client
    exact hs.same ⟨hsame.chunkReassembler, hsame.catalogChunkCount, hsame.catalogReady⟩
  | reset | ready | forget | begin | insert => exact ha.elim
  | shadow ch seq payload =>
    refine hs.same (d := adoptShadow ch seq payload s.client) ?_
    unfold adoptShadow
    split <;> exact ⟨rfl, rfl, rfl⟩
  | observe ch payload =>
    refine hs.same (d := observeLatch ch payload s.client) ?_
    unfold observeLatch
    split <;> exact ⟨rfl, rfl, rfl⟩
  | write type ch payload bytes =>
    simp only [Act.apply, writeFrame]
    split <;> exact hs.aside trivial ⟨rfl, rfl, rfl⟩
  | initiated f | repeated f => exact hs.aside trivial ⟨rfl, rfl, rfl⟩
  | world e => exact hs
  | pin key => exact hs.same (d := (setHubPublicKey key s).client) ⟨rfl, rfl, rfl⟩
  | advance | become | welcome | adopt | grant | drop | settle | echoed | queue | verify | judge | draw | arm | request
  | startProbe | stopProbe | initiate | giveUp => exact hs.modify ⟨rfl, rfl, rfl⟩

/-- A sequence of acts aside keeps the record. -/
theorem kept_does (h : Does w (Act.In T N K) s t) (hK : ∀ a, K a → a.Aside)
    (hs : Kept id encoded s.client s.trace) : Kept id encoded t.client t.trace :=
  Path.invariant (I := fun s : Sys ε => Kept id encoded s.client s.trace) (h.mono (Act.In.aside hK))
    (fun _ _ _ ha ⟨hok, heq⟩ hx => heq ▸ kept_act ha hok hx) hs

/-! ## A chunk -/

/-- Declaring a catalog. -/
theorem sendCatalogReady_eq {etag : Bytes} (hlen : etag.length = kCatalogReadyBytes) (s : Sys ε) :
    ∃ c d env ok, sendCatalogReady w etag s =
        { client := d, env, trace := (c, .write .catalogReady 0 etag ok) :: s.trace } ∧ SameTransfer s.client d := by
  have hready : encodeCatalogReady etag = some etag := if_pos hlen
  have hframe : ∃ bytes, encodeFrame .catalogReady 0 0 etag = some bytes := by
    refine ⟨_, if_neg ?_⟩
    rw [hlen]
    decide
  obtain ⟨bytes, hframe⟩ := hframe
  unfold sendCatalogReady sendFrame
  simp only [hready, hframe]
  cases (w.write bytes (s.modify fun c => { c with readyEtag := etag }).env).1 with
  | true => exact ⟨_, _, _, true, rfl, rfl, rfl, rfl⟩
  | false => exact ⟨_, _, _, false, rfl, rfl, rfl, rfl⟩

/-- The catalog is complete: it is noted, and declared. -/
theorem adoptCatalog_kept (hs : Since id encoded (Fetched id encoded) s.client s.trace)
    (hc : s.client.chunkReassembler.complete = true) :
    Kept id encoded (adoptCatalog w s).client (adoptCatalog w s).trace := by
  have hetag : (if (Sha256.hash s.client.chunkReassembler.assembled).take kCatalogReadyBytes == s.client.hubEtag.val then
      s.client.hubEtag.val else (Sha256.hash s.client.chunkReassembler.assembled).take kCatalogReadyBytes) =
      catalogDigest s.client.chunkReassembler.assembled := by
    split
    · rename_i hsame
      exact (beq_iff_eq.mp hsame).symm
    · rfl
  unfold adoptCatalog
  dsimp only
  refine kept_does (T := fun _ => True) (N := fun _ => True) (K := fun a => a = .become .live)
    (checkLiveTransition_does trivial rfl) (fun a ha => by rw [ha]; exact nofun) ?_
  rw [show (((s.log .assembled).modify _).client.hubEtag) = s.client.hubEtag from rfl, hetag]
  obtain ⟨e, d, env, ok, heq, hsame⟩ := sendCatalogReady_eq (w := w) (length_catalogDigest s.client.chunkReassembler.assembled)
    ((s.log .assembled).modify fun c => { c with
      cachedEtag := if (Sha256.hash s.client.chunkReassembler.assembled).take kCatalogReadyBytes == s.client.hubEtag.val
        then c.hubEtag else c.cachedEtag
      catalogReady := true })
  rw [heq]
  have hnoted : Since id encoded (fun c later => Fetched id encoded c later ∧ c.catalogReady = true ∧
      c.chunkReassembler.assembled = encoded) { s.client with
        cachedEtag := if (Sha256.hash s.client.chunkReassembler.assembled).take kCatalogReadyBytes == s.client.hubEtag.val
          then s.client.hubEtag else s.client.cachedEtag
        catalogReady := true } ((s.client, .assembled) :: s.trace) := by
    refine Since.cons hs rfl rfl fun later _ hf => ?_
    have hright := hf.fetching.assembled hc
    refine ⟨⟨?_, fun d' hd' => ?_⟩, rfl, hright⟩
    · have hcame : Fetching id encoded (Came id encoded ((s.client, Io.assembled) :: later)) s.client :=
        hf.fetching.mono fun _ _ hcame => hcame.cons rfl
      exact ⟨hcame.sized, hcame.transfer, hcame.taken⟩
    · rcases List.mem_cons.mp hd' with heq | hd'
      · rw [(Prod.mk.inj heq).1]
        exact hright
      · exact hf.right d' hd'
  refine Since.cons hnoted rfl rfl fun later _ hP => ⟨hP.1.aside trivial hsame, fun _ => ?_, fun _ => hsame.catalogReady,
    fun _ => ⟨e, ok, ?_⟩⟩
  · rw [hsame.chunkReassembler]
    exact hc
  · rw [← hP.2.2]
    exact List.mem_cons_self

/-- A chunk is noted and taken. -/
theorem insertChunk_since {payload : Bytes} {nowMs : UInt32} {P : Client → History → Prop}
    (hP : ∀ {c later} e x, x.Aside → P c later → P c ((e, x) :: later))
    (hs : Since id encoded P { s.client with chunkReassembler := s.client.chunkReassembler.insert payload nowMs } s.trace) :
    Since id encoded P (insertChunk payload nowMs s).client (insertChunk payload nowMs s).trace := by
  unfold insertChunk
  dsimp only
  split
  · exact hs
  · exact Since.cons hs rfl rfl fun _ _ hc => hP _ _ trivial hc

/-- Only a chunk of this catalog is acted on. -/
theorem handleBlobChunk_kept (hid : id.isCatalog = true) (hsmall : chunkCount encoded.length < 2 ^ 16) {payload : Bytes}
    {nowMs : UInt32} {e : Client} (hx : s.trace = (e, .rx (.frame (.blobChunk payload))) :: h)
    (hs : Kept id encoded s.client h) :
    Kept id encoded (handleBlobChunk w payload nowMs s).client (handleBlobChunk w payload nowMs s).trace := by
  have hname : ∀ k, ∃ hd, getBlobChunkHeader (blobChunk id encoded k) = some hd ∧ hd.id.isCatalog = true :=
    fun k => ⟨_, getBlobChunkHeader_blobChunk id encoded k, hid⟩
  -- another payload is not one of these chunks
  have hother : (∀ k, payload ≠ blobChunk id encoded k) → Kept id encoded s.client s.trace := by
    intro hne
    rw [hx]
    refine Since.cons hs rfl rfl fun later _ hP => ⟨hP.1.read (hP.1.fetching.mono ?_), hP.2.cons _⟩
    exact fun k _ hcame => (List.mem_cons.mp hcame).resolve_left (hne k).symm
  unfold handleBlobChunk
  split
  · rename_i hnone
    refine hother fun k heq => ?_
    obtain ⟨hd, hhd, -⟩ := hname k
    rw [← heq, hnone] at hhd
    cases hhd
  · rename_i hd hhd
    split
    · rename_i hforeign
      refine hother fun k heq => ?_
      obtain ⟨hd', hhd', hcat⟩ := hname k
      rw [← heq, hhd] at hhd'
      obtain rfl := Option.some.inj hhd'
      rw [hcat] at hforeign
      cases hforeign
    · rename_i hours
      have hcatalog : hd.id.isCatalog = true := by simpa using hours
      have hchunk : ∀ later, Honest id encoded ((e, Io.rx (.frame (.blobChunk payload))) :: later) →
          ∃ k < chunkCount encoded.length, payload = blobChunk id encoded k := by
        intro later honest
        obtain ⟨k, hk, heq⟩ := List.mem_map.mp (honest payload List.mem_cons_self hd hhd hcatalog)
        exact ⟨k, List.mem_range.mp hk, heq.symm⟩
      split
      · rename_i hbad
        rw [hx]
        refine Since.cons hs rfl rfl fun later honest _ => ?_
        obtain ⟨k, hk, rfl⟩ := hchunk later honest
        rw [getBlobChunkHeader_blobChunk] at hhd
        obtain rfl := Option.some.inj hhd
        have hcount := toNat_ofNat16 hsmall
        rcases hbad with hzero | hpast
        · rw [show UInt16.ofNat (chunkCount encoded.length) = 0 from hzero] at hcount
          exact absurd hcount (by rw [UInt16.toNat_zero]; omega)
        · rw [UInt16.le_iff_toNat_le, hcount, toNat_ofNat16 (hk.trans hsmall)] at hpast
          omega
      · have htaken : Since id encoded
            (fun c later => Fetched id encoded c later ∧ (c.catalogReady = true → c.chunkReassembler.complete = true))
            (insertChunk payload nowMs (s.modify (beginTransfer hd nowMs))).client
            (insertChunk payload nowMs (s.modify (beginTransfer hd nowMs))).trace := by
          refine insertChunk_since (fun _ _ hx hP => ⟨hP.1.aside hx ⟨rfl, rfl, rfl⟩, hP.2⟩) ?_
          show Since id encoded _ _ s.trace
          rw [hx]
          refine Since.cons hs rfl rfl fun later honest hP => ?_
          obtain ⟨k, hk, rfl⟩ := hchunk later honest
          obtain ⟨hbegun, hactive⟩ := hP.1.fetching.begin hsmall hk hhd nowMs
          refine ⟨hP.1.read ((hbegun.insert hk hactive nowMs).mono ?_), fun hready => ?_⟩
          · intro j hj hcame
            rcases List.mem_cons.mp hcame with hsame | hbefore
            · exact .inr (blobChunk_inj hsmall hj hk hsame)
            · exact .inl hbefore
          · exact hP.1.fetching.stays hk hhd nowMs (hP.2.whole ((beginTransfer_ready hd nowMs s.client).symm.trans hready))
        dsimp only
        split
        · rename_i hc
          exact adoptCatalog_kept (htaken.mono fun _ _ hP => hP.1) hc
        · rename_i hc
          exact htaken.mono fun _ _ hP => ⟨hP.1, hP.2, fun hcomplete => absurd hcomplete hc,
            fun hcomplete => absurd hcomplete hc⟩

/-! ## A WELCOME -/

/-- No WELCOME was accepted in this connection. -/
def Unwelcomed (h : History) : Prop := welcomes (sinceConnect h) = []

/-- Without a WELCOME in between the connection stays without one. -/
theorem Unwelcomed.cons (hu : Unwelcomed h) {e : Client} {x : Io} (hx : x.accepted = none) : Unwelcomed ((e, x) :: h) := by
  cases hc : x.isConnect with
  | true =>
    unfold Unwelcomed sinceConnect
    rw [List.takeWhile_cons]
    simp [hc, welcomes]
  | false =>
    unfold Unwelcomed
    rw [sinceConnect_cons hc, welcomes_cons hx]
    exact hu

/-- Only `connect` leaves a client waiting for a WELCOME. -/
theorem awaiting_does {P : Act ε → Prop} (h : Does w P s t) (hP : ¬P (.become .helloSent))
    (ht : t.client.state = .helloSent) : s.client.state = .helloSent := by
  refine Path.invariant (I := fun t : Sys ε => t.client.state = .helloSent → s.client.state = .helloSent) h
    (fun a x y ha hxy hx hst => hx ?_) (fun hst => hst) ht
  obtain ⟨hok, rfl⟩ := hxy
  by_cases hbecome : ∃ st, a = .become st
  · obtain ⟨st, rfl⟩ := hbecome
    obtain rfl : st = .helloSent := hst
    exact absurd ha hP
  · rwa [state_act (fun st heq => hbecome ⟨st, heq⟩) hok] at hst

/-- Every act but the acceptance of a WELCOME. -/
def Act.Unwelcoming {ε : Type} : Act ε → Prop
  | .log x => x.accepted = none
  | _ => True

/-- An act that is no WELCOME leaves it so. -/
theorem unwelcomed_act {a : Act ε} (ha : a.Unwelcoming) (hu : Unwelcomed s.trace) : Unwelcomed (a.apply w s).trace := by
  cases a with
  | log x => exact hu.cons ha
  | write type ch payload bytes =>
    simp only [Act.apply, writeFrame]
    split <;> exact hu.cons rfl
  | initiated f | repeated f => exact hu.cons rfl
  | pin key => exact hu
  | _ => simpa only [Act.apply, Sys.modify] using hu

theorem unwelcomed_does (h : Does w (Act.In T N K) s t) (hK : ∀ a, K a → a.Unwelcoming) (hu : Unwelcomed s.trace) :
    Unwelcomed t.trace :=
  Path.invariant (I := fun s : Sys ε => Unwelcomed s.trace)
    (h.mono (Act.In.of_kinds (fun _ => trivial) (fun _ => trivial) (fun _ _ _ _ _ => trivial) (fun _ _ => rfl) hK))
    (fun _ _ _ ha ⟨_, heq⟩ hx => heq ▸ unwelcomed_act ha hx) hu

variable (id encoded) in
/-- What is kept along a run. -/
structure Keeping (s : Sys ε) : Prop where
  fresh : s.client.state = .helloSent → Unwelcomed s.trace
  kept : Kept id encoded s.client s.trace

theorem Act.Aside.unwelcoming {a : Act ε} (ha : a.Aside) : a.Unwelcoming := by
  cases a with
  | log x => exact Io.Aside.accepted ha
  | _ => trivial

/-- The record of the whole client is kept by acts aside. -/
theorem keeping_does (h : Does w (Act.In T N K) s t) (hK : ∀ a, K a → a.Aside) (hs : Keeping id encoded s) :
    Keeping id encoded t where
  fresh hst := by
    have haside := h.mono (Act.In.aside hK)
    refine unwelcomed_does h (fun a ha => (hK a ha).unwelcoming) (hs.fresh (awaiting_does haside ?_ hst))
    exact fun ha => ha rfl
  kept := kept_does h hK hs.kept

/-- A transfer that is not begun. -/
theorem nothing_fetched (hr : c.chunkReassembler = {}) (hready : c.catalogReady = false) :
    Fetched id encoded c [] ∧ AtHand encoded c [] := by
  have hidle : c.chunkReassembler.active = false := by rw [hr]
  have hopen : c.chunkReassembler.complete = false := by rw [ChunkReassembler.complete, hidle, Bool.false_and]
  refine ⟨⟨⟨?_, fun hactive => ?_, fun _ k _ hcame => ?_⟩, fun d hd => ?_⟩, fun h => ?_, fun h => ?_, fun h => ?_⟩
  · rw [hr]
    exact List.length_replicate
  · rw [hidle] at hactive
    cases hactive
  · cases hcame
  · cases hd
  · rw [hready] at h
    cases h
  · rw [hopen] at h
    cases h
  · rw [hopen] at h
    cases h

/-- The first WELCOME of a connection: nothing has come, and the catalog is known or asked for. -/
theorem bootstrapCatalog_kept {m : WelcomeMsg} (hu : Unwelcomed s.trace) :
    Kept id encoded (bootstrapCatalog w ((s.log (.welcomed m)).modify (adoptWelcome m))).client
      (bootstrapCatalog w ((s.log (.welcomed m)).modify (adoptWelcome m))).trace := by
  have hfirst : ∀ c, (s.client.cachedEtag ≠ m.catalogEtag → Fetched id encoded c [] ∧ AtHand encoded c []) →
      Kept id encoded c ((s.client, .welcomed m) :: s.trace) := by
    intro c hP later cl m' earlier htrace hnews honest
    rw [sinceConnect_cons rfl] at htrace
    cases later with
    | nil =>
      obtain ⟨hx, -⟩ := List.cons.inj htrace
      obtain ⟨rfl, hm⟩ := Prod.mk.inj hx
      obtain rfl := Io.welcomed.inj hm
      exact hP hnews
    | cons y later =>
      have hrest := (List.cons.inj htrace).2
      have hnone : m' ∈ welcomes (sinceConnect s.trace) := by
        rw [hrest]
        exact List.mem_filterMap.mpr ⟨(cl, .welcomed m'), List.mem_append_right _ List.mem_cons_self, rfl⟩
      rw [show welcomes (sinceConnect s.trace) = [] from hu] at hnone
      cases hnone
  unfold bootstrapCatalog
  split
  · rename_i hknown
    exact hfirst _ fun hnews => absurd hknown hnews
  · refine kept_does (w := w) (T := fun _ => True) (N := fun _ => True) (K := fun _ => False)
      (sendBlobReq_does trivial) (fun _ h => h.elim) ?_
    exact hfirst _ fun _ => nothing_fetched rfl rfl

/-- A WELCOME keeps it: the transfer it asks for begins there. -/
theorem handleWelcome_keeping {m : WelcomeMsg} (hs : Keeping id encoded s) :
    Keeping id encoded (handleWelcome w (some m) s) := by
  by_cases h : s.client.state = .helloSent
  · obtain ⟨t, ht, heq⟩ := handleWelcome_eq (w := w) m h
    have hkept : Kept id encoded t.client t.trace := by
      refine kept_does ht (fun a ha => ?_) (bootstrapCatalog_kept (hs.fresh h))
      cases a with
      | judge | verify => trivial
      | _ => exact ha.elim
    rw [heq]
    refine keeping_does (T := fun _ => True) (N := fun _ => True) (K := fun a => a = .become .live)
      (checkLiveTransition_does trivial rfl) (fun a ha => by rw [ha]; exact nofun) ⟨fun hst => ?_, ?_⟩
    · cases (show ClientSessionState.syncing = .helloSent from hst)
    exact hkept.aside (x := .note (.onStateChange .syncing)) trivial ⟨rfl, rfl, rfl⟩
  · unfold handleWelcome
    dsimp only
    rw [if_pos h]
    exact hs

/-! ## Frames -/

theorem Inbound.Allows.aside {m : Inbound} {nowMs : UInt32} (hw : ∀ x, m ≠ .welcome (some x))
    (hc : ∀ payload, m ≠ .blobChunk payload) : ∀ a : Act ε, m.Allows nowMs a → a.Aside
  | .log (.welcomed x), h => absurd h (hw x)
  | .log (.chunk _ _), h | .log .assembled, h => by
    obtain ⟨payload, h⟩ := h
    exact absurd h (hc payload)
  | .become _, .inl h => by
    rw [h]
    exact nofun
  | .become _, .inr (.inl ⟨_, x, h⟩) => absurd h (hw x)
  | .become _, .inr (.inr h) => by
    rw [h.1]
    exact nofun
  | .ready _, ⟨_, .inl ⟨x, h⟩⟩ | .forget, ⟨x, h⟩ => absurd h (hw x)
  | .ready _, ⟨_, .inr ⟨payload, h⟩⟩ | .begin _ _, ⟨_, payload, h⟩ => absurd h (hc payload)
  | .insert payload _, ⟨_, h⟩ => absurd h (hc payload)
  | .log .connect, h | .log (.opened _), h | .log .closed, h | .log (.rx _), h | .log (.writeEstop _ _), h
  | .log (.write _ _ _ _), h | .log (.note _), h | .reset, h => h.elim
  | .world _, _ | .minor _, _ | .advance _, _ | .write _ _ _ _, _ | .drop, _ | .settle _, _ | .echoed _, _ | .queue _, _
  | .verify _, _ | .judge _, _ | .pin _, _ | .draw _, _ | .arm, _ | .request _, _ | .startProbe, _ | .stopProbe, _
  | .initiate _, _ | .initiated _, _ | .repeated _ _, _ | .giveUp, _ | .observe _ _, _ | .welcome _, _ | .adopt, _
  | .shadow _ _ _, _ | .grant _, _ => trivial

theorem Keeping.heard {d : Client} (hs : Keeping id encoded s) (hsame : SameTransfer s.client d)
    (hst : d.state = s.client.state) : Keeping id encoded { s with client := d } :=
  ⟨fun hsent => hs.fresh (hst.symm.trans hsent), hs.kept.same hsame⟩

/-- A frame keeps it; a chunk is where the transfer advances. -/
theorem handleFrame_keeping (hid : id.isCatalog = true) (hsmall : chunkCount encoded.length < 2 ^ 16) {rx : RxFrame}
    {nowMs : UInt32} (hs : Keeping id encoded s) : Keeping id encoded (handleFrame w nowMs s rx) := by
  by_cases hchunk : ∃ payload, rx = .frame (.blobChunk payload)
  · obtain ⟨payload, rfl⟩ := hchunk
    have hsame : Kept id encoded { s.client with lastRxMs := nowMs } s.trace := hs.kept.same ⟨rfl, rfl, rfl⟩
    refine ⟨fun hsent => ?_, handleBlobChunk_kept hid hsmall rfl hsame⟩
    have hdoes : Does w (Act.In (fun _ => True) (fun _ => True) fun a => a.Unwelcoming ∧ a ≠ .become .helloSent)
        ((s.log (.rx (.frame (.blobChunk payload)))).modify fun c => { c with lastRxMs := nowMs })
        (handleFrame w nowMs s (.frame (.blobChunk payload))) :=
      handleBlobChunk_does trivial trivial (fun _ => ⟨trivial, nofun⟩) (fun _ _ => ⟨rfl, nofun⟩) ⟨trivial, nofun⟩
        ⟨rfl, nofun⟩ ⟨trivial, nofun⟩ ⟨trivial, nofun⟩
    have hbefore := awaiting_does hdoes (fun ha => (show _ ∧ _ from ha).2 rfl) hsent
    exact unwelcomed_does hdoes (fun _ ha => ha.1) (Unwelcomed.cons (hs.fresh hbefore) rfl)
  · have hrx : Keeping id encoded (s.log (.rx rx)) := by
      refine keeping_does (w := w) (T := fun _ => True) (N := fun _ => True) (K := fun a => a = .log (.rx rx))
        (Does.act (a := .log (.rx rx)) rfl trivial) (fun a ha => ?_) hs
      rw [ha]
      cases rx with
      | frame m => cases m <;> first | trivial | exact (hchunk ⟨_, rfl⟩).elim
      | _ => trivial
    unfold handleFrame
    cases rx with
    | badEstop | short => exact hrx
    | estop => exact hrx.heard ⟨rfl, rfl, rfl⟩ rfl
    | frame m =>
      have hheard := hrx.heard (d := { s.client with lastRxMs := nowMs }) ⟨rfl, rfl, rfl⟩ rfl
      by_cases hwelcome : ∃ x, m = .welcome (some x)
      · obtain ⟨x, rfl⟩ := hwelcome
        exact handleWelcome_keeping hheard
      · refine keeping_does dispatch_does (Inbound.Allows.aside (fun x h => hwelcome ⟨x, h⟩) fun payload h => ?_) hheard
        exact hchunk ⟨payload, h ▸ rfl⟩

/-! ## Runs -/

/-- `update` keeps the record. -/
theorem update_keeping (hid : id.isCatalog = true) (hsmall : chunkCount encoded.length < 2 ^ 16) {nowUs : UInt32}
    {frames : List RxFrame} (hs : Keeping id encoded s) : Keeping id encoded (update w nowUs frames s) := by
  have hframes : ∀ (frames : List RxFrame) (s : Sys ε) (nowMs : UInt32), Keeping id encoded s →
      Keeping id encoded (frames.foldl (handleFrame w nowMs) s) := by
    intro frames
    induction frames with
    | nil => exact fun _ _ h => h
    | cons rx frames ih => exact fun s nowMs h => ih _ nowMs (handleFrame_keeping hid hsmall h)
  unfold update
  refine keeping_does pumps_does (fun a ha => ?_) (hframes frames _ _ (hs.heard ⟨rfl, rfl, rfl⟩ rfl))
  cases a with
  | repeated | giveUp | stopProbe | judge => trivial
  | _ => exact ha.elim

/-- `connect` begins a history with nothing transferred. -/
theorem connect_keeping (s : Sys ε) : Keeping id encoded (connect w s).2 := by
  have hnone : Unwelcomed (connect w s).2.trace := by
    refine unwelcomed_does (w := w) (T := fun _ => True) (N := fun _ => True) (K := fun a => a.Unwelcoming)
      (connect_does trivial (fun _ _ => trivial) (fun _ => rfl) trivial trivial (fun _ => trivial)
        (fun _ _ _ _ => trivial) trivial trivial) (fun _ ha => ha) ?_
    rfl
  exact ⟨fun _ => hnone, Since.fresh hnone⟩

theorem Call.Allows.aside {k : Call ε} (hk : k ≠ .connect) (a : Act ε) (ha : k.Allows a) : a.Aside := by
  cases k with
  | connect => exact absurd rfl hk
  | disconnect =>
    cases a with
    | log x => exact (show x = .closed from ha) ▸ trivial
    | become st => exact (show st = .closed from ha) ▸ nofun
    | drop => trivial
    | _ => exact ha.elim
  | sendIntent =>
    cases a with
    | queue => trivial
    | _ => exact ha.elim
  | initiateEstop =>
    cases a with
    | initiate | initiated => trivial
    | _ => exact ha.elim
  | runProbe =>
    cases a with
    | startProbe => trivial
    | _ => exact ha.elim
  | setHubPublicKey =>
    cases a with
    | pin => trivial
    | _ => exact ha.elim
  | requestHubSignature =>
    cases a with
    | request => trivial
    | _ => exact ha.elim
  | _ => exact ha.elim

/-- Every call keeps the record. -/
theorem call_keeping (hid : id.isCatalog = true) (hsmall : chunkCount encoded.length < 2 ^ 16) {k : Call ε}
    (hs : Keeping id encoded s) : Keeping id encoded (call w s k) := by
  by_cases hconnect : k = .connect
  · rw [hconnect]
    exact connect_keeping s
  · cases k with
    | world e => exact ⟨hs.fresh, hs.kept⟩
    | update nowUs frames => exact update_keeping hid hsmall hs
    | _ => exact keeping_does (call_does nofun nofun) (Call.Allows.aside hconnect) hs

/-- So it holds after every run. -/
theorem run_keeping (hid : id.isCatalog = true) (hsmall : chunkCount encoded.length < 2 ^ 16) (w : World ε)
    (self : ClientIdentity) (e : ε) (calls : List (Call ε)) : Keeping id encoded (run w self e calls) := by
  induction calls using List.reverseRecOn with
  | nil => exact ⟨fun _ => rfl, Since.fresh rfl⟩
  | append_singleton calls x ih =>
    rw [run_append]
    exact call_keeping hid hsmall ih

end

end

/-- **A catalog that is fetched is the hub's.**  Since a WELCOME with an etag the client did not have, as long as the
chunks of a catalog that it reads are chunks of `encoded`: what it ever takes for complete is `encoded`, it holds a catalog
ready only when that is `encoded`, and when every chunk has been read, in whatever order and however often, the catalog is
ready, is `encoded` and was declared by its digest. -/
theorem catalog_fetched {ε : Type} (w : World ε) (self : ClientIdentity) (e : ε) (calls : List (Call ε)) (id : BlobId)
    (encoded : Bytes) (hid : id.isCatalog = true) (hsmall : chunkCount encoded.length < 2 ^ 16) {later : History}
    {cl : Client} {m : WelcomeMsg} {earlier : History}
    (htrace : sinceConnect (run w self e calls).trace = later ++ (cl, .welcomed m) :: earlier)
    (hnews : cl.cachedEtag ≠ m.catalogEtag) (honest : Honest id encoded later) :
    (∀ d, (d, Io.assembled) ∈ later → d.chunkReassembler.assembled = encoded) ∧
    ((run w self e calls).client.catalogReady = true →
      (run w self e calls).client.chunkReassembler.assembled = encoded) ∧
    (0 < chunkCount encoded.length → chunkCount encoded.length ≤ 64 →
      (∀ k < chunkCount encoded.length, Came id encoded later k) →
      (run w self e calls).client.catalogReady = true ∧
        (run w self e calls).client.chunkReassembler.assembled = encoded ∧ Declared encoded later) := by
  obtain ⟨hf, hs⟩ := (run_keeping hid hsmall w self e calls).kept later cl m earlier htrace hnews honest
  refine ⟨hf.right, fun hready => hf.fetching.assembled (hs.whole hready), fun hsome hroom hall => ?_⟩
  have hc := hf.fetching.complete hsome hroom hall
  exact ⟨hs.ready hc, hf.fetching.assembled hc, hs.declared hc⟩

/-- A catalog of two chunks. -/
def Bench.catalog : Bytes := List.replicate 200 7

/-- The second chunk comes first, and twice. -/
def Bench.bootstrap : List (Call Bench) :=
  [.connect, Bench.reads 0 [.welcome (some { Bench.welcome 1 with catalogEtag := ⟨[1, 2, 3, 4, 5, 6, 7, 8], rfl⟩ })],
    Bench.reads 1000 [.blobChunk (blobChunk {} Bench.catalog 1), .ping [], .blobChunk (blobChunk {} Bench.catalog 1),
      .blobChunk (blobChunk {} Bench.catalog 0)]]

/-- It is put together. -/
theorem catalog_fetched_bootstrap : (run Bench.world {} {} Bench.bootstrap).client.catalogReady = true ∧
    (run Bench.world {} {} Bench.bootstrap).client.chunkReassembler.assembled = Bench.catalog := by
  have hwelcomed : ((sinceConnect (run Bench.world {} {} Bench.bootstrap).trace)[13]?.bind fun x =>
      x.2.accepted.map fun m => (x.1.cachedEtag.val, m.catalogEtag.val)) =
      some ([0, 0, 0, 0, 0, 0, 0, 0], [1, 2, 3, 4, 5, 6, 7, 8]) := by decide +kernel
  have hread : chunksRead ((sinceConnect (run Bench.world {} {} Bench.bootstrap).trace).take 13) =
      [blobChunk {} Bench.catalog 0, blobChunk {} Bench.catalog 1, blobChunk {} Bench.catalog 1] := by decide +kernel
  have hcount : chunkCount Bench.catalog.length = 2 := by
    rw [Bench.catalog, List.length_replicate]
    rfl
  obtain ⟨⟨cl, x⟩, hget, hx⟩ := Option.bind_eq_some_iff.mp hwelcomed
  obtain ⟨m, hm, hetags⟩ := Option.map_eq_some_iff.mp hx
  obtain ⟨hlt, hget⟩ := List.getElem?_eq_some_iff.mp hget
  have htrace : sinceConnect (run Bench.world {} {} Bench.bootstrap).trace =
      (sinceConnect (run Bench.world {} {} Bench.bootstrap).trace).take 13 ++
        (cl, .welcomed m) :: (sinceConnect (run Bench.world {} {} Bench.bootstrap).trace).drop 14 := by
    have hwelcome : x = .welcomed m := by
      cases x with
      | welcomed m' => exact congrArg Io.welcomed (Option.some.inj hm)
      | _ => cases hm
    rw [← hwelcome, ← hget, ← List.drop_eq_getElem_cons, List.take_append_drop]
  have hnews : cl.cachedEtag ≠ m.catalogEtag := by
    intro heq
    obtain ⟨hcached, hnew⟩ := Prod.mk.inj hetags
    rw [heq, hnew] at hcached
    exact absurd hcached (by decide)
  have hchunk : ∀ k < 2, blobChunk {} Bench.catalog k ∈ blobChunks {} Bench.catalog := fun k hk =>
    List.mem_map_of_mem (List.mem_range.mpr (hcount ▸ hk))
  have honest : Honest {} Bench.catalog ((sinceConnect (run Bench.world {} {} Bench.bootstrap).trace).take 13) := by
    intro payload hmem _ _ _
    rw [hread] at hmem
    simp only [List.mem_cons, List.not_mem_nil, or_false, or_self] at hmem
    rcases hmem with rfl | rfl
    · exact hchunk 0 (by decide)
    · exact hchunk 1 (by decide)
  have hall := (catalog_fetched Bench.world {} {} Bench.bootstrap {} Bench.catalog rfl (by rw [hcount]; decide) htrace
    hnews honest).2.2 (by rw [hcount]; decide) (by rw [hcount]; decide) ?_
  · exact ⟨hall.1, hall.2.1⟩
  · intro k hk
    unfold Came
    rw [hread]
    have hk2 : k = 0 ∨ k = 1 := by omega
    rcases hk2 with rfl | rfl <;> simp

end Client

end SlopSync
