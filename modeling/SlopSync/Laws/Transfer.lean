import SlopSync.Hub.Bench
import SlopSync.Laws.Reassembly
import SlopSync.Refine.Run

/-! # Blob transfers

A request arms a cursor; every tick looks the blob up again and sends a few chunks; a chunk the transport refuses is the
first of the next tick.

* `shipment` — what the history says of the transfer that a slot was last asked for.
* `Shipping` — cursor and history agree, whatever happens between two ticks (`shipping`).
* `blob_transfer_exact` — every chunk once and in order, and the blob from them. -/

namespace SlopSync

open Labelled

/-! ## What is asked for -/

namespace PendingBlob

/-- What is asked for, in order. -/
def indices (pb : PendingBlob) : List Nat :=
  match pb.chunks with
  | none => List.range (chunkCount pb.totalBytes)
  | some l => l.map UInt16.toNat

/-- The frames that carry it. -/
def frames (pb : PendingBlob) (bytes : Bytes) : List Bytes := pb.indices.map (blobChunk pb.target bytes)

/-- The cursor after `n` chunks. -/
def after (pb : PendingBlob) (n : Nat) : PendingBlob :=
  match pb.chunks with
  | none => { pb with nextIndex := UInt16.ofNat n }
  | some _ => { pb with cursor := n }

variable {pb : PendingBlob}

theorem after_zero (h : pb.Fresh) : pb.after 0 = pb := by
  obtain ⟨id, totalBytes, generation, reqSeq, chunks, nextIndex, cursor⟩ := pb
  obtain rfl : nextIndex = 0 := h.nextIndex
  obtain rfl : cursor = 0 := h.cursor
  cases chunks <;> rfl

theorem advance_after (pb : PendingBlob) (n : Nat) : (pb.after n).advance = pb.after (n + 1) := by
  obtain ⟨id, totalBytes, generation, reqSeq, chunks, nextIndex, cursor⟩ := pb
  cases chunks with
  | none => simp [after, advance, UInt16.ofNat_add]
  | some l => rfl

theorem after_keeps (pb : PendingBlob) (n : Nat) :
    (pb.after n).generation = pb.generation ∧ (pb.after n).totalBytes = pb.totalBytes ∧
      (pb.after n).target = pb.target ∧ (pb.after n).reqSeq = pb.reqSeq := by
  unfold after
  split <;> exact ⟨rfl, rfl, rfl, rfl⟩

theorem matches_after (n : Nat) (view : Option (Bytes × UInt16)) : (pb.after n).Matches view ↔ pb.Matches view := by
  obtain ⟨hgen, htotal, -⟩ := pb.after_keeps n
  cases view with
  | none => exact Iff.rfl
  | some v =>
    obtain ⟨bytes, generation⟩ := v
    show bytes.length = (pb.after n).totalBytes ∧ generation = (pb.after n).generation ↔ _
    rw [hgen, htotal]
    exact Iff.rfl

/-- What is next is what comes next in order. -/
theorem next_after {n : Nat} (hn : pb.chunks = none → n < 2 ^ 16) : (pb.after n).next (chunkCount pb.totalBytes) = pb.indices[n]? := by
  obtain ⟨id, totalBytes, generation, reqSeq, chunks, nextIndex, cursor⟩ := pb
  cases chunks with
  | none =>
    have hnat : (UInt16.ofNat n).toNat = n := by
      rw [UInt16.toNat_ofNat']
      exact Nat.mod_eq_of_lt (hn rfl)
    simp only [after, next, indices, hnat]
    by_cases h : chunkCount totalBytes ≤ n
    · simp [h]
    · rw [if_neg h, List.getElem?_range (Nat.not_le.mp h)]
  | some l => simp [after, next, indices]

theorem length_frames {bytes : Bytes} (h : pb.chunks = none) : (pb.frames bytes).length = chunkCount pb.totalBytes := by
  simp [frames, indices, h]

/-- Whatever is next can be cut. -/
theorem next_lt {n index : Nat} (hfresh : pb.Fresh) (h : (pb.after n).next (chunkCount pb.totalBytes) = some index) :
    index < chunkCount pb.totalBytes := by
  have hnamed := hfresh.named
  obtain ⟨id, totalBytes, generation, reqSeq, chunks, nextIndex, cursor⟩ := pb
  cases chunks with
  | none =>
    change (if chunkCount totalBytes ≤ (UInt16.ofNat n).toNat then none else some (UInt16.ofNat n).toNat) = some index at h
    by_cases hle : chunkCount totalBytes ≤ (UInt16.ofNat n).toNat
    · rw [if_pos hle] at h
      cases h
    · rw [if_neg hle] at h
      rw [← Option.some.inj h]
      exact Nat.not_le.mp hle
  | some l =>
    obtain ⟨k, hk, rfl⟩ := Option.map_eq_some_iff.mp h
    exact hnamed l rfl k (List.mem_of_getElem? hk)

end PendingBlob

/-! ## What the history says -/

/-- The transfer that a slot was last asked for. -/
structure Shipment where
  request : PendingBlob
  sent : List Bytes := []                         -- what the transport took, oldest first
  views : List (Option (Bytes × UInt16)) := []    -- what the resumptions found, newest first
  fate : Option BlobEnd := none

namespace Shipment

def send (payload : Bytes) (sh : Shipment) : Shipment := { sh with sent := sh.sent ++ [payload] }

def resume (view : Option (Bytes × UInt16)) (sh : Shipment) : Shipment := { sh with views := view :: sh.views }

def finish (how : BlobEnd) (sh : Shipment) : Shipment := { sh with fate := some (sh.fate.getD how) }

/-- One entry of the history. -/
def follow (i : SlotIdx) (o : Option Shipment) : Io → Option Shipment
  | .blob j step =>
    if j = i then match step with
      | .requested pb => some { request := pb }
      | .resumed view => o.map (resume view)
      | .ended how => o.map (finish how)
    else o
  | .write j _ .blobChunk _ _ payload true => if j = i then o.map (send payload) else o
  | .seated j from_ => if j = i ∨ from_ = some i then o.map (finish .dropped) else o
  | _ => o

end Shipment

def shipment (i : SlotIdx) : List (Hub × Io) → Option Shipment
  | [] => none
  | e :: trace => Shipment.follow i (shipment i trace) e.2

/-- The entry is about a transfer that goes on. -/
def Io.Ships (i : SlotIdx) : Io → Prop
  | .write j _ .blobChunk _ _ _ _ => j = i
  | .blob j (.resumed _) | .blob j (.ended _) => j = i
  | _ => False

/-- A request of the slot. -/
def Io.Requests (i : SlotIdx) : Io → Prop
  | .blob j (.requested _) => j = i
  | _ => False

/-- Nothing about the slot's transfer. -/
structure Io.Quiet (i : SlotIdx) (io : Io) : Prop where
  follow : ∀ o, Shipment.follow i o io = o
  ships : ¬io.Ships i
  step : io.blobStep i = none

theorem quiet_silent {i : SlotIdx} {io : Io} (h : io.Silent) : io.Quiet i := by
  cases io with
  | write | offered | published | seated | blob => exact h.elim
  | _ => exact ⟨fun _ => rfl, id, rfl⟩

theorem quiet_write {i j : SlotIdx} {t : TransportId} {type : FrameType} {ch seq : UInt16} {payload : Bytes} {ok : Bool}
    (h : type = .blobChunk → j ≠ i) : (Io.write j t type ch seq payload ok).Quiet i := by
  cases type with
  | blobChunk =>
    have hj := h rfl
    refine ⟨fun o => ?_, hj, rfl⟩
    cases ok with
    | true => exact if_neg hj
    | false => rfl
  | _ => exact ⟨fun _ => rfl, id, rfl⟩

theorem quiet_blob {i j : SlotIdx} (h : j ≠ i) (step : BlobStep) : (Io.blob j step).Quiet i := by
  refine ⟨fun o => if_neg h, ?_, if_neg h⟩
  cases step with
  | requested pb => exact id
  | resumed view => exact h
  | ended how => exact h

theorem quiet_seated {i j : SlotIdx} {from_ : Option SlotIdx} (h : j ≠ i) (hfrom : from_ ≠ some i) :
    (Io.seated j from_).Quiet i :=
  ⟨fun _ => if_neg (not_or.mpr ⟨h, hfrom⟩), id, rfl⟩

/-- An entry asks for something else, or leaves what is asked for. -/
theorem Shipment.request_follow {i : SlotIdx} {o : Option Shipment} {io : Io} {sh : Shipment}
    (h : Shipment.follow i o io = some sh) :
    io = .blob i (.requested sh.request) ∨ ∃ sh', o = some sh' ∧ sh'.request = sh.request := by
  have hmap : ∀ f : Shipment → Shipment, (∀ sh, (f sh).request = sh.request) → o.map f = some sh →
      ∃ sh', o = some sh' ∧ sh'.request = sh.request := by
    intro f hf hmapped
    obtain ⟨sh', hsh', rfl⟩ := Option.map_eq_some_iff.mp hmapped
    exact ⟨sh', hsh', (hf sh').symm⟩
  unfold Shipment.follow at h
  split at h
  · split at h
    · rename_i hj
      subst hj
      split at h
      · obtain rfl := Option.some.inj h
        exact .inl rfl
      · exact .inr (hmap (Shipment.resume _) (fun _ => rfl) h)
      · exact .inr (hmap (Shipment.finish _) (fun _ => rfl) h)
    · exact .inr ⟨sh, h, rfl⟩
  · split at h
    · exact .inr (hmap (Shipment.send _) (fun _ => rfl) h)
    · exact .inr ⟨sh, h, rfl⟩
  · split at h
    · exact .inr (hmap (Shipment.finish _) (fun _ => rfl) h)
    · exact .inr ⟨sh, h, rfl⟩
  · exact .inr ⟨sh, h, rfl⟩

/-- What is asked for was asked for. -/
theorem request_mem {i : SlotIdx} {sh : Shipment} : ∀ {trace : List (Hub × Io)}, shipment i trace = some sh →
    ∃ g, (g, .blob i (.requested sh.request)) ∈ trace
  | [], h => by cases h
  | (g, io) :: trace, h => by
    rcases Shipment.request_follow h with hio | ⟨sh', hsh', hreq⟩
    · refine ⟨g, ?_⟩
      rw [← hio]
      exact List.mem_cons_self
    · obtain ⟨g', hg'⟩ := request_mem hsh'
      rw [← hreq]
      exact ⟨g', List.mem_cons_of_mem _ hg'⟩

/-- The last resumption is of the last request. -/
theorem mem_views {i : SlotIdx} {view : Option (Bytes × UInt16)} {sh : Shipment} : ∀ {trace : List (Hub × Io)},
    lastBlobStep i trace = some (.resumed view) → shipment i trace = some sh → view ∈ sh.views
  | [], h, _ => by cases h
  | (g, io) :: trace, h, hsh => by
    rw [lastBlobStep, List.findSome?_cons] at h
    rw [shipment] at hsh
    cases hstep : io.blobStep i with
    | some step =>
      rw [hstep] at h
      obtain rfl := Option.some.inj h
      cases io with
      | blob j step =>
        simp only [Io.blobStep] at hstep
        split at hstep
        · rename_i hj
          obtain rfl := Option.some.inj hstep
          rw [Shipment.follow, if_pos hj] at hsh
          obtain ⟨sh', -, rfl⟩ := Option.map_eq_some_iff.mp hsh
          exact List.mem_cons_self
        · cases hstep
      | _ => cases hstep
    | none =>
      rw [hstep] at h
      have hkeep : ∀ sh', shipment i trace = some sh' → sh'.views = sh.views → view ∈ sh.views := by
        intro sh' hsh' hviews
        rw [← hviews]
        exact mem_views h hsh'
      cases io with
      | blob j step =>
        have hj : j ≠ i := by
          rintro rfl
          simp [Io.blobStep] at hstep
        rw [(quiet_blob hj step).follow] at hsh
        exact hkeep sh hsh rfl
      | write j t type ch seq payload ok =>
        by_cases hchunk : type = .blobChunk ∧ j = i
        · obtain ⟨rfl, rfl⟩ := hchunk
          cases ok with
          | false => exact hkeep sh hsh rfl
          | true =>
            rw [Shipment.follow, if_pos rfl] at hsh
            obtain ⟨sh', hsh', rfl⟩ := Option.map_eq_some_iff.mp hsh
            exact hkeep sh' hsh' rfl
        · rw [(quiet_write fun hty hj => hchunk ⟨hty, hj⟩).follow] at hsh
          exact hkeep sh hsh rfl
      | seated j from_ =>
        by_cases hj : j = i ∨ from_ = some i
        · rw [Shipment.follow, if_pos hj] at hsh
          obtain ⟨sh', hsh', rfl⟩ := Option.map_eq_some_iff.mp hsh
          exact hkeep sh' hsh' rfl
        · rw [(quiet_seated (not_or.mp hj).1 (not_or.mp hj).2).follow] at hsh
          exact hkeep sh hsh rfl
      | _ => exact hkeep sh hsh rfl

/-! ## Cursor and history -/

namespace Shipment

/-- The cursor stands where the history says; while the blob is the same, what was sent is what had to be. -/
structure Sound (sh : Shipment) (blob : Option PendingBlob) : Prop where
  fresh : sh.request.Fresh
  live : ∀ pb, blob = some pb → sh.fate = none ∧ pb = sh.request.after sh.sent.length
  gone : blob = none → sh.fate.isSome
  refused : sh.fate = some .refused → ∃ v ∈ sh.views, ¬sh.request.Matches v
  exact_ : ∀ bytes, (∀ v ∈ sh.views, v = some (bytes, sh.request.generation)) → bytes.length = sh.request.totalBytes →
    chunkCount bytes.length < 2 ^ 16 →
    sh.sent <+: sh.request.frames bytes ∧ (sh.fate = some .delivered → sh.sent = sh.request.frames bytes)

variable {sh : Shipment} {pb : PendingBlob} {bytes payload : Bytes}

/-- A cursor of 16 bits is enough. -/
theorem short_of_sent (h : sh.sent <+: sh.request.frames bytes) (hlen : bytes.length = sh.request.totalBytes)
    (hcount : chunkCount bytes.length < 2 ^ 16) (hfull : sh.request.chunks = none) : sh.sent.length < 2 ^ 16 := by
  have hle := h.length_le
  rw [PendingBlob.length_frames hfull, ← hlen] at hle
  omega

/-- A fresh request. -/
theorem sound_request (hfresh : pb.Fresh) : Sound { request := pb } (some pb) where
  fresh := hfresh
  live _ h := ⟨rfl, by rw [← Option.some.inj h]; exact (PendingBlob.after_zero hfresh).symm⟩
  gone h := by cases h
  refused h := by cases h
  exact_ bytes _ _ _ := ⟨⟨_, List.nil_append _⟩, fun h => by cases h⟩

theorem Sound.resume (h : sh.Sound (some pb)) (view : Option (Bytes × UInt16)) : (sh.resume view).Sound (some pb) where
  fresh := h.fresh
  live := h.live
  gone := h.gone
  refused hf := by
    obtain ⟨v, hv, hmoved⟩ := h.refused hf
    exact ⟨v, List.mem_cons_of_mem _ hv, hmoved⟩
  exact_ bytes hviews := h.exact_ bytes fun v hv => hviews v (List.mem_cons_of_mem _ hv)

/-- The chunk under the cursor is the next of the frames. -/
theorem Sound.send (h : sh.Sound (some pb)) {index : Nat} (hview : some (bytes, pb.generation) ∈ sh.views)
    (hlen : bytes.length = pb.totalBytes) (hnext : pb.next (chunkCount bytes.length) = some index)
    (hfill : fillBlobChunk pb.target bytes index = some payload) : (sh.send payload).Sound (some pb.advance) where
  fresh := h.fresh
  live pb' hpb' := by
    obtain ⟨hfate, rfl⟩ := h.live pb rfl
    refine ⟨hfate, ?_⟩
    rw [← Option.some.inj hpb', PendingBlob.advance_after]
    simp [Shipment.send]
  gone hb := by cases hb
  refused hf := h.refused hf
  exact_ bytes' hviews hlen' hcount := by
    change bytes'.length = sh.request.totalBytes at hlen'
    obtain ⟨hfate, rfl⟩ := h.live pb rfl
    obtain ⟨-, -, htarget, -⟩ := sh.request.after_keeps sh.sent.length
    obtain ⟨hsent, -⟩ := h.exact_ bytes' hviews hlen' hcount
    obtain rfl : bytes = bytes' := congrArg Prod.fst (Option.some.inj (hviews _ hview))
    rw [hlen', PendingBlob.next_after (short_of_sent hsent hlen' hcount)] at hnext
    have hframe : (sh.request.frames bytes)[sh.sent.length]? = some payload := by
      rw [PendingBlob.frames, List.getElem?_map, hnext, eq_of_fillBlobChunk hfill, htarget]
      rfl
    refine ⟨?_, fun hd => ?_⟩
    · obtain ⟨rest, hrest⟩ := hsent
      rw [← hrest, List.getElem?_append_right (Nat.le_refl _), Nat.sub_self] at hframe
      obtain ⟨rest', rfl⟩ : ∃ rest', rest = payload :: rest' := by
        cases rest with
        | nil => cases hframe
        | cons p rest => exact ⟨rest, by rw [Option.some.inj hframe]⟩
      refine ⟨rest', Eq.trans ?_ hrest⟩
      simp [Shipment.send]
    · rw [show (sh.send payload).fate = sh.fate from rfl, hfate] at hd
      cases hd

/-- What ends a transfer. -/
theorem Sound.finish (h : sh.Sound (some pb)) (how : BlobEnd)
    (hrefused : how = .refused → ∃ v ∈ sh.views, ¬sh.request.Matches v)
    (hdelivered : how = .delivered → ∃ bytes, some (bytes, pb.generation) ∈ sh.views ∧ bytes.length = pb.totalBytes ∧
      pb.next (chunkCount bytes.length) = none) : (sh.finish how).Sound none := by
  obtain ⟨hfate, rfl⟩ := h.live pb rfl
  have hhow : (sh.finish how).fate = some how := by simp [Shipment.finish, hfate]
  refine ⟨h.fresh, (fun pb h => by cases h), (fun _ => by rw [hhow]; rfl), fun hf => ?_, ?_⟩
  · rw [hhow] at hf
    exact hrefused (Option.some.inj hf)
  · intro bytes hviews hlen hcount
    change bytes.length = sh.request.totalBytes at hlen
    obtain ⟨hsent, -⟩ := h.exact_ bytes hviews hlen hcount
    refine ⟨hsent, fun hd => ?_⟩
    rw [hhow] at hd
    obtain ⟨bytes', hview, hlen', hnext⟩ := hdelivered (Option.some.inj hd)
    obtain rfl : bytes' = bytes := congrArg Prod.fst (Option.some.inj (hviews _ hview))
    rw [hlen, PendingBlob.next_after (short_of_sent hsent hlen hcount)] at hnext
    refine hsent.eq_of_length_le ?_
    show (sh.request.frames bytes').length ≤ sh.sent.length
    rw [PendingBlob.frames, List.length_map]
    exact List.getElem?_eq_none_iff.mp hnext

/-- A slot that is emptied, or whose session moves. -/
theorem Sound.unseat {blob : Option PendingBlob} (h : sh.Sound blob) : (sh.finish .dropped).Sound none := by
  cases blob with
  | some pb => exact h.finish .dropped (fun h => by cases h) (fun h => by cases h)
  | none =>
    obtain ⟨how, hhow⟩ := Option.isSome_iff_exists.mp (h.gone rfl)
    have hsame : sh.finish .dropped = sh := by
      obtain ⟨request, sent, views, fate⟩ := sh
      obtain rfl : fate = some how := hhow
      rfl
    rw [hsame]
    exact h

end Shipment

/-- What the slot holds and what the history says of it. -/
def Agrees (blob : Option PendingBlob) : Option Shipment → Prop
  | none => blob = none
  | some sh => sh.Sound blob

/-- A resumption that finds another blob is answered at once, and ends the transfer. -/
def Answered (i : SlotIdx) (trace : List (Hub × Io)) : Prop :=
  ∀ later h view earlier sh, trace = later ++ (h, .blob i (.resumed view)) :: earlier → shipment i earlier = some sh →
    ¬sh.request.Matches view → ∃ later' h₁ h₂ t payload ok,
      later = later' ++ [(h₂, .blob i (.ended .refused)), (h₁, .write i t .nack 0 0 payload ok)] ∧
        ∃ n : NackMsg, encodeNack { n with intentSeq := sh.request.reqSeq } 128 = some payload

/-- Whatever is about a transfer is about one that goes on. -/
def Afoot (i : SlotIdx) (trace : List (Hub × Io)) : Prop :=
  ∀ later h io earlier, trace = later ++ (h, io) :: earlier → io.Ships i →
    ∃ sh, shipment i earlier = some sh ∧ sh.fate = none

/-- A request knows the number of its frame. -/
def Requested (i : SlotIdx) (trace : List (Hub × Io)) : Prop :=
  ∀ g pb, (g, .blob i (.requested pb)) ∈ trace → pb.reqSeq = g.dispatchSeq ∧ pb.reqSeq.isSome

structure Shipping (i : SlotIdx) (x : Traffic) : Prop where
  agrees : Agrees (x.lanes i).blob (shipment i x.trace)
  answered : Answered i x.trace
  afoot : Afoot i x.trace
  asked : Requested i x.trace

section

variable {i : SlotIdx} {x y : Traffic} {h : Hub} {io : Io} {trace : List (Hub × Io)}

/-- An entry at the head of the history. -/
theorem cons_eq_append {e e' : Hub × Io} {later earlier : List (Hub × Io)} (heq : e :: trace = later ++ e' :: earlier) :
    (later = [] ∧ e = e' ∧ trace = earlier) ∨ ∃ later', later = e :: later' ∧ trace = later' ++ e' :: earlier := by
  cases later with
  | nil =>
    obtain ⟨rfl, rfl⟩ := List.cons.inj heq
    exact .inl ⟨rfl, rfl, rfl⟩
  | cons e'' later =>
    obtain ⟨rfl, htail⟩ := List.cons.inj heq
    exact .inr ⟨later, rfl, htail⟩

theorem Answered.cons (ha : Answered i trace)
    (hio : ∀ view sh, io = .blob i (.resumed view) → shipment i trace = some sh → sh.request.Matches view) :
    Answered i ((h, io) :: trace) := by
  intro later h' view earlier sh heq hsh hmoved
  rcases cons_eq_append heq with ⟨-, he, rfl⟩ | ⟨later', rfl, htrace⟩
  · exact absurd (hio view sh (congrArg Prod.snd he) hsh) hmoved
  · obtain ⟨later'', h₁, h₂, t, payload, ok, rfl, hnack⟩ := ha later' h' view earlier sh htrace hsh hmoved
    exact ⟨(h, io) :: later'', h₁, h₂, t, payload, ok, rfl, hnack⟩

theorem Afoot.cons (ha : Afoot i trace) (hio : io.Ships i → ∃ sh, shipment i trace = some sh ∧ sh.fate = none) :
    Afoot i ((h, io) :: trace) := by
  intro later h' io' earlier heq hships
  rcases cons_eq_append heq with ⟨-, he, rfl⟩ | ⟨later', rfl, htrace⟩
  · obtain rfl : io = io' := congrArg Prod.snd he
    exact hio hships
  · exact ha later' h' io' earlier htrace hships

theorem Requested.cons (ha : Requested i trace) (hio : ∀ pb, io = .blob i (.requested pb) → pb.reqSeq = h.dispatchSeq ∧ pb.reqSeq.isSome) :
    Requested i ((h, io) :: trace) := by
  intro g pb hmem
  rcases List.mem_cons.mp hmem with heq | hmem
  · obtain ⟨rfl, rfl⟩ := Prod.mk.inj heq
    exact hio pb rfl
  · exact ha g pb hmem

/-- An entry that is about something else. -/
theorem Shipping.quiet (hx : Shipping i x) (hq : io.Quiet i) (htrace : y.trace = (h, io) :: x.trace)
    (hblob : (y.lanes i).blob = (x.lanes i).blob) : Shipping i y where
  agrees := by
    rw [hblob, htrace, shipment, hq.follow]
    exact hx.agrees
  answered := by
    rw [htrace]
    refine hx.answered.cons fun view sh hio _ => ?_
    have := hq.step
    rw [hio] at this
    simp [Io.blobStep] at this
  afoot := by
    rw [htrace]
    exact hx.afoot.cons fun hships => absurd hships hq.ships
  asked := by
    rw [htrace]
    refine hx.asked.cons fun pb hio => ?_
    have := hq.step
    rw [hio] at this
    simp [Io.blobStep] at this

theorem Shipping.same (hx : Shipping i x) (htrace : y.trace = x.trace) (hblob : (y.lanes i).blob = (x.lanes i).blob) :
    Shipping i y := by
  refine ⟨?_, ?_, ?_, ?_⟩
  · rw [hblob, htrace]
    exact hx.agrees
  · rw [htrace]
    exact hx.answered
  · rw [htrace]
    exact hx.afoot
  · rw [htrace]
    exact hx.asked

/-- What the slot holds is what was asked for. -/
theorem Shipping.holds (hx : Shipping i x) {pb : PendingBlob} (hblob : (x.lanes i).blob = some pb) :
    ∃ sh, shipment i x.trace = some sh ∧ sh.Sound (some pb) ∧ sh.fate = none ∧ pb = sh.request.after sh.sent.length := by
  have hagrees := hx.agrees
  rw [hblob] at hagrees
  cases hsh : shipment i x.trace with
  | none =>
    rw [hsh] at hagrees
    cases hagrees
  | some sh =>
    rw [hsh] at hagrees
    exact ⟨sh, rfl, hagrees, hagrees.live pb rfl⟩

/-- A step of the slot's own transfer, other than a resumption that found another blob. -/
theorem Shipping.step (hx : Shipping i x) {blob : Option PendingBlob}
    (hagrees : Agrees blob (Shipment.follow i (shipment i x.trace) io))
    (hmatch : ∀ view sh, io = .blob i (.resumed view) → shipment i x.trace = some sh → sh.request.Matches view)
    (hships : io.Ships i → ∃ sh, shipment i x.trace = some sh ∧ sh.fate = none)
    (hasked : ∀ pb, io = .blob i (.requested pb) → pb.reqSeq = h.dispatchSeq ∧ pb.reqSeq.isSome) :
    Shipping i ((x.load i blob).log h io) where
  agrees := by
    show Agrees ((x.load i blob).lanes i).blob _
    rw [Traffic.blob_load]
    exact hagrees
  answered := hx.answered.cons hmatch
  afoot := hx.afoot.cons hships
  asked := hx.asked.cons hasked

/-- The session of the slot ends or moves. -/
theorem Shipping.unseat (hx : Shipping i x) {j : SlotIdx} {from_ : Option SlotIdx} (hseat : j = i ∨ from_ = some i)
    (htrace : y.trace = (h, .seated j from_) :: x.trace) (hblob : (y.lanes i).blob = none) : Shipping i y where
  agrees := by
    have hagrees := hx.agrees
    rw [hblob, htrace, shipment, Shipment.follow, if_pos hseat]
    cases hsh : shipment i x.trace with
    | none => rfl
    | some sh =>
      rw [hsh] at hagrees
      exact hagrees.unseat
  answered := by
    rw [htrace]
    exact hx.answered.cons fun view sh hio => by cases hio
  afoot := by
    rw [htrace]
    exact hx.afoot.cons fun hships => hships.elim
  asked := by
    rw [htrace]
    exact hx.asked.cons fun pb hio => by cases hio

/-- The blob is another one. -/
theorem Shipping.turnAway (hx : Shipping i x) {pb : PendingBlob} {view : Option (Bytes × UInt16)} {n : NackMsg}
    {payload : Bytes} {t : TransportId} {g g' g'' : Hub} {ok : Bool} (hblob : (x.lanes i).blob = some pb)
    (hmoved : ¬pb.Matches view) (hnack : encodeNack (stampNack g' { n with intentSeq := pb.reqSeq }) 128 = some payload) :
    Shipping i ((((x.load i none).log g (.blob i (.resumed view))).log g' (.write i t .nack 0 0 payload ok)).log g''
      (.blob i (.ended .refused))) := by
  obtain ⟨sh, hsh, hsound, hfate, rfl⟩ := hx.holds hblob
  obtain ⟨-, -, -, hreq⟩ := sh.request.after_keeps sh.sent.length
  have hmoved' : ¬sh.request.Matches view := fun h => hmoved ((PendingBlob.matches_after _ _).mpr h)
  have hshow : shipment i ((g', .write i t .nack 0 0 payload ok) :: (g, .blob i (.resumed view)) :: x.trace) =
      some (sh.resume view) := by
    simp [shipment, Shipment.follow, hsh]
  refine ⟨?_, ?_, ?_, ?_⟩
  · show Agrees ((x.load i none).lanes i).blob (Shipment.follow i (shipment i ((g', .write i t .nack 0 0 payload ok) ::
      (g, .blob i (.resumed view)) :: x.trace)) (.blob i (.ended .refused)))
    rw [Traffic.blob_load, hshow, Shipment.follow, if_pos rfl]
    exact (hsound.resume view).finish .refused (fun _ => ⟨view, List.mem_cons_self, hmoved'⟩) (fun h => by cases h)
  · intro later h view' earlier sh' heq hsh' hmoved''
    rcases cons_eq_append heq with ⟨-, he, -⟩ | ⟨later₁, rfl, heq₁⟩
    · cases he
    rcases cons_eq_append heq₁ with ⟨-, he, -⟩ | ⟨later₂, rfl, heq₂⟩
    · cases he
    rcases cons_eq_append heq₂ with ⟨rfl, he, rfl⟩ | ⟨later₃, rfl, heq₃⟩
    · obtain rfl := Option.some.inj (hsh.symm.trans hsh')
      refine ⟨[], g', g'', t, payload, ok, rfl, n, ?_⟩
      have hstamp : stampNack g' { n with intentSeq := (sh.request.after sh.sent.length).reqSeq } =
          { n with intentSeq := sh.request.reqSeq } := by
        obtain ⟨g₀, hg₀⟩ := request_mem hsh
        have hsome := (hx.asked g₀ _ hg₀).2
        rw [hreq, stampNack, if_neg]
        cases hq : sh.request.reqSeq with
        | none =>
          rw [hq] at hsome
          cases hsome
        | some q => simp
      rw [← hstamp]
      exact hnack
    · obtain ⟨later', h₁, h₂, t', payload', ok', rfl, hn⟩ := hx.answered later₃ h view' earlier sh' heq₃ hsh' hmoved''
      exact ⟨_ :: _ :: _ :: later', h₁, h₂, t', payload', ok', rfl, hn⟩
  · have hnackless : ¬(Io.write i t .nack 0 0 payload ok).Ships i := id
    exact ((hx.afoot.cons fun _ => ⟨sh, hsh, hfate⟩).cons fun h => absurd h hnackless).cons fun _ => ⟨_, hshow, hfate⟩
  · exact ((hx.asked.cons fun pb hio => by cases hio).cons fun pb hio => by cases hio).cons fun pb hio => by cases hio

/-! What happens in the slot itself, a resumption that found another blob apart. -/

theorem Shipping.request (hx : Shipping i x) {pb : PendingBlob} (hfresh : pb.Fresh) (hseq : pb.reqSeq = h.dispatchSeq)
    (hsome : pb.reqSeq.isSome) : Shipping i ((x.load i (some pb)).log h (.blob i (.requested pb))) := by
  refine hx.step ?_ (fun view sh hio => by cases hio) (fun h => h.elim) fun pb hio => ?_
  · rw [Shipment.follow, if_pos rfl]
    exact Shipment.sound_request hfresh
  · cases hio
    exact ⟨hseq, hsome⟩

theorem Shipping.resume (hx : Shipping i x) {pb : PendingBlob} {bytes : Bytes} (hblob : (x.lanes i).blob = some pb)
    (hlen : bytes.length = pb.totalBytes) : Shipping i (x.log h (.blob i (.resumed (some (bytes, pb.generation))))) := by
  obtain ⟨sh, hsh, hsound, hfate, rfl⟩ := hx.holds hblob
  obtain ⟨hgen, htotal, -⟩ := sh.request.after_keeps sh.sent.length
  suffices hstep : Shipping i ((x.load i (some (sh.request.after sh.sent.length))).log h
      (.blob i (.resumed (some (bytes, (sh.request.after sh.sent.length).generation))))) by
    rwa [Traffic.load_self hblob] at hstep
  refine hx.step ?_ (fun view sh' hio hsh' => ?_) (fun _ => ⟨sh, hsh, hfate⟩) fun pb hio => by cases hio
  · rw [hsh, Shipment.follow, if_pos rfl]
    exact hsound.resume _
  · obtain rfl := Option.some.inj (hsh.symm.trans hsh')
    cases hio
    exact ⟨hlen.trans htotal, hgen⟩

theorem Shipping.chunk (hx : Shipping i x) {pb : PendingBlob} {bytes payload : Bytes} {index : Nat} (t : TransportId) (ok : Bool)
    (hblob : (x.lanes i).blob = some pb) (hview : lastBlobStep i x.trace = some (.resumed (some (bytes, pb.generation))))
    (hlen : bytes.length = pb.totalBytes) (hnext : pb.next (chunkCount bytes.length) = some index)
    (hfill : fillBlobChunk pb.target bytes index = some payload) :
    Shipping i ((x.load i (some (if ok then pb.advance else pb))).log h
      (.write i t .blobChunk Channels.catalog 0 payload ok)) := by
  obtain ⟨sh, hsh, hsound, hfate, -⟩ := hx.holds hblob
  refine hx.step ?_ (fun view sh hio => by cases hio) (fun _ => ⟨sh, hsh, hfate⟩) fun pb hio => by cases hio
  rw [hsh]
  cases ok with
  | false => exact hsound
  | true =>
    simp only [Shipment.follow, if_true, Option.map_some]
    exact hsound.send (mem_views hview hsh) hlen hnext hfill

theorem Shipping.deliver (hx : Shipping i x) {pb : PendingBlob} {bytes : Bytes} (hblob : (x.lanes i).blob = some pb)
    (hview : lastBlobStep i x.trace = some (.resumed (some (bytes, pb.generation)))) (hlen : bytes.length = pb.totalBytes)
    (hnext : pb.next (chunkCount bytes.length) = none) :
    Shipping i ((x.load i none).log h (.blob i (.ended .delivered))) := by
  obtain ⟨sh, hsh, hsound, hfate, -⟩ := hx.holds hblob
  refine hx.step ?_ (fun view sh hio => by cases hio) (fun _ => ⟨sh, hsh, hfate⟩) fun pb hio => by cases hio
  rw [hsh, Shipment.follow, if_pos rfl]
  exact hsound.finish .delivered (fun h => by cases h) fun _ => ⟨_, mem_views hview hsh, hlen, hnext⟩

theorem Shipping.drop (hx : Shipping i x) {pb : PendingBlob} (hblob : (x.lanes i).blob = some pb) :
    Shipping i ((x.load i none).log h (.blob i (.ended .dropped))) := by
  obtain ⟨sh, hsh, hsound, hfate, -⟩ := hx.holds hblob
  refine hx.step ?_ (fun view sh hio => by cases hio) (fun _ => ⟨sh, hsh, hfate⟩) fun pb hio => by cases hio
  rw [hsh, Shipment.follow, if_pos rfl]
  exact hsound.finish .dropped (fun h => by cases h) (fun h => by cases h)

/-- A chunk that is due can be cut. -/
theorem Shipping.fills (hx : Shipping i x) {pb : PendingBlob} {bytes : Bytes} {index : Nat}
    (hblob : (x.lanes i).blob = some pb) (hlen : bytes.length = pb.totalBytes)
    (hnext : pb.next (chunkCount bytes.length) = some index) : fillBlobChunk pb.target bytes index ≠ none := by
  intro hfill
  obtain ⟨sh, -, hsound, -, rfl⟩ := hx.holds hblob
  have hnone := fillBlobChunk_none hfill
  obtain ⟨-, htotal, -⟩ := sh.request.after_keeps sh.sent.length
  rw [hlen, htotal] at hnone hnext
  have := PendingBlob.next_lt hsound.fresh hnext
  omega

/-- **Cursor and history agree, whatever happens.** -/
theorem shipping_act {d : Deed} (ha : TrafficAct d x y) (hx : Shipping i x) : Shipping i y := by
  have hlane : ∀ (j : SlotIdx) (l : Lane), l.blob = (x.lanes j).blob → ((x.setLane j l).lanes i).blob = (x.lanes i).blob := by
    intro j l hl
    by_cases hij : i = j
    · subst hij
      rw [Traffic.setLane_self, hl]
    · rw [Traffic.setLane_ne x hij]
  have hother : ∀ {j : SlotIdx} (g : Hub) (blob : Option PendingBlob) {io : Io}, i ≠ j → io.Quiet i →
      Shipping i ((x.load j blob).log g io) := by
    intro j g blob io hij hq
    exact hx.quiet hq rfl (congrArg Lane.blob (x.load_ne hij blob))
  have hwrite : ∀ (type : FrameType) (j : SlotIdx) (t : TransportId), type ≠ .blobChunk → ∀ ch seq payload ok,
      (Io.write j t type ch seq payload ok).Quiet i :=
    fun type j t htype ch seq payload ok => quiet_write fun h => absurd h htype
  cases ha with
  | note g hio => exact hx.quiet (quiet_silent hio) rfl rfl
  | frame g j t ch seq payload hevent hstate hchunk => exact hx.quiet (hwrite _ j t hchunk _ _ _ _) rfl rfl
  | draw j nonce => exact hx.same rfl (hlane j _ rfl)
  | offer g j ch bytes => exact hx.quiet ⟨fun _ => rfl, id, rfl⟩ rfl (hlane j _ rfl)
  | drain g j t ok hpop =>
    have hquiet := hwrite .event j t (by decide)
    exact hx.quiet (hquiet _ 0 _ ok) rfl (hlane j _ rfl)
  | discard j hpop hno => exact hx.same rfl (hlane j _ rfl)
  | push g j t hret hch hoth =>
    have hquiet := hwrite .state j t (by decide)
    exact hx.quiet (hquiet _ _ _ true) rfl (hlane j _ rfl)
  | publish g hpub => exact hx.quiet ⟨fun _ => rfl, id, rfl⟩ rfl rfl
  | seat g j =>
    by_cases hij : i = j
    · subst hij
      refine hx.unseat (.inl rfl) rfl ?_
      show ((x.setLane i _).lanes i).blob = none
      rw [Traffic.setLane_self]
      rfl
    · exact hx.quiet (quiet_seated (Ne.symm hij) (by simp)) rfl (congrArg Lane.blob (x.setLane_ne hij _))
  | move g j k =>
    by_cases hij : i = j
    · subst hij
      refine hx.unseat (.inl rfl) rfl ?_
      show (((x.setLane k _).setLane i _).lanes i).blob = none
      rw [Traffic.setLane_self]
    · by_cases hik : i = k
      · subst hik
        refine hx.unseat (.inr rfl) rfl ?_
        show (((x.setLane i _).setLane j _).lanes i).blob = none
        rw [Traffic.setLane_ne _ hij, Traffic.setLane_self]
        rfl
      · refine hx.quiet (quiet_seated (Ne.symm hij) fun h => hik (Option.some.inj h).symm) rfl ?_
        show (((x.setLane k _).setLane j _).lanes i).blob = _
        rw [Traffic.setLane_ne _ hij, Traffic.setLane_ne _ hik]
  | request g j hfresh hseq hsome =>
    by_cases hij : i = j
    · subst hij
      exact hx.request hfresh hseq hsome
    · exact hother g _ hij (quiet_blob (Ne.symm hij) _)
  | resume g j hblob hlen =>
    by_cases hij : i = j
    · subst hij
      exact hx.resume hblob hlen
    · exact hx.quiet (quiet_blob (Ne.symm hij) _) rfl rfl
  | chunk g j t ok hblob hview hlen hnext hfill =>
    by_cases hij : i = j
    · subst hij
      exact hx.chunk t ok hblob hview hlen hnext hfill
    · exact hother g _ hij (quiet_write fun _ => Ne.symm hij)
  | deliver g j hblob hview hlen hnext =>
    by_cases hij : i = j
    · subst hij
      exact hx.deliver hblob hview hlen hnext
    · exact hother g _ hij (quiet_blob (Ne.symm hij) _)
  | giveUp g j hblob hlen hnext hfill =>
    by_cases hij : i = j
    · subst hij
      exact absurd hfill (hx.fills hblob hlen hnext)
    · exact hother g _ hij (quiet_blob (Ne.symm hij) _)
  | @turnAway _ g g' g'' j t pb view n payload ok hblob hmoved hnack =>
    by_cases hij : i = j
    · subst hij
      exact hx.turnAway hblob hmoved hnack
    · have hresumed := hother g none hij (quiet_blob (Ne.symm hij) (.resumed view))
      have hnacked := hresumed.quiet (y := Traffic.log _ g' (.write j t .nack 0 0 payload ok))
        (hwrite .nack j t (by decide) 0 0 payload ok) rfl rfl
      exact hnacked.quiet (quiet_blob (Ne.symm hij) (.ended .refused)) rfl rfl
  | drop g j hblob =>
    by_cases hij : i = j
    · subst hij
      exact hx.drop hblob
    · exact hother g _ hij (quiet_blob (Ne.symm hij) _)

theorem shipping_writes {ε : Type} {s t : Sys ε} (h : Writes (fun _ => True) (fun _ => False) s t)
    (hs : Shipping i s.traffic) : Shipping i t.traffic :=
  Labelled.Path.invariant h (fun _ _ _ _ ha hx => shipping_act ha hx) hs

theorem shipping_new {ε : Type} (hub : Hub) (e : ε) (hnew : (hub.slots i).blob = none) :
    Shipping i ({ hub, env := e } : Sys ε).traffic where
  agrees := hnew
  answered later h view earlier sh heq := by
    have := congrArg List.length heq
    simp [Sys.traffic] at this
  afoot later h io earlier heq := by
    have := congrArg List.length heq
    simp [Sys.traffic] at this
  asked g pb hmem := absurd hmem List.not_mem_nil

/-- **Cursor and history agree in every run.** -/
theorem shipping {ε : Type} {w : World ε} {c : Config} {G : Sys ε → Move ε → Prop} {s : Sys ε} (h : ReachBy w c G s)
    (i : SlotIdx) : Shipping i s.traffic := by
  obtain ⟨e, hrun⟩ := h
  induction hrun with
  | refl =>
    have hsafety : ∀ t : Sys ε, Writes (fun _ => True) (fun _ => False) t
        (if (c.catalog.find Channels.safety).isSome then publishSafetySnapshot t else t) := by
      intro t
      split
      · exact writes_retain _ _ t
      · exact .refl t
    refine shipping_writes ?_ (shipping_new (i := i) { bootId := (drawNonZero w.nextU32 w.drawFuel e).1 }
      (drawNonZero w.nextU32 w.drawFuel e).2 rfl)
    exact ((hsafety _).trans (writes_publishPending 0 _)).trans (writes_publishRoster _)
  | tail _ hstep ih =>
    obtain ⟨m, hok, -, rfl⟩ := hstep
    exact shipping_writes (writes_move (fun _ _ => trivial) trivial (fun _ => trivial) (fun _ _ => id) hok) ih

end

/-! ## The law -/

/-- What ended stays ended until the next request. -/
theorem finished_stays {i : SlotIdx} {earlier : List (Hub × Io)}
    (hend : ∃ sh, shipment i earlier = some sh ∧ sh.fate.isSome) : ∀ (later : List (Hub × Io)),
    (∀ e ∈ later, ¬e.2.Requests i) → ∃ sh, shipment i (later ++ earlier) = some sh ∧ sh.fate.isSome
  | [], _ => hend
  | (g, io) :: later, hlater => by
    obtain ⟨sh, hsh, hfate⟩ := finished_stays hend later fun e he => hlater e (List.mem_cons_of_mem _ he)
    have hio := hlater (g, io) List.mem_cons_self
    show ∃ sh, Shipment.follow i (shipment i (later ++ earlier)) io = some sh ∧ _
    rw [hsh]
    unfold Shipment.follow
    split
    · split
      · rename_i hj
        split
        · exact absurd hj hio
        · exact ⟨_, rfl, hfate⟩
        · exact ⟨_, rfl, rfl⟩
      · exact ⟨sh, rfl, hfate⟩
    · split
      · exact ⟨_, rfl, hfate⟩
      · exact ⟨sh, rfl, hfate⟩
    · split
      · exact ⟨_, rfl, rfl⟩
      · exact ⟨sh, rfl, hfate⟩
    · exact ⟨sh, rfl, hfate⟩

/-- After the end there is nothing more of it. -/
theorem Afoot.nothing {i : SlotIdx} {later earlier : List (Hub × Io)} (ha : Afoot i (later ++ earlier))
    (hend : ∃ sh, shipment i earlier = some sh ∧ sh.fate.isSome) (hlater : ∀ e ∈ later, ¬e.2.Requests i) :
    ∀ e ∈ later, ¬e.2.Ships i := by
  rintro ⟨g, io⟩ he hships
  obtain ⟨l₁, l₂, rfl⟩ := List.append_of_mem he
  obtain ⟨sh, hsh, hnone⟩ := ha l₁ g io (l₂ ++ earlier) (by simp) hships
  obtain ⟨sh', hsh', hsome⟩ := finished_stays hend l₂ fun e he => hlater e (by simp [he])
  obtain rfl := Option.some.inj (hsh.symm.trans hsh')
  rw [hnone] at hsome
  cases hsome

/-- **A blob transfer is exact.**  While the blob stays the same, what the transport took is a prefix of what was asked
for, and all of it once the transfer is delivered; when a resumption finds another blob, one NACK with the number of the
request ends the transfer.  The chunks of a blob, in any order and any number of times, put it together again. -/
theorem blob_transfer_exact {ε : Type} {w : World ε} {c : Config} {G : Sys ε → Move ε → Prop} {s : Sys ε}
    (h : ReachBy w c G s) (i : SlotIdx) :
    (∀ sh, shipment i s.trace = some sh →
      (∃ g q, (g, .blob i (.requested sh.request)) ∈ s.trace ∧ g.dispatchSeq = some q ∧ sh.request.reqSeq = some q) ∧
      ((s.slot i).blob = none ↔ sh.fate.isSome) ∧
      ∀ bytes, (∀ v ∈ sh.views, v = some (bytes, sh.request.generation)) → bytes.length = sh.request.totalBytes →
        chunkCount bytes.length < 2 ^ 16 →
        sh.sent <+: sh.request.frames bytes ∧ (sh.fate = some .delivered → sh.sent = sh.request.frames bytes) ∧
          sh.fate ≠ some .refused) ∧
    (∀ later g view earlier sh, s.trace = later ++ (g, .blob i (.resumed view)) :: earlier →
      (∀ e ∈ later, ¬e.2.Requests i) → shipment i earlier = some sh → ¬sh.request.Matches view →
      ∃ q later' g₁ g₂ t payload ok, sh.request.reqSeq = some q ∧
        later = later' ++ [(g₂, .blob i (.ended .refused)), (g₁, .write i t .nack 0 0 payload ok)] ∧
        (∃ n : NackMsg, encodeNack { n with intentSeq := some q } 128 = some payload) ∧
        ∀ e ∈ later', ¬e.2.Ships i) ∧
    ∀ (maxChunks : Nat) (r : ChunkReassembler maxChunks), Sized r → ∀ (id : BlobId) (bytes : Bytes),
      0 < chunkCount bytes.length → chunkCount bytes.length < 2 ^ 16 → chunkCount bytes.length ≤ maxChunks →
      ∀ first ∈ blobChunks id bytes, ∀ hd, getBlobChunkHeader first = some hd →
      ∀ (feed : List (Bytes × UInt32)), (∀ p, p ∈ feed.map Prod.fst ↔ p ∈ blobChunks id bytes) → ∀ nowMs,
        (feed.foldl (fun r e => r.insert e.1 e.2) (r.begin hd nowMs)).complete = true ∧
        (feed.foldl (fun r e => r.insert e.1 e.2) (r.begin hd nowMs)).assembled = bytes := by
  have hship := shipping h i
  refine ⟨fun sh hsh => ?_, ?_, ?_⟩
  · have hsound : sh.Sound (s.slot i).blob := by
      have hagrees := hship.agrees
      rw [show shipment i s.traffic.trace = some sh from hsh] at hagrees
      exact hagrees
    obtain ⟨g, hg⟩ := request_mem hsh
    obtain ⟨hseq, hsome⟩ := hship.asked g _ hg
    obtain ⟨q, hq⟩ := Option.isSome_iff_exists.mp hsome
    refine ⟨⟨g, q, hg, hseq.symm.trans hq, hq⟩, ⟨hsound.gone, fun hsome => ?_⟩, ?_⟩
    · cases hblob : (s.slot i).blob with
      | none => rfl
      | some pb =>
        rw [(hsound.live pb hblob).1] at hsome
        cases hsome
    · intro bytes hviews hlen hcount
      obtain ⟨hsent, hall⟩ := hsound.exact_ bytes hviews hlen hcount
      refine ⟨hsent, hall, fun hrefused => ?_⟩
      obtain ⟨v, hv, hmoved⟩ := hsound.refused hrefused
      rw [hviews v hv] at hmoved
      exact hmoved ⟨hlen, rfl⟩
  · intro later g view earlier sh htrace hlater hsh hmoved
    obtain ⟨later', g₁, g₂, t, payload, ok, rfl, n, hn⟩ := hship.answered later g view earlier sh htrace hsh hmoved
    obtain ⟨g₀, hg₀⟩ := request_mem hsh
    have hmem : (g₀, .blob i (.requested sh.request)) ∈ s.trace := by
      rw [htrace]
      exact List.mem_append_right _ (List.mem_cons_of_mem _ hg₀)
    obtain ⟨q, hq⟩ := Option.isSome_iff_exists.mp (hship.asked g₀ _ hmem).2
    refine ⟨q, later', g₁, g₂, t, payload, ok, hq, rfl, ⟨n, by rw [← hq]; exact hn⟩, ?_⟩
    have hsplit : s.traffic.trace = later' ++ ((g₂, .blob i (.ended .refused)) :: (g₁, .write i t .nack 0 0 payload ok) ::
        (g, .blob i (.resumed view)) :: earlier) := by
      refine htrace.trans ?_
      simp
    have hafoot := hship.afoot
    rw [hsplit] at hafoot
    refine hafoot.nothing ⟨(sh.resume view).finish .refused, ?_, rfl⟩ fun e he => hlater e (List.mem_append_left _ he)
    simp [shipment, Shipment.follow, hsh]
  · intro maxChunks r hsized id bytes hpos hsmall hroom first hfirst hd hhd feed hfeed nowMs
    obtain ⟨k, -, rfl⟩ := List.mem_map.mp hfirst
    have hbegin := assembles_begin hsized hpos hroom hsmall hhd nowMs
    obtain ⟨hend, hreceived⟩ := assembles_feed feed hbegin fun e he =>
      (hfeed e.1).mp (List.mem_map_of_mem he)
    refine hend.done fun k hk => hreceived k hk (.inr ?_)
    obtain ⟨e, he, heq⟩ := List.mem_map.mp ((hfeed (blobChunk id bytes k)).mpr
      (List.mem_map_of_mem (List.mem_range.mpr hk)))
    exact ⟨e, he, heq⟩

/-- A catalog of two chunks. -/
def Bench.twoChunks : Bytes := List.replicate 200 7

def Bench.served : Config := { Bench.config with catalogEncoded := Bench.twoChunks }

/-- The catalog is fetched; at first the transport takes nothing. -/
def Bench.fetched : List (Call Bench) :=
  [.attachTransport 0, Bench.reads 1000 0 [.hello (some { instanceId := Bench.client 1 })], .world { writeOk := false },
    Bench.reads 2000 0 [.blobReq (some {})], .world {}, .update 3000 fun _ => []]

/-- It arrives whole. -/
theorem blob_transfer_exact_fetched : ∃ sh, shipment 0 (run Bench.world Bench.served {} Bench.fetched).trace = some sh ∧
    sh.sent = sh.request.frames Bench.twoChunks := by
  have hreach : Reachable Bench.world Bench.served (run Bench.world Bench.served {} Bench.fetched) :=
    ⟨{}, Bench.fetched, rfl⟩
  have hship : ((shipment 0 (run Bench.world Bench.served {} Bench.fetched).trace).map fun sh =>
      (sh.views, sh.fate, sh.request.generation, sh.request.totalBytes)) =
      some ([some (Bench.twoChunks, 0), some (Bench.twoChunks, 0)], some .delivered, 0, 200) := by decide +kernel
  obtain ⟨sh, hsh, hfields⟩ := Option.map_eq_some_iff.mp hship
  simp only [Prod.mk.injEq] at hfields
  obtain ⟨hviews, hfate, hgen, htotal⟩ := hfields
  refine ⟨sh, hsh, ?_⟩
  refine (((blob_transfer_exact (reachBy_of_reachable hreach) 0).1 sh hsh).2.2 Bench.twoChunks ?_ ?_ ?_).2.1 hfate
  · intro v hv
    rw [hviews] at hv
    rw [hgen]
    rcases List.mem_cons.mp hv with rfl | hv
    · rfl
    · exact List.mem_singleton.mp hv
  · rw [htotal, Bench.twoChunks, List.length_replicate]
  · rw [Bench.twoChunks, List.length_replicate]
    decide

end SlopSync
