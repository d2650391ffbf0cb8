import SlopSync.Js.Session

/-! # The catalog a JavaScript session is LIVE with

The session goes LIVE, and reads STATE frames, with a catalog that was matched or declared on the connection, as long as
no catalog of an earlier connection is left when one of these comes: nothing drops it when a socket opens. -/

namespace SlopSync.Js

variable {ν : Type} {c : Setup ν} {s t : Session} {log : List Act} {etag : Bytes}

/-! ## One connection -/

/-- The acts since the last socket was opened. -/
def sinceOpened (log : List Act) : List Act := log.takeWhile fun a => a ≠ .opened

/-- On this connection the etag was matched against a WELCOME, or declared in a CATALOG_READY. -/
def Declared (etag : Bytes) (log : List Act) : Prop :=
  .matched etag ∈ sinceOpened log ∨ .sent (.catalogReady etag) ∈ sinceOpened log

instance (etag : Bytes) (log : List Act) : Decidable (Declared etag log) :=
  inferInstanceAs (Decidable (_ ∨ _))

/-- What follows in a connection belongs to it. -/
theorem sinceOpened_cons {a : Act} (h : a ≠ .opened) : sinceOpened (a :: log) = a :: sinceOpened log := by
  simp [sinceOpened, h]

/-- An etag declared stays declared within the connection. -/
theorem Declared.cons {a : Act} (ha : a ≠ .opened) (h : Declared etag log) : Declared etag (a :: log) := by
  unfold Declared
  rw [sinceOpened_cons ha]
  exact h.imp (List.mem_cons_of_mem a) (List.mem_cons_of_mem a)

/-- The session goes LIVE, and reads a STATE frame, by a catalog whose etag was declared before. -/
def Act.Lawful (c : Setup ν) (before : List Act) : Act → Prop
  | .live bytes => Declared (c.catalogEtag bytes) before
  | .decoded _ bytes => Declared (c.catalogEtag bytes) before
  | _ => True

def Lawful (c : Setup ν) : List Act → Prop
  | [] => True
  | a :: before => a.Lawful c before ∧ Lawful c before

instance (c : Setup ν) (before : List Act) (a : Act) : Decidable (a.Lawful c before) :=
  match a with
  | .live bytes => inferInstanceAs (Decidable (Declared (c.catalogEtag bytes) before))
  | .decoded _ bytes => inferInstanceAs (Decidable (Declared (c.catalogEtag bytes) before))
  | .opened | .sent _ | .matched _ | .adopted _ | .raw _ | .saved .. | .cleared => isTrue trivial

instance decidableLawful (c : Setup ν) : DecidablePred (Lawful c)
  | [] => isTrue trivial
  | a :: before => @instDecidableAnd (a.Lawful c before) (Lawful c before) inferInstance (decidableLawful c before)

/-- A catalog was adopted on this connection. -/
def AdoptedHere (log : List Act) : Prop := ∃ bytes, .adopted bytes ∈ sinceOpened log

/-- An adoption in this connection stays one. -/
theorem AdoptedHere.cons {a : Act} (ha : a ≠ .opened) (h : AdoptedHere log) : AdoptedHere (a :: log) := by
  obtain ⟨bytes, hb⟩ := h
  refine ⟨bytes, ?_⟩
  rw [sinceOpened_cons ha]
  exact List.mem_cons_of_mem a hb

/-- Nothing is left of the catalog of an earlier connection. -/
def Fresh (s : Session) : Prop := s.catalog.isSome = true → AdoptedHere s.log

/-! ## The invariant -/

/-- What was done is lawful, a catalog adopted on this connection was declared on it, and the cache is what it says. -/
structure Held (c : Setup ν) (s : Session) : Prop where
  lawful : Lawful c s.log
  declared : ∀ a, s.catalog = some a → AdoptedHere s.log → Declared (c.catalogEtag a.bytes) s.log
  trusted : ∀ cached, s.cachedCatalog = some cached → c.catalogEtag cached.bytes = cached.etag

/-- An act that neither opens a socket nor adopts a catalog. -/
theorem Held.note {a : Act} (h : Held c s) (hopen : a ≠ .opened) (hadopt : ∀ bytes, a ≠ .adopted bytes)
    (hlaw : a.Lawful c s.log) : Held c (s.note a) where
  lawful := ⟨hlaw, h.lawful⟩
  declared x hx hhere := by
    refine (h.declared x hx ?_).cons hopen
    obtain ⟨bytes, hb⟩ := hhere
    have hb' : Act.adopted bytes ∈ a :: sinceOpened s.log := sinceOpened_cons hopen ▸ hb
    rcases List.mem_cons.mp hb' with heq | hb'
    · exact absurd heq.symm (hadopt bytes)
    · exact ⟨bytes, hb'⟩
  trusted := h.trusted

theorem Held.sendFrame (h : Held c s) (f : Sent) : Held c (s.sendFrame f) := by
  unfold Session.sendFrame
  split
  · exact h.note (by simp) (by simp) trivial
  · exact h

theorem Held.requestCatalog (h : Held c s) : Held c s.requestCatalog :=
  Held.sendFrame (s := { s with blob := s.blob.reset }) ⟨h.lawful, h.declared, h.trusted⟩ _

theorem Held.clearCache (h : Held c s) : Held c s.clearCache :=
  Held.note (s := { s with cachedCatalog := none }) ⟨h.lawful, h.declared, fun _ hk => by cases hk⟩ (by simp) (by simp)
    trivial

/-- The transition to LIVE needs a catalog of this connection. -/
theorem Held.checkLiveTransition (h : Held c s)
    (hfresh : s.catalog.isSome = true → s.requiredRetained ≤ s.adoptedChannels.length → s.phase = .syncing →
      AdoptedHere s.log) : Held c s.checkLiveTransition := by
  unfold Session.checkLiveTransition
  split
  · exact h
  · rename_i hphase
    cases hcat : s.catalog with
    | none => exact h
    | some a =>
      dsimp only
      split
      · exact h
      · rename_i hcount
        have hhere := hfresh (by rw [hcat]; rfl) (not_lt.mp hcount) (not_not.mp hphase)
        exact Held.note (s := { s with phase := .live, catalog := some a })
          ⟨h.lawful, fun x hx => h.declared x (hcat.trans hx), h.trusted⟩ (by simp) (by simp)
          (h.declared a hcat hhere)

/-! ## WELCOME -/

/-- What is adopted decodes, and is logged. -/
theorem adoptCatalog_eq {bytes : Bytes} (h : s.adoptCatalog c bytes = some t) :
    ∃ entries, c.decodeCatalog bytes = some entries ∧
      t = ({ s with catalog := some ⟨bytes, entries⟩ } : Session).note (.adopted bytes) := by
  obtain ⟨entries, he, rfl⟩ := Option.map_eq_some_iff.mp h
  exact ⟨entries, he, rfl⟩

/-- What is not adopted does not decode. -/
theorem adoptCatalog_none {bytes : Bytes} (h : s.adoptCatalog c bytes = none) : c.decodeCatalog bytes = none :=
  Option.map_eq_none_iff.mp h

/-- A catalog whose etag was declared may be adopted. -/
theorem Held.adopt {bytes : Bytes} {entries : List ChannelEntry} (h : Held c s)
    (hdecl : Declared (c.catalogEtag bytes) s.log) :
    Held c (({ s with catalog := some ⟨bytes, entries⟩ } : Session).note (.adopted bytes)) where
  lawful := ⟨trivial, h.lawful⟩
  declared a ha _ := by
    obtain rfl := Option.some.inj ha
    exact hdecl.cons (by simp)
  trusted := h.trusted

/-- A catalog just adopted was adopted here. -/
theorem adoptedHere_adopted (bytes : Bytes) (log : List Act) : AdoptedHere (.adopted bytes :: log) := by
  refine ⟨bytes, ?_⟩
  rw [sinceOpened_cons (by simp)]
  exact List.mem_cons_self

/-- What is sent and noted on the way counts no channel and leaves nothing behind. -/
structure Steady (s t : Session) : Prop where
  required : t.requiredRetained = s.requiredRetained
  channels : t.adoptedChannels = s.adoptedChannels
  fresh : Fresh s → Fresh t

theorem Steady.trans {u : Session} (h : Steady s t) (h' : Steady t u) : Steady s u where
  required := h'.required.trans h.required
  channels := h'.channels.trans h.channels
  fresh := h'.fresh ∘ h.fresh

theorem steady_note {a : Act} (h : a ≠ .opened) : Steady s (s.note a) where
  required := rfl
  channels := rfl
  fresh hf hcat := (hf hcat).cons h

theorem steady_sendFrame (f : Sent) : Steady s (s.sendFrame f) := by
  unfold Session.sendFrame
  split
  · exact steady_note (by simp)
  · exact ⟨rfl, rfl, id⟩

theorem steady_requestCatalog : Steady s s.requestCatalog := by
  have h := steady_sendFrame (s := { s with blob := s.blob.reset }) (.blobReq [])
  exact ⟨h.required, h.channels, h.fresh⟩

theorem steady_clearCache : Steady s s.clearCache := by
  have h := steady_note (s := { s with cachedCatalog := none }) (a := .cleared) (by simp)
  exact ⟨h.required, h.channels, h.fresh⟩

/-- Asking for the catalog again keeps the invariant. -/
theorem Held.refetch (h : Held c s) : Held c (s.refetch c) := by
  unfold Session.refetch
  split
  · exact h.requestCatalog
  · exact h

theorem steady_refetch (c : Setup ν) (s : Session) : Steady s (s.refetch c) := by
  unfold Session.refetch
  split
  · exact steady_requestCatalog
  · exact ⟨rfl, rfl, id⟩

/-- Asking for the catalog again leaves the connection's part of the session. -/
theorem Steady.refetch (h : Steady s t) (c : Setup ν) (ready : Bool) :
    Steady s (({ t with ready := ready } : Session).refetch c) := by
  have hready : Steady s { t with ready := ready } := ⟨h.required, h.channels, h.fresh⟩
  exact hready.trans (steady_refetch c _)

/-- The adoption of a cache that matches: nothing is left behind when it decodes. -/
theorem Held.adoptMatched {cached : CachedCatalog} (h : Held c s) (hk : s.cachedCatalog = some cached) :
    Held c (s.adoptMatched c cached) ∧ Steady s (s.adoptMatched c cached) ∧
      ((c.decodeCatalog cached.bytes).isSome = true → Fresh (s.adoptMatched c cached)) := by
  have hmatched : Held c (({ s with ready := true, readyEtag := some cached.etag } : Session).note
      (.matched cached.etag)) :=
    Held.note (s := { s with ready := true, readyEtag := some cached.etag }) ⟨h.lawful, h.declared, h.trusted⟩
      (by simp) (by simp) trivial
  have hsteady : Steady s (({ s with ready := true, readyEtag := some cached.etag } : Session).note
      (.matched cached.etag)) := by
    have hnote := steady_note (s := { s with ready := true, readyEtag := some cached.etag })
      (a := .matched cached.etag) (by simp)
    exact ⟨hnote.required, hnote.channels, hnote.fresh⟩
  unfold Session.adoptMatched
  dsimp only
  split
  · rename_i u hu
    obtain ⟨entries, hdec, rfl⟩ := adoptCatalog_eq hu
    have hdecl : Declared (c.catalogEtag cached.bytes) (.matched cached.etag :: s.log) := by
      rw [h.trusted cached hk, Declared, sinceOpened_cons (by simp)]
      exact .inl List.mem_cons_self
    have hfresh : Fresh (({ s.note (.matched cached.etag) with
        ready := true, readyEtag := some cached.etag, catalog := some ⟨cached.bytes, entries⟩ } : Session).note
        (.adopted cached.bytes)) := fun _ => adoptedHere_adopted _ _
    exact ⟨hmatched.adopt hdecl, ⟨rfl, rfl, fun _ => hfresh⟩, fun _ => hfresh⟩
  · rename_i hu
    have hcleared := hmatched.clearCache
    refine ⟨Held.refetch ⟨hcleared.lawful, hcleared.declared, hcleared.trusted⟩,
      (hsteady.trans steady_clearCache).refetch c false, fun hsome => ?_⟩
    rw [adoptCatalog_none hu] at hsome
    cases hsome

/-- A cached catalog with another etag is forgotten. -/
theorem Held.forgetUnmatched (h : Held c s) :
    Held c (s.forgetUnmatched c) ∧ Steady s (s.forgetUnmatched c) := by
  obtain ⟨hheld, hsteady⟩ : Held c (if s.cachedCatalog.isSome then s.clearCache else s) ∧
      Steady s (if s.cachedCatalog.isSome then s.clearCache else s) := by
    split
    · exact ⟨h.clearCache, steady_clearCache⟩
    · exact ⟨h, rfl, rfl, id⟩
  exact ⟨Held.refetch ⟨hheld.lawful, hheld.declared, hheld.trusted⟩, hsteady.refetch c false⟩

/-- The WELCOME names the cached catalog and that decodes, or nothing is left of an earlier connection, or the session
waits for retained state first. -/
def WelcomeAllowed (c : Setup ν) (s : Session) (w : Welcome) : Prop :=
  (∃ cached, s.cachedCatalog = some cached ∧ w.catalogEtag = some cached.etag ∧
    (c.decodeCatalog cached.bytes).isSome = true) ∨ Fresh s ∨ 0 < w.retainedPending

/-- A WELCOME keeps the invariant: what it declares is compared with what is held. -/
theorem Held.handleWelcome {w : Welcome} (h : Held c s) (hw : WelcomeAllowed c s w) : Held c (s.handleWelcome c w) := by
  unfold Session.handleWelcome
  dsimp only
  generalize hs0 : ({ s with
    catalogEtag := w.catalogEtag, adoptedChannels := [], requiredRetained := w.retainedPending
    phase := .syncing, readyPending := false, readyAttempts := 0, blob := s.blob.reset } : Session) = s0
  have hheld : Held c s0 := by
    subst hs0
    exact ⟨h.lawful, h.declared, h.trusted⟩
  have hfresh : Fresh s → Fresh s0 := by
    subst hs0
    exact id
  have hwait : 0 < w.retainedPending → ∀ t, Steady s0 t → ¬t.requiredRetained ≤ t.adoptedChannels.length := by
    intro hpos t ht
    rw [ht.required, ht.channels, ← hs0]
    exact Nat.not_le.mpr hpos
  have hcached : s0.cachedCatalog = s.cachedCatalog := by rw [← hs0]
  have hetag : s0.catalogEtag = w.catalogEtag := by rw [← hs0]
  cases hm : s0.matchedCatalog with
  | some cached =>
    obtain ⟨hk, hmatch⟩ := Option.filter_eq_some_iff.mp hm
    obtain ⟨hheld', hsteady, hdec⟩ := hheld.adoptMatched hk
    refine Held.checkLiveTransition ⟨hheld'.lawful, hheld'.declared, hheld'.trusted⟩ fun hcat hcount _ => ?_
    rcases hw with ⟨cached', hk', -, hsome⟩ | hf | hpos
    · rw [← hcached, hk] at hk'
      obtain rfl := Option.some.inj hk'
      exact hdec hsome hcat
    · exact hsteady.fresh (hfresh hf) hcat
    · exact (hwait hpos _ hsteady hcount).elim
  | none =>
    obtain ⟨hheld', hsteady⟩ := hheld.forgetUnmatched
    refine Held.checkLiveTransition ⟨hheld'.lawful, hheld'.declared, hheld'.trusted⟩ fun hcat hcount _ => ?_
    rcases hw with ⟨cached, hk, he, -⟩ | hf | hpos
    · have hsome : s0.matchedCatalog = some cached := by
        rw [Session.matchedCatalog, hcached, hk, hetag, he]
        simp
      rw [hm] at hsome
      cases hsome
    · exact hsteady.fresh (hfresh hf) hcat
    · exact (hwait hpos _ hsteady hcount).elim

/-! ## BLOB_CHUNK -/

/-- What is adopted may be declared, once it is known to be lawful so far. -/
theorem held_sendCatalogReady {bytes : Bytes} (hopen : s.wsOpen = true)
    (hcat : ∃ entries, s.catalog = some ⟨bytes, entries⟩) (hlaw : Lawful c s.log)
    (htrust : ∀ cached, s.cachedCatalog = some cached → c.catalogEtag cached.bytes = cached.etag)
    (hhere : AdoptedHere s.log) (nowMs : Nat) :
    Held c (s.sendCatalogReady (c.catalogEtag bytes) nowMs).checkLiveTransition := by
  unfold Session.sendCatalogReady
  dsimp only
  rw [if_pos hopen]
  refine Held.checkLiveTransition ⟨⟨trivial, hlaw⟩, fun a ha _ => ?_, htrust⟩ fun _ _ _ => hhere.cons (by simp)
  obtain ⟨entries, hcat⟩ := hcat
  obtain rfl := Option.some.inj (hcat.symm.trans ha)
  refine .inr ?_
  change Act.sent (.catalogReady (c.catalogEtag bytes)) ∈ sinceOpened (_ :: s.log)
  rw [sinceOpened_cons (by simp)]
  exact List.mem_cons_self

/-- A transfer that completes is adopted in this connection, or asked for again. -/
theorem Held.adoptTransferred (h : Held c s) (hopen : s.wsOpen = true) (nowMs : Nat) :
    Held c (s.adoptTransferred c nowMs) := by
  unfold Session.adoptTransferred
  dsimp only
  split
  · exact ⟨h.lawful, h.declared, h.trusted⟩
  · rename_i t ht
    obtain ⟨entries, -, rfl⟩ := adoptCatalog_eq ht
    have hadopted : AdoptedHere (.adopted s.blob.assembled :: s.log) := adoptedHere_adopted _ _
    split
    · refine held_sendCatalogReady ?_ ?_ ?_ ?_ ?_ nowMs
      · exact hopen
      · exact ⟨entries, rfl⟩
      · exact ⟨trivial, trivial, h.lawful⟩
      · exact h.trusted
      · exact hadopted.cons (by simp)
    · refine held_sendCatalogReady ?_ ?_ ?_ ?_ ?_ nowMs
      · exact hopen
      · exact ⟨entries, rfl⟩
      · exact ⟨trivial, h.lawful⟩
      · exact h.trusted
      · exact hadopted

/-- A chunk keeps the invariant, also when it completes the transfer. -/
theorem Held.handleBlobChunk (h : Held c s) (hopen : s.wsOpen = true) (payload : Bytes) (nowMs : Nat) :
    Held c (s.handleBlobChunk c payload nowMs) := by
  unfold Session.handleBlobChunk
  cases parseBlobChunk payload with
  | none => exact h
  | some chunk =>
    dsimp only
    split
    · exact h
    · split
      · exact h
      · split
        · have hbye := h.sendFrame .goodbye
          exact ⟨hbye.lawful, hbye.declared, hbye.trusted⟩
        · have hstart : Held c (s.startTransfer chunk nowMs) ∧ (s.startTransfer chunk nowMs).wsOpen = true := by
            unfold Session.startTransfer
            split
            · exact ⟨h, hopen⟩
            · exact ⟨⟨h.lawful, h.declared, h.trusted⟩, hopen⟩
          obtain ⟨hheld, hopen'⟩ := hstart
          unfold Session.insertChunk
          dsimp only
          split
          · exact hheld
          · split
            · refine Held.adoptTransferred ?_ ?_ nowMs
              · exact ⟨hheld.lawful, hheld.declared, hheld.trusted⟩
              · exact hopen'
            · exact ⟨hheld.lawful, hheld.declared, hheld.trusted⟩

/-! ## STATE -/

/-- Nothing is left of an earlier connection, or the frame is neither read by its layouts nor the last one awaited. -/
def StateAllowed (s : Session) (channel : Nat) : Prop :=
  Fresh s ∨ (s.layoutFor channel = none ∧
    (s.phase ≠ .syncing ∨ channel ∈ s.adoptedChannels ∨ s.adoptedChannels.length + 1 < s.requiredRetained))

/-- A layout comes from the catalog held. -/
theorem layoutFor_some {channel : Nat} {bytes : Bytes} (h : s.layoutFor channel = some bytes) :
    ∃ a, s.catalog = some a ∧ a.bytes = bytes := by
  unfold Session.layoutFor at h
  cases hcat : s.catalog with
  | none =>
    rw [hcat] at h
    cases h
  | some a =>
    simp only [hcat] at h
    cases he : a.channelMap.get channel with
    | none =>
      rw [he] at h
      cases h
    | some e =>
      simp only [he] at h
      split at h
      · exact ⟨a, rfl, Option.some.inj h⟩
      · cases h

/-- A STATE keeps the invariant: its layout is one of the catalog held. -/
theorem Held.handleState {channel : Nat} (h : Held c s) (hs : StateAllowed s channel) : Held c (s.handleState channel) := by
  unfold Session.handleState
  dsimp only
  have hlayout : ({ s with readyPending := false, ready := true } : Session).layoutFor channel = s.layoutFor channel := rfl
  rw [hlayout]
  cases hl : s.layoutFor channel with
  | some bytes =>
    obtain ⟨a, hcat, rfl⟩ := layoutFor_some hl
    have hfresh : Fresh s := hs.resolve_right fun hr => by
      rw [hl] at hr
      cases hr.1
    have hhere : AdoptedHere s.log := hfresh (by rw [hcat]; rfl)
    have hread : Held c (s.note (.decoded channel a.bytes)) :=
      h.note (by simp) (by simp) (h.declared a hcat hhere)
    dsimp only
    split
    · exact ⟨hread.lawful, hread.declared, hread.trusted⟩
    · exact Held.checkLiveTransition ⟨hread.lawful, hread.declared, hread.trusted⟩ fun _ _ _ => hhere.cons (by simp)
  | none =>
    have hraw : Held c (s.note (.raw channel)) := h.note (by simp) (by simp) trivial
    dsimp only
    split
    · exact ⟨hraw.lawful, hraw.declared, hraw.trusted⟩
    · rename_i hnew
      refine Held.checkLiveTransition ⟨hraw.lawful, hraw.declared, hraw.trusted⟩ fun hcat hcount hphase => ?_
      rcases hs with hf | ⟨-, hp | hm | hlt⟩
      · exact (hf hcat).cons (by simp)
      · exact absurd hphase hp
      · exact absurd hm hnew
      · have hlen : s.requiredRetained ≤ (s.adoptedChannels ++ [channel]).length := hcount
        rw [List.length_append, List.length_singleton] at hlen
        omega

/-! ## Runs -/

/-- Frames come on the socket opened last, chunks while it is open, and neither a WELCOME nor a STATE frame goes by the
catalog of an earlier connection. -/
def Allowed (c : Setup ν) (s : Session) : Event ν → Prop
  | .frame socket (.welcome w) _ => socket = s.sockets ∧ WelcomeAllowed c s w
  | .frame socket (.state channel) _ => socket = s.sockets ∧ StateAllowed s channel
  | .frame socket (.blobChunk _) _ => socket = s.sockets ∧ s.wsOpen = true
  | _ => True

/-- A new socket begins a connection in which nothing has been declared. -/
theorem Held.openSocket (h : Held c s) (loaded : Option CachedCatalog) : Held c (s.openSocket c loaded) where
  lawful := by
    unfold Session.openSocket
    dsimp only
    split
    · exact ⟨trivial, trivial, h.lawful⟩
    · exact ⟨trivial, h.lawful⟩
  declared a _ hhere := by
    obtain ⟨bytes, hb⟩ := hhere
    have hnil : sinceOpened (s.openSocket c loaded).log = [] := by
      unfold Session.openSocket Session.note sinceOpened
      simp
    rw [hnil] at hb
    cases hb
  trusted cached hk := by
    have hk' : (loaded.filter fun cached => c.catalogEtag cached.bytes == cached.etag) = some cached := by
      unfold Session.openSocket at hk
      dsimp only at hk
      split at hk <;> exact hk
    obtain ⟨-, heq⟩ := Option.filter_eq_some_iff.mp hk'
    exact eq_of_beq heq

/-- Time passing keeps it. -/
theorem Held.pump (h : Held c s) (nowMs : Nat) : Held c (s.pump nowMs) := by
  unfold Session.pump
  split
  · have hready : Held c (s.pumpCatalogReady nowMs) := by
      unfold Session.pumpCatalogReady
      split
      · exact h
      · split
        · exact ⟨h.lawful, h.declared, h.trusted⟩
        · split
          · exact h
          · have hsent := h.sendFrame (.catalogReady (s.readyEtag.getD []))
            exact ⟨hsent.lawful, hsent.declared, hsent.trusted⟩
    unfold Session.pumpBlobRepair
    split
    · exact hready
    · split
      · exact hready.requestCatalog
      · split
        · exact hready
        · split
          · exact hready
          · have hsent := hready.sendFrame (.blobReq ((s.pumpCatalogReady nowMs).blob.missingIndices.take 32))
            exact ⟨hsent.lawful, hsent.declared, hsent.trusted⟩
  · exact h

/-- An intent keeps the invariant. -/
theorem Held.sendIntent (h : Held c s) (channel : Nat) (values : ν) : Held c (s.sendIntent c channel values) := by
  unfold Session.sendIntent
  cases s.sendable channel with
  | none => exact ⟨h.lawful, h.declared, h.trusted⟩
  | some entry =>
    cases hv : c.encodeValues entry values with
    | none =>
      simp only [hv]
      exact ⟨h.lawful, h.declared, h.trusted⟩
    | some encoded =>
      simp only [hv]
      split
      · exact Held.note (s := { s with intents := s.intents.advance.issue channel s.intents.nextId })
          ⟨h.lawful, h.declared, h.trusted⟩ (by simp) (by simp) trivial
      · exact ⟨h.lawful, h.declared, h.trusted⟩

end SlopSync.Js
