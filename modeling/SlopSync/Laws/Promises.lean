import SlopSync.Js.Session

/-! # Promises are settled by their own answer

Every promise of `sendIntent` is settled once or has its timer armed.  An ECHO resolves the promise whose id it has.  A
NACK rejects the promise that it names; one that names nothing is taken for the oldest promise on its channel. -/

namespace SlopSync.Js

variable {ν : Type} {c : Setup ν} {s : Session} {m : Intents}

/-! ## What a NACK names -/

/-- By `intent_id`, or without one by `intent_seq`. -/
def Nack.Names (n : Nack) (id : Nat) : Prop := n.intentId = some id ∨ (n.intentId = none ∧ n.intentSeq = some id)

/-- A NACK for a frame that is no INTENT, or one refused before its id could be read. -/
def Nack.Keyless (n : Nack) : Prop := n.intentId = none ∧ n.intentSeq = none

/-- It has a key, and what it names is not pending. -/
def Nack.Stale (n : Nack) (m : Intents) : Prop := ¬n.Keyless ∧ ∀ id, n.Names id → m.pending.has id = false

namespace Intents

/-- A key that is kept names a pending intent. -/
theorem filter_has_some {o : Option Nat} {id : Nat} (h : o.filter m.pending.has = some id) :
    o = some id ∧ m.pending.has id = true := Option.filter_eq_some_iff.mp h

/-- A key that is not kept names no pending intent. -/
theorem filter_has_none {o : Option Nat} {id : Nat} (h : o.filter m.pending.has = none) (ho : o = some id) :
    m.pending.has id = false := by
  subst ho
  simpa using h

/-- A NACK is correlated by name, unless it names nothing that is pending. -/
theorem correlate_some {channelId id : Nat} {n : Nack} (h : m.correlate channelId n = some id) :
    n.Names id ∨ (n.Keyless ∧ m.oldestOn channelId = some id) ∨ n.Stale m := by
  unfold correlate at h
  cases hid : n.intentId.filter m.pending.has with
  | some id' =>
    rw [hid] at h
    obtain ⟨hn, -⟩ := filter_has_some hid
    exact .inl (.inl (hn.trans h))
  | none =>
    simp only [hid] at h
    cases hi : n.intentId with
    | some i =>
      refine .inr (.inr ⟨fun hk => ?_, fun x hx => ?_⟩)
      · exact absurd (hi.symm.trans hk.1) (Option.some_ne_none i)
      · rcases hx with hx | ⟨hx, -⟩
        · exact filter_has_none hid hx
        · rw [hi] at hx
          cases hx
    | none =>
      cases hseq : n.intentSeq.filter m.pending.has with
      | some id' =>
        rw [hseq] at h
        obtain ⟨hn, -⟩ := filter_has_some hseq
        exact .inl (.inr ⟨hi, hn.trans h⟩)
      | none =>
        simp only [hseq] at h
        cases hq : n.intentSeq with
        | none => exact .inr (.inl ⟨⟨hi, hq⟩, h⟩)
        | some q =>
          refine .inr (.inr ⟨fun hk => ?_, fun x hx => ?_⟩)
          · exact absurd (hq.symm.trans hk.2) (Option.some_ne_none q)
          · rcases hx with hx | ⟨-, hx⟩
            · rw [hi] at hx
              cases hx
            · exact filter_has_none hseq hx

/-- A NACK that names a pending promise is taken for it. -/
theorem correlate_names {channelId id : Nat} {n : Nack} (hn : n.Names id) (hid : m.pending.has id = true) :
    m.correlate channelId n = some id := by
  unfold correlate
  rcases hn with hn | ⟨hn, hq⟩
  · simp [hn, Option.filter, hid]
  · simp [hn, hq, Option.filter, hid]

end Intents

/-! ## Why a promise is settled -/

open Intents (settlements settlements_settled)

/-- What settled a promise, when an event did. -/
def SettledBy (c : Setup ν) (s : Session) (e : Event ν) (p : Nat) : Settlement → Prop
  | .resolved x => ∃ socket nowMs, e = .frame socket (.echo x) nowMs ∧
      ∃ channel id, .issued p channel id ∈ s.intents.log ∧ x.intentId = some id
  | .rejected .refused => ∃ channel values, e = .sendIntent channel values ∧ p = s.intents.promises ∧
      (s.sendable channel).bind (fun entry => c.encodeValues entry values) = none
  | .rejected .notSent => ∃ channel values, e = .sendIntent channel values ∧ p = s.intents.promises ∧ s.wsOpen = false
  | .rejected .timedOut => e = .timeout p
  | .rejected .socketClosed => ∃ socket, e = .onclose socket
  | .rejected (.nack n) => ∃ socket header nowMs, e = .frame socket (.nack header n) nowMs ∧
      ∃ channel id, .issued p channel id ∈ s.intents.log ∧
        (n.Names id ∨ (n.Keyless ∧ s.intents.oldestOn (n.channelId.getD header) = some id) ∨ n.Stale s.intents)

/-- All that an event adds to the history of the promises. -/
def Explained (c : Setup ν) (s : Session) (e : Event ν) (m : Intents) : Prop :=
  ∃ new, m.log = new ++ s.intents.log ∧ ∀ p how, .settled p how ∈ new → SettledBy c s e p how

/-- An event that leaves the bookkeeping alone has nothing to explain. -/
theorem explained_same {e : Event ν} (h : m = s.intents) : Explained c s e m :=
  ⟨[], by rw [h]; rfl, fun _ _ hmem => absurd hmem List.not_mem_nil⟩

/-- An event that settles one promise for a listed reason is explained. -/
theorem explained_one {e : Event ν} {p : Nat} {how : Settlement} (hlog : m.log = .settled p how :: s.intents.log)
    (h : SettledBy c s e p how) : Explained c s e m := by
  refine ⟨[.settled p how], hlog, fun q x hmem => ?_⟩
  obtain ⟨rfl, rfl⟩ := IntentAct.settled.inj (List.mem_singleton.mp hmem)
  exact h

/-- What an ECHO settles is explained by its intent id. -/
theorem explained_echo (hs : s.intents.Sound) (socket nowMs : Nat) (x : Echo) :
    Explained c s (.frame socket (.echo x) nowMs) (s.intents.echo x) := by
  unfold Intents.echo
  cases hx : x.intentId with
  | none => exact explained_same rfl
  | some id =>
    cases hp : s.intents.pending.get id with
    | none => exact explained_same (by simp [hp])
    | some p =>
      simp only [hp]
      exact explained_one (p := p.promise) rfl ⟨socket, nowMs, rfl, p.channelId, id, hs.known id p hp, hx⟩

/-- What a NACK settles is explained by the intent it names. -/
theorem explained_nack (hs : s.intents.Sound) (socket header nowMs : Nat) (n : Nack) :
    Explained c s (.frame socket (.nack header n) nowMs) (s.intents.nack header n) := by
  unfold Intents.nack
  cases hc : s.intents.correlate (n.channelId.getD header) n with
  | none => exact explained_same rfl
  | some id =>
    cases hp : s.intents.pending.get id with
    | none => exact explained_same (by simp [hp])
    | some p =>
      simp only [hp]
      exact explained_one (p := p.promise) rfl
        ⟨socket, header, nowMs, rfl, p.channelId, id, hs.known id p hp, Intents.correlate_some hc⟩

/-- What a timer settles is explained by its promise. -/
theorem explained_timeout (promise : Nat) : Explained c s (.timeout promise) (s.intents.timeout promise) := by
  unfold Intents.timeout
  cases ha : s.intents.armed.get promise with
  | none => exact explained_same rfl
  | some id => exact explained_one (p := promise) rfl rfl

/-- Settling all pending intents logs one settlement for each. -/
theorem log_settleAll (how : Settlement) : ∀ (l : List (Nat × Pending)) (m : Intents),
    (l.foldl (fun m e => m.settle e.1 e.2 how) m).log =
      (l.map fun e => IntentAct.settled e.2.promise how).reverse ++ m.log
  | [], m => rfl
  | e :: l, m => by
    rw [List.foldl_cons, log_settleAll how l, List.map_cons, List.reverse_cons, List.append_assoc]
    rfl

/-- What closing the socket settles is explained by the close. -/
theorem explained_closeAll (socket : Nat) : Explained c s (.onclose socket) s.intents.closeAll := by
  refine ⟨_, log_settleAll (.rejected .socketClosed) s.intents.pending.entries s.intents, fun p how hmem => ?_⟩
  obtain ⟨e, -, heq⟩ := List.mem_map.mp (List.mem_reverse.mp hmem)
  obtain ⟨-, rfl⟩ := IntentAct.settled.inj heq
  exact ⟨socket, rfl⟩

/-- What `sendIntent` settles at once is explained by its refusal. -/
theorem explained_sendIntent (channel : Nat) (values : ν) :
    Explained c s (.sendIntent channel values) (s.sendIntent c channel values).intents := by
  unfold Session.sendIntent
  cases he : s.sendable channel with
  | none => exact explained_one (p := s.intents.promises) rfl ⟨channel, values, rfl, rfl, by rw [he]; rfl⟩
  | some entry =>
    cases hv : c.encodeValues entry values with
    | none =>
      simp only [hv]
      exact explained_one (p := s.intents.promises) rfl ⟨channel, values, rfl, rfl, by rw [he]; exact hv⟩
    | some encoded =>
      simp only [hv]
      cases hopen : s.wsOpen with
      | true =>
        simp only [if_true]
        refine ⟨[.issued s.intents.promises channel s.intents.nextId], rfl, fun p how hmem => ?_⟩
        exact absurd (List.mem_singleton.mp hmem) (by simp)
      | false =>
        refine ⟨[.settled s.intents.promises (.rejected .notSent), .issued s.intents.promises channel s.intents.nextId],
          rfl, fun p how hmem => ?_⟩
        obtain ⟨rfl, rfl⟩ : p = s.intents.promises ∧ how = .rejected .notSent := by simpa using hmem
        exact ⟨channel, values, rfl, rfl, hopen⟩

/-! ## Runs -/

/-- `sendIntent` keeps the bookkeeping sound. -/
theorem sound_sendIntent (hs : s.intents.Sound) (channel : Nat) (values : ν) :
    (s.sendIntent c channel values).intents.Sound := by
  unfold Session.sendIntent
  cases s.sendable channel with
  | none => exact hs.refuse
  | some entry =>
    cases hv : c.encodeValues entry values with
    | none =>
      simp only [hv]
      exact hs.advance.refuse
    | some encoded =>
      simp only [hv]
      split
      · exact hs.advance.issue channel _
      · exact (hs.advance.issue channel _).settle (OrderedMap.get_set_self _ _ _) _

/-- Every event keeps the bookkeeping sound. -/
theorem sound_step (hs : s.intents.Sound) (e : Event ν) : (step c s e).intents.Sound := by
  cases e with
  | openSocket loaded =>
    rw [step, Session.intents_openSocket]
    exact hs
  | onopen socket =>
    rw [step, Session.onopen, Session.intents_sendFrame]
    exact hs
  | frame socket f nowMs =>
    cases f with
    | welcome w =>
      rw [step, Session.dispatch, Session.intents_handleWelcome]
      exact hs
    | blobChunk payload =>
      rw [step, Session.dispatch, Session.intents_handleBlobChunk]
      exact hs
    | state channel =>
      rw [step, Session.dispatch, Session.intents_handleState]
      exact hs
    | echo x => exact hs.echo x
    | nack header n => exact hs.nack header n
    | other => exact hs
  | closing => exact hs
  | onclose socket => exact hs.closeAll
  | pump nowMs =>
    rw [step, Session.intents_pump]
    exact hs
  | timeout promise => exact hs.timeout promise
  | requestCatalog =>
    rw [step, Session.intents_requestCatalog]
    exact hs
  | close =>
    rw [step, Session.close, Session.intents_sendFrame]
    exact hs
  | sendIntent channel values => exact sound_sendIntent hs channel values

/-- The bookkeeping is sound in every state a session reaches. -/
theorem Reachable.sound (h : Reachable c s) : s.intents.Sound :=
  Reached.invariant c (I := fun s => s.intents.Sound) h Intents.sound_start fun _ e _ hs => sound_step hs e

/-- Whatever an event settles is explained by that event. -/
theorem explained_step (hs : s.intents.Sound) (e : Event ν) : Explained c s e (step c s e).intents := by
  cases e with
  | openSocket loaded => exact explained_same (Session.intents_openSocket c loaded s)
  | onopen socket => exact explained_same (Session.intents_sendFrame _ _)
  | frame socket f nowMs =>
    cases f with
    | welcome w => exact explained_same (Session.intents_handleWelcome c w s)
    | blobChunk payload => exact explained_same (Session.intents_handleBlobChunk c payload nowMs s)
    | state channel => exact explained_same (Session.intents_handleState channel s)
    | echo x => exact explained_echo hs socket nowMs x
    | nack header n => exact explained_nack hs socket header nowMs n
    | other => exact explained_same rfl
  | closing => exact explained_same rfl
  | onclose socket => exact explained_closeAll socket
  | pump nowMs => exact explained_same (Session.intents_pump nowMs s)
  | timeout promise => exact explained_timeout promise
  | requestCatalog => exact explained_same (Session.intents_requestCatalog s)
  | close => exact explained_same (Session.intents_sendFrame _ _)
  | sendIntent channel values => exact explained_sendIntent channel values

/-- A promise that is not settled has its timer armed, and the timer settles it. -/
theorem settled_or_armed (hs : s.intents.Sound) {p : Nat} (hp : p < s.intents.promises) :
    (settlements p s.intents.log).length = 1 ∨
      (settlements p s.intents.log = [] ∧
        settlements p (step c s (.timeout p)).intents.log = [.rejected .timedOut]) := by
  have honce := hs.once p
  rw [if_pos hp] at honce
  cases ha : s.intents.armed.get p with
  | none =>
    rw [OrderedMap.has, ha] at honce
    exact .inl honce
  | some id =>
    rw [Intents.has_of_get ha, if_pos rfl] at honce
    have hnil : settlements p s.intents.log = [] := List.eq_nil_of_length_eq_zero (by omega)
    refine .inr ⟨hnil, ?_⟩
    have hlog : (step c s (.timeout p)).intents.log = .settled p (.rejected .timedOut) :: s.intents.log := by
      simp [step, Intents.timeout, ha]
    rw [hlog, settlements_settled, hnil]
    simp

/-- **Promises are settled once, each by its own answer.** -/
theorem promises_settled (h : Reachable c s) :
    (∀ p < s.intents.promises, (settlements p s.intents.log).length = 1 ∨
      (settlements p s.intents.log = [] ∧
        settlements p (step c s (.timeout p)).intents.log = [.rejected .timedOut])) ∧
    (∀ e, Explained c s e (step c s e).intents) ∧
    (∀ socket header nowMs n id p, Nack.Names n id → s.intents.pending.get id = some p →
      (step c s (.frame socket (.nack header n) nowMs)).intents.log =
        .settled p.promise (.rejected (.nack n)) :: s.intents.log) := by
  refine ⟨fun p hp => settled_or_armed h.sound hp, explained_step h.sound, ?_⟩
  intro socket header nowMs n id p hn hp
  have hc : s.intents.correlate (n.channelId.getD header) n = some id :=
    Intents.correlate_names hn (Intents.has_of_get hp)
  simp [step, Session.dispatch, Intents.nack, hc, hp, Intents.settle]

/-! ## A NACK without a key -/

/-- The LIVE session sends one intent. -/
def demoEvents : List (Event Unit) := liveEvents ++ [.sendIntent 0x0100 ()]

theorem demo_settled : (settlements 0 (demoEvents.foldl (step demo) {}).intents.log).length = 1 ∨
    (settlements 0 (demoEvents.foldl (step demo) {}).intents.log = [] ∧
      settlements 0 (step demo (demoEvents.foldl (step demo) {}) (.timeout 0)).intents.log = [.rejected .timedOut]) :=
  (promises_settled (reachable_foldl demoEvents .start)).1 0 (by decide +kernel)

/-- A NACK that carries the channel and no key, whatever frame it answers, rejects the intent in flight.  The hub of this
repository stamps the sequence number of the frame it refuses; this is for one that does not. -/
theorem foreign_nack_rejects :
    ¬∀ (s : Session) (socket header nowMs : Nat) (n : Nack) (p : Nat), Reachable demo s →
      settlements p s.intents.log = [] →
      .settled p (.rejected (.nack n)) ∈ (step demo s (.frame socket (.nack header n) nowMs)).intents.log →
      ∃ channel id, .issued p channel id ∈ s.intents.log ∧ n.Names id := by
  intro h
  obtain ⟨channel, id, -, hn | ⟨-, hn⟩⟩ := h (demoEvents.foldl (step demo) {}) 1 0 0
    { code := 0x0202, channelId := some 0x0100 } 0 (reachable_foldl demoEvents .start) (by decide +kernel)
    (by decide +kernel)
  · cases hn
  · cases hn

end SlopSync.Js
