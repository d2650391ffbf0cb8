import SlopSync.Refine.Run

/-! # Tallies

What the history says of the lane of a slot: a new session starts a tally anew, and a session that moves to another slot
takes its tally along.  A relation between tally and lane that the five kinds of entries keep holds in every run
(`Tally.holds`). -/

namespace SlopSync

open Labelled

/-- What is noted of the events offered to a session, of those that went out, of the snapshots that its transport accepted
and of those that were published. -/
structure Tally (β : Type) where
  blank : β
  offered : β → UInt16 → Bytes → β
  sent : β → UInt16 → Bytes → Bool → β
  pushed : β → UInt16 → UInt16 → Bytes → β
  published : β → UInt16 → β

namespace Tally

variable {β : Type} (T : Tally β)

def follow (i : SlotIdx) (b : β) : Io → β
  | .offered j ch bytes => if j = i then T.offered b ch bytes else b
  | .write j _ .event ch _ bytes ok => if j = i then T.sent b ch bytes ok else b
  | .write j _ .state ch seq payload true => if j = i then T.pushed b ch seq payload else b
  | .published ch => T.published b ch
  | _ => b

/-- From the newest entry on. -/
def read : List (Hub × Io) → SlotIdx → β
  | [], _ => T.blank
  | (_, .seated j none) :: earlier, i => if i = j then T.blank else read earlier i
  | (_, .seated j (some k)) :: earlier, i =>
    if i = j then read earlier k else if i = k then T.blank else read earlier i
  | (_, io) :: earlier, i => T.follow i (read earlier i) io

end Tally

/-- No tally notes it. -/
def Io.Untold : Io → Prop
  | .offered .. | .published _ | .seated .. | .write _ _ .event .. | .write _ _ .state _ _ _ true => False
  | _ => True

theorem untold_silent {io : Io} (h : io.Silent) : io.Untold := by
  cases io with
  | write | offered | published | seated => exact h.elim
  | _ => trivial

theorem untold_write {i : SlotIdx} {t : TransportId} {type : FrameType} {ch seq : UInt16} {payload : Bytes} {ok : Bool}
    (hevent : type ≠ .event) (hstate : type = .state → ok = false) : (Io.write i t type ch seq payload ok).Untold := by
  cases type with
  | event => exact absurd rfl hevent
  | state =>
    obtain rfl := hstate rfl
    trivial
  | _ => trivial

namespace Tally

variable {β : Type} {T : Tally β} {trace : List (Hub × Io)} {i : SlotIdx} {h : Hub} {io : Io}

theorem read_untold (hio : io.Untold) : T.read ((h, io) :: trace) i = T.read trace i := by
  cases io with
  | offered | published | seated => exact hio.elim
  | write j t type ch seq payload ok =>
    cases type with
    | event => exact hio.elim
    | state =>
      cases ok with
      | true => exact hio.elim
      | false => rfl
    | _ => rfl
  | _ => rfl

/-! ## A relation with the lanes -/

/-- A relation between what was noted and the lane of the slot, which every kind of entry keeps. -/
structure Law (T : Tally β) (R : β → EventQueue → (UInt16 → Option UInt16) → RetainedStore → Prop) : Prop where
  blank : ∀ r, R T.blank {} (fun _ => none) r
  offered : ∀ {b q p r} (ch bytes), R b q p r → R (T.offered b ch bytes) (q.push ch bytes) p r
  sent : ∀ {b q p r ev rest} (ok), R b q p r → q.pop = some (ev, rest) → R (T.sent b ev.channelId ev.bytes ok) rest p r
  discarded : ∀ {b q p r ev rest}, R b q p r → q.pop = some (ev, rest) →
    encodeFrame .event ev.channelId 0 ev.bytes = none → R b rest p r
  pushed : ∀ {b q p p' r ch e}, R b q p r → r.get ch = some e → (p' ch = some e.seq ∨ p' ch = none) →
    (∀ x, x ≠ ch → p' x = p x) → R (T.pushed b ch e.seq e.payload) q p' r
  published : ∀ {b q p r r' ch payload seq}, R b q p r → r.publish ch payload = some (r', seq) →
    R (T.published b ch) q p r'

variable {R : β → EventQueue → (UInt16 → Option UInt16) → RetainedStore → Prop} {x y : Traffic}

def Agrees (T : Tally β) (R : β → EventQueue → (UInt16 → Option UInt16) → RetainedStore → Prop) (x : Traffic) : Prop :=
  ∀ i, R (T.read x.trace i) (x.lanes i).events (x.lanes i).pushed x.retained

/-- Nothing that is noted, and no event or push record changes. -/
theorem Agrees.quiet (hx : T.Agrees R x) (hio : io.Untold)
    (hlanes : ∀ i, (y.lanes i).events = (x.lanes i).events ∧ (y.lanes i).pushed = (x.lanes i).pushed)
    (hretained : y.retained = x.retained) : T.Agrees R { y with trace := (h, io) :: x.trace } := by
  intro i
  rw [read_untold hio]
  dsimp only
  rw [(hlanes i).1, (hlanes i).2, hretained]
  exact hx i

theorem Agrees.same (hx : T.Agrees R x)
    (hlanes : ∀ i, (y.lanes i).events = (x.lanes i).events ∧ (y.lanes i).pushed = (x.lanes i).pushed)
    (hretained : y.retained = x.retained) (htrace : y.trace = x.trace) : T.Agrees R y := by
  intro i
  rw [htrace, (hlanes i).1, (hlanes i).2, hretained]
  exact hx i

/-- The entry and the change are those of one slot. -/
theorem Agrees.at (hx : T.Agrees R x) {j : SlotIdx} {l : Lane}
    (hself : R (T.read ((h, io) :: x.trace) j) l.events l.pushed x.retained)
    (hother : ∀ i, i ≠ j → T.read ((h, io) :: x.trace) i = T.read x.trace i) :
    T.Agrees R ((x.setLane j l).log h io) := by
  intro i
  by_cases hij : i = j
  · subst hij
    rw [show ((x.setLane i l).log h io).lanes i = l from x.setLane_self i l]
    exact hself
  · rw [show ((x.setLane j l).log h io).lanes i = x.lanes i from x.setLane_ne hij l]
    show R (T.read ((h, io) :: x.trace) i) _ _ _
    rw [hother i hij]
    exact hx i

theorem load_keeps (x : Traffic) (j : SlotIdx) (blob : Option PendingBlob) (i : SlotIdx) :
    ((x.load j blob).lanes i).events = (x.lanes i).events ∧ ((x.load j blob).lanes i).pushed = (x.lanes i).pushed := by
  by_cases hij : i = j
  · subst hij
    rw [Traffic.load, Traffic.setLane_self]
    exact ⟨rfl, rfl⟩
  · rw [Traffic.load_ne x hij]
    exact ⟨rfl, rfl⟩

theorem Agrees.load (hx : T.Agrees R x) (j : SlotIdx) (blob : Option PendingBlob) (hio : io.Untold) :
    T.Agrees R ((x.load j blob).log h io) :=
  hx.quiet (y := x.load j blob) hio (load_keeps x j blob) rfl

/-- **Every act keeps a law.** -/
theorem Law.act (law : T.Law R) {d : Deed} (ha : TrafficAct d x y) (hx : T.Agrees R x) : T.Agrees R y := by
  cases ha with
  | note g hio => exact hx.quiet (y := x) (untold_silent hio) (fun _ => ⟨rfl, rfl⟩) rfl
  | frame g j t ch seq payload hevent hstate hchunk =>
    exact hx.quiet (y := x) (untold_write hevent hstate) (fun _ => ⟨rfl, rfl⟩) rfl
  | draw j nonce =>
    refine hx.same (fun i => ?_) rfl rfl
    by_cases hij : i = j
    · subst hij
      rw [Traffic.setLane_self]
      exact ⟨rfl, rfl⟩
    · rw [Traffic.setLane_ne x hij]
      exact ⟨rfl, rfl⟩
  | offer g j ch bytes =>
    refine hx.at ?_ fun i hij => if_neg (Ne.symm hij)
    rw [show T.read ((g, .offered j ch bytes) :: x.trace) j = T.offered (T.read x.trace j) ch bytes from if_pos rfl]
    exact law.offered ch bytes (hx j)
  | @drain _ g j t ev rest ok hpop =>
    refine hx.at ?_ fun i hij => if_neg (Ne.symm hij)
    rw [show T.read ((g, .write j t .event ev.channelId 0 ev.bytes ok) :: x.trace) j =
      T.sent (T.read x.trace j) ev.channelId ev.bytes ok from if_pos rfl]
    exact law.sent ok (hx j) hpop
  | @discard _ j ev rest hpop hno =>
    intro i
    by_cases hij : i = j
    · subst hij
      rw [Traffic.setLane_self]
      exact law.discarded (hx i) hpop hno
    · rw [Traffic.setLane_ne x hij]
      exact hx i
  | @push _ g j t ch e pushed hret hch hoth =>
    refine hx.at ?_ fun i hij => if_neg (Ne.symm hij)
    rw [show T.read ((g, .write j t .state ch e.seq e.payload true) :: x.trace) j =
      T.pushed (T.read x.trace j) ch e.seq e.payload from if_pos rfl]
    exact law.pushed (hx j) hret hch hoth
  | publish g hpub => exact fun i => law.published (hx i) hpub
  | seat g j =>
    refine hx.at ?_ fun i hij => if_neg hij
    rw [show T.read ((g, .seated j none) :: x.trace) j = T.blank from if_pos rfl]
    exact law.blank _
  | move g j k =>
    intro i
    by_cases hij : i = j
    · subst hij
      have hread : T.read ((g, .seated i (some k)) :: x.trace) i = T.read x.trace k := if_pos rfl
      show R (T.read ((g, .seated i (some k)) :: x.trace) i) (((x.setLane k _).setLane i _).lanes i).events
        (((x.setLane k _).setLane i _).lanes i).pushed x.retained
      rw [hread, Traffic.setLane_self]
      exact hx k
    · have hread : T.read ((g, .seated j (some k)) :: x.trace) i = if i = k then T.blank else T.read x.trace i :=
        if_neg hij
      show R (T.read ((g, .seated j (some k)) :: x.trace) i) (((x.setLane k _).setLane j _).lanes i).events
        (((x.setLane k _).setLane j _).lanes i).pushed x.retained
      rw [hread, Traffic.setLane_ne _ hij]
      by_cases hik : i = k
      · subst hik
        rw [if_pos rfl, Traffic.setLane_self]
        exact law.blank _
      · rw [if_neg hik, Traffic.setLane_ne _ hik]
        exact hx i
  | request g j hfresh hseq hsome => exact hx.load j _ trivial
  | resume g j hblob hlen => exact hx.quiet (y := x) trivial (fun _ => ⟨rfl, rfl⟩) rfl
  | chunk g j t ok hblob hview hlen hnext hfill => exact hx.load j _ trivial
  | deliver g j hblob hview hlen hnext => exact hx.load j _ trivial
  | giveUp g j hblob hlen hnext hfill => exact hx.load j _ trivial
  | @turnAway _ g g' g'' j t pb view n payload ok hblob hmoved hnack =>
    have hresumed : T.Agrees R ((x.load j none).log g (.blob j (.resumed view))) := hx.load j none trivial
    have hnacked : T.Agrees R (((x.load j none).log g (.blob j (.resumed view))).log g' (.write j t .nack 0 0 payload ok)) :=
      hresumed.quiet trivial (fun _ => ⟨rfl, rfl⟩) rfl
    exact hnacked.quiet trivial (fun _ => ⟨rfl, rfl⟩) rfl
  | drop g j hblob => exact hx.load j _ trivial

theorem Law.writes {ε : Type} {s t : Sys ε} {N : SlotIdx → Prop} {F : FrameType → Prop} (law : T.Law R)
    (h : Writes F N s t) (hs : T.Agrees R s.traffic) : T.Agrees R t.traffic :=
  Path.invariant h (fun _ _ _ _ ha hx => law.act ha hx) hs

theorem Law.fresh {ε : Type} (law : T.Law R) (bootId : UInt32) (e : ε) :
    T.Agrees R ({ hub := { bootId }, env := e } : Sys ε).traffic :=
  fun _ => law.blank _

/-- **A law holds in every run.** -/
theorem Law.holds {ε : Type} {w : World ε} {c : Config} {G : Sys ε → Move ε → Prop} {s : Sys ε} (law : T.Law R)
    (h : ReachBy w c G s) : T.Agrees R s.traffic := by
  obtain ⟨e, hrun⟩ := h
  induction hrun with
  | refl =>
    have hsafety : ∀ t : Sys ε, Writes (fun _ => True) (fun _ => False) t
        (if (c.catalog.find Channels.safety).isSome then publishSafetySnapshot t else t) := by
      intro t
      split
      · exact writes_retain _ _ t
      · exact .refl t
    refine law.writes (F := fun _ => True) (N := fun _ => False) ?_ (law.fresh (drawNonZero w.nextU32 w.drawFuel e).1 (drawNonZero w.nextU32 w.drawFuel e).2)
    exact ((hsafety _).trans (writes_publishPending 0 _)).trans (writes_publishRoster _)
  | tail _ hstep ih =>
    obtain ⟨m, hok, -, rfl⟩ := hstep
    exact law.writes (writes_move (fun _ _ => trivial) trivial (fun _ => trivial) (fun _ _ => id) hok) ih

end Tally

end SlopSync
