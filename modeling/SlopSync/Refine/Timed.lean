import SlopSync.Refine.Run

/-! # Runs in true time

A run together with the true time, in microseconds.  The clock of the environment wraps after `2 ^ 32` of them; `b` is
the number of wraps before the first update.  What the millisecond counter of the hub reads follows from the true time
alone, as long as the updates are less than half a wrap apart (`Timed.tracks`).  Calls of the host at true times are such
a run (`elapses_calls`). -/

namespace SlopSync

open Labelled

/-- The hub, the true time of its last update and the true time now. -/
structure Instant (ε : Type) where
  sys : Sys ε
  last : Option Nat := none
  now : Nat

section

variable {ε : Type} {w : World ε} {c : Config} {b : Nat} {G G' : Sys ε → Move ε → Prop} {x y : Instant ε}

/-- Time passes, or a move is made now.  The host's calls and the updates find the clock on true time. -/
inductive Elapse (w : World ε) (c : Config) (b : Nat) (G : Sys ε → Move ε → Prop) : Instant ε → Instant ε → Prop
  | wait {x : Instant ε} {t : Nat} (h : x.now ≤ t) : Elapse w c b G x { x with now := t }
  | tick {x : Instant ε} (hfirst : x.last = none → x.now / 2 ^ 32 = b) (hgap : ∀ t, x.last = some t → x.now - t < 2 ^ 31)
      (hG : G x.sys (.tick (UInt32.ofNat x.now))) :
      Elapse w c b G x ⟨move w c x.sys (.tick (UInt32.ofNat x.now)), some x.now, x.now⟩
  | inner {x : Instant ε} {m : Move ε} (hm : m.Inner x.sys) (hok : m.Enabled x.sys) (hG : G x.sys m) :
      Elapse w c b G x { x with sys := move w c x.sys m }
  | host {x : Instant ε} {k : Call ε} (hk : ∀ nowUs inbox, k ≠ .update nowUs inbox)
      (hclock : (∀ e, k ≠ .world e) → w.nowUs x.sys.env = UInt32.ofNat x.now) (hG : G x.sys (.host k)) :
      Elapse w c b G x { x with sys := call w c x.sys k }

def Elapses (w : World ε) (c : Config) (b : Nat) (G : Sys ε → Move ε → Prop) : Instant ε → Instant ε → Prop :=
  Relation.ReflTransGen (Elapse w c b G)

/-- What a run from a fresh hub reaches. -/
def Timed (w : World ε) (c : Config) (b : Nat) (G : Sys ε → Move ε → Prop) (x : Instant ε) : Prop :=
  ∃ e t, Elapses w c b G ⟨boot w c e, none, t⟩ x

/-- Without the times it is a run of moves. -/
theorem Elapses.steps (h : Elapses w c b G x y) : Steps w c G x.sys y.sys := by
  induction h with
  | refl => exact Relation.ReflTransGen.refl
  | tail _ hstep ih =>
    cases hstep with
    | wait => exact ih
    | tick _ _ hG => exact ih.trans (Steps.one (m := .tick _) trivial hG)
    | inner _ hok hG => exact ih.trans (Steps.one hok hG)
    | host hk _ hG => exact ih.trans (Steps.one (m := .host _) hk hG)

theorem Elapses.mono (h : Elapses w c b G x y) (hG : ∀ s m, G s m → G' s m) : Elapses w c b G' x y := by
  refine Relation.ReflTransGen.mono (fun _ _ hstep => ?_) _ _ h
  cases hstep with
  | wait h => exact .wait h
  | tick hfirst hgap h => exact .tick hfirst hgap (hG _ _ h)
  | inner hm hok h => exact .inner hm hok (hG _ _ h)
  | host hk hclock h => exact .host hk hclock (hG _ _ h)

/-- An update later on. -/
theorem elapses_tick {u : Nat} (hle : x.now ≤ u) (hfirst : x.last = none → u / 2 ^ 32 = b)
    (hgap : ∀ t, x.last = some t → u - t < 2 ^ 31) (hG : G x.sys (.tick (UInt32.ofNat u))) :
    Elapses w c b G x ⟨move w c x.sys (.tick (UInt32.ofNat u)), some u, u⟩ := by
  have hwait : Elapse w c b G x { x with now := u } := .wait hle
  have htick : Elapse w c b G { x with now := u } ⟨move w c x.sys (.tick (UInt32.ofNat u)), some u, u⟩ :=
    Elapse.tick (x := { x with now := u }) hfirst hgap hG
  exact (Relation.ReflTransGen.single hwait).tail htick

theorem Timed.distinct (h : Timed w c b G x) : x.sys.view.Distinct := by
  obtain ⟨e, t, h⟩ := h
  exact h.steps.distinct (distinct_boot e)

theorem Timed.trans (h : Timed w c b G x) (h' : Elapses w c b G x y) : Timed w c b G y := by
  obtain ⟨e, t, h⟩ := h
  exact ⟨e, t, Relation.ReflTransGen.trans h h'⟩

/-! ## The millisecond counter -/

/-- The counter before the first update, and after the one at the true time `t`. -/
structure Instant.OnTime (b : Nat) (x : Instant ε) : Prop where
  fresh : x.last = none → x.sys.hub.monoMs.init = false
  past : ∀ t, x.last = some t → 2 ^ 32 * b ≤ t ∧ t ≤ x.now
  tracks : ∀ t, x.last = some t → x.sys.hub.monoMs.Tracks (t - 2 ^ 32 * b)

theorem clock_inner {m : Move ε} {s : Sys ε} (hd : s.view.Distinct) (hm : m.Inner s) (hok : m.Enabled s) :
    (move w c s m).hub.monoMs = s.hub.monoMs :=
  Steps.clock (Steps.one hok hm) hd

/-- No call but an update moves the clock. -/
theorem Call.untimed {k : Call ε} {s : Sys ε} {l : Label} (hl : HostLabel w s k l) : l ≠ .tick := by
  rintro rfl
  cases k with
  | attachTransport | detachTransport =>
    obtain ⟨i, -, hl⟩ := hl
    exact hl.elim
  | latchEstop | setSafetyModes | clearEstop => exact hl.elim fun _ h => h.elim
  | publishState | bumpConfigGeneration | pairing => cases hl
  | regrantForTest => exact (hl.elim id fun h => nomatch h).elim
  | _ => exact hl.elim

theorem clock_host {k : Call ε} {s : Sys ε} (hd : s.view.Distinct) (hk : ∀ nowUs inbox, k ≠ .update nowUs inbox) :
    (call w c s k).hub.monoMs = s.hub.monoMs :=
  Path.frame (f := View.clock) (move_does (w := w) (c := c) (m := .host k) hd hk) fun _ _ _ hl ha =>
    Act.clock_eq (Call.untimed hl) ha

theorem onTime_elapse (hd : x.sys.view.Distinct) (h : Elapse w c b G x y) (hx : x.OnTime b) : y.OnTime b := by
  cases h with
  | wait h => exact ⟨hx.fresh, fun t ht => ⟨(hx.past t ht).1, (hx.past t ht).2.trans h⟩, hx.tracks⟩
  | inner hm hok =>
    have hclock := clock_inner (w := w) (c := c) hd hm hok
    refine ⟨fun h => ?_, hx.past, fun t ht => ?_⟩
    · rw [hclock]
      exact hx.fresh h
    · rw [hclock]
      exact hx.tracks t ht
  | host hk =>
    have hclock := clock_host (w := w) (c := c) hd hk
    refine ⟨fun h => ?_, hx.past, fun t ht => ?_⟩
    · rw [hclock]
      exact hx.fresh h
    · rw [hclock]
      exact hx.tracks t ht
  | tick hfirst hgap =>
    have hbase : 2 ^ 32 * b ≤ x.now := by
      cases hlast : x.last with
      | none =>
        have := hfirst hlast
        omega
      | some t => exact (hx.past t hlast).1.trans (hx.past t hlast).2
    have hread : UInt32.ofNat x.now = UInt32.ofNat (x.now - 2 ^ 32 * b) := by
      apply UInt32.toNat_inj.mp
      rw [UInt32.toNat_ofNat', UInt32.toNat_ofNat']
      omega
    refine ⟨(fun h => nomatch h), ?_, ?_⟩
    · rintro t ⟨⟩
      exact ⟨hbase, Nat.le_refl _⟩
    · rintro t ⟨⟩
      rw [clock_tick, hread]
      cases hlast : x.last with
      | none =>
        have hw := hfirst hlast
        have hsmall : (UInt32.ofNat (x.now - 2 ^ 32 * b)).toNat = x.now - 2 ^ 32 * b := by
          rw [UInt32.toNat_ofNat']
          omega
        have htracks := advance_first (hx.fresh hlast) (UInt32.ofNat (x.now - 2 ^ 32 * b))
        rw [hsmall] at htracks
        exact htracks
      | some t =>
        have hpast := hx.past t hlast
        exact advance_tracks (hx.tracks t hlast) (by omega) (by have := hgap t hlast; omega)

theorem Elapses.onTime (h : Elapses w c b G x y) (hd : x.sys.view.Distinct) (hx : x.OnTime b) : y.OnTime b := by
  induction h with
  | refl => exact hx
  | tail hrun hstep ih => exact onTime_elapse ((Elapses.steps hrun).distinct hd) hstep ih

/-- **The counter of a hub that runs never drifts from true time.** -/
theorem Timed.onTime (h : Timed w c b G x) : x.OnTime b := by
  obtain ⟨e, t, h⟩ := h
  refine h.onTime (distinct_boot e) ⟨fun _ => ?_, (fun _ h => nomatch h), (fun _ h => nomatch h)⟩
  obtain ⟨r, hr⟩ := view_boot (w := w) (c := c) e
  have hclock : (boot w c e).view.clock = ({ View.fresh with retained := r } : View).clock := by rw [hr]
  exact congrArg MonotonicMs.init hclock

/-! ## Calls on time -/

/-- The calls are made at these times, none before `now`, and find the clock on time. -/
def Punctual (w : World ε) (c : Config) (b : Nat) : List (Nat × Call ε) → Sys ε → Option Nat → Nat → Prop
  | [], _, _, _ => True
  | (t, .update nowUs inbox) :: rest, s, last, now => now ≤ t ∧ nowUs = UInt32.ofNat t ∧ (last = none → t / 2 ^ 32 = b) ∧
      (∀ t₀, last = some t₀ → t - t₀ < 2 ^ 31) ∧ Punctual w c b rest (update w c nowUs inbox s) (some t) t
  | (t, k) :: rest, s, last, now => now ≤ t ∧ ((∀ e, k ≠ .world e) → w.nowUs s.env = UInt32.ofNat t) ∧
      Punctual w c b rest (call w c s k) last t

theorem elapses_inner (last : Option Nat) (now : Nat) {s t : Sys ε}
    (h : Steps w c (fun u m => m.Inner u ∧ G u m) s t) : Elapses w c b G ⟨s, last, now⟩ ⟨t, last, now⟩ := by
  induction h with
  | refl => exact Relation.ReflTransGen.refl
  | tail _ hstep ih =>
    obtain ⟨m, hok, hm, rfl⟩ := hstep
    exact ih.tail (.inner hm.1 hok hm.2)

/-- **A run of calls made on time is a timed run.** -/
theorem elapses_calls : ∀ {calls : List (Nat × Call ε)} {s : Sys ε} {last : Option Nat} {now : Nat}, s.view.Distinct →
    Punctual w c b calls s last now → ∃ last' now', Elapses w c b (fun _ _ => True) ⟨s, last, now⟩
      ⟨(calls.map Prod.snd).foldl (call w c) s, last', now'⟩
  | [], _, last, now, _, _ => ⟨last, now, Relation.ReflTransGen.refl⟩
  | (t, k) :: rest, s, last, now, hd, h => by
    by_cases hu : ∃ nowUs inbox, k = .update nowUs inbox
    · obtain ⟨nowUs, inbox, rfl⟩ := hu
      obtain ⟨hle, rfl, hfirst, hgap, hrest⟩ := h
      have hwait : Elapse w c b (fun _ _ => True) ⟨s, last, now⟩ ⟨s, last, t⟩ := .wait hle
      have hstep : Elapse w c b (fun _ _ => True) ⟨s, last, t⟩ ⟨move w c s (.tick (UInt32.ofNat t)), some t, t⟩ :=
        Elapse.tick (x := ⟨s, last, t⟩) hfirst hgap trivial
      have htick := (Relation.ReflTransGen.single hwait).tail hstep
      have hinner := update_inner (w := w) (c := c) (UInt32.ofNat t) inbox s hd
      obtain ⟨last', now', hrun⟩ := elapses_calls (hinner.distinct (distinct_move trivial hd)) hrest
      have hcall : call w c s (.update (UInt32.ofNat t) inbox) = update w c (UInt32.ofNat t) inbox s := rfl
      rw [List.map_cons, List.foldl_cons, hcall]
      have hpumps := elapses_inner (b := b) (G := fun _ _ => True) (some t) t
        (hinner.mono fun _ _ h => ⟨h, trivial⟩)
      exact ⟨last', now', (Relation.ReflTransGen.trans htick hpumps).trans hrun⟩
    · have hk : ∀ nowUs inbox, k ≠ .update nowUs inbox := fun nowUs inbox h => hu ⟨nowUs, inbox, h⟩
      have h' : now ≤ t ∧ ((∀ e, k ≠ .world e) → w.nowUs s.env = UInt32.ofNat t) ∧
          Punctual w c b rest (call w c s k) last t := by
        cases k <;> first | exact h | exact absurd rfl (hk _ _)
      obtain ⟨hle, hclock, hrest⟩ := h'
      have hwait : Elapse w c b (fun _ _ => True) ⟨s, last, now⟩ ⟨s, last, t⟩ := .wait hle
      have hstep : Elapse w c b (fun _ _ => True) ⟨s, last, t⟩ ⟨call w c s k, last, t⟩ :=
        Elapse.host (x := ⟨s, last, t⟩) hk hclock trivial
      have hone := (Relation.ReflTransGen.single hwait).tail hstep
      obtain ⟨last', now', hrun⟩ := elapses_calls (distinct_move (m := .host k) hk hd) hrest
      rw [List.map_cons, List.foldl_cons]
      exact ⟨last', now', hone.trans hrun⟩

end

end SlopSync
