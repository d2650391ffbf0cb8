import Mathlib.Data.List.Basic
import SlopSync.Js.OrderedMap

/-! # Promises of the JavaScript session

`sendIntent` hands out promises: each has an intent id of its own and a timer, and is kept under its id until an ECHO, a
NACK, the timer or the closing of the socket settles it.  Ids go around after 65535, so a new promise may take the place
of an old one, whose timer still runs.

* `Intents.Sound.once` — a promise is settled once, or its timer is armed.
* `Intents.Sound.timer` — a pending promise has its timer armed, under its own id. -/

namespace SlopSync.Js

structure Pending where
  promise : Nat
  channelId : Nat
  deriving DecidableEq, Repr

structure Echo where
  intentId : Option Nat
  deriving DecidableEq, Repr

structure Nack where
  code : Nat
  channelId : Option Nat := none
  intentId : Option Nat := none
  intentSeq : Option Nat := none
  deriving DecidableEq, Repr

/-- Why a promise was rejected. -/
inductive Cause
  | refused            -- nothing was sent: not LIVE, no such INTENT channel, or values it does not declare
  | notSent            -- the socket was not open
  | timedOut
  | socketClosed
  | nack (n : Nack)
  deriving DecidableEq, Repr

inductive Settlement
  | resolved (e : Echo)
  | rejected (cause : Cause)
  deriving DecidableEq, Repr

inductive IntentAct
  | issued (promise channelId intentId : Nat)
  | settled (promise : Nat) (how : Settlement)
  deriving DecidableEq, Repr

/-- `armed` has the timers by promise, each with the id its callback deletes; `log` has the last act first. -/
structure Intents where
  intentSeq : Nat := 0
  pending : OrderedMap Nat Pending := .empty
  armed : OrderedMap Nat Nat := .empty
  promises : Nat := 0
  log : List IntentAct := []

namespace Intents

/-! ## The handlers -/

/-- A promise that is rejected as it is made. -/
def refuse (m : Intents) : Intents :=
  { m with promises := m.promises + 1, log := .settled m.promises (.rejected .refused) :: m.log }

/-- 1 to 65535. -/
def nextId (m : Intents) : Nat := m.intentSeq % 0xffff + 1

def advance (m : Intents) : Intents := { m with intentSeq := m.nextId }

def issue (m : Intents) (channelId intentId : Nat) : Intents :=
  { m with
    pending := m.pending.set intentId ⟨m.promises, channelId⟩
    armed := m.armed.set m.promises intentId
    promises := m.promises + 1
    log := .issued m.promises channelId intentId :: m.log }

/-- Stop the timer, forget the entry, settle the promise. -/
def settle (m : Intents) (intentId : Nat) (p : Pending) (how : Settlement) : Intents :=
  { m with
    armed := m.armed.delete p.promise
    pending := m.pending.delete intentId
    log := .settled p.promise how :: m.log }

/-- The timer of a promise fires; whatever is under its id by now is forgotten. -/
def timeout (m : Intents) (promise : Nat) : Intents :=
  match m.armed.get promise with
  | none => m
  | some intentId =>
    { m with
      armed := m.armed.delete promise
      pending := m.pending.delete intentId
      log := .settled promise (.rejected .timedOut) :: m.log }

/-- `handleEcho`. -/
def echo (m : Intents) (e : Echo) : Intents :=
  match e.intentId with
  | none => m
  | some id =>
    match m.pending.get id with
    | none => m
    | some p => m.settle id p (.resolved e)

/-- The first entry on a channel. -/
def oldestOn (m : Intents) (channelId : Nat) : Option Nat :=
  (m.pending.entries.find? (fun e => e.2.channelId == channelId)).map Prod.fst

/-- The correlation of `handleNack`, best evidence first. -/
def correlate (m : Intents) (channelId : Nat) (n : Nack) : Option Nat :=
  match n.intentId.filter m.pending.has with
  | some id => some id
  | none =>
    match n.intentSeq.filter m.pending.has with
    | some id => some id
    | none => m.oldestOn channelId

/-- `handleNack`. -/
def nack (m : Intents) (headerChannel : Nat) (n : Nack) : Intents :=
  match m.correlate (n.channelId.getD headerChannel) n with
  | none => m
  | some id =>
    match m.pending.get id with
    | none => m
    | some p => m.settle id p (.rejected (.nack n))

/-- What `onclose` does to the promises in flight. -/
def closeAll (m : Intents) : Intents :=
  m.pending.entries.foldl (fun m e => m.settle e.1 e.2 (.rejected .socketClosed)) m

/-! ## The invariant -/

/-- How a promise was settled, each time. -/
def settlements (promise : Nat) (log : List IntentAct) : List Settlement :=
  log.filterMap fun
    | .settled p how => if p = promise then some how else none
    | .issued .. => none

@[simp] theorem settlements_issued (p q c id : Nat) (log : List IntentAct) :
    settlements q (.issued p c id :: log) = settlements q log := by
  simp [settlements]

/-- A settlement is added to its own promise's and to no other's. -/
@[simp] theorem settlements_settled (p q : Nat) (how : Settlement) (log : List IntentAct) :
    settlements q (.settled p how :: log) = (if p = q then [how] else []) ++ settlements q log := by
  by_cases h : p = q <;> simp [settlements, h]

structure Sound (m : Intents) : Prop where
  timer : ∀ id p, m.pending.get id = some p → m.armed.get p.promise = some id
  known : ∀ id p, m.pending.get id = some p → .issued p.promise p.channelId id ∈ m.log
  below : ∀ p c id, IntentAct.issued p c id ∈ m.log → p < m.promises
  unique : ∀ p c c' id id', IntentAct.issued p c id ∈ m.log → .issued p c' id' ∈ m.log → c = c' ∧ id = id'
  named : ∀ p id, m.armed.get p = some id → ∃ c, .issued p c id ∈ m.log
  once : ∀ p, (settlements p m.log).length + (if m.armed.has p then 1 else 0) = if p < m.promises then 1 else 0

theorem sound_start : Sound {} where
  timer id p h := by cases h
  known id p h := by cases h
  below p c id h := by cases h
  unique p c c' id id' h := by cases h
  named p id h := by cases h
  once p := by simp [settlements, OrderedMap.has]

/-- A key that gives a value is there. -/
theorem has_of_get {κ α : Type} [DecidableEq κ] {m : OrderedMap κ α} {k : κ} {a : α} (h : m.get k = some a) :
    m.has k = true := by
  rw [OrderedMap.has, h]
  rfl

variable {m : Intents}

/-- Taking the next intent id keeps the bookkeeping sound. -/
theorem Sound.advance (h : Sound m) : Sound m.advance := ⟨h.timer, h.known, h.below, h.unique, h.named, h.once⟩

/-- A timer runs only for a promise that was made. -/
theorem Sound.armed_lt (h : Sound m) {p id : Nat} (ha : m.armed.get p = some id) : p < m.promises := by
  obtain ⟨c, hc⟩ := h.named p id ha
  exact h.below p c id hc

/-- A promise whose timer is stopped, with its own id, and which is settled by that. -/
theorem Sound.stop (h : Sound m) {p id : Nat} (ha : m.armed.get p = some id) (how : Settlement) :
    Sound { m with
      armed := m.armed.delete p, pending := m.pending.delete id, log := .settled p how :: m.log } where
  timer id' q hq := by
    obtain ⟨hne, hq⟩ := OrderedMap.get_delete_some hq
    have hq' := h.timer id' q hq
    have hp : q.promise ≠ p := by
      intro heq
      rw [heq, ha] at hq'
      exact hne (Option.some.inj hq').symm
    exact (OrderedMap.get_delete_ne m.armed hp).trans hq'
  known id' q hq := List.mem_cons_of_mem _ (h.known id' q (OrderedMap.get_delete_some hq).2)
  below q c id' hq := h.below q c id' (by simpa using hq)
  unique q c c' i i' hq hq' := h.unique q c c' i i' (by simpa using hq) (by simpa using hq')
  named q id' hq := by
    obtain ⟨c, hc⟩ := h.named q id' (OrderedMap.get_delete_some hq).2
    exact ⟨c, List.mem_cons_of_mem _ hc⟩
  once q := by
    have honce := h.once q
    dsimp only
    rw [settlements_settled, List.length_append]
    by_cases hpq : p = q
    · subst hpq
      have hnone : (m.armed.delete p).has p = false := by simp [OrderedMap.has]
      rw [has_of_get ha, if_pos rfl, if_pos (h.armed_lt ha)] at honce
      rw [hnone, if_pos rfl, if_pos (h.armed_lt ha), List.length_singleton, if_neg Bool.false_ne_true]
      omega
    · have hkeep : (m.armed.delete p).has q = m.armed.has q := by
        rw [OrderedMap.has, OrderedMap.get_delete_ne m.armed (Ne.symm hpq), OrderedMap.has]
      rw [if_neg hpq, hkeep, List.length_nil, Nat.zero_add]
      exact honce

/-- Settling a pending promise keeps the bookkeeping sound. -/
theorem Sound.settle (h : Sound m) {id : Nat} {p : Pending} (hp : m.pending.get id = some p) (how : Settlement) :
    Sound (m.settle id p how) := h.stop (h.timer id p hp) how

/-- A timer that fires keeps the bookkeeping sound. -/
theorem Sound.timeout (h : Sound m) (promise : Nat) : Sound (m.timeout promise) := by
  unfold Intents.timeout
  cases ha : m.armed.get promise with
  | none => exact h
  | some id => exact h.stop ha _

/-- An ECHO keeps the bookkeeping sound. -/
theorem Sound.echo (h : Sound m) (e : Echo) : Sound (m.echo e) := by
  unfold Intents.echo
  cases e.intentId with
  | none => exact h
  | some id =>
    cases hp : m.pending.get id with
    | none => simpa [hp] using h
    | some p => simpa [hp] using h.settle hp _

/-- A NACK keeps the bookkeeping sound. -/
theorem Sound.nack (h : Sound m) (headerChannel : Nat) (n : Nack) : Sound (m.nack headerChannel n) := by
  unfold Intents.nack
  cases m.correlate (n.channelId.getD headerChannel) n with
  | none => exact h
  | some id =>
    cases hp : m.pending.get id with
    | none => simpa [hp] using h
    | some p => simpa [hp] using h.settle hp _

/-- A refused `sendIntent` keeps the bookkeeping sound. -/
theorem Sound.refuse (h : Sound m) : Sound m.refuse where
  timer := h.timer
  known id p hp := List.mem_cons_of_mem _ (h.known id p hp)
  below p c id hp := Nat.lt_succ_of_lt (h.below p c id (by simpa [Intents.refuse] using hp))
  unique p c c' i i' hp hp' := h.unique p c c' i i' (by simpa [Intents.refuse] using hp) (by simpa [Intents.refuse] using hp')
  named p id hp := by
    obtain ⟨c, hc⟩ := h.named p id hp
    exact ⟨c, List.mem_cons_of_mem _ hc⟩
  once p := by
    have honce := h.once p
    unfold Intents.refuse
    dsimp only
    rw [settlements_settled, List.length_append]
    by_cases hp : m.promises = p
    · subst hp
      rw [if_neg (Nat.lt_irrefl _)] at honce
      rw [if_pos rfl, if_pos (Nat.lt_succ_self _), List.length_singleton]
      omega
    · have hiff : (p < m.promises + 1) ↔ p < m.promises := by omega
      rw [if_neg hp, List.length_nil, Nat.zero_add]
      simp only [hiff]
      exact honce

/-- An issued intent keeps the bookkeeping sound. -/
theorem Sound.issue (h : Sound m) (channelId intentId : Nat) : Sound (m.issue channelId intentId) where
  timer id p hp := by
    rcases OrderedMap.get_set_some hp with ⟨rfl, rfl⟩ | ⟨-, hp⟩
    · exact OrderedMap.get_set_self _ _ _
    · have ha := h.timer id p hp
      exact (OrderedMap.get_set_ne _ _ (Nat.ne_of_lt (h.armed_lt ha))).trans ha
  known id p hp := by
    rcases OrderedMap.get_set_some hp with ⟨rfl, rfl⟩ | ⟨-, hp⟩
    · exact List.mem_cons_self
    · exact List.mem_cons_of_mem _ (h.known id p hp)
  below p c id hp := by
    rcases List.mem_cons.mp hp with heq | hp
    · cases heq
      exact Nat.lt_succ_self _
    · exact Nat.lt_succ_of_lt (h.below p c id hp)
  unique p c c' i i' hp hp' := by
    rcases List.mem_cons.mp hp with heq | hp <;> rcases List.mem_cons.mp hp' with heq' | hp'
    · cases heq
      cases heq'
      exact ⟨rfl, rfl⟩
    · cases heq
      exact absurd (h.below _ c' i' hp') (Nat.lt_irrefl _)
    · cases heq'
      exact absurd (h.below _ c i hp) (Nat.lt_irrefl _)
    · exact h.unique p c c' i i' hp hp'
  named p id hp := by
    rcases OrderedMap.get_set_some hp with ⟨rfl, rfl⟩ | ⟨-, hp⟩
    · exact ⟨channelId, List.mem_cons_self⟩
    · obtain ⟨c, hc⟩ := h.named p id hp
      exact ⟨c, List.mem_cons_of_mem _ hc⟩
  once p := by
    have honce := h.once p
    unfold Intents.issue
    dsimp only
    rw [settlements_issued]
    by_cases hp : p = m.promises
    · subst hp
      rw [if_neg (Nat.lt_irrefl _)] at honce
      rw [has_of_get (OrderedMap.get_set_self _ _ _), if_pos rfl, if_pos (Nat.lt_succ_self _)]
      omega
    · have hkeep : (m.armed.set m.promises intentId).has p = m.armed.has p := by
        rw [OrderedMap.has, OrderedMap.get_set_ne _ _ hp, OrderedMap.has]
      have hiff : (p < m.promises + 1) ↔ p < m.promises := by omega
      rw [hkeep]
      simp only [hiff]
      exact honce

/-- Settling entry after entry of a list of them. -/
theorem Sound.settleAll (how : Settlement) : ∀ {l : List (Nat × Pending)} {m : Intents}, Sound m →
    (l.map Prod.fst).Nodup → (∀ e ∈ l, m.pending.get e.1 = some e.2) →
    Sound (l.foldl (fun m e => m.settle e.1 e.2 how) m)
  | [], _, h, _, _ => h
  | e :: l, m, h, hnodup, hget => by
    rw [List.map_cons, List.nodup_cons] at hnodup
    refine Sound.settleAll how (l := l) (h.settle (hget e List.mem_cons_self) how) hnodup.2 fun e' he' => ?_
    have hne : e'.1 ≠ e.1 := fun heq => hnodup.1 (heq ▸ List.mem_map_of_mem he')
    exact (OrderedMap.get_delete_ne _ hne).trans (hget e' (List.mem_cons_of_mem _ he'))

/-- Closing the socket keeps the bookkeeping sound. -/
theorem Sound.closeAll (h : Sound m) : Sound m.closeAll :=
  h.settleAll _ m.pending.nodup fun _ he => OrderedMap.mem_entries.mp he

end Intents

end SlopSync.Js
