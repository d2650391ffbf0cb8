import SlopSync.InProcess

/-! # The in-process link as an instrument

* `EstopsFirst` — no other frame stands before an ESTOP; `estopsFirst_enqueue` says which frames break that.
* `LinkRun.Faithful` — what the link promises of a run; `LinkRun.faithful_step` is exact for one step. -/

namespace SlopSync.InProcess

/-! ## The queue -/

/-- No other frame stands before an ESTOP. -/
def EstopsFirst (q : List QueuedFrame) : Prop :=
  q.Pairwise fun a b => looksLikeEstop b.frame = true → looksLikeEstop a.frame = true

section

variable {q q' : List QueuedFrame} {e x : QueuedFrame} {r : Rolls} {isEstop : Bool}

theorem estopsFirst_front (h : EstopsFirst q) (he : looksLikeEstop e.frame = true) : EstopsFirst (e :: q) :=
  List.pairwise_cons.mpr ⟨fun _ _ _ => he, h⟩

theorem estopsFirst_back (h : EstopsFirst q) (he : looksLikeEstop e.frame = false) : EstopsFirst (q ++ [e]) := by
  refine List.pairwise_append.mpr ⟨h, List.pairwise_singleton _ _, fun a _ b hb hestop => ?_⟩
  rw [List.mem_singleton.mp hb, he] at hestop
  cases hestop

theorem swapLastTwo_concat (q : List QueuedFrame) (x e : QueuedFrame) :
    FrameQueue.swapLastTwo (q ++ [x] ++ [e]) = q ++ [e] ++ [x] := by
  simp [FrameQueue.swapLastTwo]

/-- The frame before the last moves behind it. -/
theorem estopsFirst_swap (h : EstopsFirst q) (he : looksLikeEstop e.frame = false) :
    EstopsFirst (FrameQueue.swapLastTwo (q ++ [e])) ↔ ∀ x ∈ q.getLast?, looksLikeEstop x.frame = false := by
  rcases List.eq_nil_or_concat q with rfl | ⟨q, x, rfl⟩
  · exact iff_of_true (List.pairwise_singleton _ _) (by simp)
  · rw [List.concat_eq_append] at h ⊢
    obtain ⟨hq, -, hbefore⟩ := List.pairwise_append.mp h
    rw [swapLastTwo_concat, List.getLast?_append, List.getLast?_singleton]
    constructor
    · intro hswap y hy
      cases hy
      have hpair := (List.pairwise_append.mp hswap).2.2 e (by simp) x (List.mem_singleton_self x)
      rw [he] at hpair
      simpa using hpair
    · intro hlast
      exact estopsFirst_back (estopsFirst_back hq he) (hlast x rfl)

theorem push_eq (isEstop : Bool) (e : QueuedFrame) (q : List QueuedFrame) : Direction.push isEstop e q =
    if FrameQueue.kCapacity ≤ q.length then none else some (if isEstop then e :: q else q ++ [e]) := by
  unfold Direction.push FrameQueue.pushFront FrameQueue.pushBack
  cases isEstop <;> rfl

/-- The queue behind the frame itself, its duplicate apart. -/
def placed (r : Rolls) (isEstop : Bool) (e : QueuedFrame) (q : List QueuedFrame) : List QueuedFrame :=
  if isEstop then e :: q else if r.reorder then FrameQueue.swapLastTwo (q ++ [e]) else q ++ [e]

theorem enqueue_eq (r : Rolls) (isEstop : Bool) (e : QueuedFrame) (q : List QueuedFrame) : Direction.enqueue r isEstop e q =
    if FrameQueue.kCapacity ≤ q.length then none
    else some (if r.dup = true ∧ ¬FrameQueue.kCapacity ≤ (placed r isEstop e q).length then
      if isEstop then e :: placed r isEstop e q else placed r isEstop e q ++ [e] else placed r isEstop e q) := by
  have hplaced : (if (!isEstop && r.reorder) = true then FrameQueue.swapLastTwo (if isEstop then e :: q else q ++ [e])
      else if isEstop then e :: q else q ++ [e]) = placed r isEstop e q := by
    unfold placed
    cases isEstop <;> cases r.reorder <;> rfl
  unfold Direction.enqueue
  rw [push_eq]
  by_cases hq : FrameQueue.kCapacity ≤ q.length
  · rw [if_pos hq, if_pos hq, Option.map_none]
  · rw [if_neg hq, if_neg hq, Option.map_some]
    dsimp only
    rw [hplaced, push_eq]
    by_cases hdup : r.dup = true
    · rw [if_pos hdup]
      by_cases hfull : FrameQueue.kCapacity ≤ (placed r isEstop e q).length
      · rw [if_pos hfull, if_neg (fun h => h.2 hfull)]
        rfl
      · have hboth : r.dup = true ∧ ¬FrameQueue.kCapacity ≤ (placed r isEstop e q).length := ⟨hdup, hfull⟩
        rw [if_neg hfull, if_pos hboth]
        rfl
    · rw [if_neg hdup, if_neg (fun h => hdup h.1)]

theorem perm_placed : (placed r isEstop e q).Perm (e :: q) := by
  unfold placed
  split
  · exact .refl _
  · have hback : (q ++ [e]).Perm (e :: q) := List.perm_append_singleton e q
    split
    · rcases List.eq_nil_or_concat q with rfl | ⟨q, x, rfl⟩
      · exact .refl _
      · rw [List.concat_eq_append] at hback ⊢
        rw [swapLastTwo_concat]
        refine List.Perm.trans ?_ hback
        rw [List.append_assoc, List.append_assoc]
        exact .append_left _ (.swap _ _ _)
    · exact hback

/-- What enters the queue is the frame, once or twice; nothing leaves it. -/
theorem enqueue_perm (h : Direction.enqueue r isEstop e q = some q') :
    (q'.Perm (e :: q) ∨ r.dup = true ∧ q'.Perm (e :: e :: q)) := by
  rw [enqueue_eq] at h
  split at h
  · cases h
  · cases h
    split
    · rename_i hdup
      refine .inr ⟨hdup.1, ?_⟩
      split
      · exact .cons _ perm_placed
      · exact (List.perm_append_singleton _ _).trans (.cons _ perm_placed)
    · exact .inl perm_placed

/-- A frame that is no ESTOP breaks the order when it is swapped with an ESTOP. -/
theorem estopsFirst_placed (h : EstopsFirst q) (he : looksLikeEstop e.frame = isEstop) :
    EstopsFirst (placed r isEstop e q) ↔
      (isEstop = false → r.reorder = true → ∀ x ∈ q.getLast?, looksLikeEstop x.frame = false) := by
  unfold placed
  cases isEstop with
  | true => exact iff_of_true (estopsFirst_front h he) nofun
  | false =>
    rw [if_neg Bool.false_ne_true, forall_prop_of_true rfl]
    by_cases hreorder : r.reorder = true
    · rw [if_pos hreorder, forall_prop_of_true hreorder, estopsFirst_swap h he]
    · rw [if_neg hreorder]
      exact iff_of_true (estopsFirst_back h he) fun hr => absurd hr hreorder

/-- A duplicate does not repair the order, nor break it. -/
theorem estopsFirst_enqueue (h : EstopsFirst q) (he : looksLikeEstop e.frame = isEstop)
    (hq : Direction.enqueue r isEstop e q = some q') :
    EstopsFirst q' ↔ (isEstop = false → r.reorder = true → ∀ x ∈ q.getLast?, looksLikeEstop x.frame = false) := by
  rw [← estopsFirst_placed h he]
  rw [enqueue_eq] at hq
  split at hq
  · cases hq
  · cases hq
    split
    · cases isEstop with
      | true =>
        rw [if_pos rfl]
        exact ⟨fun h' => h'.of_cons, fun h' => estopsFirst_front h' he⟩
      | false =>
        rw [if_neg Bool.false_ne_true]
        exact ⟨fun h' => (List.pairwise_append.mp h').1, fun h' => estopsFirst_back h' he⟩
    · exact Iff.rfl

end

/-! ## Frames -/

theorem looksLikeEstop_buffered (frame : Bytes) : looksLikeEstop (frameBufferFrom frame) = looksLikeEstop frame := by
  unfold frameBufferFrom
  split
  · rfl
  · rename_i hlong
    have hne : frame.length ≠ kEstopFrameBytes := by
      intro hlen
      rw [hlen] at hlong
      exact hlong (by decide)
    have hno : looksLikeEstop frame = false := by
      rw [looksLikeEstop, beq_false_of_ne hne, Bool.false_and]
    rw [hno]
    rfl

theorem frameBufferFrom_eq_iff (frame : Bytes) : frameBufferFrom frame = frame ↔ frame.length ≤ kFrameBufferCapacity := by
  unfold frameBufferFrom
  split
  · rename_i hfits
    exact iff_of_true rfl hfits
  · rename_i hlong
    refine iff_of_false (fun heq => ?_) hlong
    rw [← heq] at hlong
    exact hlong (by decide)

theorem perm_cons_iff {α : Type} [DecidableEq α] (a b : α) (l : List α) : (a :: l).Perm (b :: l) ↔ a = b := by
  constructor
  · intro h
    have hcount := h.count_eq a
    by_contra hne
    rw [List.count_cons_self, List.count_cons_of_ne (Ne.symm hne)] at hcount
    omega
  · rintro rfl
    exact .refl _

namespace Direction

variable {ρ : Type} (nextU32 : ρ → UInt32 × ρ) (p : FaultProfile) (rng : ρ)

theorem roll_zero (x : UInt32) : decide (x % 100 < (0 : UInt8).toUInt32) = false := by simp

theorem lost_zero (h : p.lossPct = 0) : (rolls nextU32 p rng).1.lost = false := by
  have hroll : ∃ x, (rolls nextU32 p rng).1.lost = decide (x % 100 < p.lossPct.toUInt32) := ⟨_, rfl⟩
  obtain ⟨x, hx⟩ := hroll
  rw [hx, h, roll_zero]

theorem dup_zero (h : p.dupPct = 0) : (rolls nextU32 p rng).1.dup = false := by
  have hroll : ∃ x, (rolls nextU32 p rng).1.dup = decide (x % 100 < p.dupPct.toUInt32) := ⟨_, rfl⟩
  obtain ⟨x, hx⟩ := hroll
  rw [hx, h, roll_zero]

theorem reorder_zero (h : p.reorderPct = 0) : (rolls nextU32 p rng).1.reorder = false := by
  have hroll : ∃ x, (rolls nextU32 p rng).1.reorder = decide (x % 100 < p.reorderPct.toUInt32) := ⟨_, rfl⟩
  obtain ⟨x, hx⟩ := hroll
  rw [hx, h, roll_zero]

end Direction

/-! ## Runs -/

namespace LinkRun

variable {ρ : Type} (nextU32 : ρ → UInt32 × ρ) (p : FaultProfile)

/-- The frames read and those still queued. -/
def seen (s : LinkRun ρ) : List Bytes := s.reads ++ s.direction.queue.map QueuedFrame.frame

def ordinary (frames : List Bytes) : List Bytes := frames.filter fun f => !looksLikeEstop f

/-- What the link promises.  Reads take the head, so the order of the queue is the order of delivery. -/
structure Faithful (s : LinkRun ρ) : Prop where
  estops : EstopsFirst s.direction.queue
  kept : p.lossPct = 0 → p.dupPct = 0 → s.seen.Perm s.admitted
  fifo : p.lossPct = 0 → p.dupPct = 0 → p.reorderPct = 0 → ordinary s.seen = ordinary s.admitted

/-- The condition on a step: an admitted frame fits the frame buffer where the profile loses and repeats nothing, and one
that is no ESTOP is not swapped with an ESTOP. -/
def Gentle (s : LinkRun ρ) : LinkOp ρ → Prop
  | .write frame _ =>
    frame.length ≤ p.mtu.toNat → (Direction.rolls nextU32 p s.direction.rng).1.lost = false →
      s.direction.queue.length < FrameQueue.kCapacity →
      (p.lossPct = 0 → p.dupPct = 0 → frame.length ≤ kFrameBufferCapacity) ∧
      (looksLikeEstop frame = false → (Direction.rolls nextU32 p s.direction.rng).1.reorder = true →
        ∀ x ∈ s.direction.queue.getLast?, looksLikeEstop x.frame = false)
  | .read _ | .elsewhere _ => True

variable {nextU32 p} {s : LinkRun ρ}

/-- A read moves the head from the queue to what is read, or changes nothing. -/
theorem popFront_cases (nowUs : UInt32) (q : List QueuedFrame) :
    FrameQueue.popFront nowUs q = (none, q) ∨ ∃ e q', q = e :: q' ∧ FrameQueue.popFront nowUs q = (some e.frame, q') := by
  cases q with
  | nil => exact .inl rfl
  | cons e q =>
    by_cases hdue : timeReached nowUs e.deliverAtUs = true
    · exact .inr ⟨e, q, rfl, if_pos hdue⟩
    · exact .inl (if_neg hdue)

theorem seen_read (s : LinkRun ρ) (nowUs : UInt32) : (s.step nextU32 p (.read nowUs)).seen = s.seen ∧
    (s.step nextU32 p (.read nowUs)).direction.queue.Sublist s.direction.queue := by
  unfold seen step Direction.read
  dsimp only
  rcases popFront_cases nowUs s.direction.queue with hpop | ⟨e, q, hq, hpop⟩
  · rw [hpop]
    exact ⟨by simp, .refl _⟩
  · rw [hpop, hq]
    exact ⟨by simp, List.sublist_cons_self _ _⟩

theorem faithful_read (h : s.Faithful p) (nowUs : UInt32) : (s.step nextU32 p (.read nowUs)).Faithful p := by
  obtain ⟨hseen, hsub⟩ := @seen_read ρ nextU32 p s nowUs
  refine ⟨List.Pairwise.sublist hsub h.estops, ?_, ?_⟩
  · rw [hseen]
    exact h.kept
  · rw [hseen]
    exact h.fifo

section

variable {rng : ρ} {r : Rolls} {frame : Bytes} {deliverAtUs : UInt32} {q : List QueuedFrame}

/-- The run with a frame in the queue. -/
def queued (s : LinkRun ρ) (rng : ρ) (frame : Bytes) (q : List QueuedFrame) : LinkRun ρ :=
  { s with direction := { rng, queue := q }, admitted := s.admitted ++ [frame] }

/-- One copy more is seen, of the frame as the buffer holds it. -/
theorem seen_queued (hkept : s.seen.Perm s.admitted) (hdup : r.dup = false)
    (hq : Direction.enqueue r (looksLikeEstop frame) ⟨frameBufferFrom frame, deliverAtUs⟩ s.direction.queue = some q) :
    (s.queued rng frame q).seen.Perm (s.queued rng frame q).admitted ↔ frame.length ≤ kFrameBufferCapacity := by
  have hqueue : q.Perm (⟨frameBufferFrom frame, deliverAtUs⟩ :: s.direction.queue) := by
    rcases enqueue_perm hq with hperm | ⟨hd, -⟩
    · exact hperm
    · rw [hdup] at hd
      cases hd
  have hone : (s.queued rng frame q).seen.Perm (s.reads ++ frameBufferFrom frame :: s.direction.queue.map QueuedFrame.frame) :=
    (hqueue.map QueuedFrame.frame).append_left s.reads
  have hseen : (s.queued rng frame q).seen.Perm (frameBufferFrom frame :: s.admitted) :=
    hone.trans (List.perm_middle.trans (hkept.cons _))
  have hadmitted : (s.queued rng frame q).admitted.Perm (frame :: s.admitted) := List.perm_append_singleton frame s.admitted
  rw [← frameBufferFrom_eq_iff, ← perm_cons_iff (frameBufferFrom frame) frame s.admitted]
  exact ⟨fun h => hseen.symm.trans (h.trans hadmitted), fun h => hseen.trans (h.trans hadmitted.symm)⟩

/-- Frames that are no ESTOP keep their order. -/
theorem fifo_queued (hfifo : ordinary s.seen = ordinary s.admitted) (hdup : r.dup = false) (hreorder : r.reorder = false)
    (hfits : frame.length ≤ kFrameBufferCapacity)
    (hq : Direction.enqueue r (looksLikeEstop frame) ⟨frameBufferFrom frame, deliverAtUs⟩ s.direction.queue = some q) :
    ordinary (s.queued rng frame q).seen = ordinary (s.queued rng frame q).admitted := by
  have hplace : q = placed r (looksLikeEstop frame) ⟨frameBufferFrom frame, deliverAtUs⟩ s.direction.queue := by
    rw [enqueue_eq, hdup] at hq
    split at hq
    · cases hq
    · exact (Option.some.inj hq).symm
  rw [placed, hreorder, if_neg Bool.false_ne_true, (frameBufferFrom_eq_iff frame).mpr hfits] at hplace
  unfold ordinary seen at hfifo ⊢
  cases hestop : looksLikeEstop frame with
  | true =>
    rw [hestop, if_pos rfl] at hplace
    simpa [queued, hplace, hestop] using hfifo
  | false =>
    rw [hestop, if_neg Bool.false_ne_true] at hplace
    rw [List.filter_append] at hfifo
    simp [queued, hplace, hestop, ← hfifo]

/-- A frame that goes into the queue. -/
theorem faithful_queued (h : s.Faithful p) (hdup : p.dupPct = 0 → r.dup = false) (hreorder : p.reorderPct = 0 → r.reorder = false)
    (hq : Direction.enqueue r (looksLikeEstop frame) ⟨frameBufferFrom frame, deliverAtUs⟩ s.direction.queue = some q) :
    (s.queued rng frame q).Faithful p ↔
      (p.lossPct = 0 → p.dupPct = 0 → frame.length ≤ kFrameBufferCapacity) ∧
      (looksLikeEstop frame = false → r.reorder = true → ∀ x ∈ s.direction.queue.getLast?, looksLikeEstop x.frame = false) := by
  have horder := estopsFirst_enqueue h.estops (looksLikeEstop_buffered frame) hq
  constructor
  · intro h'
    exact ⟨fun hl hd => (seen_queued (h.kept hl hd) (hdup hd) hq).mp (h'.kept hl hd), horder.mp h'.estops⟩
  · rintro ⟨hfits, hlast⟩
    exact ⟨horder.mpr hlast, fun hl hd => (seen_queued (h.kept hl hd) (hdup hd) hq).mpr (hfits hl hd),
      fun hl hd hr => fifo_queued (h.fifo hl hd hr) (hdup hd) (hreorder hr) (hfits hl hd) hq⟩

end

/-- **One step keeps the promise exactly when it is gentle.** -/
theorem faithful_step (h : s.Faithful p) (op : LinkOp ρ) : (s.step nextU32 p op).Faithful p ↔ s.Gentle nextU32 p op := by
  cases op with
  | read nowUs => exact iff_of_true (faithful_read h nowUs) trivial
  | elsewhere rng => exact iff_of_true ⟨h.estops, h.kept, h.fifo⟩ trivial
  | write frame nowUs =>
    unfold step Direction.write Gentle
    dsimp only
    by_cases hmtu : p.mtu.toNat < frame.length
    · rw [if_pos hmtu]
      exact iff_of_true h fun hle => absurd hmtu (Nat.not_lt.mpr hle)
    · rw [if_neg hmtu, forall_prop_of_true (Nat.le_of_not_lt hmtu)]
      cases hlost : (Direction.rolls nextU32 p s.direction.rng).1.lost with
      | true =>
        have hloss : p.lossPct ≠ 0 := by
          intro hzero
          rw [Direction.lost_zero nextU32 p _ hzero] at hlost
          cases hlost
        rw [if_pos rfl]
        exact iff_of_true ⟨h.estops, fun hl => absurd hl hloss, fun hl => absurd hl hloss⟩ nofun
      | false =>
        rw [if_neg Bool.false_ne_true, forall_prop_of_true rfl]
        cases hq : Direction.enqueue (Direction.rolls nextU32 p s.direction.rng).1 (looksLikeEstop frame)
          ⟨frameBufferFrom frame, nowUs + p.latencyUs + (Direction.rolls nextU32 p s.direction.rng).1.jitter⟩ s.direction.queue with
        | none =>
          have hfull : ¬s.direction.queue.length < FrameQueue.kCapacity := by
            intro hroom
            rw [enqueue_eq, if_neg (Nat.not_le.mpr hroom)] at hq
            cases hq
          exact iff_of_true ⟨h.estops, h.kept, h.fifo⟩ fun hroom => absurd hroom hfull
        | some q =>
          have hroom : s.direction.queue.length < FrameQueue.kCapacity := by
            by_contra hfull
            rw [enqueue_eq, if_pos (Nat.le_of_not_lt hfull)] at hq
            cases hq
          rw [forall_prop_of_true hroom]
          exact faithful_queued h (Direction.dup_zero nextU32 p _) (Direction.reorder_zero nextU32 p _) hq

/-- **Every run**: the promise holds all along exactly when every step is gentle. -/
theorem faithful_run (rng : ρ) (ops : List (LinkOp ρ)) :
    (∀ pre, pre <+: ops → (run nextU32 p rng pre).Faithful p) ↔
      ∀ pre op, pre ++ [op] <+: ops → (run nextU32 p rng pre).Gentle nextU32 p op := by
  have hlast (pre : List (LinkOp ρ)) (op : LinkOp ρ) :
      run nextU32 p rng (pre ++ [op]) = (run nextU32 p rng pre).step nextU32 p op := by
    rw [run, List.foldl_append]
    rfl
  constructor
  · intro h pre op hpre
    have hbefore := h pre ((List.prefix_append pre [op]).trans hpre)
    have hafter := h _ hpre
    rw [hlast] at hafter
    exact (faithful_step hbefore op).mp hafter
  · intro h pre hpre
    induction pre using List.reverseRecOn with
    | nil => exact ⟨.nil, fun _ _ => .refl _, fun _ _ _ => rfl⟩
    | append_singleton pre op ih =>
      rw [hlast]
      exact (faithful_step (ih ((List.prefix_append pre [op]).trans hpre)) op).mpr (h pre op hpre)

/-- A frame that is no ESTOP is read when no ESTOP is queued any more. -/
theorem Faithful.estops_read (h : s.Faithful p) {nowUs : UInt32} {frame : Bytes}
    (hread : (s.direction.read nowUs).1 = some frame) (hframe : looksLikeEstop frame = false) :
    ∀ e ∈ s.direction.queue, looksLikeEstop e.frame = false := by
  unfold Direction.read at hread
  dsimp only at hread
  rcases popFront_cases nowUs s.direction.queue with hpop | ⟨e, q, hq, hpop⟩
  · rw [hpop] at hread
    cases hread
  · rw [hpop] at hread
    have hestops := h.estops
    rw [hq] at hestops ⊢
    obtain ⟨hfront, -⟩ := List.pairwise_cons.mp hestops
    have hhead : looksLikeEstop e.frame = false := by
      rw [Option.some.inj hread, hframe]
    intro x hx
    rcases List.mem_cons.mp hx with rfl | hx
    · exact hhead
    · by_contra hestop
      have := hfront x hx (by simpa using hestop)
      rw [hhead] at this
      cases this

/-- No frame leaves the queue unread. -/
theorem seen_step (s : LinkRun ρ) (op : LinkOp ρ) : s.seen.Subperm (s.step nextU32 p op).seen := by
  cases op with
  | elsewhere rng => exact .refl _
  | read nowUs =>
    rw [(seen_read s nowUs).1]
  | write frame nowUs =>
    unfold step Direction.write
    dsimp only
    split
    · exact .refl _
    · split
      · exact .refl _
      · split
        · exact .refl _
        · rename_i q hq
          refine (List.subperm_append_left _).mpr ?_
          have hsub : (s.direction.queue.map QueuedFrame.frame).Subperm (q.map QueuedFrame.frame) := by
            rcases enqueue_perm hq with hperm | ⟨-, hperm⟩
            · exact (List.sublist_cons_self _ _).subperm.trans (hperm.map QueuedFrame.frame).symm.subperm
            · exact ((List.sublist_cons_self _ _).trans (List.sublist_cons_self _ _)).subperm.trans
                (hperm.map QueuedFrame.frame).symm.subperm
          exact hsub

end LinkRun

/-- **The in-process link is a faithful instrument in gentle runs, and in no others**; in such a run a frame that is no ESTOP
is read when no ESTOP is queued, and no frame ever leaves the queue unread. -/
theorem link_faithful_iff {ρ : Type} (nextU32 : ρ → UInt32 × ρ) (p : FaultProfile) (rng : ρ) (ops : List (LinkOp ρ)) :
    ((∀ pre, pre <+: ops → (LinkRun.run nextU32 p rng pre).Faithful p) ↔
      ∀ pre op, pre ++ [op] <+: ops → (LinkRun.run nextU32 p rng pre).Gentle nextU32 p op) ∧
    (∀ (s : LinkRun ρ) (nowUs : UInt32) (frame : Bytes), s.Faithful p → (s.direction.read nowUs).1 = some frame →
      looksLikeEstop frame = false → ∀ e ∈ s.direction.queue, looksLikeEstop e.frame = false) ∧
    ∀ (s : LinkRun ρ) (op : LinkOp ρ), s.seen.Subperm (s.step nextU32 p op).seen :=
  ⟨LinkRun.faithful_run rng ops, fun _ _ _ h hread hframe => h.estops_read hread hframe, LinkRun.seen_step⟩

/-- A frame written behind an ESTOP, with every frame reordered: it comes out first. -/
theorem estop_overtaken : ¬∀ (p : FaultProfile) (seed : UInt32) (ops : List (LinkOp UInt32)),
    (LinkRun.run xorShift32 p seed ops).Faithful p := by
  intro h
  have hestops := (h { reorderPct := 100 } 1 [.write (encodeEstop ⟨1, 2, 3⟩) 0, .write [1, 2, 3] 0]).estops
  revert hestops
  unfold EstopsFirst
  decide

/-- Where nothing is reordered and the frames fit the buffer, every run is gentle. -/
theorem LinkRun.gentle_short {ρ : Type} {nextU32 : ρ → UInt32 × ρ} {p : FaultProfile} (hreorder : p.reorderPct = 0)
    {op : LinkOp ρ} (hop : ∀ frame nowUs, op = .write frame nowUs → frame.length ≤ kFrameBufferCapacity) (s : LinkRun ρ) :
    s.Gentle nextU32 p op := by
  cases op with
  | read | elsewhere => trivial
  | write frame nowUs =>
    intro _ _ _
    refine ⟨fun _ _ => hop frame nowUs rfl, fun _ hr => ?_⟩
    rw [Direction.reorder_zero nextU32 p _ hreorder] at hr
    cases hr

/-- Half of the frames are repeated, and none is on time. -/
def shaky : FaultProfile := { dupPct := 50, latencyUs := 100, jitterUs := 20 }

/-- An ESTOP is written behind two frames, and repeated. -/
def urgent : List (LinkOp UInt32) :=
  [.write [1, 2, 3] 0, .write [4, 5] 5, .write (encodeEstop ⟨1, 2, 3⟩) 10, .read 500, .read 600]

/-- Both were read before the first of the other frames is. -/
theorem link_faithful_urgent : (∀ pre, pre <+: urgent → (LinkRun.run xorShift32 shaky 1 pre).Faithful shaky) ∧
    ((LinkRun.run xorShift32 shaky 1 urgent).direction.read 700).1 = some [1, 2, 3] ∧
    ∀ e ∈ (LinkRun.run xorShift32 shaky 1 urgent).direction.queue, looksLikeEstop e.frame = false := by
  have hshort : ∀ op ∈ urgent, ∀ frame nowUs, op = .write frame nowUs → frame.length ≤ kFrameBufferCapacity := by
    simp only [urgent, List.forall_mem_cons]
    refine ⟨?_, ?_, ?_, nofun, nofun, nofun⟩ <;> rintro _ _ ⟨⟩ <;> decide
  obtain ⟨hiff, hestops, -⟩ := link_faithful_iff xorShift32 shaky 1 urgent
  have hrun := hiff.mpr fun pre op hpre => LinkRun.gentle_short rfl (hshort op (hpre.subset (by simp))) _
  have hread : ((LinkRun.run xorShift32 shaky 1 urgent).direction.read 700).1 = some [1, 2, 3] := by decide +kernel
  exact ⟨hrun, hread, hestops _ 700 [1, 2, 3] (hrun urgent (List.prefix_refl urgent)) hread (by decide)⟩

end SlopSync.InProcess
