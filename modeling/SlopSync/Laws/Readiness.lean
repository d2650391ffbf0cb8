import SlopSync.Hub.Bench
import SlopSync.Refine.Run

/-! # Readiness gates both planes

A session that has not adopted the catalog hears nothing and moves nothing: no STATE and no EVENT frame goes out to
it, and none of its intents and bundles reaches the delegate.  Only a HELLO with the hub's etag or the session's own
CATALOG_READY makes it ready.  The module closes with the sends themselves: each finds its transport. -/

namespace SlopSync

open Keyed Labelled

/-! ## What went out, and what came in -/

/-- All that was sent and applied was so for ready sessions that own the sources concerned. -/
structure View.Gated (v : View) : Prop where
  sent : ∀ x ∈ v.sent, x.ready = true ∧ x.owns = true
  applied : ∀ x ∈ v.applied, x.ready = true ∧ x.owns = true

section

variable {ε : Type} {w : World ε} {c : Config} {now : UInt32} {rx : Option SlotIdx} {s : Sys ε}

/-- No act opens the gate: a session sends and is applied only while it is ready and owns its transport. -/
theorem Act.gated {l : Label} {v v' : View} (h : Act c now rx l v v') (hv : v.Gated) : v'.Gated := by
  cases h with
  | chatter q sent hq hsent =>
    refine ⟨fun x hx => ?_, hv.applied⟩
    rcases List.mem_append.mp hx with hx | hx
    · obtain ⟨i, -, -, -, hready, howns⟩ := hsent x hx
      exact ⟨hready, howns⟩
    · exact hv.sent x hx
  | apply i x hrx hready hx =>
    refine ⟨hv.sent, fun y hy => ?_⟩
    rcases List.mem_cons.mp hy with rfl | hy
    · exact hx
    · exact hv.applied y hy
  | _ => exact ⟨hv.sent, hv.applied⟩

/-- The gate holds in every state a run reaches. -/
theorem reachBy_gated {G : Sys ε → Move ε → Prop} (h : ReachBy w c G s) : s.view.Gated := by
  refine h.invariant (fun _ => ⟨fun x hx => ?_, fun x hx => ?_⟩) fun _ _ _ _ _ _ _ ha => ha.gated
  · cases hx
  · cases hx

/-- A data frame that went out went to a session that was ready and owned its transport. -/
theorem ready_of_sent {x : Hub × Io} {y : Sent} (h : s.view.Gated) (hx : x ∈ s.trace) (hy : sentOf x = some y) :
    y.ready = true ∧ y.owns = true :=
  h.sent y (List.mem_filterMap.mpr ⟨x, hx, hy⟩)

/-- An INTENT or a stream that was applied came from a session that was ready and owned its transport. -/
theorem ready_of_applied {x : Hub × Io} {y : Applied} (h : s.view.Gated) (hx : x ∈ s.trace) (hy : appliedOf x = some y) :
    y.ready = true ∧ y.owns = true :=
  h.applied y (List.mem_filterMap.mpr ⟨x, hx, hy⟩)

/-! ## Frames of a session that is not ready -/

/-- INTENT and STREAM. -/
def Inbound.Controls : Inbound → Prop
  | .intent _ | .stream _ _ => True
  | _ => False

/-- Owners, latch, generation and ledger are as before. -/
structure SameControl (s t : Sys ε) : Prop where
  ownership : t.hub.ownership = s.hub.ownership
  safety : t.hub.safety = s.hub.safety
  cfgGen : t.hub.cfgGen = s.hub.cfgGen
  pairing : t.hub.pairing = s.hub.pairing

namespace SameControl

variable {t t' : Sys ε}

/-- Writing slots and the dispatch sequence leaves ownership, safety, configuration and pairing alone. -/
theorem of_hub (h : t.hub = { s.hub with slots := t.hub.slots, dispatchSeq := t.hub.dispatchSeq }) : SameControl s t := by
  constructor <;> rw [h]

protected theorem trans (h : SameControl s t) (h' : SameControl t t') : SameControl s t' :=
  ⟨h'.ownership.trans h.ownership, h'.safety.trans h.safety, h'.cfgGen.trans h.cfgGen, h'.pairing.trans h.pairing⟩

/-- Sending and logging leave ownership, safety, configuration and pairing alone. -/
theorem emits (h : Emits s t) : SameControl s t := ⟨h.ownership, h.safety, h.cfgGen, h.pairing⟩

end SameControl

/-- Noting that a frame arrived leaves ownership, safety, configuration and pairing alone. -/
theorem noteRx_sameControl (i : SlotIdx) (nowMs : UInt32) (s : Sys ε) : SameControl s (noteRx w i nowMs s) := by
  have hrev : ∀ t : Sys ε, SameControl t (reviveIfStale w i nowMs t) := by
    intro t
    unfold reviveIfStale
    dsimp only
    split
    · have hlive : SameControl t (t.modSession i fun se => { se with state := .live, staleSinceMs := 0 }) := .of_hub rfl
      exact hlive.trans (.emits (emits_emitSessionEvent _ _ _ _))
    · exact .of_hub rfl
  unfold noteRx
  dsimp only
  split
  · have hstamp : SameControl s ((s.log (.read i)).modSession i fun se => { se with lastRxMs := nowMs }) := .of_hub rfl
    exact hstamp.trans (hrev _)
  · have hread : SameControl s (s.log (.read i)) := .of_hub rfl
    exact hread.trans (hrev _)

/-- Reading a frame makes nobody ready. -/
theorem ready_noteRx (i : SlotIdx) (nowMs : UInt32) (s : Sys ε) (k : SlotIdx) :
    ((noteRx w i nowMs s).session k).ready = (s.session k).ready := by
  have hread : Does ⟨[], ByteArr.zero 8, []⟩ nowMs (some i) (Label.Reads i) s (noteRx w i nowMs s) := noteRx_does i nowMs s
  refine Path.frame (f := fun v => (v.slots k).ready) hread fun l v v' hl ha => ?_
  cases ha with
  | rx j | revive j =>
    by_cases hj : k = j
    · subst hj
      simp [View.set]
    · simp [View.set, hj]
  | chatter => rfl
  | _ => exact hl.elim

/-- An INTENT or STREAM frame of a session that is not ready changes nothing that is controlled. -/
theorem unready_frame {i : SlotIdx} {seq : UInt16} {m : Inbound} (hm : m.Controls) (hr : (s.session i).ready = false) :
    SameControl s (move w c s (.frame i (.frame seq m))) := by
  have hread := noteRx_sameControl (w := w) i s.hub.monoMs.ms s
  have hready := (ready_noteRx (w := w) i s.hub.monoMs.ms s i).trans hr
  show SameControl s (setDispatchSeq none (dispatch w c i m s.hub.monoMs.ms
    (setDispatchSeq (some seq) (noteRx w i s.hub.monoMs.ms s))))
  generalize noteRx w i s.hub.monoMs.ms s = t at hread hready
  have hseq : SameControl s (setDispatchSeq (some seq) t) := hread.trans (.of_hub rfl)
  have hready' : ((setDispatchSeq (some seq) t).session i).ready = false := hready
  generalize setDispatchSeq (some seq) t = t₁ at hseq hready'
  have hlast : ∀ t₂ : Sys ε, SameControl t₁ t₂ → SameControl s (setDispatchSeq none t₂) :=
    fun t₂ h => (hseq.trans h).trans (.of_hub rfl)
  have hnack : ∀ (n : NackMsg) (t₂ : Sys ε), SameControl t₂ (sendNack w i n t₂) := by
    intro n t₂
    have h := hub_sendNack (w := w) i n t₂
    constructor <;> rw [h]
  refine hlast _ ?_
  unfold dispatch
  cases m with
  | intent msg =>
    dsimp only
    split
    · exact .of_hub rfl
    · cases msg with
      | none => exact hnack _ t₁
      | some m =>
        unfold handleIntent
        dsimp only
        have hlim : SameControl t₁ (t₁.modSession i fun se =>
            { se with intentLimiter := ((t₁.session i).intentLimiter.allow s.hub.monoMs.ms).2 }) := .of_hub rfl
        split
        · exact hlim.trans (hnack _ _)
        · unfold admitIntent
          have hno : ((t₁.modSession i fun se => { se with
              intentLimiter := ((t₁.session i).intentLimiter.allow s.hub.monoMs.ms).2 }).session i).ready = false := by
            rw [Sys.session_modSession]
            exact hready'
          rw [hno]
          exact hlim.trans (hnack _ _)
  | stream ch payload =>
    dsimp only
    split
    · exact .of_hub rfl
    · unfold handleStream
      rw [hready']
      exact .of_hub rfl
  | _ => exact hm.elim

/-! ## How a session gets ready -/

/-- A session that stays in its slot becomes ready by CATALOG_READY only. -/
theorem Act.ready_stays {l : Label} {v v' : View} {k : SlotIdx} (h : Act c now rx l v v') (hs : v.Stays v' k)
    (ho : (v'.slots k).occupied) (hr : (v'.slots k).ready = true) : (v.slots k).ready = true ∨ l = .ready k := by
  have hset : ∀ (i : SlotIdx) (x : SlotView), ((v.set i x).slots k).ready = true → (k = i ∧ x.ready = true) ∨
      (v.slots k).ready = true := by
    intro i x hx
    by_cases hk : k = i
    · subst hk
      rw [View.slots_set_self] at hx
      exact .inl ⟨rfl, hx⟩
    · rw [View.slots_set_ne v hk] at hx
      exact .inr hx
  cases h with
  | ready i =>
    rcases hset i _ hr with ⟨rfl, -⟩ | h
    · exact .inr rfl
    · exact .inl h
  | enrol i x hrx hfree =>
    rcases hset i x hr with ⟨rfl, -⟩ | h
    · exact absurd (hs ho).1 hfree
    · exact .inl h
  | migrate i j hrx hij hfree =>
    rw [slots_migrate hij] at hr
    split at hr
    · rename_i hk
      subst hk
      exact absurd (hs ho).1 hfree
    · split at hr
      · cases hr
      · exact .inl hr
  | resume i r ready grantedAtMs lastRxMs hrx hst h =>
    rcases hset i _ hr with ⟨rfl, hx⟩ | h'
    · rcases h with ⟨hready, -⟩ | ⟨hready, -⟩
      · exact .inl (hready ▸ hx)
      · rw [show ready = true from hx] at hready
        cases hready
    · exact .inl h'
  | free i =>
    rcases hset i _ hr with ⟨rfl, hx⟩ | h
    · cases hx
    · exact .inl h
  | subs i | pubs i | role i | settle i | accept i | rx i | revive i | stale i | live i | attach i | detach i =>
    rcases hset i _ hr with ⟨rfl, hx⟩ | h
    · exact .inl hx
    · exact .inl h
  | _ => exact .inl hr

/-- The session of slot `k` came from slot `j`, or stayed there. -/
def View.Came (v v' : View) (j k : SlotIdx) : Prop :=
  (v.slots j).occupied ∧ (v'.slots k).sessionId = (v.slots j).sessionId ∧
    (v'.slots k).instanceId = (v.slots j).instanceId

/-- A session that came into a slot is still the one there while the slot stays as it is. -/
theorem View.Came.stays {v v₁ v₂ : View} {j k : SlotIdx} (h : v.Came v₁ j k) (hs : v₁.Stays v₂ k)
    (ho : (v₂.slots k).occupied) : v.Came v₂ j k := by
  obtain ⟨hj, hsid, hinst⟩ := h
  obtain ⟨-, hinst', hsid'⟩ := hs ho
  exact ⟨hj, hsid'.trans hsid, hinst'.trans hinst⟩

/-- The move is a HELLO in slot `k` that names the hub's catalog. -/
def Move.Greets (c : Config) (k : SlotIdx) (m : Move ε) : Prop :=
  ∃ seq h, m = .frame k (.frame seq (.hello (some h))) ∧ h.catalogEtag = some c.etag

/-- The move is a CATALOG_READY of slot `k`. -/
def Move.Adopts (k : SlotIdx) (m : Move ε) : Prop := ∃ seq e, m = .frame k (.frame seq (.catalogReady (some e)))

/-- Only a move that adopts a session makes one ready. -/
theorem ready_of_moveLabel {m : Move ε} {k : SlotIdx} (hl : MoveLabel w c s m (.ready k)) : m.Adopts k := by
  obtain ⟨i, seq, msg, rfl, hf⟩ := frame_of_moveLabel hl trivial
  cases hf with
  | sends hl => cases hl
  | catalogReady => exact ⟨seq, _, rfl⟩
  | hello _ hl | subscribe _ hl => exact hl.elim False.elim False.elim
  | intent hl => exact hl.elim fun _ h => h.elim
  | reattach _ hl | stream hl | goodbye hl | pairReq hl | auth hl => exact hl.elim

/-- A session is enrolled ready only by a HELLO that brought the catalog's etag. -/
theorem enrol_of_moveLabel {m : Move ε} {k : SlotIdx} (hl : MoveLabel w c s m (.enrol k true)) : m.Greets c k := by
  obtain ⟨i, seq, msg, rfl, hf⟩ := frame_of_moveLabel hl trivial
  cases hf with
  | sends hl => cases hl
  | hello _ hl =>
    obtain ⟨rfl, hetag⟩ := hl
    exact ⟨seq, _, rfl, beq_iff_eq.mp (hetag rfl)⟩
  | subscribe _ hl => exact hl.elim False.elim False.elim
  | intent hl => exact hl.elim fun _ h => h.elim
  | reattach _ hl | stream hl | goodbye hl | pairReq hl | auth hl => exact hl.elim

/-- A session moves from one slot to another only by a HELLO. -/
theorem migrate_of_moveLabel {m : Move ε} {j k : SlotIdx} (hl : MoveLabel w c s m (.migrate k j)) :
    ∃ seq h, m = .frame k (.frame seq (.hello (some h))) := by
  obtain ⟨i, seq, msg, rfl, hf⟩ := frame_of_moveLabel hl trivial
  cases hf with
  | sends hl => cases hl
  | reattach _ hl =>
    obtain ⟨rfl, -⟩ := hl
    exact ⟨seq, _, rfl⟩
  | hello _ hl | subscribe _ hl => exact hl.elim False.elim False.elim
  | intent hl => exact hl.elim fun _ h => h.elim
  | stream hl | goodbye hl | pairReq hl | auth hl => exact hl.elim

/-- The acts of a CATALOG_READY put no session into a slot. -/
theorem stays_of_adopts {m : Move ε} {l : Label} {v v' : View} {k : SlotIdx} (hm : m.Adopts k) (hl : MoveLabel w c s m l)
    (ha : Act c now rx l v v') (j : SlotIdx) : v.Stays v' j := by
  obtain ⟨seq, e, rfl⟩ := hm
  rcases Act.stays ha j with hs | ⟨i, r, rfl, -⟩ | ⟨i, i', rfl, -⟩
  · exact hs
  · rcases hl with hl | hl
    · exact hl.elim
    · cases hl with
      | sends hl => cases hl
      | subscribe _ hl => exact hl.elim False.elim False.elim
  · rcases hl with hl | hl
    · exact hl.elim
    · cases hl with
      | sends hl => cases hl
      | subscribe _ hl => exact hl.elim False.elim False.elim

/-- Where the readiness of the session in slot `k` comes from: it was ready before, in this or another slot, or the
move is what made it so. -/
def MadeReady (c : Config) (m : Move ε) (v v' : View) (k : SlotIdx) : Prop :=
  (∃ j, v.Came v' j k ∧ (v.slots j).ready = true) ∨ m.Greets c k ∨ (m.Adopts k ∧ v.Came v' k k)

/-- One act of a move keeps every ready session accounted for: it was ready before, or this move made it so. -/
theorem madeReady_act {m : Move ε} {l : Label} {v v' : View} (hl : MoveLabel w c s m l) (ha : Act c now rx l v v')
    (hv : ∀ k, (v.slots k).occupied → (v.slots k).ready = true → MadeReady c m s.view v k)
    (hadopt : ∀ k, m.Adopts k → ∀ j, (v'.slots j).occupied → s.view.Came v' j j) (k : SlotIdx)
    (ho : (v'.slots k).occupied) (hr : (v'.slots k).ready = true) : MadeReady c m s.view v' k := by
  cases Act.seated ha k with
  | stays hs =>
    rcases ha.ready_stays hs ho hr with hwas | rfl
    · rcases hv k (hs ho).1 hwas with ⟨j, hj, hrj⟩ | hg | ⟨hm, -⟩
      · exact .inl ⟨j, hj.stays hs ho, hrj⟩
      · exact .inr (.inl hg)
      · exact .inr (.inr ⟨hm, hadopt k hm k ho⟩)
    · exact .inr (.inr ⟨ready_of_moveLabel hl, hadopt k (ready_of_moveLabel hl) k ho⟩)
  | admitted hl' =>
    obtain ⟨r, rfl⟩ := hl'
    cases ha with
    | enrol _ x =>
      have hx : (({ v.set k x with drawn := x.sessionId :: v.drawn } : View).slots k) = x := View.slots_set_self v k x
      rw [hx] at hr
      rw [hr] at hl
      exact .inr (.inl (enrol_of_moveLabel hl))
  | moved j hl' hjk hocc hfree hgone hinst hsid =>
    subst hl'
    obtain ⟨seq, h, hm⟩ := migrate_of_moveLabel hl
    have hrj : (v.slots j).ready = true := by
      cases ha with
      | migrate _ _ hrx hij =>
        rw [slots_migrate hij, if_pos rfl] at hr
        exact hr
    rcases hv j hocc hrj with ⟨a, ⟨hocca, hsida, hinsta⟩, hra⟩ | ⟨seq', h', hm', -⟩ | ⟨⟨seq', e, hm'⟩, -⟩
    · exact .inl ⟨a, ⟨hocca, hsid.trans hsida, hinst.trans hinsta⟩, hra⟩
    · rw [hm] at hm'
      cases hm'
      exact absurd rfl hjk
    · rw [hm] at hm'
      cases hm'

/-- A session that is ready after a move was ready before it, or this move made it so. -/
theorem madeReady_move {m : Move ε} (hd : s.view.Distinct) (hok : m.Enabled s) (k : SlotIdx)
    (ho : ((move w c s m).view.slots k).occupied) (hr : ((move w c s m).view.slots k).ready = true) :
    MadeReady c m s.view (move w c s m).view k := by
  have hstart : ∀ k, (s.view.slots k).occupied → s.view.Came s.view k k := fun k hk => ⟨hk, rfl, rfl⟩
  -- while a CATALOG_READY is handled every session stays where it is
  refine (Path.invariant (move_does (w := w) (c := c) hd hok) (I := fun v =>
    (∀ k, (v.slots k).occupied → (v.slots k).ready = true → MadeReady c m s.view v k) ∧
    ∀ k, m.Adopts k → ∀ j, (v.slots j).occupied → s.view.Came v j j) ?_
    ⟨fun k hk hrk => .inl ⟨k, hstart k hk, hrk⟩, fun _ _ j hj => hstart j hj⟩).1 k ho hr
  rintro l v v' hl ha ⟨hv, hadopt⟩
  have hadopt' : ∀ k, m.Adopts k → ∀ j, (v'.slots j).occupied → s.view.Came v' j j := by
    intro k hk j hj
    have hs := stays_of_adopts hk hl ha j
    exact (hadopt k hk j (hs hj).1).stays hs hj
  exact ⟨madeReady_act hl ha hv hadopt', hadopt'⟩

/-- **Readiness gates both planes.**  In every run: STATE and EVENT frames went to ready sessions only, intents and
bundles reached the delegate from ready sessions only, a frame of a session that is not ready changes nothing that is
controlled, and a session gets ready only by its HELLO or its CATALOG_READY. -/
theorem readiness_gates (h : ReachBy w c (fun _ _ => True) s) :
    (∀ g i t ch seq payload ok, (g, Io.write i t .state ch seq payload ok) ∈ s.trace ∨
      (g, Io.write i t .event ch seq payload ok) ∈ s.trace → (g.slots i).session.ready = true) ∧
    (∀ g i ch value src res, (g, Io.applyIntent i ch value src res) ∈ s.trace → (g.slots i).session.ready = true) ∧
    (∀ g i ch src, (g, Io.delivered i ch src) ∈ s.trace → (g.slots i).session.ready = true) ∧
    (∀ i seq msg, msg.Controls → (s.session i).ready = false →
      SameControl s (move w c s (.frame i (.frame seq msg)))) ∧
    ∀ m k, m.Enabled s → ((move w c s m).session k).occupied = true → ((move w c s m).session k).ready = true →
      MadeReady c m s.view (move w c s m).view k := by
  have hgated := reachBy_gated h
  refine ⟨?_, ?_, ?_, fun i seq msg hm hr => unready_frame hm hr, fun m k hok ho hr => ?_⟩
  · rintro g i t ch seq payload ok (hx | hx)
    · exact (ready_of_sent hgated hx rfl).1
    · exact (ready_of_sent hgated hx rfl).1
  · intro g i ch value src res hx
    exact (ready_of_applied hgated hx rfl).1
  · intro g i ch src hx
    exact (ready_of_sent hgated hx rfl).1
  · exact madeReady_move h.distinct hok k ((occupied_view _ k).mpr ho) hr

/-! ## Every send finds its transport -/

/-- The host leaves the test hook alone. -/
def Unhooked (_ : Sys ε) : Call ε → Prop
  | .regrantForTest .. => False
  | _ => True

/-- Without `regrantForTest` no move sends on a transport that is gone. -/
theorem lost_of_moveLabel {m : Move ε} {i : SlotIdx} (hG : m.Hosted Unhooked s) : ¬MoveLabel w c s m (.lost i) := by
  intro hl
  cases m with
  | host call =>
    cases call with
    | attachTransport | detachTransport => exact hl.elim fun _ h => h.2.elim
    | latchEstop | setSafetyModes | clearEstop => exact hl.elim fun _ h => h.elim
    | publishState | bumpConfigGeneration | pairing => cases hl
    | regrantForTest => exact hG
    | _ => exact hl.elim
  | tick => exact hl.elim (fun h => nomatch h) False.elim
  | liveness => exact hl.acts.elim False.elim fun h => h.elim False.elim False.elim
  | out => cases hl
  | frame j f =>
    cases f with
    | estop => exact hl.elim False.elim fun h => h.elim fun _ h => h.elim
    | badEstop | short => exact hl.elim
    | frame seq m =>
      rcases hl with hl | hl
      · exact hl.elim
      · cases hl with
        | sends hl => cases hl
        | hello _ hl | subscribe _ hl => exact hl.elim False.elim False.elim
        | intent hl => exact hl.elim fun _ h => h.elim
        | reattach _ hl | stream hl | goodbye hl | pairReq hl | auth hl => exact hl.elim

/-- Every act but a send that misses leaves the list of missed sends alone. -/
theorem Act.lost_eq {l : Label} {v v' : View} (hl : ∀ i, l ≠ .lost i) (h : Act c now rx l v v') : v'.lost = v.lost := by
  cases h with
  | lost i => exact absurd rfl (hl i)
  | _ => rfl

/-- A run without `regrantForTest` misses no send. -/
theorem reachBy_lost (h : ReachBy w c (Move.Hosted Unhooked) s) : s.view.lost = [] := by
  refine h.invariant (I := fun v => v.lost = []) (fun _ => rfl) fun t m hG l v v' hl ha hv => ?_
  refine (Act.lost_eq (fun i hi => ?_) ha).trans hv
  subst hi
  exact lost_of_moveLabel hG hl

/-- Calls that meet a condition in every state meet it in the states they are made in. -/
theorem obeys_of_forall {H : Sys ε → Call ε → Prop} : ∀ {calls : List (Call ε)} {s : Sys ε},
    (∀ k ∈ calls, ∀ t, H t k) → Obeys w c H calls s
  | [], _, _ => trivial
  | k :: _, s, h => ⟨h k List.mem_cons_self s, obeys_of_forall fun k' hk' => h k' (List.mem_cons_of_mem k hk')⟩

/-- **Every send of the hub goes to a transport that is there.** -/
theorem sends_find_transport {e : ε} {calls : List (Call ε)} (h : ∀ k ∈ calls, ∀ i ch rate, k ≠ .regrantForTest i ch rate)
    {g : Hub} {io : Io} (hx : (g, io) ∈ (run w c e calls).trace) : (∀ i, io ≠ .nullWrite i) ∧
      ∀ i t type ch seq payload ok, io = .write i t type ch seq payload ok → (g.slots i).transport = some t := by
  have hobeys : Obeys w c Unhooked calls (boot w c e) := by
    refine obeys_of_forall fun k hk t => ?_
    cases k with
    | regrantForTest i ch rate => exact absurd rfl (h _ hk i ch rate)
    | _ => trivial
  have hnone : lostOf (g, io) = none :=
    List.filterMap_eq_nil_iff.mp (reachBy_lost (reachBy_run hobeys)) _ hx
  refine ⟨?_, ?_⟩
  · rintro i rfl
    cases hnone
  · rintro i t type ch seq payload ok rfl
    by_contra hno
    have hlost : lostOf (g, .write i t type ch seq payload ok) = some i := if_neg hno
    rw [hlost] at hnone
    cases hnone

end

/-- A client that has yet to fetch the catalog. -/
def Bench.unready : List (Call Bench) :=
  [.world { source := some 0, answer := .control }, .attachTransport 0,
    Bench.reads 1000 0 [.hello (some { instanceId := Bench.client 1 })]]

/-- Its intent on a mapped channel takes no source. -/
theorem readiness_gates_unready :
    ((run Bench.world Bench.config {} Bench.unready).session 0).ready = false ∧
      SameControl (run Bench.world Bench.config {} Bench.unready)
        (move Bench.world Bench.config (run Bench.world Bench.config {} Bench.unready)
          (.frame 0 (.frame 0 (.intent (some { intentId := 1, channelId := 0x0100 }))))) := by
  have hreach : Reachable Bench.world Bench.config (run Bench.world Bench.config {} Bench.unready) :=
    ⟨{}, Bench.unready, rfl⟩
  have hready : ((run Bench.world Bench.config {} Bench.unready).session 0).ready = false := by decide +kernel
  exact ⟨hready, (readiness_gates (reachBy_of_reachable hreach)).2.2.2.1 0 0 _ trivial hready⟩

/-- The WELCOME of a client went to the link it is on. -/
theorem sends_find_transport_unready :
    ¬∃ x ∈ (run Bench.world Bench.config {} Bench.unready).trace, ∃ i, x.2 = .nullWrite i := by
  rintro ⟨x, hx, i, hnull⟩
  refine (sends_find_transport (fun k hk i ch rate => ?_) hx).1 i hnull
  rintro rfl
  simp [Bench.unready, Bench.reads] at hk

end SlopSync
