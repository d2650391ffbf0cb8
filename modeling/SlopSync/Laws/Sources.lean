import SlopSync.Laws.Ownership
import SlopSync.Laws.Readiness

/-! # Exclusive sources

What the delegate was told about the sources is a journal: replaying it gives the owners the hub has on record, and
every entry is a change.  A source passes from one session to another either through a release or by a takeover
of a session whose role is no lower than the owner's was. -/

namespace SlopSync

open Keyed Labelled

/-! ## The journal -/

/-- The last thing told about a source. -/
def lastTold (l : List Told) (src : UInt8) : Option Told := l.find? fun x => x.src == src

/-- The owner according to the journal. -/
def toldOwner (l : List Told) (src : UInt8) : UInt32 := ((lastTold l src).map Told.owner).getD 0

/-- The role its owner had when it took the source. -/
def toldRole (l : List Told) (src : UInt8) : AccessLevel := ((lastTold l src).map Told.role).getD .watch

theorem lastTold_cons_self (x : Told) (l : List Told) : lastTold (x :: l) x.src = some x :=
  List.find?_cons_of_pos (beq_self_eq_true x.src)

theorem lastTold_cons_other {x : Told} {l : List Told} {src : UInt8} (h : x.src ≠ src) :
    lastTold (x :: l) src = lastTold l src :=
  List.find?_cons_of_neg fun he => h (beq_iff_eq.mp he)

/-- What an entry may say after the older ones: a free source was taken (0), one was taken over (1), or one was
released, after silence (3) or with its session (4). -/
def Told.Follows (x : Told) (l : List Told) : Prop :=
  (x.reason = 0 ∧ x.owner ≠ 0 ∧ toldOwner l x.src = 0) ∨
  (x.reason = 1 ∧ x.owner ≠ 0 ∧ toldOwner l x.src ≠ 0 ∧ toldOwner l x.src ≠ x.owner ∧ toldRole l x.src ≤ x.role) ∨
  ((x.reason = 3 ∨ x.reason = 4) ∧ x.owner = 0 ∧ toldOwner l x.src ≠ 0)

/-- Every entry follows from the older ones; the newest comes first. -/
def Journal : List Told → Prop
  | [] => True
  | x :: l => x.Follows l ∧ Journal l

/-- The table is what the journal says. -/
structure View.Kept (v : View) : Prop where
  journal : Journal v.told
  owner : ∀ src, toldOwner v.told src = v.owner src
  role : ∀ src, v.owner src ≠ 0 → toldRole v.told src = v.ownerRole src

theorem toldOwner_cons (x : Told) (l : List Told) (src : UInt8) :
    toldOwner (x :: l) src = if src = x.src then x.owner else toldOwner l src := by
  split
  · rename_i h
    rw [toldOwner, h, lastTold_cons_self]
    rfl
  · rename_i h
    rw [toldOwner, lastTold_cons_other (Ne.symm h)]
    rfl

theorem toldRole_cons (x : Told) (l : List Told) (src : UInt8) :
    toldRole (x :: l) src = if src = x.src then x.role else toldRole l src := by
  split
  · rename_i h
    rw [toldRole, h, lastTold_cons_self]
    rfl
  · rename_i h
    rw [toldRole, lastTold_cons_other (Ne.symm h)]
    rfl

/-- Releases of distinct sources, told one after the other. -/
theorem journal_releases {reason : UInt8} (slots : SlotIdx → SlotView) {l : List Told} (hr : reason = 3 ∨ reason = 4)
    (hl : Journal l) : ∀ {srcs : List UInt8}, srcs.Nodup → (∀ src ∈ srcs, toldOwner l src ≠ 0) →
    Journal (srcs.map (fun src => ⟨src, 0, reason, .watch, slots⟩) ++ l) ∧
      (∀ src, toldOwner (srcs.map (fun src => ⟨src, 0, reason, .watch, slots⟩) ++ l) src =
        if src ∈ srcs then 0 else toldOwner l src) ∧
      ∀ src, src ∉ srcs → toldRole (srcs.map (fun src => ⟨src, 0, reason, .watch, slots⟩) ++ l) src = toldRole l src
  | [], _, _ => by simpa using hl
  | a :: srcs, hnd, howned => by
    obtain ⟨ha, hnd'⟩ := List.nodup_cons.mp hnd
    obtain ⟨hj, hown, hrole⟩ := journal_releases slots hr hl hnd' fun src hsrc =>
      howned src (List.mem_cons_of_mem a hsrc)
    rw [List.map_cons, List.cons_append]
    refine ⟨⟨.inr (.inr ⟨hr, rfl, ?_⟩), hj⟩, fun src => ?_, fun src hsrc => ?_⟩
    · rw [hown a, if_neg ha]
      exact howned a List.mem_cons_self
    · rw [toldOwner_cons, hown]
      by_cases hs : src = a <;> simp [hs]
    · rw [List.mem_cons, not_or] at hsrc
      rw [toldRole_cons, if_neg hsrc.1]
      exact hrole src hsrc.2

section

variable {ε : Type} {w : World ε} {c : Config} {now : UInt32} {rx : Option SlotIdx} {s : Sys ε}

/-- The reasons the hub gives for a release. -/
def Label.Reasoned : Label → Prop
  | .release _ reason => reason = 3 ∨ reason = 4
  | _ => True

/-- A source that is taken, or taken over, is the next entry of the journal. -/
theorem View.Kept.hand {v : View} (hv : v.Kept) (i : SlotIdx) (src : UInt8) {takeover : Bool}
    (hsid : (v.slots i).sessionId ≠ 0) (hfree : takeover = false → v.owner src = 0)
    (hover : takeover = true → v.owner src ≠ 0 ∧ v.owner src ≠ (v.slots i).sessionId ∧
      v.ownerRole src ≤ (v.slots i).role) : (v.hand c i src (if takeover then 1 else 0)).Kept := by
  refine ⟨⟨?_, hv.journal⟩, fun a => ?_, fun a ha => ?_⟩
  · cases takeover with
    | false => exact .inl ⟨rfl, hsid, (hv.owner src).trans (hfree rfl)⟩
    | true =>
      obtain ⟨hne, hother, hle⟩ := hover rfl
      refine .inr (.inl ⟨rfl, hsid, ?_, ?_, ?_⟩)
      · exact (hv.owner src).symm ▸ hne
      · exact (hv.owner src).symm ▸ hother
      · rw [hv.role src hne]
        exact hle
  · show toldOwner (_ :: _) a = Function.update v.owner src (v.slots i).sessionId a
    rw [toldOwner_cons, Function.update_apply, hv.owner a]
  · show toldRole (_ :: _) a = Function.update v.ownerRole src (v.slots i).role a
    rw [toldRole_cons, Function.update_apply]
    by_cases hne : a = src
    · rw [if_pos hne, if_pos hne]
    · rw [if_neg hne, if_neg hne]
      refine hv.role a ?_
      have hsame : (v.hand c i src (if takeover then 1 else 0)).owner a = v.owner a := Function.update_of_ne hne ..
      exact hsame ▸ ha

/-- The sources a session releases are its next entries, one for each. -/
theorem View.Kept.releases {v : View} (hv : v.Kept) {sid : UInt32} {reason : UInt8} {srcs : List UInt8}
    (retained : RetainedStore) (hr : reason = 3 ∨ reason = 4) (hsid : sid ≠ 0) (hnd : srcs.Nodup)
    (hsrcs : ∀ src ∈ srcs, v.owner src = sid) (hall : ∀ src, v.owner src = sid → src ∈ srcs) :
    ({ v with owner := clearedOf v.owner sid, retained
              ownerRole := fun src => if src ∈ srcs then .watch else v.ownerRole src
              told := srcs.map (fun src => ⟨src, 0, reason, .watch, v.slots⟩) ++ v.told } : View).Kept := by
  obtain ⟨hj, hown, hrole⟩ := journal_releases v.slots hr hv.journal hnd fun src hsrc => by
    rw [hv.owner src, hsrcs src hsrc]
    exact hsid
  refine ⟨hj, fun src => ?_, fun src ha => ?_⟩
  · refine (hown src).trans ?_
    show _ = clearedOf v.owner sid src
    unfold clearedOf
    by_cases hs : src ∈ srcs
    · rw [if_pos hs, if_pos (hsrcs src hs)]
    · rw [if_neg hs, if_neg fun h => hs (hall src h), hv.owner src]
  · have hs : src ∉ srcs := by
      intro hs
      refine ha ?_
      show clearedOf v.owner sid src = 0
      exact if_pos (hsrcs src hs)
    have hne : v.owner src ≠ 0 := by
      have ha' : clearedOf v.owner sid src ≠ 0 := ha
      unfold clearedOf at ha'
      split at ha'
      · exact absurd rfl ha'
      · exact ha'
    rw [hrole src hs, hv.role src hne]
    exact (if_neg hs).symm

/-- Every act keeps the table what the journal says. -/
theorem Act.kept {l : Label} {v v' : View} (h : Act c now rx l v v') (hl : l.Reasoned) (hids : v.Ids) (hv : v.Kept) :
    v'.Kept := by
  cases h with
  | acquire i src takeover hrx hocc hst hready hfree hover => exact hv.hand i src (hids.1 i hocc).1 hfree hover
  | release k reason srcs retained hk hnd hsrcs hall hret =>
    have h0 : (v.slots k).sessionId ≠ 0 := (hids.1 k hk).1
    exact hv.releases retained hl h0 hnd hsrcs (hall h0)
  | _ => exact ⟨hv.journal, hv.owner, hv.role⟩

/-! ## Which move tells what -/

/-- The session of slot `i` gave the source up, which was its own. -/
structure Told.From (x : Told) (was : UInt32) (i : SlotIdx) : Prop where
  owner : x.owner = 0
  occupied : (x.slots i).occupied
  was : (x.slots i).sessionId = was

/-- The session of slot `i` is live, and was silent for its deadman window. -/
def Silent (s : Sys ε) (i : SlotIdx) : Prop :=
  (s.session i).state = .live ∧
    timeReached s.hub.monoMs.ms ((s.session i).lastRxMs + (s.session i).deadmanMs) = true

/-- Each of the newer entries is as `R` has it; its first argument is the owner until then. -/
def Entries (R : UInt32 → Told → Prop) (old : List Told) : List Told → Prop
  | [] => True
  | x :: new => R (toldOwner (new ++ old) x.src) x ∧ Entries R old new

theorem Entries.mono {R Q : UInt32 → Told → Prop} (hRQ : ∀ was x, R was x → Q was x) {old : List Told} :
    ∀ {new : List Told}, Entries R old new → Entries Q old new
  | [], _ => trivial
  | _ :: _, h => ⟨hRQ _ _ h.1, h.2.mono hRQ⟩

theorem Entries.append {R : UInt32 → Told → Prop} {old mid : List Told} (hmid : Entries R old mid) :
    ∀ {new : List Told}, Entries R (mid ++ old) new → Entries R old (new ++ mid)
  | [], _ => hmid
  | x :: new, h => by
    refine ⟨?_, hmid.append h.2⟩
    show R (toldOwner (new ++ mid ++ old) x.src) x
    rw [List.append_assoc]
    exact h.1

end

end SlopSync
