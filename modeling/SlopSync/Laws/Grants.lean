import SlopSync.Hub.Bench
import SlopSync.Refine.Run

/-! # Grants and roles

A wish is checked against the role when it is granted, and the role changes later.  `KeepsGrants` is what keeps the
two together: no step gives a session a role below what it holds.  In every run of such steps each session's role
covers its grants, and nothing above a session's role is sent to it or taken from it. -/

namespace SlopSync

open Keyed Labelled

/-! ## Covered grants -/

/-- The role covers what the slot's session was granted and the events queued for it. -/
structure SlotView.CoveredBy (c : Config) (r : AccessLevel) (x : SlotView) : Prop where
  subs : ∀ ch ∈ x.subs, MaySubscribe c r ch
  pubs : ∀ ch ∈ x.pubs, MayPublish c r ch
  events : ∀ ch ∈ x.events, MaySubscribe c r ch

section

variable {c : Config} {r r' : AccessLevel} {x : SlotView} {ch : UInt16}

theorem MaySubscribe.mono (h : MaySubscribe c r ch) (hr : r ≤ r') : MaySubscribe c r' ch := by
  obtain ⟨e, he, hle⟩ := h
  exact ⟨e, he, AccessLevel.le_trans hle hr⟩

theorem MayPublish.mono (h : MayPublish c r ch) (hr : r ≤ r') : MayPublish c r' ch := by
  obtain ⟨e, he, hle, hcls, hdir⟩ := h
  exact ⟨e, he, AccessLevel.le_trans hle hr, hcls, hdir⟩

theorem MayPublish.maySubscribe (h : MayPublish c r ch) : MaySubscribe c r ch := by
  obtain ⟨e, he, hle, -⟩ := h
  exact ⟨e, he, hle⟩

theorem SlotView.CoveredBy.mono (h : x.CoveredBy c r) (hr : r ≤ r') : x.CoveredBy c r' :=
  ⟨fun ch hch => (h.subs ch hch).mono hr, fun ch hch => (h.pubs ch hch).mono hr,
    fun ch hch => (h.events ch hch).mono hr⟩

theorem SlotView.coveredBy_bare (h : x.subs = [] ∧ x.pubs = [] ∧ x.events = []) : x.CoveredBy c r := by
  obtain ⟨hs, hp, he⟩ := h
  refine ⟨fun ch hch => ?_, fun ch hch => ?_, fun ch hch => ?_⟩
  · rw [hs] at hch
    cases hch
  · rw [hp] at hch
    cases hch
  · rw [he] at hch
    cases hch

end

/-- Every role covers the grants under it, and what was sent was covered then. -/
structure View.Granted (c : Config) (v : View) : Prop where
  slots : ∀ k, (v.slots k).CoveredBy c (v.slots k).role
  sent : ∀ x ∈ v.sent, MaySubscribe c x.role x.channel

/-- The act gives slot `k` grants it did not have. -/
def Label.Regrants (k : SlotIdx) : Label → Prop
  | .subs j | .pubs j | .migrate j _ => j = k
  | _ => False

section

variable {ε : Type} {w : World ε} {c : Config} {now : UInt32} {rx : Option SlotIdx} {s : Sys ε} {l : Label} {v v' : View}

theorem coveredBy_set {i k : SlotIdx} {x : SlotView} {r : AccessLevel} (hx : k = i → x.CoveredBy c r)
    (hk : (v.slots k).CoveredBy c r) : ((v.set i x).slots k).CoveredBy c r := by
  by_cases h : k = i
  · subst h
    rw [View.slots_set_self]
    exact hx rfl
  · rw [View.slots_set_ne v h]
    exact hk

/-- Grants only shrink, but for the acts that grant. -/
theorem Act.coveredBy {k : SlotIdx} {r : AccessLevel} (h : Act c now rx l v v') (hl : ¬l.Regrants k)
    (hk : (v.slots k).CoveredBy c r) : (v'.slots k).CoveredBy c r := by
  cases h with
  | chatter q sent hq hsent =>
    refine ⟨hk.subs, hk.pubs, fun ch hch => ?_⟩
    rcases hq k ch hch with h | ⟨-, h⟩
    · exact hk.events ch h
    · exact hk.subs ch h
  | subs i | pubs i => exact coveredBy_set (fun h => absurd h.symm hl) hk
  | migrate i j hrx hij =>
    rw [slots_migrate hij, if_neg fun h => hl h.symm]
    split
    · exact SlotView.coveredBy_bare ⟨rfl, rfl, rfl⟩
    · exact hk
  | enrol i x _ _ _ _ _ _ _ _ _ _ _ hbare => exact coveredBy_set (fun _ => SlotView.coveredBy_bare hbare) hk
  | free i => exact coveredBy_set (fun _ => SlotView.coveredBy_bare ⟨rfl, rfl, rfl⟩) hk
  | role i | settle i | ready i | accept i | rx i | revive i | stale i | live i | resume i | attach i | detach i =>
    exact coveredBy_set (fun h => by subst h; exact ⟨hk.subs, hk.pubs, hk.events⟩) hk
  | _ => exact hk

/-- An act keeps grants covered if the roles it gives cover what the slot holds. -/
theorem Act.granted (h : Act c now rx l v v') (hv : v.Granted c)
    (hrole : ∀ k r, l = .role k r ∨ l = .resume k r → (v.slots k).CoveredBy c r) : v'.Granted c := by
  have hset : ∀ (i : SlotIdx) (x : SlotView), x.CoveredBy c x.role → ∀ k, ((v.set i x).slots k).CoveredBy c
      ((v.set i x).slots k).role := by
    intro i x hx k
    by_cases hk : k = i
    · subst hk
      rw [View.slots_set_self]
      exact hx
    · rw [View.slots_set_ne v hk]
      exact hv.slots k
  cases h with
  | chatter q sent hq hsent =>
    have hchat : Act c now rx .chatter v _ := Act.chatter q sent hq hsent
    refine ⟨fun k => ?_, fun x hx => ?_⟩
    · exact hchat.coveredBy id (hv.slots k)
    · rcases List.mem_append.mp hx with hx | hx
      · obtain ⟨i, hcon, hr, -⟩ := hsent x hx
        rw [hr]
        rcases hcon with h | h | h
        · exact (hv.slots i).events _ h
        · exact (hv.slots i).subs _ h
        · exact ((hv.slots i).pubs _ h).maySubscribe
      · exact hv.sent x hx
  | subs i chs h =>
    refine ⟨hset i _ ⟨fun ch hch => ?_, (hv.slots i).pubs, (hv.slots i).events⟩, hv.sent⟩
    exact (h ch hch).elim ((hv.slots i).subs ch) id
  | pubs i chs h =>
    refine ⟨hset i _ ⟨(hv.slots i).subs, fun ch hch => ?_, (hv.slots i).events⟩, hv.sent⟩
    exact (h ch hch).elim ((hv.slots i).pubs ch) id
  | role i r =>
    have hr := hrole i r (.inl rfl)
    exact ⟨hset i _ ⟨hr.subs, hr.pubs, hr.events⟩, hv.sent⟩
  | resume i r =>
    have hr := hrole i r (.inr rfl)
    exact ⟨hset i _ ⟨hr.subs, hr.pubs, hr.events⟩, hv.sent⟩
  | settle i r hbare => exact ⟨hset i _ (SlotView.coveredBy_bare hbare), hv.sent⟩
  | enrol i x _ _ _ _ _ _ _ _ _ _ _ hbare => exact ⟨hset i x (SlotView.coveredBy_bare hbare), hv.sent⟩
  | free i => exact ⟨hset i _ (SlotView.coveredBy_bare ⟨rfl, rfl, rfl⟩), hv.sent⟩
  | migrate i j hrx hij =>
    refine ⟨fun k => ?_, hv.sent⟩
    rw [slots_migrate hij]
    split
    · exact ⟨(hv.slots j).subs, (hv.slots j).pubs, (hv.slots j).events⟩
    · split
      · exact SlotView.coveredBy_bare ⟨rfl, rfl, rfl⟩
      · exact hv.slots k
  | ready i | accept i | rx i | revive i | stale i | live i | attach i | detach i =>
    exact ⟨hset i _ ⟨(hv.slots i).subs, (hv.slots i).pubs, (hv.slots i).events⟩, hv.sent⟩
  | _ => exact ⟨hv.slots, hv.sent⟩

/-! ## The roles a step gives -/

/-- The role a frame of slot `i`, dispatched in `t`, gives to the session of slot `j`. -/
def GivesAt (w : World ε) (c : Config) (i : SlotIdx) (nowMs : UInt32) (t : Sys ε) :
    Inbound → SlotIdx → AccessLevel → Prop
  | .hello (some h), j, r => Rejoins t i h j ∧ r = settledRole t.hub.pairing h (reattachAnswer w c i j h nowMs t)
  | .auth msg, j, r => j = i ∧ AuthRole w t i msg r
  | .pairReq (some m), j, r => j = i ∧ PairRole w t i nowMs m r
  | .intent (some m), j, r => Performed c t i m nowMs ∧ ∃ inst, Approves t i m inst j r
  | _, _, _ => False

/-- The role a step gives to the session of slot `j`. -/
def GivesRole (w : World ε) (c : Config) (s : Sys ε) : Move ε → SlotIdx → AccessLevel → Prop
  | .frame i (.frame seq msg), j, r => GivesAt w c i s.hub.monoMs.ms (heard w s i seq) msg j r
  | _, _, _ => False

/-- No session is given a role below what it was granted. -/
def KeepsGrants (w : World ε) (c : Config) (s : Sys ε) (m : Move ε) : Prop :=
  ∀ j r, GivesRole w c s m j r → (s.view.slots j).CoveredBy c r

/-- While a frame that gives a role is dispatched, the role covers the session's grants, also once the session of a
stale slot was moved to slot `i`. -/
structure Grounded (w : World ε) (c : Config) (i : SlotIdx) (nowMs : UInt32) (t : Sys ε) (msg : Inbound) (v : View) :
    Prop where
  granted : v.Granted c
  given : ∀ j r, GivesAt w c i nowMs t msg j r → (v.slots j).CoveredBy c r
  moved : ∀ h j r, msg = .hello (some h) → GivesAt w c i nowMs t msg j r → (v.slots i).state = .stale →
    (v.slots i).CoveredBy c r

/-- A frame that gives a role grants nothing. -/
theorem not_regrants {i : SlotIdx} {nowMs : UInt32} {t : Sys ε} {msg : Inbound} {j k : SlotIdx} {r : AccessLevel}
    (hg : GivesAt w c i nowMs t msg j r) (hl : FrameLabel w c i nowMs t msg l) (hk : k ≠ i ∨ ∀ b, l ≠ .migrate i b) :
    ¬l.Regrants k := by
  intro hre
  cases hl with
  | sends hl =>
    subst hl
    exact hre
  | hello hno => exact hno j hg.1
  | reattach _ hl =>
    cases l with
    | migrate a b =>
      obtain ⟨rfl, -⟩ := hl
      rcases hk with hk | hk
      · exact hk hre.symm
      · exact hk b rfl
    | subs | pubs => exact hl
    | _ => exact hre
  | subscribe hm => cases msg <;> first | exact hm | exact hg
  | catalogReady => exact hg
  | intent hl => cases l <;> first | exact hre | exact hl.elim fun _ h => h
  | stream | goodbye => exact hg
  | pairReq hl | auth hl => cases l <;> first | exact hre | exact hl

/-- Only a migration brings a stale session into the slot of a HELLO. -/
theorem Act.stale_cases {k : SlotIdx} (h : Act c now rx l v v') (hst : (v'.slots k).state = .stale) :
    (v.slots k).state = .stale ∨ l = .stale k ∨ ∃ j, l = .migrate k j := by
  have hset : ∀ (i : SlotIdx) (x : SlotView), ((v.set i x).slots k).state = .stale → (k = i ∧ x.state = .stale) ∨
      (v.slots k).state = .stale := by
    intro i x hx
    by_cases hk : k = i
    · subst hk
      rw [View.slots_set_self] at hx
      exact .inl ⟨rfl, hx⟩
    · rw [View.slots_set_ne v hk] at hx
      exact .inr hx
  cases h with
  | stale i =>
    rcases hset i _ hst with ⟨rfl, -⟩ | h
    · exact .inr (.inl rfl)
    · exact .inl h
  | migrate i j hrx hij =>
    rw [slots_migrate hij] at hst
    split at hst
    · rename_i hk
      subst hk
      exact .inr (.inr ⟨j, rfl⟩)
    · split at hst
      · cases hst
      · exact .inl hst
  | enrol i x _ _ _ _ _ _ _ hval =>
    rcases hset i x hst with ⟨-, hx⟩ | h
    · rw [hval] at hx
      cases hx
    · exact .inl h
  | free i | revive i | live i =>
    rcases hset i _ hst with ⟨-, hx⟩ | h
    · cases hx
    · exact .inl h
  | subs i | pubs i | role i | settle i | ready i | accept i | rx i | resume i | attach i | detach i =>
    rcases hset i _ hst with ⟨rfl, hx⟩ | h
    · exact .inl hx
    · exact .inl h
  | _ => exact .inl hst

/-- Only a HELLO that rejoins moves a session. -/
theorem rejoins_of_migrate {i a b : SlotIdx} {nowMs : UInt32} {t : Sys ε} {msg : Inbound}
    (hl : FrameLabel w c i nowMs t msg (.migrate a b)) : ∃ h, msg = .hello (some h) ∧ Rejoins t i h b := by
  cases hl with
  | sends hl => cases hl
  | @reattach h _ j hj hl =>
    obtain ⟨-, rfl⟩ := hl
    exact ⟨h, rfl, hj⟩
  | hello _ hl | subscribe _ hl => exact (hl.elim False.elim False.elim)
  | intent hl => exact hl.elim fun _ h => h.elim
  | stream hl | goodbye hl | pairReq hl | auth hl => exact hl.elim

theorem not_stale_of_hello {i k : SlotIdx} {nowMs : UInt32} {t : Sys ε} {h : Option HelloMsg}
    (hl : FrameLabel w c i nowMs t (.hello h) (.stale k)) : False := by
  cases hl with
  | sends hl => cases hl
  | reattach _ hl => exact hl
  | hello _ hl => exact hl.elim id id
  | subscribe hm => exact hm

theorem Grounded.act {i : SlotIdx} {nowMs : UInt32} {t : Sys ε} {msg : Inbound}
    (hl : FrameLabel w c i nowMs t msg l) (ha : Act c now rx l v v') (hv : Grounded w c i nowMs t msg v) :
    Grounded w c i nowMs t msg v' := by
  refine ⟨ha.granted hv.granted ?_, fun j r hg => ?_, fun h j r hm hg hst => ?_⟩
  · rintro k r (rfl | rfl)
    · refine hv.given k r ?_
      cases hl with
      | sends hl => cases hl
      | hello _ hl | subscribe _ hl => exact hl.elim False.elim False.elim
      | intent hl => exact hl
      | pairReq hl => exact hl
      | auth hl => exact hl
      | reattach _ hl | stream hl | goodbye hl => exact hl.elim
    · cases hl with
      | sends hl => cases hl
      | @reattach h _ j hj hl =>
        obtain ⟨rfl, hr⟩ := hl
        have hstale : (v.slots k).state = .stale := by
          cases ha with
          | resume _ _ _ _ _ _ hst => exact hst
        exact (hv.moved h j _ rfl ⟨hj, rfl⟩ hstale).mono hr
      | hello _ hl | subscribe _ hl => exact hl.elim False.elim False.elim
      | intent hl => exact hl.elim fun _ h => h.elim
      | stream hl | goodbye hl | pairReq hl | auth hl => exact hl.elim
  · refine ha.coveredBy (not_regrants hg hl ?_) (hv.given j r hg)
    by_cases hmig : ∃ b, l = .migrate i b
    · obtain ⟨b, rfl⟩ := hmig
      obtain ⟨h, rfl, hb⟩ := rejoins_of_migrate hl
      exact .inl (findSlotByInstance_some hg.1.1).1
    · exact .inr fun b hb => hmig ⟨b, hb⟩
  · subst hm
    rcases ha.stale_cases hst with hold | rfl | ⟨b, rfl⟩
    · by_cases hmig : ∃ b, l = .migrate i b
      · obtain ⟨b, rfl⟩ := hmig
        obtain ⟨h', -, hb⟩ := rejoins_of_migrate hl
        cases ha with
        | migrate _ _ _ _ hfree => exact absurd (occupied_stale hold) hfree
      · refine ha.coveredBy (not_regrants hg hl (.inr fun b hb => hmig ⟨b, hb⟩)) (hv.moved h j r rfl hg hold)
    · exact (not_stale_of_hello hl).elim
    · obtain ⟨h', he, hb⟩ := rejoins_of_migrate hl
      cases he
      have hbj : b = j := Option.some.inj (hb.1.symm.trans hg.1.1)
      subst hbj
      have hcov := hv.given b r hg
      cases ha with
      | migrate _ _ _ hij =>
        rw [slots_migrate hij, if_pos rfl]
        exact ⟨hcov.subs, hcov.pubs, hcov.events⟩

/-- Reading a frame touches neither grants nor roles. -/
theorem heard_coveredBy {i : SlotIdx} {seq : UInt16} {j : SlotIdx} {r : AccessLevel}
    (hj : (s.view.slots j).CoveredBy c r) : ((heard w s i seq).view.slots j).CoveredBy c r := by
  refine (heard_does (w := w) (c := c) i seq s).invariant (I := fun v => (v.slots j).CoveredBy c r) ?_ hj
  intro l v v' hl ha hv
  refine ha.coveredBy ?_ hv
  cases l <;> first | exact id | exact hl.elim

theorem heard_granted {i : SlotIdx} {seq : UInt16} (hs : s.view.Granted c) : (heard w s i seq).view.Granted c := by
  refine (heard_does (w := w) (c := c) i seq s).invariant (I := View.Granted c) ?_ hs
  intro l v v' hl ha hv
  refine ha.granted hv ?_
  rintro k r (rfl | rfl) <;> exact hl.elim

/-- **A step that gives no role below a session's grants keeps every role above its grants.** -/
theorem granted_move {m : Move ε} (hok : m.Enabled s) (hd : s.view.Distinct) (hm : KeepsGrants w c s m)
    (hs : s.view.Granted c) : (move w c s m).view.Granted c := by
  by_cases hframe : ∃ i seq msg, m = .frame i (.frame seq msg)
  · obtain ⟨i, seq, msg, rfl⟩ := hframe
    have hstart : Grounded w c i s.hub.monoMs.ms (heard w s i seq) msg (heard w s i seq).view :=
      ⟨heard_granted hs, fun j r hg => heard_coveredBy (hm j r hg), fun _ _ _ _ _ hst => absurd hst (state_heard i seq s)⟩
    have hend := (dispatched_does seq msg hd hok).invariant (fun l v v' hl ha => Grounded.act hl ha) hstart
    exact hend.granted
  · refine Path.invariant (I := View.Granted c) (move_does hd hok) ?_ hs
    intro l v v' hl ha hv
    refine ha.granted hv fun k r hrole => ?_
    have hf : l.Framed := by rcases hrole with rfl | rfl <;> exact trivial
    obtain ⟨i, seq, msg, rfl, -⟩ := frame_of_moveLabel hl hf
    exact absurd ⟨i, seq, msg, rfl⟩ hframe

theorem reachBy_granted (h : ReachBy w c (KeepsGrants w c) s) : s.view.Granted c := by
  refine h.preserves (I := fun t => t.view.Granted c) (fun e => ?_) fun t m hok hm hd => granted_move hok hd hm
  obtain ⟨r, hr⟩ := view_boot (w := w) (c := c) e
  rw [hr]
  exact ⟨fun _ => SlotView.coveredBy_bare ⟨rfl, rfl, rfl⟩, fun _ hx => absurd hx List.not_mem_nil⟩

/-! ## Grants never outlive their role -/

/-- Nothing a session was granted, was sent or sent itself is above its role. -/
structure WithinRole (c : Config) (s : Sys ε) : Prop where
  subs : ∀ i, (s.session i).occupied = true → ∀ ch ∈ (s.session i).subs.channels,
    MaySubscribe c (s.session i).role ch
  pubs : ∀ i, (s.session i).occupied = true → ∀ ch ∈ (s.session i).publishGrants.channels,
    MayPublish c (s.session i).role ch
  states : ∀ g i t ch seq payload ok, (g, Io.write i t .state ch seq payload ok) ∈ s.trace →
    MaySubscribe c (g.slots i).session.role ch
  events : ∀ g i t ch seq payload ok, (g, Io.write i t .event ch seq payload ok) ∈ s.trace →
    MaySubscribe c (g.slots i).session.role ch
  bundles : ∀ g i ch src, (g, Io.delivered i ch src) ∈ s.trace → MaySubscribe c (g.slots i).session.role ch

/-- **Grants never outlive the role that earned them**, in every run whose steps give no session a role below what
it holds. -/
theorem grants_within_role (h : ReachBy w c (KeepsGrants w c) s) : WithinRole c s := by
  have hg := reachBy_granted h
  have hsent : ∀ x y, x ∈ s.trace → sentOf x = some y → MaySubscribe c y.role y.channel :=
    fun x y hx hy => hg.sent y (List.mem_filterMap.mpr ⟨x, hx, hy⟩)
  refine ⟨fun i _ => (hg.slots i).subs, fun i _ => (hg.slots i).pubs, ?_, ?_, ?_⟩
  · intro g i t ch seq payload ok hx
    exact hsent _ _ hx rfl
  · intro g i t ch seq payload ok hx
    exact hsent _ _ hx rfl
  · intro g i ch src hx
    exact hsent _ _ hx rfl

end

/-- A client that subscribes to a channel that needs configure. -/
def Bench.watcher : HelloMsg := { Bench.hello 1 with subscriptions := [{ channelId := 0x0101 }] }

/-- The hub it says hello to, which trusts it with configure. -/
def Bench.welcoming : Sys Bench :=
  [.host (.world { answer := .configure }), .host (.attachTransport 0), .tick 1000].foldl
    (move Bench.world Bench.config) (boot Bench.world Bench.config {})

/-- It lost its link and has another one; now it would be trusted with this role. -/
def Bench.returned (again : AccessLevel) : Sys Bench :=
  [.frame 0 (.frame 0 (.hello (some Bench.watcher))), .host (.detachTransport 0),
    .host (.world { answer := again, draws := 1 }), .host (.attachTransport 1)].foldl
    (move Bench.world Bench.config) Bench.welcoming

/-- It says hello again. -/
def Bench.rejoined (again : AccessLevel) : Sys Bench :=
  move Bench.world Bench.config (Bench.returned again) (.frame 1 (.frame 0 (.hello (some Bench.watcher))))

theorem rejoined_keepsGrants :
    ReachBy Bench.world Bench.config (KeepsGrants Bench.world Bench.config) (Bench.rejoined .configure) := by
  have hquiet : ∀ (s : Sys Bench) k, KeepsGrants Bench.world Bench.config s (.host k) := fun _ _ _ _ h => h.elim
  have hstart : Steps Bench.world Bench.config (KeepsGrants Bench.world Bench.config)
      (boot Bench.world Bench.config {}) Bench.welcoming := by
    refine Allowed.steps ⟨(fun _ _ h => nomatch h), hquiet _ _, (fun _ _ h => nomatch h), hquiet _ _, trivial, ?_, trivial⟩
    exact fun _ _ h => h.elim
  have hback : Steps Bench.world Bench.config (KeepsGrants Bench.world Bench.config) Bench.welcoming
      (Bench.returned .configure) := by
    refine Allowed.steps ⟨?_, ?_, (fun _ _ h => nomatch h), hquiet _ _, (fun _ _ h => nomatch h), hquiet _ _,
      (fun _ _ h => nomatch h), hquiet _ _, trivial⟩
    · have hlink : (Bench.welcoming.slot 0).transport.isSome = true := by decide +kernel
      exact hlink
    · rintro j r ⟨⟨hj, -⟩, -⟩
      have hnone : findSlotByInstance (heard Bench.world Bench.welcoming 0 0).hub Bench.watcher.instanceId 0 = none := by
        decide +kernel
      exact nomatch hnone.symm.trans hj
  refine ⟨{}, (hstart.trans hback).trans (Steps.one (m := .frame 1 (.frame 0 (.hello (some Bench.watcher)))) ?_ ?_)⟩
  · have hlink : ((Bench.returned .configure).slot 1).transport.isSome = true := by decide +kernel
    exact hlink
  · rintro j r ⟨⟨hj, -⟩, hr⟩
    -- the session in slot 0 is given configure again
    have hzero : findSlotByInstance (heard Bench.world (Bench.returned .configure) 1 0).hub Bench.watcher.instanceId 1 =
        some 0 := by decide +kernel
    obtain rfl : j = 0 := Option.some.inj (hj.symm.trans hzero)
    have hrole : settledRole (heard Bench.world (Bench.returned .configure) 1 0).hub.pairing Bench.watcher
        (reattachAnswer Bench.world Bench.config 1 0 Bench.watcher (Bench.returned .configure).hub.monoMs.ms
          (heard Bench.world (Bench.returned .configure) 1 0)) = .configure := by decide +kernel
    obtain rfl : r = .configure := hr.trans hrole
    have hsubs : ((Bench.returned .configure).view.slots 0).subs = [0x0101] := by decide +kernel
    have hrest : ((Bench.returned .configure).view.slots 0).pubs = [] ∧
        ((Bench.returned .configure).view.slots 0).events = [] := by decide +kernel
    refine ⟨fun ch hch => ?_, fun ch hch => ?_, fun ch hch => ?_⟩
    · rw [hsubs, List.mem_singleton] at hch
      subst hch
      exact ⟨_, rfl, by decide⟩
    · rw [hrest.1] at hch
      cases hch
    · rw [hrest.2] at hch
      cases hch

/-- A client that comes back with its old role has its subscription, and the role for it. -/
theorem grants_within_role_rejoined :
    ((Bench.rejoined .configure).session 1).subs.channels = [0x0101] ∧
      MaySubscribe Bench.config ((Bench.rejoined .configure).session 1).role 0x0101 := by
  have hocc : ((Bench.rejoined .configure).session 1).occupied = true := by decide +kernel
  have hsubs : ((Bench.rejoined .configure).session 1).subs.channels = [0x0101] := by decide +kernel
  refine ⟨hsubs, (grants_within_role rejoined_keepsGrants).subs 1 hocc 0x0101 ?_⟩
  rw [hsubs]
  exact List.mem_singleton.mpr rfl

/-- The same client, no longer trusted, comes back to watch: it keeps a subscription that needs configure. -/
def Bench.demoted : List (Call Bench) :=
  [.world { answer := .configure }, .attachTransport 0, Bench.reads 1000 0 [.hello (some Bench.watcher)],
    .detachTransport 0, .world { answer := .watch, draws := 1 }, .attachTransport 1,
    Bench.reads 2000 1 [.hello (some Bench.watcher)]]

theorem grants_outlive_role :
    ¬∀ s : Sys Bench, Reachable Bench.world Bench.config s → WithinRole Bench.config s := by
  intro h
  have hw := h (run Bench.world Bench.config {} Bench.demoted) ⟨{}, Bench.demoted, rfl⟩
  have hocc : ((run Bench.world Bench.config {} Bench.demoted).session 1).occupied = true := by decide +kernel
  have hrole : ((run Bench.world Bench.config {} Bench.demoted).session 1).role = .watch := by decide +kernel
  have hsub : (0x0101 : UInt16) ∈ ((run Bench.world Bench.config {} Bench.demoted).session 1).subs.channels := by
    decide +kernel
  obtain ⟨e, he, hle⟩ := hw.subs 1 hocc 0x0101 hsub
  rw [hrole] at hle
  cases he
  exact absurd hle (by decide)

end SlopSync
