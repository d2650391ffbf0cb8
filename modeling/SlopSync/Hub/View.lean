import Mathlib.Data.Fintype.Card
import Mathlib.Logic.Function.Basic
import SlopSync.Hub.Emits
import SlopSync.Hub.Lifecycle
import SlopSync.Labelled

/-! # What the hub is for

An abstract hub: a table of sessions, who owns each source, what is retained, the safety latch and the trust
ledger, together with what it has handed out (session ids, frames, acceptances).  `Act` lists everything that can
happen to it.  Each act carries its guard: what must be true for the hub to be allowed to take it.

`Sys.view` reads the abstract hub off the model; the modules that follow show that every call of the hub is a run
of acts. -/

namespace SlopSync

open Keyed Labelled

/-! ## Abstract state -/

/-- What the laws look at in a slot. -/
structure SlotView where
  transport : Option TransportId := none
  state : HubSessionState := .free
  sessionId : UInt32 := 0
  instanceId : InstanceId := ByteArr.zero 8
  role : AccessLevel := .watch
  ready : Bool := false
  grantedAtMs : UInt32 := 0
  lastRxMs : UInt32 := 0
  deadmanMs : UInt32 := Limits.deadmanDefaultMs
  subs : List UInt16 := []      -- channels subscribed
  pubs : List UInt16 := []      -- channels it may publish to
  events : List UInt16 := []    -- channels of the queued events
  ring : IntentRing := {}

namespace SlotView

/-- A slot that holds a session. -/
def occupied (v : SlotView) : Prop := v.state ≠ .free ∧ v.state ≠ .closed

instance (v : SlotView) : Decidable v.occupied := inferInstanceAs (Decidable (_ ∧ _))

/-- The slot after its session ended. -/
def cleared (v : SlotView) : SlotView := { transport := v.transport }

theorem not_occupied_cleared (v : SlotView) : ¬v.cleared.occupied := fun h => h.1 rfl

end SlotView

/-- A STATE or EVENT frame that went out or a bundle that was delivered: its channel, and its session then. -/
structure Sent where
  channel : UInt16
  role : AccessLevel
  ready : Bool
  owns : Bool                   -- the source of a bundle's channel

/-- An intent the delegate was asked to apply: its channel, and its session then. -/
structure Applied where
  channel : UInt16
  ready : Bool
  owns : Bool                   -- the source of the channel

/-- What the delegate was told about a source, and what the hub looked like then. -/
structure Told where
  src : UInt8
  owner : UInt32
  reason : UInt8
  role : AccessLevel            -- the one recorded for the owner
  slots : SlotIdx → SlotView

/-- What the laws look at in the hub, and in the history of what it did. -/
@[ext]
structure View where
  slots : SlotIdx → SlotView
  owner : UInt8 → UInt32
  retained : RetainedStore
  safety : SafetyState
  pairing : PairingManager
  cfgGen : UInt16
  drawn : List UInt32                     -- session ids, newest first
  sent : List Sent
  accepted : List UInt32                  -- sessions of the accepted intents
  reads : List SlotIdx                    -- the slots whose frames were read
  clock : MonotonicMs
  ownerRole : UInt8 → AccessLevel         -- of the owner when it took the source
  told : List Told
  lost : List SlotIdx                     -- sends that found no transport
  applied : List Applied

namespace View

/-- The view with one slot changed. -/
def set (v : View) (i : SlotIdx) (x : SlotView) : View := { v with slots := Function.update v.slots i x }

@[simp] theorem slots_set_self (v : View) (i : SlotIdx) (x : SlotView) : (v.set i x).slots i = x := by
  simp [set]

theorem slots_set_ne (v : View) {i j : SlotIdx} (h : j ≠ i) (x : SlotView) : (v.set i x).slots j = v.slots j := by
  simp [set, h]

/-- The slot's session owns no source. -/
def Unowned (v : View) (i : SlotIdx) : Prop := ∀ src, v.owner src ≠ 0 → v.owner src ≠ (v.slots i).sessionId

/-- Sessions in use in the other slots. -/
def others (v : View) (i : SlotIdx) : Finset SlotIdx :=
  Finset.univ.filter fun j => j ≠ i ∧ (v.slots j).occupied

/-- The channel is one the slot's session takes part in. -/
def Concerns (v : View) (i : SlotIdx) (ch : UInt16) : Prop :=
  ch ∈ (v.slots i).events ∨ ch ∈ (v.slots i).subs ∨ ch ∈ (v.slots i).pubs

end View

/-- Before anything happened. -/
def View.fresh : View where
  slots _ := {}
  owner _ := 0
  retained := {}
  safety := {}
  pairing := {}
  cfgGen := 1
  drawn := []
  sent := []
  accepted := []
  reads := []
  clock := {}
  ownerRole _ := .watch
  told := []
  lost := []
  applied := []

/-- Retaining a payload; a full store stays as it is. -/
def publishOr (r : RetainedStore) (ch : UInt16) (payload : Bytes) : RetainedStore :=
  ((r.publish ch payload).map Prod.fst).getD r

/-- The owners as they are announced: four sources, each with the session that owns it. -/
def ownerPayload (owner : UInt8 → UInt32) : Bytes :=
  ([0, 1, 2, 3] : List UInt8).flatMap fun src => src :: le32 (owner src)

/-- The store after the control-owner snapshot was published. -/
def snapshotOwners (c : Config) (r : RetainedStore) (owner : UInt8 → UInt32) : RetainedStore :=
  if (c.catalog.find Channels.controlOwner).isNone then r
  else publishOr r Channels.controlOwner (ownerPayload owner)

/-- The owners once a session has released what it owns. -/
def clearedOf (owner : UInt8 → UInt32) (sid : UInt32) : UInt8 → UInt32 :=
  fun src => if owner src = sid then 0 else owner src

/-- The source goes to the session of slot `i`. -/
def View.hand (v : View) (c : Config) (i : SlotIdx) (src : UInt8) (reason : UInt8) : View :=
  { v with
    owner := Function.update v.owner src (v.slots i).sessionId
    ownerRole := Function.update v.ownerRole src (v.slots i).role
    told := ⟨src, (v.slots i).sessionId, reason, (v.slots i).role, v.slots⟩ :: v.told
    retained := snapshotOwners c v.retained (Function.update v.owner src (v.slots i).sessionId) }

/-! ## Credentials -/

/-- The credential of `e'` is no more than that of `e`. -/
structure PairedEntry.Backs (e e' : PairedEntry) : Prop where
  inst : e'.instanceId = e.instanceId
  token : e'.token = e.token
  role : e'.role = e.role
  trusted : e'.state = .trusted → e.state = .trusted

/-- The ledger has an entry that backs `e'`. -/
def PairingManager.Vouches (p : PairingManager) (e' : PairedEntry) : Prop :=
  ∃ e, some e ∈ p.entries.slots ∧ e.Backs e'

/-- What the two windows are made of. -/
structure PairingWindows where
  pin : Bytes
  windowOpenedMs : UInt32
  presenceOpenedMs : UInt32
  windowOpenFlag : Bool
  presenceOpenFlag : Bool
  failCount : UInt8

/-- The windows of the ledger. -/
def PairingManager.windows (p : PairingManager) : PairingWindows :=
  ⟨p.pin, p.windowOpenedMs, p.presenceOpenedMs, p.windowOpenFlag, p.presenceOpenFlag, p.failCount⟩

/-- A change of the ledger that makes no credential: labels, suspensions, revocations, counters. -/
structure PairingManager.Keeps (p q : PairingManager) : Prop where
  vouched : ∀ e', some e' ∈ q.entries.slots → p.Vouches e'
  windows : q.windows = p.windows
  pending : q.pending = p.pending

/-- A change of the ledger that makes at most a credential of `inst` with `role`. -/
structure PairingManager.Mints (p : PairingManager) (inst : InstanceId) (role : AccessLevel) (q : PairingManager) :
    Prop where
  vouched : ∀ e', some e' ∈ q.entries.slots → p.Vouches e' ∨ (e'.instanceId = inst ∧ e'.role = role)
  windows : q.windows = p.windows
  pending : q.pending = p.pending

/-- A knock of the session `sid` for the instance `inst`, made at `now`. -/
structure PendingKnock.From (k : PendingKnock) (inst : InstanceId) (sid now : UInt32) : Prop where
  inst : k.instanceId = inst
  sid : k.sessionId = sid
  expires : k.expiresAtMs = now + Limits.pairingWindowDefaultS * 1000

/-! ## Acts -/

/-- The kinds of acts: each names the slot it is about. -/
inductive Label
  | chatter
  | subs (i : SlotIdx) | pubs (i : SlotIdx) | role (i : SlotIdx) (r : AccessLevel) | settle (i : SlotIdx)
  | ready (i : SlotIdx)
  | apply (i : SlotIdx) | accept (i : SlotIdx)
  | rx (i : SlotIdx) | revive (i : SlotIdx) | stale (i : SlotIdx) | live (i : SlotIdx)
  | free (i : SlotIdx) | enrol (i : SlotIdx) (ready : Bool) | migrate (i j : SlotIdx) | resume (i : SlotIdx) (r : AccessLevel)
  | attach (i : SlotIdx) (t : TransportId) | detach (i : SlotIdx)
  | acquire (i : SlotIdx) (takeover : Bool) | release (i : SlotIdx) (reason : UInt8)
  | safety | clear | retain (ch : UInt16)
  | knocks | knock (i : SlotIdx) | ledger | mint (inst : InstanceId) (r : AccessLevel)
  | window | narrow | restore
  | cfg | tick | lost (i : SlotIdx)
  deriving DecidableEq

/-- Subscribable by a session of this role. -/
def MaySubscribe (c : Config) (role : AccessLevel) (ch : UInt16) : Prop :=
  ∃ e, c.catalog.find ch = some e ∧ e.access ≤ role

/-- A c2h STREAM channel open to a session of this role. -/
def MayPublish (c : Config) (role : AccessLevel) (ch : UInt16) : Prop :=
  ∃ e, c.catalog.find ch = some e ∧ e.access ≤ role ∧ e.cls = .stream ∧ e.dir = .c2h

/-- What can happen at hub time `now` while the hub handles a frame of slot `rx` (`none`: no frame). -/
inductive Act (c : Config) (now : UInt32) (rx : Option SlotIdx) : Label → View → View → Prop
  /-- Events are queued for subscribers and frames go out, to ready sessions. -/
  | chatter {v : View} (q : SlotIdx → List UInt16) (l : List Sent)
      (hq : ∀ i, ∀ ch ∈ q i, ch ∈ (v.slots i).events ∨ ((v.slots i).occupied ∧ ch ∈ (v.slots i).subs))
      (hl : ∀ x ∈ l, ∃ i, v.Concerns i x.channel ∧ x.role = (v.slots i).role ∧ (v.slots i).ready = true ∧
        x.ready = true ∧ x.owns = true) :
      Act c now rx .chatter v
        { v with slots := fun i => { v.slots i with events := q i }, sent := l ++ v.sent }
  | subs {v : View} (i : SlotIdx) (l : List UInt16)
      (h : ∀ ch ∈ l, ch ∈ (v.slots i).subs ∨ MaySubscribe c (v.slots i).role ch) :
      Act c now rx (.subs i) v (v.set i { v.slots i with subs := l })
  | pubs {v : View} (i : SlotIdx) (l : List UInt16)
      (h : ∀ ch ∈ l, ch ∈ (v.slots i).pubs ∨ MayPublish c (v.slots i).role ch) :
      Act c now rx (.pubs i) v (v.set i { v.slots i with pubs := l })
  | role {v : View} (i : SlotIdx) (r : AccessLevel) :
      Act c now rx (.role i r) v (v.set i { v.slots i with role := r })
  /-- The role of a session that was granted nothing yet. -/
  | settle {v : View} (i : SlotIdx) (r : AccessLevel)
      (h : (v.slots i).subs = [] ∧ (v.slots i).pubs = [] ∧ (v.slots i).events = []) :
      Act c now rx (.settle i) v (v.set i { v.slots i with role := r })
  | ready {v : View} (i : SlotIdx) : Act c now rx (.ready i) v (v.set i { v.slots i with ready := true })
  /-- The delegate is asked to apply an intent of a ready session that owns the channel's source. -/
  | apply {v : View} (i : SlotIdx) (x : Applied) (hrx : rx = some i) (hready : (v.slots i).ready = true)
      (hx : x.ready = true ∧ x.owns = true) : Act c now rx (.apply i) v { v with applied := x :: v.applied }
  /-- An intent the ring does not know is accepted. -/
  | accept {v : View} (i : SlotIdx) (id : UInt16) (ring : IntentRing) (hnew : (v.slots i).ring.lookup id = none)
      (h : ring = (v.slots i).ring ∨ ∃ bytes, (v.slots i).ring.store id bytes = some ring) :
      Act c now rx (.accept i) v
        { v.set i { v.slots i with ring } with accepted := (v.slots i).sessionId :: v.accepted }
  /-- A frame is read, and stamps its session. -/
  | rx {v : View} (i : SlotIdx) (ms : UInt32) (hrx : rx = some i) (h : (v.slots i).occupied → ms = now) :
      Act c now rx (.rx i) v { v.set i { v.slots i with lastRxMs := ms } with reads := i :: v.reads }
  | revive {v : View} (i : SlotIdx) (hrx : rx = some i) (hst : (v.slots i).state = .stale)
      (hlast : (v.slots i).lastRxMs = now) : Act c now rx (.revive i) v (v.set i { v.slots i with state := .live })
  /-- A session goes stale only after it gave up its sources. -/
  | stale {v : View} (i : SlotIdx) (hocc : (v.slots i).occupied) (hun : v.Unowned i) :
      Act c now rx (.stale i) v (v.set i { v.slots i with state := .stale })
  /-- A session goes live only on the transport whose frame is being handled. -/
  | live {v : View} (i : SlotIdx) (hrx : rx = some i) (hocc : (v.slots i).occupied)
      (hlast : (v.slots i).lastRxMs = now) (ht : (v.slots i).transport.isSome) :
      Act c now rx (.live i) v (v.set i { v.slots i with state := .live })
  /-- A session ends only after it gave up its sources. -/
  | free {v : View} (i : SlotIdx) (hun : (v.slots i).occupied → v.Unowned i) :
      Act c now rx (.free i) v (v.set i (v.slots i).cleared)
  /-- A session is opened in a free slot, under a fresh id, next to at most three others. -/
  | enrol {v : View} (i : SlotIdx) (x : SlotView) (hrx : rx = some i) (hfree : ¬(v.slots i).occupied)
      (ht : (v.slots i).transport.isSome) (hsid : x.sessionId ≠ 0)
      (hinst : ∀ j, j ≠ i → (v.slots j).occupied → (v.slots j).instanceId ≠ x.instanceId)
      (hroom : (v.others i).card < kHubMaxSessions)
      (htr : x.transport = (v.slots i).transport) (hst : x.state = .validating) (hlast : x.lastRxMs = now)
      (hgr : x.grantedAtMs = now) (hdead : x.deadmanMs ≤ Limits.deadmanMaxMs)
      (hgrants : x.subs = [] ∧ x.pubs = [] ∧ x.events = []) :
      Act c now rx (.enrol i x.ready) v { v.set i x with drawn := x.sessionId :: v.drawn }
  /-- A stale session without a transport moves to the slot whose frame is being handled. -/
  | migrate {v : View} (i j : SlotIdx) (hrx : rx = some i) (hij : i ≠ j) (hfree : ¬(v.slots i).occupied)
      (ht : (v.slots i).transport.isSome) (hst : (v.slots j).state = .stale)
      (htj : (v.slots j).transport = none) :
      Act c now rx (.migrate i j) v
        ((v.set j (v.slots j).cleared).set i { v.slots j with transport := (v.slots i).transport })
  /-- A stale session is given a role; it may lose its readiness, and counts as heard from then on or as before. -/
  | resume {v : View} (i : SlotIdx) (r : AccessLevel) (ready : Bool) (grantedAtMs lastRxMs : UInt32) (hrx : rx = some i)
      (hst : (v.slots i).state = .stale)
      (h : (ready = (v.slots i).ready ∧ grantedAtMs = (v.slots i).grantedAtMs) ∨
        (ready = false ∧ grantedAtMs = now))
      (hlast : lastRxMs = (v.slots i).lastRxMs ∨ lastRxMs = now) :
      Act c now rx (.resume i r) v (v.set i { v.slots i with role := r, ready, grantedAtMs, lastRxMs })
  | attach {v : View} (i : SlotIdx) (t : TransportId) (hfree : ¬(v.slots i).occupied)
      (hnone : (v.slots i).transport = none) :
      Act c now rx (.attach i t) v (v.set i { v.slots i with transport := some t })
  | detach {v : View} (i : SlotIdx) (h : (v.slots i).occupied → (v.slots i).state = .stale) :
      Act c now rx (.detach i) v (v.set i { v.slots i with transport := none })
  /-- The session whose frame is being handled takes a source: a free one, or by a takeover one whose owner had no
  higher role. -/
  | acquire {v : View} (i : SlotIdx) (src : UInt8) (takeover : Bool) (hrx : rx = some i) (hocc : (v.slots i).occupied)
      (hst : (v.slots i).state ≠ .stale) (hready : (v.slots i).ready = true)
      (hfree : takeover = false → v.owner src = 0)
      (hover : takeover = true → v.owner src ≠ 0 ∧ v.owner src ≠ (v.slots i).sessionId ∧
        v.ownerRole src ≤ (v.slots i).role) :
      Act c now rx (.acquire i takeover) v (v.hand c i src (if takeover then 1 else 0))
  /-- The session of slot `i` gives up all its sources, and the delegate is told of each. -/
  | release {v : View} (i : SlotIdx) (reason : UInt8) (srcs : List UInt8) (retained : RetainedStore)
      (hocc : (v.slots i).occupied) (hnd : srcs.Nodup) (hsrcs : ∀ src ∈ srcs, v.owner src = (v.slots i).sessionId)
      (hall : (v.slots i).sessionId ≠ 0 → ∀ src, v.owner src = (v.slots i).sessionId → src ∈ srcs)
      (h : retained = snapshotOwners c v.retained (clearedOf v.owner (v.slots i).sessionId) ∨
        (retained = v.retained ∧ clearedOf v.owner (v.slots i).sessionId = v.owner)) :
      Act c now rx (.release i reason) v
        { v with owner := clearedOf v.owner (v.slots i).sessionId, retained
                 ownerRole := fun src => if src ∈ srcs then .watch else v.ownerRole src
                 told := srcs.map (fun src => ⟨src, 0, reason, .watch, v.slots⟩) ++ v.told }
  /-- Any change of the latch but clearing ESTOP. -/
  | safety {v : View} (st : SafetyState)
      (h : v.safety.word &&& SafetyBits.estop ≠ 0 → st.word &&& SafetyBits.estop ≠ 0) :
      Act c now rx .safety v
        { v with safety := st, retained := publishOr v.retained Channels.safety (buildSafetyPayload st) }
  | clear {v : View} (st : SafetyState) :
      Act c now rx .clear v
        { v with safety := st, retained := publishOr v.retained Channels.safety (buildSafetyPayload st) }
  | retain {v : View} (ch : UInt16) (payload : Bytes) :
      Act c now rx (.retain ch) v { v with retained := publishOr v.retained ch payload }
  /-- Knocks are dropped. -/
  | knocks {v : View} (l : PendingPairingList) (h : ∀ k, some k ∈ l.slots → some k ∈ v.pairing.pending.slots) :
      Act c now rx .knocks v { v with pairing := { v.pairing with pending := l } }
  /-- The session whose frame is being handled knocks, for its own instance. -/
  | knock {v : View} (i : SlotIdx) (l : PendingPairingList) (hrx : rx = some i)
      (h : ∀ k, some k ∈ l.slots → some k ∈ v.pairing.pending.slots ∨
        k.From (v.slots i).instanceId (v.slots i).sessionId now) :
      Act c now rx (.knock i) v { v with pairing := { v.pairing with pending := l } }
  | ledger {v : View} (p : PairingManager) (h : v.pairing.Keeps p) : Act c now rx .ledger v { v with pairing := p }
  | mint {v : View} (inst : InstanceId) (r : AccessLevel) (p : PairingManager) (h : v.pairing.Mints inst r p) :
      Act c now rx (.mint inst r) v { v with pairing := p }
  /-- The presence window is opened. -/
  | window {v : View} (p : PairingManager) (h : p.entries = v.pairing.entries) (hp : p.pending = v.pairing.pending) :
      Act c now rx .window v { v with pairing := p }
  /-- A window is closed, or the wrong proofs are counted. -/
  | narrow {v : View} (pin presence : Bool) (n : UInt8) (hpin : pin = true → v.pairing.windowOpenFlag = true)
      (hpresence : presence = true → v.pairing.presenceOpenFlag = true) : Act c now rx .narrow v
        { v with pairing :=
          { v.pairing with windowOpenFlag := pin, presenceOpenFlag := presence, failCount := n } }
  /-- The host puts a manager of its own in place. -/
  | restore {v : View} (p : PairingManager) : Act c now rx .restore v { v with pairing := p }
  | cfg {v : View} : Act c now rx .cfg v { v with cfgGen := v.cfgGen + 1 }
  | tick {v : View} (m : MonotonicMs) : Act c now rx .tick v { v with clock := m }
  /-- A send finds no transport. -/
  | lost {v : View} (i : SlotIdx) : Act c now rx (.lost i) v { v with lost := i :: v.lost }

/-! ## What acts leave alone -/

/-- Who holds the slot, on which link, and when it was last heard. -/
def SlotView.link (v : SlotView) : Option TransportId × HubSessionState × UInt32 × InstanceId × UInt32 :=
  (v.transport, v.state, v.sessionId, v.instanceId, v.lastRxMs)

/-- The link of a slot is what identifies its session. -/
theorem SlotView.link_inj {x y : SlotView} (h : x.link = y.link) : x.transport = y.transport ∧ x.state = y.state ∧
    x.sessionId = y.sessionId ∧ x.instanceId = y.instanceId ∧ x.lastRxMs = y.lastRxMs := by
  simpa only [SlotView.link, Prod.mk.injEq] using h

/-- Whether it is occupied is part of it. -/
theorem SlotView.occupied_of_link {x y : SlotView} (h : x.link = y.link) : x.occupied ↔ y.occupied := by
  unfold SlotView.occupied
  rw [(link_inj h).2.1]

/-- The act is no part of the life of slot `j`'s session. -/
def Label.Keeps (j : SlotIdx) : Label → Prop
  | .rx i | .revive i | .stale i | .live i | .free i | .enrol i _ | .resume i _ | .attach i _ | .detach i => i ≠ j
  | .migrate i k => i ≠ j ∧ k ≠ j
  | _ => True

/-- A slot changed elsewhere keeps its link. -/
theorem link_set {v : View} {i j : SlotIdx} {x : SlotView} (h : i = j → x.link = (v.slots j).link) :
    ((v.set i x).slots j).link = (v.slots j).link := by
  by_cases hj : i = j
  · subst hj
    rw [View.slots_set_self]
    exact h rfl
  · rw [View.slots_set_ne v (Ne.symm hj)]

/-- An act that keeps a slot keeps its link. -/
theorem Act.link_eq {c : Config} {now : UInt32} {rx : Option SlotIdx} {l : Label} {v v' : View} {j : SlotIdx}
    (hl : l.Keeps j) (h : Act c now rx l v v') : (v'.slots j).link = (v.slots j).link := by
  cases h with
  | rx i | revive i | stale i | live i | free i | enrol i | resume i | attach i | detach i =>
    exact link_set fun h => absurd h hl
  | migrate i k =>
    rw [link_set fun h => absurd h hl.1, link_set fun h => absurd h hl.2]
  | subs i | pubs i | role i | settle i | ready i | accept i => exact link_set fun h => by subst h; rfl
  | _ => rfl

/-- The act does not touch the ring of slot `j`. -/
def Label.KeepsRing (j : SlotIdx) : Label → Prop
  | .accept i | .free i | .enrol i _ => i ≠ j
  | .migrate i k => i ≠ j ∧ k ≠ j
  | _ => True

/-- A slot changed elsewhere keeps its ring. -/
theorem ring_set {v : View} {i j : SlotIdx} {x : SlotView} (h : i = j → x.ring = (v.slots j).ring) :
    ((v.set i x).slots j).ring = (v.slots j).ring := by
  by_cases hj : i = j
  · subst hj
    rw [View.slots_set_self]
    exact h rfl
  · rw [View.slots_set_ne v (Ne.symm hj)]

/-- An act that keeps a slot's ring keeps it. -/
theorem Act.ring_eq {c : Config} {now : UInt32} {rx : Option SlotIdx} {l : Label} {v v' : View} {j : SlotIdx}
    (hl : l.KeepsRing j) (h : Act c now rx l v v') : (v'.slots j).ring = (v.slots j).ring := by
  cases h with
  | accept i | free i | enrol i => exact ring_set fun h => absurd h hl
  | migrate i k => rw [ring_set fun h => absurd h hl.1, ring_set fun h => absurd h hl.2]
  | rx i | revive i | stale i | live i | resume i | attach i | detach i | subs i | pubs i | role i | settle i
  | ready i => exact ring_set fun h => by subst h; rfl
  | _ => rfl

/-! ## The view of the model -/

/-- The view of a slot. -/
def slotView (sl : Slot) : SlotView where
  transport := sl.transport
  state := sl.session.state
  sessionId := sl.session.sessionId
  instanceId := sl.session.instanceId
  role := sl.session.role
  ready := sl.session.ready
  grantedAtMs := sl.session.grantedAtMs
  lastRxMs := sl.session.lastRxMs
  deadmanMs := sl.session.deadmanMs
  subs := sl.session.subs.channels
  pubs := sl.session.publishGrants.channels
  events := sl.session.events.queued.map QueuedEvent.channelId
  ring := sl.session.intentRing

/-- The session id an entry of the history drew. -/
def drawnOf : Hub × Io → Option UInt32
  | (_, .drewSession sid) => some sid
  | _ => none

/-- The slot's session owns the source of a mapped channel. -/
def ownsMapped (h : Hub) (i : SlotIdx) (mapped : Option UInt8) : Bool :=
  mapped.all fun src => h.ownership.ownerOf src == (h.slots i).session.sessionId

/-- The STATE or EVENT it sent, and what its session was allowed then. -/
def sentOf : Hub × Io → Option Sent
  | (h, .write i _ .state ch _ _ _) | (h, .write i _ .event ch _ _ _) =>
    some ⟨ch, (h.slots i).session.role, (h.slots i).session.ready, true⟩
  | (h, .delivered i ch src) => some ⟨ch, (h.slots i).session.role, (h.slots i).session.ready, ownsMapped h i src⟩
  | _ => none

/-- The intent it handed to the host. -/
def appliedOf : Hub × Io → Option Applied
  | (h, .applyIntent i ch _ src _) => some ⟨ch, (h.slots i).session.ready, ownsMapped h i src⟩
  | _ => none

/-- The session whose intent it accepted. -/
def acceptedOf : Hub × Io → Option UInt32
  | (h, .accepted i _ _) => some (h.slots i).session.sessionId
  | _ => none

/-- The slot whose frame it read. -/
def readOf : Hub × Io → Option SlotIdx
  | (_, .read i) => some i
  | _ => none

/-- The change of owner it told the host of. -/
def toldOf : Hub × Io → Option Told
  | (h, .note (.onSourceOwnership src owner reason)) =>
    some ⟨src, owner, reason, h.ownership.ownerRoleOf src, fun k => slotView (h.slots k)⟩
  | _ => none

/-- The slot it wrote to without a link, or over another. -/
def lostOf : Hub × Io → Option SlotIdx
  | (_, .nullWrite i) => some i
  | (h, .write i t _ _ _ _ _) => if (h.slots i).transport = some t then none else some i
  | _ => none

section

variable {ε : Type}

/-- The view of the hub and its history. -/
def Sys.view (s : Sys ε) : View where
  slots i := slotView (s.hub.slots i)
  owner := s.hub.ownership.ownerOf
  retained := s.hub.retained
  safety := s.hub.safety
  pairing := s.hub.pairing
  cfgGen := s.hub.cfgGen
  drawn := s.trace.filterMap drawnOf
  sent := s.trace.filterMap sentOf
  accepted := s.trace.filterMap acceptedOf
  reads := s.trace.filterMap readOf
  clock := s.hub.monoMs
  ownerRole := s.hub.ownership.ownerRoleOf
  told := s.trace.filterMap toldOf
  lost := s.trace.filterMap lostOf
  applied := s.trace.filterMap appliedOf

/-- From `s` to `s'` by acts that satisfy `P`. -/
def Does (c : Config) (now : UInt32) (rx : Option SlotIdx) (P : Label → Prop) (s s' : Sys ε) : Prop :=
  Path (Act c now rx) P s.view s'.view

variable {c : Config} {now : UInt32} {rx : Option SlotIdx} {P Q : Label → Prop} {s s' s'' : Sys ε}

namespace Does

protected theorem refl (s : Sys ε) : Does c now rx P s s := Labelled.Path.refl s.view

protected theorem trans (h₁ : Does c now rx P s s') (h₂ : Does c now rx P s' s'') : Does c now rx P s s'' :=
  Labelled.Path.trans h₁ h₂

theorem mono (h : Does c now rx P s s') (hPQ : ∀ l, P l → Q l) : Does c now rx Q s s' := Path.mono h hPQ

theorem of_view (h : s'.view = s.view) : Does c now rx P s s' := Path.of_eq h.symm

theorem act {l : Label} (hl : P l) (h : Act c now rx l s.view s'.view) : Does c now rx P s s' := Labelled.Path.single hl h

/-- A loop of steps does what each of them may do. -/
theorem foldl {α : Type} {f : Sys ε → α → Sys ε} (hf : ∀ s a, Does c now rx P s (f s a)) (l : List α) (s : Sys ε) :
    Does c now rx P s (l.foldl f s) :=
  Path.foldl Sys.view hf l s

theorem link_eq {j : SlotIdx} (h : Does c now rx P s s') (hP : ∀ l, P l → l.Keeps j) :
    (s'.view.slots j).link = (s.view.slots j).link :=
  Path.frame (f := fun v => (v.slots j).link) h fun l _ _ hl ha => Act.link_eq (hP l hl) ha

theorem ring_eq {j : SlotIdx} (h : Does c now rx P s s') (hP : ∀ l, P l → l.KeepsRing j) :
    (s'.session j).intentRing = (s.session j).intentRing :=
  Path.frame (f := fun v => (v.slots j).ring) h fun l _ _ hl ha => Act.ring_eq (hP l hl) ha

end Does

/-! ## Views of the elementary changes -/

/-- A change of a slot is seen in that slot alone. -/
theorem view_modSlot (s : Sys ε) (i : SlotIdx) (f : Slot → Slot) :
    (s.modSlot i f).view = s.view.set i (slotView (f (s.hub.slots i))) := by
  have h : (fun j => slotView ((s.modSlot i f).hub.slots j)) =
      Function.update (fun j => slotView (s.hub.slots j)) i (slotView (f (s.hub.slots i))) := by
    funext j
    by_cases hj : j = i
    · subst hj
      simp
    · simp [Sys.slot_modSlot_ne s hj, hj]
  exact View.ext h rfl rfl rfl rfl rfl rfl rfl rfl rfl rfl rfl rfl rfl rfl

/-- A change of fields the view does not show. -/
theorem view_modSlot_of_slotView {s : Sys ε} {i : SlotIdx} {f : Slot → Slot}
    (h : slotView (f (s.hub.slots i)) = slotView (s.hub.slots i)) : (s.modSlot i f).view = s.view := by
  rw [view_modSlot, h]
  exact View.ext (Function.update_eq_self i _) rfl rfl rfl rfl rfl rfl rfl rfl rfl rfl rfl rfl rfl rfl

/-- A slot is occupied in the view when it is in the hub. -/
theorem occupied_view (s : Sys ε) (i : SlotIdx) : (s.view.slots i).occupied ↔ (s.session i).occupied = true :=
  HubSession.occupied_iff.symm

/-- A session is subscribed in the view to what its table lists. -/
theorem mem_subs_view (s : Sys ε) (i : SlotIdx) (ch : UInt16) :
    ch ∈ (s.view.slots i).subs ↔ ((s.session i).subs.find ch).isSome = true :=
  SubscriptionTable.mem_channels

/-! ## Sending -/

/-- What a session takes is queued for it or subscribed. -/
theorem takes_view {s : Sys ε} {i : SlotIdx} {ch : UInt16} (h : Takes s.hub i ch) :
    ch ∈ (s.view.slots i).events ∨ ((s.view.slots i).occupied ∧ ch ∈ (s.view.slots i).subs) := by
  rcases h with ⟨e, he, rfl⟩ | h
  · exact .inl (List.mem_map_of_mem he)
  · unfold subscribed at h
    rw [Bool.and_eq_true] at h
    exact .inr ⟨(occupied_view s i).mpr h.1, (mem_subs_view s i ch).mpr h.2⟩

/-- A frame sent is no act of any other kind. -/
theorem emitIo_none {s : Sys ε} {x : Hub × Io} (h : EmitIo s x) :
    drawnOf x = none ∧ acceptedOf x = none ∧ readOf x = none ∧ toldOf x = none ∧ lostOf x = none ∧
      appliedOf x = none := by
  obtain ⟨g, io⟩ := x
  cases io with
  | write => exact ⟨rfl, rfl, rfl, rfl, if_pos h.1, rfl⟩
  | offered => exact ⟨rfl, rfl, rfl, rfl, rfl, rfl⟩
  | _ => exact absurd h id

/-- A frame that was sent concerned the session it went to, which was ready. -/
theorem emitIo_sent {s : Sys ε} {x : Hub × Io} {y : Sent} (h : EmitIo s x) (hy : sentOf x = some y) :
    ∃ i, s.view.Concerns i y.channel ∧ y.role = (s.view.slots i).role ∧ (s.view.slots i).ready = true ∧
      y.ready = true ∧ y.owns = true := by
  obtain ⟨g, io⟩ := x
  cases io with
  | write i t type ch seq payload ok =>
    obtain ⟨-, hr, hready, hst, hev⟩ := h
    cases type with
    | event =>
      cases hy
      have hd := hev rfl
      refine ⟨i, ?_, hr, hd.ready, hready.trans hd.ready, rfl⟩
      rcases takes_view hd.takes with h | h
      · exact .inl h
      · exact .inr (.inl h.2)
    | state => exact absurd rfl hst
    | _ => cases hy
  | offered => cases hy
  | _ => exact absurd h id

/-- **A send is one act of chatter.** -/
theorem Emits.act (h : Emits s s') : Act c now rx .chatter s.view s'.view := by
  obtain ⟨new, htr, hnew⟩ := h.trace
  have hkeep : ∀ {α : Type} (f : Hub × Io → Option α), (∀ x ∈ new, f x = none) →
      s'.trace.filterMap f = s.trace.filterMap f := by
    intro α f hf
    rw [htr, List.filterMap_append, List.filterMap_eq_nil_iff.mpr hf, List.nil_append]
  have hd : s'.view.drawn = s.view.drawn := hkeep drawnOf fun x hx => (emitIo_none (hnew x hx)).1
  have ha : s'.view.accepted = s.view.accepted := hkeep acceptedOf fun x hx => (emitIo_none (hnew x hx)).2.1
  have hr : s'.view.reads = s.view.reads := hkeep readOf fun x hx => (emitIo_none (hnew x hx)).2.2.1
  have ht : s'.view.told = s.view.told := hkeep toldOf fun x hx => (emitIo_none (hnew x hx)).2.2.2.1
  have hlo : s'.view.lost = s.view.lost := hkeep lostOf fun x hx => (emitIo_none (hnew x hx)).2.2.2.2.1
  have hap : s'.view.applied = s.view.applied := hkeep appliedOf fun x hx => (emitIo_none (hnew x hx)).2.2.2.2.2
  have hcl : s'.view.clock = s.view.clock := h.clock
  have hs : s'.view.sent = new.filterMap sentOf ++ s.view.sent := by
    show List.filterMap _ s'.trace = _
    rw [htr, List.filterMap_append]
    rfl
  have hslots : s'.view.slots = fun i => { s.view.slots i with events := (s'.view.slots i).events } := by
    funext i
    show slotView (s'.hub.slots i) = _
    rw [h.slot i]
    rfl
  have hview : s'.view = { s.view with
      slots := fun i => { s.view.slots i with events := (s'.view.slots i).events }
      sent := new.filterMap sentOf ++ s.view.sent } :=
    View.ext hslots (congrArg SourceOwnershipTable.ownerOf h.ownership) h.retained h.safety h.pairing h.cfgGen
      hd hs ha hr hcl (congrArg SourceOwnershipTable.ownerRoleOf h.ownership) ht hlo hap
  rw [hview]
  refine Act.chatter _ _ ?_ ?_
  · intro i ch hch
    obtain ⟨e, he, rfl⟩ := List.mem_map.mp hch
    exact takes_view (h.queue i e he)
  · intro y hy
    obtain ⟨x, hx, hxy⟩ := List.mem_filterMap.mp hy
    exact emitIo_sent (hnew x hx) hxy

/-- So a send is chatter. -/
theorem Emits.does (h : Emits s s') (hP : P .chatter) : Does c now rx P s s' := Does.act hP h.act

end

end SlopSync
