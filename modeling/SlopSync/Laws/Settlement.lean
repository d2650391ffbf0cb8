import SlopSync.Client.Bench
import SlopSync.Client.Does
import SlopSync.Desk

/-! # How intents end

To the application an intent is an id that waits for an answer.  The history of a client is read as the history of a desk
(`desk`): an INTENT the transport took is a ticket, an ECHO or a NACK settles the ticket it names, and `connect`,
`disconnect` and GOODBYE clear the desk.  The client keeps the books of that desk (`Books`), whatever its peer sends. -/

namespace SlopSync

namespace Client

open Labelled

/-! ## The desk of a history -/

/-- Why an intent is not pending any more. -/
inductive Cause
  | echo | nack | dropped
  deriving DecidableEq, Repr

/-- What an entry of the history is to the desk. -/
def event : Client × Io → Option (Desk.Event UInt16 Cause)
  | (c, .write .intent _ _ true) => some (.issue c.nextIntentId)
  | (_, .rx (.frame (.echo (some m)))) => some (.settle m.intentId .echo)
  | (_, .rx (.frame (.nack (some m)))) => m.intentId.map (.settle · .nack)
  | (_, .rx (.frame .goodbye)) | (_, .connect) | (_, .closed) => some (.clear .dropped)
  | _ => none

def events (h : History) : List (Desk.Event UInt16 Cause) := h.filterMap event

def desk (h : History) : Desk UInt16 Cause := Desk.after (events h)

/-- The id that `onEcho` was called with. -/
def Io.echoed : Io → Option UInt16
  | .note (.onEcho id _ _) => some id
  | _ => none

/-- The id that `onPendingDropped` was called with. -/
def Io.dropped : Io → Option UInt16
  | .note (.onPendingDropped id) => some id
  | _ => none

/-- The id of an INTENT the transport took. -/
def sentId : Client × Io → Option UInt16
  | (c, .write .intent _ _ true) => some c.nextIntentId
  | _ => none

/-- An INTENT frame names the id that is due. -/
def Names : Client × Io → Prop
  | (c, .write .intent _ payload _) => ∃ m, m.intentId = c.nextIntentId ∧ encodeIntent m 300 = some payload
  | _ => True

/-- The id of the n-th intent: zero is left out. -/
def intentIdAt (n : Nat) : UInt16 := UInt16.ofNat (n % 65535 + 1)

/-- The id after the `n`-th is the next one, with 0 skipped at the wrap. -/
theorem intentIdAt_succ (n : Nat) :
    (if intentIdAt n + 1 = 0 then 1 else intentIdAt n + 1) = intentIdAt (n + 1) := by
  have hlt : n % 65535 + 1 < 65536 := by omega
  have hval : (intentIdAt n).toNat = n % 65535 + 1 := by
    rw [intentIdAt, UInt16.toNat_ofNat']
    omega
  have hsucc : (intentIdAt n + 1).toNat = (n % 65535 + 2) % 65536 := by
    rw [UInt16.toNat_add, hval]
    rfl
  by_cases hlast : n % 65535 = 65534
  · have hzero : intentIdAt n + 1 = 0 := UInt16.toNat_inj.mp (by rw [hsucc, hlast]; rfl)
    rw [if_pos hzero, intentIdAt, show (n + 1) % 65535 = 0 by omega]
    rfl
  · have hne : intentIdAt n + 1 ≠ 0 := fun h => by
      rw [h] at hsucc
      have : (0 : UInt16).toNat = 0 := rfl
      omega
    rw [if_neg hne]
    refine UInt16.toNat_inj.mp ?_
    rw [hsucc, intentIdAt, UInt16.toNat_ofNat']
    omega

/-- Ids recur after 65535 intents and not before. -/
theorem intentIdAt_ne {m n : Nat} (h : m < n) (hn : n < m + 65535) : intentIdAt m ≠ intentIdAt n := by
  intro heq
  have hval := congrArg UInt16.toNat heq
  rw [intentIdAt, intentIdAt, UInt16.toNat_ofNat', UInt16.toNat_ofNat'] at hval
  omega

/-! ## The books -/

/-- The client and its calls of the delegate are those of the desk. -/
structure Books (c : Client) (h : History) : Prop where
  pending : c.pending = (desk h).keys
  next : c.nextIntentId = intentIdAt (desk h).issued
  due : ∀ ys k zs, events h = ys ++ .issue k :: zs → k = intentIdAt (Desk.after zs).issued
  echoed : h.filterMap (fun x => x.2.echoed) = (desk h).closedBy .echo
  dropped : h.filterMap (fun x => x.2.dropped) = (desk h).closedBy .dropped
  names : ∀ x ∈ h, Names x
  idle : c.state ≠ .live → c.pending = []

/-- An entry that no intent has to do with. -/
structure Io.Apart (x : Io) : Prop where
  event : ∀ c, Client.event (c, x) = none
  echoed : x.echoed = none
  dropped : x.dropped = none
  names : ∀ c, Names (c, x)

/-- An entry that is an event moves the desk by it. -/
theorem desk_cons {x : Client × Io} {h : History} {y : Desk.Event UInt16 Cause} (hx : event x = some y) :
    desk (x :: h) = (desk h).step y := by
  unfold desk events
  rw [List.filterMap_cons, hx]
  rfl

/-- Any other entry leaves the desk alone. -/
theorem desk_none {x : Client × Io} (hx : event x = none) (h : History) : desk (x :: h) = desk h := by
  unfold desk events
  rw [List.filterMap_cons, hx]

/-- The books depend on the pending list, the counter and whether the session is live, and on nothing else of the
client. -/
theorem Books.same {c d : Client} {h : History} (hb : Books c h) (hp : d.pending = c.pending)
    (hn : d.nextIntentId = c.nextIntentId) (hidle : d.state ≠ .live → d.pending = []) : Books d h where
  pending := hp.trans hb.pending
  next := hn.trans hb.next
  due := hb.due
  echoed := hb.echoed
  dropped := hb.dropped
  names := hb.names
  idle := hidle

/-- One entry more that the desk does not see. -/
theorem Books.unseen {c : Client} {h : History} {x : Client × Io} (hb : Books c h) (hx : event x = none)
    (hecho : x.2.echoed = none) (hdrop : x.2.dropped = none) (hn : Names x) : Books c (x :: h) where
  pending := by rw [desk_none hx]; exact hb.pending
  next := by rw [desk_none hx]; exact hb.next
  due ys k zs heq := by
    unfold events at heq
    rw [List.filterMap_cons, hx] at heq
    exact hb.due ys k zs heq
  echoed := by rw [desk_none hx, List.filterMap_cons, hecho]; exact hb.echoed
  dropped := by rw [desk_none hx, List.filterMap_cons, hdrop]; exact hb.dropped
  names := List.forall_mem_cons.mpr ⟨hn, hb.names⟩
  idle := hb.idle

/-- An entry apart from the intents keeps the books. -/
theorem Books.apart {c d : Client} {h : History} {x : Io} (hb : Books c h) (hx : x.Apart) : Books c ((d, x) :: h) :=
  hb.unseen (hx.event d) hx.echoed hx.dropped (hx.names d)

/-- An INTENT the transport took. -/
theorem Books.issued {c d : Client} {h : History} {ch : UInt16} {payload : Bytes} (hb : Books c h)
    (hn : Names (c, .write .intent ch payload true)) (hp : d.pending = c.pending ++ [c.nextIntentId])
    (hnext : d.nextIntentId = if c.nextIntentId + 1 = 0 then 1 else c.nextIntentId + 1) (hlive : d.state = .live) :
    Books d ((c, .write .intent ch payload true) :: h) := by
  have hdesk : desk ((c, .write .intent ch payload true) :: h) = (desk h).step (.issue c.nextIntentId) := rfl
  constructor
  · rw [hdesk, Desk.keys_issue, hp, hb.pending]
  · rw [hdesk, hnext, hb.next, intentIdAt_succ]
    rfl
  · intro ys k zs heq
    cases ys with
    | nil =>
      obtain ⟨hk, rfl⟩ := List.cons.inj heq
      obtain rfl := Desk.Event.issue.inj hk
      exact hb.next
    | cons y ys => exact hb.due ys k zs (List.cons.inj heq).2
  · rw [hdesk, Desk.closedBy_issue]
    exact hb.echoed
  · rw [hdesk, Desk.closedBy_issue]
    exact hb.dropped
  · exact List.forall_mem_cons.mpr ⟨hn, hb.names⟩
  · exact fun hne => absurd hlive hne

section

variable {ε : Type} {w : World ε} {s t : Sys ε}

def Sys.Books (s : Sys ε) : Prop := Client.Books s.client s.trace

/-! ## What leaves the books alone -/

/-- The acts that no intent has to do with. -/
def Act.Apart : Act ε → Prop
  | .log x => x.Apart
  | .write type _ _ _ => type ≠ .intent
  | .become st => st = .live ∨ st = .syncing
  | .drop | .settle _ | .echoed _ | .queue _ => False
  | _ => True

/-- A frame written that is no INTENT is apart from them. -/
theorem apart_write {type : FrameType} (ht : type ≠ .intent) (ch : UInt16) (payload : Bytes) (ok : Bool) :
    (Io.write type ch payload ok).Apart := by
  refine ⟨fun c => ?_, rfl, rfl, fun c => ?_⟩
  · unfold event
    cases type <;> first | rfl | exact absurd rfl ht
  · unfold Names
    cases type <;> trivial

/-- Pending intents, the next id and the state are as they were. -/
structure SameDesk (c d : Client) : Prop where
  pending : d.pending = c.pending
  next : d.nextIntentId = c.nextIntentId
  state : d.state = c.state

theorem Steady.desk {c d : Client} (h : Steady c d) : SameDesk c d := ⟨h.pending, h.next, h.state⟩

theorem Sys.Books.modify {f : Client → Client} (hs : s.Books) (h : SameDesk s.client (f s.client)) : (s.modify f).Books :=
  Books.same hs h.pending h.next fun hst => h.pending.trans (hs.idle fun hlive => hst (h.state.trans hlive))

theorem Sys.Books.logged {x : Io} {e : ε} (hs : s.Books) (hx : x.Apart) {d : Client} (h : SameDesk s.client d) :
    Sys.Books { client := d, env := e, trace := (s.client, x) :: s.trace } :=
  Books.same (Books.apart hs hx) h.pending h.next fun hst => h.pending.trans (hs.idle fun hlive => hst (h.state.trans hlive))

/-- A single act apart from the intents keeps the books. -/
theorem books_act {a : Act ε} (ha : a.Apart) (hok : a.Ok w s) (hs : s.Books) : (a.apply w s).Books := by
  cases a with
  | log x => exact Books.apart hs ha
  | minor f => exact hs.modify ⟨(hok s.client).pending, (hok s.client).nextIntentId, (hok s.client).state⟩
  | become st =>
    refine Books.same (c := s.client) hs rfl rfl fun hst => ?_
    rcases ha with rfl | rfl
    · exact absurd rfl hst
    · refine hs.idle ?_
      rw [hok.1 rfl]
      decide
  | drop | settle | echoed | queue => exact ha.elim
  | observe ch payload => exact hs.modify (observeLatch_steady ch payload s.client).desk
  | begin h nowMs => exact hs.modify (beginTransfer_steady h nowMs s.client).desk
  | shadow ch seq payload => exact hs.modify (adoptShadow_steady ch seq payload s.client).desk
  | world e => exact hs
  | write type ch payload bytes =>
    simp only [Act.apply, writeFrame]
    split <;> exact hs.logged (apart_write ha ch payload _) ⟨rfl, rfl, rfl⟩
  | initiated f | repeated f =>
    exact hs.logged (x := .writeEstop f _) ⟨fun _ => rfl, rfl, rfl, fun _ => trivial⟩ ⟨rfl, rfl, rfl⟩
  | pin key => exact hs.modify ⟨rfl, rfl, rfl⟩
  | advance | reset | welcome | ready | forget | insert | adopt | grant | verify | judge | draw | arm | request
  | startProbe | stopProbe | initiate | giveUp => exact hs.modify ⟨rfl, rfl, rfl⟩

theorem Act.In.apart {T : FrameType → Prop} {N : Note → Prop} {K : Act ε → Prop} (hT : ∀ t, T t → t ≠ .intent)
    (hN : ∀ n, N n → n.ended = none) (hK : ∀ a, K a → a.Apart) : ∀ a : Act ε, Act.In T N K a → a.Apart := by
  refine Act.In.of_kinds (fun _ => trivial) (fun _ => trivial) (fun type _ _ _ => hT type) (fun n h => ?_) hK
  have hn := hN n h
  cases n <;> first | exact ⟨fun _ => rfl, rfl, rfl, fun _ => trivial⟩ | cases hn

/-- A sequence of acts apart from the intents keeps the books. -/
theorem books_does (h : Does w Act.Apart s t) (hs : s.Books) : t.Books :=
  Path.invariant (I := Sys.Books) h (fun _ _ _ ha ⟨hok, heq⟩ hx => heq ▸ books_act ha hok hx) hs

/-- A single act apart from the intents leaves the pending list alone. -/
theorem pending_act {a : Act ε} (ha : a.Apart) (hok : a.Ok w s) :
    (a.apply w s).client.pending = s.client.pending := by
  cases a with
  | minor f => exact (hok s.client).pending
  | drop | settle | echoed | queue => exact ha.elim
  | observe ch payload => exact (observeLatch_steady ch payload s.client).pending
  | begin h nowMs => exact (beginTransfer_steady h nowMs s.client).pending
  | shadow ch seq payload => exact (adoptShadow_steady ch seq payload s.client).pending
  | write type ch payload bytes => exact (writeFrame_steady type ch payload bytes).pending
  | _ => simp only [Act.apply, Sys.modify, Sys.log, setHubPublicKey, resetSession, adoptWelcome, writeEstop]

/-- A sequence of them leaves it alone. -/
theorem pending_does (h : Does w Act.Apart s t) : t.client.pending = s.client.pending :=
  Path.frame (f := fun s => s.client.pending) h fun _ _ _ ha ⟨hok, heq⟩ => heq ▸ pending_act ha hok

/-- A callback that ends no intent keeps the books. -/
theorem notify_books {n : Note} (hs : s.Books) (hn : n.ended = none) : (notify w n s).Books :=
  books_does (Does.mono (notify_does (T := fun _ => False) (N := (· = n)) (K := fun _ => False) rfl)
    (Act.In.apart (fun _ h => h.elim) (fun _ h => h ▸ hn) fun _ h => h.elim)) hs

/-- A change of state keeps them, provided nothing is pending where the session leaves LIVE. -/
theorem setState_books {st : ClientSessionState} (hs : s.Books) (hp : st = .live ∨ s.client.pending = []) :
    (setState w st s).Books :=
  notify_books (Books.same (c := s.client) hs rfl rfl fun hst => hp.resolve_left hst) rfl

/-! ## The desk is cleared -/

/-- Everything pending was dropped, in order, and told. -/
theorem Books.cleared {c d : Client} {h h' : History} (hb : Books c h)
    (hev : events h' = .clear .dropped :: events h)
    (hecho : h'.filterMap (fun x => x.2.echoed) = h.filterMap fun x => x.2.echoed)
    (hdrop : h'.filterMap (fun x => x.2.dropped) = c.pending.reverse ++ h.filterMap fun x => x.2.dropped)
    (hn : ∀ x ∈ h', Names x) (hp : d.pending = []) (hnext : d.nextIntentId = c.nextIntentId) : Books d h' := by
  have hdesk : desk h' = (desk h).step (.clear .dropped) := by
    unfold desk
    rw [hev]
    rfl
  constructor
  · rw [hdesk, Desk.keys_clear, hp]
  · rw [hdesk, hnext]
    exact hb.next
  · intro ys k zs heq
    rw [hev] at heq
    cases ys with
    | nil => cases heq
    | cons y ys => exact hb.due ys k zs (List.cons.inj heq).2
  · rw [hdesk, hecho, Desk.closedBy_clear, if_neg (by decide), List.nil_append, hb.echoed]
  · rw [hdesk, hdrop, Desk.closedBy_clear, if_pos rfl, hb.dropped, hb.pending]
  · exact hn
  · exact fun _ => hp

/-- What `flushPending` logs. -/
def drops (c : Client) : History := (c.pending.map fun id => (c, Io.note (.onPendingDropped id))).reverse

/-- `flushPending` clears the list and drops each intent that was on it. -/
theorem flushPending_trace (s : Sys ε) : (flushPending w s).client = { s.client with pending := [] } ∧
    (flushPending w s).trace = drops s.client ++ s.trace := by
  have hfold : ∀ (ids : List UInt16) (s : Sys ε),
      (ids.foldl (fun s id => notify w (.onPendingDropped id) s) s).client = s.client ∧
      (ids.foldl (fun s id => notify w (.onPendingDropped id) s) s).trace =
        (ids.map fun id => (s.client, Io.note (.onPendingDropped id))).reverse ++ s.trace := by
    intro ids
    induction ids with
    | nil => exact fun _ => ⟨rfl, rfl⟩
    | cons id ids ih =>
      intro s
      obtain ⟨hc, ht⟩ := ih (notify w (.onPendingDropped id) s)
      refine ⟨hc, ht.trans ?_⟩
      rw [List.map_cons, List.reverse_cons, List.append_assoc]
      rfl
  obtain ⟨hc, ht⟩ := hfold s.client.pending s
  refine ⟨?_, ht⟩
  unfold flushPending Sys.modify
  rw [hc]

/-- The drops of a flush are events of the history. -/
theorem events_drops (c : Client) (h : History) : events (drops c ++ h) = events h := by
  unfold events drops
  rw [List.filterMap_append, List.filterMap_reverse, List.filterMap_map]
  simp [Function.comp_def, event]

theorem echoed_drops (c : Client) (h : History) :
    (drops c ++ h).filterMap (fun x => x.2.echoed) = h.filterMap fun x => x.2.echoed := by
  unfold drops
  rw [List.filterMap_append, List.filterMap_reverse, List.filterMap_map]
  simp [Function.comp_def, Io.echoed]

/-- The drops of a flush are exactly the pending intents, oldest first. -/
theorem dropped_drops (c : Client) (h : History) :
    (drops c ++ h).filterMap (fun x => x.2.dropped) = c.pending.reverse ++ h.filterMap fun x => x.2.dropped := by
  unfold drops
  rw [List.filterMap_append, List.filterMap_reverse, List.filterMap_map]
  simp [Function.comp_def, Io.dropped]

theorem names_drops {c : Client} {h : History} (hn : ∀ x ∈ h, Names x) : ∀ x ∈ drops c ++ h, Names x := by
  intro x hx
  rcases List.mem_append.mp hx with hx | hx
  · obtain ⟨id, -, rfl⟩ := List.mem_map.mp (List.mem_reverse.mp hx)
    trivial
  · exact hn x hx

/-- The pending intents are dropped at the beginning of `connect`. -/
theorem flushPending_connect_books (hs : s.Books) : (flushPending w (s.log .connect)).Books := by
  obtain ⟨hc, ht⟩ := flushPending_trace (w := w) (s.log .connect)
  unfold Sys.Books
  rw [hc, ht]
  refine Books.cleared hs ?_ ?_ ?_ (names_drops (List.forall_mem_cons.mpr ⟨trivial, hs.names⟩)) rfl rfl
  · rw [events_drops]
    rfl
  · rw [echoed_drops]
    rfl
  · rw [dropped_drops]
    rfl

/-- A run of acts that write no INTENT and tell the end of none. -/
theorem apart_does {T : FrameType → Prop} {K : Act ε → Prop} (h : Does w (Act.In T (fun n => n.ended = none) K) s t)
    (hT : ∀ t, T t → t ≠ .intent) (hK : ∀ a, K a → a.Apart) : Does w Act.Apart s t :=
  h.mono (Act.In.apart hT (fun _ h => h) hK)

/-- Sending a frame that is no INTENT is apart from the books. -/
theorem sendFrame_apart {type : FrameType} (ht : type ≠ .intent) (ch : UInt16) (payload : Bytes) :
    Does w Act.Apart s (sendFrame w type ch payload s).2 :=
  apart_does (T := (· = type)) (K := fun _ => False) (sendFrame_does rfl) (fun _ h => h ▸ ht) fun _ h => h.elim

theorem sendHello_books (hs : s.Books) (hp : s.client.pending = []) : (sendHello w s).2.Books := by
  unfold sendHello
  split
  · exact hs
  · rename_i bytes _
    have hsend : Does w Act.Apart s (sendFrame w .hello 0 bytes s).2 := sendFrame_apart (by decide) 0 bytes
    dsimp only
    split
    · exact books_does hsend hs
    · have harm : Does w Act.Apart s (armSigDeadline w (sendFrame w .hello 0 bytes s).2) :=
        hsend.trans (apart_does (T := fun _ => False) (K := (· = .arm)) (armSigDeadline_does rfl) (fun _ h => h.elim)
          fun _ h => h ▸ trivial)
      exact setState_books (books_does harm hs) (.inr ((pending_does harm).trans hp))

/-- Asking the hub for a signature is apart from the books. -/
theorem requestSignature_apart : Does w Act.Apart s (requestSignature w s) := by
  refine apart_does (T := fun _ => False) (K := fun a => (∃ n, a = .draw n) ∨ ∃ st, a = .judge st)
    (requestSignature_does (fun _ _ => rfl) (fun n => .inl ⟨n, rfl⟩) fun st _ _ _ => .inr ⟨st, rfl⟩) (fun _ h => h.elim) ?_
  rintro a (⟨n, rfl⟩ | ⟨st, rfl⟩)
  · trivial
  · trivial

/-- `connect` drops what was pending and begins with empty books. -/
theorem connect_books (hs : s.Books) : (connect w s).2.Books := by
  have hflush := flushPending_connect_books (w := w) hs
  have hempty : (flushPending w (s.log .connect)).client.pending = [] := by
    rw [(flushPending_trace (w := w) (s.log .connect)).1]
  unfold connect
  dsimp only
  generalize flushPending w (s.log .connect) = t at hflush hempty
  have hopen : (t.log (.opened (w.openTransport t.env).1)).Books :=
    Books.apart hflush ⟨fun _ => rfl, rfl, rfl, fun _ => trivial⟩
  split
  · exact hopen
  · have hreset : Sys.Books (Sys.modify
        { t.log (.opened (w.openTransport t.env).1) with env := (w.openTransport t.env).2 } resetSession) :=
      Sys.Books.modify (s := { t.log (.opened (w.openTransport t.env).1) with env := (w.openTransport t.env).2 }) hopen
        ⟨rfl, rfl, rfl⟩
    have hsig := requestSignature_apart (w := w) (s := Sys.modify
      { t.log (.opened (w.openTransport t.env).1) with env := (w.openTransport t.env).2 } resetSession)
    exact sendHello_books (books_does hsig hreset) ((pending_does hsig).trans hempty)

/-- The pending intents are dropped before the transport is closed. -/
theorem disconnect_books (hs : s.Books) : (disconnect w s).Books := by
  have hbye : (sendGoodbye w s).Books := by
    refine books_does (apart_does (T := (· = .goodbye)) (K := fun _ => False) (sendGoodbye_does rfl) ?_ ?_) hs
    · rintro _ rfl
      decide
    · exact fun _ h => h.elim
  obtain ⟨hc, ht⟩ := flushPending_trace (w := w) (sendGoodbye w s)
  unfold disconnect
  dsimp only
  generalize sendGoodbye w s = u at hbye hc ht
  have hclosed : ((flushPending w u).log .closed).Books := by
    unfold Sys.Books Sys.log
    dsimp only
    rw [hc, ht]
    refine Books.cleared hbye ?_ ?_ ?_ (List.forall_mem_cons.mpr ⟨trivial, names_drops hbye.names⟩) rfl rfl
    · exact congrArg _ (events_drops u.client u.trace)
    · exact echoed_drops u.client u.trace
    · exact dropped_drops u.client u.trace
  refine setState_books (s := { (flushPending w u).log .closed with env := _ }) hclosed (.inr ?_)
  show (flushPending w u).client.pending = []
  rw [hc]

/-! ## Answers -/

/-- An answer that names an id: one ticket is settled, if there is one. -/
theorem Books.settled {c d : Client} {h h' : History} (id : UInt16) (why : Cause) (hb : Books c h)
    (hev : events h' = .settle id why :: events h)
    (hecho : h'.filterMap (fun x => x.2.echoed) =
      (if why = .echo ∧ id ∈ c.pending then [id] else []) ++ h.filterMap fun x => x.2.echoed)
    (hdrop : h'.filterMap (fun x => x.2.dropped) = h.filterMap fun x => x.2.dropped) (hwhy : why ≠ .dropped)
    (hn : ∀ x ∈ h', Names x) (hp : d.pending = c.pending.erase id) (hnext : d.nextIntentId = c.nextIntentId)
    (hidle : d.state ≠ .live → d.pending = []) : Books d h' := by
  have hdesk : desk h' = (desk h).step (.settle id why) := by
    unfold desk
    rw [hev]
    rfl
  constructor
  · rw [hdesk, Desk.keys_settle, hp, hb.pending]
  · rw [hdesk, hnext]
    exact hb.next
  · intro ys k zs heq
    rw [hev] at heq
    cases ys with
    | nil => cases heq
    | cons y ys => exact hb.due ys k zs (List.cons.inj heq).2
  · rw [hdesk, hecho, Desk.closedBy_settle, hb.echoed, hb.pending]
  · rw [hdesk, hdrop, Desk.closedBy_settle, if_neg (fun h => hwhy h.1), List.nil_append, hb.dropped]
  · exact hn
  · exact hidle

/-- An ECHO settles the intent it names, or none. -/
theorem handleEcho_books {m : EchoMsg} {d : Client} {h : History}
    (hx : s.trace = (d, .rx (.frame (.echo (some m)))) :: h) (hs : Client.Books s.client h) :
    (handleEcho w (some m) s).Books := by
  unfold handleEcho
  dsimp only
  split
  · rename_i hnot
    unfold Sys.Books
    rw [hx]
    refine Books.settled m.intentId .echo hs rfl ?_ rfl (by decide)
      (List.forall_mem_cons.mpr ⟨trivial, hs.names⟩) (List.erase_of_not_mem hnot).symm rfl hs.idle
    rw [if_neg (fun h => hnot h.2)]
    rfl
  · rename_i hin
    rw [not_not] at hin
    have hlive : s.client.state = .live := by
      by_contra hne
      rw [hs.idle hne] at hin
      cases hin
    unfold Sys.Books notify Sys.modify Sys.log
    dsimp only
    rw [hx]
    refine Books.settled m.intentId .echo hs rfl ?_ rfl (by decide)
      (List.forall_mem_cons.mpr ⟨trivial, List.forall_mem_cons.mpr ⟨trivial, hs.names⟩⟩) rfl rfl
      fun hne => absurd hlive hne
    rw [if_pos ⟨rfl, hin⟩]
    rfl

/-- A NACK that names no intent. -/
theorem handleNack_anonymous {n : NackMsg} (hn : n.intentId = none) (hs : s.Books) : (handleNack w (some n) s).Books := by
  unfold handleNack
  dsimp only
  rw [hn]
  dsimp only
  refine notify_books ?_ rfl
  split
  · rename_i hst
    exact setState_books hs (.inr (hs.idle (by rw [hst]; decide)))
  · exact hs

/-- A NACK with an intent id settles that intent, or none. -/
theorem handleNack_books {n : NackMsg} {id : UInt16} {d : Client} {h : History} (hn : n.intentId = some id)
    (hx : s.trace = (d, .rx (.frame (.nack (some n)))) :: h) (hs : Client.Books s.client h) :
    (handleNack w (some n) s).Books := by
  have hev : event (d, .rx (.frame (.nack (some n)))) = some (.settle id .nack) := by
    unfold event
    dsimp only
    rw [hn]
    rfl
  have hevents : events ((d, .rx (.frame (.nack (some n)))) :: h) = .settle id .nack :: events h := by
    unfold events
    rw [List.filterMap_cons, hev]
  unfold handleNack
  dsimp only
  rw [hn]
  unfold Sys.Books notify Sys.modify Sys.log
  dsimp only
  by_cases hst : s.client.state = .helloSent
  · have hempty : s.client.pending = [] := hs.idle (by rw [hst]; decide)
    rw [if_pos hst]
    unfold setState notify Sys.modify Sys.log
    dsimp only
    rw [hx]
    refine Books.settled id .nack hs hevents ?_ rfl (by decide)
      (List.forall_mem_cons.mpr ⟨trivial, List.forall_mem_cons.mpr ⟨trivial, List.forall_mem_cons.mpr ⟨trivial, hs.names⟩⟩⟩)
      rfl rfl fun _ => ?_
    · rw [if_neg (fun h => nomatch h.1)]
      rfl
    · rw [hempty]
      rfl
  · rw [if_neg hst, hx]
    refine Books.settled id .nack hs hevents ?_ rfl (by decide)
      (List.forall_mem_cons.mpr ⟨trivial, List.forall_mem_cons.mpr ⟨trivial, hs.names⟩⟩) rfl rfl fun hne => ?_
    · rw [if_neg (fun h => nomatch h.1)]
      rfl
    · show s.client.pending.erase id = []
      rw [hs.idle hne]
      rfl

/-- GOODBYE: the state changes first, and then everything is dropped. -/
theorem handleGoodbye_books {d : Client} {h : History} (hx : s.trace = (d, .rx (.frame .goodbye)) :: h)
    (hs : Client.Books s.client h) : (handleGoodbye w s).Books := by
  obtain ⟨hc, ht⟩ := flushPending_trace (w := w) (setState w .closed s)
  have htrace : (setState w .closed s).trace =
      ({ s.client with state := .closed }, .note (.onStateChange .closed)) :: (d, .rx (.frame .goodbye)) :: h := by
    unfold setState notify Sys.modify Sys.log
    dsimp only
    rw [hx]
  unfold handleGoodbye Sys.Books
  rw [hc, ht, htrace]
  refine Books.cleared hs ?_ ?_ ?_ (names_drops (List.forall_mem_cons.mpr ⟨trivial,
    List.forall_mem_cons.mpr ⟨trivial, hs.names⟩⟩)) rfl rfl
  · rw [events_drops]
    rfl
  · rw [echoed_drops]
    rfl
  · rw [dropped_drops]
    rfl

/-! ## Frames -/

/-- The frames that an intent may have to do with. -/
def Inbound.Answers : Inbound → Prop
  | .echo (some _) | .nack _ | .goodbye => True
  | _ => False

/-- A message that is no answer allows nothing that touches the books. -/
theorem Inbound.Allows.apart {m : Inbound} {nowMs : UInt32} (hm : ¬ m.Answers) :
    ∀ a : Act ε, m.Allows nowMs a → a.Apart
  | .become _, .inl h => .inl h
  | .become _, .inr (.inl h) => .inr h.1
  | .become _, .inr (.inr ⟨_, .inl ⟨_, h⟩⟩) | .become _, .inr (.inr ⟨_, .inr h⟩) => absurd (h ▸ trivial) hm
  | .drop, h | .echoed _, h | .settle _, ⟨_, h⟩ => absurd (h ▸ trivial) hm
  | .log (.welcomed _), _ | .log (.chunk _ _), _ | .log .assembled, _ => ⟨fun _ => rfl, rfl, rfl, fun _ => trivial⟩
  | .log .connect, h | .log (.opened _), h | .log .closed, h | .log (.rx _), h | .log (.writeEstop _ _), h
  | .log (.write _ _ _ _), h | .log (.note _), h | .write _ _ _ _, h | .queue _, h => h.elim
  | .world _, _ | .minor _, _ | .advance _, _ | .verify _, _ | .judge _, _ | .pin _, _ | .draw _, _ | .arm, _
  | .request _, _ | .startProbe, _ | .stopProbe, _ | .initiate _, _ | .initiated _, _ | .repeated _ _, _ | .giveUp, _
  | .observe _ _, _ | .reset, _ | .welcome _, _ | .ready _, _ | .forget, _ | .begin _ _, _ | .insert _ _, _ | .adopt, _
  | .shadow _ _ _, _ | .grant _, _ => trivial

/-- A message that is no answer ends no intent by a callback. -/
theorem Inbound.Tells.ended {m : Inbound} {n : Note} (hm : ¬ m.Answers) (h : m.Tells n) : n.ended = none := by
  rcases h.2 with h | ⟨e, rfl, -⟩ | rfl
  · exact h
  · exact absurd trivial hm
  · exact absurd trivial hm

theorem Reply.no_intent {type : FrameType} (h : Reply type) : type ≠ .intent := by
  rintro rfl
  rcases h with h | h | h | h | h <;> cases h

/-- Dispatch keeps the books, message by message. -/
theorem dispatch_books {m : Inbound} {nowMs : UInt32} {d : Client} {h : History}
    (hx : s.trace = (d, .rx (.frame m)) :: h) (hs : Client.Books s.client h) : (dispatch w m nowMs s).Books := by
  have hlogged : (Io.rx (.frame m)).Apart → s.Books := fun ha => by
    unfold Sys.Books
    rw [hx]
    exact Books.apart hs ha
  by_cases hm : m.Answers
  · match m with
    | .echo (some _) => exact handleEcho_books hx hs
    | .nack none => exact hlogged ⟨fun _ => rfl, rfl, rfl, fun _ => trivial⟩
    | .nack (some n) =>
      cases hn : n.intentId with
      | none =>
        refine handleNack_anonymous hn (hlogged ⟨fun _ => ?_, rfl, rfl, fun _ => trivial⟩)
        unfold event
        dsimp only
        rw [hn]
        rfl
      | some id => exact handleNack_books hn hx hs
    | .goodbye => exact handleGoodbye_books hx hs
  · refine books_does (dispatch_does.mono (Act.In.apart (fun _ => Reply.no_intent) (fun _ => Inbound.Tells.ended hm)
      (Inbound.Allows.apart hm))) (hlogged ⟨fun _ => ?_, rfl, rfl, fun _ => trivial⟩)
    match m with
    | .echo none | .welcome _ | .state _ _ _ | .grant _ | .event _ _ | .blobChunk _ | .ping _ | .pairGrant _ | .hubSig _
    | .probe _ | .other => rfl
    | .echo (some _) | .nack _ | .goodbye => exact absurd trivial hm

/-- A frame keeps the books, decodable or not. -/
theorem handleFrame_books {rx : RxFrame} {nowMs : UInt32} (hs : s.Books) : (handleFrame w nowMs s rx).Books := by
  have hrx : Client.Books { s.client with lastRxMs := nowMs } s.trace := Books.same hs rfl rfl hs.idle
  unfold handleFrame
  cases rx with
  | estop => exact Books.apart hrx ⟨fun _ => rfl, rfl, rfl, fun _ => trivial⟩
  | badEstop | short => exact Books.apart hs ⟨fun _ => rfl, rfl, rfl, fun _ => trivial⟩
  | frame m => exact dispatch_books rfl hrx

/-- The pumps are apart from the books. -/
theorem pumps_apart (nowMs : UInt32) (s : Sys ε) : Does w Act.Apart s (pumps w nowMs s) := by
  refine pumps_does.mono (Act.In.apart ?_ ?_ ?_)
  · rintro _ (rfl | rfl | rfl) <;> decide
  · rintro _ rfl
    rfl
  · intro a ha
    match a with
    | .repeated _ _ | .giveUp | .stopProbe | .judge _ => trivial

/-- `update` keeps the books. -/
theorem update_books {nowUs : UInt32} {frames : List RxFrame} (hs : s.Books) : (update w nowUs frames s).Books := by
  have hframes : ∀ (frames : List RxFrame) (s : Sys ε) (nowMs : UInt32), s.Books →
      (frames.foldl (handleFrame w nowMs) s).Books := by
    intro frames
    induction frames with
    | nil => exact fun _ _ h => h
    | cons rx frames ih => exact fun s nowMs h => ih _ nowMs (handleFrame_books h)
  unfold update
  exact books_does (pumps_apart _ _) (hframes frames _ _ (Books.same hs rfl rfl hs.idle))

/-! ## Intents -/

/-- `sendIntent` opens one line on the desk, or refuses and changes nothing. -/
theorem sendIntent_books {ch : UInt16} {values : IntentValueMap} {precondition : Option UInt16} {takeover : Bool}
    (hs : s.Books) : (sendIntent w ch values precondition takeover s).2.Books := by
  unfold sendIntent
  dsimp only
  split
  · exact hs
  · rename_i hlive
    split
    · exact hs
    · split
      · exact hs
      · split
        · exact hs
        · rename_i bytes hbytes
          have hname : ∀ ok, Names (s.client, .write .intent ch bytes ok) := fun _ => ⟨_, rfl, hbytes⟩
          unfold sendFrame
          split
          · exact hs
          · rename_i frame _
            dsimp only
            cases (w.write frame s.env).1 with
            | false => exact Books.unseen hs rfl rfl rfl (hname false)
            | true => exact Books.issued hs (hname true) rfl rfl (not_not.mp hlive)

/-! ## Runs -/

/-- Every call of the client keeps the books. -/
theorem call_books {x : Call ε} (hs : s.Books) : (call w s x).Books := by
  have hlocal : ∀ {t : Sys ε} {K : Act ε → Prop}, Does w (Act.In (· = .pairReq) (fun _ => False) K) s t →
      (∀ a, K a → a.Apart) → t.Books := fun h hK =>
    books_does (h.mono (Act.In.apart (by rintro _ rfl; decide) (fun _ h => h.elim) hK)) hs
  cases x with
  | world e => exact hs
  | connect => exact connect_books hs
  | disconnect => exact disconnect_books hs
  | update => exact update_books hs
  | sendIntent => exact sendIntent_books hs
  | addSubscriptionWish x =>
    refine hs.modify ?_
    unfold addSubscriptionWish
    split <;> exact ⟨rfl, rfl, rfl⟩
  | setCachedEtag etag => exact hs.modify ⟨rfl, rfl, rfl⟩
  | setClientVersion ver => exact hs.modify ⟨rfl, rfl, rfl⟩
  | setTokenPresentationMode mode => exact hs.modify ⟨rfl, rfl, rfl⟩
  | setHubPublicKey key => exact hs.modify ⟨rfl, rfl, rfl⟩
  | requestHubSignature on => exact hs.modify ⟨rfl, rfl, rfl⟩
  | initiateEstop cause =>
    exact hlocal (initiateEstop_does (K := fun a => a = .initiate cause ∨ ∃ f, a = .initiated f) (.inl rfl)
      fun f => .inr ⟨f, rfl⟩) (by rintro a (rfl | ⟨f, rfl⟩) <;> trivial)
  | sendPairReq => exact hlocal (K := fun _ => False) (sendPairReq_does rfl) fun _ h => h.elim
  | sendPairKnock => exact hlocal (K := fun _ => False) (sendPairing_does rfl) fun _ h => h.elim
  | runProbe =>
    exact books_does ((runProbe_does (T := (· = .probe)) (N := fun _ => False) (K := (· = .startProbe)) rfl rfl).mono
      (Act.In.apart (by rintro _ rfl; decide) (fun _ h => h.elim) (by rintro _ rfl; trivial))) hs

theorem books_boot (id : ClientIdentity) (e : ε) : (boot id e).Books where
  pending := rfl
  next := rfl
  due ys k zs heq := by
    rw [show events (boot id e).trace = [] from rfl] at heq
    exact absurd heq.symm (List.append_ne_nil_of_right_ne_nil ys (List.cons_ne_nil _ _))
  echoed := rfl
  dropped := rfl
  names := by simp [boot]
  idle _ := rfl

/-- So the books are right in every state of every run. -/
theorem books_run (id : ClientIdentity) (e : ε) (calls : List (Call ε)) : (run w id e calls).Books := by
  unfold run
  induction calls using List.reverseRecOn with
  | nil => exact books_boot id e
  | append_singleton calls x ih =>
    rw [List.foldl_concat]
    exact call_books ih

/-! ## What was returned -/

/-- The id a call returns, if it returns one. -/
def returns (w : World ε) (s : Sys ε) : Call ε → List UInt16
  | .sendIntent ch values precondition takeover => (sendIntent w ch values precondition takeover s).1.toList
  | _ => []

/-- The ids that `sendIntent` returned in a run, the last one first. -/
def returned (w : World ε) (id : ClientIdentity) (e : ε) (calls : List (Call ε)) : List UInt16 :=
  (calls.foldl (fun p x => (call w p.1 x, returns w p.1 x ++ p.2)) (boot id e, [])).2

def sent (h : History) : List UInt16 := h.filterMap sentId

/-- The acts that send no INTENT. -/
def Act.Silent : Act ε → Prop
  | .log x => ∀ c, sentId (c, x) = none
  | .write type _ _ _ => type ≠ .intent
  | _ => True

theorem sent_cons {x : Client × Io} (hx : sentId x = none) (h : History) : sent (x :: h) = sent h := by
  unfold sent
  rw [List.filterMap_cons, hx]

theorem sent_act {a : Act ε} (ha : a.Silent) : sent (a.apply w s).trace = sent s.trace := by
  cases a with
  | log x => exact sent_cons (ha s.client) s.trace
  | write type ch payload bytes =>
    have hnone : ∀ ok, sentId (s.client, .write type ch payload ok) = none := by
      intro ok
      unfold sentId
      cases type <;> first | rfl | exact absurd rfl ha
    simp only [Act.apply, writeFrame]
    split <;> exact sent_cons (hnone _) s.trace
  | initiated f | repeated f => exact sent_cons (x := (s.client, .writeEstop f _)) rfl s.trace
  | _ => simp only [Act.apply, Sys.modify, setHubPublicKey]

/-- A silent sequence of acts sends no intent. -/
theorem sent_does (h : Does w Act.Silent s t) : sent t.trace = sent s.trace :=
  Path.frame (f := fun s => sent s.trace) h fun _ _ _ ha ⟨_, heq⟩ => heq ▸ sent_act ha

theorem Act.In.silent {T : FrameType → Prop} {N : Note → Prop} {K : Act ε → Prop} (hT : ∀ t, T t → t ≠ .intent)
    (hK : ∀ a, K a → a.Silent) : ∀ a : Act ε, Act.In T N K a → a.Silent :=
  Act.In.of_kinds (fun _ => trivial) (fun _ => trivial) (fun type _ _ _ => hT type) (fun _ _ _ => rfl) hK

/-- Reading frames is silent: the client sends no intent by itself. -/
theorem Reading.silent {frames : List RxFrame} {nowMs : UInt32} (a : Act ε) (h : Reading frames nowMs a) : a.Silent := by
  cases a with
  | log x =>
    cases x with
    | write type ch payload ok =>
      obtain ⟨rx, -, h⟩ := h
      cases rx <;> exact h.elim
    | _ => exact fun _ => rfl
  | write type ch payload bytes =>
    obtain ⟨rx, -, h⟩ := h
    cases rx <;> exact h.elim
  | _ => trivial

theorem sent_update (nowUs : UInt32) (frames : List RxFrame) (s : Sys ε) :
    sent (update w nowUs frames s).trace = sent s.trace := by
  have hread : ∀ nowMs (s : Sys ε), sent (frames.foldl (handleFrame w nowMs) s).trace = sent s.trace := fun _ _ =>
    sent_does (frames_does.mono (Act.In.silent (fun _ => Reply.no_intent) Reading.silent))
  unfold update
  refine (sent_does (pumps_does.mono (Act.In.silent ?_ ?_))).trans (hread _ _)
  · rintro _ (rfl | rfl | rfl) <;> decide
  · intro a ha
    match a with
    | .repeated _ _ | .giveUp | .stopProbe | .judge _ => trivial

/-- An id is returned when an INTENT was sent, and it is the id of that INTENT. -/
theorem sent_sendIntent (ch : UInt16) (values : IntentValueMap) (precondition : Option UInt16) (takeover : Bool)
    (s : Sys ε) : sent (sendIntent w ch values precondition takeover s).2.trace =
      (sendIntent w ch values precondition takeover s).1.toList ++ sent s.trace := by
  unfold sendIntent
  dsimp only
  split
  · rfl
  · split
    · rfl
    · split
      · rfl
      · split
        · rfl
        · unfold sendFrame
          split
          · rfl
          · rename_i frame _
            dsimp only
            cases (w.write frame s.env).1 <;> rfl

theorem Call.Allows.silent {x : Call ε} (a : Act ε) (h : x.Allows a) : a.Silent := by
  cases a with
  | log y =>
    cases y with
    | write type ch payload ok =>
      cases x with
      | connect =>
        rcases h with h | ⟨ok, h⟩
        · cases h
        · cases h
      | disconnect => cases h
      | _ => exact h.elim
    | _ => exact fun _ => rfl
  | write type ch payload bytes => cases x <;> exact h.elim
  | _ => trivial

/-- A call adds to the intents sent exactly what it returns. -/
theorem sent_call (x : Call ε) (s : Sys ε) : sent (call w s x).trace = returns w s x ++ sent s.trace := by
  have hother : (∀ e, x ≠ .world e) → (∀ nowUs frames, x ≠ .update nowUs frames) → (∀ t, x.Sends t → t ≠ .intent) →
      sent (call w s x).trace = sent s.trace := fun hw hu hT =>
    sent_does ((call_does hw hu).mono (Act.In.silent hT Call.Allows.silent))
  cases x with
  | world e => rfl
  | update nowUs frames => exact sent_update nowUs frames s
  | sendIntent ch values precondition takeover => exact sent_sendIntent ch values precondition takeover s
  | connect | disconnect | sendPairReq | sendPairKnock | runProbe =>
    exact hother nofun nofun (by rintro _ rfl; decide)
  | addSubscriptionWish | setCachedEtag | initiateEstop | setClientVersion | setHubPublicKey | requestHubSignature
  | setTokenPresentationMode => exact hother nofun nofun fun _ h => h.elim

/-- So a run has sent exactly what its calls returned. -/
theorem sent_run (id : ClientIdentity) (e : ε) (calls : List (Call ε)) :
    sent (run w id e calls).trace = returned w id e calls := by
  have hfold : ∀ calls : List (Call ε),
      (calls.foldl (fun p x => (call w p.1 x, returns w p.1 x ++ p.2)) (boot id e, [])).1 = run w id e calls ∧
      sent (run w id e calls).trace =
        (calls.foldl (fun p x => (call w p.1 x, returns w p.1 x ++ p.2)) (boot id e, [])).2 := by
    intro calls
    induction calls using List.reverseRecOn with
    | nil => exact ⟨rfl, rfl⟩
    | append_singleton calls x ih =>
      obtain ⟨hsys, hsent⟩ := ih
      rw [List.foldl_concat]
      unfold run at *
      rw [List.foldl_concat]
      refine ⟨congrArg (call w · x) hsys, ?_⟩
      rw [sent_call, hsent, hsys]
  exact (hfold calls).2

/-! ## The law -/

/-- What becomes of the intents that were sent. -/
structure Settled (c : Client) (h : History) (returned : List UInt16) : Prop where
  /-- The pending ids are those of the open tickets, oldest first. -/
  pending : c.pending = (desk h).keys
  /-- Every intent is open, or was settled or dropped, and not twice. -/
  once : (desk h).numbers.Perm (List.range (desk h).issued)
  /-- An answer that names a pending id settles one intent with that id, and no other is left. -/
  prompt : ∀ later x earlier id why, h = later ++ x :: earlier → event x = some (.settle id why) →
    (desk (x :: earlier)).keys = (desk earlier).keys.erase id ∧
      ((desk earlier).keys.Nodup → id ∉ (desk (x :: earlier)).keys)
  /-- The calls of `onEcho` and of `onPendingDropped`, in order. -/
  echoed : h.filterMap (fun x => x.2.echoed) = (desk h).closedBy .echo
  dropped : h.filterMap (fun x => x.2.dropped) = (desk h).closedBy .dropped
  idle : c.state ≠ .live → c.pending = []
  distinct : (∀ t ∈ (desk h).opened, (desk h).issued - (t.number + 1) < 65535) → c.pending.Nodup
  /-- One INTENT for every id returned, and it names that id. -/
  sent : sent h = returned
  returned : returned = ((List.range (desk h).issued).map intentIdAt).reverse
  names : ∀ x ∈ h, Names x
  due : ∀ t ∈ (desk h).tickets, t.number < (desk h).issued ∧ t.key = intentIdAt t.number

theorem event_issued (x : Client × Io) : (event x).bind Desk.Event.issued = sentId x := by
  obtain ⟨c, x⟩ := x
  cases x with
  | write type ch payload ok => cases type <;> cases ok <;> rfl
  | rx f =>
    match f with
    | .frame (.nack (some n)) =>
      unfold event
      cases hn : n.intentId <;> simp [hn, sentId, Desk.Event.issued]
    | .frame (.echo (some _)) | .frame .goodbye | .frame (.echo none) | .frame (.nack none) | .frame (.welcome _)
    | .frame (.state _ _ _) | .frame (.grant _) | .frame (.event _ _) | .frame (.blobChunk _) | .frame (.ping _)
    | .frame (.pairGrant _) | .frame (.hubSig _) | .frame (.probe _) | .frame .other | .estop | .badEstop | .short => rfl
  | _ => rfl

/-- The ids sent are those the desk has issued. -/
theorem sent_eq_issued (h : History) : sent h = (events h).filterMap Desk.Event.issued := by
  unfold sent events
  rw [List.filterMap_filterMap]
  exact congrArg (fun f => h.filterMap f) (funext fun x => (event_issued x).symm)

/-- **Every intent a client sends is settled exactly once, or still pending**, whatever its peer sends. -/
theorem intents_settled (w : World ε) (id : ClientIdentity) (e : ε) (calls : List (Call ε)) :
    Settled (run w id e calls).client (run w id e calls).trace (returned w id e calls) := by
  have hb := books_run (w := w) id e calls
  have hdue := Desk.keys_due hb.due
  constructor
  · exact hb.pending
  · exact Desk.numbers_perm _
  · rintro later x earlier id why - hx
    rw [desk_cons hx]
    exact ⟨Desk.keys_settle _ _ _, Desk.settled⟩
  · exact hb.echoed
  · exact hb.dropped
  · exact hb.idle
  · intro hlife
    rw [hb.pending]
    exact Desk.nodup_keys (fun _ _ => intentIdAt_ne) (fun t ht => hdue t (List.mem_append_left _ ht)) hlife
  · exact sent_run id e calls
  · rw [← sent_run, sent_eq_issued]
    exact Desk.issued_due hb.due
  · exact hb.names
  · exact hdue

end

end Client

end SlopSync
