import SlopSync.Hub.View

/-! # Invariants of the abstract hub

What every act preserves.  Nothing here mentions the model: these are properties of `Act` alone, and hold along
any run of acts. -/

namespace SlopSync

open Keyed Labelled

variable {c : Config} {now : UInt32} {rx : Option SlotIdx} {l : Label} {v v' : View}

/-! ## Who sits where -/

/-- The session in slot `k`, if there is one after the act, was there before. -/
def View.Stays (v v' : View) (k : SlotIdx) : Prop :=
  (v'.slots k).occupied → (v.slots k).occupied ∧ (v'.slots k).instanceId = (v.slots k).instanceId ∧
    (v'.slots k).sessionId = (v.slots k).sessionId

theorem stays_set {v v' : View} {i k : SlotIdx} {x : SlotView} (hs : v'.slots = (v.set i x).slots)
    (h : x.occupied → (v.slots i).occupied ∧ x.instanceId = (v.slots i).instanceId ∧
      x.sessionId = (v.slots i).sessionId) : v.Stays v' k := by
  unfold View.Stays
  rw [hs]
  by_cases hk : k = i
  · subst hk
    rw [View.slots_set_self]
    exact h
  · rw [View.slots_set_ne v hk]
    exact fun ho => ⟨ho, rfl, rfl⟩

theorem occupied_stale {x : SlotView} (h : x.state = .stale) : x.occupied := by
  unfold SlotView.occupied
  rw [h]
  decide

theorem occupied_live {x : SlotView} (h : x.state = .live) : x.occupied := by
  unfold SlotView.occupied
  rw [h]
  decide

/-- Only admission and migration put a session into a slot. -/
theorem Act.stays (h : Act c now rx l v v') (k : SlotIdx) :
    v.Stays v' k ∨ (∃ i r, l = .enrol i r ∧ k = i) ∨ ∃ i j, l = .migrate i j ∧ k = i := by
  cases h with
  | enrol i x =>
    by_cases hk : k = i
    · exact .inr (.inl ⟨i, x.ready, rfl, hk⟩)
    · refine .inl fun ho => ?_
      rw [show (({ v.set i x with drawn := x.sessionId :: v.drawn } : View).slots k) = v.slots k from
        View.slots_set_ne v hk x] at ho ⊢
      exact ⟨ho, rfl, rfl⟩
  | migrate i j =>
    by_cases hk : k = i
    · exact .inr (.inr ⟨i, j, rfl, hk⟩)
    · refine .inl ?_
      unfold View.Stays
      rw [View.slots_set_ne _ hk]
      exact stays_set (v := v) rfl fun ho => absurd ho (SlotView.not_occupied_cleared _)
  | subs i | pubs i | role i | settle i | ready i | accept i | rx i | attach i | detach i | resume i =>
    exact .inl (stays_set rfl fun ho => ⟨ho, rfl, rfl⟩)
  | free i => exact .inl (stays_set rfl fun ho => absurd ho (SlotView.not_occupied_cleared _))
  | revive i _ hst => exact .inl (stays_set rfl fun _ => ⟨occupied_stale hst, rfl, rfl⟩)
  | stale i hocc | live i _ hocc => exact .inl (stays_set rfl fun _ => ⟨hocc, rfl, rfl⟩)
  | _ => exact .inl fun ho => ⟨ho, rfl, rfl⟩

/-- No two sessions are of one instance. -/
def View.Distinct (v : View) : Prop :=
  ∀ i j, i ≠ j → (v.slots i).occupied → (v.slots j).occupied → (v.slots i).instanceId ≠ (v.slots j).instanceId

theorem slots_migrate {v : View} {i j : SlotIdx} {x : SlotView} (hij : i ≠ j) (k : SlotIdx) :
    (((v.set j (v.slots j).cleared).set i x).slots k) =
      if k = i then x else if k = j then (v.slots j).cleared else v.slots k := by
  by_cases hki : k = i
  · subst hki
    rw [View.slots_set_self, if_pos rfl]
  · rw [View.slots_set_ne _ hki, if_neg hki]
    by_cases hkj : k = j
    · subst hkj
      rw [View.slots_set_self, if_pos rfl]
    · rw [View.slots_set_ne _ hkj, if_neg hkj]

/-- What one act can do to the session in slot `k`: it stays or goes, it was admitted just now, or it came from
slot `j`. -/
inductive Seated (v v' : View) (l : Label) (k : SlotIdx) : Prop
  | stays (h : v.Stays v' k)
  | admitted (hl : ∃ r, l = .enrol k r) (hfree : ¬(v.slots k).occupied)
      (hinst : ∀ j, j ≠ k → (v.slots j).occupied → (v.slots j).instanceId ≠ (v'.slots k).instanceId)
      (hsid : (v'.slots k).sessionId ≠ 0) (hdrawn : v'.drawn = (v'.slots k).sessionId :: v.drawn)
      (hroom : (v.others k).card < kHubMaxSessions)
  | moved (j : SlotIdx) (hl : l = .migrate k j) (hjk : j ≠ k) (hocc : (v.slots j).occupied)
      (hfree : ¬(v.slots k).occupied) (hgone : ¬(v'.slots j).occupied)
      (hinst : (v'.slots k).instanceId = (v.slots j).instanceId)
      (hsid : (v'.slots k).sessionId = (v.slots j).sessionId)

theorem Act.seated (h : Act c now rx l v v') (k : SlotIdx) : Seated v v' l k := by
  rcases Act.stays h k with hs | ⟨i, r, rfl, rfl⟩ | ⟨i, j, rfl, rfl⟩
  · exact .stays hs
  · cases h with
    | enrol _ x hrx hfree ht hsid hinst hroom htr hst hlast hgr hdead hgrants =>
      have hx : (({ v.set k x with drawn := x.sessionId :: v.drawn } : View).slots k) = x := View.slots_set_self v k x
      exact .admitted ⟨_, rfl⟩ hfree (by rw [hx]; exact hinst) (by rw [hx]; exact hsid) (by rw [hx]) hroom
  · cases h with
    | migrate _ _ hrx hij hfree ht hst htj =>
      refine .moved j rfl hij.symm (occupied_stale hst) hfree ?_ ?_ ?_
      · rw [slots_migrate hij, if_neg hij.symm, if_pos rfl]
        exact SlotView.not_occupied_cleared _
      · rw [slots_migrate hij, if_pos rfl]
      · rw [slots_migrate hij, if_pos rfl]

/-- Between two slots after an act, at most one holds a session that was not there before. -/
theorem Act.others_stay (h : Act c now rx l v v') {k k' : SlotIdx} (hk : k' ≠ k) (hl : (∃ r, l = .enrol k r) ∨ ∃ j, l = .migrate k j) :
    v.Stays v' k' := by
  rcases Act.stays h k' with hs | ⟨i, r, hi, rfl⟩ | ⟨i, j, hi, rfl⟩
  · exact hs
  · rcases hl with ⟨r', rfl⟩ | ⟨j, rfl⟩ <;> cases hi
    exact absurd rfl hk
  · rcases hl with ⟨r', rfl⟩ | ⟨j, rfl⟩ <;> cases hi
    exact absurd rfl hk

theorem Act.distinct (h : Act c now rx l v v') (hd : v.Distinct) : v'.Distinct := by
  -- by symmetry the newcomer, if there is one, is the first of the two
  have key : ∀ i j, i ≠ j → (v'.slots i).occupied → (v'.slots j).occupied → v.Stays v' j →
      (v'.slots i).instanceId ≠ (v'.slots j).instanceId := by
    intro i j hij hi hj hsj
    obtain ⟨hoj, hinj, -⟩ := hsj hj
    rw [hinj]
    cases Act.seated h i with
    | stays hs =>
      obtain ⟨hoi, hini, -⟩ := hs hi
      rw [hini]
      exact hd i j hij hoi hoj
    | admitted hl hfree hinst => exact (hinst j hij.symm hoj).symm
    | moved k hl hki hock hfree hgone hinst =>
      rw [hinst]
      refine hd k j (fun e => ?_) hock hoj
      exact hgone (e ▸ hj)
  intro i j hij hi hj
  cases Act.seated h j with
  | stays hs => exact key i j hij hi hj hs
  | admitted hl => exact (key j i hij.symm hj hi (Act.others_stay h hij (.inl hl))).symm
  | moved k hl => exact (key j i hij.symm hj hi (Act.others_stay h hij (.inr ⟨k, hl⟩))).symm

/-! ## How many -/

/-- The slots that hold a session. -/
def View.sessions (v : View) : Finset SlotIdx := Finset.univ.filter fun k => (v.slots k).occupied

theorem mem_sessions {v : View} {k : SlotIdx} : k ∈ v.sessions ↔ (v.slots k).occupied := by
  simp [View.sessions]

theorem Act.card_sessions (h : Act c now rx l v v') (hc : v.sessions.card ≤ kHubMaxSessions) :
    v'.sessions.card ≤ kHubMaxSessions := by
  by_cases hnew : ∃ k, (∃ r, l = .enrol k r) ∨ ∃ j, l = .migrate k j
  · obtain ⟨k, hl⟩ := hnew
    have hsub : v'.sessions.erase k ⊆ v.sessions.erase k := by
      intro j hj
      obtain ⟨hjk, hjs⟩ := Finset.mem_erase.mp hj
      have hj' := mem_sessions.mp hjs
      exact Finset.mem_erase.mpr ⟨hjk, mem_sessions.mpr (Act.others_stay h hjk hl hj').1⟩
    have hle : v'.sessions.card ≤ (v'.sessions.erase k).card + 1 := by
      have := Finset.pred_card_le_card_erase (s := v'.sessions) (a := k)
      omega
    cases Act.seated h k with
    | stays hs =>
      have hsub' : v'.sessions ⊆ v.sessions := by
        intro j hj
        have hj' := mem_sessions.mp hj
        by_cases hjk : j = k
        · subst hjk
          exact mem_sessions.mpr (hs hj').1
        · exact mem_sessions.mpr (Act.others_stay h hjk hl hj').1
      exact (Finset.card_le_card hsub').trans hc
    | admitted hl' hfree hinst hsid hdrawn hroom =>
      have hoth : v.sessions.erase k ⊆ v.others k := by
        intro j hj
        obtain ⟨hjk, hjs⟩ := Finset.mem_erase.mp hj
        exact Finset.mem_filter.mpr ⟨Finset.mem_univ j, hjk, mem_sessions.mp hjs⟩
      have := Finset.card_le_card hsub
      have := Finset.card_le_card hoth
      omega
    | moved j hl' hjk hocc hfree hgone =>
      have hsub' : v'.sessions.erase k ⊆ v.sessions.erase j := by
        intro a ha
        obtain ⟨hak, has⟩ := Finset.mem_erase.mp ha
        refine Finset.mem_erase.mpr ⟨?_, (Finset.mem_erase.mp (hsub ha)).2⟩
        intro e
        subst e
        exact hgone (mem_sessions.mp has)
      have := Finset.card_le_card hsub'
      rw [Finset.card_erase_of_mem (mem_sessions.mpr hocc)] at this
      have : 0 < v.sessions.card := Finset.card_pos.mpr ⟨j, mem_sessions.mpr hocc⟩
      omega
  · refine (Finset.card_le_card fun k hk => ?_).trans hc
    have hk' := mem_sessions.mp hk
    rcases Act.stays h k with hs | ⟨i, r, hi, _⟩ | ⟨i, j, hi, _⟩
    · exact mem_sessions.mpr (hs hk').1
    · exact absurd ⟨i, .inl ⟨r, hi⟩⟩ hnew
    · exact absurd ⟨i, .inr ⟨j, hi⟩⟩ hnew

/-! ## How sessions end -/

/-- The act does not take the session out of slot `k`. -/
def Label.Spares (k : SlotIdx) : Label → Prop
  | .free i | .enrol i _ => i ≠ k
  | .migrate i j => i ≠ k ∧ j ≠ k
  | _ => True

/-- The slot holds a session with this id. -/
def View.Holds (v : View) (k : SlotIdx) (sid : UInt32) : Prop := (v.slots k).occupied ∧ (v.slots k).sessionId = sid

theorem holds_set {v v' : View} {i k : SlotIdx} {x : SlotView} {sid : UInt32} (hs : v'.slots = (v.set i x).slots)
    (h : k = i → (v.slots i).occupied → x.occupied ∧ x.sessionId = (v.slots i).sessionId) (hv : v.Holds k sid) :
    v'.Holds k sid := by
  unfold View.Holds
  rw [hs]
  by_cases hk : k = i
  · subst hk
    rw [View.slots_set_self]
    obtain ⟨ho, hsid⟩ := h rfl hv.1
    exact ⟨ho, hsid.trans hv.2⟩
  · rw [View.slots_set_ne v hk]
    exact hv

theorem Act.spares {k : SlotIdx} {sid : UInt32} (h : Act c now rx l v v') (hl : l.Spares k) (hv : v.Holds k sid) :
    v'.Holds k sid := by
  cases h with
  | enrol i x => exact holds_set (i := i) (x := x) rfl (fun e => absurd e.symm hl) hv
  | free i => exact holds_set rfl (fun e => absurd e.symm hl) hv
  | migrate i j hrx hij =>
    have hj : (v.set j (v.slots j).cleared).Holds k sid := holds_set rfl (fun e => absurd e.symm hl.2) hv
    exact holds_set rfl (fun e => absurd e.symm hl.1) hj
  | subs i | pubs i | role i | settle i | ready i | accept i | rx i | attach i | detach i | resume i =>
    exact holds_set rfl (fun _ ho => ⟨ho, rfl⟩) hv
  | revive i | stale i | live i => exact holds_set rfl (fun _ _ => ⟨⟨(fun h => nomatch h), (fun h => nomatch h)⟩, rfl⟩) hv
  | _ => exact hv

/-! ## Transports -/

/-- No transport serves two slots. -/
def View.Wired (v : View) : Prop :=
  ∀ i j t, (v.slots i).transport = some t → (v.slots j).transport = some t → i = j

/-- Every transport in a slot after the act was there before, unless it was attached there just now. -/
theorem Act.transport (h : Act c now rx l v v') {k : SlotIdx} {t : TransportId} (ht : (v'.slots k).transport = some t) :
    (v.slots k).transport = some t ∨ l = .attach k t := by
  have hset : ∀ (i : SlotIdx) (x : SlotView), v'.slots = (v.set i x).slots →
      (x.transport = some t → (v.slots i).transport = some t ∨ l = .attach i t) →
      (v.slots k).transport = some t ∨ l = .attach k t := by
    intro i x hs hx
    rw [hs] at ht
    by_cases hk : k = i
    · subst hk
      rw [View.slots_set_self] at ht
      exact hx ht
    · rw [View.slots_set_ne v hk] at ht
      exact .inl ht
  cases h with
  | subs i | pubs i | role i | settle i | ready i | accept i | rx i | revive i | stale i | live i | resume i | free i =>
    exact hset i _ rfl .inl
  | enrol i x _ _ _ _ _ _ htr => exact hset i x rfl fun h => .inl (htr ▸ h)
  | attach i t' => exact hset i _ rfl fun h => .inr (by cases h; rfl)
  | detach i => exact hset i _ rfl fun h => nomatch h
  | migrate i j hrx hij hfree hti hst htj =>
    rw [slots_migrate hij] at ht
    split at ht
    · rename_i hk
      exact .inl (hk ▸ ht)
    · split at ht
      · rename_i hk
        exact .inl (hk ▸ ht)
      · exact .inl ht
  | _ => exact .inl ht

/-- Only attaching a transport that is already somewhere else can break the wiring. -/
theorem Act.wired (h : Act c now rx l v v') (hw : v.Wired)
    (ha : ∀ i t, l = .attach i t → ∀ j, (v.slots j).transport = some t → j = i) : v'.Wired := by
  intro i j t hi hj
  rcases h.transport hi with hi | hi <;> rcases h.transport hj with hj | hj
  · exact hw i j t hi hj
  · exact ha j t hj i hi
  · exact (ha i t hi j hj).symm
  · rw [hi] at hj
    cases hj
    rfl

/-! ## Who is in control -/

/-- The slot holds the session `sid`, and it is not stale. -/
structure View.Mans (v : View) (i : SlotIdx) (sid : UInt32) : Prop where
  occupied : (v.slots i).occupied
  fresh : (v.slots i).state ≠ .stale
  id : (v.slots i).sessionId = sid

/-- Every source with an owner is owned by a session that is there. -/
def View.Manned (v : View) : Prop := ∀ src, v.owner src ≠ 0 → ∃ i, v.Mans i (v.owner src)

theorem mans_set {v v' : View} {i k : SlotIdx} {x : SlotView} {sid : UInt32} (hs : v'.slots = (v.set i x).slots)
    (h : k = i → v.Mans i sid → x.occupied ∧ x.state ≠ .stale ∧ x.sessionId = sid) (hv : v.Mans k sid) :
    v'.Mans k sid := by
  by_cases hk : k = i
  · subst hk
    have hx : v'.slots k = x := by rw [hs, View.slots_set_self]
    obtain ⟨ho, hst, hid⟩ := h rfl hv
    exact ⟨by rw [hx]; exact ho, by rw [hx]; exact hst, by rw [hx]; exact hid⟩
  · have hx : v'.slots k = v.slots k := by rw [hs, View.slots_set_ne v hk]
    exact ⟨by rw [hx]; exact hv.1, by rw [hx]; exact hv.2, by rw [hx]; exact hv.3⟩

/-- A session that owns a source stays in its slot, and is not stale, as long as it owns it. -/
theorem Act.mans {k : SlotIdx} {sid : UInt32} (h : Act c now rx l v v') (hown : ∃ src, v.owner src = sid ∧ sid ≠ 0)
    (hv : v.Mans k sid) : v'.Mans k sid := by
  obtain ⟨src, hsrc, h0⟩ := hown
  have hno : ∀ i, v.Unowned i → v.Mans i sid → False := fun i hun hm =>
    hun src (hsrc ▸ h0) (hsrc.trans hm.id.symm)
  cases h with
  | enrol i x _ hfree => exact mans_set (i := i) (x := x) rfl (fun _ hm => absurd hm.occupied hfree) hv
  | free i hun => exact mans_set rfl (fun _ hm => (hno i (hun hm.occupied) hm).elim) hv
  | stale i hocc hun => exact mans_set rfl (fun _ hm => (hno i hun hm).elim) hv
  | migrate i j hrx hij hfree ht hst =>
    have hj : (v.set j (v.slots j).cleared).Mans k sid := mans_set rfl (fun _ hm => absurd hst hm.fresh) hv
    refine mans_set rfl (fun _ hm => absurd hm.occupied ?_) hj
    rw [View.slots_set_ne v hij]
    exact hfree
  | subs i | pubs i | role i | settle i | ready i | accept i | rx i | attach i | detach i | resume i =>
    exact mans_set rfl (fun _ hm => ⟨hm.occupied, hm.fresh, hm.id⟩) hv
  | revive i | live i =>
    exact mans_set rfl (fun _ hm => ⟨⟨(fun h => nomatch h), (fun h => nomatch h)⟩, (fun h => nomatch h), hm.id⟩) hv
  | _ => exact ⟨hv.1, hv.2, hv.3⟩

/-- The owner of a source after an act is the one before, or the session that just took it. -/
theorem Act.owner (h : Act c now rx l v v') (src : UInt8) :
    v'.owner src = v.owner src ∨ v'.owner src = 0 ∨ ∃ i, v.Mans i (v'.owner src) := by
  cases h with
  | acquire i s takeover hrx hocc hst =>
    by_cases hs : src = s
    · subst hs
      have hown : Function.update v.owner src (v.slots i).sessionId src = (v.slots i).sessionId :=
        Function.update_self ..
      exact .inr (.inr ⟨i, hocc, hst, hown.symm⟩)
    · exact .inl (Function.update_of_ne hs ..)
  | release i =>
    by_cases hs : v.owner src = (v.slots i).sessionId
    · exact .inr (.inl (if_pos hs))
    · exact .inl (if_neg hs)
  | _ => exact .inl rfl

/-- Taking or leaving a source moves no session. -/
theorem Act.slots_of_owner (h : Act c now rx l v v') (hown : v'.owner ≠ v.owner) : v'.slots = v.slots := by
  cases h <;> first | rfl | exact absurd rfl hown

theorem Act.manned (h : Act c now rx l v v') (hv : v.Manned) : v'.Manned := by
  intro src h0
  by_cases hown : v'.owner = v.owner
  · rw [hown] at h0 ⊢
    obtain ⟨i, hi⟩ := hv src h0
    exact ⟨i, h.mans ⟨src, rfl, h0⟩ hi⟩
  · have hm : ∃ i, v.Mans i (v'.owner src) := by
      rcases h.owner src with hs | hs | hs
      · rw [hs] at h0 ⊢
        exact hv src h0
      · exact absurd hs h0
      · exact hs
    obtain ⟨i, ho, hf, hid⟩ := hm
    have hslots := h.slots_of_owner hown
    exact ⟨i, by rw [hslots]; exact ho, by rw [hslots]; exact hf, by rw [hslots]; exact hid⟩

/-- If no session id was drawn twice, no two sessions have the same. -/
def View.Ids (v : View) : Prop :=
  (∀ i, (v.slots i).occupied → (v.slots i).sessionId ≠ 0 ∧ (v.slots i).sessionId ∈ v.drawn) ∧
  (v.drawn.Nodup → ∀ i j, i ≠ j → (v.slots i).occupied → (v.slots j).occupied →
    (v.slots i).sessionId ≠ (v.slots j).sessionId)

theorem Act.drawn (h : Act c now rx l v v') : v.drawn <:+ v'.drawn := by
  cases h with
  | enrol i x => exact List.suffix_cons _ _
  | _ => exact List.suffix_refl _

theorem Act.ids (h : Act c now rx l v v') (hv : v.Ids) : v'.Ids := by
  have hmem : ∀ {sid}, sid ∈ v.drawn → sid ∈ v'.drawn := fun hs => h.drawn.mem hs
  refine ⟨fun i hi => ?_, fun hnd => ?_⟩
  · cases h.seated i with
    | stays hs =>
      obtain ⟨ho, -, hid⟩ := hs hi
      rw [hid]
      exact ⟨(hv.1 i ho).1, hmem (hv.1 i ho).2⟩
    | admitted _ _ _ hsid hdrawn => exact ⟨hsid, by rw [hdrawn]; exact List.mem_cons_self⟩
    | moved j _ _ hocc _ _ _ hsid =>
      rw [hsid]
      exact ⟨(hv.1 j hocc).1, hmem (hv.1 j hocc).2⟩
  · have hnd' : v.drawn.Nodup := hnd.sublist h.drawn.sublist
    -- as for instances: the newcomer, if there is one, is the first of the two
    have key : ∀ i j, i ≠ j → (v'.slots i).occupied → (v'.slots j).occupied → v.Stays v' j →
        (v'.slots i).sessionId ≠ (v'.slots j).sessionId := by
      intro i j hij hi hj hsj
      obtain ⟨hoj, -, hidj⟩ := hsj hj
      rw [hidj]
      cases h.seated i with
      | stays hs =>
        obtain ⟨hoi, -, hidi⟩ := hs hi
        rw [hidi]
        exact hv.2 hnd' i j hij hoi hoj
      | admitted _ _ _ _ hdrawn =>
        rw [hdrawn, List.nodup_cons] at hnd
        exact fun he => hnd.1 (he ▸ (hv.1 j hoj).2)
      | moved k _ _ hock _ hgone _ hsid =>
        rw [hsid]
        exact hv.2 hnd' k j (fun e => hgone (e ▸ hj)) hock hoj
    intro i j hij hi hj
    cases h.seated j with
    | stays hs => exact key i j hij hi hj hs
    | admitted hl => exact (key j i hij.symm hj hi (h.others_stay hij (.inl hl))).symm
    | moved k hl => exact (key j i hij.symm hj hi (h.others_stay hij (.inr ⟨k, hl⟩))).symm

/-! ## What is retained -/

theorem get_publishOr_other (r : RetainedStore) {ch x : UInt16} (hne : x ≠ ch) (payload : Bytes) :
    (publishOr r ch payload).get x = r.get x := by
  unfold publishOr
  cases hp : r.publish ch payload with
  | none => rfl
  | some p => exact RetainedStore.get_publish_other hne (n := p.2) hp

/-- A snapshot of a fitting size is shown, unless the store is full of other channels. -/
theorem get_publishOr_self (r : RetainedStore) (ch : UInt16) {payload : Bytes}
    (hlen : payload.length ≤ Limits.minTransportPayload) (hroom : ¬r.Crowded ch) :
    ((publishOr r ch payload).get ch).map RetainedEntry.payload = some payload := by
  unfold publishOr
  cases hp : r.publish ch payload with
  | none => exact absurd (RetainedStore.crowded_of_refused hlen hp) hroom
  | some p => exact RetainedStore.get_publish_self (n := p.2) hp

/-- A full store stays full. -/
theorem Crowded.publishOr {r : RetainedStore} {ch : UInt16} (h : r.Crowded ch) (x : UInt16) (payload : Bytes) :
    (publishOr r x payload).Crowded ch := by
  unfold SlopSync.publishOr
  cases hp : r.publish x payload with
  | none => exact h
  | some p =>
    refine ⟨?_, le_antisymm p.1.fits (h.2 ▸ RetainedStore.length_publish (n := p.2) hp)⟩
    by_cases hx : ch = x
    · subst hx
      -- a full store takes no new channel
      unfold RetainedStore.publish at hp
      rw [h.1] at hp
      split at hp
      · cases hp
      · rw [dif_neg (by rw [h.2]; decide)] at hp
        cases hp
    · exact (RetainedStore.get_publish_other hx (n := p.2) hp).trans h.1

end SlopSync
