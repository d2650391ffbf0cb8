import SlopSync.Hub.Bench
import SlopSync.Refine.Run

/-! # No orphaned control

Every source that has an owner is owned by a session that is there and not stale, and the retained control-owner
snapshot is in step with the table whenever an owner changes. -/

namespace SlopSync

open Keyed Labelled

section

variable {ε : Type} {w : World ε} {c : Config} {now : UInt32} {rx : Option SlotIdx} {s : Sys ε}

/-! ## Owners -/

theorem reachBy_manned {G : Sys ε → Move ε → Prop} (h : ReachBy w c G s) : s.view.Manned :=
  h.invariant (fun _ _ h0 => absurd rfl h0) fun _ _ _ _ _ _ _ ha => ha.manned

theorem reachBy_ids {G : Sys ε → Move ε → Prop} (h : ReachBy w c G s) : s.view.Ids :=
  h.invariant (fun _ => ⟨fun _ ho => absurd rfl ho.1, fun _ _ _ _ ho => absurd rfl ho.1⟩)
    fun _ _ _ _ _ _ _ ha => ha.ids

/-! ## The snapshot -/

theorem length_ownerPayload (owner : UInt8 → UInt32) : (ownerPayload owner).length ≤ Limits.minTransportPayload := by
  simp [ownerPayload, le32, Limits.minTransportPayload]

/-- The control-owner snapshot is what the table says, unless the store is full of other channels. -/
def View.InStep (v : View) : Prop :=
  ¬v.retained.Crowded Channels.controlOwner →
    (v.retained.get Channels.controlOwner).map RetainedEntry.payload = some (ownerPayload v.owner)

theorem inStep_snapshot {v : View} {r : RetainedStore} (hcat : (c.catalog.find Channels.controlOwner).isSome)
    (hv : v.retained = snapshotOwners c r v.owner) : v.InStep := by
  unfold snapshotOwners at hv
  rw [if_neg (by simpa [Option.isSome_iff_ne_none] using hcat)] at hv
  intro hroom
  rw [hv] at hroom ⊢
  exact get_publishOr_self r _ (length_ownerPayload _) fun h => hroom (Crowded.publishOr h _ _)

theorem View.InStep.publishOr {v v' : View} (h : v.InStep) {ch : UInt16} (hch : ch ≠ Channels.controlOwner) {payload : Bytes}
    (hown : v'.owner = v.owner) (hret : v'.retained = publishOr v.retained ch payload) : v'.InStep := by
  intro hroom
  rw [hret] at hroom
  rw [hret, hown, get_publishOr_other _ hch.symm]
  exact h fun hc => hroom (Crowded.publishOr hc _ _)

/-- An act that changes an owner brings the snapshot in step; any other leaves it as it is. -/
theorem Act.inStep {l : Label} {v v' : View} (hcat : (c.catalog.find Channels.controlOwner).isSome)
    (hl : l ≠ .retain Channels.controlOwner) (h : Act c now rx l v v') :
    v'.InStep ∨ v'.owner = v.owner ∧ (v.InStep → v'.InStep) := by
  cases h with
  | acquire i src => exact .inl (inStep_snapshot (c := c) hcat rfl)
  | release i reason srcs r _ _ _ _ hr =>
    rcases hr with rfl | ⟨rfl, hown⟩
    · exact .inl (inStep_snapshot (c := c) hcat rfl)
    · refine .inr ⟨hown, fun hv => ?_⟩
      unfold View.InStep
      dsimp only
      rw [hown]
      exact hv
  | safety st | clear st => exact .inr ⟨rfl, fun hv => hv.publishOr (by decide) rfl rfl⟩
  | retain ch payload => exact .inr ⟨rfl, fun hv => hv.publishOr (fun e => hl (e ▸ rfl)) rfl rfl⟩
  | _ => exact .inr ⟨rfl, id⟩

/-- A public call that changes an owner leaves the snapshot in step. -/
theorem call_inStep (k : Call ε) (hd : s.view.Distinct) (hcat : (c.catalog.find Channels.controlOwner).isSome) :
    (call w c s k).view.owner = s.view.owner ∨ (call w c s k).view.InStep := by
  by_cases hpub : ∃ payload, k = .publishState Channels.controlOwner payload
  · obtain ⟨payload, rfl⟩ := hpub
    refine .inl ?_
    show (retain Channels.controlOwner payload s).view.owner = _
    rw [view_retain]
  · have hsteps := call_steps (w := w) (c := c) (H := fun _ k' => k' = k) hd rfl
    refine hsteps.invariant (I := fun v => v.owner = s.view.owner ∨ v.InStep) hd ?_ (.inl rfl)
    intro t m hG l v v' hl ha hv
    have hne : l ≠ .retain Channels.controlOwner := by
      rintro rfl
      rcases retain_of_moveLabel hl with hp | ⟨payload, rfl⟩
      · exact hp.2 rfl
      · exact hpub ⟨payload, (show _ = k from hG).symm⟩
    rcases ha.inStep hcat hne with hi | ⟨hown, hkeep⟩
    · exact .inr hi
    · exact hv.imp hown.trans hkeep

/-! ## No orphaned control -/

/-- **No orphaned control.** -/
theorem no_orphaned_control (h : Reachable w c s) (hids : (s.trace.filterMap drawnOf).Nodup) :
    (∀ src, s.hub.ownership.ownerOf src ≠ 0 → ∃! i, (s.session i).occupied = true ∧ (s.session i).state ≠ .stale ∧
      (s.session i).sessionId = s.hub.ownership.ownerOf src) ∧
    ∀ k, (c.catalog.find Channels.controlOwner).isSome →
      (∃ src < 4, (call w c s k).hub.ownership.ownerOf src ≠ s.hub.ownership.ownerOf src) →
      ¬(call w c s k).hub.retained.Crowded Channels.controlOwner →
      ((call w c s k).hub.retained.get Channels.controlOwner).map RetainedEntry.payload =
        some (buildControlOwnerPayload (call w c s k).hub.ownership) := by
  have hreach := reachBy_of_reachable h
  refine ⟨fun src h0 => ?_, fun k hcat hch hroom => ?_⟩
  · obtain ⟨i, ho, hf, hid⟩ := reachBy_manned hreach src h0
    refine ⟨i, ⟨(occupied_view s i).mp ho, hf, hid⟩, ?_⟩
    rintro j ⟨hoj, _, hidj⟩
    by_contra hji
    exact (reachBy_ids hreach).2 hids j i hji ((occupied_view s j).mpr hoj) ho (hidj.trans hid.symm)
  · rcases call_inStep (w := w) k hreach.distinct hcat with hown | hstep
    · obtain ⟨src, _, hsrc⟩ := hch
      exact absurd (congrFun hown src) hsrc
    · exact hstep hroom

end

/-- A client with control, on a hub whose application maps every channel to source 0. -/
def Bench.piloted : List (Call Bench) :=
  [.world { source := some 0, answer := .control }, .attachTransport 0,
    Bench.reads 1000 0 [.hello (some (Bench.hello 1))]]

/-- The client steers. -/
def Bench.steer : Call Bench := Bench.reads 2000 0 [.intent (some { intentId := 1, channelId := 0x0100 })]

/-- Steering makes the client the owner of the source, and the snapshot says so. -/
theorem no_orphaned_control_piloted :
    (call Bench.world Bench.config (run Bench.world Bench.config {} Bench.piloted) Bench.steer).hub.ownership.ownerOf 0 =
      1 ∧
    ((call Bench.world Bench.config (run Bench.world Bench.config {} Bench.piloted) Bench.steer).hub.retained.get
      Channels.controlOwner).map RetainedEntry.payload = some (buildControlOwnerPayload
        (call Bench.world Bench.config (run Bench.world Bench.config {} Bench.piloted) Bench.steer).hub.ownership) := by
  have hreach : Reachable Bench.world Bench.config (run Bench.world Bench.config {} Bench.piloted) :=
    ⟨{}, Bench.piloted, rfl⟩
  have hlaw := (no_orphaned_control hreach (by decide +kernel)).2 Bench.steer (by decide)
  refine ⟨by decide +kernel, hlaw ⟨0, by decide, by decide +kernel⟩ ?_⟩
  unfold RetainedStore.Crowded
  decide +kernel

/-- The host fills the retained store with channels of its own. -/
def Bench.crowded : List (Call Bench) :=
  (List.range 31).map (fun n => .publishState (0x1000 + UInt16.ofNat n) []) ++ Bench.piloted

/-- With a full store the snapshot is not published when the owner changes. -/
theorem snapshot_refused : ¬∀ s, Reachable Bench.world Bench.config s → (s.trace.filterMap drawnOf).Nodup → ∀ k,
    (∃ src < 4, (call Bench.world Bench.config s k).hub.ownership.ownerOf src ≠ s.hub.ownership.ownerOf src) →
    ((call Bench.world Bench.config s k).hub.retained.get Channels.controlOwner).map RetainedEntry.payload =
      some (buildControlOwnerPayload (call Bench.world Bench.config s k).hub.ownership) := by
  intro h
  have hreach : Reachable Bench.world Bench.config (run Bench.world Bench.config {} Bench.crowded) :=
    ⟨{}, Bench.crowded, rfl⟩
  have hsnap := h _ hreach (by decide +kernel) Bench.steer ⟨0, by decide, by decide +kernel⟩
  revert hsnap
  decide +kernel

end SlopSync
