import DdeSeatd.ServerRefinement

set_option autoImplicit false

/-! # DRM master

A DRM device counts as `active` while its file is DRM master. Assuming that dropping master
never fails, an active DRM device should belong to the active client, and that client should
be in state ACTIVE. Every function keeps this except `seat_handle_vt_event`: for a client that
owns the new VT it restores DRM master whatever state the client is in. A VT event that comes
back to a VT of the client before the client has acknowledged its disable therefore makes a
client in state PENDING_DISABLE DRM master again. -/

namespace DdeSeatd

open ClientState Labelled

/-- Active DRM devices belong to the active client, and it is in state ACTIVE. -/
def Server.DrmExclusive (s : Server) : Prop :=
  ∀ c ∈ s.live, ∀ d ∈ (s.clients c).devices, d.type = .drm → d.active = true →
    s.seat.activeClient = some c ∧ (s.clients c).state = active

instance (s : Server) : Decidable s.DrmExclusive := by
  unfold Server.DrmExclusive
  infer_instance

/-- A VT event back to a VT of the active client, which has a DRM device and has been asked to
disable but has not acknowledged it. -/
def Step.ReturnsBeforeAck (s : Server) : Step → Prop
  | .vtEvent _ newVt => ∃ a ∈ s.seat.activeClient, (s.clients a).state = pendingDisable
      ∧ clientOwnsVt s a newVt = true ∧ ∃ d ∈ (s.clients a).devices, d.type = .drm
  | _ => False

instance (s : Server) : (st : Step) → Decidable (st.ReturnsBeforeAck s)
  | .vtEvent _ _ => show Decidable (∃ _ ∈ _, _) from inferInstance
  | .connect _ | .request _ _ | .writable _ | .disconnect _ | .vtRelease | .vtAcquire
  | .controlConnect _ | .control _ _ | .controlWritable _ | .controlDisconnect _ => .isFalse id

/-! ## Devices -/

/-- The device is not DRM master. -/
def SeatDevice.NotMaster (d : SeatDevice) : Prop := d.type = .drm → d.active = false

section

variable {k : Kernel} (hdrop : ∀ tr fd, 0 ≤ k.ret tr (.drmDropMaster fd))

include hdrop

theorem Down.notMaster {evs : List Event} {d d' : SeatDevice} (h : Down k evs d d') :
    d'.NotMaster := by
  intro htype
  refine h.inactive fun call tr hcall => ?_
  rw [h.same.1] at htype
  simp only [SeatDevice.releaseCall, htype, Option.some.injEq] at hcall
  exact hcall ▸ hdrop tr d.fd

theorem notMaster_of_drop {evs : List Event} {ds ds' : List SeatDevice}
    (h : List.Forall₂ (fun d d' => if d.type = .drm then Down k evs d d' else d' = d) ds ds') :
    ∀ d ∈ ds', d.NotMaster := by
  intro d' hd' htype
  obtain ⟨d, _, hR⟩ := ListRel.exists_left h hd'
  split_ifs at hR with hdrm
  · exact hR.notMaster hdrop htype
  · exact absurd (hR ▸ htype) hdrm

end

/-! ## The invariant -/

/-- The devices of every client other than an ACTIVE active client are not DRM master. -/
def View.DrmExclusive (v : View) : Prop :=
  ∀ c ∈ v.live, (v.seat.activeClient = some c ∧ (v.client c).state = active)
    ∨ ∀ d ∈ (v.client c).devices, d.NotMaster

theorem Server.drmExclusive_iff (s : Server) : s.DrmExclusive ↔ (s.view none).DrmExclusive := by
  constructor
  · intro h c hc
    by_cases hact : s.seat.activeClient = some c ∧ (s.clients c).state = active
    · exact Or.inl hact
    · refine Or.inr fun d hd htype => ?_
      by_contra hne
      exact hact (h c hc d hd htype (by simpa using hne))
  · intro h c hc d hd htype hact
    rcases h c hc with hown | hno
    · exact hown
    · rw [hno d hd htype] at hact
      cases hact

/-- The devices of one client change. -/
theorem View.DrmExclusive.setDevices {v : View} (h : v.DrmExclusive) {c : ClientId}
    {ds : List SeatDevice}
    (hds : (v.seat.activeClient = some c ∧ (v.client c).state = active)
      ∨ ∀ d ∈ ds, d.NotMaster) : (v.setDevices c ds).DrmExclusive := by
  intro o ho
  by_cases hoc : o = c
  · simpa [hoc] using hds
  · simpa [hoc] using h o ho

/-- Giving DRM master back makes no difference to a client in state ACTIVE, or without DRM
devices. -/
def View.MayRestore (v : View) (c : ClientId) (st : ClientState) : Prop :=
  st = active ∨ ∀ d ∈ (v.client c).devices, d.type ≠ .drm

/-- Every transition keeps it, except for giving DRM master back to a client that is not in
state ACTIVE. -/
theorem View.DrmExclusive.trans {k : Kernel} (hdrop : ∀ tr fd, 0 ≤ k.ret tr (.drmDropMaster fd))
    {a : Act} {v v' : View} (h : v.DrmExclusive) (hwf : v.WF) (ht : a.Trans k v v')
    (hrestore : ∀ c st, a = .restoreDrm c st → v.MayRestore c st) : v'.DrmExclusive := by
  have ht' := ht
  obtain ⟨evs, hg, -, -, rfl⟩ := ht
  intro o ho
  by_cases hhas : ((a.effect v).push evs).seat.activeClient = some o
      ∧ (((a.effect v).push evs).client o).state = active
  · exact Or.inl hhas
  refine Or.inr fun d' hd' => ?_
  obtain ⟨hlive, ⟨d, hd, hturns⟩ | rfl⟩ := ht'.device hd'
  swap
  · exact absurd ⟨hg.2.1, by simpa [Act.effect, View.push] using hg.2.2.1⟩ hhas
  cases hturns with
  | counted heq =>
      rw [heq]
      refine (h o (hlive ho)).resolve_left (fun hhad => hhas ⟨hhad.1, ?_⟩) d hd
      simpa [Act.effect, View.push] using hhad.2
  | same ha =>
      rcases h o (hlive ho) with ⟨hactive, hstate⟩ | hno
      swap
      · exact hno d' hd
      -- the transition takes the seat from a client with devices, but spares them
      refine absurd ⟨?_, (ht'.state (fun hsets => ?_) fun _ => ?_).trans hstate⟩ hhas
      · cases a with
        | opened c => cases hg.2.2.1.symm.trans hactive
        | acked c =>
            obtain rfl : c = o := Option.some.inj (hg.1.symm.trans hactive)
            cases hg.2.symm.trans hstate
        | vacate c =>
            obtain rfl : c = o := Option.some.inj (hg.2.1.symm.trans hactive)
            rw [hg.2.2] at hd
            cases hd
        | _ => exact hactive
      · cases a with
        | opened c | disabled c => exact ha hsets
        | acked c => cases hg.2.symm.trans ((show c = o from hsets) ▸ hstate)
        | retire c => exact hg.2.1 ((show c = o from hsets) ▸ hactive)
        | _ => exact hsets
      · exact Nat.ne_of_lt (hwf.fresh o (hlive ho))
  | opened => exact absurd ⟨rfl, by simp [Act.effect, View.push]⟩ hhas
  | restored =>
      rcases hrestore o _ rfl with hst | hno
      · exact absurd ⟨hg.1, by simpa [Act.effect, View.push, hst] using hg.2.1⟩ hhas
      · exact fun htype => absurd (d.up_type ▸ htype) (hno d hd)
  | failed hdown | disabled hdown | dropped hdown => exact hdown.notMaster hdrop

/-! ## Runs -/

section

variable {k : Kernel} {s : Server}

/-- A step keeps it unless a VT event comes back before the acknowledgement. -/
theorem drmExclusive_step (hdrop : ∀ tr fd, 0 ≤ k.ret tr (.drmDropMaster fd))
    (hwf : (s.view none).WF) (h : s.DrmExclusive) {st : Step} (hst : ¬ st.ReturnsBeforeAck s) :
    (step k s st).DrmExclusive := by
  rw [Server.drmExclusive_iff] at h ⊢
  by_cases hret : ∃ o n a, st = .vtEvent o n ∧ s.seat.activeClient = some a
      ∧ clientOwnsVt s a n = true
  · obtain ⟨o, n, a, rfl, ha, hown⟩ := hret
    show ((seatHandleVtEvent k s o n).view none).DrmExclusive
    rw [view_seatHandleVtEvent_owned k s none ha hown]
    refine View.DrmExclusive.setDevices (v := (Act.vtEvent n).effect (s.view none)) h ?_
    rcases (hwf.active a ha).2 with hactive | hpending
    · exact Or.inl ⟨ha, hactive⟩
    · refine Or.inr fun d hd htype => ?_
      obtain ⟨d0, hd0, rfl⟩ := List.mem_map.mp hd
      exact absurd ⟨a, ha, hpending, hown, d0, hd0, d0.up_type ▸ htype⟩ hst
  · -- no other step gives DRM master back
    refine (Path.invariant (I := fun v => v.WF ∧ v.DrmExclusive) (fun a v v' hallowed ht hv =>
      ⟨hv.1.trans ht, hv.2.trans hdrop hv.1 ht ?_⟩) (step_path k s hwf st) ⟨hwf, h⟩).2
    rintro c cst rfl
    obtain ⟨oldVt, newVt, rfl, ha, hown⟩ := hallowed.cause
    exact absurd ⟨oldVt, newVt, c, rfl, ha, hown⟩ hret

/-- A VT event that comes back before the acknowledgement breaks it. -/
theorem returnsBeforeAck_step {st : Step} (hst : st.ReturnsBeforeAck s)
    (hwf : (s.view none).WF) : ¬ (step k s st).DrmExclusive := by
  cases st <;> first | exact absurd hst id | skip
  case vtEvent oldVt newVt =>
    obtain ⟨a, ha, hpending, hown, d, hd, htype⟩ := hst
    have hview : (step k s (.vtEvent oldVt newVt)).view none = _ :=
      view_seatHandleVtEvent_owned k s none ha hown oldVt
    rw [Server.drmExclusive_iff, hview]
    intro h
    obtain ⟨hplace, -⟩ := hwf.active_place ha
    rcases h a ((hwf.live_iff a).mpr (Or.inr hplace)) with ⟨-, hact⟩ | hno
    · rw [View.client_setDevices, if_pos rfl] at hact
      cases hpending.symm.trans hact
    · have hmem : d.up ∈ (s.clients a).devices.map SeatDevice.up := List.mem_map_of_mem hd
      rw [View.client_setDevices, if_pos rfl] at hno
      have := hno d.up hmem (d.up_type.trans htype)
      simp [SeatDevice.up, htype] at this

end

/-- A run without a VT event that comes back before the acknowledgement keeps it. -/
theorem drmExclusive_run {k : Kernel} (hdrop : ∀ tr fd, 0 ≤ k.ret tr (.drmDropMaster fd))
    (vtBound : Bool) (steps : List Step)
    (hmeets : Run.Meets (step k) (fun s st => ¬ st.ReturnsBeforeAck s) (serverInit vtBound) steps) :
    (run k vtBound steps).seat.vtBound = vtBound ∧ ((run k vtBound steps).view none).WF
      ∧ (run k vtBound steps).DrmExclusive :=
  Run.run_invariant_of_meets
    (P := fun s : Server => s.seat.vtBound = vtBound ∧ (s.view none).WF ∧ s.DrmExclusive)
    (fun s st h hst => ⟨(vtBound_step h.2.1 st).trans h.1, h.2.1.path (step_path k s h.2.1 st),
      drmExclusive_step hdrop h.2.1 h.2.2 hst⟩)
    ⟨rfl, wf_init vtBound, fun _ hc => (nomatch hc)⟩ steps hmeets

/-- **DRM master exclusivity.** If dropping DRM master never fails, active DRM devices belong
to an ACTIVE active client in every state of a run, if and only if no VT event of the run comes
back to a VT of a client whose disable is not acknowledged and that has a DRM device. -/
theorem drm_exclusive_iff (k : Kernel) (hdrop : ∀ tr fd, 0 ≤ k.ret tr (.drmDropMaster fd))
    (vtBound : Bool) (steps : List Step) :
    (∀ pre, pre <+: steps → (run k vtBound pre).DrmExclusive)
      ↔ Run.Meets (step k) (fun s st => ¬ st.ReturnsBeforeAck s) (serverInit vtBound) steps := by
  refine Run.forall_prefix_iff_meets (I := fun s : Server => (s.view none).WF ∧ s.DrmExclusive)
    (fun _ h => h.2) (fun s st h hst => ⟨h.1.path (step_path k s h.1 st), ?_⟩)
    (fun s st h hnext hst => ?_) ⟨wf_init vtBound, ?_⟩ steps
  · exact drmExclusive_step hdrop h.1 h.2 hst
  · exact returnsBeforeAck_step hst h.1 hnext
  · exact fun _ hc => (nomatch hc)

def CARD0 : CString :=
  ascii ['/', 'd', 'e', 'v', '/', 'd', 'r', 'i', '/', 'c', 'a', 'r', 'd', '0']

/-- A compositor on VT 1 opens a graphics card. -/
def openCard : List Step :=
  [.connect 100, .request 0 .openSeat, .request 0 (.openDevice CARD0)]

/-- Switching away and back faster than the compositor acknowledges leaves it DRM master while
its disable is pending. -/
theorem drm_active_while_pending :
    ¬ (run (.obliging 1) true (openCard ++ [.vtEvent 1 2, .vtEvent 2 1])).DrmExclusive := by
  decide +kernel

/-- The same run with the acknowledgement in time. -/
theorem drm_exclusive_acknowledged :
    (run (.obliging 1) true
      (openCard ++ [.vtEvent 1 2, .request 0 .disableSeat, .vtEvent 2 1])).DrmExclusive :=
  (drm_exclusive_iff (.obliging 1) (fun _ _ => le_rfl) true _).mpr (by decide +kernel) _
    List.prefix_rfl

end DdeSeatd
