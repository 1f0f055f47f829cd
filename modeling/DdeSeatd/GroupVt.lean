import DdeSeatd.ServerRefinement

set_option autoImplicit false

/-! # Switching inside a VT group

A client may own several VTs: its session and the group VTs registered for it. While the VTs
switched to all belong to the active client, it is to notice nothing but a short loss of DRM
master: `Transparent` says what it does not notice. Of the functions that take part in
switching, only `seat_vt_release` touches devices, and `seat_handle_vt_event` makes up for it. -/

namespace DdeSeatd

open ClientState Labelled

/-! ## The steps of a switch -/

inductive GroupStep where
  | vtRelease
  | vtActivate
  | vtEvent (oldVt newVt : Int)
  | switchVt (vt : Int)
  | setNextSession (session : Int)
  | createGroupVt (owner : ClientId) (requestedVt : Int)

/-- A step while `a` is the active client; it is `a` that asks for another session. -/
def groupStep (k : Kernel) (a : ClientId) (s : Server) : GroupStep → Server
  | .vtRelease => (seatVtRelease k s).2
  | .vtActivate => (seatVtActivate k s).2
  | .vtEvent oldVt newVt => seatHandleVtEvent k s oldVt newVt
  | .switchVt vt => (seatSwitchVt k s vt).2
  | .setNextSession session => (seatSetNextSession k s a session).2
  | .createGroupVt owner requestedVt => (seatCreateGroupVt k s owner requestedVt).2

/-- The VT events are to VTs of the client. -/
def GroupStep.StaysWith (a : ClientId) (s : Server) : GroupStep → Prop
  | .vtEvent _ newVt => clientOwnsVt s a newVt = true
  | _ => True

instance (a : ClientId) (s : Server) (st : GroupStep) : Decidable (st.StaysWith a s) := by
  cases st <;> unfold GroupStep.StaysWith <;> infer_instance

/-! ## What the active client does not notice -/

/-- The same device, except for `active`, and for an input device that is the same too. -/
def SeatDevice.SameInput (d d' : SeatDevice) : Prop :=
  d' = { d with active := d'.active } ∧ (d.IsInput → d'.active = d.active)

theorem SeatDevice.SameInput.refl (d : SeatDevice) : d.SameInput d := ⟨rfl, fun _ => rfl⟩

theorem SeatDevice.SameInput.trans {d d' d'' : SeatDevice} (h : d.SameInput d')
    (h' : d'.SameInput d'') : d.SameInput d'' := by
  obtain ⟨heq, hact⟩ := h
  obtain ⟨heq', hact'⟩ := h'
  have htype : d'.type = d.type := by rw [heq]
  refine ⟨by rw [heq', heq], fun hin => ?_⟩
  refine (hact' ?_).trans (hact hin)
  unfold SeatDevice.IsInput
  rwa [htype]

theorem SeatDevice.sameInput_up (d : SeatDevice) : d.SameInput d.up := by
  unfold SeatDevice.up
  split_ifs with htype
  · exact ⟨rfl, fun hin => absurd hin (SeatDevice.not_isInput (Or.inl htype))⟩
  · exact .refl d

theorem Down.eq_active {k : Kernel} {evs : List Event} {d d' : SeatDevice}
    (h : Down k evs d d') : d' = { d with active := d'.active } := by
  cases h <;> rfl

structure View.Transparent (a : ClientId) (v v' : View) : Prop where
  vtBound : v'.seat.vtBound = v.seat.vtBound
  activeClient : v'.seat.activeClient = v.seat.activeClient
  state : (v'.client a).state = (v.client a).state
  frames : ∀ c, seatFrames c v'.log = seatFrames c v.log
  devices : List.Forall₂ SeatDevice.SameInput (v.client a).devices (v'.client a).devices

namespace View.Transparent

variable {a : ClientId} {v v' v'' : View}

/-- Changes of the seat that concern neither the active client nor `vt_bound`. -/
theorem setSeat {seat : Seat} (hb : seat.vtBound = v.seat.vtBound)
    (ha : seat.activeClient = v.seat.activeClient) : v.Transparent a (v.setSeat seat) :=
  ⟨hb, ha, rfl, fun _ => rfl, List.forall₂_same.mpr fun d _ => .refl d⟩

theorem refl (a : ClientId) (v : View) : v.Transparent a v := setSeat rfl rfl

theorem trans (h : v.Transparent a v') (h' : v'.Transparent a v'') : v.Transparent a v'' where
  vtBound := h'.vtBound.trans h.vtBound
  activeClient := h'.activeClient.trans h.activeClient
  state := h'.state.trans h.state
  frames := fun c => (h'.frames c).trans (h.frames c)
  devices :=
    ListRel.forall₂_trans (R := SeatDevice.SameInput) (fun _ _ _ => .trans) h.devices h'.devices

theorem push {evs : List Event} (hevs : ∀ c, seatFrames c evs = []) :
    v.Transparent a (v.push evs) where
  vtBound := rfl
  activeClient := rfl
  state := rfl
  frames := fun c => by
    rw [show (v.push evs).log = evs ++ v.log from rfl, seatFrames_append, hevs, List.nil_append]
  devices := List.forall₂_same.mpr fun d _ => .refl d

theorem setDevices {ds : List SeatDevice}
    (hds : List.Forall₂ SeatDevice.SameInput (v.client a).devices ds) :
    v.Transparent a (v.setDevices a ds) where
  vtBound := rfl
  activeClient := rfl
  state := by simp
  frames := fun _ => rfl
  devices := by simpa using hds

end View.Transparent

/-- The transitions of the steps that do not switch. -/
def Act.Switches : Act → Prop
  | .setVt _ | .setPending _ | .dropDrm _ _ => True
  | _ => False

theorem transparent_path {k : Kernel} {a : ClientId} {v v' : View}
    (ha : v.seat.activeClient = some a) (hp : Act.Path k Act.Switches v v') :
    v.Transparent a v' := by
  refine Path.invariant (I := fun u => v.Transparent a u) ?_ hp (.refl a v)
  rintro b u u' hb ⟨evs, hg, hframe, -, rfl⟩ hu
  cases b <;> cases hb
  case dropDrm c ds =>
    obtain rfl : c = a := Option.some.inj (hg.1.symm.trans (hu.activeClient.trans ha))
    refine (hu.trans (.setDevices (hg.2.2.imp fun d d' hd => ?_))).trans (.push hframe)
    split_ifs at hd with htype
    · exact ⟨hd.eq_active, fun hin => absurd hin (SeatDevice.not_isInput (Or.inl htype))⟩
    · rw [hd]
      exact .refl d
  case setVt n =>
    have hset : u.Transparent a ((Act.setVt n).effect u) := .setSeat rfl rfl
    exact (hu.trans hset).trans (.push hframe)
  case setPending n =>
    have hset : u.Transparent a ((Act.setPending n).effect u) := .setSeat rfl rfl
    exact (hu.trans hset).trans (.push hframe)

/-! ## Steps and runs -/

section

variable (k : Kernel) (a : ClientId) (s : Server)

/-- After a VT event to one of its VTs, the active client is DRM master again. -/
theorem drm_active_vtEvent (ha : s.seat.activeClient = some a) {oldVt newVt : Int}
    (hown : clientOwnsVt s a newVt = true) :
    ∀ d ∈ ((groupStep k a s (.vtEvent oldVt newVt)).clients a).devices, d.type = .drm →
      d.active = true := by
  intro d hd htype
  have hview : (groupStep k a s (.vtEvent oldVt newVt)).view none = _ :=
    view_seatHandleVtEvent_owned k s none ha hown oldVt
  have hdevs : ((groupStep k a s (.vtEvent oldVt newVt)).clients a).devices
      = (s.clients a).devices.map SeatDevice.up := by
    refine (congrArg (fun u => (View.client u a).devices) hview).trans ?_
    simp
  rw [hdevs] at hd
  obtain ⟨d0, -, rfl⟩ := List.mem_map.mp hd
  have htype0 : d0.type = .drm := d0.up_type ▸ htype
  simp [SeatDevice.up, htype0]

/-- **A step inside the group is transparent** to the active client. -/
theorem transparent_groupStep (hb : s.seat.vtBound = true) (ha : s.seat.activeClient = some a)
    {st : GroupStep} (hst : st.StaysWith a s) :
    (s.view none).Transparent a ((groupStep k a s st).view none) := by
  cases st with
  | vtRelease =>
      exact transparent_path ha (seatVtRelease_path k s none trivial fun _ _ => trivial)
  | vtActivate => exact transparent_path ha (seatVtActivate_path k s none trivial)
  | vtEvent oldVt newVt =>
      show (s.view none).Transparent a ((seatHandleVtEvent k s oldVt newVt).view none)
      rw [view_seatHandleVtEvent_owned k s none ha hst]
      have hset : (s.view none).Transparent a ((Act.vtEvent newVt).effect (s.view none)) :=
        .setSeat rfl rfl
      refine hset.trans (.setDevices ?_)
      exact List.forall₂_map_right_iff.mpr (List.forall₂_same.mpr fun d _ => d.sameInput_up)
  | switchVt vt =>
      exact transparent_path ha (seatSwitchVt_path k s (fun _ => trivial) fun _ _ _ => trivial)
  | setNextSession session =>
      exact transparent_path ha (seatSetNextSession_vt k s none session (fun _ _ => trivial) hb a)
  | createGroupVt owner requestedVt =>
      show (s.view none).Transparent a ((seatCreateGroupVt k s owner requestedVt).2.view none)
      rcases seatCreateGroupVt_cases k s none owner requestedVt with
        hview | ⟨vt, -, -, -, -, -, -, -, hview⟩
      · rw [hview]
        exact .refl a _
      · rw [hview]
        exact .setSeat rfl rfl

theorem transparent_run (hb : s.seat.vtBound = true) (ha : s.seat.activeClient = some a)
    (steps : List GroupStep)
    (hmeets : Run.Meets (groupStep k a) (fun s st => st.StaysWith a s) s steps) :
    (s.view none).Transparent a ((Run.run (groupStep k a) s steps).view none) := by
  refine Run.run_invariant_of_meets
    (P := fun s' : Server => (s.view none).Transparent a (s'.view none)) ?_ (.refl a _) steps hmeets
  intro s' st h hst
  exact h.trans (transparent_groupStep k a s' (h.vtBound.trans hb) (h.activeClient.trans ha) hst)

end

/-- **Switching inside the VT group of the active client is transparent to it.** From any state
of a VT-bound seat with an ACTIVE active client, while the VT events are to its own VTs: it
stays the ACTIVE active client, no client is sent a seat event, its input devices are what they
were, and after every VT event it is DRM master on all its DRM devices. -/
theorem group_switch_transparent (k : Kernel) (s : Server) (a : ClientId)
    (hb : s.seat.vtBound = true) (ha : s.seat.activeClient = some a)
    (hst : (s.clients a).state = active) (steps : List GroupStep)
    (hown : Run.Meets (groupStep k a) (fun s st => st.StaysWith a s) s steps) :
    let s' := Run.run (groupStep k a) s steps
    s'.seat.activeClient = some a ∧ (s'.clients a).state = active
    ∧ (∀ c, seatFrames c s'.trace = seatFrames c s.trace)
    ∧ List.Forall₂ SeatDevice.SameInput (s.clients a).devices (s'.clients a).devices
    ∧ ∀ pre oldVt newVt, pre ++ [.vtEvent oldVt newVt] <+: steps →
        ∀ d ∈ ((Run.run (groupStep k a) s (pre ++ [.vtEvent oldVt newVt])).clients a).devices,
          d.type = .drm → d.active = true := by
  intro s'
  have hrun := transparent_run k a s hb ha steps hown
  refine ⟨hrun.activeClient.trans ha, hrun.state.trans hst, fun c => ?_, hrun.devices, ?_⟩
  · rw [← seatFrames_view s' none, ← seatFrames_view s none]
    exact hrun.frames c
  · rintro pre oldVt newVt ⟨rest, rfl⟩
    rw [List.append_assoc, Run.meets_append] at hown
    obtain ⟨hpre, hevent, -⟩ := hown
    rw [Run.run_append]
    exact drm_active_vtEvent k a _
      ((transparent_run k a s hb ha pre hpre).activeClient.trans ha) hevent

/-- A compositor on VT 1 with the group VT 2 and a graphics card. -/
def groupOfTwo : Server :=
  run (.obliging 1) true
    [.connect 100, .request 0 .openSeat,
      .request 0 (.openDevice (DRI_PREFIX ++ ascii ['c', 'a', 'r', 'd', '0'])),
      .controlConnect 1, .control 0 (.createGroupVt 100 2)]

/-- A switch to the group VT that nobody asked for. -/
theorem switch_to_group_vt :
    let s' := Run.run (groupStep (.obliging 1) 0) groupOfTwo [.vtRelease, .vtEvent 1 2]
    s'.seat.curVt = 2 ∧ (s'.clients 0).state = active ∧ seatFrames 0 s'.trace = [.enableSeat]
    ∧ ∀ d ∈ (s'.clients 0).devices, d.type = .drm ∧ d.active = true := by
  have h := group_switch_transparent (.obliging 1) groupOfTwo 0 (by decide +kernel)
    (by decide +kernel) (by decide +kernel) [.vtRelease, .vtEvent 1 2]
    (by decide +kernel)
  exact ⟨by decide +kernel, h.2.1, (h.2.2.1 0).trans (by decide +kernel), by decide +kernel⟩

end DdeSeatd
