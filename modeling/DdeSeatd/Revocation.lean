import DdeSeatd.ServerRefinement

set_option autoImplicit false

/-! # No input after losing the seat

An fd that a client was given stays with the client, so access to an input device ends only by
revoking the file description behind it. Assuming that revoking never fails, the input devices
a client was ever given are revoked whenever it is not the ACTIVE active client.

The argument needs one more fact, about the device lists: an input device that is not active
has been revoked. `seat_open_device` may hand out a device that was opened before, and this says
that doing so gives nothing away. -/

namespace DdeSeatd

open ClientState Labelled

/-! ## Devices -/

theorem SeatDevice.isInput_of_type {d d' : SeatDevice} (htype : d.type = d'.type)
    (h : d'.IsInput) : d.IsInput := by
  unfold SeatDevice.IsInput at h ⊢
  rwa [htype]

/-- What the device is to its owner: an input device, which is active. -/
def SeatDevice.Reads (d : SeatDevice) (fd : Nat) (type : SeatDeviceType) : Prop :=
  d.fd = fd ∧ d.type = type ∧ d.active = true

/-- A change of a client's devices that recorded `evs`: active input devices are still there or
revoked, and no input device became inactive without being revoked. -/
structure Accounted (evs : List Event) (ds ds' : List SeatDevice) : Prop where
  active : ∀ d ∈ ds, d.IsInput → d.active = true →
    Revoked evs d.fd ∨ ∃ d' ∈ ds', d'.Reads d.fd d.type
  inactive : ∀ d' ∈ ds', d'.IsInput → d'.active = false →
    Revoked evs d'.fd ∨ ∃ d ∈ ds, d.IsInput ∧ d.active = false ∧ d.fd = d'.fd

theorem Accounted.of_subset {evs : List Event} {ds ds' : List SeatDevice} (hsub : ds' ⊆ ds)
    (hlost : ∀ d ∈ ds, d ∉ ds' → d.IsInput → d.active = true → Revoked evs d.fd) :
    Accounted evs ds ds' where
  active := fun d hd hin hact => by
    by_cases hd' : d ∈ ds'
    · exact Or.inr ⟨d, hd', rfl, rfl, hact⟩
    · exact Or.inl (hlost d hd hd' hin hact)
  inactive := fun d hd hin hact => Or.inr ⟨d, hsub hd, hin, hact, rfl⟩

/-- A change device by device that keeps fd, type and `active` of the input devices. -/
theorem Accounted.of_forall₂ {evs : List Event} {R : SeatDevice → SeatDevice → Prop}
    {ds ds' : List SeatDevice} (h : List.Forall₂ R ds ds')
    (hR : ∀ d d', R d d' → d'.type = d.type ∧ d'.fd = d.fd ∧ (d.IsInput → d'.active = d.active)) :
    Accounted evs ds ds' where
  active := fun d hd hin hact => by
    obtain ⟨d', hd', hdd'⟩ := ListRel.exists_right h hd
    obtain ⟨htype, hfd, hkeep⟩ := hR d d' hdd'
    exact Or.inr ⟨d', hd', hfd, htype, (hkeep hin).trans hact⟩
  inactive := fun d' hd' hin hact => by
    obtain ⟨d, hd, hdd'⟩ := ListRel.exists_left h hd'
    obtain ⟨htype, hfd, hkeep⟩ := hR d d' hdd'
    have hin' : d.IsInput := SeatDevice.isInput_of_type htype.symm hin
    exact Or.inr ⟨d, hd, hin', (hkeep hin').symm.trans hact, hfd.symm⟩

section

variable {k : Kernel} (hevdev : ∀ tr fd, 0 ≤ k.ret tr (.evdevRevoke fd))
  (hhidraw : ∀ tr fd, 0 ≤ k.ret tr (.hidrawRevoke fd)) {evs : List Event}

include hevdev hhidraw

theorem Down.input_inactive {d d' : SeatDevice} (h : Down k evs d d')
    (hin : d.IsInput) : d'.active = false := by
  refine h.inactive fun call tr hcall => ?_
  rcases hin with hin | hin <;> simp [SeatDevice.releaseCall, hin] at hcall <;> subst hcall
  · exact hevdev tr d.fd
  · exact hhidraw tr d.fd

/-- Deactivating an active input device revokes it. -/
theorem Down.revoked {d d' : SeatDevice} (h : Down k evs d d') (hin : d.IsInput)
    (hact : d.active = true) : Revoked evs d.fd := by
  have hoff := h.input_inactive hevdev hhidraw hin
  cases h with
  | idle _ | stuck _ _ _ _ =>
      rw [hoff] at hact
      cases hact
  | done _ hrev => exact hrev hin

/-- Deactivating all devices accounts for them, with every active input device revoked. -/
theorem accounted_of_down {ds ds' : List SeatDevice}
    (h : List.Forall₂ (Down k evs) ds ds') : Accounted evs ds ds' where
  active := fun d hd hin hact => by
    obtain ⟨d', -, hdown⟩ := ListRel.exists_right h hd
    exact Or.inl (hdown.revoked hevdev hhidraw hin hact)
  inactive := fun d' hd' hin hact => by
    obtain ⟨d, hd, hdown⟩ := ListRel.exists_left h hd'
    obtain ⟨htype, hfd⟩ := hdown.same
    have hin' : d.IsInput := SeatDevice.isInput_of_type htype.symm hin
    cases hd0 : d.active with
    | true => exact Or.inl (hfd ▸ hdown.revoked hevdev hhidraw hin' hd0)
    | false => exact Or.inr ⟨d, hd, hin', hd0, hfd.symm⟩

end

/-! ## The invariant -/

/-- The client is the ACTIVE active client and has an active device with this fd. -/
def View.Holds (v : View) (c : ClientId) (fd : Nat) (type : SeatDeviceType) : Prop :=
  v.seat.activeClient = some c ∧ (v.client c).state = active
    ∧ ∃ d ∈ (v.client c).devices, d.Reads fd type

structure View.InputSafe (v : View) : Prop where
  queued : ∀ c fd type, (c, fd, type) ∈ queuedFds v.log → type = .evdev ∨ type = .hidraw →
    Revoked v.log fd ∨ v.Holds c fd type
  inactive : ∀ c, ∀ d ∈ (v.client c).devices, d.IsInput → d.active = false → Revoked v.log d.fd

/-- All input ever given to clients is revoked. -/
def View.AllRevoked (v : View) : Prop :=
  ∀ c fd type, (c, fd, type) ∈ queuedFds v.log → type = .evdev ∨ type = .hidraw →
    Revoked v.log fd

section

variable {v : View} {evs : List Event}

theorem Revoked.push {fd : Nat} (h : Revoked v.log fd) :
    Revoked (v.push evs).log fd :=
  h.mono (List.subset_append_right _ _)

theorem Revoked.pushed {fd : Nat} (h : Revoked evs fd) :
    Revoked (v.push evs).log fd :=
  h.mono (List.subset_append_left _ _)

theorem mem_queuedFds_push (hq : queuedFds evs = []) {e : ClientId × Nat × SeatDeviceType}
    (he : e ∈ queuedFds (v.push evs).log) :
    e ∈ queuedFds v.log := by
  rwa [View.push, queuedFds_append, hq, List.nil_append] at he

/-- While no ACTIVE client holds an active input device, everything is revoked. -/
theorem View.InputSafe.allRevoked (h : v.InputSafe)
    (hnone : ∀ c, v.seat.activeClient = some c → (v.client c).state = active →
      ∀ d ∈ (v.client c).devices, d.IsInput → d.active = false) : v.AllRevoked := by
  intro c fd type hmem hin
  rcases h.queued c fd type hmem hin with hrev | ⟨ha, hst, d, hd, -, htype, hact⟩
  · exact hrev
  · have := hnone c ha hst d hd (by unfold SeatDevice.IsInput; rwa [htype])
    rw [this] at hact
    cases hact

/-- A change of the devices of one client that accounts for them. -/
theorem View.InputSafe.setDevices (h : v.InputSafe) {c : ClientId} {ds : List SeatDevice}
    (hq : queuedFds evs = []) (hacc : Accounted evs (v.client c).devices ds) :
    ((v.setDevices c ds).push evs).InputSafe := by
  refine ⟨fun o fd type hmem hin => ?_, fun o d hd hin hact => ?_⟩
  · rcases h.queued o fd type (mem_queuedFds_push (v := v) hq hmem) hin with
      hrev | ⟨ha, hst, d, hd, hfd, htype, hact⟩
    · exact Or.inl (hrev.push (v := v))
    · by_cases hoc : o = c
      · subst hoc
        have hin' : d.IsInput := by unfold SeatDevice.IsInput; rwa [htype]
        rcases hacc.active d hd hin' hact with hrev | ⟨d', hd', hreads⟩
        · exact Or.inl (hfd ▸ hrev.pushed (v := v))
        · refine Or.inr ⟨ha, ?_, d', ?_, hfd ▸ htype ▸ hreads⟩
          · simpa [View.push] using hst
          · simpa [View.push] using hd'
      · refine Or.inr ⟨ha, ?_, d, ?_, hfd, htype, hact⟩
        · simpa [View.push, hoc] using hst
        · simpa [View.push, hoc] using hd
  · by_cases hoc : o = c
    · subst hoc
      have hd' : d ∈ ds := by simpa [View.push] using hd
      rcases hacc.inactive d hd' hin hact with hrev | ⟨d0, hd0, hin0, hact0, hfd⟩
      · exact hrev.pushed (v := v)
      · exact hfd ▸ (h.inactive o d0 hd0 hin0 hact0).push (v := v)
    · have hd' : d ∈ (v.client o).devices := by simpa [View.push, hoc] using hd
      exact (h.inactive o d hd' hin hact).push (v := v)

/-- Where everything is revoked, it does not matter who is active. -/
theorem View.InputSafe.of_allRevoked (h : v.InputSafe) (hall : v.AllRevoked) {v' : View}
    (hlog : v'.log = v.log) (hdev : ∀ c, (v'.client c).devices = (v.client c).devices) :
    v'.InputSafe where
  queued := fun c fd type hmem hin => by
    rw [hlog] at hmem ⊢
    exact Or.inl (hall c fd type hmem hin)
  inactive := fun c d hd hin hact => by
    rw [hdev] at hd
    rw [hlog]
    exact h.inactive c d hd hin hact

/-- A change that leaves the active client and all devices alone; a client that is not active
may lose its devices. -/
theorem View.InputSafe.keep (h : v.InputSafe) {v' : View} (hq : queuedFds evs = [])
    (hlog : v'.log = evs ++ v.log) (hactive : v'.seat.activeClient = v.seat.activeClient)
    (hstate : ∀ c, v.seat.activeClient = some c → (v'.client c).state = (v.client c).state)
    (hdev : ∀ c, (v'.client c).devices = (v.client c).devices
      ∨ (v'.client c).devices = [] ∧ v.seat.activeClient ≠ some c) : v'.InputSafe where
  queued := fun c fd type hmem hin => by
    rw [hlog] at hmem ⊢
    rcases h.queued c fd type (mem_queuedFds_push (v := v) hq hmem) hin with
      hrev | ⟨ha, hst, hreads⟩
    · exact Or.inl (hrev.push (v := v))
    · rcases hdev c with hds | ⟨-, hne⟩
      · refine Or.inr ⟨hactive.trans ha, (hstate c ha).trans hst, ?_⟩
        rwa [hds]
      · exact absurd ha hne
  inactive := fun c d hd hin hact => by
    rw [hlog]
    rcases hdev c with hds | ⟨hds, -⟩
    · rw [hds] at hd
      exact (h.inactive c d hd hin hact).push (v := v)
    · rw [hds] at hd
      cases hd

theorem View.InputSafe.push (h : v.InputSafe) (hq : queuedFds evs = []) :
    (v.push evs).InputSafe :=
  h.keep hq rfl rfl (fun _ _ => rfl) fun _ => Or.inl rfl

/-- Activating devices changes nothing about input devices. -/
theorem accounted_up (evs : List Event) (ds : List SeatDevice) :
    Accounted evs ds (ds.map SeatDevice.up) := by
  refine Accounted.of_forall₂ (R := fun d d' => d' = d.up)
    (List.forall₂_map_right_iff.mpr (List.forall₂_same.mpr fun _ _ => rfl)) ?_
  rintro d _ rfl
  unfold SeatDevice.up
  split_ifs with htype
  · exact ⟨rfl, rfl, fun hin => absurd hin (SeatDevice.not_isInput (Or.inl htype))⟩
  · exact ⟨rfl, rfl, fun _ => rfl⟩

theorem Accounted.trans {ds ds' ds'' : List SeatDevice} (h : Accounted evs ds ds')
    (h' : Accounted evs ds' ds'') : Accounted evs ds ds'' where
  active := fun d hd hin hact => by
    rcases h.active d hd hin hact with hrev | ⟨d', hd', hfd, htype, hact'⟩
    · exact Or.inl hrev
    · rw [← hfd, ← htype]
      exact h'.active d' hd' (SeatDevice.isInput_of_type htype hin) hact'
  inactive := fun d'' hd'' hin hact => by
    rcases h'.inactive d'' hd'' hin hact with hrev | ⟨d', hd', hin', hact', hfd⟩
    · exact Or.inl hrev
    · rw [← hfd]
      exact h.inactive d' hd' hin' hact'

end

/-- **Every transition keeps input safe.** -/
theorem View.InputSafe.trans {k : Kernel} (hevdev : ∀ tr fd, 0 ≤ k.ret tr (.evdevRevoke fd))
    (hhidraw : ∀ tr fd, 0 ≤ k.ret tr (.hidrawRevoke fd)) {a : Act} {v v' : View}
    (h : v.InputSafe) (hwf : v.WF) (ht : a.Trans k v v') : v'.InputSafe := by
  obtain ⟨evs, hg, -, hq, rfl⟩ := ht
  have hpush : queuedFds evs = [] → (v.push evs).InputSafe := h.push
  cases a with
  | create =>
      have hne : v.seat.activeClient ≠ some v.nextId := fun ha =>
        absurd (hwf.fresh _ ((hwf.live_iff _).mpr (Or.inr (hwf.active_place ha).1)))
          (Nat.lt_irrefl _)
      refine h.keep hq rfl rfl (fun c hc => ?_) fun c => ?_
      · have : c ≠ v.nextId := fun heq => hne (heq ▸ hc)
        simp [Act.effect, View.push, this]
      · by_cases hc : c = v.nextId
        · exact Or.inr ⟨by simp [Act.effect, View.push, hc], hc ▸ hne⟩
        · exact Or.inl (by simp [Act.effect, View.push, hc])
  | join c n =>
      refine h.keep hq rfl rfl (fun o _ => ?_) fun o => Or.inl ?_
      all_goals
        by_cases hoc : o = c <;> simp [Act.effect, View.push, View.set, hoc]
  | opened c =>
      have hsafe := h.setDevices (c := c) hq (accounted_up evs _)
      refine hsafe.of_allRevoked (hsafe.allRevoked fun o ho => ?_) rfl fun o => ?_
      · cases hg.2.2.1.symm.trans ho
      · by_cases hoc : o = c <;> simp [Act.effect, View.push, hoc]
  | openFailed c ds =>
      exact h.setDevices hq ((accounted_up evs _).trans
        (accounted_of_down hevdev hhidraw hg.2.2.2.2))
  | disabled c ds next =>
      have hsafe := h.setDevices (c := c) hq (accounted_of_down hevdev hhidraw hg.2.2.1)
      refine hsafe.of_allRevoked (hsafe.allRevoked fun o ho _ d hd hin => ?_) rfl fun o => ?_
      · obtain rfl : c = o := Option.some.inj (hg.1.symm.trans ho)
        have hd' : d ∈ ds := by simpa [View.push] using hd
        obtain ⟨d0, -, hdown⟩ := ListRel.exists_left hg.2.2.1 hd'
        exact hdown.input_inactive hevdev hhidraw
          (SeatDevice.isInput_of_type hdown.same.1.symm hin)
      · by_cases hoc : o = c <;> simp [Act.effect, View.push, hoc]
  | acked c =>
      have hsafe := hpush hq
      refine hsafe.of_allRevoked (hsafe.allRevoked fun o ho hst => ?_) rfl fun o => ?_
      · obtain rfl : c = o := Option.some.inj (hg.1.symm.trans ho)
        cases hg.2.symm.trans hst
      · by_cases hoc : o = c <;> simp [Act.effect, View.push, hoc]
  | vacate c =>
      have hsafe := hpush hq
      refine hsafe.of_allRevoked (hsafe.allRevoked fun o ho _ d hd => ?_) rfl fun o => rfl
      obtain rfl : c = o := Option.some.inj (hg.2.1.symm.trans ho)
      rw [show ((v.push evs).client c).devices = [] from hg.2.2] at hd
      cases hd
  | retire c =>
      refine h.keep hq rfl rfl (fun o ho => ?_) fun o => Or.inl ?_
      · have : o ≠ c := fun hoc => hg.2.1 (hoc ▸ ho)
        simp [Act.effect, View.push, this]
      · by_cases hoc : o = c <;> simp [Act.effect, View.push, hoc]
  | dropDrm c ds =>
      refine h.setDevices hq (Accounted.of_forall₂ hg.2.2 fun d d' hd => ?_)
      split_ifs at hd with htype
      · exact ⟨hd.same.1, hd.same.2,
          fun hin => absurd hin (SeatDevice.not_isInput (Or.inl htype))⟩
      · rw [hd]
        exact ⟨rfl, rfl, fun _ => rfl⟩
  | restoreDrm c st => exact h.setDevices hq (accounted_up evs _)
  | openDevice c d =>
      refine h.setDevices hq ⟨fun d0 hd0 _ hact => ?_, fun d0 hd0 hin hact => ?_⟩
      · exact Or.inr ⟨d0, List.mem_cons_of_mem d hd0, rfl, rfl, hact⟩
      · rcases List.mem_cons.mp hd0 with rfl | hd0
        · rw [hg.2.2.2] at hact
          cases hact
        · exact Or.inr ⟨d0, hd0, hin, hact, rfl⟩
  | adjust c ds =>
      refine h.setDevices hq (Accounted.of_forall₂ hg.2 fun d d' hd => ?_)
      rw [hd]
      exact ⟨rfl, rfl, fun _ => rfl⟩
  | closeDevice c i =>
      obtain ⟨-, d, d', hd, hdown⟩ := hg
      refine h.setDevices hq (Accounted.of_subset (fun _ => List.mem_of_mem_eraseIdx) ?_)
      intro d0 hd0 hlost hin hact
      rcases ListRel.mem_eraseIdx_or hd0 i with hstays | hgone
      · exact absurd hstays hlost
      · obtain rfl : d = d0 := Option.some.inj (hd.symm.trans hgone)
        exact hdown.revoked hevdev hhidraw hin hact
  | queueFd c d =>
      refine ⟨fun o fd type hmem hin => ?_, fun o d0 hd0 hin hact => ?_⟩
      · rw [View.push, queuedFds_append, hq] at hmem
        rcases List.mem_cons.mp hmem with heq | hmem
        · -- the device is active, or it was revoked before
          obtain ⟨rfl, rfl, rfl⟩ : o = c ∧ fd = d.fd ∧ type = d.type := by simpa using heq
          cases hact : d.active with
          | true => exact Or.inr ⟨hg.1, hg.2.1, d, hg.2.2, rfl, rfl, hact⟩
          | false => exact Or.inl ((h.inactive o d hg.2.2 hin hact).push (v := v))
        · exact (h.queued o fd type hmem hin).imp_left fun hrev => hrev.push (v := v)
      · exact (h.inactive o d0 hd0 hin hact).push (v := v)
  | detach c | shelve c | free c | freeIdle c | addGroup g | destroyGroup g | removeGroup g
  | setVt n | vtEvent n | setPending n =>
      exact h.keep hq rfl rfl (fun _ _ => rfl) fun _ => Or.inl rfl

/-! ## Runs -/

/-- The notable events say all there is to say about fds. -/
theorem mem_queuedFds_view {s : Server} {x : Option ClientId} {c : ClientId} {fd dup : Nat}
    {type : SeatDeviceType} (h : .fdQueued c fd dup type ∈ s.trace) :
    (c, fd, type) ∈ queuedFds (s.view x).log :=
  List.mem_filterMap.mpr ⟨_, List.mem_filter.mpr ⟨h, rfl⟩, rfl⟩

/-- **No input after losing the seat.** If revoking never fails, then in every state of every
run, an input device whose fd was ever queued for a client has been revoked if the client is
gone or not in state ACTIVE; and if it has not been revoked, it is an active device of the
ACTIVE active client. A file description is named by the fd `seatd` opened it with; numbers are
not used twice. -/
theorem input_revoked_unless_active (k : Kernel)
    (hevdev : ∀ tr fd, 0 ≤ k.ret tr (.evdevRevoke fd))
    (hhidraw : ∀ tr fd, 0 ≤ k.ret tr (.hidrawRevoke fd)) (vtBound : Bool) (steps : List Step)
    (c : ClientId) (fd dup : Nat) (type : SeatDeviceType)
    (hqueued : .fdQueued c fd dup type ∈ (run k vtBound steps).trace)
    (hinput : type = .evdev ∨ type = .hidraw) :
    let s := run k vtBound steps
    (c ∉ s.live ∨ (s.clients c).state ≠ active → Revoked s.trace fd)
    ∧ (¬ Revoked s.trace fd → s.seat.activeClient = some c ∧ (s.clients c).state = active
        ∧ ∃ d ∈ (s.clients c).devices, d.fd = fd ∧ d.type = type ∧ d.active = true) := by
  intro s
  have hinit : ((serverInit vtBound).view none).InputSafe :=
    ⟨fun _ _ _ hmem => (nomatch hmem), fun _ _ hd => (nomatch hd)⟩
  obtain ⟨hwf, hsafe⟩ := run_of_acts k (C := fun _ _ => True)
    (fun _ _ _ _ _ _ _ hwf ht h => h.trans hevdev hhidraw hwf ht) (wf_init vtBound) hinit steps
    (Run.meets_of_forall (fun _ _ => trivial) _ _)
  have hcases : Revoked s.trace fd ∨ (s.view none).Holds c fd type :=
    (hsafe.queued c fd type (mem_queuedFds_view hqueued) hinput).imp_left
      (Revoked.mono (List.filter_subset_self _))
  refine ⟨fun hoff => ?_, fun hnot => hcases.resolve_left hnot⟩
  refine hcases.resolve_right fun hholds => ?_
  rcases hoff with hdead | hst
  · exact hdead ((hwf.live_iff c).mpr (Or.inr (hwf.active_place hholds.1).1))
  · exact hst hholds.2.1

/-- A compositor on VT 1 that opened a keyboard, and is being disabled by a VT switch. -/
def openKeyboard : List Step :=
  [.connect 100, .request 0 .openSeat, .request 0 (.openDevice (EVDEV_PREFIX ++ ascii ['0'])),
    .vtEvent 1 2]

theorem keyboard_revoked_when_disabled :
    ∃ fd dup, .fdQueued 0 fd dup .evdev ∈ (run (.obliging 1) true openKeyboard).trace
      ∧ ((run (.obliging 1) true openKeyboard).clients 0).state = pendingDisable
      ∧ Revoked (run (.obliging 1) true openKeyboard).trace fd := by
  refine ⟨0, 1, by decide +kernel, by decide +kernel, ?_⟩
  exact (input_revoked_unless_active (.obliging 1) (fun _ _ => le_rfl) (fun _ _ => le_rfl) true
    openKeyboard 0 0 1 .evdev (by decide +kernel) (Or.inl rfl)).1 (Or.inr (by decide +kernel))

end DdeSeatd
