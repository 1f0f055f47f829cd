import DdeSeatd.DrmMaster
import DdeSeatd.Handover

set_option autoImplicit false

/-! # Releasing a VT

Between the acknowledgement of a release and the next VT event, the kernel shows another VT,
and which one is not up to `seatd`. If it is not one of the active client's VTs, no client
should be DRM master in the meantime. This is so unless

* DRM master was kept, because a switch to a VT of the active client was pending, and the kernel
  goes elsewhere (`KeepsMaster`);
* the release comes after a VT event that made a client DRM master again while its disable was
  pending (`ReturnsBeforeAck`);
* the client, which is still ACTIVE, opens a graphics device (`OpensDrm`);
* the active client acknowledges its disable or leaves the seat, and a client with a graphics
  device gets it because it owns the VT that `seatd` takes for the current one (`HandsTo`).
-/

namespace DdeSeatd

open ClientState Labelled

/-- No client on the seat is DRM master. -/
def Server.Dark (s : Server) : Prop :=
  ∀ c ∈ s.seat.clients, ∀ d ∈ (s.clients c).devices, d.type = .drm → d.active = false

instance (s : Server) : Decidable s.Dark := by
  unfold Server.Dark
  infer_instance

/-- `seat_vt_release` leaves the active client DRM master: the pending switch is to one of its
VTs. -/
def Server.KeepsMaster (s : Server) : Prop :=
  ∃ a ∈ s.seat.activeClient, (s.clients a).state = active ∧ 0 < s.seat.pendingVtSwitch
    ∧ clientOwnsVt s a s.seat.pendingVtSwitch = true

instance (s : Server) : Decidable s.KeepsMaster := by
  unfold Server.KeepsMaster
  infer_instance

/-- An ACTIVE client opens a graphics device. -/
def Step.OpensDrm (k : Kernel) (s : Server) : Step → Prop
  | .request c (.openDevice path) => (s.clients c).state = active
      ∧ ((k.realpath s.trace path).toOption.bind (deviceType k.platform)) = some .drm
  | _ => False

/-- A step by which a client on the seat may become DRM master: it opens a graphics device, or has
one and may get the seat. -/
def Step.MayLeak (k : Kernel) (s : Server) (st : Step) : Prop :=
  st.OpensDrm k s ∨ ∃ o ∈ s.seat.clients, st.HandsTo k s o ∧ ∃ d ∈ (s.clients o).devices,
    d.type = .drm

instance (k : Kernel) (s : Server) : (st : Step) → Decidable (st.OpensDrm k s)
  | .request _ (.openDevice _) => show Decidable (_ ∧ _) from inferInstance
  | .request _ .openSeat | .request _ .closeSeat | .request _ (.closeDevice _)
  | .request _ (.switchSession _) | .request _ .disableSeat | .request _ .ping
  | .connect _ | .writable _ | .disconnect _ | .vtRelease | .vtAcquire | .vtEvent _ _
  | .controlConnect _ | .control _ _ | .controlWritable _ | .controlDisconnect _ => .isFalse id

instance (k : Kernel) (s : Server) (st : Step) : Decidable (st.MayLeak k s) := by
  unfold Step.MayLeak
  infer_instance

/-! ## The release -/

/-- No device is DRM master. -/
def View.Dark (v : View) : Prop := ∀ c ∈ v.live, ∀ d ∈ (v.client c).devices, d.NotMaster

/-- Where nobody is ACTIVE, exclusivity means that nobody is DRM master. -/
theorem View.DrmExclusive.dark {v : View} (h : v.DrmExclusive)
    (hnone : ∀ a, v.seat.activeClient = some a → (v.client a).state ≠ active) : v.Dark :=
  fun c hc => (h c hc).resolve_left fun hact => hnone c hact.1 hact.2

section

variable {k : Kernel} {s : Server}

/-- **`seat_vt_release`** reads the VT, and takes DRM master from the ACTIVE client unless a switch to
one of its VTs is pending. -/
theorem view_step_vtRelease (hb : s.seat.vtBound = true) :
    ((s.KeepsMaster ∨ ∀ a, s.seat.activeClient = some a → (s.clients a).state ≠ active)
      ∧ (step k s .vtRelease).view none
        = (s.view none).setSeat { s.seat with curVt := s.vtShown k })
    ∨ ∃ a evs ds, s.seat.activeClient = some a ∧ (s.clients a).state = active ∧ ¬ s.KeepsMaster
      ∧ List.Forall₂ (fun d d' => if d.type = .drm then Down k evs d d' else d' = d)
        (s.clients a).devices ds
      ∧ (step k s .vtRelease).view none
        = (((s.view none).setSeat { s.seat with curVt := s.vtShown k }).setDevices a ds).push evs := by
  have hview := view_seatUpdateVt_curVt k s none
  set s1 := (seatUpdateVt k s).2 with hs1
  have hstate : ∀ a, (s1.clients a).state = (s.clients a).state :=
    fun a => congrArg (fun u => (View.client u a).state) hview
  have hown : ∀ a vt, clientOwnsVt s1 a vt = clientOwnsVt s a vt := by
    intro a vt
    rw [Bool.eq_iff_iff, clientOwnsVt_iff s1 none, clientOwnsVt_iff s none, hview]
    rfl
  have hactive : s1.seat.activeClient = s.seat.activeClient :=
    congrArg (·.seat.activeClient) hview
  have hpending : s1.seat.pendingVtSwitch = s.seat.pendingVtSwitch :=
    congrArg (·.seat.pendingVtSwitch) hview
  have hstep : (step k s .vtRelease).view none = (s.seat.activeClient.elim s1 fun a =>
      if (s.clients a).state = active then
        if 0 < s.seat.pendingVtSwitch ∧ clientOwnsVt s a s.seat.pendingVtSwitch then s1
        else seatDropClientDrmMaster k s1 a
      else s1).view none := by
    show (seatVtRelease k s).2.view none = _
    unfold seatVtRelease
    rw [if_neg (by simp [hb])]
    dsimp only
    rw [view_vtAck, ← hs1, hactive]
    cases s.seat.activeClient with
    | none => rfl
    | some a => simp only [hstate, hown, hpending, Option.elim_some]
  rw [hstep, ← hview]
  cases ha : s.seat.activeClient with
  | none => exact Or.inl ⟨Or.inr (by simp), rfl⟩
  | some a =>
      rw [Option.elim_some]
      have hkept : s.KeepsMaster ↔ (s.clients a).state = active ∧ 0 < s.seat.pendingVtSwitch
          ∧ clientOwnsVt s a s.seat.pendingVtSwitch = true := by
        simp [Server.KeepsMaster, ha]
      split_ifs with hst hkeep
      · exact Or.inl ⟨Or.inl (hkept.mpr ⟨hst, hkeep⟩), rfl⟩
      · obtain ⟨evs, ds, -, hdown, hdrm⟩ := view_seatDropClientDrmMaster k s1 none a
        rw [show (s1.clients a).devices = (s.clients a).devices from
          congrArg (fun u => (View.client u a).devices) hview] at hdown
        exact Or.inr ⟨a, evs, ds, rfl, hst, fun h => hkeep (hkept.mp h).2, hdown, hdrm⟩
      · refine Or.inl ⟨Or.inr fun o ho => ?_, rfl⟩
        obtain rfl : a = o := Option.some.inj ho
        exact hst

/-- After a release that does not keep DRM master, nobody has it. -/
theorem dark_vtRelease (hdrop : ∀ tr fd, 0 ≤ k.ret tr (.drmDropMaster fd))
    (hb : s.seat.vtBound = true) (h : s.DrmExclusive) (hkeep : ¬ s.KeepsMaster) :
    ((step k s .vtRelease).view none).Dark := by
  rw [Server.drmExclusive_iff] at h
  rcases view_step_vtRelease hb with ⟨hnone, hview⟩ | ⟨a, evs, ds, ha, -, -, hdown, hview⟩
  · rw [hview]
    exact View.DrmExclusive.dark (v := (s.view none).setSeat _) h (hnone.resolve_left hkeep)
  · rw [hview]
    intro o ho d hd
    by_cases hoa : o = a
    · subst hoa
      exact notMaster_of_drop hdrop hdown d (by simpa [View.push] using hd)
    · refine (h o ho).resolve_left (fun hact => hoa ?_) d ?_
      · exact Option.some.inj (hact.1.symm.trans ha)
      · simpa [View.push, hoa] using hd

end

/-! ## The window -/

section

variable {k : Kernel} {s : Server} {st : Step} {a : Act} {v v' : View}

theorem not_openDevice_drm (hst : ¬ st.OpensDrm k s) {c : ClientId} {d : SeatDevice}
    (ha : st.Allows k s (.openDevice c d)) : d.type ≠ .drm := by
  intro htype
  obtain ⟨hact, path, p, rfl, hreal, hp⟩ := ha.cause
  refine hst ⟨hact, ?_⟩
  rw [hreal, ← htype, ← hp]
  rfl

/-- Dropping and closing leave nobody DRM master, and opening a client without graphics devices
does not make it. -/
theorem View.Dark.trans (hdrop : ∀ tr fd, 0 ≤ k.ret tr (.drmDropMaster fd)) (h : v.Dark)
    (ht : a.Trans k v v')
    (hopened : ∀ o, a = .opened o → ∀ d ∈ (v.client o).devices, d.type ≠ .drm)
    (hrestore : ∀ o cst, a ≠ .restoreDrm o cst)
    (hopen : ∀ o d, a = .openDevice o d → d.type ≠ .drm) : v'.Dark := by
  intro o ho d' hd'
  obtain ⟨hlive, ⟨d, hd, hturns⟩ | rfl⟩ := ht.device hd'
  · cases hturns with
    | same => exact h o (hlive ho) d' hd
    | counted heq =>
        rw [heq]
        exact h o (hlive ho) d hd
    | opened => exact fun htype => absurd (d.up_type ▸ htype) (hopened o rfl d hd)
    | restored => exact absurd rfl (hrestore o _)
    | failed hdown | disabled hdown | dropped hdown => exact hdown.notMaster hdrop
  · exact fun htype => absurd htype (hopen o d' rfl)

end

section

variable {k : Kernel} {s : Server}

/-- **A step of the window keeps the screen dark**, unless it may leak. -/
theorem dark_step (hdrop : ∀ tr fd, 0 ≤ k.ret tr (.drmDropMaster fd))
    (hb : s.seat.vtBound = true) (hwf : (s.view none).WF) (h : (s.view none).Dark) {st : Step}
    (hevent : ∀ oldVt newVt, st ≠ .vtEvent oldVt newVt) (hst : ¬ st.MayLeak k s) :
    ((step k s st).view none).Dark := by
  by_cases hgone : ∃ c, st.client = some c ∧ c ∉ s.live
  · obtain ⟨c, hc, hdead⟩ := hgone
    rw [show step k s st = s from if_pos (Or.inl ⟨c, by rw [hc]; rfl, hdead⟩)]
    exact h
  have hopens : ¬ st.OpensDrm k s := fun hopen => hst (Or.inl hopen)
  have hdevice : ∀ a, st.Allows k s a → ∀ o d, a = .openDevice o d → d.type ≠ .drm := by
    rintro _ ha o d rfl
    exact not_openDevice_drm hopens ha
  have hrestore : ∀ o cst, ¬ st.Allows k s (.restoreDrm o cst) := by
    intro o cst ha
    obtain ⟨oldVt, newVt, heq, -⟩ := ha.cause
    exact hevent oldVt newVt heq
  cases hclient : st.client with
  | none =>
      -- nobody gets the seat
      refine (Path.invariant (I := fun v => v.WF ∧ v.Dark) ?_ (step_path k s hwf st) ⟨hwf, h⟩).2
      rintro a v v' ha ht ⟨hwfv, hdark⟩
      refine ⟨hwfv.trans ht, hdark.trans hdrop ht ?_ ?_ (hdevice a ha)⟩
      · rintro o rfl
        rcases ha.cause with ⟨c, rfl⟩ | ⟨c, hc, -⟩ | ⟨oldVt, newVt, heq⟩
        · cases hclient
        · cases hclient.symm.trans hc
        · exact absurd heq (hevent oldVt newVt)
      · rintro o cst rfl
        exact hrestore o cst ha
  | some c =>
      have hlive : c ∈ s.live := not_not.mp fun hdead => hgone ⟨c, hclient, hdead⟩
      refine (handover_step (k := k)
        (I := fun s' v => v.Dark ∧ ∀ o, ∀ d ∈ (v.client o).devices, d.type = .drm →
          ∃ d0 ∈ (s'.clients o).devices, d0.type = .drm)
        (Q := fun s' o => ∀ d ∈ (s'.clients o).devices, d.type ≠ .drm) ?_ hb hwf hclient hlive
        ⟨h, fun o d hd htype => ⟨d, hd, htype⟩⟩ (fun _ => ?_)
        fun o ho hhands d hd htype => hst (Or.inr ⟨o, ho, hhands, d, hd, htype⟩)).elim
          fun _ hdark => hdark.1
      · rintro s' a v v' ha hpasses hwfv - ht hopened ⟨hdark, hdrm⟩
        refine ⟨hdark.trans hdrop ht ?_ ?_ (hdevice a ha), fun o d hd htype => ?_⟩
        · rintro o rfl d hd htype
          obtain ⟨d0, hd0, htype0⟩ := hdrm o d hd htype
          exact (hopened o rfl).2 d0 hd0 htype0
        · rintro o cst rfl
          cases hpasses
        · obtain ⟨-, ⟨d0, hd0, hturns⟩ | rfl⟩ := ht.device hd
          · exact hdrm o d0 hd0 (hturns.type ▸ htype)
          · exact absurd htype (hdevice _ ha o d rfl)
      · -- nobody's devices change when a client joins, and that client has none
        have hkeeps : ((seatAddClient k s c).2.view none).live = (s.view none).live
            ∧ ∀ o, (((seatAddClient k s c).2.view none).client o).devices
              = ((s.view none).client o).devices := by
          by_cases hok : (seatAddClient k s c).1 = true
          · obtain ⟨-, -, -, hview⟩ := seatAddClient_joins hb hok
            rw [hview]
            refine ⟨rfl, fun o => ?_⟩
            by_cases ho : o = c <;> simp [Act.effect, View.set, ho]
          · obtain ⟨n, hview, -⟩ := seatAddClient_refused hok
            rw [hview]
            exact ⟨rfl, fun _ => rfl⟩
        obtain ⟨hsame, hdevices⟩ := hkeeps
        refine ⟨⟨fun o ho d hd => h o (hsame ▸ ho) d (hdevices o ▸ hd),
          fun o d hd htype => ⟨d, hd, htype⟩⟩, fun hok d hd => ?_, fun o _ hdrm d hd =>
            hdrm d (show d ∈ ((s.view none).client o).devices from hdevices o ▸ hd)⟩
        have hidle := mem_idle_of_seat s hwf hlive (seatAddClient_joins hb hok).1.1
        have hnone : d ∈ ((s.view none).client c).devices := hdevices c ▸ hd
        rw [(hwf.idle c hidle).2.1] at hnone
        cases hnone

end

/-- **No frame leaks onto a foreign VT.** Let the daemon acknowledge a release of the VT, and the
kernel switch to a VT `vt` that the active client does not own. If DRM master is dropped without
fail and no VT event came back before an acknowledgement, then no client on the seat is DRM
master until the next VT event, provided that

* if DRM master was kept for a pending switch, that is where the kernel goes;
* no step until then may leak: no ACTIVE client opens a graphics device, and no step frees the seat
  on a VT of a client that has one. -/
theorem dark_until_vtEvent (k : Kernel) (hdrop : ∀ tr fd, 0 ≤ k.ret tr (.drmDropMaster fd))
    (pre window : List Step) (vt : Int)
    (hforeign : ∀ a ∈ (run k true pre).seat.activeClient, clientOwnsVt (run k true pre) a vt = false)
    (hwindow : ∀ st ∈ window, ∀ oldVt newVt, st ≠ .vtEvent oldVt newVt)
    (hpre : Run.Meets (step k) (fun s st => ¬ st.ReturnsBeforeAck s) (serverInit true) pre)
    (htarget : (run k true pre).KeepsMaster → (run k true pre).seat.pendingVtSwitch = vt)
    (hleak : Run.Meets (step k) (fun s st => ¬ st.MayLeak k s) (run k true (pre ++ [.vtRelease]))
      window) :
    (run k true (pre ++ .vtRelease :: window)).Dark := by
  obtain ⟨hb, hwf, hexcl⟩ := drmExclusive_run hdrop true pre hpre
  have hkeep : ¬ (run k true pre).KeepsMaster := by
    intro hkept
    have heq := htarget hkept
    obtain ⟨a, ha, -, -, hown⟩ := hkept
    rw [heq, hforeign a ha] at hown
    cases hown
  have hrun : run k true (pre ++ [.vtRelease]) = step k (run k true pre) .vtRelease :=
    Run.run_append _ _ _
  rw [hrun] at hleak
  have hdark := dark_vtRelease hdrop hb hexcl hkeep
  have hwf' := hwf.path (step_path k _ hwf .vtRelease)
  obtain ⟨-, hwf'', hdark'⟩ := Run.run_invariant_of_meets
    (P := fun s : Server => s.seat.vtBound = true ∧ (s.view none).WF ∧ (s.view none).Dark)
    (C := fun s st => (∀ oldVt newVt, st ≠ .vtEvent oldVt newVt) ∧ ¬ st.MayLeak k s)
    (fun s st h hst => ⟨(vtBound_step h.2.1 st).trans h.1, h.2.1.path (step_path k s h.2.1 st),
      dark_step hdrop h.1 h.2.1 h.2.2 hst.1 hst.2⟩)
    ⟨(vtBound_step hwf .vtRelease).trans hb, hwf', hdark⟩ window
    (Run.meets_and_of_forall hwindow hleak)
  rw [show run k true (pre ++ .vtRelease :: window)
      = Run.run (step k) (step k (run k true pre) .vtRelease) window from Run.run_append _ _ _]
  exact fun c hc => hdark' c ((hwf''.live_iff c).mpr (Or.inr (Or.inl hc)))

/-- Compositors on VT 1 and VT 2 with a graphics device each; the first one has the seat. -/
def twoCards : List Step :=
  [.connect 100, .request 0 .openSeat, .request 0 (.openDevice CARD0), .vtEvent 1 2,
    .request 0 .disableSeat, .connect 101, .request 1 .openSeat, .request 1 (.openDevice CARD0),
    .vtEvent 2 1, .request 1 .disableSeat]

/-- It goes on making requests after the release, when the daemon takes VT 2 for the current one. -/
theorem twoCards_released_dark :
    let s := run .fromOneToTwo true (twoCards ++ [.vtRelease])
    s.seat.activeClient = some 0 ∧ clientOwnsVt s 1 s.seat.curVt = true
    ∧ (run .fromOneToTwo true
        (twoCards ++ .vtRelease :: [.request 0 .ping, .request 0 (.closeDevice 7)])).Dark :=
  ⟨by decide +kernel, by decide +kernel, dark_until_vtEvent .fromOneToTwo
    (fun _ _ => by simp [Kernel.fromOneToTwo]) twoCards _ 3 (by decide +kernel) (by simp)
    (by decide +kernel) (by decide +kernel) (by decide +kernel)⟩

/-- A compositor on VT 1 that opens a graphics device after the release of the VT. The kernel may
be showing VT 2, which is not the compositor's. -/
theorem card_opened_after_release :
    (run (.obliging 1) true [.connect 100, .request 0 .openSeat]).seat.activeClient = some 0
    ∧ clientOwnsVt (run (.obliging 1) true [.connect 100, .request 0 .openSeat]) 0 2 = false
    ∧ ¬ (run (.obliging 1) true ([.connect 100, .request 0 .openSeat] ++ .vtRelease ::
        [.request 0 (.openDevice CARD0)])).Dark := by
  decide +kernel

end DdeSeatd
