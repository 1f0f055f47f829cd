import DdeSeatd.VisibleVt
import DdeSeatd.VtRelease

set_option autoImplicit false

/-! # Switches that only signals report

Where the VT event watcher does not run, the daemon hears of a switch by two signals: SIGUSR1 asks it
to release the VT, and once it has acknowledged, the kernel switches and sends SIGUSR2. Both handlers
read the current VT and acknowledge. What a switch calls for is done by `seat_handle_vt_event` alone,
which is never called here: to disable a client whose VT has gone, to give DRM master back, and to
take note that a pending switch is over.

So a client that loses DRM master at a release does not get it back, a pending switch stays pending,
and a client that does not own the new VT stays ACTIVE. Switches are handled as they should be if
nothing of this comes up (`signals_switch`): not at the release, not by where the switch goes, and not
by what is done between the switch and the time the daemon reads the VT (`SignalSystem.Upset`).
-/

namespace DdeSeatd

open ClientState Labelled

/-! ## The system -/

/-- How far the kernel is with a switch. -/
inductive SignalStage where
  | idle
  | released
  | switched
  deriving DecidableEq

/-- The daemon, the VT on the screen, how far a switch is, and whether the daemon has yet to read the
VT that the last one went to. -/
structure SignalSystem where
  server : Server
  vt : ℕ+
  stage : SignalStage
  unread : Bool

inductive SignalStep where
  | daemon (st : Step)
  | release
  | switch (vt : ℕ+)
  | acquire
  deriving DecidableEq

/-- The step calls `seat_update_vt`, on a VT-bound seat. -/
def Step.UpdatesVt (s : Server) : Step → Prop
  | .vtRelease | .vtAcquire => True
  | .control i .getActiveVt => i ∈ s.controlClients
  | .control i (.switchVt vt) => i ∈ s.controlClients ∧ 0 < vt
  | .request c .openSeat => c ∈ s.live ∧ (s.clients c).seat = false
      ∧ (∀ a ∈ s.seat.activeClient, (s.clients a).state = pendingDisable)
      ∧ (s.clients c).session = -1
  | _ => False

instance (s : Server) : (st : Step) → Decidable (st.UpdatesVt s)
  | .vtRelease | .vtAcquire => .isTrue trivial
  | .control _ .getActiveVt => inferInstanceAs (Decidable (_ ∈ _))
  | .control _ (.switchVt _) => inferInstanceAs (Decidable (_ ∧ _))
  | .request _ .openSeat => inferInstanceAs (Decidable (_ ∧ _))
  | .control _ (.createGroupVt _ _) | .control _ (.destroyGroupVt _) | .control _ .findFreeVt
  | .control _ .invalid
  | .request _ .closeSeat | .request _ (.openDevice _) | .request _ (.closeDevice _)
  | .request _ (.switchSession _) | .request _ .disableSeat | .request _ .ping
  | .connect _ | .writable _ | .disconnect _ | .vtEvent _ _ | .controlConnect _
  | .controlWritable _ | .controlDisconnect _ => .isFalse id

/-- The daemon takes a step, in which it may read the VT. -/
def SignalSystem.daemon (k : Kernel) (s : SignalSystem) (st : Step) : SignalSystem :=
  { s with
    server := step (k.atVt s.vt) s.server st,
    unread := s.unread
      && !(decide (st.UpdatesVt s.server) && (seatUpdateVt (k.atVt s.vt) s.server).1) }

/-- The last thing that happened was that a release was acknowledged. -/
def Server.hasReleased (s : Server) : Bool :=
  match s.trace with
  | .sys (.vtRelDisp _ true) r :: _ => 0 ≤ r
  | _ => false

/-- A step of the daemon for a client or a control client, or a part of a switch: SIGUSR1, the switch
itself once the release has been acknowledged, and SIGUSR2. -/
def signalStep (k : Kernel) (s : SignalSystem) : SignalStep → SignalSystem
  | .daemon (.vtEvent _ _) | .daemon .vtRelease | .daemon .vtAcquire => s
  | .daemon st => s.daemon k st
  | .release =>
      if s.stage = .idle then
        let s' := s.daemon k .vtRelease
        { s' with stage := if s'.server.hasReleased then .released else .idle }
      else s
  | .switch vt =>
      if s.stage = .released then { s with vt := vt, stage := .switched, unread := true } else s
  | .acquire => if s.stage = .switched then { s.daemon k .vtAcquire with stage := .idle } else s

/-- The start of a VT-bound daemon with `vt` on the screen. -/
def signalInit (vt : ℕ+) : SignalSystem := ⟨serverInit true, vt, .idle, false⟩

def signalRun (k : Kernel) (vt : ℕ+) (steps : List SignalStep) : SignalSystem :=
  Run.run (signalStep k) (signalInit vt) steps

/-- The step completes a switch: the VT that it went to is read. A release that reads it begins the
next switch. -/
def SignalSystem.Completes (k : Kernel) (s : SignalSystem) (st : SignalStep) : Prop :=
  st ≠ .release ∧ s.unread = true ∧ (signalStep k s st).unread = false

instance (k : Kernel) (s : SignalSystem) (st : SignalStep) : Decidable (s.Completes k st) :=
  inferInstanceAs (Decidable (_ ∧ _ ∧ _))

/-- From `s` to `s'` a switch to the VT `n` has been completed as it should be. -/
structure Server.Switched (s s' : Server) (n : Int) : Prop where
  /-- A client that does not own the VT is not ACTIVE any more. -/
  leaves : ∀ a ∈ s'.seat.activeClient, (s'.clients a).state = active → clientOwnsVt s' a n = true
  /-- A client that owns it and is ACTIVE is DRM master. -/
  restores : ∀ a ∈ s'.seat.activeClient, (s'.clients a).state = active → clientOwnsVt s' a n = true →
    ∀ d ∈ (s'.clients a).devices, d.type = .drm → d.active = true
  /-- A switch to it is pending no more. -/
  clears : s.seat.pendingVtSwitch = n → s'.seat.pendingVtSwitch = 0

/-! ## What upsets a switch -/

/-- The release takes DRM master from an ACTIVE client with a graphics device. -/
def Server.TakesMaster (s : Server) : Prop :=
  ¬ s.KeepsMaster ∧ ∃ a ∈ s.seat.activeClient, (s.clients a).state = active
    ∧ ∃ d ∈ (s.clients a).devices, d.type = .drm

/-- What the daemon may do while a switch to the VT `n` has yet to be read: a client asks for a
switch to `n`, the group VT `n` is destroyed, a client joins although the VT cannot be read, or the
seat becomes free on a VT of a client that does not own `n`. -/
def Step.Misses (k : Kernel) (s : Server) (n : Int) (st : Step) : Prop :=
  (∃ c ∈ st.client, st = .request c (.switchSession n)
      ∨ st = .request c .openSeat ∧ st.UpdatesVt s ∧ s.vtShown k ≠ n)
    ∨ (∃ i ∈ st.controlClient, st = .control i (.destroyGroupVt n))
    ∨ ∃ vt ∈ st.seatFreeOn k s, ∃ o ∈ s.seat.clients,
      clientOwnsVt s o vt = true ∧ clientOwnsVt s o n = false

/-- The step leaves something to do that only a VT event would do: a release takes DRM master, a
switch goes to a VT that is pending or that the ACTIVE client does not own, or the daemon misses a
switch that it has not read. -/
def SignalSystem.Upset (k : Kernel) (s : SignalSystem) : SignalStep → Prop
  | .release => s.stage = .idle ∧ s.server.TakesMaster
  | .switch n => s.stage = .released ∧ (s.server.seat.pendingVtSwitch = (n : Nat)
      ∨ ∃ a ∈ s.server.seat.activeClient, (s.server.clients a).state = active
        ∧ clientOwnsVt s.server a (n : Nat) = false)
  | .daemon st => s.unread = true ∧ st.Misses (k.atVt s.vt) s.server (s.vt : Nat)
  | .acquire => False

instance (s : Server) : Decidable s.TakesMaster := inferInstanceAs (Decidable (_ ∧ _))

instance (k : Kernel) (s : Server) (n : Int) (st : Step) : Decidable (st.Misses k s n) :=
  inferInstanceAs (Decidable (_ ∨ _ ∨ _))

instance (k : Kernel) (s : SignalSystem) : (st : SignalStep) → Decidable (s.Upset k st)
  | .release | .switch _ | .daemon _ => inferInstanceAs (Decidable (_ ∧ _))
  | .acquire => .isFalse id

/-! ## DRM master -/

/-- The ACTIVE client is DRM master; a client on its way out does not count. -/
def View.Master (v : View) : Prop :=
  ∀ o, v.seat.activeClient = some o → v.leaving ≠ some o → (v.client o).state = active →
    ∀ d ∈ (v.client o).devices, d.type = .drm → d.active = true

section

variable {k : Kernel} {s : Server}

theorem active_of_up {d : SeatDevice} (htype : d.up.type = .drm) : d.up.active = true := by
  unfold SeatDevice.up at htype ⊢
  split_ifs at htype ⊢
  · rfl
  · contradiction

/-- Only dropping takes it away. -/
theorem View.Master.trans {a : Act} {v v' : View} (h : v.Master) (hwf : v.WF)
    (hdrop : ∀ c ds, a ≠ .dropDrm c ds) (ht : a.Trans k v v') : v'.Master := by
  intro o ho hleave hst d' hd' htype
  obtain ⟨-, ⟨d, hd, hturns⟩ | rfl⟩ := ht.device hd'
  swap
  · obtain ⟨evs, hg, -⟩ := ht
    exact hg.2.2.2
  have hwas := ht.active hwf ho hleave hst
  cases hturns with
  | same ha =>
      rcases hwas with rfl | ⟨ho', hleave', hst'⟩
      · exact absurd rfl ha
      · exact h o ho' hleave' hst' d' hd htype
  | counted heq =>
      obtain ⟨ho', hleave', hst'⟩ := hwas.resolve_left (by simp)
      rw [heq] at htype ⊢
      exact h o ho' hleave' hst' d hd htype
  | opened | restored => exact active_of_up htype
  | failed =>
      obtain ⟨evs, hg, -⟩ := ht
      cases hg.2.2.1.symm.trans (hwas.resolve_left (by simp)).1
  | disabled =>
      obtain ⟨evs, -, -, -, rfl⟩ := ht
      simp [Act.effect, View.push] at hst
  | dropped => exact absurd rfl (hdrop o _)

theorem master_step (hwf : (s.view none).WF) (h : (s.view none).Master) {st : Step}
    (hst : st ≠ .vtRelease) : ((step k s st).view none).Master := by
  refine (Path.invariant (I := fun v : View => v.WF ∧ v.Master) ?_ (step_path k s hwf st)
    ⟨hwf, h⟩).2
  rintro a v v' ha ht ⟨hwfv, hv⟩
  refine ⟨hwfv.trans ht, hv.trans hwfv ?_ ht⟩
  rintro c ds rfl
  cases st with
  | vtRelease => exact hst rfl
  | _ => simp [Step.Allows, Request.Allows, ControlRequest.Allows, Act.Destroys, Act.Removes,
      Act.Frees, Act.Opens] at ha

/-- A release that does not take it either. -/
theorem master_vtRelease (hb : s.seat.vtBound = true) (h : (s.view none).Master)
    (hst : ¬ s.TakesMaster) : ((step k s .vtRelease).view none).Master := by
  rcases view_step_vtRelease hb with ⟨-, hview⟩ | ⟨a, evs, ds, ha, hact, hkeep, hdown, hview⟩
  · rw [hview]
    exact h
  · rw [hview]
    intro o ho _ _ d hd htype
    obtain rfl : a = o := Option.some.inj (ha.symm.trans ho)
    obtain ⟨d0, hd0, hsame⟩ := ListRel.exists_left hdown (by simpa [View.push] using hd)
    refine absurd ⟨hkeep, a, ha, hact, d0, hd0, ?_⟩ hst
    split_ifs at hsame with hdrm
    · exact hdrm
    · exact hsame ▸ htype

end

/-! ## While a switch is unread -/

section

variable {k : Kernel} {s : Server} {n : Int} {st : Step}

/-- A client joins, and is on the VT that the daemon takes for the current one. -/
theorem activeHas_seatAddClient {c : ClientId} (hb : s.seat.vtBound = true) (hwf : (s.view none).WF)
    (hlive : c ∈ s.live) (h : (s.view none).ActiveHas n) :
    ((seatAddClient k s c).2.view none).ActiveHas n
    ∧ ((seatAddClient k s c).1 = true → s.vtShown k = n →
      ((seatAddClient k s c).2.view none).Has c n)
    ∧ ∀ o ∈ s.seat.clients, (s.view none).Has o n → ((seatAddClient k s c).2.view none).Has o n := by
  have hset : ∀ {m v}, Act.Path k (· = .setVt m) (s.view none) v → v.WF ∧ v.ActiveHas n := fun hp =>
    Path.invariant (I := fun v => v.WF ∧ v.ActiveHas n) (by
      rintro a v v' rfl ht ⟨hwfv, hv⟩
      exact ⟨hwfv.trans ht, hv.trans hwfv ht nofun nofun⟩) hp ⟨hwf, h⟩
  refine ⟨?_, fun hok hn => ?_, fun o ho hhas => ?_⟩
  · rcases seatAddClient_cases k s hwf hlive with ⟨-, hpath⟩ | ⟨-, s1, m, hpath, hjoin, -⟩
    · exact (hset hpath).2
    · exact (hset hpath).2.trans (hset hpath).1 hjoin nofun nofun
  · rw [(seatAddClient_joins hb hok).2.2.2]
    exact Or.inl (by simpa [Act.effect, View.set] using hn)
  · by_cases hok : (seatAddClient k s c).1 = true
    · obtain ⟨⟨hoff, -⟩, -, -, hview⟩ := seatAddClient_joins hb hok
      have hne : o ≠ c := by
        rintro rfl
        cases hoff.symm.trans (hwf.onSeat o ho).1
      rw [hview]
      exact hhas.of_eq (by simp [Act.effect, View.set, hne]) id
    · obtain ⟨m, hview, -⟩ := seatAddClient_refused hok
      rw [hview]
      exact hhas

/-- **An ACTIVE client owns the new VT** also after a step that does not miss it. -/
theorem activeHas_step (hb : s.seat.vtBound = true) (hwf : (s.view none).WF)
    (h : (s.view none).ActiveHas n) (hevent : ∀ oldVt newVt, st ≠ .vtEvent oldVt newVt)
    (hst : ¬ st.Misses k s n) : ((step k s st).view none).ActiveHas n := by
  obtain ⟨hclients, hcontrols, hfree⟩ := by simpa only [Step.Misses, not_or] using hst
  by_cases hgone : ∃ c, st.client = some c ∧ c ∉ s.live
  · obtain ⟨c, hc, hdead⟩ := hgone
    rw [show step k s st = s from if_pos (Or.inl ⟨c, by rw [hc]; rfl, hdead⟩)]
    exact h
  cases hclient : st.client with
  | none =>
      -- nobody gets the seat
      refine (Path.invariant (I := fun v => v.WF ∧ v.ActiveHas n) ?_ (step_path k s hwf st)
        ⟨hwf, h⟩).2
      rintro a v v' ha ht ⟨hwfv, hv⟩
      refine ⟨hwfv.trans ht, hv.trans hwfv ht ?_ ?_⟩
      · rintro o rfl
        rcases ha.cause with ⟨c, rfl⟩ | ⟨c, hc, -⟩ | ⟨oldVt, newVt, heq⟩
        · cases hclient
        · cases hclient.symm.trans hc
        · exact absurd heq (hevent oldVt newVt)
      · rintro g rfl rfl
        obtain ⟨i, rfl⟩ := ha.cause
        exact hcontrols ⟨i, rfl, rfl⟩
  | some c =>
      have hlive : c ∈ s.live := not_not.mp fun hdead => hgone ⟨c, hclient, hdead⟩
      obtain ⟨hadded, hjoined, hothers⟩ := activeHas_seatAddClient (k := k) (c := c) hb hwf hlive h
      refine (handover_step (k := k) (I := fun _ v => v.ActiveHas n)
        (Q := fun s' o => (s'.view none).Has o n) ?_ hb hwf hclient hlive h (fun hopen => ?_)
        fun o ho hhands => ?_).elim fun _ => id
      · rintro s' a v v' - hpasses hwfv hsince ht hopened hv
        refine hv.trans hwfv ht (fun o ho => ?_) ?_
        · obtain ⟨hon, hhas⟩ := hopened o ho
          exact hsince.has o hon n hhas
        · rintro g rfl
          cases hpasses
      · refine ⟨hadded, fun hok => hjoined hok ?_, hothers⟩
        obtain ⟨⟨hoff, hfresh⟩, hidle, -⟩ := seatAddClient_joins hb hok
        by_contra hne
        exact hclients ⟨c, hclient, Or.inr ⟨hopen, hopen ▸ ⟨hlive, hoff, hidle, hfresh⟩, hne⟩⟩
      · obtain ⟨⟨vt, hvt, howns⟩, -⟩ := hhands
        refine (clientOwnsVt_iff_has hwf ho n).mp ?_
        by_contra hnot
        exact hfree ⟨vt, hvt, o, ho, howns, by simpa using hnot⟩

/-- No switch to the new VT becomes pending, unless the VT is read. -/
theorem pending_step (hwf : (s.view none).WF) (hn : 0 < n) (h : s.seat.pendingVtSwitch ≠ n)
    (hevent : ∀ oldVt newVt, st ≠ .vtEvent oldVt newVt) (hst : ¬ st.Misses k s n)
    (hread : ¬ (st.UpdatesVt s ∧ (seatUpdateVt k s).1 = true)) :
    (step k s st).seat.pendingVtSwitch ≠ n := by
  by_cases hgone : ∃ i, st.controlClient = some i ∧ i ∉ s.controlClients
  · obtain ⟨i, hi, hdead⟩ := hgone
    rw [show step k s st = s from if_pos (Or.inr ⟨i, by rw [hi]; rfl, hdead⟩)]
    exact h
  refine Path.invariant (I := fun v : View => v.seat.pendingVtSwitch ≠ n) ?_ (step_path k s hwf st) h
  rintro a v v' ha ⟨evs, -, -, -, rfl⟩ hv
  cases a with
  | vtEvent m =>
      obtain ⟨oldVt, heq⟩ := ha.cause
      exact absurd heq (hevent oldVt m)
  | setPending m =>
      show m ≠ n
      cases st with
      | request c r =>
          obtain ⟨session, rfl, hm⟩ : ∃ session, r = .switchSession session ∧ (m = session ∨ m = 0) := by
            simpa [Step.Allows, Request.Allows, Act.Destroys, Act.Removes] using ha
          rintro rfl
          rcases hm with rfl | rfl
          · exact hst (Or.inl ⟨c, rfl, Or.inl rfl⟩)
          · exact absurd hn (lt_irrefl _)
      | control i r =>
          obtain ⟨⟨vt, rfl, hpos⟩, hok⟩ := ha
          refine absurd ⟨⟨?_, hpos⟩, hok⟩ hread
          exact not_not.mp fun hdead => hgone ⟨i, rfl, hdead⟩
      | vtEvent oldVt m => exact absurd rfl (hevent oldVt m)
      | _ => simp [Step.Allows, Act.Destroys, Act.Removes, Act.Frees] at ha
  | _ => exact hv

end

/-! ## Runs -/

/-- The ACTIVE client is DRM master, and while a switch is unread it owns the new VT, which is not
pending. -/
structure SignalSystem.Ready (s : SignalSystem) : Prop where
  wf : (s.server.view none).WF
  bound : s.server.seat.vtBound = true
  master : (s.server.view none).Master
  pending : s.unread = true → s.server.seat.pendingVtSwitch ≠ (s.vt : Nat)
  owns : s.unread = true → (s.server.view none).ActiveHas (s.vt : Nat)

section

variable {k : Kernel} {s : SignalSystem}

theorem SignalSystem.Ready.daemon (h : s.Ready) (st : Step)
    (hevent : ∀ oldVt newVt, st ≠ .vtEvent oldVt newVt)
    (hst : s.unread = true → ¬ st.Misses (k.atVt s.vt) s.server (s.vt : Nat))
    (hmaster : ((step (k.atVt s.vt) s.server st).view none).Master) : (s.daemon k st).Ready := by
  have hpos : (0 : Int) < ((s.vt : Nat) : Int) := by exact_mod_cast s.vt.pos
  have hunread : (s.daemon k st).unread = true → s.unread = true
      ∧ ¬ (st.UpdatesVt s.server ∧ (seatUpdateVt (k.atVt s.vt) s.server).1 = true) := by
    simp only [SignalSystem.daemon, Bool.and_eq_true, Bool.not_eq_true', Bool.and_eq_false_iff,
      decide_eq_false_iff_not]
    rintro ⟨hu, hread⟩
    refine ⟨hu, fun hboth => hread.elim (fun hno => hno hboth.1) fun hno => ?_⟩
    rw [hboth.2] at hno
    cases hno
  refine ⟨h.wf.path (step_path _ _ h.wf st), (vtBound_step h.wf st).trans h.bound, hmaster,
    fun hu => ?_, fun hu => ?_⟩
  · obtain ⟨hu, hread⟩ := hunread hu
    exact pending_step h.wf hpos (h.pending hu) hevent (hst hu) hread
  · have hu := (hunread hu).1
    exact activeHas_step h.bound h.wf (h.owns hu) hevent (hst hu)

/-- The signals give nobody the seat. -/
theorem not_misses_signal {s : Server} {n : Int} {st : Step} (h : st = .vtRelease ∨ st = .vtAcquire) :
    ¬ st.Misses k s n := by
  rcases h with rfl | rfl <;> simp [Step.Misses, Step.client, Step.controlClient, Step.seatFreeOn]

/-- The watcher and the signals are not steps the daemon takes of its own. -/
theorem signalStep_daemon (k : Kernel) (s : SignalSystem) (st : Step) :
    signalStep k s (.daemon st) = s
    ∨ signalStep k s (.daemon st) = s.daemon k st ∧ (∀ oldVt newVt, st ≠ .vtEvent oldVt newVt)
      ∧ st ≠ .vtRelease := by
  cases st <;> first | exact Or.inl rfl | exact Or.inr ⟨rfl, nofun, nofun⟩

theorem ready_signalStep (h : s.Ready) {st : SignalStep} (hst : ¬ s.Upset k st) :
    (signalStep k s st).Ready := by
  cases st with
  | daemon st =>
      rcases signalStep_daemon k s st with heq | ⟨heq, hevent, hrelease⟩ <;> rw [heq]
      · exact h
      · exact h.daemon _ hevent (fun hu hmisses => hst ⟨hu, hmisses⟩)
          (master_step h.wf h.master hrelease)
  | release =>
      by_cases hidle : s.stage = .idle
      · have hready := h.daemon (k := k) .vtRelease nofun
          (fun _ => not_misses_signal (Or.inl rfl))
          (master_vtRelease h.bound h.master fun htakes => hst ⟨hidle, htakes⟩)
        simp only [signalStep, if_pos hidle]
        exact ⟨hready.wf, hready.bound, hready.master, hready.pending, hready.owns⟩
      · simp only [signalStep, if_neg hidle]
        exact h
  | switch n =>
      by_cases hreleased : s.stage = .released
      · simp only [signalStep, if_pos hreleased]
        refine ⟨h.wf, h.bound, h.master, fun _ hpending => hst ⟨hreleased, Or.inl hpending⟩,
          fun _ a ha _ hact => ?_⟩
        refine (clientOwnsVt_iff_has h.wf ((h.wf.active a ha).1.resolve_right nofun) _).mp ?_
        by_contra hnot
        exact hst ⟨hreleased, Or.inr ⟨a, ha, hact, by simpa using hnot⟩⟩
      · simp only [signalStep, if_neg hreleased]
        exact h
  | acquire =>
      by_cases hswitched : s.stage = .switched
      · have hready := h.daemon (k := k) .vtAcquire nofun
          (fun _ => not_misses_signal (Or.inr rfl)) (master_step h.wf h.master nofun)
        simp only [signalStep, if_pos hswitched]
        exact ⟨hready.wf, hready.bound, hready.master, hready.pending, hready.owns⟩
      · simp only [signalStep, if_neg hswitched]
        exact h

/-- **A switch that nothing has upset is completed as it should be.** -/
theorem switched_of_completes (h : s.Ready) {st : SignalStep} (hst : ¬ s.Upset k st)
    (hcompletes : s.Completes k st) :
    s.server.Switched (signalStep k s st).server (s.vt : Nat) := by
  obtain ⟨hrelease, hunread, hread⟩ := hcompletes
  have hready := ready_signalStep h hst
  have howns : ((signalStep k s st).server.view none).ActiveHas (s.vt : Nat) := by
    cases st with
    | daemon st =>
        rcases signalStep_daemon k s st with heq | ⟨heq, hevent, -⟩ <;> rw [heq]
        · exact h.owns hunread
        · exact activeHas_step h.bound h.wf (h.owns hunread) hevent fun hm => hst ⟨hunread, hm⟩
    | release => exact absurd rfl hrelease
    | switch n =>
        simp only [signalStep]
        split_ifs <;> exact h.owns hunread
    | acquire =>
        simp only [signalStep]
        split_ifs
        · exact activeHas_step h.bound h.wf (h.owns hunread) nofun (not_misses_signal (Or.inr rfl))
        · exact h.owns hunread
  refine ⟨fun a ha hact => ?_, fun a ha hact _ => hready.master a ha nofun hact,
    fun hpending => absurd hpending (h.pending hunread)⟩
  exact (clientOwnsVt_iff_has hready.wf ((hready.wf.active a ha).1.resolve_right nofun) _).mpr
    (howns a ha nofun hact)

end

theorem ready_signalInit (vt : ℕ+) : (signalInit vt).Ready where
  wf := wf_init true
  bound := rfl
  master := fun _ ho => by cases ho
  pending := fun hu => by cases hu
  owns := fun hu => by cases hu

/-- **Signals alone switch sessions where there is nothing left to do.** In a run without VT events
every switch is completed as it should be, if no release takes DRM master from an ACTIVE client, no
switch goes to a VT that is pending or that the ACTIVE client does not own, and the daemon does
nothing that misses a switch it has yet to read. -/
theorem signals_switch (k : Kernel) (vt : ℕ+) (steps : List SignalStep)
    (hmeets : Run.Meets (signalStep k) (fun s st => ¬ s.Upset k st) (signalInit vt) steps) :
    Run.Meets (signalStep k)
      (fun s st => s.Completes k st → s.server.Switched (signalStep k s st).server (s.vt : Nat))
      (signalInit vt) steps :=
  Run.meets_of_meets (I := SignalSystem.Ready) (fun _ _ h hst => ready_signalStep h hst)
    (fun _ _ h hst => switched_of_completes h hst)
    (ready_signalInit vt) steps hmeets

/-- A compositor goes from VT 1 to its group VT and back; after it has left, the screen goes to
VT 3. -/
def groupVtAndBack : List SignalStep :=
  [.daemon (.connect 100), .daemon (.request 0 .openSeat), .daemon (.controlConnect 1),
    .daemon (.control 0 (.createGroupVt 100 2)),
    .release, .switch 2, .daemon (.request 0 .ping), .acquire, .release, .switch 1, .acquire,
    .daemon (.disconnect 0), .release, .switch 3, .acquire]

theorem groupVtAndBack_switched :
    (signalRun (.obliging 1) 1 groupVtAndBack).server.seat.curVt = 3
    ∧ Run.Meets (signalStep (.obliging 1)) (fun s st => s.Completes (.obliging 1) st →
        s.server.Switched (signalStep (.obliging 1) s st).server (s.vt : Nat))
      (signalInit 1) groupVtAndBack :=
  ⟨by decide +kernel, signals_switch (.obliging 1) 1 groupVtAndBack (by decide +kernel)⟩

instance (s s' : Server) (n : Int) : Decidable (s.Switched s' n) :=
  decidable_of_iff
    ((∀ a ∈ s'.seat.activeClient, (s'.clients a).state = active → clientOwnsVt s' a n = true)
      ∧ (∀ a ∈ s'.seat.activeClient, (s'.clients a).state = active → clientOwnsVt s' a n = true →
        ∀ d ∈ (s'.clients a).devices, d.type = .drm → d.active = true)
      ∧ (s.seat.pendingVtSwitch = n → s'.seat.pendingVtSwitch = 0))
    ⟨fun h => ⟨h.1, h.2.1, h.2.2⟩, fun h => ⟨h.leaves, h.restores, h.clears⟩⟩

/-- A compositor with a graphics device on VT 1; a switch to VT 2 is asked for and carried out, and
one back to VT 1. -/
def awayAndBack : List SignalStep :=
  [.daemon (.connect 100), .daemon (.request 0 .openSeat),
    .daemon (.request 0 (.openDevice (DRI_PREFIX ++ ascii ['c', 'a', 'r', 'd', '0']))),
    .daemon (.controlConnect 1), .daemon (.control 0 (.switchVt 2)),
    .release, .switch 2, .acquire, .release, .switch 1, .acquire]

/-- On VT 2 the compositor is still ACTIVE and the switch is still pending; back on VT 1 it is ACTIVE
and not DRM master, and a switch to VT 3 is refused. -/
theorem signals_leave_client_active :
    ¬ Run.Meets (signalStep (.obliging 1)) (fun s st => s.Completes (.obliging 1) st →
        s.server.Switched (signalStep (.obliging 1) s st).server (s.vt : Nat))
      (signalInit 1) awayAndBack
    ∧ ((signalRun (.obliging 1) 1 (awayAndBack.take 8)).server.seat.curVt = 2
      ∧ (signalRun (.obliging 1) 1 (awayAndBack.take 8)).server.seat.pendingVtSwitch = 2
      ∧ ((signalRun (.obliging 1) 1 (awayAndBack.take 8)).server.clients 0).state = active
      ∧ clientOwnsVt (signalRun (.obliging 1) 1 (awayAndBack.take 8)).server 0 2 = false)
    ∧ ((signalRun (.obliging 1) 1 awayAndBack).server.seat.curVt = 1
      ∧ ((signalRun (.obliging 1) 1 awayAndBack).server.clients 0).devices.map SeatDevice.active
        = [false]
      ∧ (seatSwitchVt (.obliging 1) (signalRun (.obliging 1) 1 awayAndBack).server 3).1 = false) := by
  decide +kernel

end DdeSeatd
