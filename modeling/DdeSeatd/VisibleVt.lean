import DdeSeatd.Ownership

set_option autoImplicit false

/-! # The active client owns the visible VT

The daemon together with the kernel's side of VT switching. The kernel switches VTs when it
likes; the VT event watcher passes every switch on through a pipe, from which the daemon takes
one after the other. While none is in the pipe, the client that is ACTIVE should be the owner
of the VT on the screen.

`seat_handle_vt_event` sees to that for every event, and clients are only opened on the current
VT. The one way to lose it is `seat_destroy_group_vt`: it takes the VT from its owner and looks
neither at the screen nor at the owner (`TakesVisible`). -/

namespace DdeSeatd

open ClientState Labelled

/-! ## The system -/

/-- The same system with `vt` on the screen, which is what it answers if it answers. -/
def Kernel.atVt (k : Kernel) (vt : ℕ+) : Kernel :=
  { k with ret := fun tr call =>
      if call = .vtGetState ∧ 0 ≤ k.ret tr call then ((vt : Nat) : Int) else k.ret tr call }

/-- The daemon, the VT on the screen, and the switches from one VT to another that the daemon
has not handled yet, oldest first. -/
structure VtSystem where
  server : Server
  vt : ℕ+
  inFlight : List (ℕ+ × ℕ+)

inductive VtStep where
  | daemon (st : Step)
  | switch (vt : ℕ+)
  | deliver

/-- A step of the daemon other than taking a VT event from the pipe, a switch, or the daemon
taking an event. -/
def vtStep (k : Kernel) (s : VtSystem) : VtStep → VtSystem
  | .daemon (.vtEvent _ _) => s
  | .daemon st => { s with server := step (k.atVt s.vt) s.server st }
  | .switch vt => { s with vt := vt, inFlight := s.inFlight ++ [(s.vt, vt)] }
  | .deliver =>
      match s.inFlight with
      | [] => s
      | (oldVt, newVt) :: rest =>
          { s with
            server := step (k.atVt s.vt) s.server (.vtEvent (oldVt : Nat) (newVt : Nat)),
            inFlight := rest }

/-- A VT-bound daemon that starts with `vt` on the screen. -/
def vtRun (k : Kernel) (vt : ℕ+) (steps : List VtStep) : VtSystem :=
  Run.run (vtStep k) ⟨serverInit true, vt, []⟩ steps

/-- While no switch is in flight, an ACTIVE client owns the VT on the screen. -/
def VtSystem.ActiveOwnsVisible (s : VtSystem) : Prop :=
  s.inFlight = [] → ∀ a ∈ s.server.seat.activeClient, (s.server.clients a).state = active →
    s.server.seat.curVt = (s.vt : Nat) ∧ clientOwnsVt s.server a s.server.seat.curVt = true

instance (s : VtSystem) : Decidable s.ActiveOwnsVisible := by
  unfold VtSystem.ActiveOwnsVisible
  infer_instance

/-- A control client destroys the group VT on the screen while its owner is ACTIVE there. -/
def VtStep.TakesVisible (s : VtSystem) : VtStep → Prop
  | .daemon (.control i (.destroyGroupVt vt)) => s.inFlight = [] ∧ i ∈ s.server.controlClients
      ∧ vt = s.server.seat.curVt ∧ ∃ a ∈ s.server.seat.activeClient,
        (s.server.clients a).state = active ∧ (s.server.clients a).session ≠ vt
        ∧ clientOwnsVt s.server a vt = true
  | _ => False

instance (s : VtSystem) : (st : VtStep) → Decidable (st.TakesVisible s)
  | .daemon (.control _ (.destroyGroupVt _)) => show Decidable (_ ∧ _) from inferInstance
  | .daemon (.control _ (.createGroupVt _ _)) | .daemon (.control _ .getActiveVt)
  | .daemon (.control _ .findFreeVt) | .daemon (.control _ (.switchVt _))
  | .daemon (.control _ .invalid)
  | .daemon (.connect _) | .daemon (.request _ _) | .daemon (.writable _)
  | .daemon (.disconnect _) | .daemon .vtRelease | .daemon .vtAcquire | .daemon (.vtEvent _ _)
  | .daemon (.controlConnect _) | .daemon (.controlWritable _) | .daemon (.controlDisconnect _)
  | .switch _ | .deliver => .isFalse id

/-! ## Transitions -/

/-- As long as there is no current VT, nobody is on the seat. -/
def View.Started (v : View) : Prop :=
  v.seat.curVt ≠ -1 ∨ v.seat.clients = [] ∧ v.leaving = none

/-- The current VT is the one on the screen, if there is one. -/
def View.Synced (vt : ℕ+) (v : View) : Prop :=
  v.seat.curVt = -1 ∨ v.seat.curVt = ((vt : Nat) : Int)

section

variable {k : Kernel} {a : Act} {v v' : View}

theorem View.Started.trans (h : v.Started) (hb : v.seat.vtBound = true) (ht : a.Trans k v v')
    (hvt : ∀ n, a = .vtEvent n → n ≠ -1) : v'.Started := by
  obtain ⟨evs, hg, -, -, rfl⟩ := ht
  cases a with
  | join c n =>
      obtain ⟨-, -, -, hn, hcur⟩ := hg
      rw [if_pos hb] at hcur
      exact Or.inl (hcur ▸ hn)
  | detach c =>
      rcases h with h | ⟨hnil, -⟩
      · exact Or.inl h
      · exact absurd (hnil ▸ hg.2) List.not_mem_nil
  | setVt n => exact Or.inl (by show n ≠ -1; have := hg.1; omega)
  | vtEvent n => exact Or.inl (hvt n rfl)
  | shelve c | free c => exact h.imp_right fun hnone => ⟨hnone.1, rfl⟩
  | _ => exact h

/-- The ACTIVE client has the VT; a client on its way out does not count. -/
def View.ActiveHas (n : Int) (v : View) : Prop :=
  ∀ o, v.seat.activeClient = some o → v.leaving ≠ some o → (v.client o).state = active → v.Has o n

theorem View.Has.of_eq {c : ClientId} {vt : Int} (h : v.Has c vt)
    (hsession : (v'.client c).session = (v.client c).session)
    (hgroup : ⟨c, vt⟩ ∈ v.seat.groupVts → ⟨c, vt⟩ ∈ v'.seat.groupVts) : v'.Has c vt :=
  h.imp hsession.trans hgroup

/-- Every transition keeps it that neither opens a client without the VT nor destroys it. -/
theorem View.ActiveHas.trans {n : Int} (h : v.ActiveHas n) (hwf : v.WF) (ht : a.Trans k v v')
    (hopened : ∀ o, a = .opened o → v.Has o n) (hdestroy : ∀ g, a = .destroyGroup g → g.vt ≠ n) :
    v'.ActiveHas n := by
  intro o ho hleave hst
  rcases ht.active hwf ho hleave hst with rfl | ⟨ho', hleave', hst'⟩
  · have hsession := ht.session (by simp) (by simp) o
    obtain ⟨evs, -, -, -, rfl⟩ := ht
    exact (hopened o rfl).of_eq hsession id
  have hon : o ∈ v.seat.clients := (hwf.active o ho').1.resolve_right hleave'
  refine (h o ho' hleave' hst').of_eq (ht.session_of_ne (fun _ => ?_) fun n ha => ?_) fun hmem => ?_
  · exact Nat.ne_of_lt (hwf.fresh o ((hwf.live_iff o).mpr (.inr (.inl hon))))
  · subst ha
    obtain ⟨evs, hg, -⟩ := ht
    exact hwf.idle_off o hg.2.1 hon
  obtain ⟨evs, hg, -, -, rfl⟩ := ht
  cases a with
  | addGroup g => exact List.mem_cons_of_mem g hmem
  | removeGroup g =>
      refine (List.mem_erase_of_ne ?_).mpr hmem
      rintro rfl
      exact hleave hg.2
  | destroyGroup g =>
      refine (List.mem_erase_of_ne ?_).mpr hmem
      rintro rfl
      exact hdestroy _ rfl rfl
  | _ => exact hmem

/-- The ACTIVE client owns the current VT. -/
def View.Visible (v : View) : Prop := v.ActiveHas v.seat.curVt

/-- While the current VT is the one on the screen, every transition keeps it, except for VT
events and `seat_destroy_group_vt`. -/
theorem View.Visible.trans {n : Int} (h : v.Visible) (hwf : v.WF) (hb : v.seat.vtBound = true)
    (hstarted : v.Started) (hsynced : v.seat.curVt = -1 ∨ v.seat.curVt = n)
    (ht : a.Trans k v v') (hset : ∀ m, a = .setVt m → m = n) (hevent : ∀ m, a ≠ .vtEvent m)
    (hdestroy : ∀ g, a ≠ .destroyGroup g) : v'.Visible := by
  have hhas : v'.ActiveHas v.seat.curVt := by
    refine View.ActiveHas.trans h hwf ht ?_ fun g hg => absurd hg (hdestroy g)
    rintro o rfl
    obtain ⟨evs, hg, -⟩ := ht
    exact (hwf.owns_iff hg.1 _).mp (hg.2.2.2.2 hb)
  have hactive := fun o => hwf.active o
  obtain ⟨evs, -, -, -, rfl⟩ := ht
  cases a with
  | setVt m =>
      obtain rfl := hset m rfl
      intro o ho hleave hst
      have hcur : v.seat.curVt = m := by
        refine hsynced.resolve_left fun hnone => ?_
        rcases hstarted with hne | ⟨hnil, hleaving⟩
        · exact hne hnone
        · rcases (hactive o ho).1 with hon | hon
          · rw [hnil] at hon
            cases hon
          · rw [hleaving] at hon
            cases hon
      exact hcur ▸ hhas o ho hleave hst
  | vtEvent m => exact absurd rfl (hevent m)
  | _ => exact hhas

end

/-! ## VT events -/

section

variable {k : Kernel} {s : Server}

/-- Opening a client keeps the current VT, and the client owns it. -/
theorem visible_opens {Q : ClientId → Prop} {v v' : View}
    (hp : Act.Path k (Act.Opens Q) v v') (hwf : v.WF)
    (hb : v.seat.vtBound = true) (hcur : v.seat.curVt ≠ -1) (h : v.Visible) :
    v'.seat.curVt = v.seat.curVt ∧ v'.Visible := by
  have hinv := Path.invariant (I := fun u => u.WF ∧ u.seat.vtBound = true
    ∧ u.seat.curVt = v.seat.curVt ∧ u.Visible) ?_ hp ⟨hwf, hb, rfl, h⟩
  · exact hinv.2.2
  rintro a u u' ha ht ⟨hu1, hu2, hu3, hu4⟩
  have hvisible := hu4.trans hu1 hu2 (Or.inl (hu3 ▸ hcur)) (Or.inr rfl) ht
    (fun m hm => by subst hm; cases ha) (fun m hm => by subst hm; cases ha)
    (fun g hg => by subst hg; cases ha)
  refine ⟨hu1.trans ht, ?_, ?_, hvisible⟩
  all_goals
    obtain ⟨evs, -, -, -, rfl⟩ := ht
    cases a <;> first | assumption | exact False.elim ha

/-- **After a VT event the ACTIVE client owns the current VT**, whatever it was before. -/
theorem visible_vtEvent (hwf : (s.view none).WF) (hb : s.seat.vtBound = true) (oldVt : Int)
    {newVt : Int} (hvt : newVt ≠ -1) :
    (seatHandleVtEvent k s oldVt newVt).seat.curVt = newVt
    ∧ ((seatHandleVtEvent k s oldVt newVt).view none).Visible := by
  have hview := view_seatNoteVt k s none oldVt newVt
  set s2 := seatNoteVt k s oldVt newVt with hs2
  have hwf2 : (s2.view none).WF := by
    rw [hview]
    exact hwf.trans (k := k) (Act.Trans.silent trivial (fun _ => rfl) rfl)
  have hactive2 : s2.seat.activeClient = s.seat.activeClient :=
    congrArg (·.seat.activeClient) hview
  have hcur2 : s2.seat.curVt = newVt := congrArg (·.seat.curVt) hview
  cases ha : s.seat.activeClient with
  | none =>
      have hnone : s2.seat.activeClient = none := hactive2.trans ha
      rw [seatHandleVtEvent_none k s ha, ← hs2]
      have hopen := visible_opens (seatActivate_path_unqueued k s2 none hnone (hwf2.next_none hnone))
        hwf2 ((congrArg (·.seat.vtBound) hview).trans hb) (hcur2 ▸ hvt)
        fun o ho => (nomatch hnone.symm.trans ho)
      exact ⟨hopen.1.trans hcur2, hopen.2⟩
  | some a =>
      have hsome : s2.seat.activeClient = some a := hactive2.trans ha
      by_cases hown : clientOwnsVt s a newVt = true
      · have hview' := view_seatHandleVtEvent_owned k s none ha hown oldVt
        refine ⟨congrArg (·.seat.curVt) hview', ?_⟩
        rw [hview']
        intro o ho _ _
        obtain rfl : a = o := Option.some.inj (ha.symm.trans ho)
        have hon : a ∈ s.seat.clients := (hwf.active a ha).1.resolve_right nofun
        exact ((clientOwnsVt_iff_has hwf hon newVt).mp hown).of_eq (by simp [Act.effect]) id
      · rw [seatHandleVtEvent_some k s ha, if_neg hown, ← hs2,
          ← show (s2.clients a).state = (s.clients a).state from
            congrArg (fun v => (View.client v a).state) hview]
        by_cases hst : (s2.clients a).state = active
        · rw [if_pos hst]
          obtain ⟨ds, evs, -, -, -, hdis⟩ := seatDisableClient_trans k s2 none (c := a) _ hsome hst
            (Or.inl rfl)
          refine ⟨(congrArg (·.seat.curVt) hdis).trans hcur2, ?_⟩
          rw [show (seatDisableClient k s2 a).2.view none = _ from hdis]
          intro o ho _ hact
          obtain rfl : a = o := Option.some.inj (hsome.symm.trans ho)
          simp [Act.effect, View.push] at hact
        · rw [if_neg hst]
          refine ⟨hcur2, fun o ho _ hact => ?_⟩
          obtain rfl : a = o := Option.some.inj (hsome.symm.trans ho)
          exact absurd hact hst

end

/-! ## Destroying a group VT -/

section

variable {k : Kernel} {s : Server}

/-- A control client that is gone destroys nothing. -/
theorem view_step_destroyGroupVt (hwf : (s.view none).WF) (i : ControlId) (vt : Int) :
    ∃ gs, (step k s (.control i (.destroyGroupVt vt))).view none
        = (s.view none).setSeat { s.seat with groupVts := gs }
      ∧ ∀ g, g ∈ gs ↔ g ∈ s.seat.groupVts ∧ (i ∈ s.controlClients → g.vt ≠ vt) := by
  by_cases hi : i ∈ s.controlClients
  · have hstep : (step k s (.control i (.destroyGroupVt vt))).view none
        = (seatDestroyGroupVt k s vt).2.view none := by
      unfold step
      rw [if_neg (by simp [Step.client, Step.controlClient, hi])]
      unfold handleStep controlHandleRequest handleControlRequest handleDestroyGroupVt
      dsimp only
      split_ifs <;> simp
    obtain ⟨gs, hview, hgs⟩ := view_seatDestroyGroupVt (k := k) hwf vt
    exact ⟨gs, hstep.trans hview, fun g => by simp [hgs g, hi]⟩
  · refine ⟨s.seat.groupVts, ?_, fun g => by simp [hi]⟩
    unfold step
    rw [if_pos (by simp [Step.client, Step.controlClient, hi])]
    rfl

end

/-! ## Steps of the system -/

theorem Kernel.atVt_vtGetState {k : Kernel} {vt : ℕ+} {tr : List Event}
    (h : 0 < (k.atVt vt).ret tr .vtGetState) : (k.atVt vt).ret tr .vtGetState = (vt : Nat) := by
  unfold Kernel.atVt at h ⊢
  dsimp only at h ⊢
  split_ifs at h ⊢ with hok
  · rfl
  · exact absurd ⟨rfl, h.le⟩ hok

section

variable {k : Kernel} {vt : ℕ+} {P : Act → Prop} {v v' : View}

theorem started_path (hevent : ∀ a, P a → ∀ m, a = .vtEvent m → m ≠ -1)
    (hp : Act.Path k P v v') (hb : v.seat.vtBound = true) (h : v.Started) : v'.Started := by
  refine (Path.invariant (I := fun u => u.seat.vtBound = true ∧ u.Started) ?_ hp ⟨hb, h⟩).2
  rintro a u u' ha ht ⟨hbu, hu⟩
  refine ⟨?_, hu.trans hbu ht (hevent a ha)⟩
  obtain ⟨evs, -, -, -, rfl⟩ := ht
  cases a <;> exact hbu

/-- Apart from VT events, the current VT is only ever replaced by the one on the screen. -/
theorem View.Synced.trans {a : Act} (h : v.Synced vt) (hevent : ∀ m, a ≠ .vtEvent m)
    (ht : a.Trans (k.atVt vt) v v') : v'.Synced vt := by
  obtain ⟨evs, hg, -, -, rfl⟩ := ht
  cases a with
  | vtEvent m => exact absurd rfl (hevent m)
  | setVt m =>
      obtain ⟨hpos, tr, hret⟩ := hg
      rw [← hret] at hpos
      exact Or.inr (hret ▸ Kernel.atVt_vtGetState hpos)
  | _ => exact h

theorem visible_path (hevent : ∀ a, P a → ∀ m, a ≠ .vtEvent m)
    (hdestroy : ∀ a, P a → ∀ g, a ≠ .destroyGroup g) (hp : Act.Path (k.atVt vt) P v v')
    (hwf : v.WF) (hb : v.seat.vtBound = true) (hstarted : v.Started)
    (hsynced : v.Synced vt) (h : v.Visible) : v'.Visible := by
  refine (Path.invariant (I := fun u => u.WF ∧ u.seat.vtBound = true ∧ u.Started
    ∧ u.Synced vt ∧ u.Visible) ?_ hp
    ⟨hwf, hb, hstarted, hsynced, h⟩).2.2.2.2
  rintro a u u' ha ht ⟨hwfu, hbu, hstartedu, hsyncedu, hu⟩
  refine ⟨hwfu.trans ht, ?_, hstartedu.trans hbu ht fun m hm => absurd hm (hevent a ha m),
    hsyncedu.trans (hevent a ha) ht,
    hu.trans hwfu hbu hstartedu hsyncedu ht ?_ (hevent a ha) (hdestroy a ha)⟩
  · obtain ⟨evs, -, -, -, rfl⟩ := ht
    cases a <;> exact hbu
  · rintro m rfl
    obtain ⟨evs, ⟨hpos, tr, hret⟩, -⟩ := ht
    rw [← hret] at hpos
    exact hret ▸ Kernel.atVt_vtGetState hpos

end

/-- What always holds of the system: the current VT is the one on the screen, unless a switch is
in flight or nobody has asked for it yet. -/
structure VtSystem.Inv (s : VtSystem) : Prop where
  wf : (s.server.view none).WF
  bound : s.server.seat.vtBound = true
  started : (s.server.view none).Started
  synced : s.inFlight = [] → (s.server.view none).Synced s.vt
  last : ∀ e ∈ s.inFlight.getLast?, e.2 = s.vt

section

variable {k : Kernel} {s : VtSystem}

theorem vtStep_daemon {st : Step} (hst : ∀ oldVt newVt, st ≠ .vtEvent oldVt newVt) :
    vtStep k s (.daemon st) = { s with server := step (k.atVt s.vt) s.server st } := by
  cases st <;> first | rfl | exact absurd rfl (hst _ _)

theorem vt_ne_neg_one (n : ℕ+) : ((n : Nat) : Int) ≠ -1 := by
  have := n.pos
  omega

theorem inv_vtStep (h : s.Inv) (st : VtStep) : (vtStep k s st).Inv := by
  have hstep := fun st => step_path (k.atVt s.vt) s.server h.wf st
  cases st with
  | daemon st =>
      by_cases hev : ∃ oldVt newVt, st = .vtEvent oldVt newVt
      · obtain ⟨oldVt, newVt, rfl⟩ := hev
        exact h
      · push Not at hev
        rw [vtStep_daemon hev]
        have hevent : ∀ a, st.Allows (k.atVt s.vt) s.server a → ∀ m, a ≠ .vtEvent m := by
          rintro a ha m rfl
          obtain ⟨oldVt, heq⟩ := ha.cause
          exact hev oldVt m heq
        refine ⟨h.wf.path (hstep st), (vtBound_step h.wf st).trans h.bound,
          started_path (fun a ha m hm => absurd hm (hevent a ha m)) (hstep st) h.bound h.started,
          fun hnil => ?_, h.last⟩
        exact Path.invariant (I := View.Synced s.vt)
          (fun a u u' ha ht hu => hu.trans (hevent a ha) ht) (hstep st) (h.synced hnil)
  | switch vt =>
      refine ⟨h.wf, h.bound, h.started, fun hnil => ?_, fun e he => ?_⟩
      · simp [vtStep] at hnil
      · simp only [vtStep, List.getLast?_concat, Option.mem_some_iff] at he
        rw [← he]
        rfl
  | deliver =>
      cases hq : s.inFlight with
      | nil =>
          rw [show vtStep k s .deliver = s by simp only [vtStep, hq]]
          exact h
      | cons e rest =>
          obtain ⟨oldVt, newVt⟩ := e
          have hvt := vt_ne_neg_one newVt
          set st : Step := .vtEvent (oldVt : Nat) (newVt : Nat) with hst
          rw [show vtStep k s .deliver = ⟨step (k.atVt s.vt) s.server st, s.vt, rest⟩ by
            simp only [vtStep, hq]; rfl]
          refine ⟨h.wf.path (hstep st), (vtBound_step h.wf st).trans h.bound, ?_, ?_, ?_⟩
          · refine started_path (fun a ha m hm => ?_) (hstep st) h.bound h.started
            subst hm
            obtain ⟨_, heq⟩ := ha.cause
            cases hst.symm.trans heq
            exact hvt
          · rintro rfl
            have hlast : newVt = s.vt := h.last (oldVt, newVt) (by rw [hq]; rfl)
            rw [← hlast]
            exact Or.inr (visible_vtEvent h.wf h.bound oldVt hvt).1
          · intro e he
            refine h.last e ?_
            rw [hq]
            cases rest with
            | nil => cases he
            | cons e' rest => exact he

theorem VtSystem.Inv.active_mem (h : s.Inv) {a : ClientId}
    (ha : s.server.seat.activeClient = some a) : a ∈ s.server.seat.clients :=
  (h.wf.active a ha).1.resolve_right nofun

theorem activeOwnsVisible_iff (h : s.Inv) :
    s.ActiveOwnsVisible ↔ (s.inFlight = [] → (s.server.view none).Visible) := by
  refine forall_congr' fun hnil => ⟨fun hown a ha _ hst => ?_, fun hvis a ha hst => ?_⟩
  · exact (clientOwnsVt_iff_has h.wf (h.active_mem ha) _).mp (hown a ha hst).2
  · have hon := h.active_mem ha
    refine ⟨(h.synced hnil).resolve_left ?_,
      (clientOwnsVt_iff_has h.wf hon _).mpr (hvis a ha nofun hst)⟩
    exact h.started.resolve_right fun hempty => absurd (hempty.1 ▸ hon) List.not_mem_nil

/-- A step keeps it unless it takes the visible VT from its owner. -/
theorem visible_vtStep (h : s.Inv) (hown : s.ActiveOwnsVisible) {st : VtStep}
    (hst : ¬ st.TakesVisible s) : (vtStep k s st).ActiveOwnsVisible := by
  rw [activeOwnsVisible_iff (inv_vtStep h st)]
  rw [activeOwnsVisible_iff h] at hown
  intro hnil
  cases st with
  | switch vt => simp [vtStep] at hnil
  | deliver =>
      cases hq : s.inFlight with
      | nil =>
          rw [show vtStep k s .deliver = s by simp only [vtStep, hq]]
          exact hown hq
      | cons e rest =>
          obtain ⟨oldVt, newVt⟩ := e
          simp only [vtStep, hq]
          exact (visible_vtEvent h.wf h.bound oldVt (vt_ne_neg_one newVt)).2
  | daemon st =>
      by_cases hev : ∃ oldVt newVt, st = .vtEvent oldVt newVt
      · obtain ⟨oldVt, newVt, rfl⟩ := hev
        exact hown hnil
      push Not at hev
      rw [vtStep_daemon hev] at hnil ⊢
      have hvis := hown hnil
      by_cases hdes : ∃ i vt, st = .control i (.destroyGroupVt vt)
      · -- the owner keeps the VT, since it is not the one that is destroyed
        obtain ⟨i, vt, rfl⟩ := hdes
        obtain ⟨gs, hview, hgs⟩ := view_step_destroyGroupVt (k := k.atVt s.vt) h.wf i vt
        rw [hview]
        intro a ha _ hact
        have hhas := hvis a ha nofun hact
        by_cases hsession : (s.server.clients a).session = s.server.seat.curVt
        · exact Or.inl hsession
        · refine Or.inr ((hgs _).mpr ⟨hhas.resolve_left hsession, fun hi hvt => hst ?_⟩)
          subst hvt
          exact ⟨hnil, hi, rfl, a, ha, hact, hsession,
            (clientOwnsVt_iff_has h.wf (h.active_mem ha) _).mpr hhas⟩
      · refine visible_path (fun a ha m hm => ?_) (fun a ha g hg => ?_)
          (step_path (k.atVt s.vt) s.server h.wf st) h.wf h.bound h.started (h.synced hnil) hvis
        · subst hm
          obtain ⟨oldVt, heq⟩ := ha.cause
          exact hev oldVt m heq
        · subst hg
          obtain ⟨i, heq⟩ := ha.cause
          exact hdes ⟨i, _, heq⟩

/-- Taking the visible VT from its ACTIVE owner leaves it ACTIVE. -/
theorem takesVisible_vtStep (h : s.Inv) {st : VtStep} (hst : st.TakesVisible s) :
    ¬ (vtStep k s st).ActiveOwnsVisible := by
  have hinv := inv_vtStep (k := k) h st
  match st, hst with
  | .daemon (.control i (.destroyGroupVt vt)), ⟨hnil, hi, hvt, a, ha, hact, hsession, _⟩ =>
      rw [activeOwnsVisible_iff hinv]
      intro hvis
      obtain ⟨gs, hview, hgs⟩ := view_step_destroyGroupVt (k := k.atVt s.vt) h.wf i vt
      have := hvis hnil
      rw [show ((vtStep k s (.daemon (.control i (.destroyGroupVt vt)))).server.view none) = _
        from hview] at this
      rcases this a ha nofun hact with heq | hmem
      · exact hsession (heq.trans hvt.symm)
      · exact ((hgs _).mp hmem).2 hi hvt.symm

end

/-- **The active client owns the visible VT.** In every state of a run without a switch in
flight, an ACTIVE client owns the VT on the screen, if and only if no control client of the run
destroys the group VT on the screen while its owner is ACTIVE. -/
theorem active_owns_visible_iff (k : Kernel) (vt : ℕ+) (steps : List VtStep) :
    (∀ pre, pre <+: steps → (vtRun k vt pre).ActiveOwnsVisible)
      ↔ Run.Meets (vtStep k) (fun s st => ¬ st.TakesVisible s) ⟨serverInit true, vt, []⟩ steps := by
  refine Run.forall_prefix_iff_meets (I := fun s : VtSystem => s.Inv ∧ s.ActiveOwnsVisible)
    (fun _ h => h.2) (fun s st h hst => ⟨inv_vtStep h.1 st, visible_vtStep h.1 h.2 hst⟩)
    (fun s st h hown hst => takesVisible_vtStep h.1 hst hown) ⟨?_, ?_⟩ steps
  · exact ⟨wf_init true, rfl, Or.inr ⟨rfl, rfl⟩, fun _ => Or.inl rfl, fun _ he => (nomatch he)⟩
  · exact fun _ _ ha => (nomatch ha)

/-- A compositor is shown on its group VT when that is destroyed: it stays ACTIVE on a VT that
it does not own. -/
theorem visible_vt_destroyed :
    ¬ (vtRun (.obliging 1) 1 [.daemon (.connect 100), .daemon (.request 0 .openSeat),
      .daemon (.controlConnect 1), .daemon (.control 0 (.createGroupVt 100 2)), .switch 2,
      .deliver, .daemon (.control 0 (.destroyGroupVt 2))]).ActiveOwnsVisible := by
  decide +kernel

end DdeSeatd
