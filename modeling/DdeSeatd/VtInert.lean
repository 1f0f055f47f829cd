import DdeSeatd.StepDialogue

set_option autoImplicit false

/-! # VTs and a seat that is not bound to them

With `SEATD_VTBOUND=0` the daemon has sessions of its own and should not care for VTs. The
signal handlers and the requests of the control socket return at once on such a seat, but
`seat_handle_vt_event` does not look at `vt_bound`: a VT event disables an ACTIVE client whose
session number is not the number of the new VT, gives DRM master to one whose session number
is, and lets the seat be opened (`vt_event_disables_unbound`).

`vt_untouched_iff` says for every reachable state of such a seat, and every VT step, when the
step leaves the clients alone.
-/

namespace DdeSeatd

open Labelled ClientState

/-! ## The property -/

/-- The steps that are about VTs. -/
def Step.IsVt : Step → Prop
  | .vtRelease | .vtAcquire | .vtEvent _ _ => True
  | .control _ r => r ≠ .invalid
  | _ => False

/-- Everything ever put on a client's connection: what was sent and what is still to be sent. -/
def outStream (s : Server) (c : ClientId) : List UInt8 :=
  sentBytes (past (Event.sentTo (.client c)) s.trace) ++ (s.clients c).connection.out.toList

/-- The seat's clients do not notice the step from `s` to `s'`. -/
structure Untouched (s s' : Server) : Prop where
  active : s'.seat.activeClient = s.seat.activeClient
  next : s'.seat.nextClient = s.seat.nextClient
  state : ∀ c, (s'.clients c).state = (s.clients c).state
  devices : ∀ c, (s'.clients c).devices = (s.clients c).devices
  out : ∀ c, outStream s' c = outStream s c

/-- When a VT step does nothing to a seat without VTs. A VT event to a number that happens to be
the session of the active client must find no DRM device to give back, one to another number no
ACTIVE client, and without an active client there must be nobody to open. -/
def VtInert (s : Server) : Step → Prop
  | .vtEvent _ newVt =>
      match s.seat.activeClient with
      | some a =>
          if clientOwnsVt s a newVt then
            ∀ d ∈ (s.clients a).devices, d.type = .drm → d.active = true
          else (s.clients a).state ≠ active
      | none => s.seat.clients = []
  | _ => True

/-! ## Steps that are not noticed -/

theorem Untouched.of_view {s s' : Server} (hactive : s'.seat.activeClient = s.seat.activeClient)
    (hnext : s'.seat.nextClient = s.seat.nextClient)
    (hclient : (s'.view none).client = (s.view none).client)
    (hchannel : ∀ c, s'.channel (.client c) = s.channel (.client c)) : Untouched s s' := by
  refine ⟨hactive, hnext, fun c => ?_, fun c => ?_, fun c => ?_⟩
  · exact congrArg ClientView.state (congrFun hclient c)
  · exact congrArg ClientView.devices (congrFun hclient c)
  · have hsent : past (Event.sentTo (.client c)) s'.trace = past (Event.sentTo (.client c)) s.trace :=
      congrArg Channel.sent (hchannel c)
    have hconn : (s'.clients c).connection = (s.clients c).connection :=
      congrArg Channel.connection (hchannel c)
    unfold outStream
    rw [hsent, hconn]

theorem map_up_eq_self (ds : List SeatDevice) :
    ds.map SeatDevice.up = ds ↔ ∀ d ∈ ds, d.up = d := by
  rw [← List.map_inj_left (g := fun d => d), List.map_id']

theorem View.setDevices_self (v : View) (c : ClientId) :
    v.setDevices c (v.client c).devices = v := by
  simp [View.setDevices, View.set]

/-- Messages to control clients are not noticed by seat clients. -/
theorem Messages.channel {k : Kernel} {ts : List Talk} {s s' : Server} (hts : Messages ts)
    (h : Talks k ts s s') (hsound : s.Sound) (c : ClientId) :
    s'.channel (.client c) = s.channel (.client c) := by
  have heffects := (h.spec hsound).effects (.client c)
  rw [hts.talksWith.1 c] at heffects
  exact heffects

section

variable (k : Kernel) {s : Server}

/-- The requests of control clients look for group VTs and VT numbers only. -/
theorem view_control_unbound (hb : s.seat.vtBound = false) (i : ControlId) (r : ControlRequest) :
    ((controlHandleRequest k s i r).view none).seat.activeClient = s.seat.activeClient
      ∧ ((controlHandleRequest k s i r).view none).seat.nextClient = s.seat.nextClient
      ∧ ((controlHandleRequest k s i r).view none).client = (s.view none).client := by
  have hpath := handleControlRequest_path k s i r
  have hkeep := Path.invariant (I := fun v : View => v.seat.activeClient = s.seat.activeClient
    ∧ v.seat.nextClient = s.seat.nextClient ∧ v.client = (s.view none).client
    ∧ v.seat.vtBound = false) ?_ hpath ⟨rfl, rfl, rfl, hb⟩
  · have hview : (controlHandleRequest k s i r).view none
        = (handleControlRequest k s i r).2.view none := by
      unfold controlHandleRequest
      dsimp only
      split_ifs
      · rfl
      · exact view_controlClientDestroy _ none i
    rw [hview]
    exact ⟨hkeep.1, hkeep.2.1, hkeep.2.2.1⟩
  · rintro a v v' ha ⟨evs, hguard, -, -, rfl⟩ hv
    cases a <;> first | exact hv | cases ha

theorem control_untouched (h : s.Kept) (hb : s.seat.vtBound = false) (i : ControlId)
    (r : ControlRequest) : Untouched s (controlHandleRequest k s i r) := by
  obtain ⟨hactive, hnext, hclient⟩ := view_control_unbound k hb i r
  obtain ⟨ts, htalk, hts⟩ := controlHandleRequest_talks k s i r
  exact .of_view hactive hnext hclient fun c => hts.messages.channel htalk h.sound c

/-- A VT event that finds nothing to do. -/
theorem vtEvent_untouched (h : s.Kept) (hb : s.seat.vtBound = false) {oldVt newVt : Int}
    (hinert : VtInert s (.vtEvent oldVt newVt)) :
    Untouched s (seatHandleVtEvent k s oldVt newVt) := by
  obtain ⟨bs, hbs, hmessages⟩ := seatNoteVt_talks k s oldVt newVt
  have hview := view_seatNoteVt k s none oldVt newVt
  set s2 := seatNoteVt k s oldVt newVt with hs2
  have hchannel : ∀ c, s2.channel (.client c) = s.channel (.client c) :=
    fun c => hmessages.messages.channel hbs h.sound c
  have hseat : s2.seat = ((Act.vtEvent newVt).effect (s.view none)).seat := congrArg View.seat hview
  have hclient : (s2.view none).client = (s.view none).client := by rw [hview]; rfl
  have hsame : Untouched s s2 := .of_view (by rw [hseat]; rfl) (by rw [hseat]; rfl) hclient hchannel
  have hactive : s2.seat.activeClient = s.seat.activeClient := by rw [hseat]; rfl
  unfold VtInert at hinert
  cases ha : s.seat.activeClient with
  | some a =>
      rw [ha] at hinert
      rw [seatHandleVtEvent_some k s ha, ← hs2]
      dsimp only at hinert
      split_ifs at hinert ⊢ with hown hst
      · -- no DRM device is inactive, so none is activated
        have hdevs : (s2.clients a).devices = (s.clients a).devices :=
          congrArg ClientView.devices (congrFun hclient a)
        have hup : (s2.clients a).devices.map SeatDevice.up = (s2.clients a).devices := by
          rw [hdevs, map_up_eq_self]
          intro d hd
          unfold SeatDevice.up
          split_ifs with hdrm
          · rw [← hinert d hd hdrm]
          · rfl
        have hafter := view_seatRestoreClientDrmMaster k s2 none a
        rw [hup, show (s2.clients a).devices = ((s2.view none).client a).devices from rfl,
          View.setDevices_self] at hafter
        have hseat' : (seatRestoreClientDrmMaster k s2 a).seat = s2.seat := congrArg View.seat hafter
        refine .of_view ?_ ?_ ?_ fun c => ?_
        · rw [hseat', hactive]
        · rw [hseat']
          exact hsame.next
        · rw [hafter, hclient]
        · rw [(calls_seatRestoreClientDrmMaster k s2 a).channel, hchannel]
      · exact absurd hst hinert
      · exact hsame
  | none =>
      rw [ha] at hinert
      rw [seatHandleVtEvent_none k s ha, ← hs2]
      have hnext : s2.seat.nextClient = none := by
        rw [hseat]
        exact h.wf.next_none ha
      have hclients : s2.seat.clients = [] := by
        rw [hseat]
        exact hinert
      have hbound : s2.seat.vtBound = false := by
        rw [hseat]
        exact hb
      have htarget : seatActivateTarget s2 = none := by
        unfold seatActivateTarget
        simp [hnext, hbound, hclients]
      unfold seatActivate
      rw [htarget]
      split_ifs <;> exact hsame

/-! ## Steps that are noticed -/

/-- A kernel that takes whatever is sent. -/
def Kernel.draining (k : Kernel) : Kernel :=
  { k with sendmsg := fun _ _ => [.sent CONNECTION_BUFFER_SIZE] }

theorem putAll_draining {p : Peer} {parts : List (List UInt8)}
    (hlen : ∀ part ∈ parts, part.length ≤ CONNECTION_BUFFER_SIZE)
    (hsound : (s.connection p).Sound) : (Server.putAll k.draining p s parts).1 = true := by
  induction parts generalizing s with
  | nil => rfl
  | cons part parts ih =>
      have hdrains := connectionPut_drains hsound (hlen part List.mem_cons_self)
      have hput : (s.put k.draining p part).1 = true := (finishIo_fst s p _).trans hdrains
      have hmoves : (s.channel p).Moves part ((s.put k.draining p part).2.channel p) :=
        moves_finishIo s p ((connectionPut_puts hsound part _).ok hdrains).1
      unfold Server.putAll
      rw [if_pos hput]
      exact ih (fun x hx => hlen x (List.mem_cons_of_mem part hx)) hmoves.sound

/-- Such a kernel takes every seat event. -/
theorem clientSendEvent_draining (hsound : s.Sound) (c : ClientId) {m : ServerMsg}
    (hm : m.isSeatEvent = true) : (clientSendEvent k.draining s c m).1 = true := by
  have hparts : m.parts = [headerBytes m.opcode 0] := by
    cases m <;> first | rfl | cases hm
  have hput : (clientPutMsg k.draining s c m).1 = true := by
    show (Server.putAll k.draining (.client c) s m.parts).1 = true
    refine putAll_draining k (fun part hpart => ?_) (hsound (.client c))
    rw [hparts, List.mem_singleton] at hpart
    rw [hpart]
    exact Nat.le_of_ble_eq_true rfl
  have hflush : ((clientPutMsg k.draining s c m).2.flush k.draining (.client c)).1 = true := by
    have hdoes : (Talk.frame c m true).Does k.draining s (clientPutMsg k.draining s c m).2 :=
      Prod.ext hput rfl
    have hspec := hdoes.spec hsound
    exact (finishIo_fst _ (.client c) _).trans (connectionFlush_drains (hspec.sound hsound (.client c)))
  unfold clientSendEvent
  rw [if_pos hput, if_pos hflush]
  exact hflush

/-- On a seat without VTs, a client that may be opened is opened. -/
theorem seatOpenClient_draining (hsound : s.Sound) (hb : s.seat.vtBound = false) {c : ClientId}
    (hactive : s.seat.activeClient = none)
    (hst : (s.clients c).state = new ∨ (s.clients c).state = disabled) :
    (seatOpenClient k.draining s c).1 = true := by
  have hst' : ¬ ((s.clients c).state ≠ new ∧ (s.clients c).state ≠ disabled) := by
    rcases hst with hst | hst <;> simp [hst]
  have hup := calls_seatActivateDevices k.draining s c
  have hsend : (clientSendEnableSeat k.draining (seatActivateDevices k.draining s c) c).1 = true :=
    clientSendEvent_draining k (hup.sound hsound) c rfl
  unfold seatOpenClient
  rw [if_neg hst', if_neg (by simp [hactive])]
  simp only [hb, Bool.false_eq_true, if_false, if_true]
  unfold seatEnableClient
  rw [if_pos hsend]

/-- A VT event that finds something to do, on some kernel. -/
theorem vtEvent_touches (h : s.Kept) (hb : s.seat.vtBound = false) {oldVt newVt : Int}
    (hall : ∀ k' : Kernel, k'.platform = k.platform →
      Untouched s (seatHandleVtEvent k' s oldVt newVt)) : VtInert s (.vtEvent oldVt newVt) := by
  unfold VtInert
  cases ha : s.seat.activeClient with
  | some a =>
      have hun := hall k rfl
      dsimp only
      split_ifs with hown
      · -- the devices after the event are the devices activated
        have hafter := view_seatHandleVtEvent_owned k s none ha hown oldVt
        have hdevs : ((seatHandleVtEvent k s oldVt newVt).clients a).devices
            = (s.clients a).devices.map SeatDevice.up := by
          show (((seatHandleVtEvent k s oldVt newVt).view none).client a).devices = _
          rw [hafter, View.client_setDevices, if_pos rfl]
        intro d hd hdrm
        have hd' := (map_up_eq_self _).mp (hdevs.symm.trans (hun.devices a)) d hd
        rw [SeatDevice.up, if_pos hdrm] at hd'
        rw [← hd']
      · intro hst
        have hview := view_seatNoteVt k s none oldVt newVt
        rw [seatHandleVtEvent_some k s ha] at hun
        set s2 := seatNoteVt k s oldVt newVt
        have hst2 : (s2.clients a).state = active :=
          (congrArg (fun v : View => (v.client a).state) hview).trans hst
        have hactive : s2.seat.activeClient = some a :=
          (congrArg (fun v : View => v.seat.activeClient) hview).trans ha
        rw [if_neg hown, if_pos hst] at hun
        obtain ⟨ds, evs, -, -, -, hdisabled⟩ :=
          seatDisableClient_trans k s2 none s2.seat.nextClient hactive hst2 (.inl rfl)
        have hpending : ((seatDisableClient k s2 a).2.clients a).state = pendingDisable := by
          have hstate := congrArg (fun v : View => (v.client a).state) hdisabled
          exact hstate.trans (by simp [Act.effect, View.push])
        rw [hun.state a, hst] at hpending
        cases hpending
  | none =>
      -- with nobody active, the first client is opened if its socket takes the event
      by_contra hne
      have hun := hall k.draining rfl
      obtain ⟨bs, hbs, -⟩ := seatNoteVt_talks k.draining s oldVt newVt
      have hview := view_seatNoteVt k.draining s none oldVt newVt
      rw [seatHandleVtEvent_none k.draining s ha] at hun
      set s2 := seatNoteVt k.draining s oldVt newVt
      have hseat : s2.seat = ((Act.vtEvent newVt).effect (s.view none)).seat :=
        congrArg View.seat hview
      have hactive : s2.seat.activeClient = none := by rw [hseat]; exact ha
      have hnext : s2.seat.nextClient = none := by rw [hseat]; exact h.wf.next_none ha
      have hbound : s2.seat.vtBound = false := by rw [hseat]; exact hb
      have hclients : s2.seat.clients = s.seat.clients := by rw [hseat]; rfl
      obtain ⟨c, rest, hlist⟩ := List.exists_cons_of_ne_nil hne
      have htarget : seatActivateTarget s2 = some c := by
        unfold seatActivateTarget
        simp [hnext, hbound, hclients, hlist]
      have hc : c ∈ s.seat.clients := hlist ▸ List.mem_cons_self
      have hst : (s2.clients c).state = new ∨ (s2.clients c).state = disabled := by
        rw [show (s2.clients c).state = (s.clients c).state from
          congrArg (fun v : View => (v.client c).state) hview]
        exact h.wf.openable ha hc
      have hsound : s2.Sound := (hbs.spec h.sound).sound
      set s3 := s2.setSeat { s2.seat with nextClient := none } with hs3
      have hsound3 : s3.Sound := ((Calls.refl (Q := fun _ => True) s2).setSeat _).sound hsound
      have hopen : (seatOpenClient k.draining s3 c).1 = true :=
        seatOpenClient_draining k hsound3 hbound hactive hst
      have hafter : (seatActivate k.draining s2).2.seat.activeClient = some c := by
        unfold seatActivate
        rw [if_neg (by simp [hactive]), htarget]
        dsimp only
        rw [← hs3, seat_seatOpenClient, if_pos hopen]
      have hsame := hun.active
      rw [hafter, ha] at hsame
      cases hsame

end

/-! ## The theorem -/

/-- **VTs and a seat that is not bound to them**: in every reachable state, a VT step leaves the
clients of such a seat alone, whatever the system answers, if and only if `VtInert` holds. -/
theorem vt_untouched_iff (k : Kernel) (steps : List Step) (st : Step) (hst : st.IsVt) :
    (∀ k' : Kernel, k'.platform = k.platform →
        Untouched (run k false steps) (step k' (run k false steps) st))
      ↔ VtInert (run k false steps) st := by
  have h : (run k false steps).Kept := kept_run k false steps
  have hb : (run k false steps).seat.vtBound = false := vtBound_run k false steps
  have hrefl : Untouched (run k false steps) (run k false steps) :=
    ⟨rfl, rfl, fun _ => rfl, fun _ => rfl, fun _ => rfl⟩
  generalize run k false steps = s at h hb hrefl ⊢
  match st, hst with
  | .vtEvent oldVt newVt, _ =>
      have hstep : ∀ k', step k' s (.vtEvent oldVt newVt) = seatHandleVtEvent k' s oldVt newVt :=
        fun k' => if_neg (by simp [Step.client, Step.controlClient])
      simp only [hstep]
      exact ⟨fun hall => vtEvent_touches k h hb hall,
        fun hinert k' _ => vtEvent_untouched k' h hb hinert⟩
  | .vtRelease, _ =>
      refine ⟨fun _ => trivial, fun _ k' _ => ?_⟩
      have hstep : step k' s .vtRelease = s := by
        rw [step, if_neg (by simp [Step.client, Step.controlClient])]
        show (seatVtRelease k' s).2 = s
        rw [seatVtRelease, if_pos hb]
      rw [hstep]
      exact hrefl
  | .vtAcquire, _ =>
      refine ⟨fun _ => trivial, fun _ k' _ => ?_⟩
      have hstep : step k' s .vtAcquire = s := by
        rw [step, if_neg (by simp [Step.client, Step.controlClient])]
        show (seatVtActivate k' s).2 = s
        rw [seatVtActivate, if_pos hb]
      rw [hstep]
      exact hrefl
  | .control i r, _ =>
      refine ⟨fun _ => trivial, fun _ k' _ => ?_⟩
      unfold step
      split_ifs
      · exact hrefl
      · exact control_untouched k' h hb i r

/-- A session that runs, and a VT event. -/
def unboundSession : List Step := [.connect 100, .request 0 .openSeat]

/-- A VT event disables a running compositor of a seat that is not bound to VTs. -/
theorem vt_event_disables_unbound :
    let s := run (.obliging 1) false unboundSession
    (s.clients 0).state = active
      ∧ ((step (.obliging 1) s (.vtEvent 1 2)).clients 0).state = pendingDisable
      ∧ outStream (step (.obliging 1) s (.vtEvent 1 2)) 0
          = outStream s 0 ++ ServerMsg.disableSeat.bytes := by
  decide +kernel

/-- A VT event for the session of the running compositor goes unnoticed, its DRM device being
active. -/
theorem unbound_event_untouched :
    let s := run (.obliging 1) false (unboundSession ++ [.request 0 (.openDevice DRI_PREFIX)])
    (s.clients 0).devices.map SeatDevice.type = [.drm]
      ∧ Untouched s (step (.obliging 1) s (.vtEvent 2 1)) := by
  intro s
  have hinert : VtInert s (.vtEvent 2 1) := by
    have hactive : s.seat.activeClient = some 0 := by decide +kernel
    simp only [VtInert, hactive]
    decide +kernel
  exact ⟨by decide +kernel, (vt_untouched_iff (.obliging 1)
    (unboundSession ++ [.request 0 (.openDevice DRI_PREFIX)]) (.vtEvent 2 1)
    (by simp [Step.IsVt])).mpr hinert (.obliging 1) rfl⟩

end DdeSeatd
