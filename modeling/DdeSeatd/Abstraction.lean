import DdeSeatd.WellFormed

set_option autoImplicit false

/-! # What the building blocks do to the view

One lemma for each function below `seatd/seat.c`'s session logic: most leave the view of the
seat machine as it is; the device loops change the devices of one client, and a seat event
leaves a trace in the log.
-/

namespace DdeSeatd

/-! ## Logs -/

/-- Events that neither send a seat event nor queue an fd. -/
def Quiet (evs : List Event) : Prop := (∀ o, seatFrames o evs = []) ∧ queuedFds evs = []

theorem seatFrames_append (c : ClientId) (es es' : List Event) :
    seatFrames c (es ++ es') = seatFrames c es ++ seatFrames c es' := List.filterMap_append

/-- The notable events say all there is to say about seat events. -/
theorem seatFrames_view (s : Server) (x : Option ClientId) (c : ClientId) :
    seatFrames c (s.view x).log = seatFrames c s.trace := by
  unfold seatFrames Server.view
  rw [List.filterMap_filter]
  congr 1
  funext e
  split_ifs with hnotable
  · rfl
  · split
    · next c' m =>
        have hm : m.isSeatEvent = false := by simpa [Event.notable] using hnotable
        simp [hm]
    · rfl

theorem queuedFds_append (es es' : List Event) :
    queuedFds (es ++ es') = queuedFds es ++ queuedFds es' := List.filterMap_append

theorem Quiet.nil : Quiet [] := ⟨fun _ => rfl, rfl⟩

theorem Quiet.append {es es' : List Event} (h : Quiet es) (h' : Quiet es') : Quiet (es ++ es') :=
  ⟨fun o => by rw [seatFrames_append, h.1, h'.1]; rfl, by rw [queuedFds_append, h.2, h'.2]; rfl⟩

theorem Quiet.sys (call : Syscall) (r : Int) : Quiet [.sys call r] := ⟨fun _ => rfl, rfl⟩

theorem Revoked.mono {es es' : List Event} (h : es ⊆ es') {fd : Nat} :
    Revoked es fd → Revoked es' fd := by
  rintro ⟨r, hr, hmem⟩
  exact ⟨r, hr, hmem.imp (@h _) (@h _)⟩

theorem Down.mono {k : Kernel} {es es' : List Event} (h : es ⊆ es') {d d' : SeatDevice} :
    Down k es d d' → Down k es' d d' := by
  intro hd
  cases hd with
  | idle h0 => exact .idle h0
  | done h0 hrev => exact .done h0 fun hin => (hrev hin).mono h
  | stuck h0 call hcall hfail => exact .stuck h0 call hcall hfail

theorem Down.same {k : Kernel} {evs : List Event} {d d' : SeatDevice} (h : Down k evs d d') :
    d'.type = d.type ∧ d'.fd = d.fd := by
  cases h <;> exact ⟨rfl, rfl⟩

/-- If the call for it cannot fail, the device is inactive afterwards. -/
theorem Down.inactive {k : Kernel} {evs : List Event} {d d' : SeatDevice} (h : Down k evs d d')
    (hok : ∀ call tr, d.releaseCall = some call → 0 ≤ k.ret tr call) : d'.active = false := by
  cases h with
  | idle h0 => exact h0
  | done _ _ => rfl
  | stuck _ call hcall hfail =>
      obtain ⟨tr, hneg⟩ := hfail
      exact absurd (hok call tr hcall) (by omega)

theorem View.push_push (v : View) (es es' : List Event) :
    (v.push es).push es' = v.push (es' ++ es) := by
  simp [View.push]

theorem View.push_setDevices (v : View) (es : List Event) (c : ClientId) (ds : List SeatDevice) :
    (v.push es).setDevices c ds = (v.setDevices c ds).push es := rfl

/-! ## State updates -/

section

variable (k : Kernel) (s : Server) (x : Option ClientId) {c : Syscall} {d : SeatDevice}

@[simp] theorem view_setErrno (e : Nat) : (s.setErrno e).view x = s.view x := rfl

@[simp] theorem view_newFd : s.newFd.view x = s.view x := rfl

theorem view_record_quiet {e : Event} (h : e.notable = false) : (s.record e).view x = s.view x := by
  simp [Server.view, Server.record, h]

theorem view_record {e : Event} (h : e.notable = true) :
    (s.record e).view x = (s.view x).push [e] := by
  simp [Server.view, Server.record, View.push, h]

theorem view_setClient (c : ClientId) (cl : Client) :
    (s.setClient c cl).view x = (s.view x).set c cl.view := by
  have : (fun o => ((s.setClient c cl).clients o).view)
      = Function.update (fun o => (s.clients o).view) c cl.view := by
    funext o
    by_cases ho : o = c <;> simp [Server.setClient, ho]
  simp only [Server.view, View.set, this]
  rfl

/-- A write to a client that the view does not show. -/
theorem view_setClient_same {c : ClientId} {cl : Client} (h : cl.view = (s.clients c).view) :
    (s.setClient c cl).view x = s.view x := by
  have hself := Function.update_eq_self c (s.view x).client
  rw [view_setClient, h]
  unfold View.set
  rw [show (s.clients c).view = (s.view x).client c from rfl, hself]

theorem view_setState (c : ClientId) (st : ClientState) :
    (s.setState c st).view x = (s.view x).setState c st := view_setClient s x c _

theorem view_setDevices (c : ClientId) (ds : List SeatDevice) :
    (s.setDevices c ds).view x = (s.view x).setDevices c ds := view_setClient s x c _

@[simp] theorem view_setSeat (seat : Seat) :
    (s.setSeat seat).view x = (s.view x).setSeat seat := rfl

@[simp] theorem view_setConnection (p : Peer) (conn : Connection) :
    (s.setConnection p conn).view x = s.view x := by
  cases p with
  | client c => exact view_setClient_same s x rfl
  | control i => rfl

@[simp] theorem view_setMask (p : Peer) (mask : UInt32) :
    (s.setMask p mask).view x = s.view x := by
  cases p with
  | client c => exact view_setClient_same s x rfl
  | control i => rfl

/-! ## System calls -/

theorem view_sys (h : c.revokes = false) :
    (s.sys k c).2.view x = s.view x := by
  have hrec := view_record_quiet s x (e := .sys c (k.ret s.trace c)) h
  simp only [Server.sys]
  split_ifs
  · rw [view_setErrno, hrec]
  · exact hrec

theorem view_call (h : c.revokes = false) :
    (s.call k c).2.view x = s.view x := view_sys k s x h

/-- A revocation leaves its result in the log. -/
theorem view_call_revoke (h : c.revokes = true) :
    (s.call k c).2.view x = (s.view x).push [.sys c (k.ret s.trace c)] := by
  have hrec := view_record s x (e := .sys c (k.ret s.trace c)) h
  simp only [Server.call, Server.sys]
  split_ifs
  · rw [view_setErrno, hrec]
  · exact hrec

theorem trace_sys (call : Syscall) :
    (s.sys k call).2.trace = .sys call (k.ret s.trace call) :: s.trace := by
  simp only [Server.sys]
  split_ifs <;> rfl

theorem seat_sys (call : Syscall) : (s.sys k call).2.seat = s.seat := by
  simp only [Server.sys]
  split_ifs <;> rfl

theorem call_fst (call : Syscall) : (s.call k call).1 = decide (0 ≤ k.ret s.trace call) := rfl

/-! ## Terminals -/

@[simp] theorem view_terminalOpen (vt : Int) : (terminalOpen k s vt).2.view x = s.view x :=
  view_call k s x rfl

@[simp] theorem view_terminalSetProcessSwitching (vt : Int) (b : Bool) :
    (terminalSetProcessSwitching k s vt b).2.view x = s.view x := view_call k s x rfl

@[simp] theorem view_terminalSetGraphics (vt : Int) (b : Bool) :
    (terminalSetGraphics k s vt b).2.view x = s.view x := view_call k s x rfl

@[simp] theorem view_terminalSetKeyboard (vt : Int) (b : Bool) :
    (terminalSetKeyboard k s vt b).2.view x = s.view x := by
  have h := view_call k s x (c := .kdSkbMode vt b) rfl
  unfold terminalSetKeyboard
  dsimp only
  split_ifs
  · rw [view_call k _ x rfl, h]
  · exact h

@[simp] theorem view_terminalFindAvailable :
    (terminalFindAvailable k s).2.view x = s.view x := by
  have h := view_sys k s x (c := .vtOpenQry) rfl
  unfold terminalFindAvailable
  split
  · dsimp only
    split_ifs
    · exact h
    · exact h
    · exact h
  · rfl

theorem view_vtConfigure (vt : Int) (b : Bool) :
    (vtConfigure k s vt b).2.view x = s.view x := by
  unfold vtConfigure
  dsimp only
  split_ifs <;> simp

@[simp] theorem view_vtOpen (vt : Int) : (vtOpen k s vt).2.view x = s.view x :=
  view_vtConfigure k s x vt true

@[simp] theorem view_vtClose (vt : Int) : (vtClose k s vt).2.view x = s.view x :=
  view_vtConfigure k s x vt false

@[simp] theorem view_vtSwitch (vt : Int) : (vtSwitch k s vt).2.view x = s.view x := by
  unfold vtSwitch
  dsimp only
  split_ifs
  · rw [show (terminalSwitchVt k _ s.seat.curVt vt).2.view x = _ from view_call k _ x rfl]
    simp
  · simp
  · simp

@[simp] theorem view_vtAck (release : Bool) : (vtAck k s release).2.view x = s.view x := by
  unfold vtAck
  dsimp only
  split_ifs
  · exact (view_call k _ x rfl).trans (view_terminalOpen k s x _)
  · exact (view_call k _ x rfl).trans (view_terminalOpen k s x _)
  · simp

@[simp] theorem view_findAvailableVt : (findAvailableVt k s).2.view x = s.view x := by
  unfold findAvailableVt
  dsimp only
  split_ifs <;> simp

theorem terminalCurrentVt_pos (h : 0 < (terminalCurrentVt k s).1) :
    k.ret s.trace .vtGetState = (terminalCurrentVt k s).1 := by
  unfold terminalCurrentVt at h ⊢
  dsimp only at h ⊢
  by_cases hneg : (s.sys k .vtGetState).1 < 0
  · rw [if_pos hneg] at h
    omega
  · rw [if_neg hneg]
    rfl

/-- `seat_update_vt` stores the VT the kernel reports, if it does. -/
theorem view_seatUpdateVt :
    (seatUpdateVt k s).2.view x = s.view x
    ∨ ∃ n, 0 < n ∧ (∃ tr, k.ret tr .vtGetState = n)
        ∧ (seatUpdateVt k s).2.view x = (s.view x).setSeat { s.seat with curVt := n } := by
  have hview : (terminalCurrentVt k (terminalOpen k s 0).2).2.view x = s.view x :=
    (view_sys k _ x rfl).trans (view_terminalOpen k s x 0)
  have hseat : (terminalCurrentVt k (terminalOpen k s 0).2).2.seat = s.seat :=
    congrArg View.seat hview
  unfold seatUpdateVt
  dsimp only
  by_cases ht : (terminalOpen k s 0).1 = true
  · rw [if_pos ht]
    by_cases hvt : (terminalCurrentVt k (terminalOpen k s 0).2).1 ≤ 0
    · rw [if_pos hvt]
      exact Or.inl hview
    · rw [if_neg hvt]
      refine Or.inr ⟨(terminalCurrentVt k (terminalOpen k s 0).2).1, by omega,
        ⟨(terminalOpen k s 0).2.trace, terminalCurrentVt_pos k _ (by omega)⟩, ?_⟩
      rw [view_setSeat, hview, hseat]
  · rw [if_neg ht]
    exact Or.inl (view_terminalOpen k s x 0)

/-- The VT on the screen as the kernel reports it, or the last one known if it does not. -/
def Server.vtShown (k : Kernel) (s : Server) : Int :=
  let tty := k.ret s.trace (.terminalOpen 0)
  let vt := k.ret (.sys (.terminalOpen 0) tty :: s.trace) .vtGetState
  if tty < 0 ∨ vt ≤ 0 then s.seat.curVt else vt

theorem curVt_seatUpdateVt : (seatUpdateVt k s).2.seat.curVt = s.vtShown k := by
  have hopen : (terminalOpen k s 0).1 = decide (0 ≤ k.ret s.trace (.terminalOpen 0)) := rfl
  have hstate : (terminalCurrentVt k (terminalOpen k s 0).2).1
      = if k.ret (.sys (.terminalOpen 0) (k.ret s.trace (.terminalOpen 0)) :: s.trace) .vtGetState < 0
        then -1
        else k.ret (.sys (.terminalOpen 0) (k.ret s.trace (.terminalOpen 0)) :: s.trace)
          .vtGetState := by
    rw [← trace_sys]
    rfl
  have hseat : (terminalOpen k s 0).2.seat = s.seat := seat_sys k s _
  have hseat' : (terminalCurrentVt k (terminalOpen k s 0).2).2.seat = s.seat :=
    (seat_sys k _ _).trans hseat
  unfold Server.vtShown
  dsimp only
  generalize k.ret (.sys (.terminalOpen 0) (k.ret s.trace (.terminalOpen 0)) :: s.trace) .vtGetState
    = vt at hstate ⊢
  generalize k.ret s.trace (.terminalOpen 0) = r at hopen ⊢
  unfold seatUpdateVt
  dsimp only
  rw [hopen, hstate]
  by_cases hr : 0 ≤ r
  · rw [if_pos (by simpa using hr)]
    by_cases hvt : vt ≤ 0
    · have hfails : (if vt < 0 then -1 else vt) ≤ 0 := by split_ifs <;> omega
      rw [if_pos hfails, if_pos (Or.inr hvt)]
      exact congrArg Seat.curVt hseat'
    · have hknown : (if vt < 0 then -1 else vt) = vt := if_neg (by omega)
      rw [hknown, if_neg hvt, if_neg (by omega)]
      rfl
  · rw [if_neg (by simpa using hr), if_pos (Or.inl (by omega)), hseat]

/-- `seat_update_vt` changes nothing but the current VT. -/
theorem view_seatUpdateVt_curVt :
    (seatUpdateVt k s).2.view x = (s.view x).setSeat { s.seat with curVt := s.vtShown k } := by
  rw [← curVt_seatUpdateVt]
  rcases view_seatUpdateVt k s x with h | ⟨n, -, -, h⟩
  · rw [h, show (seatUpdateVt k s).2.seat = s.seat from congrArg View.seat h]
    rfl
  · rw [h, show (seatUpdateVt k s).2.seat = _ from congrArg View.seat h]
    rfl

/-! ## Sending -/

theorem view_finishIo (p : Peer) (o : SendOut) : (s.finishIo p o).2.view x = s.view x := by
  unfold Server.finishIo
  dsimp only
  split
  · rw [view_record_quiet _ x rfl, view_setConnection]
  · rw [view_setErrno, view_record_quiet _ x rfl, view_setConnection]

@[simp] theorem view_put (p : Peer) (data : List UInt8) : (s.put k p data).2.view x = s.view x :=
  view_finishIo s x p _

@[simp] theorem view_flush (p : Peer) : (s.flush k p).2.view x = s.view x := view_finishIo s x p _

@[simp] theorem view_putAll (p : Peer) (parts : List (List UInt8)) :
    (Server.putAll k p s parts).2.view x = s.view x := by
  induction parts generalizing s with
  | nil => rfl
  | cons part parts ih =>
      simp only [Server.putAll]
      split_ifs
      · rw [ih, view_put]
      · exact view_put k s x p part

/-- Responses are not in the view. -/
theorem view_clientPutMsg (c : ClientId) {m : ServerMsg} (h : m.isSeatEvent = false) :
    (clientPutMsg k s c m).2.view x = s.view x := by
  unfold clientPutMsg
  dsimp only
  rw [view_record_quiet _ x (by exact h), view_putAll]

@[simp] theorem view_clientSendError (c : ClientId) (code : Nat) :
    (clientSendError k s c code).2.view x = s.view x := view_clientPutMsg k s x c rfl

@[simp] theorem view_clientFlush (c : ClientId) : (clientFlush k s c).2.view x = s.view x := by
  unfold clientFlush
  dsimp only
  split_ifs <;> simp

/-- The three outcomes of sending a seat event. -/
theorem view_clientSendEvent (c : ClientId) {m : ServerMsg} (h : m.isSeatEvent = true) :
    ((clientSendEvent k s c m).1 = true
      ∧ (clientSendEvent k s c m).2.view x = (s.view x).push [.frame c m true])
    ∨ ((clientSendEvent k s c m).1 = false
      ∧ (clientSendEvent k s c m).2.view x = (s.view x).push [.unflushed c m, .frame c m true])
    ∨ ((clientSendEvent k s c m).1 = false
      ∧ (clientSendEvent k s c m).2.view x = (s.view x).push [.frame c m false]) := by
  have hput : (clientPutMsg k s c m).2.view x
      = (s.view x).push [.frame c m (clientPutMsg k s c m).1] := by
    unfold clientPutMsg
    dsimp only
    rw [view_record _ x (by exact h), view_putAll]
  unfold clientSendEvent
  dsimp only
  split_ifs with hp hf
  · rw [hp] at hput
    exact Or.inl ⟨hf, by rw [view_flush, hput]⟩
  · rw [hp] at hput
    refine Or.inr (Or.inl ⟨rfl, ?_⟩)
    rw [view_record _ x (by exact h), view_flush, hput, View.push_push]
    rfl
  · have hp' : (clientPutMsg k s c m).1 = false := by simpa using hp
    rw [hp'] at hput
    exact Or.inr (Or.inr ⟨hp', hput⟩)

@[simp] theorem view_controlClientDestroy (i : ControlId) :
    (controlClientDestroy s i).view x = s.view x := by
  unfold controlClientDestroy
  dsimp only
  rw [view_record_quiet _ x rfl, view_setConnection]
  rfl

@[simp] theorem view_controlSendMessage (i : ControlId) (m : ControlMsg) :
    (controlSendMessage k s i m).2.view x = s.view x := by
  have hput : ((Server.putAll k (.control i) s m.parts).2.record (.controlFrame i m
      (Server.putAll k (.control i) s m.parts).1)).view x = s.view x := by
    rw [view_record_quiet _ x rfl, view_putAll]
  unfold controlSendMessage controlClientFlush
  dsimp only
  split_ifs <;> simp [hput]

@[simp] theorem view_controlBroadcastTo (m : ControlMsg) (is : List ControlId) :
    (controlBroadcastTo k m s is).view x = s.view x := by
  induction is generalizing s with
  | nil => rfl
  | cons i is ih =>
      simp only [controlBroadcastTo]
      rw [ih]
      split_ifs <;> simp

@[simp] theorem view_controlBroadcastVtChange (oldVt newVt : Int) :
    (controlBroadcastVtChange k s oldVt newVt).view x = s.view x :=
  view_controlBroadcastTo k s x _ _

/-! ## Devices -/

/-- A revocation that succeeded is in the log; one that failed is a failed call. -/
theorem view_revoke {r : Bool × Server} (hcall : d.releaseCall = some c) (hrev : c.revokes = true)
    (hd : d.active = true) (hr : r = s.call k c ∨ r = (true, s.record (.sys c 0))) :
    ∃ evs, Quiet evs ∧ Down k evs d (if r.1 then { d with active := false } else d)
      ∧ r.2.view x = (s.view x).push evs := by
  have hdone : ∀ n : Int, 0 ≤ n → d.IsInput → Revoked [.sys c n] d.fd := by
    intro n hn hin
    refine ⟨n, hn, ?_⟩
    rcases hin with hin | hin <;> simp [SeatDevice.releaseCall, hin] at hcall <;> simp [hcall]
  rcases hr with rfl | rfl
  · refine ⟨[.sys c (k.ret s.trace c)], Quiet.sys c _, ?_, view_call_revoke k s x hrev⟩
    rw [call_fst]
    split_ifs with hok
    · exact .done hd (hdone _ (by simpa using hok))
    · exact .stuck hd c hcall ⟨s.trace, by simpa using hok⟩
  · exact ⟨[.sys c 0], Quiet.sys c 0, .done hd (hdone 0 le_rfl), view_record s x hrev⟩

theorem SeatDevice.not_isInput (h : d.type = .drm ∨ d.type = .wscons) :
    ¬ d.IsInput := by
  unfold SeatDevice.IsInput
  rcases h with h | h <;> simp [h]

theorem SeatDevice.up_type (d : SeatDevice) : d.up.type = d.type := by
  unfold SeatDevice.up
  split_ifs <;> rfl

theorem releaseDevice_down (hd : d.active = true) :
    ∃ evs, Quiet evs
      ∧ Down k evs d (if (releaseDevice k s d).1 then { d with active := false } else d)
      ∧ (releaseDevice k s d).2.view x = (s.view x).push evs := by
  have htype : d.type = .drm ∨ d.type = .evdev ∨ d.type = .hidraw ∨ d.type = .wscons := by
    cases d.type <;> simp
  rcases htype with htype | htype | htype | htype
  · have hr : releaseDevice k s d = s.call k (.drmDropMaster d.fd) := by
      simp [releaseDevice, htype, drmDropMaster]
    rw [hr]
    refine ⟨[], Quiet.nil, ?_, view_call k s x rfl⟩
    rw [call_fst]
    split_ifs with hok
    · exact .done hd fun hin => absurd hin (SeatDevice.not_isInput (Or.inl htype))
    · exact .stuck hd (.drmDropMaster d.fd) (by simp [SeatDevice.releaseCall, htype])
        ⟨s.trace, by simpa using hok⟩
  · refine view_revoke k s x (c := .evdevRevoke d.fd) (by simp [SeatDevice.releaseCall, htype])
      rfl hd ?_
    simp only [releaseDevice, htype, evdevRevoke]
    split <;> simp
  · refine view_revoke k s x (c := .hidrawRevoke d.fd) (by simp [SeatDevice.releaseCall, htype])
      rfl hd ?_
    simp only [releaseDevice, htype, hidrawRevoke]
    split <;> simp
  · have hr : releaseDevice k s d = (true, s) := by simp [releaseDevice, htype]
    rw [hr]
    exact ⟨[], Quiet.nil,
      .done hd fun hin => absurd hin (SeatDevice.not_isInput (Or.inr htype)), rfl⟩

theorem seatDeactivateDevice_down (d : SeatDevice) :
    ∃ evs, Quiet evs ∧ Down k evs d (seatDeactivateDevice k s d).2.1
      ∧ (seatDeactivateDevice k s d).2.2.view x = (s.view x).push evs := by
  unfold seatDeactivateDevice
  by_cases hd : d.active = false
  · rw [if_pos hd]
    exact ⟨[], Quiet.nil, .idle hd, rfl⟩
  · rw [if_neg hd]
    exact releaseDevice_down k s x (by simpa using hd)

theorem view_acquireDrm (fd : Nat) : (acquireDrm k s fd).view x = s.view x := by
  have hmaster : (drmIsMaster k s fd).2.view x = s.view x := by
    have h := view_sys k s x (c := .drmAuthMagic fd) rfl
    unfold drmIsMaster
    dsimp only
    split_ifs <;> exact h
  unfold acquireDrm
  dsimp only
  split_ifs
  · exact hmaster
  · exact (view_call k _ x rfl).trans hmaster

theorem seatActivateDevice_up (d : SeatDevice) :
    (seatActivateDevice k s d).2.1 = d.up
      ∧ (seatActivateDevice k s d).2.2.view x = s.view x := by
  unfold seatActivateDevice SeatDevice.up
  by_cases hd : d.active = true
  · rw [if_pos hd]
    refine ⟨?_, rfl⟩
    split_ifs
    · rw [← hd]
    · rfl
  · rw [if_neg hd]
    have htype : d.type = .drm ∨ d.type = .evdev ∨ d.type = .hidraw ∨ d.type = .wscons := by
      cases d.type <;> simp
    rcases htype with htype | htype | htype | htype
    · simp [htype, view_acquireDrm]
    · simp [htype]
    · simp [htype]
    · simp [htype]

/-- The deactivation loops. -/
theorem forDevices_deactivate (on : SeatDevice → Bool) (ds : List SeatDevice) :
    ∃ evs, Quiet evs
      ∧ List.Forall₂ (fun d d' => if on d then Down k evs d d' else d' = d) ds
          (forDevices (seatDeactivateDevice k) on s ds).1
      ∧ (forDevices (seatDeactivateDevice k) on s ds).2.view x = (s.view x).push evs := by
  induction ds generalizing s with
  | nil => exact ⟨[], Quiet.nil, .nil, rfl⟩
  | cons d ds ih =>
      simp only [forDevices]
      by_cases hon : on d = true
      · rw [if_pos hon]
        obtain ⟨evs, hq, hdown, hview⟩ := seatDeactivateDevice_down k s x d
        obtain ⟨evs', hq', hall, hview'⟩ := ih (seatDeactivateDevice k s d).2.2
        refine ⟨evs' ++ evs, hq'.append hq, .cons ?_ ?_, ?_⟩
        · rw [if_pos hon]
          exact hdown.mono (List.subset_append_right evs' evs)
        · refine hall.imp fun d d' h => ?_
          split_ifs at h ⊢
          · exact h.mono (List.subset_append_left evs' evs)
          · exact h
        · rw [hview', hview, View.push_push]
      · rw [if_neg hon]
        obtain ⟨evs, hq, hall, hview⟩ := ih s
        exact ⟨evs, hq, .cons (by rw [if_neg hon]) hall, hview⟩

/-- The activation loops; `on` may leave out devices that would stay as they are. -/
theorem forDevices_activate {p : SeatDevice → Bool} (hon : ∀ d, p d = false → d.up = d)
    (ds : List SeatDevice) :
    (forDevices (seatActivateDevice k) p s ds).1 = ds.map SeatDevice.up
      ∧ (forDevices (seatActivateDevice k) p s ds).2.view x = s.view x := by
  induction ds generalizing s with
  | nil => exact ⟨rfl, rfl⟩
  | cons d ds ih =>
      simp only [forDevices]
      by_cases hd : p d = true
      · rw [if_pos hd]
        obtain ⟨hup, hview⟩ := seatActivateDevice_up k s x d
        obtain ⟨hall, hview'⟩ := ih (seatActivateDevice k s d).2.2
        exact ⟨by rw [List.map_cons, hup, hall], by rw [hview', hview]⟩
      · rw [if_neg hd]
        obtain ⟨hall, hview⟩ := ih s
        exact ⟨by rw [List.map_cons, hon d (by simpa using hd), hall], hview⟩

theorem view_seatDeactivateDevices (c : ClientId) :
    ∃ evs ds, Quiet evs ∧ List.Forall₂ (Down k evs) (s.clients c).devices ds
      ∧ (seatDeactivateDevices k s c).view x = ((s.view x).setDevices c ds).push evs := by
  obtain ⟨evs, hq, hall, hview⟩ :=
    forDevices_deactivate k s x (fun _ => true) (s.clients c).devices
  refine ⟨evs, _, hq, hall.imp fun _ _ h => by simpa using h, ?_⟩
  show ((forDevices _ _ s _).2.setDevices c _).view x = _
  rw [view_setDevices, hview, View.push_setDevices]

theorem view_seatActivateDevices (c : ClientId) :
    (seatActivateDevices k s c).view x
      = (s.view x).setDevices c ((s.clients c).devices.map SeatDevice.up) := by
  obtain ⟨hall, hview⟩ :=
    forDevices_activate k s x (p := fun _ => true) (fun _ h => by cases h) (s.clients c).devices
  show ((forDevices _ _ s _).2.setDevices c _).view x = _
  rw [view_setDevices, hview, hall]

theorem view_seatDropClientDrmMaster (c : ClientId) :
    ∃ evs ds, Quiet evs
      ∧ List.Forall₂ (fun d d' => if d.type = .drm then Down k evs d d' else d' = d)
          (s.clients c).devices ds
      ∧ (seatDropClientDrmMaster k s c).view x = ((s.view x).setDevices c ds).push evs := by
  obtain ⟨evs, hq, hall, hview⟩ :=
    forDevices_deactivate k s x (fun d => d.type = .drm && d.active) (s.clients c).devices
  refine ⟨evs, _, hq, hall.imp fun d d' h => ?_, ?_⟩
  · by_cases htype : d.type = .drm
    · rw [if_pos htype]
      by_cases hact : d.active = true
      · simpa [htype, hact] using h
      · have : d' = d := by simpa [htype, hact] using h
        rw [this]
        exact .idle (by simpa using hact)
    · simpa [htype] using h
  · show ((forDevices _ _ s _).2.setDevices c _).view x = _
    rw [view_setDevices, hview, View.push_setDevices]

theorem view_seatRestoreClientDrmMaster (c : ClientId) :
    (seatRestoreClientDrmMaster k s c).view x
      = (s.view x).setDevices c ((s.clients c).devices.map SeatDevice.up) := by
  have hon : ∀ d : SeatDevice, (d.type = .drm && !d.active) = false → d.up = d := by
    intro d hd
    unfold SeatDevice.up
    split_ifs with htype
    · have : d.active = true := by simpa [htype] using hd
      rw [← this]
    · rfl
  obtain ⟨hall, hview⟩ := forDevices_activate k s x
    (p := fun d => d.type = .drm && !d.active) hon (s.clients c).devices
  show ((forDevices _ _ s _).2.setDevices c _).view x = _
  rw [view_setDevices, hview, hall]

end

end DdeSeatd
