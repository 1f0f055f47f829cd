import DdeSeatd.FdQueue
import DdeSeatd.Lib.Ledger

set_option autoImplicit false

/-! # Where the daemon's file descriptors are

The daemon opens a descriptor for each device of each client and duplicates it for every
OPEN_DEVICE. `Server.ledger` keeps account of them: what `open` and `dup` gave out, what the device
tables hold, what was queued for clients, and what was closed. Hardly any function touches the
ledger; those that do open a device, close one, or queue a duplicate, and each of them is a sequence
of changes that keeps a ledger balanced.

So no run leaks a descriptor of a device or closes one twice, also where an allocation or `dup` fails
half way, and no two entries of device tables share one (`descriptors_balanced`). That a duplicate
is always queued rests on the room in the queue of a live client.
-/

namespace DdeSeatd

/-! ## The ledger -/

/-- Who has a descriptor: the device table of a client, or the way to a client. -/
inductive Holder where
  | table (c : ClientId)
  | sent
  deriving DecidableEq, Repr

/-- The duplicates queued for clients. -/
def queuedDups (trace : List Event) : List Nat :=
  trace.filterMap fun e =>
    match e with
    | .fdQueued _ _ dup _ => some dup
    | _ => none

/-- The descriptors passed to `close`. -/
def closedFds (trace : List Event) : List Nat :=
  trace.filterMap fun e =>
    match e with
    | .sys (.close fd) _ => some fd
    | _ => none

def Server.ledger (s : Server) : Ledger Holder where
  next := s.nextFd
  held := fun h =>
    match h with
    | .table c => (s.clients c).devices.map SeatDevice.fd
    | .sent => queuedDups s.trace
  retired := closedFds s.trace

/-- The event is in the ledger. -/
def Event.booked : Event → Bool
  | .sys (.close _) _ => true
  | .fdQueued _ _ _ _ => true
  | _ => false

/-! ## Functions that leave the ledger alone -/

section

variable (k : Kernel) (s : Server)

@[simp] theorem ledger_setErrno (e : Nat) : (s.setErrno e).ledger = s.ledger := rfl

@[simp] theorem ledger_setSeat (seat : Seat) : (s.setSeat seat).ledger = s.ledger := rfl

theorem ledger_record {e : Event} (h : e.booked = false) : (s.record e).ledger = s.ledger := by
  have hdups : queuedDups (e :: s.trace) = queuedDups s.trace := by
    cases e <;> first | rfl | cases h
  have hclosed : closedFds (e :: s.trace) = closedFds s.trace := by
    cases e with
    | sys call r => cases call <;> first | rfl | cases h
    | _ => rfl
  simp [Server.ledger, Server.record, hdups, hclosed]

theorem ledger_setClient {c : ClientId} {cl : Client}
    (h : cl.devices.map SeatDevice.fd = (s.clients c).devices.map SeatDevice.fd) :
    (s.setClient c cl).ledger = s.ledger := by
  have hheld : ∀ o, ((s.setClient c cl).clients o).devices.map SeatDevice.fd
      = (s.clients o).devices.map SeatDevice.fd := by
    intro o
    by_cases ho : o = c
    · subst ho
      simpa [Server.setClient] using h
    · simp [Server.setClient, ho]
  unfold Server.ledger
  simp only [hheld]
  rfl

@[simp] theorem ledger_setState (c : ClientId) (st : ClientState) :
    (s.setState c st).ledger = s.ledger := ledger_setClient s rfl

@[simp] theorem ledger_setConnection (p : Peer) (conn : Connection) :
    (s.setConnection p conn).ledger = s.ledger := by
  cases p with
  | client c => exact ledger_setClient s rfl
  | control i => rfl

@[simp] theorem ledger_setMask (p : Peer) (mask : UInt32) :
    (s.setMask p mask).ledger = s.ledger := by
  cases p with
  | client c => exact ledger_setClient s rfl
  | control i => rfl

theorem ledger_sys {call : Syscall} (h : ∀ fd, call ≠ .close fd) :
    (s.sys k call).2.ledger = s.ledger := by
  have hrec : (s.record (.sys call (k.ret s.trace call))).ledger = s.ledger := by
    refine ledger_record s ?_
    cases call with
    | close fd => exact absurd rfl (h fd)
    | _ => rfl
  simp only [Server.sys]
  split_ifs
  · exact hrec
  · exact hrec

theorem ledger_call {call : Syscall} (h : ∀ fd, call ≠ .close fd) :
    (s.call k call).2.ledger = s.ledger := ledger_sys k s h

/-! ### Terminals -/

@[simp] theorem ledger_terminalOpen (vt : Int) : (terminalOpen k s vt).2.ledger = s.ledger :=
  ledger_call k s (by simp)

theorem ledger_vtConfigure (vt : Int) (b : Bool) : (vtConfigure k s vt b).2.ledger = s.ledger := by
  have hswitching : ∀ s : Server, (terminalSetProcessSwitching k s vt b).2.ledger = s.ledger :=
    fun s => ledger_call k s (by simp)
  have hgraphics : ∀ s : Server, (terminalSetGraphics k s vt b).2.ledger = s.ledger :=
    fun s => ledger_call k s (by simp)
  have hkeyboard : ∀ s : Server, (terminalSetKeyboard k s vt !b).2.ledger = s.ledger := by
    intro s
    unfold terminalSetKeyboard
    dsimp only
    split_ifs
    · rw [ledger_call k _ (by simp), ledger_call k s (by simp)]
    · exact ledger_call k s (by simp)
  unfold vtConfigure
  dsimp only
  split_ifs
  · rw [hgraphics, hkeyboard, hswitching, ledger_terminalOpen]
  · exact ledger_terminalOpen k s vt

@[simp] theorem ledger_vtOpen (vt : Int) : (vtOpen k s vt).2.ledger = s.ledger :=
  ledger_vtConfigure k s vt true

@[simp] theorem ledger_vtClose (vt : Int) : (vtClose k s vt).2.ledger = s.ledger :=
  ledger_vtConfigure k s vt false

@[simp] theorem ledger_vtSwitch (vt : Int) : (vtSwitch k s vt).2.ledger = s.ledger := by
  have hmode : (terminalSetProcessSwitching k (terminalOpen k s s.seat.curVt).2 s.seat.curVt
      true).2.ledger = s.ledger := by
    rw [show (terminalSetProcessSwitching k _ _ _).2.ledger = _ from ledger_call k _ (by simp),
      ledger_terminalOpen]
  unfold vtSwitch
  dsimp only
  split_ifs
  · rw [show (terminalSwitchVt k _ _ _).2.ledger = _ from ledger_call k _ (by simp), hmode]
  · exact hmode
  · simp

@[simp] theorem ledger_vtAck (release : Bool) : (vtAck k s release).2.ledger = s.ledger := by
  unfold vtAck
  dsimp only
  split_ifs
  · exact (ledger_call k _ (by simp)).trans (ledger_terminalOpen k s _)
  · exact (ledger_call k _ (by simp)).trans (ledger_terminalOpen k s _)
  · simp

@[simp] theorem ledger_seatUpdateVt : (seatUpdateVt k s).2.ledger = s.ledger := by
  have hvt : (terminalCurrentVt k (terminalOpen k s 0).2).2.ledger = s.ledger :=
    (ledger_sys k _ (by simp)).trans (ledger_terminalOpen k s 0)
  unfold seatUpdateVt
  dsimp only
  split_ifs
  all_goals first
    | exact hvt
    | exact ledger_terminalOpen k s 0

@[simp] theorem ledger_findAvailableVt : (findAvailableVt k s).2.ledger = s.ledger := by
  have hfind : ∀ s : Server, (terminalFindAvailable k s).2.ledger = s.ledger := by
    intro s
    have hsys : (s.sys k .vtOpenQry).2.ledger = s.ledger := ledger_sys k s (by simp)
    unfold terminalFindAvailable
    split
    · dsimp only
      split_ifs <;> exact hsys
    · rfl
  unfold findAvailableVt
  dsimp only
  split_ifs
  · rw [hfind, ledger_terminalOpen]
  · simp

/-! ### Sending -/

theorem ledger_finishIo (p : Peer) (o : SendOut) : (s.finishIo p o).2.ledger = s.ledger := by
  unfold Server.finishIo
  dsimp only
  split
  · rw [ledger_record _ rfl, ledger_setConnection]
  · rw [ledger_setErrno, ledger_record _ rfl, ledger_setConnection]

@[simp] theorem ledger_flush (p : Peer) : (s.flush k p).2.ledger = s.ledger := ledger_finishIo s p _

@[simp] theorem ledger_putAll (p : Peer) (parts : List (List UInt8)) :
    (Server.putAll k p s parts).2.ledger = s.ledger := by
  induction parts generalizing s with
  | nil => rfl
  | cons part parts ih =>
      have hput : (s.put k p part).2.ledger = s.ledger := ledger_finishIo s p _
      simp only [Server.putAll]
      split_ifs
      · rw [ih, hput]
      · exact hput

@[simp] theorem ledger_clientPutMsg (c : ClientId) (m : ServerMsg) :
    (clientPutMsg k s c m).2.ledger = s.ledger := by
  unfold clientPutMsg
  dsimp only
  rw [ledger_record _ rfl, ledger_putAll]

@[simp] theorem ledger_clientSendError (c : ClientId) (code : Nat) :
    (clientSendError k s c code).2.ledger = s.ledger := ledger_clientPutMsg k s c _

@[simp] theorem ledger_clientFlush (c : ClientId) : (clientFlush k s c).2.ledger = s.ledger := by
  unfold clientFlush
  dsimp only
  split_ifs <;> simp

theorem ledger_clientSendEvent (c : ClientId) (m : ServerMsg) :
    (clientSendEvent k s c m).2.ledger = s.ledger := by
  unfold clientSendEvent
  dsimp only
  split_ifs
  · simp
  · rw [ledger_record _ rfl]
    simp
  · simp

@[simp] theorem ledger_controlClientDestroy (i : ControlId) :
    (controlClientDestroy s i).ledger = s.ledger := by
  unfold controlClientDestroy
  dsimp only
  rw [ledger_record _ rfl, ledger_setConnection]
  rfl

@[simp] theorem ledger_controlSendMessage (i : ControlId) (m : ControlMsg) :
    (controlSendMessage k s i m).2.ledger = s.ledger := by
  have hframe : ((Server.putAll k (.control i) s m.parts).2.record
      (.controlFrame i m (Server.putAll k (.control i) s m.parts).1)).ledger = s.ledger := by
    rw [ledger_record _ rfl, ledger_putAll]
  unfold controlSendMessage controlClientFlush
  dsimp only
  split_ifs <;> simp [hframe]

@[simp] theorem ledger_controlBroadcastVtChange (oldVt newVt : Int) :
    (controlBroadcastVtChange k s oldVt newVt).ledger = s.ledger := by
  unfold controlBroadcastVtChange
  generalize s.controlClients = is
  induction is generalizing s with
  | nil => rfl
  | cons i is ih =>
      rw [controlBroadcastTo, ih]
      split_ifs <;> simp

/-! ### Activating and deactivating devices -/

/-- A function on one device that leaves the ledger and the descriptor of the device alone. -/
def SparesFd (f : Server → SeatDevice → Bool × SeatDevice × Server) : Prop :=
  ∀ s d, (f s d).2.2.ledger = s.ledger ∧ (f s d).2.1.fd = d.fd

theorem sparesFd_deactivate : SparesFd (seatDeactivateDevice k) := by
  intro s d
  have hrelease : (releaseDevice k s d).2.ledger = s.ledger := by
    unfold releaseDevice
    split
    · exact ledger_call k s (by simp)
    · unfold evdevRevoke
      split
      · exact ledger_record s rfl
      · exact ledger_call k s (by simp)
    · unfold hidrawRevoke
      split
      · exact ledger_call k s (by simp)
      · exact ledger_record s rfl
    · rfl
  unfold seatDeactivateDevice
  dsimp only
  split_ifs
  · exact ⟨rfl, rfl⟩
  · exact ⟨hrelease, rfl⟩
  · exact ⟨hrelease, rfl⟩

theorem sparesFd_activate : SparesFd (seatActivateDevice k) := by
  intro s d
  have hmaster : (drmIsMaster k s d.fd).2.ledger = s.ledger := by
    have hsys : (s.sys k (.drmAuthMagic d.fd)).2.ledger = s.ledger := ledger_sys k s (by simp)
    unfold drmIsMaster
    dsimp only
    split_ifs <;> exact hsys
  have hdrm : (acquireDrm k s d.fd).ledger = s.ledger := by
    unfold acquireDrm
    dsimp only
    split_ifs
    · exact hmaster
    · exact (ledger_call k _ (by simp)).trans hmaster
  unfold seatActivateDevice
  split
  · exact ⟨rfl, rfl⟩
  · split
    · exact ⟨hdrm, rfl⟩
    all_goals exact ⟨rfl, rfl⟩

variable {k s} in
theorem SparesFd.forDevices {f : Server → SeatDevice → Bool × SeatDevice × Server}
    (hf : SparesFd f) (on : SeatDevice → Bool) (ds : List SeatDevice) :
    (forDevices f on s ds).2.ledger = s.ledger
      ∧ (forDevices f on s ds).1.map SeatDevice.fd = ds.map SeatDevice.fd := by
  induction ds generalizing s with
  | nil => exact ⟨rfl, rfl⟩
  | cons d ds ih =>
      rw [DdeSeatd.forDevices]
      split_ifs
      · obtain ⟨hledger, hfd⟩ := hf s d
        obtain ⟨hrest, hfds⟩ := ih (s := (f s d).2.2)
        exact ⟨hrest.trans hledger, by simp [hfd, hfds]⟩
      · obtain ⟨hrest, hfds⟩ := ih (s := s)
        exact ⟨hrest, by simp [hfds]⟩

variable {k s} in
theorem SparesFd.onDevices {f : Server → SeatDevice → Bool × SeatDevice × Server}
    (hf : SparesFd f) (on : SeatDevice → Bool) (c : ClientId) :
    (onDevices f on s c).ledger = s.ledger := by
  obtain ⟨hledger, hfds⟩ := hf.forDevices (s := s) on (s.clients c).devices
  have hheld : (s.clients c).devices.map SeatDevice.fd
      = ((DdeSeatd.forDevices f on s (s.clients c).devices).2.clients c).devices.map
        SeatDevice.fd :=
    (congrFun (congrArg Ledger.held hledger) (.table c)).symm
  exact (ledger_setClient _ (hfds.trans hheld)).trans hledger

@[simp] theorem ledger_seatDeactivateDevices (c : ClientId) :
    (seatDeactivateDevices k s c).ledger = s.ledger := (sparesFd_deactivate k).onDevices _ c

@[simp] theorem ledger_seatActivateDevices (c : ClientId) :
    (seatActivateDevices k s c).ledger = s.ledger := (sparesFd_activate k).onDevices _ c

@[simp] theorem ledger_seatDropClientDrmMaster (c : ClientId) :
    (seatDropClientDrmMaster k s c).ledger = s.ledger := (sparesFd_deactivate k).onDevices _ c

@[simp] theorem ledger_seatRestoreClientDrmMaster (c : ClientId) :
    (seatRestoreClientDrmMaster k s c).ledger = s.ledger := (sparesFd_activate k).onDevices _ c

@[simp] theorem ledger_seatFindDevice (c : ClientId) (deviceId : Int) :
    (seatFindDevice s c deviceId).2.ledger = s.ledger := by
  unfold seatFindDevice
  split_ifs
  · rfl
  · split <;> rfl

/-! ### The seat -/

@[simp] theorem ledger_seatRollBack (c : ClientId) (openVt : Int) :
    (seatRollBack k s c openVt).ledger = s.ledger := by
  unfold seatRollBack
  dsimp only
  split_ifs <;> simp

@[simp] theorem ledger_seatOpenClient (c : ClientId) :
    (seatOpenClient k s c).2.ledger = s.ledger := by
  have henable : ∀ (s : Server) openVt, (seatEnableClient k s c openVt).2.ledger = s.ledger := by
    intro s openVt
    have hsend : (clientSendEnableSeat k (seatActivateDevices k s c) c).2.ledger = s.ledger :=
      (ledger_clientSendEvent k _ c _).trans (by simp)
    unfold seatEnableClient
    dsimp only
    split_ifs
    · simp [hsend]
    · rw [ledger_seatRollBack, hsend]
  unfold seatOpenClient
  dsimp only
  split_ifs <;> simp [henable]

@[simp] theorem ledger_seatActivate : (seatActivate k s).2.ledger = s.ledger := by
  unfold seatActivate
  split_ifs
  · rfl
  · split <;> simp

@[simp] theorem ledger_seatDisableClient (c : ClientId) :
    (seatDisableClient k s c).2.ledger = s.ledger := by
  unfold seatDisableClient
  split_ifs
  · rfl
  · exact (ledger_clientSendEvent k _ c _).trans (by simp)

@[simp] theorem ledger_seatAckDisableClient (c : ClientId) :
    (seatAckDisableClient k s c).2.ledger = s.ledger := by
  unfold seatAckDisableClient
  dsimp only
  split_ifs <;> simp

@[simp] theorem ledger_seatRequestVt (vt : Int) : (seatRequestVt k s vt).2.ledger = s.ledger := by
  unfold seatRequestVt
  dsimp only
  split_ifs <;> simp

@[simp] theorem ledger_seatSetNextSession (c : ClientId) (session : Int) :
    (seatSetNextSession k s c session).2.ledger = s.ledger := by
  unfold seatSetNextSession
  split_ifs
  all_goals try simp
  split
  · rfl
  · split <;> simp

@[simp] theorem ledger_seatAddClient (c : ClientId) :
    (seatAddClient k s c).2.ledger = s.ledger := by
  have hlink : ∀ (s : Server) session, (seatLinkClient s c session).ledger = s.ledger := by
    intro s session
    exact ledger_setClient s rfl
  unfold seatAddClient
  dsimp only
  split_ifs <;> simp [hlink]

@[simp] theorem ledger_seatRemoveGroupVts (c : ClientId) (gs : List GroupVt) :
    (seatRemoveGroupVts k c s gs).ledger = s.ledger := by
  induction gs generalizing s with
  | nil => rfl
  | cons g gs ih =>
      rw [seatRemoveGroupVts]
      dsimp only
      split_ifs <;> simp [ih]

@[simp] theorem ledger_seatCleanVt (c : ClientId) (wasCurrent : Bool) :
    (seatCleanVt k s c wasCurrent).ledger = s.ledger := by
  unfold seatCleanVt
  split_ifs <;> simp

@[simp] theorem ledger_seatVtActivate : (seatVtActivate k s).2.ledger = s.ledger := by
  unfold seatVtActivate
  split_ifs <;> simp

@[simp] theorem ledger_seatVtRelease : (seatVtRelease k s).2.ledger = s.ledger := by
  unfold seatVtRelease
  dsimp only
  split_ifs
  · rfl
  · rw [ledger_vtAck]
    split
    · simp
    · split_ifs <;> simp

@[simp] theorem ledger_seatHandleVtEvent (oldVt newVt : Int) :
    (seatHandleVtEvent k s oldVt newVt).ledger = s.ledger := by
  unfold seatHandleVtEvent
  dsimp only
  split <;> split_ifs <;> simp

@[simp] theorem ledger_seatCreateGroupVt (owner : ClientId) (requestedVt : Int) :
    (seatCreateGroupVt k s owner requestedVt).2.ledger = s.ledger := by
  have hchoice : (groupVtChoice k s requestedVt).2.ledger = s.ledger := by
    unfold groupVtChoice
    split_ifs <;> simp
  have halloc : ((groupVtChoice k s requestedVt).2.sys k .alloc).2.ledger = s.ledger :=
    (ledger_sys k _ (by simp)).trans hchoice
  unfold seatCreateGroupVt
  dsimp only
  split_ifs <;> simp [hchoice, halloc]

@[simp] theorem ledger_seatDestroyGroupVt (vt : Int) :
    (seatDestroyGroupVt k s vt).2.ledger = s.ledger := by
  unfold seatDestroyGroupVt
  split
  · rfl
  · dsimp only
    split_ifs <;> simp

@[simp] theorem ledger_seatSwitchVt (vt : Int) : (seatSwitchVt k s vt).2.ledger = s.ledger := by
  unfold seatSwitchVt
  dsimp only
  split_ifs <;> simp

end

/-! ## Functions that change it -/

section

variable (k : Kernel) (s : Server)

theorem ledger_close (fd : Nat) :
    (s.sys k (.close fd)).2.ledger = { s.ledger with retired := fd :: s.ledger.retired } := by
  simp only [Server.sys]
  split_ifs <;> rfl

theorem ledger_setDevices (c : ClientId) (ds : List SeatDevice) :
    (s.setDevices c ds).ledger = { s.ledger with
      held := Function.update s.ledger.held (.table c) (ds.map SeatDevice.fd) } := by
  have hheld : (s.setDevices c ds).ledger.held
      = Function.update s.ledger.held (.table c) (ds.map SeatDevice.fd) := by
    funext h
    cases h with
    | table o => by_cases ho : o = c <;> simp [Server.ledger, Server.setDevices, Server.setClient, ho]
    | sent => rfl
  rw [← hheld]
  rfl

theorem ledger_fdQueued (c : ClientId) (fd dup : Nat) (type : SeatDeviceType) :
    (s.record (.fdQueued c fd dup type)).ledger = { s.ledger with
      held := Function.update s.ledger.held .sent (dup :: s.ledger.held .sent) } := by
  have hheld : (s.record (.fdQueued c fd dup type)).ledger.held
      = Function.update s.ledger.held .sent (dup :: s.ledger.held .sent) := by
    funext h
    cases h with
    | table o => rfl
    | sent => rfl
  rw [← hheld]
  rfl

theorem ledger_setDevices_same (c : ClientId) {ds : List SeatDevice}
    (h : ds.map SeatDevice.fd = (s.clients c).devices.map SeatDevice.fd) :
    (s.setDevices c ds).ledger = s.ledger := ledger_setClient s h

/-- Changing the reference count of a device changes no descriptor. -/
theorem map_fd_modify (ds : List SeatDevice) (i : Nat) (f : SeatDevice → Nat) :
    (ds.modify i fun d => { d with refCnt := f d }).map SeatDevice.fd = ds.map SeatDevice.fd := by
  induction ds generalizing i with
  | nil => simp
  | cons d ds ih =>
      cases i with
      | zero => rfl
      | succ i => simp [ih]

/-- **A device is opened**: the new descriptor goes to the client's table, or is closed again. -/
theorem openNewDevice_steps (c : ClientId) (path : CString) (type : SeatDeviceType) :
    s.ledger.Steps (openNewDevice k s c path type).2.ledger := by
  have hopen : (s.sys k (.openDevice path)).2.ledger = s.ledger := ledger_sys k s (by simp)
  -- the ledger between `open` and the allocation, in which the descriptor is nowhere
  set s1 := if type = .drm
    then (drmSetMaster k (s.sys k (.openDevice path)).2.newFd (s.sys k (.openDevice path)).2.nextFd).2
    else (s.sys k (.openDevice path)).2.newFd with hs1
  have hnew : s1.ledger = { s.ledger with next := s.ledger.next + 1 } := by
    have hfd : (s.sys k (.openDevice path)).2.newFd.ledger
        = { s.ledger with next := s.ledger.next + 1 } := by
      rw [← hopen]
      rfl
    rw [hs1]
    split_ifs
    · exact (ledger_call k _ (by simp)).trans hfd
    · exact hfd
  have halloc : (s1.sys k .alloc).2.ledger = { s.ledger with next := s.ledger.next + 1 } :=
    (ledger_sys k s1 (by simp)).trans hnew
  have hnext : (s.sys k (.openDevice path)).2.nextFd = s.ledger.next := congrArg Ledger.next hopen
  have hdevices : (s.clients c).devices.map SeatDevice.fd = s.ledger.held (.table c) := rfl
  unfold openNewDevice
  dsimp only
  rw [← hs1]
  split_ifs
  · exact .of_eq hopen
  · rw [ledger_setErrno, ledger_close, halloc, hnext]
    exact .pass s.ledger (.table c)
  · rw [ledger_setDevices, halloc, List.map_cons, hdevices, hnext]
    exact .single (.issue s.ledger (.table c))

theorem seatOpenDevice_steps (c : ClientId) (path : CString) :
    s.ledger.Steps (seatOpenDevice k s c path).2.ledger := by
  unfold seatOpenDevice
  dsimp only
  by_cases hst : (s.clients c).state ≠ .active
  · rw [if_pos hst]
    exact .refl _
  · rw [if_neg hst]
    split
    · exact .refl _
    · split
      · exact .refl _
      · split
        · exact .of_eq (ledger_setDevices_same s c (map_fd_modify _ _ _))
        · split_ifs
          · exact .refl _
          · exact openNewDevice_steps k s c _ _

/-- **A device is closed**: its last reference takes the descriptor out of the table and closes
it. -/
theorem seatCloseDevice_steps (c : ClientId) (i : Nat) :
    s.ledger.Steps (seatCloseDevice k s c i).ledger := by
  unfold seatCloseDevice
  split
  · exact .refl _
  · rename_i d hd
    split_ifs
    · exact .of_eq (ledger_setDevices_same s c (map_fd_modify _ _ _))
    · have hheld : (s.ledger.held (.table c))[i]? = some d.fd := by
        show ((s.clients c).devices.map SeatDevice.fd)[i]? = some d.fd
        rw [List.getElem?_map, hd]
        rfl
      dsimp only
      rw [ledger_setErrno, ledger_close, (sparesFd_deactivate k _ d).1, ledger_setDevices,
        ← List.eraseIdx_map]
      exact .single (.retire s.ledger (.table c) i d.fd hheld)

theorem seatCloseDevices_steps (c : ClientId) (fuel : Nat) :
    s.ledger.Steps (seatCloseDevices k c fuel s).ledger := by
  induction fuel generalizing s with
  | zero => exact .refl _
  | succ fuel ih =>
      rw [seatCloseDevices]
      split_ifs
      · exact .refl _
      · exact (seatCloseDevice_steps k s c 0).trans (ih _)

theorem seatRemoveClient_steps (c : ClientId) :
    s.ledger.Steps (seatRemoveClient k s c).ledger := by
  have hstrip : s.ledger.Steps (seatStripClient k s c).ledger := by
    unfold seatStripClient
    dsimp only
    rw [ledger_seatRemoveGroupVts]
    refine Ledger.Steps.trans ?_ (seatCloseDevices_steps k _ c _)
    exact .refl _
  have hretire : ∀ s : Server, (s.setClient c { s.clients c with
      state := .closed, seat := false }).ledger = s.ledger := fun s => ledger_setClient s rfl
  unfold seatRemoveClient
  dsimp only
  rw [hretire, ledger_seatCleanVt]
  split_ifs
  · rw [ledger_seatActivate, ledger_setSeat]
    exact hstrip
  · exact hstrip

theorem clientDestroy_steps (c : ClientId) : s.ledger.Steps (clientDestroy k s c).ledger := by
  unfold clientDestroy
  dsimp only
  rw [ledger_record _ rfl, ledger_setConnection]
  split_ifs
  · exact seatRemoveClient_steps k s c
  · exact .refl _

/-- **A descriptor is sent**: the duplicate is queued, if the queue has room. -/
theorem sendDevice_steps (c : ClientId) (d : SeatDevice)
    (hroom : ∃ conn, connectionPutFd (s.clients c).connection s.nextFd = .ok conn) :
    s.ledger.Steps (sendDevice k s c d).2.ledger := by
  obtain ⟨conn, hput⟩ := hroom
  have hput' : connectionPutFd (s.newFd.clients c).connection s.nextFd = .ok conn := hput
  unfold sendDevice
  dsimp only
  rw [hput']
  dsimp only
  rw [ledger_clientPutMsg, ledger_fdQueued, ledger_setConnection]
  exact .single (.issue s.ledger .sent)

theorem handleOpenDevice_steps (c : ClientId) (path : CString)
    (hroom : ∀ fd, ∃ conn, connectionPutFd (s.clients c).connection fd = .ok conn) :
    s.ledger.Steps (handleOpenDevice k s c path).2.ledger := by
  have hopen := seatOpenDevice_steps k s c path
  unfold handleOpenDevice
  dsimp only
  split_ifs
  · exact .refl _
  · split
    · rw [ledger_clientSendError]
      exact hopen
    · rename_i i d _
      have hdup : ((seatOpenDevice k s c path).2.call k (.dup d.fd)).2.ledger
          = (seatOpenDevice k s c path).2.ledger := ledger_call k _ (by simp)
      have hoff : (Syscall.dup d.fd).OffTty := trivial
      have hconn := ((calls_seatOpenDevice k s c path).call k hoff).connection c
      split_ifs
      · refine (hopen.trans (.of_eq hdup)).trans (sendDevice_steps k _ c d ?_)
        rw [hconn]
        exact hroom _
      · rw [ledger_clientSendError]
        exact (hopen.trans (.of_eq hdup)).trans (seatCloseDevice_steps k _ c i)

theorem handleRequest_steps {c : ClientId} (r : Request)
    (hroom : ∀ fd, ∃ conn, connectionPutFd (s.clients c).connection fd = .ok conn) :
    s.ledger.Steps (handleRequest k s c r).2.ledger := by
  cases r with
  | openSeat =>
      refine .of_eq ?_
      show (handleOpenSeat k s c).2.ledger = s.ledger
      unfold handleOpenSeat
      dsimp only
      split_ifs <;> simp
  | closeSeat =>
      show s.ledger.Steps (handleCloseSeat k s c).2.ledger
      unfold handleCloseSeat
      split_ifs
      · exact .refl _
      · dsimp only
        rw [ledger_clientPutMsg]
        exact seatRemoveClient_steps k s c
  | openDevice path => exact handleOpenDevice_steps k s c path hroom
  | closeDevice id =>
      show s.ledger.Steps (handleCloseDevice k s c id).2.ledger
      have hfind : s.ledger.Steps (seatFindDevice s c id).2.ledger :=
        .of_eq (ledger_seatFindDevice s c id)
      unfold handleCloseDevice
      split_ifs
      · exact .refl _
      · dsimp only
        split
        · rw [ledger_clientSendError]
          exact hfind
        · rw [ledger_clientPutMsg]
          exact hfind.trans (seatCloseDevice_steps k _ c _)
  | switchSession session =>
      refine .of_eq ?_
      show (handleSwitchSession k s c session).2.ledger = s.ledger
      unfold handleSwitchSession
      dsimp only
      split_ifs <;> simp
  | disableSeat =>
      refine .of_eq ?_
      show (handleDisableSeat k s c).2.ledger = s.ledger
      unfold handleDisableSeat
      dsimp only
      split_ifs <;> simp
  | ping => exact .of_eq (ledger_clientPutMsg k s c .pong)

theorem clientHandleRequest_steps {c : ClientId} (r : Request)
    (hroom : ∀ fd, ∃ conn, connectionPutFd (s.clients c).connection fd = .ok conn) :
    s.ledger.Steps (clientHandleRequest k s c r).ledger := by
  have hreq := handleRequest_steps k s r hroom
  have hflush : s.ledger.Steps (clientFlush k (handleRequest k s c r).2 c).2.ledger :=
    hreq.trans (.of_eq (ledger_clientFlush k _ c))
  unfold clientHandleRequest
  dsimp only
  split_ifs
  · exact hflush
  · exact hflush.trans (clientDestroy_steps k _ c)
  · exact hreq.trans (clientDestroy_steps k _ c)

theorem clientHandleWritable_steps (c : ClientId) :
    s.ledger.Steps (clientHandleWritable k s c).ledger := by
  have hflush : s.ledger.Steps (s.flush k (.client c)).2.ledger := .of_eq (ledger_flush k s _)
  unfold clientHandleWritable
  dsimp only
  split_ifs
  · rw [ledger_setMask]
    exact hflush
  · exact hflush.trans (clientDestroy_steps k _ c)
  · exact hflush

theorem Tried.ledger {k : Kernel} {s s' : Server} (h : Tried k s s') : s'.ledger = s.ledger := by
  induction h with
  | refl => rfl
  | call _ c hc ih => exact (ledger_call k _ fun fd => by fin_cases hc <;> simp).trans ih

theorem serverAddClient_steps (pid : Int) (hnew : (s.clients s.nextClientId).devices = []) :
    s.ledger.Steps (serverAddClient k s pid).ledger := by
  have hadd : ∀ s₁, Tried k s s₁ →
      ((clientCreate s₁ pid).call k .pollerAddFd).2.ledger = s.ledger := by
    intro s₁ h
    have hid : s₁.nextClientId = s.nextClientId :=
      (h.calls (Q := fun _ => True) fun _ _ => trivial).nextClientId
    have hheld : (clientNew pid).devices.map SeatDevice.fd
        = (s₁.clients s₁.nextClientId).devices.map SeatDevice.fd := by
      have hsame := congrFun (congrArg Ledger.held h.ledger) (.table s.nextClientId)
      rw [hid]
      exact (hsame.trans (by simp [Server.ledger, hnew, clientNew])).symm
    exact (ledger_call k _ (by simp)).trans ((ledger_setClient s₁ hheld).trans h.ledger)
  exact serverAddClient_cases (motive := fun s' => s.ledger.Steps s'.ledger) pid
    (fun s₁ h => .of_eq h.ledger) (fun s₁ h => .of_eq (hadd s₁ h)) fun s₁ h =>
    Ledger.Steps.trans (.of_eq (hadd s₁ h)) (clientDestroy_steps k _ _)

@[simp] theorem ledger_controlAddClient (pid : Int) :
    (controlAddClient k s pid).ledger = s.ledger := by
  have hadd : ∀ s₁, Tried k s s₁ →
      ((controlCreate s₁ pid).call k .pollerAddFd).2.ledger = s.ledger :=
    fun s₁ h => (ledger_call k _ (by simp)).trans h.ledger
  refine controlAddClient_cases (motive := fun s' => s'.ledger = s.ledger) pid
    (fun s₁ h => h.ledger) hadd fun s₁ h => ?_
  rw [ledger_controlClientDestroy]
  exact hadd s₁ h

@[simp] theorem ledger_controlHandleRequest (i : ControlId) (r : ControlRequest) :
    (controlHandleRequest k s i r).ledger = s.ledger := by
  have hreply : ∀ (m : Int → ControlMsg) (v : Int × Server),
      (controlReplyVt k i m v).2.ledger = v.2.ledger := by
    intro m v
    unfold controlReplyVt
    split_ifs <;> simp
  have hreq : (handleControlRequest k s i r).2.ledger = s.ledger := by
    cases r with
    | createGroupVt pid vt =>
        show (handleCreateGroupVt k s i pid vt).2.ledger = s.ledger
        unfold handleCreateGroupVt
        split
        · simp
        · split_ifs <;> simp [hreply]
    | destroyGroupVt vt =>
        show (handleDestroyGroupVt k s i vt).2.ledger = s.ledger
        unfold handleDestroyGroupVt
        dsimp only
        split_ifs <;> simp
    | getActiveVt =>
        refine (hreply _ _).trans ?_
        unfold seatGetActiveVt
        dsimp only
        split_ifs <;> simp
    | findFreeVt =>
        refine (hreply _ _).trans ?_
        unfold seatFindAvailableVt
        split_ifs <;> simp
    | switchVt vt => exact (ledger_controlSendMessage k _ i _).trans (ledger_seatSwitchVt k s vt)
    | invalid => exact ledger_controlSendMessage k s i _
  unfold controlHandleRequest
  dsimp only
  split_ifs
  · exact hreq
  · rw [ledger_controlClientDestroy, hreq]

@[simp] theorem ledger_controlHandleWritable (i : ControlId) :
    (controlHandleWritable k s i).ledger = s.ledger := by
  unfold controlHandleWritable
  dsimp only
  split_ifs <;> simp

/-- **Every step of the daemon** changes the ledger by opening, closing and sending only. -/
theorem step_steps (hout : ∀ c, s.Outgoing c)
    (hnew : (s.clients s.nextClientId).devices = []) (st : Step) :
    s.ledger.Steps (step k s st).ledger := by
  unfold step
  split_ifs with hgone
  · exact .refl _
  · cases st with
    | connect pid => exact serverAddClient_steps k s pid hnew
    | request c r =>
        have hlive := (here_of_made hgone).1 c rfl
        have howes := ((hout c).resolve_right fun h => h.1 hlive).2
        exact clientHandleRequest_steps k s r fun fd =>
          connectionPutFd_of_le howes.sound howes.ringFds_le fd
    | writable c => exact clientHandleWritable_steps k s c
    | disconnect c => exact clientDestroy_steps k s c
    | vtRelease => exact .of_eq (ledger_seatVtRelease k s)
    | vtAcquire => exact .of_eq (ledger_seatVtActivate k s)
    | vtEvent oldVt newVt => exact .of_eq (ledger_seatHandleVtEvent k s oldVt newVt)
    | controlConnect pid => exact .of_eq (ledger_controlAddClient k s pid)
    | control i r => exact .of_eq (ledger_controlHandleRequest k s i r)
    | controlWritable i => exact .of_eq (ledger_controlHandleWritable k s i)
    | controlDisconnect i => exact .of_eq (ledger_controlClientDestroy s i)

end

/-! ## Runs -/

/-- Only live clients hold devices. -/
def View.DeadHoldNothing (v : View) : Prop := ∀ c, c ∉ v.live → (v.client c).devices = []

/-- A transition changes no devices but those of a live client. -/
theorem deadHoldNothing_trans {k : Kernel} {a : Act} {v v' : View} (hwf : v.WF)
    (ht : a.Trans k v v') (h : v.DeadHoldNothing) : v'.DeadHoldNothing := by
  obtain ⟨evs, hg, -, -, rfl⟩ := ht
  have hseat : ∀ c, c ∈ v.seat.clients ∨ v.leaving = some c → c ∈ v.live := fun c hc =>
    (hwf.live_iff c).mpr (Or.inr hc)
  have hactive : ∀ c, v.seat.activeClient = some c → c ∈ v.live := fun c hc =>
    hseat c (hwf.active c hc).1
  have hset : ∀ c cl, c ∈ v.live → (v.set c cl).DeadHoldNothing := by
    intro c cl hc o ho
    have hne : o ≠ c := fun heq => ho (heq ▸ hc)
    rw [View.client_set, if_neg hne]
    exact h o ho
  have herase : ∀ c, (v.client c).devices = [] →
      ∀ o, o ∉ v.live.erase c → (v.client o).devices = [] := by
    intro c hc o ho
    by_cases heq : o = c
    · exact heq ▸ hc
    · exact h o fun hlive => ho ((List.mem_erase_of_ne heq).mpr hlive)
  cases a with
  | create =>
      intro o ho
      obtain ⟨hne, ho⟩ : o ≠ v.nextId ∧ o ∉ v.live := by simpa [Act.effect, View.push] using ho
      simpa [Act.effect, View.push, hne] using h o ho
  | join c n => exact hset c _ ((hwf.live_iff c).mpr (Or.inl hg.2.1))
  | opened c | openFailed c ds | openDevice c d => exact hset c _ (hseat c (Or.inl hg.1))
  | disabled c ds next | acked c | dropDrm c ds | restoreDrm c st => exact hset c _ (hactive c hg.1)
  | retire c => exact hset c _ (hseat c (Or.inr hg.1))
  | free c => exact herase c (hwf.retired c hg.1 hg.2.1).1
  | freeIdle c => exact herase c (hwf.idle c hg.2).2.1
  | adjust c ds => exact hset c _ (hseat c hg.1)
  | closeDevice c i => exact hset c _ (hseat c hg.1)
  | _ => exact h

theorem deadHoldNothing_step {k : Kernel} {s : Server} (hwf : (s.view none).WF)
    (h : (s.view none).DeadHoldNothing) (st : Step) :
    ((step k s st).view none).DeadHoldNothing := by
  have hboth := Labelled.Path.invariant (I := fun v : View => v.WF ∧ v.DeadHoldNothing)
    (fun a u u' _ ht hu => ⟨hu.1.trans ht, deadHoldNothing_trans hu.1 ht hu.2⟩)
    (step_path k s hwf st) ⟨hwf, h⟩
  exact hboth.2

/-- What the account of the descriptors rests on. -/
structure Server.Accounted (s : Server) : Prop where
  kept : s.Kept
  outgoing : ∀ c, s.Outgoing c
  dead : (s.view none).DeadHoldNothing
  balanced : s.ledger.Balanced

theorem accounted_step {k : Kernel} {s : Server} (h : s.Accounted) (st : Step) :
    (step k s st).Accounted where
  kept := kept_step h.kept st
  outgoing := fun c => outgoing_step h.kept (h.outgoing c) st
  dead := deadHoldNothing_step h.kept.wf h.dead st
  balanced := by
    have hnew : s.nextClientId ∉ s.live := fun hlive =>
      absurd (h.kept.wf.fresh _ hlive) (lt_irrefl _)
    exact (step_steps k s h.outgoing (h.dead _ hnew) st).balanced h.balanced

theorem accounted_run (k : Kernel) (vtBound : Bool) (steps : List Step) :
    (run k vtBound steps).Accounted := by
  refine Run.run_invariant (P := Server.Accounted) (fun _ st h => accounted_step h st) ?_ steps
  have hempty : (serverInit vtBound).ledger = ⟨0, fun _ => [], []⟩ := by
    have hheld : (serverInit vtBound).ledger.held = fun _ => [] := by
      funext h
      cases h <;> rfl
    rw [← hheld]
    rfl
  exact ⟨kept_init vtBound, fun c => outgoing_run k vtBound [] c, fun _ _ => rfl,
    hempty ▸ Ledger.balanced_empty⟩

/-- The descriptors in the device table of a client. -/
def Server.deviceFds (s : Server) (c : ClientId) : List Nat :=
  (s.clients c).devices.map SeatDevice.fd

theorem Server.Accounted.count {s : Server} (h : s.Accounted) (fd : Nat) :
    (closedFds s.trace).count fd + (queuedDups s.trace).count fd
        + (s.live.map fun c => (s.deviceFds c).count fd).sum
      = if fd < s.nextFd then 1 else 0 := by
  have hnodup : (Holder.sent :: s.live.map Holder.table).Nodup := by
    refine List.nodup_cons.mpr ⟨by simp, List.Nodup.map (fun c o hco => ?_) h.kept.wf.liveNodup⟩
    cases hco
    rfl
  have howners : ∀ o, s.ledger.held o ≠ [] → o ∈ Holder.sent :: s.live.map Holder.table := by
    intro o ho
    cases o with
    | sent => exact List.mem_cons_self
    | table c =>
        refine List.mem_cons_of_mem _ (List.mem_map_of_mem ?_)
        by_contra hdead
        refine ho ?_
        show (s.clients c).devices.map SeatDevice.fd = []
        rw [show (s.clients c).devices = [] from h.dead c hdead]
        rfl
  have hcount := h.balanced.count hnodup howners fd
  rw [List.map_cons, List.sum_cons, List.map_map, ← Nat.add_assoc] at hcount
  exact hcount

/-- **Every descriptor is in one place.** After every run of the daemon, whatever failed in it, each
descriptor that `open` or `dup` gave out was either closed once, or queued once for a client, or is
in the device table of one live client, at one place; and no other number is found there. -/
theorem descriptors_balanced (k : Kernel) (vtBound : Bool) (steps : List Step) (fd : Nat) :
    let s := run k vtBound steps
    (closedFds s.trace).count fd + (queuedDups s.trace).count fd
        + (s.live.map fun c => (s.deviceFds c).count fd).sum
      = if fd < s.nextFd then 1 else 0 := (accounted_run k vtBound steps).count fd

/-- A device is opened twice, then the client disconnects: its descriptor is closed, once. -/
example :
    let open0 := Step.request 0 (.openDevice DRI_PREFIX)
    let s := run (.obliging 1) true [.connect 100, .request 0 .openSeat, open0, open0, .disconnect 0]
    s.nextFd = 3 ∧ closedFds s.trace = [0] ∧ queuedDups s.trace = [2, 1] := by
  decide +kernel

end DdeSeatd
