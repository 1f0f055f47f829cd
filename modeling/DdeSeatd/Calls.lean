import DdeSeatd.Server

set_option autoImplicit false

/-! # Functions that only make system calls

Most functions of the daemon talk to the kernel and change clients and the seat, but touch no
connection. `Calls Q s s'` says so: between `s` and `s'` every connection, every event mask and
the lists of peers stayed as they were, and what was added to the trace are system calls that
satisfy `Q`. The condition is used to tell which ttys a function opens and which of them it puts
into graphics or text mode (`Syscall.OnTty`): most functions do neither, and only `vt_open` and
`vt_close` change modes.
-/

namespace DdeSeatd

/-- The system call does not change the mode of a VT. -/
def Syscall.KeepsModes : Syscall → Prop
  | .kdSetMode _ _ => False
  | _ => True

/-- The system call opens no tty but those in `O`, and changes the mode of none but those in
`M`. -/
def Syscall.OnTty (O M : Int → Prop) : Syscall → Prop
  | .terminalOpen vt => O vt
  | .kdSetMode vt _ => M vt
  | _ => True

/-- The system call is not about ttys. -/
def Syscall.OffTty : Syscall → Prop := Syscall.OnTty (fun _ => False) fun _ => False

theorem Syscall.OnTty.mono {O M O' M' : Int → Prop} (hO : ∀ vt, O vt → O' vt)
    (hM : ∀ vt, M vt → M' vt) {call : Syscall} (h : call.OnTty O M) : call.OnTty O' M' := by
  cases call with
  | terminalOpen vt => exact hO vt h
  | kdSetMode vt graphics => exact hM vt h
  | _ => trivial

theorem Syscall.OffTty.onTty {O M : Int → Prop} {call : Syscall} (h : call.OffTty) :
    call.OnTty O M := Syscall.OnTty.mono (fun _ => False.elim) (fun _ => False.elim) h

/-- Only system calls were made. -/
structure Calls (Q : Syscall → Prop) (s s' : Server) : Prop where
  connection : ∀ c, (s'.clients c).connection = (s.clients c).connection
  mask : ∀ c, (s'.clients c).mask = (s.clients c).mask
  controls : s'.controls = s.controls
  controlClients : s'.controlClients = s.controlClients
  live : s'.live = s.live
  nextClientId : s'.nextClientId = s.nextClientId
  nextControlId : s'.nextControlId = s.nextControlId
  trace : ∃ calls : List (Syscall × Int),
    s'.trace = (calls.map fun x => Event.sys x.1 x.2) ++ s.trace ∧ ∀ x ∈ calls, Q x.1

/-! ## The building blocks -/

section

variable {Q : Syscall → Prop} {s s' s'' : Server}

theorem Calls.refl (s : Server) : Calls Q s s :=
  ⟨fun _ => rfl, fun _ => rfl, rfl, rfl, rfl, rfl, rfl, [], rfl, by simp⟩

theorem Calls.trans (h : Calls Q s s') (h' : Calls Q s' s'') : Calls Q s s'' := by
  obtain ⟨calls, htrace, hcalls⟩ := h.trace
  obtain ⟨calls', htrace', hcalls'⟩ := h'.trace
  refine ⟨fun c => (h'.connection c).trans (h.connection c),
    fun c => (h'.mask c).trans (h.mask c), h'.controls.trans h.controls,
    h'.controlClients.trans h.controlClients, h'.live.trans h.live,
    h'.nextClientId.trans h.nextClientId, h'.nextControlId.trans h.nextControlId,
    calls' ++ calls, ?_, ?_⟩
  · rw [htrace', htrace, List.map_append, List.append_assoc]
  · intro x hx
    rcases List.mem_append.mp hx with hx | hx
    · exact hcalls' x hx
    · exact hcalls x hx

theorem Calls.mono {Q' : Syscall → Prop} (hQ : ∀ call, Q call → Q' call) (h : Calls Q s s') :
    Calls Q' s s' := by
  obtain ⟨calls, htrace, hcalls⟩ := h.trace
  exact ⟨h.connection, h.mask, h.controls, h.controlClients, h.live, h.nextClientId,
    h.nextControlId, calls, htrace, fun x hx => hQ _ (hcalls x hx)⟩

theorem Calls.any (h : Calls Q s s') : Calls (fun _ => True) s s' := h.mono fun _ _ => trivial

theorem Calls.onTty {O M O' M' : Int → Prop} (hO : ∀ vt, O vt → O' vt) (hM : ∀ vt, M vt → M' vt)
    (h : Calls (Syscall.OnTty O M) s s') : Calls (Syscall.OnTty O' M') s s' :=
  h.mono fun _ => Syscall.OnTty.mono hO hM

/-- Calls on one tty. -/
theorem Calls.oneTty {O M : Int → Prop} {vt : Int} (hO : O vt) (hM : M vt)
    (h : Calls (Syscall.OnTty (· = vt) (· = vt)) s s') : Calls (Syscall.OnTty O M) s s' := by
  refine h.onTty (fun n heq => ?_) fun n heq => ?_
  · exact heq.symm ▸ hO
  · exact heq.symm ▸ hM

theorem Calls.offTty {O M : Int → Prop} (h : Calls Syscall.OffTty s s') :
    Calls (Syscall.OnTty O M) s s' := h.mono fun _ => Syscall.OffTty.onTty

theorem Calls.keepsModes {O : Int → Prop} (h : Calls (Syscall.OnTty O fun _ => False) s s') :
    Calls Syscall.KeepsModes s s' := by
  refine h.mono fun call hcall => ?_
  cases call with
  | kdSetMode vt graphics => exact hcall
  | _ => trivial

/-- A client's record changes, but not its connection and mask. -/
theorem Calls.setClient (h : Calls Q s s') {c : ClientId} {cl : Client}
    (hconn : cl.connection = (s'.clients c).connection) (hmask : cl.mask = (s'.clients c).mask) :
    Calls Q s (s'.setClient c cl) := by
  refine ⟨fun o => ?_, fun o => ?_, h.controls, h.controlClients, h.live, h.nextClientId,
    h.nextControlId, h.trace⟩
  · rw [← h.connection o]
    by_cases ho : o = c <;> simp [Server.setClient, ho, hconn]
  · rw [← h.mask o]
    by_cases ho : o = c <;> simp [Server.setClient, ho, hmask]

theorem Calls.setState (h : Calls Q s s') (c : ClientId) (st : ClientState) :
    Calls Q s (s'.setState c st) := h.setClient rfl rfl

theorem Calls.setDevices (h : Calls Q s s') (c : ClientId) (ds : List SeatDevice) :
    Calls Q s (s'.setDevices c ds) := h.setClient rfl rfl

theorem Calls.setErrno (h : Calls Q s s') (e : Nat) : Calls Q s (s'.setErrno e) :=
  ⟨h.connection, h.mask, h.controls, h.controlClients, h.live, h.nextClientId, h.nextControlId,
    h.trace⟩

theorem Calls.setSeat (h : Calls Q s s') (seat : Seat) : Calls Q s (s'.setSeat seat) :=
  ⟨h.connection, h.mask, h.controls, h.controlClients, h.live, h.nextClientId, h.nextControlId,
    h.trace⟩

theorem Calls.newFd (h : Calls Q s s') : Calls Q s s'.newFd :=
  ⟨h.connection, h.mask, h.controls, h.controlClients, h.live, h.nextClientId, h.nextControlId,
    h.trace⟩

theorem Calls.record (h : Calls Q s s') {call : Syscall} {r : Int}
    (hq : Q call) : Calls Q s (s'.record (.sys call r)) := by
  obtain ⟨calls, htrace, hcalls⟩ := h.trace
  refine ⟨h.connection, h.mask, h.controls, h.controlClients, h.live, h.nextClientId,
    h.nextControlId, (call, r) :: calls, ?_, ?_⟩
  · show Event.sys call r :: s'.trace = _
    rw [htrace]
    rfl
  · intro x hx
    rcases List.mem_cons.mp hx with rfl | hx
    · exact hq
    · exact hcalls x hx

theorem Calls.sys (h : Calls Q s s') (k : Kernel) {call : Syscall}
    (hq : Q call) : Calls Q s (s'.sys k call).2 := by
  have hrec := h.record (r := k.ret s'.trace call) hq
  simp only [Server.sys]
  split_ifs
  · exact hrec.setErrno _
  · exact hrec

theorem Calls.call (h : Calls Q s s') (k : Kernel) {call : Syscall}
    (hq : Q call) : Calls Q s (s'.call k call).2 := h.sys k hq

end

/-! ## Terminals -/

section

variable (k : Kernel) (s : Server)

theorem calls_seatUpdateVt :
    Calls (Syscall.OnTty (· = 0) fun _ => False) s (seatUpdateVt k s).2 := by
  have hopen : Calls (Syscall.OnTty (· = 0) fun _ => False) s (terminalOpen k s 0).2 :=
    (Calls.refl s).call k rfl
  have hvt : Calls (Syscall.OnTty (· = 0) fun _ => False) s
      (terminalCurrentVt k (terminalOpen k s 0).2).2 := hopen.sys k (by trivial)
  unfold seatUpdateVt
  dsimp only
  split_ifs
  · exact hvt.setErrno _
  · exact hvt.setErrno _
  · exact hvt.setSeat _
  · exact hopen

theorem calls_vtConfigure (vt : Int) (session : Bool) :
    Calls (Syscall.OnTty (· = vt) (· = vt)) s (vtConfigure k s vt session).2 := by
  have hopen : Calls (Syscall.OnTty (· = vt) (· = vt)) s (terminalOpen k s vt).2 :=
    (Calls.refl s).call k rfl
  have hkeyboard : ∀ s' : Server, Calls (Syscall.OnTty (· = vt) (· = vt)) s s' →
      Calls (Syscall.OnTty (· = vt) (· = vt)) s (terminalSetKeyboard k s' vt !session).2 := by
    intro s' h
    unfold terminalSetKeyboard
    dsimp only
    split_ifs
    · exact (h.call k (by trivial)).call k (by trivial)
    · exact h.call k (by trivial)
  unfold vtConfigure
  dsimp only
  split_ifs
  · exact (hkeyboard _ (hopen.call k (by trivial))).call k rfl
  · exact hopen

theorem calls_vtSwitch (vt : Int) :
    Calls (Syscall.OnTty (· = s.seat.curVt) fun _ => False) s (vtSwitch k s vt).2 := by
  have hopen : Calls (Syscall.OnTty (· = s.seat.curVt) fun _ => False) s
      (terminalOpen k s s.seat.curVt).2 := (Calls.refl s).call k rfl
  unfold vtSwitch
  dsimp only
  split_ifs
  · exact (hopen.call k (by trivial)).call k trivial
  · exact hopen.call k trivial
  · exact hopen

theorem calls_vtAck (release : Bool) :
    Calls (Syscall.OnTty (· = s.seat.curVt) fun _ => False) s (vtAck k s release).2 := by
  have hopen : Calls (Syscall.OnTty (· = s.seat.curVt) fun _ => False) s
      (terminalOpen k s s.seat.curVt).2 := (Calls.refl s).call k rfl
  unfold vtAck
  dsimp only
  split_ifs
  · exact hopen.call k trivial
  · exact hopen.call k trivial
  · exact hopen

theorem calls_terminalFindAvailable :
    Calls Syscall.OffTty s (terminalFindAvailable k s).2 := by
  have hqry : Calls Syscall.OffTty s (s.sys k .vtOpenQry).2 := (Calls.refl s).sys k trivial
  unfold terminalFindAvailable
  split
  · dsimp only
    split_ifs
    · exact hqry
    · exact hqry.setErrno _
    · exact hqry
  · exact (Calls.refl s).setErrno _

theorem calls_findAvailableVt :
    Calls (Syscall.OnTty (· = 0) fun _ => False) s (findAvailableVt k s).2 := by
  have hopen : Calls (Syscall.OnTty (· = 0) fun _ => False) s (terminalOpen k s 0).2 :=
    (Calls.refl s).call k rfl
  unfold findAvailableVt
  dsimp only
  split_ifs
  · exact hopen.trans (calls_terminalFindAvailable k _).offTty
  · exact hopen

/-! ## Devices -/

theorem calls_releaseDevice (d : SeatDevice) :
    Calls Syscall.OffTty s (releaseDevice k s d).2 := by
  have hrefl := Calls.refl (Q := Syscall.OffTty) s
  unfold releaseDevice
  split
  · exact hrefl.call k trivial
  · unfold evdevRevoke
    split
    · exact hrefl.record trivial
    · exact hrefl.call k trivial
  · unfold hidrawRevoke
    split
    · exact hrefl.call k trivial
    · exact hrefl.record trivial
  · exact hrefl

theorem calls_seatDeactivateDevice (d : SeatDevice) :
    Calls Syscall.OffTty s (seatDeactivateDevice k s d).2.2 := by
  unfold seatDeactivateDevice
  split_ifs
  · exact Calls.refl s
  · exact calls_releaseDevice k s d

theorem calls_acquireDrm (fd : Nat) : Calls Syscall.OffTty s (acquireDrm k s fd) := by
  have hmaster : Calls Syscall.OffTty s (drmIsMaster k s fd).2 := by
    have hauth : Calls Syscall.OffTty s (s.sys k (.drmAuthMagic fd)).2 := (Calls.refl s).sys k trivial
    unfold drmIsMaster
    dsimp only
    split_ifs <;> exact hauth
  unfold acquireDrm
  dsimp only
  split_ifs
  · exact hmaster
  · exact hmaster.call k trivial

theorem calls_seatActivateDevice (d : SeatDevice) :
    Calls Syscall.OffTty s (seatActivateDevice k s d).2.2 := by
  unfold seatActivateDevice
  split_ifs
  · exact Calls.refl s
  · split
    · exact calls_acquireDrm k s d.fd
    · exact (Calls.refl s).setErrno _
    · exact (Calls.refl s).setErrno _
    · exact Calls.refl s

theorem calls_forDevices {Q : Syscall → Prop}
    {f : Server → SeatDevice → Bool × SeatDevice × Server}
    (hf : ∀ s d, Calls Q s (f s d).2.2) (on : SeatDevice → Bool) (ds : List SeatDevice) :
    Calls Q s (forDevices f on s ds).2 := by
  induction ds generalizing s with
  | nil => exact Calls.refl s
  | cons d ds ih =>
      simp only [forDevices]
      split_ifs
      · exact (hf s d).trans (ih _)
      · exact ih s

theorem calls_onDevices {Q : Syscall → Prop}
    {f : Server → SeatDevice → Bool × SeatDevice × Server}
    (hf : ∀ s d, Calls Q s (f s d).2.2) (on : SeatDevice → Bool) (c : ClientId) :
    Calls Q s (onDevices f on s c) :=
  (calls_forDevices s hf on _).setDevices c _

theorem calls_seatDeactivateDevices (c : ClientId) :
    Calls Syscall.OffTty s (seatDeactivateDevices k s c) :=
  calls_onDevices s (calls_seatDeactivateDevice k) _ c

theorem calls_seatActivateDevices (c : ClientId) :
    Calls Syscall.OffTty s (seatActivateDevices k s c) :=
  calls_onDevices s (calls_seatActivateDevice k) _ c

theorem calls_seatDropClientDrmMaster (c : ClientId) :
    Calls Syscall.OffTty s (seatDropClientDrmMaster k s c) :=
  calls_onDevices s (calls_seatDeactivateDevice k) _ c

theorem calls_seatRestoreClientDrmMaster (c : ClientId) :
    Calls Syscall.OffTty s (seatRestoreClientDrmMaster k s c) :=
  calls_onDevices s (calls_seatActivateDevice k) _ c

theorem calls_seatFindDevice (c : ClientId) (deviceId : Int) :
    Calls Syscall.OffTty s (seatFindDevice s c deviceId).2 := by
  unfold seatFindDevice
  split_ifs
  · exact (Calls.refl s).setErrno _
  · split
    · exact Calls.refl s
    · exact (Calls.refl s).setErrno _

theorem calls_openNewDevice (c : ClientId) (path : CString) (type : SeatDeviceType) :
    Calls Syscall.OffTty s (openNewDevice k s c path type).2 := by
  have hopen : Calls Syscall.OffTty s (s.sys k (.openDevice path)).2 :=
    (Calls.refl s).sys k trivial
  unfold openNewDevice
  dsimp only
  by_cases hfail : (s.sys k (.openDevice path)).1 < 0
  · rw [if_pos hfail]
    exact hopen
  · rw [if_neg hfail]
    generalize (s.sys k (.openDevice path)).2 = o at hopen ⊢
    have hmaster : Calls Syscall.OffTty s
        (if type = .drm then (drmSetMaster k o.newFd o.nextFd).2 else o.newFd) := by
      split_ifs
      · exact hopen.newFd.call k trivial
      · exact hopen.newFd
    generalize (if type = .drm then (drmSetMaster k o.newFd o.nextFd).2 else o.newFd) = m
      at hmaster ⊢
    by_cases halloc : (m.sys k .alloc).1 < 0
    · rw [if_pos halloc]
      exact ((hmaster.sys k (by trivial)).sys k (by trivial)).setErrno _
    · rw [if_neg halloc]
      exact (hmaster.sys k (by trivial)).setDevices _ _

theorem calls_seatOpenDevice (c : ClientId) (path : CString) :
    Calls Syscall.OffTty s (seatOpenDevice k s c path).2 := by
  have hrefl := Calls.refl (Q := Syscall.OffTty) s
  unfold seatOpenDevice
  dsimp only
  split
  · exact hrefl.setErrno _
  · split
    · exact hrefl.setErrno _
    · split
      · exact hrefl.setErrno _
      · split
        · exact hrefl.setDevices _ _
        · split
          · exact hrefl.setErrno _
          · exact calls_openNewDevice k s c _ _

theorem calls_seatCloseDevice (c : ClientId) (i : Nat) :
    Calls Syscall.OffTty s (seatCloseDevice k s c i) := by
  have hrefl := Calls.refl (Q := Syscall.OffTty) s
  unfold seatCloseDevice
  split
  · exact hrefl
  · dsimp only
    split_ifs
    · exact hrefl.setDevices _ _
    · exact (((hrefl.setDevices c _).trans (calls_seatDeactivateDevice k _ _)).sys k
        (by trivial)).setErrno _

theorem calls_seatCloseDevices (c : ClientId) (fuel : Nat) :
    Calls Syscall.OffTty s (seatCloseDevices k c fuel s) := by
  induction fuel generalizing s with
  | zero => exact Calls.refl s
  | succ fuel ih =>
      unfold seatCloseDevices
      split_ifs
      · exact Calls.refl s
      · exact (calls_seatCloseDevice k s c 0).trans (ih _)

/-! ## The seat -/

theorem calls_seatRollBack (c : ClientId) (openVt : Int) :
    Calls (Syscall.OnTty (· = openVt) (· = openVt)) s (seatRollBack k s c openVt) := by
  have hdown := (calls_seatDeactivateDevices k s c).offTty (O := (· = openVt)) (M := (· = openVt))
  unfold seatRollBack
  dsimp only
  split_ifs
  · exact hdown.trans (calls_vtConfigure k _ openVt false)
  · exact hdown

theorem calls_seatLinkClient (c : ClientId) (session : Int) :
    Calls Syscall.OffTty s (seatLinkClient s c session) := by
  have h : Calls Syscall.OffTty s
      (s.setClient c { s.clients c with session := session, seat := true }) :=
    (Calls.refl s).setClient rfl rfl
  exact ⟨h.connection, h.mask, h.controls, h.controlClients, h.live, h.nextClientId,
    h.nextControlId, h.trace⟩

theorem calls_seatAddClient (c : ClientId) :
    Calls (Syscall.OnTty (· = 0) fun _ => False) s (seatAddClient k s c).2 := by
  have hrefl := Calls.refl (Q := Syscall.OnTty (· = 0) fun _ => False) s
  have hvt := calls_seatUpdateVt k s
  unfold seatAddClient
  split_ifs
  · exact hrefl.setErrno _
  · exact hrefl.setErrno _
  · exact hrefl.setErrno _
  · dsimp only
    split_ifs
    · exact hvt.setErrno _
    · exact hvt.setErrno _
    · exact hvt.trans (calls_seatLinkClient _ c _).offTty
  · exact (calls_seatLinkClient s c _).offTty

theorem calls_seatRemoveGroupVts {V : Int → Prop} (c : ClientId) (gs : List GroupVt)
    (hgs : ∀ g ∈ gs, g.owner = c → V g.vt) :
    Calls (Syscall.OnTty V V) s (seatRemoveGroupVts k c s gs) := by
  induction gs generalizing s with
  | nil => exact Calls.refl s
  | cons g gs ih =>
      have hrest : ∀ s', Calls (Syscall.OnTty V V) s' (seatRemoveGroupVts k c s' gs) :=
        fun s' => ih s' fun g' hg' => hgs g' (List.mem_cons_of_mem g hg')
      simp only [seatRemoveGroupVts]
      split_ifs with howner hb
      · have hvt := hgs g List.mem_cons_self howner
        have hclose := calls_vtConfigure k
          (s.setSeat { s.seat with groupVts := s.seat.groupVts.erase g }) g.vt false
        exact (((Calls.refl s).setSeat _).trans (hclose.oneTty hvt hvt)).trans (hrest _)
      · exact ((Calls.refl s).setSeat _).trans (hrest _)
      · exact hrest s

theorem calls_seatStripClient (c : ClientId) :
    Calls (fun _ => True) s (seatStripClient k s c) := by
  unfold seatStripClient
  exact (((Calls.refl s).setSeat _).trans (calls_seatCloseDevices k _ c _).any).trans
    (calls_seatRemoveGroupVts k _ (V := fun _ => True) c _ fun _ _ _ => trivial).any

theorem calls_seatCleanVt (c : ClientId) (wasCurrent : Bool) :
    Calls (Syscall.OnTty (· = (s.clients c).session) (· = (s.clients c).session)) s
      (seatCleanVt k s c wasCurrent) := by
  unfold seatCleanVt
  split_ifs
  · exact calls_vtConfigure k s _ false
  · exact calls_vtConfigure k s _ false
  · exact Calls.refl s
  · exact Calls.refl s

theorem calls_seatRequestVt (vt : Int) :
    Calls (Syscall.OnTty (· = s.seat.curVt) fun _ => False) s (seatRequestVt k s vt).2 := by
  have h : Calls (Syscall.OnTty (· = s.seat.curVt) fun _ => False) s
      (vtSwitch k (s.setSeat { s.seat with pendingVtSwitch := vt }) vt).2 :=
    ((Calls.refl s).setSeat _).trans
      (calls_vtSwitch k (s.setSeat { s.seat with pendingVtSwitch := vt }) vt)
  unfold seatRequestVt
  dsimp only
  split_ifs
  · exact h
  · exact h.setSeat _

theorem calls_seatVtActivate :
    Calls (Syscall.OnTty (fun vt => vt = 0 ∨ vt = (seatUpdateVt k s).2.seat.curVt) fun _ => False) s
      (seatVtActivate k s).2 := by
  unfold seatVtActivate
  split_ifs
  · exact Calls.refl s
  · exact ((calls_seatUpdateVt k s).onTty (fun _ => Or.inl) fun _ => id).trans
      ((calls_vtAck k _ false).onTty (fun _ => Or.inr) fun _ => id)

theorem calls_seatVtRelease : Calls Syscall.KeepsModes s (seatVtRelease k s).2 := by
  have hvt := (calls_seatUpdateVt k s).keepsModes
  have hack : ∀ s', Calls Syscall.KeepsModes s' (vtAck k s' true).2 := fun s' =>
    (calls_vtAck k s' true).keepsModes
  unfold seatVtRelease
  split_ifs
  · exact Calls.refl s
  · dsimp only
    split
    · exact hvt.trans (hack _)
    · split_ifs
      · exact hvt.trans (hack _)
      · exact (hvt.trans (calls_seatDropClientDrmMaster k _ _).keepsModes).trans (hack _)
      · exact hvt.trans (hack _)

theorem calls_seatGetActiveVt :
    Calls (Syscall.OnTty (· = 0) fun _ => False) s (seatGetActiveVt k s).2 := by
  unfold seatGetActiveVt
  split_ifs
  · exact (Calls.refl s).setErrno _
  · exact calls_seatUpdateVt k s

theorem calls_seatFindAvailableVt :
    Calls (Syscall.OnTty (· = 0) fun _ => False) s (seatFindAvailableVt k s).2 := by
  unfold seatFindAvailableVt
  split_ifs
  · exact (Calls.refl s).setErrno _
  · exact calls_findAvailableVt k s

theorem calls_seatSwitchVt (vt : Int) :
    Calls (Syscall.OnTty
      (fun vt => vt = 0 ∨ (seatUpdateVt k s).1 = true ∧ vt = (seatUpdateVt k s).2.seat.curVt)
      fun _ => False) s (seatSwitchVt k s vt).2 := by
  have hvt : Calls (Syscall.OnTty
      (fun vt => vt = 0 ∨ (seatUpdateVt k s).1 = true ∧ vt = (seatUpdateVt k s).2.seat.curVt)
      fun _ => False) s (seatUpdateVt k s).2 :=
    (calls_seatUpdateVt k s).onTty (fun _ => Or.inl) fun _ => id
  unfold seatSwitchVt
  dsimp only
  split_ifs with h1 h2 h3
  · exact (Calls.refl s).setErrno _
  · exact (Calls.refl s).setErrno _
  · exact hvt
  · exact hvt
  · exact hvt.setErrno _
  · exact hvt.trans ((calls_seatRequestVt k _ vt).onTty
      (fun _ h => Or.inr ⟨by simpa using h3, h⟩) fun _ => id)

theorem calls_groupVtChoice (requestedVt : Int) :
    Calls (Syscall.OnTty (· = 0) fun _ => False) s (groupVtChoice k s requestedVt).2 := by
  unfold groupVtChoice
  split_ifs
  · exact calls_findAvailableVt k s
  · exact Calls.refl s

theorem calls_seatCreateGroupVt (owner : ClientId) (requestedVt : Int) :
    Calls (Syscall.OnTty
      (fun vt => vt = 0 ∨ vt = (groupVtChoice k s requestedVt).1 ∧ vt ≠ -1)
      fun vt => vt = (groupVtChoice k s requestedVt).1 ∧ vt ≠ -1) s
      (seatCreateGroupVt k s owner requestedVt).2 := by
  have hchoice : Calls (Syscall.OnTty
      (fun vt => vt = 0 ∨ vt = (groupVtChoice k s requestedVt).1 ∧ vt ≠ -1)
      fun vt => vt = (groupVtChoice k s requestedVt).1 ∧ vt ≠ -1) s
      (groupVtChoice k s requestedVt).2 :=
    (calls_groupVtChoice k s requestedVt).onTty (fun _ => Or.inl) fun _ => False.elim
  unfold seatCreateGroupVt
  dsimp only
  generalize groupVtChoice k s requestedVt = q at hchoice ⊢
  have hopen : q.1 ≠ -1 → Calls (Syscall.OnTty (fun vt => vt = 0 ∨ vt = q.1 ∧ vt ≠ -1)
      fun vt => vt = q.1 ∧ vt ≠ -1) s (vtOpen k (q.2.sys k .alloc).2 q.1).2 := by
    intro hne
    have hvt : ∀ vt, vt = q.1 → vt = q.1 ∧ vt ≠ -1 := by
      rintro vt rfl
      exact ⟨rfl, hne⟩
    exact (hchoice.sys k (by trivial)).trans
      ((calls_vtConfigure k _ q.1 true).onTty (fun vt h => Or.inr (hvt vt h)) hvt)
  split_ifs with h1 h2 hne
  · exact (Calls.refl s).setErrno _
  · exact (Calls.refl s).setErrno _
  · exact hchoice
  · exact hchoice.setErrno _
  · exact hchoice.sys k (by trivial)
  · exact (hopen hne).setSeat _
  · exact hopen hne

theorem calls_seatDestroyGroupVt (vt : Int) :
    Calls (Syscall.OnTty (· = vt) (· = vt)) s (seatDestroyGroupVt k s vt).2 := by
  unfold seatDestroyGroupVt
  cases hfind : seatFindGroupVt s.seat vt with
  | none => exact (Calls.refl s).setErrno _
  | some g =>
      obtain rfl : g.vt = vt := by simpa using List.find?_some hfind
      dsimp only
      split_ifs
      · exact ((Calls.refl s).setSeat _).trans (calls_vtConfigure k _ g.vt false)
      · exact (Calls.refl s).setSeat _

end

/-! ## New connections -/

/-- The record `control_handle_connection` allocates, in its list. -/
def controlCreate (s : Server) (pid : Int) : Server :=
  { (s.setControl s.nextControlId ⟨Connection.zero, EVENT_READABLE, pid⟩) with
    controlClients := s.nextControlId :: s.controlClients, nextControlId := s.nextControlId + 1 }

section

variable {k : Kernel} {s s' : Server}

/-- Some of the calls before a new client is allocated have been made. -/
inductive Tried (k : Kernel) (s : Server) : Server → Prop where
  | refl : Tried k s s
  | call {s' : Server} (h : Tried k s s') (c : Syscall) (hc : c ∈ [.prepareSocket, .getPeer, .alloc]) :
      Tried k s (s'.call k c).2

theorem Tried.calls {Q : Syscall → Prop} (h : Tried k s s') (hQ : ∀ call, call.OffTty → Q call) :
    Calls Q s s' := by
  induction h with
  | refl => exact .refl s
  | call _ c hc ih => exact ih.call k (hQ c (by fin_cases hc <;> trivial))

/-- A function that accepts connections makes its calls, allocates the client and has it watched;
if that fails, the client is dropped again. -/
theorem Tried.cases {motive : Server → Prop} {f : Server → Server}
    {g : Server → Server → Server}
    (refused : ∀ s₁, Tried k s s₁ → motive s₁)
    (added : ∀ s₁, Tried k s s₁ → motive ((f s₁).call k .pollerAddFd).2)
    (dropped : ∀ s₁, Tried k s s₁ → motive (g s₁ ((f s₁).call k .pollerAddFd).2)) :
    let p := s.call k .prepareSocket
    let q := p.2.call k .getPeer
    let a := q.2.call k .alloc
    let e := (f a.2).call k .pollerAddFd
    motive (if p.1 = false then p.2 else if q.1 = false then q.2 else if a.1 = false then a.2
      else if e.1 = false then g a.2 e.2 else e.2) := by
  intro p q a e
  have hp : Tried k s p.2 := Tried.refl.call _ (by simp)
  have hq : Tried k s q.2 := hp.call _ (by simp)
  have ha : Tried k s a.2 := hq.call _ (by simp)
  split_ifs
  · exact refused _ hp
  · exact refused _ hq
  · exact refused _ ha
  · exact dropped _ ha
  · exact added _ ha

theorem serverAddClient_cases {motive : Server → Prop} (pid : Int)
    (refused : ∀ s₁, Tried k s s₁ → motive s₁)
    (added : ∀ s₁, Tried k s s₁ → motive ((clientCreate s₁ pid).call k .pollerAddFd).2)
    (dropped : ∀ s₁, Tried k s s₁ →
      motive (clientDestroy k ((clientCreate s₁ pid).call k .pollerAddFd).2 s₁.nextClientId)) :
    motive (serverAddClient k s pid) :=
  Tried.cases (f := (clientCreate · pid)) (g := fun s₁ e => clientDestroy k e s₁.nextClientId)
    refused added dropped

theorem controlAddClient_cases {motive : Server → Prop} (pid : Int)
    (refused : ∀ s₁, Tried k s s₁ → motive s₁)
    (added : ∀ s₁, Tried k s s₁ → motive ((controlCreate s₁ pid).call k .pollerAddFd).2)
    (dropped : ∀ s₁, Tried k s s₁ →
      motive (controlClientDestroy ((controlCreate s₁ pid).call k .pollerAddFd).2 s₁.nextControlId)) :
    motive (controlAddClient k s pid) :=
  Tried.cases (f := (controlCreate · pid)) (g := fun s₁ e => controlClientDestroy e s₁.nextControlId)
    refused added dropped

/-- The new client is not on the seat. -/
theorem seat_clientCreate (k : Kernel) (s : Server) (pid : Int) :
    (((clientCreate s pid).call k .pollerAddFd).2.clients s.nextClientId).seat = false := by
  have hsame : ((clientCreate s pid).call k .pollerAddFd).2.clients = (clientCreate s pid).clients := by
    simp only [Server.call, Server.sys]
    split_ifs <;> rfl
  rw [hsame]
  simp [clientCreate, Server.setClient, clientNew]

end

end DdeSeatd
