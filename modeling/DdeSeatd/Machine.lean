import DdeSeatd.Server
import DdeSeatd.Lib.Labelled

set_option autoImplicit false

/-! # The seat machine

What the daemon does to clients, sessions and devices, as an abstract machine. Its state
(`View`) forgets connections, event masks, `errno` and control clients, and keeps of the trace
only the events seat clients depend on: the attempts to send ENABLE_SEAT and DISABLE_SEAT, the
device fds queued for a client, and the revocations.

A transition (`Act`) is a guard and an effect, one for each kind of change the source makes. The
outcome of a system call appears in a guard only as far as it matters, for instance `Down`: a
device that was to be deactivated is inactive afterwards, or a call for it failed.

`seat_remove_client` takes a client off the seat in several moves, between which it opens
another client; `leaving` is the client this is being done to.
-/

namespace DdeSeatd

/-! ## States -/

structure ClientView where
  seat : Bool
  session : Int
  state : ClientState
  devices : List SeatDevice

structure View where
  live : List ClientId
  idle : List ClientId
  nextId : ClientId
  leaving : Option ClientId
  seat : Seat
  client : ClientId → ClientView
  log : List Event

/-- Whether the message is one of the two events about the seat. -/
def ServerMsg.isSeatEvent : ServerMsg → Bool
  | .enableSeat | .disableSeat => true
  | _ => false

/-- Whether the system call takes input away from a file description. -/
def Syscall.revokes : Syscall → Bool
  | .evdevRevoke _ | .hidrawRevoke _ => true
  | _ => false

/-- The events the machine keeps. -/
def Event.notable : Event → Bool
  | .sys call _ => call.revokes
  | .frame _ m _ | .unflushed _ m => m.isSeatEvent
  | .fdQueued _ _ _ _ => true
  | _ => false

def Client.view (cl : Client) : ClientView := ⟨cl.seat, cl.session, cl.state, cl.devices⟩

/-- The machine state of a daemon that is removing the client `leaving`, if any. -/
def Server.view (s : Server) (leaving : Option ClientId) : View where
  live := s.live
  idle := s.idleClients
  nextId := s.nextClientId
  leaving := leaving
  seat := s.seat
  client := fun c => (s.clients c).view
  log := s.trace.filter Event.notable

namespace View

def set (v : View) (c : ClientId) (cl : ClientView) : View :=
  { v with client := Function.update v.client c cl }

def setState (v : View) (c : ClientId) (st : ClientState) : View :=
  v.set c { v.client c with state := st }

def setDevices (v : View) (c : ClientId) (ds : List SeatDevice) : View :=
  v.set c { v.client c with devices := ds }

def setSeat (v : View) (seat : Seat) : View := { v with seat := seat }

def push (v : View) (evs : List Event) : View := { v with log := evs ++ v.log }

/-- `client_owns_vt`. -/
def Owns (v : View) (c : ClientId) (vt : Int) : Prop :=
  (v.client c).session = vt
    ∨ (v.client c).seat = true ∧ ∃ g, seatFindGroupVt v.seat vt = some g ∧ g.owner = c

end View

/-! ## What the log says -/

/-- The seat events put on a client's connection, newest first. -/
def seatFrames (c : ClientId) (log : List Event) : List ServerMsg :=
  log.filterMap fun e =>
    match e with
    | .frame c' m true => if c' = c ∧ m.isSeatEvent then some m else none
    | _ => none

/-- The device fds queued for clients. -/
def queuedFds (log : List Event) : List (ClientId × Nat × SeatDeviceType) :=
  log.filterMap fun e =>
    match e with
    | .fdQueued c fd _ type => some (c, fd, type)
    | _ => none

/-- The file description was revoked. -/
def Revoked (log : List Event) (fd : Nat) : Prop :=
  ∃ r, 0 ≤ r ∧ (.sys (.evdevRevoke fd) r ∈ log ∨ .sys (.hidrawRevoke fd) r ∈ log)

/-! ## Devices -/

/-- A device that delivers input. -/
def SeatDevice.IsInput (d : SeatDevice) : Prop := d.type = .evdev ∨ d.type = .hidraw

/-- The device after `seat_activate_device`. -/
def SeatDevice.up (d : SeatDevice) : SeatDevice :=
  if d.type = .drm then { d with active := true } else d

/-- The system call by which access to the device is taken away. -/
def SeatDevice.releaseCall (d : SeatDevice) : Option Syscall :=
  match d.type with
  | .drm => some (.drmDropMaster d.fd)
  | .evdev => some (.evdevRevoke d.fd)
  | .hidraw => some (.hidrawRevoke d.fd)
  | .wscons => none

/-- The device after `seat_deactivate_device`, which recorded `evs`. -/
inductive Down (k : Kernel) (evs : List Event) (d : SeatDevice) : SeatDevice → Prop where
  | idle (h : d.active = false) : Down k evs d d
  | done (h : d.active = true) (hrev : d.IsInput → Revoked evs d.fd) :
      Down k evs d { d with active := false }
  | stuck (h : d.active = true) (call : Syscall) (hcall : d.releaseCall = some call)
      (hfail : ∃ tr, k.ret tr call < 0) : Down k evs d d

/-! ## Transitions -/

inductive Act where
  | create
  | join (c : ClientId) (session : Int)
  | opened (c : ClientId)
  | openFailed (c : ClientId) (ds : List SeatDevice)
  | disabled (c : ClientId) (ds : List SeatDevice) (next : Option ClientId)
  | acked (c : ClientId)
  | detach (c : ClientId)
  | vacate (c : ClientId)
  | retire (c : ClientId)
  | shelve (c : ClientId)
  | free (c : ClientId)
  | freeIdle (c : ClientId)
  | dropDrm (c : ClientId) (ds : List SeatDevice)
  | restoreDrm (c : ClientId) (state : ClientState)
  | addGroup (g : GroupVt)
  | destroyGroup (g : GroupVt)
  | removeGroup (g : GroupVt)
  | openDevice (c : ClientId) (d : SeatDevice)
  | adjust (c : ClientId) (ds : List SeatDevice)
  | closeDevice (c : ClientId) (i : Nat)
  | queueFd (c : ClientId) (d : SeatDevice)
  | setVt (vt : Int)
  | vtEvent (vt : Int)
  | setPending (vt : Int)

/-- The seat event a transition sends. -/
def Act.frame (a : Act) (evs : List Event) : Prop :=
  match a with
  | .opened c => ∀ o, seatFrames o evs = if o = c then [.enableSeat] else []
  | .openFailed c _ =>
      (∀ o, seatFrames o evs = [])
      ∨ .unflushed c .enableSeat ∈ evs ∧ ∀ o, seatFrames o evs = if o = c then [.enableSeat] else []
  | .disabled c _ _ =>
      (.frame c .disableSeat false ∈ evs ∧ ∀ o, seatFrames o evs = [])
      ∨ ∀ o, seatFrames o evs = if o = c then [.disableSeat] else []
  | _ => ∀ o, seatFrames o evs = []

/-- The fds a transition queues. -/
def Act.fds : Act → List (ClientId × Nat × SeatDeviceType)
  | .queueFd c d => [(c, d.fd, d.type)]
  | _ => []

/-- When a transition may happen, recording `evs`. -/
def Act.Guard (k : Kernel) (v : View) (evs : List Event) : Act → Prop
  | .create => v.leaving = none
  | .join c n =>
      v.leaving = none ∧ c ∈ v.idle ∧ (v.client c).session = -1 ∧ n ≠ -1
        ∧ if v.seat.vtBound then n = v.seat.curVt
          else 1 ≤ n ∧ ∀ o ∈ v.seat.clients, (v.client o).session ≠ n
  | .opened c =>
      c ∈ v.seat.clients ∧ ((v.client c).state = .new ∨ (v.client c).state = .disabled)
        ∧ v.seat.activeClient = none ∧ v.seat.nextClient = none
        ∧ (v.seat.vtBound → v.Owns c v.seat.curVt)
  | .openFailed c ds =>
      c ∈ v.seat.clients ∧ ((v.client c).state = .new ∨ (v.client c).state = .disabled)
        ∧ v.seat.activeClient = none ∧ v.seat.nextClient = none
        ∧ List.Forall₂ (Down k evs) ((v.client c).devices.map SeatDevice.up) ds
  | .disabled c ds next =>
      v.seat.activeClient = some c ∧ (v.client c).state = .active
        ∧ List.Forall₂ (Down k evs) (v.client c).devices ds
        ∧ (next = v.seat.nextClient
          ∨ v.seat.vtBound = false ∧ ∃ t ∈ v.seat.clients, t ≠ c ∧ next = some t)
  | .acked c => v.seat.activeClient = some c ∧ (v.client c).state = .pendingDisable
  | .detach c => v.leaving = none ∧ c ∈ v.seat.clients
  | .vacate c =>
      v.leaving = some c ∧ v.seat.activeClient = some c ∧ (v.client c).devices = []
  | .retire c =>
      v.leaving = some c ∧ v.seat.activeClient ≠ some c ∧ (v.client c).devices = []
        ∧ ∀ g ∈ v.seat.groupVts, g.owner ≠ c
  | .shelve c => v.leaving = some c ∧ (v.client c).state = .closed ∧ (v.client c).seat = false
  | .free c => v.leaving = some c ∧ (v.client c).state = .closed ∧ (v.client c).seat = false
  | .freeIdle c => v.leaving = none ∧ c ∈ v.idle
  | .dropDrm c ds =>
      v.seat.activeClient = some c ∧ (v.client c).state = .active
        ∧ List.Forall₂ (fun d d' => if d.type = .drm then Down k evs d d' else d' = d)
            (v.client c).devices ds
  | .restoreDrm c st =>
      v.seat.activeClient = some c ∧ (v.client c).state = st ∧ v.Owns c v.seat.curVt
  | .addGroup g =>
      v.seat.vtBound = true ∧ g.owner ∈ v.seat.clients ∧ g.vt ≠ (v.client g.owner).session
        ∧ ∀ g' ∈ v.seat.groupVts, g'.vt ≠ g.vt
  | .destroyGroup g => g ∈ v.seat.groupVts
  | .removeGroup g => g ∈ v.seat.groupVts ∧ v.leaving = some g.owner
  | .openDevice c d =>
      c ∈ v.seat.clients ∧ v.seat.activeClient = some c ∧ (v.client c).state = .active
        ∧ d.active = true
  | .adjust c ds =>
      (c ∈ v.seat.clients ∨ v.leaving = some c)
        ∧ List.Forall₂ (fun d d' => d' = { d with refCnt := d'.refCnt }) (v.client c).devices ds
  | .closeDevice c i =>
      (c ∈ v.seat.clients ∨ v.leaving = some c)
        ∧ ∃ d d', (v.client c).devices[i]? = some d ∧ Down k evs d d'
  | .queueFd c d =>
      v.seat.activeClient = some c ∧ (v.client c).state = .active ∧ d ∈ (v.client c).devices
  | .setVt n => 0 < n ∧ ∃ tr, k.ret tr .vtGetState = n
  | .vtEvent _ => True
  | .setPending _ => v.seat.vtBound = true

/-- What a transition changes, apart from the log. -/
def Act.effect (v : View) : Act → View
  | .create =>
      { v with live := v.nextId :: v.live, idle := v.nextId :: v.idle, nextId := v.nextId + 1,
               client := Function.update v.client v.nextId ⟨false, -1, .new, []⟩ }
  | .join c n =>
      { (v.set c { v.client c with session := n, seat := true }) with
        idle := v.idle.erase c, seat := { v.seat with clients := c :: v.seat.clients } }
  | .opened c =>
      (v.set c { v.client c with
        state := .active, devices := (v.client c).devices.map SeatDevice.up }).setSeat
        { v.seat with activeClient := some c }
  | .openFailed c ds => v.setDevices c ds
  | .disabled c ds next =>
      (v.set c { v.client c with state := .pendingDisable, devices := ds }).setSeat
        { v.seat with nextClient := next }
  | .acked c =>
      (v.setState c .disabled).setSeat { v.seat with activeClient := none, nextClient := none }
  | .detach c =>
      { v.setSeat { v.seat with
          clients := v.seat.clients.erase c,
          nextClient := if v.seat.nextClient = some c then none else v.seat.nextClient } with
        leaving := some c }
  | .vacate _ => v.setSeat { v.seat with activeClient := none, nextClient := none }
  | .retire c => v.set c { v.client c with state := .closed, seat := false }
  | .shelve c => { v with idle := c :: v.idle, leaving := none }
  | .free c => { v with live := v.live.erase c, leaving := none }
  | .freeIdle c => { v with live := v.live.erase c, idle := v.idle.erase c }
  | .dropDrm c ds => v.setDevices c ds
  | .restoreDrm c _ => v.setDevices c ((v.client c).devices.map SeatDevice.up)
  | .addGroup g => v.setSeat { v.seat with groupVts := g :: v.seat.groupVts }
  | .destroyGroup g => v.setSeat { v.seat with groupVts := v.seat.groupVts.erase g }
  | .removeGroup g => v.setSeat { v.seat with groupVts := v.seat.groupVts.erase g }
  | .openDevice c d => v.setDevices c (d :: (v.client c).devices)
  | .adjust c ds => v.setDevices c ds
  | .closeDevice c i => v.setDevices c ((v.client c).devices.eraseIdx i)
  | .queueFd _ _ => v
  | .setVt n => v.setSeat { v.seat with curVt := n }
  | .vtEvent n =>
      v.setSeat { v.seat with
        pendingVtSwitch := if 0 < v.seat.pendingVtSwitch then 0 else v.seat.pendingVtSwitch,
        curVt := n }
  | .setPending n => v.setSeat { v.seat with pendingVtSwitch := n }

/-- A transition of the seat machine. -/
def Act.Trans (k : Kernel) (a : Act) (v v' : View) : Prop :=
  ∃ evs, a.Guard k v evs ∧ a.frame evs ∧ queuedFds evs = a.fds ∧ v' = (a.effect v).push evs

end DdeSeatd
