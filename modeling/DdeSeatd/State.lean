import DdeSeatd.Kernel

set_option autoImplicit false

/-! # The daemon's state (`include/seat.h`, `include/client.h`, `include/server.h`)

Pointers to clients are identifiers into a heap (`Server.clients`); `live` lists the clients
that have been created and not yet freed. The intrusive lists are Lean lists with the element
after the list head first, so that `linked_list_insert` on the head is `::`. The daemon has
one seat, `seat0`.

Left out: what is only logged (user ids, names of group VTs, owner descriptions), and the poller's
bookkeeping except for the event mask of each connection.
-/

namespace DdeSeatd

/-! ## Records -/

structure SeatDevice where
  deviceId : Int
  fd : Nat
  refCnt : Nat
  active : Bool
  path : CString
  type : SeatDeviceType
  deriving DecidableEq, Repr

inductive ClientState where
  | new
  | active
  | pendingDisable
  | disabled
  | closed
  deriving DecidableEq, Repr

def EVENT_READABLE : UInt32 := 0x1
def EVENT_WRITABLE : UInt32 := 0x4

/-- `seat` says whether `client->seat` is the seat or NULL; `mask` is the mask of the client's
event source. -/
structure Client where
  connection : Connection
  mask : UInt32
  pid : Int
  seat : Bool
  session : Int
  state : ClientState
  devices : List SeatDevice

structure GroupVt where
  owner : ClientId
  vt : Int
  deriving DecidableEq, Repr

structure Seat where
  clients : List ClientId
  activeClient : Option ClientId
  nextClient : Option ClientId
  vtBound : Bool
  curVt : Int
  pendingVtSwitch : Int
  groupVts : List GroupVt
  deriving DecidableEq, Repr

structure ControlClient where
  connection : Connection
  mask : UInt32
  pid : Int

structure Server where
  clients : ClientId → Client
  live : List ClientId
  idleClients : List ClientId
  seat : Seat
  controls : ControlId → ControlClient
  controlClients : List ControlId
  errno : Nat
  nextClientId : ClientId
  nextControlId : ControlId
  nextFd : Nat
  trace : List Event

/-! ## Access -/

namespace Server

def setClient (s : Server) (c : ClientId) (cl : Client) : Server :=
  { s with clients := Function.update s.clients c cl }

def setControl (s : Server) (i : ControlId) (cl : ControlClient) : Server :=
  { s with controls := Function.update s.controls i cl }

def setErrno (s : Server) (e : Nat) : Server := { s with errno := e }

def setState (s : Server) (c : ClientId) (st : ClientState) : Server :=
  s.setClient c { s.clients c with state := st }

def setDevices (s : Server) (c : ClientId) (ds : List SeatDevice) : Server :=
  s.setClient c { s.clients c with devices := ds }

def setSeat (s : Server) (seat : Seat) : Server := { s with seat := seat }

def record (s : Server) (e : Event) : Server := { s with trace := e :: s.trace }

/-- The next file descriptor has been given out. -/
def newFd (s : Server) : Server := { s with nextFd := s.nextFd + 1 }

/-- A system call: its result, and the state with `errno` set if it failed. -/
def sys (k : Kernel) (s : Server) (call : Syscall) : Int × Server :=
  let r := k.ret s.trace call
  let s := s.record (.sys call r)
  (r, if r < 0 then s.setErrno (-r).toNat else s)

/-- A system call of which only success matters. -/
def call (k : Kernel) (s : Server) (call : Syscall) : Bool × Server :=
  let r := s.sys k call
  (0 ≤ r.1, r.2)

end Server

/-! ## Start (`server_init`, `seat_create`, `client_create`) -/

/-- `seat_create`. -/
def seatCreate (vtBound : Bool) : Seat where
  clients := []
  activeClient := none
  nextClient := none
  vtBound := vtBound
  curVt := -1
  pendingVtSwitch := 0
  groupVts := []

/-- The record `client_create` allocates. -/
def clientNew (pid : Int) : Client where
  connection := Connection.zero
  mask := EVENT_READABLE
  pid := pid
  seat := false
  session := -1
  state := .new
  devices := []

/-- `server_init`, on a system where it succeeds; `vtBound` is what `SEATD_VTBOUND` says. -/
def serverInit (vtBound : Bool) : Server where
  clients := fun _ => clientNew 0
  live := []
  idleClients := []
  seat := seatCreate vtBound
  controls := fun _ => ⟨Connection.zero, EVENT_READABLE, 0⟩
  controlClients := []
  errno := 0
  nextClientId := 0
  nextControlId := 0
  nextFd := 0
  trace := []

end DdeSeatd
