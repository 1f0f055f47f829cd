import DdeSeatd.Seat
import DdeSeatd.Lib.Run

set_option autoImplicit false

/-! # The daemon (`seatd/client.c`, `seatd/control.c`, `seatd/server.c`)

The request handlers, the life of clients, and the daemon as a state machine: a step is one
thing the poller reports to the main loop. A handler returns `false` for -1, which makes its
caller destroy the client.
-/

namespace DdeSeatd

/-- The name of the one seat. -/
def SEAT0 : CString := ascii ['s', 'e', 'a', 't', '0']

/-! ## Seat clients -/

/-- `client_create`, with the memory it needs. -/
def clientCreate (s : Server) (pid : Int) : Server :=
  let c := s.nextClientId
  let s := s.setClient c (clientNew pid)
  { s with live := c :: s.live, idleClients := c :: s.idleClients, nextClientId := c + 1 }

def clientDestroy (k : Kernel) (s : Server) (c : ClientId) : Server :=
  let s := if (s.clients c).seat then seatRemoveClient k s c else s
  let closed := connectionCloseFds (s.clients c).connection
  let s := { s with idleClients := s.idleClients.erase c, live := s.live.erase c }
  (s.setConnection (.client c) closed.2).record (.fdsClosed (.client c) closed.1)

/-- `server_add_client`. -/
def serverAddClient (k : Kernel) (s : Server) (pid : Int) : Server :=
  let p := s.call k .prepareSocket
  if p.1 = false then p.2
  else
    let g := p.2.call k .getPeer
    if g.1 = false then g.2
    else
      let a := g.2.call k .alloc
      if a.1 = false then a.2
      else
        let c := a.2.nextClientId
        let e := (clientCreate a.2 pid).call k .pollerAddFd
        if e.1 = false then clientDestroy k e.2 c else e.2

def handleOpenSeat (k : Kernel) (s : Server) (c : ClientId) : Bool × Server :=
  let a := seatAddClient k s c
  if a.1 then
    let r := clientPutMsg k a.2 c (.seatOpened SEAT0)
    if r.1 then (true, (seatOpenClient k r.2 c).2) else r
  else a

def handleCloseSeat (k : Kernel) (s : Server) (c : ClientId) : Bool × Server :=
  if (s.clients c).seat = false then (false, s)
  else
    let s := seatRemoveClient k s c
    clientPutMsg k { s with idleClients := c :: s.idleClients } c .seatClosed

/-- The part of `handle_open_device` after `dup`: queue the fd, then the response. -/
def sendDevice (k : Kernel) (s : Server) (c : ClientId) (d : SeatDevice) : Bool × Server :=
  let dup := s.nextFd
  let s := s.newFd
  match connectionPutFd (s.clients c).connection dup with
  | .error e => (false, s.setErrno e)
  | .ok conn =>
      let s := (s.setConnection (.client c) conn).record (.fdQueued c d.fd dup d.type)
      clientPutMsg k s c (.deviceOpened d.deviceId)

def handleOpenDevice (k : Kernel) (s : Server) (c : ClientId) (path : CString) : Bool × Server :=
  if (s.clients c).seat = false then (false, s)
  else
    let o := seatOpenDevice k s c path
    match o.1.bind fun i => (o.2.clients c).devices[i]?.map fun d => (i, d) with
    | none => clientSendError k o.2 c o.2.errno
    | some (i, d) =>
        let r := o.2.call k (.dup d.fd)
        if r.1 then sendDevice k r.2 c d
        else
          let s := seatCloseDevice k r.2 c i
          clientSendError k s c s.errno

def handleCloseDevice (k : Kernel) (s : Server) (c : ClientId) (deviceId : Int) :
    Bool × Server :=
  if (s.clients c).seat = false then (false, s)
  else
    let f := seatFindDevice s c deviceId
    match f.1 with
    | none => clientSendError k f.2 c EBADF
    | some i => clientPutMsg k (seatCloseDevice k f.2 c i) c .deviceClosed

def handleSwitchSession (k : Kernel) (s : Server) (c : ClientId) (session : Int) :
    Bool × Server :=
  if (s.clients c).seat = false then (false, s)
  else
    let r := seatSetNextSession k s c session
    if r.1 then clientPutMsg k r.2 c .sessionSwitched else clientSendError k r.2 c r.2.errno

def handleDisableSeat (k : Kernel) (s : Server) (c : ClientId) : Bool × Server :=
  if (s.clients c).seat = false then (false, s)
  else
    let r := seatAckDisableClient k s c
    if r.1 then clientPutMsg k r.2 c .seatDisabled else clientSendError k r.2 c r.2.errno

def handlePing (k : Kernel) (s : Server) (c : ClientId) : Bool × Server :=
  clientPutMsg k s c .pong

def handleRequest (k : Kernel) (s : Server) (c : ClientId) : Request → Bool × Server
  | .openSeat => handleOpenSeat k s c
  | .closeSeat => handleCloseSeat k s c
  | .openDevice path => handleOpenDevice k s c path
  | .closeDevice id => handleCloseDevice k s c id
  | .switchSession session => handleSwitchSession k s c session
  | .disableSeat => handleDisableSeat k s c
  | .ping => handlePing k s c

/-- `client_handle_opcode` on a decoded request, and what `client_handle_connection` does with
its result. -/
def clientHandleRequest (k : Kernel) (s : Server) (c : ClientId) (r : Request) : Server :=
  let h := handleRequest k s c r
  if h.1 then
    let f := clientFlush k h.2 c
    if f.1 then f.2 else clientDestroy k f.2 c
  else clientDestroy k h.2 c

/-- The `EVENT_WRITABLE` part of `client_handle_connection`. -/
def clientHandleWritable (k : Kernel) (s : Server) (c : ClientId) : Server :=
  let f := s.flush k (.client c)
  if f.1 then f.2.setMask (.client c) EVENT_READABLE
  else if f.2.errno ≠ EAGAIN then clientDestroy k f.2 c
  else f.2

/-! ## Control clients -/

/-- `control_handle_connection`, with the outcome of its checks of the peer. -/
def controlAddClient (k : Kernel) (s : Server) (pid : Int) : Server :=
  let p := s.call k .prepareSocket
  if p.1 = false then p.2
  else
    let g := p.2.call k .getPeer
    if g.1 = false then g.2
    else
      let a := g.2.call k .alloc
      if a.1 = false then a.2
      else
        let i := a.2.nextControlId
        let s := a.2.setControl i ⟨Connection.zero, EVENT_READABLE, pid⟩
        let s := { s with controlClients := i :: s.controlClients, nextControlId := i + 1 }
        let e := s.call k .pollerAddFd
        if e.1 = false then controlClientDestroy e.2 i else e.2

def controlFindOwnerClient (s : Server) (ownerPid : Int) : Option ClientId :=
  s.seat.clients.find? fun c => (s.clients c).pid = ownerPid

/-- Reply with a VT number, or with `errno` if it is -1. -/
def controlReplyVt (k : Kernel) (i : ControlId) (m : Int → ControlMsg) (r : Int × Server) :
    Bool × Server :=
  if r.1 = -1 then controlSendMessage k r.2 i (.error r.2.errno)
  else controlSendMessage k r.2 i (m r.1)

def handleCreateGroupVt (k : Kernel) (s : Server) (i : ControlId) (ownerPid vt : Int) :
    Bool × Server :=
  match controlFindOwnerClient s ownerPid with
  | none => controlSendMessage k s i (.error ESRCH)
  | some owner =>
      if (s.clients owner).seat = false then controlSendMessage k s i (.error ESRCH)
      else
        controlReplyVt k i (fun vt => .groupVtCreated (s.clients owner).pid vt)
          (seatCreateGroupVt k s owner vt)

def handleDestroyGroupVt (k : Kernel) (s : Server) (i : ControlId) (vt : Int) : Bool × Server :=
  let r := seatDestroyGroupVt k s vt
  if r.1 then r else controlSendMessage k r.2 i (.error r.2.errno)

def handleGetActiveVt (k : Kernel) (s : Server) (i : ControlId) : Bool × Server :=
  controlReplyVt k i .activeVt (seatGetActiveVt k s)

def handleFindFreeVt (k : Kernel) (s : Server) (i : ControlId) : Bool × Server :=
  controlReplyVt k i .freeVt (seatFindAvailableVt k s)

def handleSwitchVt (k : Kernel) (s : Server) (i : ControlId) (vt : Int) : Bool × Server :=
  let r := seatSwitchVt k s vt
  controlSendMessage k r.2 i (if r.1 then .ok else .error r.2.errno)

def handleControlRequest (k : Kernel) (s : Server) (i : ControlId) :
    ControlRequest → Bool × Server
  | .createGroupVt ownerPid vt => handleCreateGroupVt k s i ownerPid vt
  | .destroyGroupVt vt => handleDestroyGroupVt k s i vt
  | .getActiveVt => handleGetActiveVt k s i
  | .findFreeVt => handleFindFreeVt k s i
  | .switchVt vt => handleSwitchVt k s i vt
  | .invalid => controlSendMessage k s i (.error EPROTO)

def controlHandleRequest (k : Kernel) (s : Server) (i : ControlId) (r : ControlRequest) :
    Server :=
  let h := handleControlRequest k s i r
  if h.1 then h.2 else controlClientDestroy h.2 i

/-- The `EVENT_WRITABLE` part of `control_client_handle_connection`. -/
def controlHandleWritable (k : Kernel) (s : Server) (i : ControlId) : Server :=
  let f := s.flush k (.control i)
  if f.1 then f.2.setMask (.control i) EVENT_READABLE
  else if f.2.errno ≠ EAGAIN then controlClientDestroy f.2 i
  else f.2

/-! ## The main loop -/

/-- One thing the poller reports. -/
inductive Step where
  | connect (pid : Int)
  | request (c : ClientId) (r : Request)
  | writable (c : ClientId)
  | disconnect (c : ClientId)
  | vtRelease
  | vtAcquire
  | vtEvent (oldVt newVt : Int)
  | controlConnect (pid : Int)
  | control (i : ControlId) (r : ControlRequest)
  | controlWritable (i : ControlId)
  | controlDisconnect (i : ControlId)
  deriving DecidableEq, Repr

/-- The client whose socket the poller reports, which has to be live. -/
def Step.client : Step → Option ClientId
  | .request c _ | .writable c | .disconnect c => some c
  | _ => none

def Step.controlClient : Step → Option ControlId
  | .control i _ | .controlWritable i | .controlDisconnect i => some i
  | _ => none

def handleStep (k : Kernel) (s : Server) : Step → Server
  | .connect pid => serverAddClient k s pid
  | .request c r => clientHandleRequest k s c r
  | .writable c => clientHandleWritable k s c
  | .disconnect c => clientDestroy k s c
  | .vtRelease => (seatVtRelease k s).2
  | .vtAcquire => (seatVtActivate k s).2
  | .vtEvent oldVt newVt => seatHandleVtEvent k s oldVt newVt
  | .controlConnect pid => controlAddClient k s pid
  | .control i r => controlHandleRequest k s i r
  | .controlWritable i => controlHandleWritable k s i
  | .controlDisconnect i => controlClientDestroy s i

/-- One step of the daemon; a socket that is gone reports nothing. -/
def step (k : Kernel) (s : Server) (st : Step) : Server :=
  if (∃ c ∈ st.client, c ∉ s.live) ∨ ∃ i ∈ st.controlClient, i ∉ s.controlClients then s
  else handleStep k s st

/-- The peer of a step that is made is there. -/
theorem here_of_made {s : Server} {st : Step}
    (h : ¬ ((∃ c ∈ st.client, c ∉ s.live) ∨ ∃ i ∈ st.controlClient, i ∉ s.controlClients)) :
    (∀ c, st.client = some c → c ∈ s.live)
      ∧ ∀ i, st.controlClient = some i → i ∈ s.controlClients :=
  ⟨fun c hc => not_not.mp fun hnot => h (.inl ⟨c, hc, hnot⟩),
    fun i hi => not_not.mp fun hnot => h (.inr ⟨i, hi, hnot⟩)⟩

/-- The state after a run of the daemon from its start. -/
def run (k : Kernel) (vtBound : Bool) (steps : List Step) : Server :=
  Run.run (step k) (serverInit vtBound) steps

end DdeSeatd
