import DdeSeatd.Device

set_option autoImplicit false

/-! # Sending (`seatd/client.c`, `seatd/control.c`)

`connection_put` and `connection_flush` on the connection of a seat client or of a control
client, and the functions that send one message. A message is put piece by piece; the first
put that fails ends it, and what was put before stays in the ring.
-/

namespace DdeSeatd

/-! ## Connections of the daemon -/

namespace Server

def connection (s : Server) : Peer → Connection
  | .client c => (s.clients c).connection
  | .control i => (s.controls i).connection

def setConnection (s : Server) (p : Peer) (conn : Connection) : Server :=
  match p with
  | .client c => s.setClient c { s.clients c with connection := conn }
  | .control i => s.setControl i { s.controls i with connection := conn }

/-- `event_source_fd_update`. -/
def setMask (s : Server) (p : Peer) (mask : UInt32) : Server :=
  match p with
  | .client c => s.setClient c { s.clients c with mask := mask }
  | .control i => s.setControl i { s.controls i with mask := mask }

/-- Store what a call on a connection did. -/
def finishIo (s : Server) (p : Peer) (o : SendOut) : Bool × Server :=
  let s := s.setConnection p o.conn
  match o.ret with
  | .ok _ => (true, s.record (.io p none o.sent o.closed))
  | .error e => (false, (s.record (.io p (some e) o.sent o.closed)).setErrno e)

def put (k : Kernel) (s : Server) (p : Peer) (data : List UInt8) : Bool × Server :=
  s.finishIo p (connectionPut (s.connection p) data (k.sendmsg s.trace p))

def flush (k : Kernel) (s : Server) (p : Peer) : Bool × Server :=
  s.finishIo p (connectionFlush (s.connection p) (k.sendmsg s.trace p))

/-- Puts joined by `||`: the first failure ends them. -/
def putAll (k : Kernel) (p : Peer) : Server → List (List UInt8) → Bool × Server
  | s, [] => (true, s)
  | s, part :: parts =>
      let r := s.put k p part
      if r.1 then putAll k p r.2 parts else r

end Server

/-! ## Seat clients -/

def clientPutMsg (k : Kernel) (s : Server) (c : ClientId) (m : ServerMsg) : Bool × Server :=
  let r := Server.putAll k (.client c) s m.parts
  (r.1, r.2.record (.frame c m r.1))

def clientFlush (k : Kernel) (s : Server) (c : ClientId) : Bool × Server :=
  let r := s.flush k (.client c)
  if r.1 then r
  else if r.2.errno = EAGAIN then
    (true, r.2.setMask (.client c) (EVENT_READABLE ||| EVENT_WRITABLE))
  else r

def clientSendError (k : Kernel) (s : Server) (c : ClientId) (code : Nat) : Bool × Server :=
  clientPutMsg k s c (.error code)

/-- `client_send_disable_seat` and `client_send_enable_seat`: put the frame, then flush. A
flush that cannot send everything now is a failure here, but the frame stays queued. -/
def clientSendEvent (k : Kernel) (s : Server) (c : ClientId) (m : ServerMsg) : Bool × Server :=
  let r := clientPutMsg k s c m
  if r.1 then
    let f := r.2.flush k (.client c)
    if f.1 then f else (false, f.2.record (.unflushed c m))
  else r

def clientSendDisableSeat (k : Kernel) (s : Server) (c : ClientId) : Bool × Server :=
  clientSendEvent k s c .disableSeat

def clientSendEnableSeat (k : Kernel) (s : Server) (c : ClientId) : Bool × Server :=
  clientSendEvent k s c .enableSeat

/-! ## Control clients -/

/-- `control_client_destroy`. -/
def controlClientDestroy (s : Server) (i : ControlId) : Server :=
  let closed := connectionCloseFds (s.controls i).connection
  let s := { s with controlClients := s.controlClients.erase i }
  (s.setConnection (.control i) closed.2).record (.fdsClosed (.control i) closed.1)

def controlClientFlush (k : Kernel) (s : Server) (i : ControlId) : Bool × Server :=
  let r := s.flush k (.control i)
  if r.1 then (true, r.2.setMask (.control i) EVENT_READABLE)
  else if r.2.errno = EAGAIN then
    (true, r.2.setMask (.control i) (EVENT_READABLE ||| EVENT_WRITABLE))
  else r

/-- `control_send_message`, `control_send_ok` and `control_send_error`. -/
def controlSendMessage (k : Kernel) (s : Server) (i : ControlId) (m : ControlMsg) :
    Bool × Server :=
  let r := Server.putAll k (.control i) s m.parts
  let s := r.2.record (.controlFrame i m r.1)
  if r.1 then controlClientFlush k s i else (false, s)

/-- The loop of `control_broadcast_vt_change`. -/
def controlBroadcastTo (k : Kernel) (m : ControlMsg) : Server → List ControlId → Server
  | s, [] => s
  | s, i :: is =>
      let r := controlSendMessage k s i m
      controlBroadcastTo k m (if r.1 then r.2 else controlClientDestroy r.2 i) is

def controlBroadcastVtChange (k : Kernel) (s : Server) (oldVt newVt : Int) : Server :=
  controlBroadcastTo k (.vtChanged oldVt newVt) s s.controlClients

end DdeSeatd
