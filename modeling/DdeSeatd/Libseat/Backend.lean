import DdeSeatd.Connection
import DdeSeatd.Protocol

set_option autoImplicit false

/-! # The library's connection to the daemon (`libseat/backend/seatd.c`)

The part of the seatd backend that runs without giving control to anyone: putting a request
on the connection, taking frames off it, and queueing the seat events among them. The
functions are computations over the backend that may fail with an `errno`, `Api`; the name of
a definition is the source's. What the kernel answers during one activation of the library is
an argument, `Answers`.

The last four fields of a backend are not in the source: they record what went out, what came
in byte by byte, the seat events taken off the connection, and the events the listener was
called with. A queued event carries its number among the received ones, which stands for the
identity of the list node the source allocates for it. The frames are the part of the C stack
that matters: `execute_events` runs the application's callbacks, which may call it again.
-/

namespace DdeSeatd.Libseat

/-! ## The backend -/

/-- The two opcodes of a `pending_event`. -/
inductive SeatEvent where
  | disableSeat
  | enableSeat
  deriving DecidableEq, Repr

/-- `pending_event`. The number is that of the event among all that were received. -/
structure PendingEvent where
  opcode : SeatEvent
  number : Nat
  deriving DecidableEq, Repr

/-- What an entry point does once `execute_events` has returned. -/
inductive Cont where
  | predispatch (packets : Nat) (timeout : Int)
  | postdispatch (predispatch packets : Nat)
  | openSeat
  | closeSeat (res : Int)
  deriving DecidableEq, Repr

/-- A call of `execute_events` during a callback: the events of the detached list that are
still to be executed, the number executed, and what its caller does next. -/
structure Frame where
  list : List PendingEvent
  executed : Nat
  cont : Cont
  deriving DecidableEq, Repr

structure Backend where
  connection : Connection
  /-- `pending_events`, the node after the head first. -/
  pendingEvents : List PendingEvent
  awaitingPong : Bool
  error : Bool
  seatName : CString
  /-- The calls of `execute_events` in progress, the innermost first. -/
  frames : List Frame
  /-- The messages handed to the kernel. -/
  sent : List Segment
  /-- The bytes `connection_read` has stored, from the first one on. -/
  input : List UInt8
  /-- The seat events taken off the connection. -/
  received : List SeatEvent
  /-- The events the listener was called with. -/
  callbacks : List PendingEvent

/-- The backend `_open_seat` allocates. -/
def Backend.zero : Backend where
  connection := Connection.zero
  pendingEvents := []
  awaitingPong := false
  error := false
  seatName := []
  frames := []
  sent := []
  input := []
  received := []
  callbacks := []

/-- A computation of the backend: it fails with an `errno`, or returns. -/
abbrev Api := ExceptT Int (StateM Backend)

/-- The answer of `poll` on the connection. -/
inductive PollResult where
  | fail (errno : Nat)
  | ready (hangup readable : Bool)
  deriving DecidableEq, Repr

/-- The kernel during one activation of the library: the answers to the `sendmsg` calls of
its `i`-th put or flush, to its `poll`, to the `recvmsg` calls of its read, and whether there
is memory for the `n`-th event. -/
structure Answers where
  sends : Nat → List SendResult
  poll : PollResult
  recv : List RecvResult
  calloc : Nat → Bool

def cleanup (b : Backend) : Backend :=
  { b with connection := (connectionCloseFds b.connection).2, pendingEvents := [] }

def setError : Api Unit :=
  modify fun b => if b.error then b else cleanup { b with error := true }

/-! ## Bytes in and out -/

/-- `conn_put` and `conn_flush` differ in what they call. -/
def connSend (f : Connection → SendOut) : Api Unit := do
  let o := f (← get).connection
  modify fun b => { b with connection := o.conn, sent := b.sent ++ o.sent }
  match o.ret with
  | .error e =>
      setError
      throw (e : Int)
  | .ok _ => pure ()

def connPut (data : List UInt8) (results : List SendResult) : Api Unit :=
  connSend (connectionPut · data results)

def connFlush (results : List SendResult) : Api Unit := connSend (connectionFlush · results)

def connGet (count : Nat) : Api (List UInt8) := do
  match connectionGet (← get).connection count with
  | (.error _, _) =>
      setError
      throw (EBADMSG : Int)
  | (.ok data, conn) =>
      modify fun b => { b with connection := conn }
      pure data

def connGetFd : Api Int := do
  match connectionGetFd (← get).connection with
  | (.error _, _) =>
      setError
      throw (EBADMSG : Int)
  | (.ok fd, conn) =>
      modify fun b => { b with connection := conn }
      pure fd

/-- The backend after `connection_read`. -/
def Backend.read (b : Backend) (results : List RecvResult) : Backend :=
  let conn := (connectionRead b.connection results).2.1
  { b with connection := conn, input := b.input ++ conn.inp.toList.drop b.connection.inp.size }

def connRead (a : Answers) : Api (Except Nat Nat) := do
  let b ← get
  set (b.read a.recv)
  pure (connectionRead b.connection a.recv).1

/-! ## Frames -/

/-- `sizeof (struct proto_header)`. -/
def HEADER_SIZE : Nat := 4

def headerOpcode (header : List UInt8) : Nat := bytesUint16 header

def headerSize (header : List UInt8) : Nat := bytesUint16 (header.drop 2)

def SERVER_PONG : Nat := ServerMsg.opcode .pong
def SERVER_DISABLE_SEAT : Nat := ServerMsg.opcode .disableSeat
def SERVER_ENABLE_SEAT : Nat := ServerMsg.opcode .enableSeat
def SERVER_ERROR : Nat := ServerMsg.opcode (.error 0)

/-- `sizeof (struct proto_server_error)`. -/
def SERVER_ERROR_SIZE : Nat := 4

/-- The size of the payload of the response that was asked for. -/
def readHeader (expectedOpcode expectedSize : Nat) (variableSize : Bool) : Api Nat := do
  let header ← connGet HEADER_SIZE
  let size := headerSize header
  if headerOpcode header ≠ expectedOpcode then
    if headerOpcode header ≠ SERVER_ERROR ∨ size ≠ SERVER_ERROR_SIZE then
      setError
      throw (EBADMSG : Int)
    else
      let msg ← connGet SERVER_ERROR_SIZE
      throw (bytesInt msg)
  else if (!variableSize ∧ size ≠ expectedSize) ∨ (variableSize ∧ size < expectedSize) then
    setError
    throw (EBADMSG : Int)
  else pure size

/-- The event of an opcode that `read_and_queue` queues. -/
def seatEvent (opcode : Nat) : Option SeatEvent :=
  if opcode = SERVER_DISABLE_SEAT then some .disableSeat
  else if opcode = SERVER_ENABLE_SEAT then some .enableSeat
  else none

def queueEvent (a : Answers) (opcode : SeatEvent) : Api Unit := do
  let b ← get
  if a.calloc b.received.length then
    set { b with
      pendingEvents := ⟨opcode, b.received.length⟩ :: b.pendingEvents
      received := b.received ++ [opcode] }
  else throw (ENOMEM : Int)

/-- The loop of `read_and_queue`. `wanted` says whether the caller passed a pointer for an
opcode. The result is the number of packets and the opcode stored there, `0` for none. The
first argument bounds the number of turns. -/
def readAndQueueLoop (a : Answers) (wanted : Bool) : Nat → Nat → Api (Nat × Nat)
  | 0, packets => pure (packets, 0)
  | turns + 1, packets => do
      match connectionGet (← get).connection HEADER_SIZE with
      | (.error _, _) => pure (packets, 0)
      | (.ok header, conn) =>
          modify fun b => { b with connection := conn }
          if headerOpcode header = SERVER_PONG then
            modify fun b => { b with awaitingPong := false }
            readAndQueueLoop a wanted turns (packets + 1)
          else
            match seatEvent (headerOpcode header) with
            | some opcode =>
                try queueEvent a opcode
                catch e =>
                  setError
                  throw e
                readAndQueueLoop a wanted turns (packets + 1)
            | none =>
                if wanted then
                  modify fun b => { b with connection := connectionRestore b.connection HEADER_SIZE }
                  let complete := connectionPending conn ≥ headerSize header
                  pure (packets + 1, if complete then headerOpcode header else 0)
                else
                  setError
                  modify fun b => { b with connection := connectionRestore b.connection HEADER_SIZE }
                  throw (EBADMSG : Int)

def readAndQueue (a : Answers) (wanted : Bool) : Api (Nat × Nat) := do
  -- every turn but the last takes a header, so one turn more than there are bytes is enough
  readAndQueueLoop a wanted (connectionPending (← get).connection + 1) 0

def pollConnection (a : Answers) : Api Nat := do
  match a.poll with
  | .fail e => if e = EAGAIN ∨ e = EINTR then pure 0 else throw (e : Int)
  | .ready hangup readable =>
      if hangup then
        setError
        throw (EPIPE : Int)
      else if readable then
        match ← connRead a with
        | .ok len =>
            if len = 0 then
              setError
              throw (Int.ofNat EIO)
            else pure len
        | .error e =>
            if e ≠ EAGAIN then
              setError
              throw (e : Int)
            else throw (e : Int)
      else pure 0

/-! ## Requests -/

/-- The puts of a request, one after the other. -/
def connPutAll (a : Answers) : Nat → List (List UInt8) → Api Unit
  | _, [] => pure ()
  | i, data :: rest => do
      connPut data (a.sends i)
      connPutAll a (i + 1) rest

/-- Put a request and flush: what precedes the loop of `read_until_response`. A request is at
most three puts. -/
def sendRequest (a : Answers) (r : Request) : Api Unit := do
  connPutAll a 0 r.parts
  connFlush (a.sends 3)

def sendPing (a : Answers) : Api Unit := do
  connPutAll a 4 (Request.parts .ping)
  connFlush (a.sends 5)

def checkPendingEvents (a : Answers) : Api Unit := do
  let _ ← readAndQueue a false
  let b ← get
  if b.pendingEvents = [] then pure ()
  else if b.awaitingPong then pure ()
  else
    sendPing a
    modify fun b => { b with awaitingPong := true }

/-- What a request gives the caller: the value returned and the fd stored. -/
structure Reply where
  value : Int
  fd : Option Int
  deriving DecidableEq, Repr

/-- The response to `OPEN_SEAT`. The name is stored with a NUL; old daemons leave it out. -/
def seatOpened : Api Unit := do
  let size ← readHeader (ServerMsg.opcode (.seatOpened [])) 2 true
  let len := bytesUint16 (← connGet 2)
  if len ≠ size - 2 then throw (EBADMSG : Int)
  else if len > MAX_SEAT_LEN then throw (EBADMSG : Int)
  else
    let data ← connGet len
    let stored :=
      if data = [] ∨ (len < MAX_SEAT_LEN ∧ data.getLast? ≠ some 0) then data ++ [0] else data
    let name := stored.takeWhile (· ≠ 0)
    if name.length ≠ stored.length - 1 then throw (EBADMSG : Int)
    else modify fun b => { b with seatName := name }

/-- The response to a request that returns without running events. -/
def readResponse : Request → Api Reply
  | .openDevice _ => do
      let _ ← readHeader (ServerMsg.opcode (.deviceOpened 0)) 4 false
      let rmsg ← connGet 4
      let fd ← connGetFd
      pure ⟨bytesInt rmsg, some fd⟩
  | .closeDevice _ => do
      let _ ← readHeader (ServerMsg.opcode .deviceClosed) 0 false
      pure ⟨0, none⟩
  | .switchSession _ => do
      let _ ← readHeader (ServerMsg.opcode .sessionSwitched) 0 false
      pure ⟨0, none⟩
  | _ => do
      let _ ← readHeader (ServerMsg.opcode .seatDisabled) 0 false
      pure ⟨0, none⟩

/-! ## Running computations -/

/-- The backend after `set_error`. -/
def Backend.failed (b : Backend) : Backend :=
  if b.error then b else cleanup { b with error := true }

theorem failed_error (b : Backend) : b.failed.error = true := by
  unfold Backend.failed
  split_ifs with h
  · exact h
  · rfl

theorem run_bind {α β : Type} (x : Api α) (f : α → Api β) (b : Backend) :
    (x >>= f).run.run b = match x.run.run b with
      | (.ok a, b') => (f a).run.run b'
      | (.error e, b') => (.error e, b') := by
  rw [ExceptT.run_bind, StateT.run_bind]
  show (fun p : Except Int α × Backend => _) (x.run.run b) = _
  rcases x.run.run b with ⟨_ | _, _⟩ <;> rfl

theorem run_connGet {b : Backend} {count : Nat} (h : count ≤ b.connection.inp.size) :
    (connGet count).run.run b = (.ok (b.connection.inp.toList.take count),
      { b with connection := { b.connection with inp := b.connection.inp.skip count } }) := by
  have hget := connectionGet_ok b.connection h
  unfold connGet
  rw [run_bind]
  show (match connectionGet b.connection count with
    | (.error _, _) => _
    | (.ok data, conn) => _ : Api (List UInt8)).run.run b = _
  rw [hget]
  rfl

theorem run_connGetFd {b : Backend} {fd : Int} {conn : Connection}
    (h : connectionGetFd b.connection = (.ok fd, conn)) :
    connGetFd.run.run b = (.ok fd, { b with connection := conn }) := by
  unfold connGetFd
  rw [run_bind]
  show (match connectionGetFd b.connection with
    | (.error _, _) => _
    | (.ok fd, conn) => _ : Api Int).run.run b = _
  rw [h]
  rfl

end DdeSeatd.Libseat
