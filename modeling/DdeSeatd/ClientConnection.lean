import DdeSeatd.Server

set_option autoImplicit false

/-! # Reading requests (`seatd/client.c`)

`client_handle_connection` and `client_handle_opcode`, from the bytes in the ring to the calls
of the handlers. Besides the state, the functions return the handler calls they made, each with
the decoded request and whether it succeeded.
-/

namespace DdeSeatd

def EVENT_ERROR : UInt32 := 0x8
def EVENT_HANGUP : UInt32 := 0x10

/-- `sizeof (struct proto_header)`. -/
def PROTO_HEADER_SIZE : Nat := 4

/-! ## Payloads -/

/-- `strnlen` on a buffer. -/
def strnlen (bytes : List UInt8) : Nat := (bytes.takeWhile (· ≠ 0)).length

/-- The cases of messages without a payload. -/
def decodeBare (r : Request) (conn : Connection) (size : Nat) : Option Request × Connection :=
  (if size ≠ 0 then none else some r, conn)

/-- The cases of messages that are one `int`. -/
def decodeInt (r : Int → Request) (conn : Connection) (size : Nat) : Option Request × Connection :=
  if 4 ≠ size then (none, conn)
  else
    match connectionGet conn 4 with
    | (.error _, conn) => (none, conn)
    | (.ok msg, conn) => (some (r (bytesInt msg)), conn)

/-- The case `CLIENT_OPEN_DEVICE`. -/
def decodeOpenDevice (conn : Connection) (size : Nat) : Option Request × Connection :=
  if 2 > size then (none, conn)
  else
    match connectionGet conn 2 with
    | (.error _, conn) => (none, conn)
    | (.ok msg, conn) =>
        let pathLen := bytesUint16 msg
        if pathLen ≠ size - 2 then (none, conn)
        else if pathLen > MAX_PATH_LEN then (none, conn)
        else
          match connectionGet conn pathLen with
          | (.error _, conn) => (none, conn)
          | (.ok path, conn) =>
              if pathLen = 0 ∨ strnlen path ≠ pathLen - 1 then (none, conn)
              else (some (.openDevice (path.takeWhile (· ≠ 0))), conn)

/-- The switch of `client_handle_opcode` up to the call of the handler: the request, or `none`
for a protocol error. -/
def clientDecode (conn : Connection) (opcode size : Nat) : Option Request × Connection :=
  match opcode with
  | 1 => decodeBare .openSeat conn size
  | 2 => decodeBare .closeSeat conn size
  | 3 => decodeOpenDevice conn size
  | 4 => decodeInt .closeDevice conn size
  | 5 => decodeBare .disableSeat conn size
  | 6 => decodeInt .switchSession conn size
  | 7 => decodeBare .ping conn size
  | _ => (none, conn)

/-! ## Frames -/

/-- What reading did: the handler calls with their results, whether all went well, and the
state. -/
structure Handled where
  calls : List (Request × Bool)
  ok : Bool
  server : Server

def clientHandleOpcode (k : Kernel) (s : Server) (c : ClientId) (opcode size : Nat) : Handled :=
  let d := clientDecode (s.clients c).connection opcode size
  let s := s.setConnection (.client c) d.2
  match d.1 with
  | none => ⟨[], false, s⟩
  | some r =>
      let h := handleRequest k s c r
      if h.1 then
        let f := clientFlush k h.2 c
        ⟨[(r, f.1)], f.1, f.2⟩
      else ⟨[(r, false)], false, h.2⟩

/-- The loop of `client_handle_connection`. The first argument bounds the number of turns. -/
def clientHandleFrames (k : Kernel) (c : ClientId) : Nat → Server → Handled
  | 0, s => ⟨[], true, s⟩
  | turns + 1, s =>
      match connectionGet (s.clients c).connection PROTO_HEADER_SIZE with
      | (.error e, _) => ⟨[], true, s.setErrno e⟩
      | (.ok header, conn) =>
          let opcode := bytesUint16 header
          let size := bytesUint16 (header.drop 2)
          if connectionPending conn < size then
            ⟨[], true, s.setConnection (.client c) (connectionRestore conn PROTO_HEADER_SIZE)⟩
          else
            let h := clientHandleOpcode k (s.setConnection (.client c) conn) c opcode size
            if h.ok then
              let rest := clientHandleFrames k c turns h.server
              ⟨h.calls ++ rest.calls, rest.ok, rest.server⟩
            else h

/-- The `EVENT_READABLE` part of `client_handle_connection`. -/
def clientHandleReadable (k : Kernel) (s : Server) (c : ClientId) (results : List RecvResult) :
    Handled :=
  let r := connectionRead (s.clients c).connection results
  let s := (s.setConnection (.client c) r.2.1).record (.fdsClosed (.client c) r.2.2)
  -- every turn of the loop but the last takes a header
  let turns := connectionPending r.2.1 + 1
  match r.1 with
  | .error e =>
      if e ≠ EAGAIN then ⟨[], false, s.setErrno e⟩ else clientHandleFrames k c turns (s.setErrno e)
  | .ok len => if len = 0 then ⟨[], false, s⟩ else clientHandleFrames k c turns s

/-- `client_handle_connection`, with the events `mask` and the answers to the `recvmsg` calls. -/
def clientHandleConnection (k : Kernel) (s : Server) (c : ClientId) (mask : UInt32)
    (results : List RecvResult) : Handled :=
  let fail (h : Handled) : Handled := ⟨h.calls, false, clientDestroy k h.server c⟩
  if mask &&& EVENT_ERROR ≠ 0 then fail ⟨[], false, s⟩
  else if mask &&& EVENT_HANGUP ≠ 0 then fail ⟨[], false, s⟩
  else
    let f := if mask &&& EVENT_WRITABLE ≠ 0 then s.flush k (.client c) else (false, s)
    if mask &&& EVENT_WRITABLE ≠ 0 ∧ f.1 = false ∧ f.2.errno ≠ EAGAIN then fail ⟨[], false, f.2⟩
    else
      let s := if f.1 then f.2.setMask (.client c) EVENT_READABLE else f.2
      if mask &&& EVENT_READABLE ≠ 0 then
        let h := clientHandleReadable k s c results
        if h.ok then h else fail h
      else ⟨[], true, s⟩

end DdeSeatd
