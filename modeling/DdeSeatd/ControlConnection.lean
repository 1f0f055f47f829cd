import DdeSeatd.ClientConnection

set_option autoImplicit false

/-! # Reading control requests (`seatd/control.c`)

`control_client_handle_connection` and `control_client_handle_opcode`, from the bytes in the ring
to the calls of the handlers. A frame with an unknown opcode, or with a size that does not belong
to its opcode, is answered with EPROTO, and the connection is kept; its payload stays in the ring.
-/

namespace DdeSeatd

/-- `sizeof (struct control_header)`. -/
def CONTROL_HEADER_SIZE : Nat := 4

/-- `sizeof (struct control_create_group_vt_request)`: two `int32_t` and two names. -/
def CREATE_GROUP_VT_SIZE : Nat := 4 + 4 + 64 + 64

/-! ## Payloads

The result is the request, or `none` where a handler returns without doing anything because
`connection_get` failed. -/

/-- The cases of requests without a payload. -/
def controlBare (r : ControlRequest) (conn : Connection) (size : Nat) :
    Option ControlRequest × Connection :=
  (some (if size ≠ 0 then .invalid else r), conn)

/-- The cases of requests that have a payload of `need` bytes. -/
def controlPayload (need : Nat) (r : List UInt8 → ControlRequest) (conn : Connection) (size : Nat) :
    Option ControlRequest × Connection :=
  if size ≠ need then (some .invalid, conn)
  else
    match connectionGet conn need with
    | (.error _, conn) => (none, conn)
    | (.ok msg, conn) => (some (r msg), conn)

/-- The switch of `control_client_handle_opcode`, with the reads of the handlers. -/
def controlDecode (conn : Connection) (opcode size : Nat) : Option ControlRequest × Connection :=
  match opcode with
  | 1 => controlPayload CREATE_GROUP_VT_SIZE
      (fun msg => .createGroupVt (bytesInt msg) (bytesInt (msg.drop 4))) conn size
  | 2 => controlPayload 4 (fun msg => .destroyGroupVt (bytesInt msg)) conn size
  | 3 => controlBare .getActiveVt conn size
  | 4 => controlBare .findFreeVt conn size
  | 5 => controlPayload 4 (fun msg => .switchVt (bytesInt msg)) conn size
  | _ => (some .invalid, conn)

/-! ## Frames -/

/-- What reading did: the handler calls with their results, whether all went well, and the
state. -/
structure ControlHandled where
  calls : List (ControlRequest × Bool)
  ok : Bool
  server : Server

def controlClientHandleOpcode (k : Kernel) (s : Server) (i : ControlId) (opcode size : Nat) :
    ControlHandled :=
  let d := controlDecode (s.controls i).connection opcode size
  let s := s.setConnection (.control i) d.2
  match d.1 with
  | none => ⟨[], true, s⟩
  | some r =>
      let h := handleControlRequest k s i r
      ⟨[(r, h.1)], h.1, h.2⟩

/-- The loop of `control_client_handle_connection`. The first argument bounds the number of
turns. -/
def controlHandleFrames (k : Kernel) (i : ControlId) : Nat → Server → ControlHandled
  | 0, s => ⟨[], true, s⟩
  | turns + 1, s =>
      match connectionGet (s.controls i).connection CONTROL_HEADER_SIZE with
      | (.error e, _) => ⟨[], true, s.setErrno e⟩
      | (.ok header, conn) =>
          let opcode := bytesUint16 header
          let size := bytesUint16 (header.drop 2)
          if connectionPending conn < size then
            ⟨[], true, s.setConnection (.control i) (connectionRestore conn CONTROL_HEADER_SIZE)⟩
          else
            let h := controlClientHandleOpcode k (s.setConnection (.control i) conn) i opcode size
            if h.ok then
              let rest := controlHandleFrames k i turns h.server
              ⟨h.calls ++ rest.calls, rest.ok, rest.server⟩
            else h

/-- The `EVENT_READABLE` part of `control_client_handle_connection`. -/
def controlHandleReadable (k : Kernel) (s : Server) (i : ControlId) (results : List RecvResult) :
    ControlHandled :=
  let r := connectionRead (s.controls i).connection results
  let s := (s.setConnection (.control i) r.2.1).record (.fdsClosed (.control i) r.2.2)
  -- every turn of the loop but the last takes a header
  let turns := connectionPending r.2.1 + 1
  match r.1 with
  | .error e =>
      if e ≠ EAGAIN then ⟨[], false, s.setErrno e⟩
      else controlHandleFrames k i turns (s.setErrno e)
  | .ok len => if len = 0 then ⟨[], false, s⟩ else controlHandleFrames k i turns s

/-- The `EVENT_WRITABLE` part of `control_client_handle_connection`: whether handling goes on, and
the state. -/
def controlHandleFlush (k : Kernel) (s : Server) (i : ControlId) (mask : UInt32) : Bool × Server :=
  if mask &&& EVENT_WRITABLE = 0 then (true, s)
  else
    let f := s.flush k (.control i)
    if f.1 then (true, f.2.setMask (.control i) EVENT_READABLE)
    else (decide (f.2.errno = EAGAIN), f.2)

/-- `control_client_handle_connection`, with the events `mask` and the answers to the `recvmsg`
calls. A hangup is acted on after what is readable. -/
def controlClientHandleConnection (k : Kernel) (s : Server) (i : ControlId) (mask : UInt32)
    (results : List RecvResult) : ControlHandled :=
  let fail (h : ControlHandled) : ControlHandled :=
    ⟨h.calls, false, controlClientDestroy h.server i⟩
  if mask &&& EVENT_ERROR ≠ 0 then fail ⟨[], false, s⟩
  else
    let f := controlHandleFlush k s i mask
    if f.1 = false then fail ⟨[], false, f.2⟩
    else
      let h := if mask &&& EVENT_READABLE ≠ 0 then controlHandleReadable k f.2 i results
        else ⟨[], true, f.2⟩
      if h.ok = false ∨ mask &&& EVENT_HANGUP ≠ 0 then fail h else h

end DdeSeatd
