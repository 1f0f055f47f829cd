import DdeSeatd.Basic

set_option autoImplicit false

/-! # Messages (`include/protocol.h`, `include/control.h`)

The messages of the two sockets, typed. A frame is a header of two `uint16_t`s, the opcode
and the size of what follows, and the payload. `parts` lists the pieces in which a frame is
handed to `connection_put`: the header first, then the payload, one put each.
-/

namespace DdeSeatd

def MAX_PATH_LEN : Nat := 256
def MAX_SEAT_LEN : Nat := 64
def MAX_SEAT_DEVICES : Nat := 128

/-- `proto_header` and `control_header`. -/
def headerBytes (opcode size : Nat) : List UInt8 := uint16Bytes opcode ++ uint16Bytes size

/-- The puts of a frame with the given payload pieces. -/
def frameParts (opcode : Nat) (payload : List (List UInt8)) : List (List UInt8) :=
  headerBytes opcode (payload.map List.length).sum :: payload

/-! ## The seat socket -/

/-- A request of a seat client, decoded. -/
inductive Request where
  | openSeat
  | closeSeat
  | openDevice (path : CString)
  | closeDevice (deviceId : Int)
  | switchSession (session : Int)
  | disableSeat
  | ping
  deriving DecidableEq, Repr

def Request.opcode : Request → Nat
  | .openSeat => 1
  | .closeSeat => 2
  | .openDevice _ => 3
  | .closeDevice _ => 4
  | .disableSeat => 5
  | .switchSession _ => 6
  | .ping => 7

def Request.payload : Request → List (List UInt8)
  | .openDevice path => [uint16Bytes (path.length + 1), path ++ [0]]
  | .closeDevice deviceId => [intBytes deviceId]
  | .switchSession session => [intBytes session]
  | _ => []

/-- The puts of a request, as the library makes them. -/
def Request.parts (r : Request) : List (List UInt8) := frameParts r.opcode r.payload

/-- `SERVER_EVENT`. -/
def serverEvent (opcode : Nat) : Nat := opcode + 2 ^ 15

/-- A response or an event sent to a seat client. -/
inductive ServerMsg where
  | seatOpened (seatName : CString)
  | seatClosed
  | deviceOpened (deviceId : Int)
  | deviceClosed
  | disableSeat
  | enableSeat
  | pong
  | sessionSwitched
  | seatDisabled
  | error (code : Int)
  deriving DecidableEq, Repr

def ServerMsg.opcode : ServerMsg → Nat
  | .seatOpened _ => serverEvent 1
  | .seatClosed => serverEvent 2
  | .deviceOpened _ => serverEvent 3
  | .deviceClosed => serverEvent 4
  | .disableSeat => serverEvent 5
  | .enableSeat => serverEvent 6
  | .pong => serverEvent 7
  | .sessionSwitched => serverEvent 8
  | .seatDisabled => serverEvent 9
  | .error _ => serverEvent 0x7FFF

def ServerMsg.payload : ServerMsg → List (List UInt8)
  | .seatOpened name => [uint16Bytes (name.length + 1), name ++ [0]]
  | .deviceOpened id => [intBytes id]
  | .error code => [intBytes code]
  | _ => []

def ServerMsg.parts (m : ServerMsg) : List (List UInt8) := frameParts m.opcode m.payload

/-! ## The control socket -/

/-- A request of a control client, decoded. `invalid` is a frame with an unknown opcode or a
size that does not belong to its opcode. The user and session names of a create request are
only logged. -/
inductive ControlRequest where
  | createGroupVt (ownerPid vt : Int)
  | destroyGroupVt (vt : Int)
  | getActiveVt
  | findFreeVt
  | switchVt (vt : Int)
  | invalid
  deriving DecidableEq, Repr

inductive ControlMsg where
  | groupVtCreated (ownerPid vt : Int)
  | vtChanged (oldVt newVt : Int)
  | ok
  | activeVt (vt : Int)
  | freeVt (vt : Int)
  | error (code : Int)
  deriving DecidableEq, Repr

def ControlMsg.opcode : ControlMsg → Nat
  | .groupVtCreated _ _ => 100
  | .vtChanged _ _ => 101
  | .ok => 102
  | .activeVt _ => 103
  | .freeVt _ => 104
  | .error _ => 255

def ControlMsg.payload : ControlMsg → List (List UInt8)
  | .groupVtCreated ownerPid vt => [intBytes ownerPid ++ intBytes vt]
  | .vtChanged oldVt newVt => [intBytes oldVt ++ intBytes newVt]
  | .ok => []
  | .activeVt vt => [intBytes vt]
  | .freeVt vt => [intBytes vt]
  | .error code => [intBytes code]

def ControlMsg.parts (m : ControlMsg) : List (List UInt8) := frameParts m.opcode m.payload

end DdeSeatd
