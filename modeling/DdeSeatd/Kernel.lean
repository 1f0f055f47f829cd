import DdeSeatd.Protocol
import DdeSeatd.Connection

set_option autoImplicit false

/-! # The world around the daemon

The daemon's only nondeterminism is what the system answers. It is one record, `Kernel`,
whose answers depend on everything that has happened so far: the state carries a trace of
events (newest first) to which every system call, every frame and every flush adds one, so no
two calls are made with the same history and a theorem for all kernels covers every sequence
of outcomes.

A system call returns `-errno` on failure. The terminal calls are named by the VT whose tty
they are made on; the tty is opened, used and closed inside one function of the source. A
file descriptor is the name of one open file description: numbers are never reused, and the
descriptor made by `dup` is recorded together with the one it was made from.
-/

namespace DdeSeatd

/-- The platform the source was built for; on Linux, whether `HIDIOCREVOKE` is defined. -/
inductive Platform where
  | linux (hidraw : Bool)
  | freebsd
  | netbsd
  deriving DecidableEq, Repr

inductive SeatDeviceType where
  | evdev
  | hidraw
  | drm
  | wscons
  deriving DecidableEq, Repr

/-- The system calls of the daemon. -/
inductive Syscall where
  | prepareSocket
  | getPeer
  | alloc
  | pollerAddFd
  | openDevice (path : CString)
  | close (fd : Nat)
  | dup (fd : Nat)
  | drmSetMaster (fd : Nat)
  | drmDropMaster (fd : Nat)
  | drmAuthMagic (fd : Nat)
  | evdevRevoke (fd : Nat)
  | hidrawRevoke (fd : Nat)
  | terminalOpen (vt : Int)
  | vtSetMode (vt : Int) (process : Bool)
  | kdSkbMode (vt : Int) (enable : Bool)
  | tcAttr (vt : Int) (enable : Bool)
  | kdSetMode (vt : Int) (graphics : Bool)
  | vtActivate (vt target : Int)
  | vtRelDisp (vt : Int) (release : Bool)
  | vtGetState
  | vtOpenQry
  deriving DecidableEq, Repr

abbrev ClientId := Nat
abbrev ControlId := Nat

/-- The other end of a socket of the daemon. -/
inductive Peer where
  | client (c : ClientId)
  | control (i : ControlId)
  deriving DecidableEq, Repr

/-- One thing that happened. `frame c m ok` is an attempt to put the frame `m` on `c`'s
connection, `ok` if every put succeeded; `unflushed c m` says that the flush right after such
a frame failed; `fdQueued c fd dup type` that `dup`, made from the device descriptor `fd`, was
queued for `c`. -/
inductive Event where
  | sys (call : Syscall) (ret : Int)
  | io (peer : Peer) (err : Option Nat) (sent : List Segment) (closed : List Int)
  | frame (c : ClientId) (m : ServerMsg) (ok : Bool)
  | unflushed (c : ClientId) (m : ServerMsg)
  | controlFrame (i : ControlId) (m : ControlMsg) (ok : Bool)
  | fdQueued (c : ClientId) (fd dup : Nat) (type : SeatDeviceType)
  | fdsClosed (peer : Peer) (fds : List Int)
  deriving DecidableEq

structure Kernel where
  platform : Platform
  /-- The result of a system call. -/
  ret : List Event → Syscall → Int
  /-- The canonical form of a path, or an `errno`. -/
  realpath : List Event → CString → Except Nat CString
  /-- The answers to the `sendmsg` calls of one flush. -/
  sendmsg : List Event → Peer → List SendResult

/-- A Linux system on which every call succeeds, with VT `vt` on the screen. -/
def Kernel.obliging (vt : Int) : Kernel where
  platform := .linux true
  ret := fun _ call => if call = .vtGetState then vt else 0
  realpath := fun _ path => .ok path
  sendmsg := fun _ _ => [.sent CONNECTION_BUFFER_SIZE]

end DdeSeatd
