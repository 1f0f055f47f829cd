import DdeSeatd.State

set_option autoImplicit false

/-! # Terminals (`common/terminal.c` and the VT helpers of `seatd/seat.c`) -/

namespace DdeSeatd

/-! ## `common/terminal.c` -/

def terminalOpen (k : Kernel) (s : Server) (vt : Int) : Bool × Server :=
  s.call k (.terminalOpen vt)

/-- The VT number the kernel reports, -1 on failure. -/
def terminalCurrentVt (k : Kernel) (s : Server) : Int × Server :=
  let r := s.sys k .vtGetState
  (if r.1 < 0 then -1 else r.1, r.2)

/-- `VT_OPENQRY`, which only Linux has. -/
def terminalFindAvailable (k : Kernel) (s : Server) : Int × Server :=
  match k.platform with
  | .linux _ =>
      let r := s.sys k .vtOpenQry
      if r.1 < 0 then (-1, r.2)
      else if r.1 ≤ 0 then (-1, r.2.setErrno ENOENT)
      else r
  | _ => (-1, s.setErrno ENOSYS)

def terminalSetProcessSwitching (k : Kernel) (s : Server) (vt : Int) (enable : Bool) :
    Bool × Server := s.call k (.vtSetMode vt enable)

def terminalSwitchVt (k : Kernel) (s : Server) (vt target : Int) : Bool × Server :=
  s.call k (.vtActivate vt target)

def terminalAckRelease (k : Kernel) (s : Server) (vt : Int) : Bool × Server :=
  s.call k (.vtRelDisp vt true)

def terminalAckAcquire (k : Kernel) (s : Server) (vt : Int) : Bool × Server :=
  s.call k (.vtRelDisp vt false)

/-- On FreeBSD the line discipline is set as well. -/
def terminalSetKeyboard (k : Kernel) (s : Server) (vt : Int) (enable : Bool) : Bool × Server :=
  let r := s.call k (.kdSkbMode vt enable)
  if r.1 ∧ k.platform = .freebsd then r.2.call k (.tcAttr vt enable) else r

def terminalSetGraphics (k : Kernel) (s : Server) (vt : Int) (enable : Bool) : Bool × Server :=
  s.call k (.kdSetMode vt enable)

/-! ## The VT helpers of `seatd/seat.c` -/

def seatUpdateVt (k : Kernel) (s : Server) : Bool × Server :=
  let t := terminalOpen k s 0
  if t.1 then
    let vt := terminalCurrentVt k t.2
    let s := vt.2
    if vt.1 ≤ 0 then (false, s.setErrno (if s.errno ≠ 0 then s.errno else ENOENT))
    else (true, s.setSeat { s.seat with curVt := vt.1 })
  else (false, t.2)

/-- Opens the VT's tty and sets its switching mode, keyboard and graphics. -/
def vtConfigure (k : Kernel) (s : Server) (vt : Int) (session : Bool) : Bool × Server :=
  let t := terminalOpen k s vt
  if t.1 then
    let s := (terminalSetProcessSwitching k t.2 vt session).2
    let s := (terminalSetKeyboard k s vt !session).2
    (true, (terminalSetGraphics k s vt session).2)
  else (false, t.2)

def vtOpen (k : Kernel) (s : Server) (vt : Int) : Bool × Server := vtConfigure k s vt true

def vtClose (k : Kernel) (s : Server) (vt : Int) : Bool × Server := vtConfigure k s vt false

def vtSwitch (k : Kernel) (s : Server) (vt : Int) : Bool × Server :=
  let t := terminalOpen k s s.seat.curVt
  if t.1 then
    let r := terminalSetProcessSwitching k t.2 s.seat.curVt true
    if r.1 then terminalSwitchVt k r.2 s.seat.curVt vt else r
  else t

def vtAck (k : Kernel) (s : Server) (release : Bool) : Bool × Server :=
  let t := terminalOpen k s s.seat.curVt
  if t.1 then
    if release then (true, (terminalAckRelease k t.2 s.seat.curVt).2)
    else (true, (terminalAckAcquire k t.2 s.seat.curVt).2)
  else (false, t.2)

end DdeSeatd
