import DdeSeatd.Send

set_option autoImplicit false

/-! # The seat (`seatd/seat.c`)

The functions that move clients on and off the seat, switch between them and look after the
VTs. Each follows its source; logging is left out, and an assertion of the source is not
tested but follows from the invariants proved later.
-/

namespace DdeSeatd

/-! ## VT ownership -/

def seatFindGroupVt (seat : Seat) (vt : Int) : Option GroupVt :=
  seat.groupVts.find? fun g => g.vt = vt

def clientOwnsVt (s : Server) (c : ClientId) (vt : Int) : Bool :=
  if (s.clients c).session = vt then true
  else if (s.clients c).seat = false then false
  else
    match seatFindGroupVt s.seat vt with
    | some g => g.owner = c
    | none => false

def vtForClientOpen (s : Server) (c : ClientId) : Int :=
  if 0 < s.seat.curVt ∧ clientOwnsVt s c s.seat.curVt then s.seat.curVt
  else (s.clients c).session

/-! ## Opening and closing sessions -/

/-- The error path of `seat_open_client`: everything is taken back, except for the frame. -/
def seatRollBack (k : Kernel) (s : Server) (c : ClientId) (openVt : Int) : Server :=
  let s := seatDeactivateDevices k s c
  if s.seat.vtBound then (vtClose k s openVt).2 else s

/-- The part of `seat_open_client` after the VT has been opened. -/
def seatEnableClient (k : Kernel) (s : Server) (c : ClientId) (openVt : Int) : Bool × Server :=
  let e := clientSendEnableSeat k (seatActivateDevices k s c) c
  if e.1 then
    let s := e.2.setState c .active
    (true, s.setSeat { s.seat with activeClient := some c })
  else (false, seatRollBack k e.2 c openVt)

def seatOpenClient (k : Kernel) (s : Server) (c : ClientId) : Bool × Server :=
  if (s.clients c).state ≠ .new ∧ (s.clients c).state ≠ .disabled then
    (false, s.setErrno EALREADY)
  else if s.seat.activeClient ≠ none then (false, s.setErrno EBUSY)
  else
    let openVt := vtForClientOpen s c
    let v := if s.seat.vtBound then vtOpen k s openVt else (true, s)
    if v.1 then seatEnableClient k v.2 c openVt else (false, v.2)

/-- The client `seat_activate` opens when no client is active. -/
def seatActivateTarget (s : Server) : Option ClientId :=
  match s.seat.nextClient with
  | some n => some n
  | none =>
      if s.seat.vtBound then
        if s.seat.curVt = -1 then none
        else s.seat.clients.find? fun c => clientOwnsVt s c s.seat.curVt
      else s.seat.clients.head?

def seatActivate (k : Kernel) (s : Server) : Bool × Server :=
  if s.seat.activeClient ≠ none then (true, s)
  else
    match seatActivateTarget s with
    | none => (false, s)
    | some c => seatOpenClient k (s.setSeat { s.seat with nextClient := none }) c

/-- The session number for a new client of a seat without VTs: `next_session` is raised and
the scan restarted whenever a client has it. -/
def nextSessionLoop (sessions : List Int) : Nat → Int → Int
  | 0, n => n
  | fuel + 1, n => if n ∈ sessions then nextSessionLoop sessions fuel (n + 1) else n

def nextSession (s : Server) : Int :=
  nextSessionLoop (s.seat.clients.map fun c => (s.clients c).session) (s.seat.clients.length + 1) 1

/-- The end of `seat_add_client`: the client takes its place on the seat. -/
def seatLinkClient (s : Server) (c : ClientId) (session : Int) : Server :=
  let s := s.setClient c { s.clients c with session := session, seat := true }
  { s with idleClients := s.idleClients.erase c,
           seat := { s.seat with clients := c :: s.seat.clients } }

def seatAddClient (k : Kernel) (s : Server) (c : ClientId) : Bool × Server :=
  if (s.clients c).seat then (false, s.setErrno EBUSY)
  else if s.seat.vtBound ∧ ∃ a ∈ s.seat.activeClient, (s.clients a).state ≠ .pendingDisable then
    (false, s.setErrno EBUSY)
  else if (s.clients c).session ≠ -1 then (false, s.setErrno EINVAL)
  else if s.seat.vtBound then
    let s := (seatUpdateVt k s).2
    if s.seat.curVt = -1 then (false, s.setErrno EINVAL)
    else if s.seat.activeClient ≠ none ∧
        ∃ o ∈ s.seat.clients, (s.clients o).session = s.seat.curVt then
      (false, s.setErrno EBUSY)
    else (true, seatLinkClient s c s.seat.curVt)
  else (true, seatLinkClient s c (nextSession s))

/-- The loop of `seat_remove_client` over the group VTs. -/
def seatRemoveGroupVts (k : Kernel) (c : ClientId) : Server → List GroupVt → Server
  | s, [] => s
  | s, g :: gs =>
      if g.owner = c then
        let s := s.setSeat { s.seat with groupVts := s.seat.groupVts.erase g }
        seatRemoveGroupVts k c (if s.seat.vtBound then (vtClose k s g.vt).2 else s) gs
      else seatRemoveGroupVts k c s gs

/-- The first part of `seat_remove_client`: the client is unlinked and loses its devices and
its group VTs. -/
def seatStripClient (k : Kernel) (s : Server) (c : ClientId) : Server :=
  let s := s.setSeat { s.seat with
    nextClient := if s.seat.nextClient = some c then none else s.seat.nextClient,
    clients := s.seat.clients.erase c }
  let s := seatCloseDevices k c (closeRounds (s.clients c).devices) s
  seatRemoveGroupVts k c s s.seat.groupVts

/-- The VT cleanup of `seat_remove_client`: no client took the VT over, or the client was
running in the background. -/
def seatCleanVt (k : Kernel) (s : Server) (c : ClientId) (wasCurrent : Bool) : Server :=
  if s.seat.vtBound then
    if wasCurrent ∧ s.seat.activeClient = none then (vtClose k s (s.clients c).session).2
    else if ¬ wasCurrent ∧ (s.clients c).state ≠ .closed then
      (vtClose k s (s.clients c).session).2
    else s
  else s

def seatRemoveClient (k : Kernel) (s : Server) (c : ClientId) : Server :=
  let s := seatStripClient k s c
  let wasCurrent : Bool := s.seat.activeClient = some c
  let s := if wasCurrent then
      (seatActivate k (s.setSeat { s.seat with activeClient := none })).2
    else s
  let s := seatCleanVt k s c wasCurrent
  s.setClient c { s.clients c with state := .closed, seat := false }

/-! ## Switching sessions -/

def seatDisableClient (k : Kernel) (s : Server) (c : ClientId) : Bool × Server :=
  if (s.clients c).state ≠ .active then (false, s.setErrno EBUSY)
  else
    let s := seatDeactivateDevices k s c
    clientSendDisableSeat k (s.setState c .pendingDisable) c

def seatAckDisableClient (k : Kernel) (s : Server) (c : ClientId) : Bool × Server :=
  if (s.clients c).state ≠ .pendingDisable then (false, s.setErrno EBUSY)
  else
    let s := s.setState c .disabled
    if s.seat.activeClient ≠ some c then (true, s)
    else (true, (seatActivate k (s.setSeat { s.seat with activeClient := none })).2)

/-- The part of `seat_set_next_session` and `seat_switch_vt` that asks the kernel for the
switch: the target is kept as pending unless the request fails. -/
def seatRequestVt (k : Kernel) (s : Server) (vt : Int) : Bool × Server :=
  let r := vtSwitch k (s.setSeat { s.seat with pendingVtSwitch := vt }) vt
  if r.1 then r else (false, r.2.setSeat { r.2.seat with pendingVtSwitch := 0 })

def seatSetNextSession (k : Kernel) (s : Server) (c : ClientId) (session : Int) :
    Bool × Server :=
  if (s.clients c).state ≠ .active then (false, s.setErrno EPERM)
  else if session ≤ 0 then (false, s.setErrno EINVAL)
  else if s.seat.vtBound ∧ s.seat.curVt = session then (true, s)
  else if ¬ s.seat.vtBound ∧ session = (s.clients c).session then (true, s)
  else if 0 < s.seat.pendingVtSwitch then (false, s.setErrno EBUSY)
  else if s.seat.nextClient ≠ none then (true, s)
  else if s.seat.vtBound then seatRequestVt k s session
  else
    match s.seat.clients.find? fun o => (s.clients o).session = session with
    | none => (false, s.setErrno EINVAL)
    | some target =>
        let s := s.setSeat { s.seat with nextClient := some target }
        match s.seat.activeClient with
        | some a => (true, (seatDisableClient k s a).2)
        | none => (true, s)

/-! ## VT signals and events -/

def seatVtActivate (k : Kernel) (s : Server) : Bool × Server :=
  if s.seat.vtBound = false then (false, s)
  else (true, (vtAck k (seatUpdateVt k s).2 false).2)

def seatVtRelease (k : Kernel) (s : Server) : Bool × Server :=
  if s.seat.vtBound = false then (false, s)
  else
    let s := (seatUpdateVt k s).2
    let s :=
      match s.seat.activeClient with
      | none => s
      | some a =>
          if (s.clients a).state = .active then
            -- DRM master is kept only for a pending switch to a VT of the same client
            if 0 < s.seat.pendingVtSwitch ∧ clientOwnsVt s a s.seat.pendingVtSwitch then s
            else seatDropClientDrmMaster k s a
          else s
    (true, (vtAck k s true).2)

def seatHandleVtEvent (k : Kernel) (s : Server) (oldVt newVt : Int) : Server :=
  let pending := if 0 < s.seat.pendingVtSwitch then 0 else s.seat.pendingVtSwitch
  let s := s.setSeat { s.seat with pendingVtSwitch := pending, curVt := newVt }
  let s := if s.seat.clients = [] then s else controlBroadcastVtChange k s oldVt newVt
  match s.seat.activeClient with
  | some a =>
      if clientOwnsVt s a newVt then seatRestoreClientDrmMaster k s a
      else if (s.clients a).state = .active then (seatDisableClient k s a).2
      else s
  | none => (seatActivate k s).2

/-! ## Requests of the control socket -/

/-- `seat_get_active_vt`: the VT, or -1. -/
def seatGetActiveVt (k : Kernel) (s : Server) : Int × Server :=
  if s.seat.vtBound = false then (-1, s.setErrno EINVAL)
  else
    let r := seatUpdateVt k s
    (if r.1 then r.2.seat.curVt else -1, r.2)

/-- A free VT found through `/dev/tty0`, or -1. -/
def findAvailableVt (k : Kernel) (s : Server) : Int × Server :=
  let t := terminalOpen k s 0
  if t.1 then terminalFindAvailable k t.2 else (-1, t.2)

def seatFindAvailableVt (k : Kernel) (s : Server) : Int × Server :=
  if s.seat.vtBound = false then (-1, s.setErrno EINVAL) else findAvailableVt k s

def seatSwitchVt (k : Kernel) (s : Server) (vt : Int) : Bool × Server :=
  if s.seat.vtBound = false then (false, s.setErrno EINVAL)
  else if vt ≤ 0 then (false, s.setErrno EINVAL)
  else
    let r := seatUpdateVt k s
    if r.1 = false then r
    else if r.2.seat.curVt = vt then r
    else if 0 < r.2.seat.pendingVtSwitch then (false, r.2.setErrno EBUSY)
    else seatRequestVt k r.2 vt

/-- The VT `seat_create_group_vt` is to register: the requested one, or one that is free. -/
def groupVtChoice (k : Kernel) (s : Server) (requestedVt : Int) : Int × Server :=
  if requestedVt ≤ 0 then findAvailableVt k s else (requestedVt, s)

/-- `seat_create_group_vt`: the VT, or -1. -/
def seatCreateGroupVt (k : Kernel) (s : Server) (owner : ClientId) (requestedVt : Int) :
    Int × Server :=
  if s.seat.vtBound = false then (-1, s.setErrno EINVAL)
  else if (s.clients owner).seat = false then (-1, s.setErrno EINVAL)
  else
    let q := groupVtChoice k s requestedVt
    let vt := q.1
    let s := q.2
    if vt = -1 then (-1, s)
    else if vt = (s.clients owner).session ∨ (seatFindGroupVt s.seat vt).isSome then
      (-1, s.setErrno EBUSY)
    else
      let a := s.sys k .alloc
      if a.1 < 0 then (-1, a.2)
      else
        let o := vtOpen k a.2 vt
        if o.1 then
          (vt, o.2.setSeat { o.2.seat with groupVts := ⟨owner, vt⟩ :: o.2.seat.groupVts })
        else (-1, o.2)

def seatDestroyGroupVt (k : Kernel) (s : Server) (vt : Int) : Bool × Server :=
  match seatFindGroupVt s.seat vt with
  | none => (false, s.setErrno ENOENT)
  | some g =>
      let s := s.setSeat { s.seat with groupVts := s.seat.groupVts.erase g }
      (true, if s.seat.vtBound then (vtClose k s g.vt).2 else s)

end DdeSeatd
