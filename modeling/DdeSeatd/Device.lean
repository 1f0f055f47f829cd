import DdeSeatd.Terminal

set_option autoImplicit false

/-! # Devices (`common/drm.c`, `evdev.c`, `hidraw.c`, `wscons.c` and the device functions of
`seatd/seat.c`)

A pointer to a device of a client is its position in the client's list. The loops over a
client's devices are recursions on the list that thread the state through the system calls
and rebuild the list.
-/

namespace DdeSeatd

/-! ## The device gate -/

/-- `strncmp(prefix, path, n) == 0` for `n` at most the length of `prefix`. -/
def strHasPrefix (pre path : CString) (n : Nat) : Bool := pre.take n = path.take n

def EVDEV_PREFIX : CString :=
  ascii ['/', 'd', 'e', 'v', '/', 'i', 'n', 'p', 'u', 't', '/', 'e', 'v', 'e', 'n', 't']

def DRI_PREFIX : CString := ascii ['/', 'd', 'e', 'v', '/', 'd', 'r', 'i', '/']

def DRM_PREFIX : CString := ascii ['/', 'd', 'e', 'v', '/', 'd', 'r', 'm', '/']

def HIDRAW_PREFIX : CString := ascii ['/', 'd', 'e', 'v', '/', 'h', 'i', 'd', 'r', 'a', 'w']

def WSKBD_PREFIX : CString := ascii ['/', 'd', 'e', 'v', '/', 'w', 's', 'k', 'b', 'd']

def WSMOUSE_PREFIX : CString := ascii ['/', 'd', 'e', 'v', '/', 'w', 's', 'm', 'o', 'u', 's', 'e']

def WSMUX_PREFIX : CString := ascii ['/', 'd', 'e', 'v', '/', 'w', 's', 'm', 'u', 'x']

def pathIsEvdev (p : Platform) (path : CString) : Bool :=
  match p with
  | .netbsd => false
  | _ => strHasPrefix EVDEV_PREFIX path EVDEV_PREFIX.length

def pathIsDrm (p : Platform) (path : CString) : Bool :=
  match p with
  | .freebsd => strHasPrefix DRI_PREFIX path DRI_PREFIX.length
      || strHasPrefix DRM_PREFIX path DRM_PREFIX.length
  | _ => strHasPrefix DRI_PREFIX path DRI_PREFIX.length

/-- `strncmp(path, wsmux, STRLEN(wsmouse))` compares up to the NUL of `wsmux`, which is within
the twelve bytes compared: the path has to be `/dev/wsmux` itself. -/
def pathIsWscons (p : Platform) (path : CString) : Bool :=
  match p with
  | .netbsd => strHasPrefix WSKBD_PREFIX path WSKBD_PREFIX.length
      || strHasPrefix WSMOUSE_PREFIX path WSMOUSE_PREFIX.length
      || (WSMUX_PREFIX ++ [0]).take WSMOUSE_PREFIX.length
          = (path ++ [0]).take WSMOUSE_PREFIX.length
  | _ => false

def pathIsHidraw (p : Platform) (path : CString) : Bool :=
  match p with
  | .linux true => strHasPrefix HIDRAW_PREFIX path HIDRAW_PREFIX.length
  | _ => false

/-- The chain of tests of `seat_open_device`. -/
def deviceType (p : Platform) (path : CString) : Option SeatDeviceType :=
  if pathIsEvdev p path then some .evdev
  else if pathIsDrm p path then some .drm
  else if pathIsWscons p path then some .wscons
  else if pathIsHidraw p path then some .hidraw
  else none

/-! ## Device ioctls -/

def drmSetMaster (k : Kernel) (s : Server) (fd : Nat) : Bool × Server :=
  s.call k (.drmSetMaster fd)

def drmDropMaster (k : Kernel) (s : Server) (fd : Nat) : Bool × Server :=
  s.call k (.drmDropMaster fd)

/-- `drm_is_master`: 1, 0 or -1. -/
def drmIsMaster (k : Kernel) (s : Server) (fd : Nat) : Int × Server :=
  let r := s.sys k (.drmAuthMagic fd)
  if r.1 < 0 then
    if r.2.errno = EACCES then (0, r.2)
    else if r.2.errno = EINVAL then (1, r.2)
    else (-1, r.2)
  else (1, r.2)

/-- `evdev_revoke`; where there is no evdev it is a stub that succeeds. -/
def evdevRevoke (k : Kernel) (s : Server) (fd : Nat) : Bool × Server :=
  match k.platform with
  | .netbsd => (true, s.record (.sys (.evdevRevoke fd) 0))
  | _ => s.call k (.evdevRevoke fd)

/-- `hidraw_revoke`; without `HIDIOCREVOKE` it is a stub that succeeds. -/
def hidrawRevoke (k : Kernel) (s : Server) (fd : Nat) : Bool × Server :=
  match k.platform with
  | .linux true => s.call k (.hidrawRevoke fd)
  | _ => (true, s.record (.sys (.hidrawRevoke fd) 0))

/-! ## Activating and deactivating -/

/-- The switch of `seat_deactivate_device`: take away what the device's type gives. -/
def releaseDevice (k : Kernel) (s : Server) (d : SeatDevice) : Bool × Server :=
  match d.type with
  | .drm => drmDropMaster k s d.fd
  | .evdev => evdevRevoke k s d.fd
  | .hidraw => hidrawRevoke k s d.fd
  | .wscons => (true, s)

def seatDeactivateDevice (k : Kernel) (s : Server) (d : SeatDevice) :
    Bool × SeatDevice × Server :=
  if d.active = false then (true, d, s)
  else
    let r := releaseDevice k s d
    (r.1, if r.1 then { d with active := false } else d, r.2)

/-- The DRM case of `seat_activate_device`: become master, unless the fd already is. -/
def acquireDrm (k : Kernel) (s : Server) (fd : Nat) : Server :=
  let m := drmIsMaster k s fd
  if m.1 = 1 then m.2 else (drmSetMaster k m.2 fd).2

def seatActivateDevice (k : Kernel) (s : Server) (d : SeatDevice) :
    Bool × SeatDevice × Server :=
  if d.active then (true, d, s)
  else
    match d.type with
    -- the device counts as active even if it could not be made master
    | .drm => (true, { d with active := true }, acquireDrm k s d.fd)
    | .evdev => (false, d, s.setErrno EINVAL)
    | .hidraw => (false, d, s.setErrno EINVAL)
    | .wscons => (true, d, s)

/-- The loops over a client's devices that call one of the two functions on each device for
which `on` holds. -/
def forDevices (f : Server → SeatDevice → Bool × SeatDevice × Server) (on : SeatDevice → Bool) :
    Server → List SeatDevice → List SeatDevice × Server
  | s, [] => ([], s)
  | s, d :: ds =>
      if on d then
        let r := f s d
        let rest := forDevices f on r.2.2 ds
        (r.2.1 :: rest.1, rest.2)
      else
        let rest := forDevices f on s ds
        (d :: rest.1, rest.2)

/-- Run such a loop on the devices of a client. -/
def onDevices (f : Server → SeatDevice → Bool × SeatDevice × Server) (on : SeatDevice → Bool)
    (s : Server) (c : ClientId) : Server :=
  let r := forDevices f on s (s.clients c).devices
  r.2.setDevices c r.1

/-- The loops of `seat_disable_client` and of the failure path of `seat_open_client`. -/
def seatDeactivateDevices (k : Kernel) (s : Server) (c : ClientId) : Server :=
  onDevices (seatDeactivateDevice k) (fun _ => true) s c

/-- The loop of `seat_open_client`. -/
def seatActivateDevices (k : Kernel) (s : Server) (c : ClientId) : Server :=
  onDevices (seatActivateDevice k) (fun _ => true) s c

def seatDropClientDrmMaster (k : Kernel) (s : Server) (c : ClientId) : Server :=
  onDevices (seatDeactivateDevice k) (fun d => d.type = .drm && d.active) s c

def seatRestoreClientDrmMaster (k : Kernel) (s : Server) (c : ClientId) : Server :=
  onDevices (seatActivateDevice k) (fun d => d.type = .drm && !d.active) s c

/-! ## Opening and closing -/

/-- `seat_find_device`: the position of the device. -/
def seatFindDevice (s : Server) (c : ClientId) (deviceId : Int) : Option Nat × Server :=
  if deviceId = 0 then (none, s.setErrno EINVAL)
  else
    match (s.clients c).devices.findIdx? fun d => d.deviceId = deviceId with
    | some i => (some i, s)
    | none => (none, s.setErrno ENOENT)

/-- The device id given to a new device. -/
def nextDeviceId (ds : List SeatDevice) : Int :=
  ds.foldl (fun id d => if d.deviceId ≥ id then d.deviceId + 1 else id) 1

/-- The last part of `seat_open_device`: open the file and add the device to the list. -/
def openNewDevice (k : Kernel) (s : Server) (c : ClientId) (path : CString)
    (type : SeatDeviceType) : Option Nat × Server :=
  let ds := (s.clients c).devices
  let o := s.sys k (.openDevice path)
  if o.1 < 0 then (none, o.2)
  else
    let fd := o.2.nextFd
    let s := if type = .drm then (drmSetMaster k o.2.newFd fd).2 else o.2.newFd
    let a := s.sys k .alloc
    if a.1 < 0 then (none, (a.2.sys k (.close fd)).2.setErrno ENOMEM)
    else (some 0, a.2.setDevices c (⟨nextDeviceId ds, fd, 1, true, path, type⟩ :: ds))

/-- `seat_open_device`: the position of the device, new or reused. -/
def seatOpenDevice (k : Kernel) (s : Server) (c : ClientId) (path : CString) :
    Option Nat × Server :=
  let ds := (s.clients c).devices
  if (s.clients c).state ≠ .active then (none, s.setErrno EPERM)
  else
    match k.realpath s.trace path with
    | .error e => (none, s.setErrno e)
    | .ok sanitized =>
        match deviceType k.platform sanitized with
        | none => (none, s.setErrno ENOENT)
        | some type =>
            match ds.findIdx? fun d => d.path = sanitized with
            | some i => (some i, s.setDevices c (ds.modify i fun d =>
                { d with refCnt := d.refCnt + 1 }))
            | none =>
                if MAX_SEAT_DEVICES ≤ ds.length then (none, s.setErrno EMFILE)
                else openNewDevice k s c sanitized type

/-- `seat_close_device` on the device at position `i`. -/
def seatCloseDevice (k : Kernel) (s : Server) (c : ClientId) (i : Nat) : Server :=
  match (s.clients c).devices[i]? with
  | none => s
  | some d =>
      if 0 < d.refCnt - 1 then
        s.setDevices c ((s.clients c).devices.modify i fun d => { d with refCnt := d.refCnt - 1 })
      else
        let s1 := s.setDevices c ((s.clients c).devices.eraseIdx i)
        let r := seatDeactivateDevice k s1 d
        ((r.2.2.sys k (.close d.fd)).2).setErrno s.errno

/-- The loop of `seat_remove_client` that closes the first device until there is none. -/
def seatCloseDevices (k : Kernel) (c : ClientId) : Nat → Server → Server
  | 0, s => s
  | fuel + 1, s =>
      if (s.clients c).devices = [] then s
      else seatCloseDevices k c fuel (seatCloseDevice k s c 0)

/-- Enough rounds for `seatCloseDevices`: each one drops a reference. -/
def closeRounds (ds : List SeatDevice) : Nat := (ds.map fun d => d.refCnt + 1).sum

end DdeSeatd
