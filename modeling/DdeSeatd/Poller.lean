import DdeSeatd.ClientConnection
import DdeSeatd.Lib.Cursor

set_option autoImplicit false

/-! # The poller (`seatd/poller.c`)

The functions of the poller, and `poller_poll` with `dispatch` as a machine that stops between any
two of its steps, so that signals can arrive there and callbacks can add, change and destroy event
sources. The lists of sources are walked with a cursor: the next element is the one that the list
has at that moment. Event sources are told apart by a number that stands for their address.

A failed assertion, or a write behind the end of `pollfds`, is recorded in the state.
-/

namespace DdeSeatd

abbrev SourceId := Nat

/-! ## Sources -/

def POLLIN : UInt16 := 0x1
def POLLOUT : UInt16 := 0x4
def POLLERR : UInt16 := 0x8
def POLLHUP : UInt16 := 0x10

/-- `struct event_source_fd`. `pollfdIdx` is `none` for -1. -/
structure EventSourceFd where
  id : SourceId
  fd : Int
  mask : UInt32
  killed : Bool
  pollfdIdx : Option Nat
  deriving DecidableEq, Repr

/-- `struct event_source_signal`. -/
structure EventSourceSignal where
  id : SourceId
  signal : Int
  raised : Bool
  killed : Bool
  deriving DecidableEq, Repr

structure Pollfd where
  fd : Int
  events : UInt16
  revents : UInt16
  deriving DecidableEq, Repr

/-- `struct poller`, the number of bytes in its signal pipe, the signals that
`signal_handler` is installed for, and the address of the next source. -/
structure Poller where
  signals : List EventSourceSignal
  fds : List EventSourceFd
  signalFd : Int
  pipe : Nat
  pollfds : List Pollfd
  fdEventSources : Nat
  dirty : Bool
  installed : List Int
  nextId : SourceId
  deriving DecidableEq, Repr

/-- How many bytes the pipe takes. -/
def PIPE_CAPACITY : Nat := 65536

def pollerInit (signalFd : Int) : Poller where
  signals := []
  fds := []
  signalFd := signalFd
  pipe := 0
  pollfds := []
  fdEventSources := 1
  dirty := true
  installed := []
  nextId := 0

/-- Change the fd source at an address. -/
def Poller.modifyFd (p : Poller) (id : SourceId) (f : EventSourceFd → EventSourceFd) : Poller :=
  { p with fds := p.fds.map fun x => if x.id = id then f x else x }

/-- Change the signal source at an address. -/
def Poller.modifySignal (p : Poller) (id : SourceId) (f : EventSourceSignal → EventSourceSignal) :
    Poller :=
  { p with signals := p.signals.map fun x => if x.id = id then f x else x }

def pollerAddFd (p : Poller) (fd : Int) (mask : UInt32) : Poller :=
  { p with
    fdEventSources := p.fdEventSources + 1
    dirty := true
    fds := ⟨p.nextId, fd, mask, false, none⟩ :: p.fds
    nextId := p.nextId + 1 }

def eventSourceFdDestroy (p : Poller) (id : SourceId) : Poller :=
  { p with fdEventSources := p.fdEventSources - 1, dirty := true }.modifyFd id
    fun x => { x with killed := true }

def eventSourceFdUpdate (p : Poller) (id : SourceId) (mask : UInt32) : Poller :=
  { p with dirty := true }.modifyFd id fun x => { x with mask := mask }

def pollerAddSignal (p : Poller) (signal : Int) : Poller :=
  { p with
    signals := ⟨p.nextId, signal, false, false⟩ :: p.signals
    installed := if signal ∈ p.installed then p.installed else signal :: p.installed
    nextId := p.nextId + 1 }

def eventSourceSignalDestroy (p : Poller) (id : SourceId) : Poller :=
  match Cursor.find EventSourceSignal.id p.signals id with
  | none => p
  | some bps =>
      let refcnt := p.signals.countP fun b => b.signal = bps.signal ∧ b.killed = false
      -- the source itself still counts here
      let installed := if refcnt = 0 then p.installed.erase bps.signal else p.installed
      { p with installed := installed, dirty := true }.modifySignal id
        fun x => { x with killed := true }

def signalHandler (p : Poller) (sig : Int) : Poller :=
  { p with
    signals := p.signals.map fun bps => if bps.signal = sig then { bps with raised := true } else bps
    -- a pipe that is full stays as it is
    pipe := min (p.pipe + 1) PIPE_CAPACITY }

def eventMaskToPollMask (mask : UInt32) : UInt16 :=
  (if mask &&& EVENT_READABLE ≠ 0 then POLLIN else 0)
    ||| (if mask &&& EVENT_WRITABLE ≠ 0 then POLLOUT else 0)

def pollMaskToEventMask (mask : UInt16) : UInt32 :=
  (if mask &&& POLLIN ≠ 0 then EVENT_READABLE else 0)
    ||| (if mask &&& POLLOUT ≠ 0 then EVENT_WRITABLE else 0)
    ||| (if mask &&& POLLERR ≠ 0 then EVENT_ERROR else 0)
    ||| (if mask &&& POLLHUP ≠ 0 then EVENT_HANGUP else 0)

/-! ## `regenerate` -/

/-- The loop of `regenerate` over the fd sources: the sources that stay, the next index, the slots,
and whether every index was below `pollfds_len`. -/
def regenerateLoop : List EventSourceFd → Nat → List Pollfd →
    List EventSourceFd × Nat × List Pollfd × Bool
  | [], idx, slots => ([], idx, slots, true)
  | bpfd :: fds, idx, slots =>
      if bpfd.killed then regenerateLoop fds idx slots
      else
        let slot : Pollfd := ⟨bpfd.fd, eventMaskToPollMask bpfd.mask, 0⟩
        let r := regenerateLoop fds (idx + 1) (slots.set idx slot)
        ({ bpfd with pollfdIdx := some idx } :: r.1, r.2.1, r.2.2.1, decide (idx < slots.length) && r.2.2.2)

/-- The poller, and whether the assertions held and every write was inside `pollfds`; `none` if
`realloc` fails. -/
def regenerate (p : Poller) (realloc : Bool) : Option (Poller × Bool) :=
  let grow := p.fdEventSources > p.pollfds.length
  if grow ∧ realloc = false then none
  else
    let slots := if grow then
        p.pollfds ++ List.replicate (p.fdEventSources - p.pollfds.length) ⟨0, 0, 0⟩
      else p.pollfds
    let r := regenerateLoop p.fds 1 (slots.set 0 ⟨p.signalFd, POLLIN, 0⟩)
    some ({ p with
        fds := r.1
        pollfds := r.2.2.1
        signals := p.signals.filter fun bps => bps.killed = false },
      decide (0 < slots.length) && r.2.2.2 && decide (r.2.1 = p.fdEventSources))

/-! ## `poller_poll` and `dispatch`, step by step -/

/-- Where the program is. The cursor of a loop is `none` at its end. -/
inductive PollerPc where
  /-- Outside `poller_poll`. -/
  | idle
  /-- In `poll`. -/
  | polling
  /-- At a `read` from the signal pipe. -/
  | draining
  | signalAt (cursor : Option SourceId)
  /-- In the callback of a signal source. -/
  | inSignal (source : SourceId)
  /-- Between the callback and the reset of `raised`. -/
  | resetting (source : SourceId)
  | fdAt (cursor : Option SourceId)
  /-- In the callback of an fd source. -/
  | inFd (source : SourceId)
  deriving DecidableEq, Repr

/-- The call of an fd source's callback: its arguments, and whether the source was alive. -/
structure FdCall where
  source : SourceId
  fd : Int
  mask : UInt32
  alive : Bool
  deriving DecidableEq, Repr

/-- The poller and its program. Of the last `poll` that returned: the sources that it was asked
about, each with its fd and the events returned for it, and the callbacks called since. `sound` is
false once an assertion failed, a write missed `pollfds`, or a loop stood at a freed source. -/
structure PollerState where
  poller : Poller
  pc : PollerPc
  sound : Bool
  polled : List (SourceId × Int × UInt16)
  calls : List FdCall
  deriving DecidableEq, Repr

inductive PollerMove where
  | addFd (fd : Int) (mask : UInt32)
  | updateFd (source : SourceId) (mask : UInt32)
  | destroyFd (source : SourceId)
  | addSignal (signal : Int)
  | destroySignal (source : SourceId)
  /-- `signal_handler` runs. -/
  | signal (sig : Int)
  /-- `poller_poll` is called. -/
  | poll (realloc : Bool)
  | pollFails (errno : Nat)
  | pollReturns (revents : List UInt16)
  /-- The next step of `dispatch`. -/
  | run
  | callbackReturns
  deriving DecidableEq, Repr

/-- Outside `poller_poll` and in callbacks, sources can be added, changed and destroyed. -/
def PollerPc.mayCall : PollerPc → Bool
  | .idle | .inSignal _ | .inFd _ => true
  | _ => false

/-- The sources that are not destroyed. -/
def Poller.live (p : Poller) : List EventSourceFd := p.fds.filter fun bpfd => bpfd.killed = false

def Poller.liveSignals (p : Poller) : List EventSourceSignal :=
  p.signals.filter fun bps => bps.killed = false

/-- `poll` fills in the events of the slots it was asked about. -/
def Poller.setRevents (p : Poller) (revents : List UInt16) : Poller :=
  { p with pollfds := p.pollfds.mapIdx fun idx slot =>
      if idx < p.fdEventSources then { slot with revents := revents.getD idx 0 } else slot }

/-- `poller_poll` up to its call of `poll`. -/
def PollerState.callPoll (st : PollerState) (realloc : Bool) : PollerState :=
  if st.poller.dirty then
    match regenerate st.poller realloc with
    | none => st
    | some (p, ok) => { st with poller := { p with dirty := false }, pc := .polling,
                                sound := st.sound && ok }
  else { st with pc := .polling }

/-- The return of `poll`, and the first test of `dispatch`. -/
def PollerState.pollReturns (st : PollerState) (revents : List UInt16) : PollerState :=
  let p := st.poller.setRevents revents
  let woken := (p.pollfds.getD 0 ⟨0, 0, 0⟩).revents &&& POLLIN ≠ 0
  { st with
    poller := p
    pc := if woken then .draining else .fdAt (Cursor.first EventSourceFd.id p.fds)
    polled := p.live.mapIdx fun j bpfd => (bpfd.id, bpfd.fd, revents.getD (j + 1) 0)
    calls := [] }

/-- One turn of the loop over the fd sources. -/
def PollerState.dispatchFd (st : PollerState) (x : SourceId) : PollerState :=
  let p := st.poller
  let skip : PollerPc := .fdAt (Cursor.next EventSourceFd.id p.fds x)
  match Cursor.find EventSourceFd.id p.fds x with
  | none => { st with sound := false }
  | some bpfd =>
      match bpfd.pollfdIdx with
      | none => { st with pc := skip }
      | some idx =>
          if bpfd.killed then { st with pc := skip }
          else
            let slot := p.pollfds.getD idx ⟨0, 0, 0⟩
            let sound := st.sound && decide (idx < p.pollfds.length)
            if slot.revents = 0 then { st with pc := skip, sound := sound }
            else { st with
              pc := .inFd x
              sound := sound
              calls := st.calls ++ [⟨x, slot.fd, pollMaskToEventMask slot.revents,
                decide (x ∈ p.live.map EventSourceFd.id)⟩] }

/-- One turn of the loop over the signal sources. -/
def PollerState.dispatchSignal (st : PollerState) (x : SourceId) : PollerState :=
  let p := st.poller
  match Cursor.find EventSourceSignal.id p.signals x with
  | none => { st with sound := false }
  | some bps =>
      if bps.raised = false ∨ bps.killed = true then
        { st with pc := .signalAt (Cursor.next EventSourceSignal.id p.signals x) }
      else { st with pc := .inSignal x }

/-- The next step of `dispatch`. -/
def PollerState.dispatch (st : PollerState) : PollerState :=
  let p := st.poller
  match st.pc with
  | .draining =>
      -- a read takes up to eight bytes, and fails on an empty pipe
      if p.pipe = 0 then { st with pc := .signalAt (Cursor.first EventSourceSignal.id p.signals) }
      else { st with poller := { p with pipe := p.pipe - min 8 p.pipe } }
  | .signalAt none => { st with pc := .fdAt (Cursor.first EventSourceFd.id p.fds) }
  | .signalAt (some x) => st.dispatchSignal x
  | .resetting x =>
      { st with
        poller := p.modifySignal x fun bps => { bps with raised := false }
        pc := .signalAt (Cursor.next EventSourceSignal.id p.signals x) }
  | .fdAt none => { st with pc := .idle }
  | .fdAt (some x) => st.dispatchFd x
  | .idle | .polling | .inSignal _ | .inFd _ => st

/-- A move that is not possible where the program is changes nothing. A source is destroyed at
most once, and a source that has been freed is not updated. -/
def PollerState.step (st : PollerState) : PollerMove → PollerState
  | .addFd fd mask =>
      if st.pc.mayCall then { st with poller := pollerAddFd st.poller fd mask } else st
  | .updateFd x mask =>
      if st.pc.mayCall ∧ x ∈ st.poller.fds.map EventSourceFd.id then
        { st with poller := eventSourceFdUpdate st.poller x mask }
      else st
  | .destroyFd x =>
      if st.pc.mayCall ∧ x ∈ st.poller.live.map EventSourceFd.id then
        { st with poller := eventSourceFdDestroy st.poller x }
      else st
  | .addSignal sig =>
      if st.pc.mayCall then { st with poller := pollerAddSignal st.poller sig } else st
  | .destroySignal x =>
      if st.pc.mayCall ∧ x ∈ st.poller.liveSignals.map EventSourceSignal.id then
        { st with poller := eventSourceSignalDestroy st.poller x }
      else st
  | .signal sig =>
      if sig ∈ st.poller.installed then { st with poller := signalHandler st.poller sig } else st
  | .poll realloc => if st.pc = .idle then st.callPoll realloc else st
  | .pollFails errno =>
      if st.pc = .polling ∧ errno ≠ EINTR then { st with pc := .idle } else st
  | .pollReturns revents => if st.pc = .polling then st.pollReturns revents else st
  | .run => st.dispatch
  | .callbackReturns =>
      match st.pc with
      | .inSignal x => { st with pc := .resetting x }
      | .inFd x => { st with pc := .fdAt (Cursor.next EventSourceFd.id st.poller.fds x) }
      | _ => st

def pollerStart (signalFd : Int) : PollerState := ⟨pollerInit signalFd, .idle, true, [], []⟩

def pollerRun (signalFd : Int) (moves : List PollerMove) : PollerState :=
  Run.run PollerState.step (pollerStart signalFd) moves

end DdeSeatd
