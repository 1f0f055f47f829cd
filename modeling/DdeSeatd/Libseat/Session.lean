import DdeSeatd.Lib.Run
import DdeSeatd.Libseat.Backend

set_option autoImplicit false

/-! # A seat opened through the library

The entry points of `libseat/backend/seatd.c` as a state machine. The library gives up
control in two places: `read_until_response` blocks in `poll` until the daemon answers, and
`execute_events` calls the application's listener, which may call any entry point again before
it returns. Between two such places the library runs alone, and what it does is a computation
over the backend that ends by saying what comes `Next`.

`execute_events` detaches the whole list of pending events and calls the listener once for
each. While a callback runs, the rest of the detached list and what the interrupted entry
point does afterwards are a `Frame`; callbacks that call `dispatch` again pile up frames.
-/

namespace DdeSeatd.Libseat

/-! ## Entry points -/

/-- What the library does when it cannot go on alone. -/
inductive Next where
  | returns (result : Except Int Reply)
  /-- Blocked in the `poll` of `read_until_response`. -/
  | waits (r : Request)
  /-- At the call of `execute_events`. -/
  | executes (k : Cont)
  /-- The backend is freed before the call returns. -/
  | destroys (result : Except Int Reply)
  | aborts

/-- The end of a request that is not `open_seat` or `close_seat`: `res` is the reply or
`-errno`. Only `open_device` insists on an `errno` above `0`. -/
def replied (r : Request) : Except Int Reply → Next
  | .ok reply => if reply.value < 0 then .returns (.error (-reply.value)) else .returns (.ok reply)
  | .error e =>
      if -e < 0 then .returns (.error e)
      else
        match r with
        | .openDevice _ => .aborts
        | _ => .returns (.ok ⟨0, none⟩)

/-- An entry point after `read_until_response` has returned. -/
def finish (a : Answers) (r : Request) (outcome : Except Int Unit) : StateM Backend Next :=
  match r with
  | .openSeat => do
      match outcome with
      | .error e => pure (.destroys (.error e))
      | .ok _ =>
          match ← seatOpened.run with
          | .error e => pure (.destroys (.error e))
          | .ok _ => pure (.executes .openSeat)
  | .closeSeat => do
      -- the header is read even when the request could not be sent
      match ← (readHeader (ServerMsg.opcode .seatClosed) 0 false).run with
      | .error e => pure (.executes (.closeSeat (-e)))
      | .ok _ =>
          match outcome with
          | .error e => pure (.executes (.closeSeat (-e)))
          | .ok _ => pure (.executes (.closeSeat 0))
  | r => do
      match outcome with
      | .error e => pure (.returns (.error e))
      | .ok _ =>
          let reply ← (readResponse r).run
          let _ ← (checkPendingEvents a).run
          pure (replied r reply)

/-- One turn of the loop of `read_until_response`, up to its `poll`. -/
def awaitResponse (a : Answers) (r : Request) : StateM Backend Next := do
  match ← (readAndQueue a true).run with
  | .error e => finish a r (.error e)
  | .ok (_, opcode) => if opcode = 0 then pure (.waits r) else finish a r (.ok ())

/-- The `poll` of `read_until_response` returns. -/
def wake (a : Answers) (r : Request) : StateM Backend Next := do
  match ← (pollConnection a).run with
  | .error e => finish a r (.error e)
  | .ok _ => awaitResponse a r

def request (a : Answers) (r : Request) : StateM Backend Next := do
  match ← (sendRequest a r).run with
  | .error e => finish a r (.error e)
  | .ok _ => awaitResponse a r

/-- Arguments that are refused before anything is sent. -/
def refuses : Request → Bool
  | .openDevice path => path.length + 1 > MAX_PATH_LEN
  | .closeDevice deviceId => deviceId < 0
  | .switchSession session => session < 0
  | _ => false

/-- An entry point other than `open_seat` and `dispatch`. -/
def call (a : Answers) (r : Request) : StateM Backend Next := do
  if (← get).error then
    match r with
    | .closeSeat => pure (.executes (.closeSeat (-(ENOTCONN : Int))))
    | _ => pure (.returns (.error ENOTCONN))
  else if refuses r then pure (.returns (.error EINVAL))
  else request a r

def dispatch (a : Answers) (timeout : Int) : StateM Backend Next := do
  if (← get).error then pure (.returns (.error ENOTCONN))
  else
    match ← (readAndQueue a false).run with
    | .error e => pure (.returns (.error e))
    | .ok (packets, _) => pure (.executes (.predispatch packets timeout))

/-- The second half of `dispatch`. -/
def postdispatch (a : Answers) (predispatch : Nat) : StateM Backend Next := do
  match ← (readAndQueue a false).run with
  | .error e => pure (.returns (.error e))
  | .ok (packets, _) => pure (.executes (.postdispatch predispatch packets))

/-- The read of `dispatch`, which does not block once something was dispatched. -/
def dispatchRead (a : Answers) (immediate : Bool) : StateM Backend (Except Int Nat) := do
  if immediate then
    match ← (connRead a).run with
    | .ok (.ok len) => pure (.ok len)
    | .ok (.error e) => pure (.error (e : Int))
    | .error e => pure (.error e)
  else (pollConnection a).run

/-- An entry point after `execute_events` has returned `executed`. -/
def afterEvents (a : Answers) (executed : Nat) : Cont → StateM Backend Next
  | .predispatch packets timeout => do
      let predispatch := packets + executed
      match ← dispatchRead a (predispatch > 0 ∨ timeout = 0) with
      | .ok len =>
          if len = 0 then pure (.returns (.ok ⟨predispatch, none⟩)) else postdispatch a predispatch
      | .error e =>
          if e ≠ EAGAIN then pure (.returns (.error e)) else postdispatch a predispatch
  | .postdispatch predispatch packets =>
      pure (.returns (.ok ⟨(predispatch + (packets + executed) : Nat), none⟩))
  | .openSeat => pure (.returns (.ok ⟨0, none⟩))
  | .closeSeat res =>
      pure (.destroys (if res < 0 then .error (-res) else .ok ⟨0, none⟩))

/-! ## The machine -/

/-- Who has control. -/
inductive Control where
  /-- There is no backend: the application runs, before `open_seat` or after `close_seat`. -/
  | closed
  /-- The application runs, inside a callback when there are frames. -/
  | app
  | waiting (r : Request)
  | executing (k : Cont)
  | aborted
  deriving DecidableEq, Repr

structure Session where
  backend : Backend
  control : Control
  /-- What the last call to return gave the application. -/
  result : Option (Except Int Reply)

def Session.init : Session := ⟨Backend.zero, .closed, none⟩

/-- What happens next: the application calls an entry point, the kernel ends a `poll`, the
library goes into `execute_events`, or the application returns from a callback. -/
inductive Move where
  | call (r : Request) (a : Answers)
  | dispatch (timeout : Int) (a : Answers)
  | wake (a : Answers)
  | execute (a : Answers)
  | callbackReturn (a : Answers)

/-- The library runs until it gives up control. A backend that is destroyed inside one of its
own callbacks leaves the interrupted calls with freed memory; they are not followed further. -/
def Session.enter (s : Session) (m : StateM Backend Next) : Session :=
  let r := m.run s.backend
  match r.1 with
  | .returns result => { s with backend := r.2, control := .app, result := some result }
  | .waits r' => { s with backend := r.2, control := .waiting r' }
  | .executes k => { s with backend := r.2, control := .executing k }
  | .destroys result => ⟨Backend.zero, .closed, some result⟩
  | .aborts => { s with backend := r.2, control := .aborted }

/-- The loop of `execute_events`: call the listener with the first event of the detached list,
or return. -/
def Session.executeEvents (s : Session) (a : Answers) (list : List PendingEvent)
    (executed : Nat) (k : Cont) : Session :=
  match list with
  | [] => s.enter (afterEvents a executed k)
  | ev :: list =>
      { s with
        backend := { s.backend with
          callbacks := s.backend.callbacks ++ [ev]
          frames := ⟨list, executed + 1, k⟩ :: s.backend.frames }
        control := .app }

def Session.step (s : Session) : Move → Session
  | .call r a =>
      match s.control, r with
      | .closed, .openSeat => s.enter (request a .openSeat)
      | .app, .openSeat => s
      | .app, .ping => s
      | .app, r => s.enter (Libseat.call a r)
      | _, _ => s
  | .dispatch timeout a =>
      match s.control with
      | .app => s.enter (Libseat.dispatch a timeout)
      | _ => s
  | .wake a =>
      match s.control with
      | .waiting r => s.enter (Libseat.wake a r)
      | _ => s
  | .execute a =>
      match s.control with
      | .executing k =>
          -- `linked_list_take`
          { s with backend := { s.backend with pendingEvents := [] } }.executeEvents a
            s.backend.pendingEvents 0 k
      | _ => s
  | .callbackReturn a =>
      match s.control, s.backend.frames with
      | .app, f :: frames =>
          { s with backend := { s.backend with frames := frames } }.executeEvents a
            f.list f.executed f.cont
      | _, _ => s

/-- **The rule for moves.** A move enters one of the library's functions, or goes on with
`execute_events`, or changes nothing. -/
@[elab_as_elim]
theorem Session.step_cases {s : Session} {motive : Move → Session → Prop} (m : Move)
    (same : motive m s)
    (openSeat : ∀ a, s.control = .closed →
      motive (.call .openSeat a) (s.enter (request a .openSeat)))
    (call : ∀ r a, s.control = .app → r ≠ .openSeat →
      motive (.call r a) (s.enter (Libseat.call a r)))
    (dispatch : ∀ timeout a, s.control = .app →
      motive (.dispatch timeout a) (s.enter (Libseat.dispatch a timeout)))
    (wake : ∀ a r, s.control = .waiting r → motive (.wake a) (s.enter (Libseat.wake a r)))
    (execute : ∀ a k, s.control = .executing k → motive (.execute a)
      ({ s with backend := { s.backend with pendingEvents := [] } }.executeEvents a
        s.backend.pendingEvents 0 k))
    (callbackReturn : ∀ a f frames, s.control = .app → s.backend.frames = f :: frames →
      motive (.callbackReturn a)
        ({ s with backend := { s.backend with frames := frames } }.executeEvents a
          f.list f.executed f.cont)) : motive m (s.step m) := by
  cases m with
  | call r a =>
      unfold Session.step
      dsimp only
      split
      · exact openSeat a ‹_›
      · exact same
      · exact same
      · rename_i hcontrol hne _
        exact call _ a hcontrol hne
      · exact same
  | dispatch timeout a =>
      unfold Session.step
      dsimp only
      split
      · exact dispatch timeout a ‹_›
      · exact same
  | wake a =>
      unfold Session.step
      dsimp only
      split
      · exact wake a _ ‹_›
      · exact same
  | execute a =>
      unfold Session.step
      dsimp only
      split
      · exact execute a _ ‹_›
      · exact same
  | callbackReturn a =>
      unfold Session.step
      dsimp only
      split
      · exact callbackReturn a _ _ ‹_› ‹_›
      · exact same

def Session.run (moves : List Move) : Session := Run.run Session.step Session.init moves

end DdeSeatd.Libseat
