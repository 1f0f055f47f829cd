import DdeSeatd.ClientConnection

set_option autoImplicit false

/-! # The VT event watcher

VT switches come in on a thread of their own. `server_vt_event_loop` waits for an event with the
VT_WAITEVENT ioctl and writes the two VT numbers into a pipe; the main loop is told by the poller
that there is something to read, and `server_handle_vt_event` reads one message after the other
and hands it to `seat_handle_vt_event`.

The two threads are modelled with their program counters, so that a run is any interleaving of
their steps; each ioctl, write and read may fail or be interrupted. The pipe has room for
`capacity` messages, and the writer blocks when it is full.

Messages keep their order, and nothing is handled twice. But a `write` that a signal interrupts is
not repeated: the thread goes back to waiting, and the event is lost (`interrupted_write_loses`).
Unless that happens, all events are handled in the order in which they came
(`vt_events_delivered`).
-/

namespace DdeSeatd

/-! ## The two threads -/

/-- `struct vt_event`, as far as it is used. -/
structure VtEvent where
  event : UInt32
  oldev : UInt32
  newev : UInt32
  deriving DecidableEq, Repr

def VT_EVENT_SWITCH : UInt32 := 0x1

/-- `struct vt_event_msg`. -/
structure VtEventMsg where
  oldVt : Int
  newVt : Int
  deriving DecidableEq, Repr

/-- The message for an event; the numbers are cast to `int`. -/
def VtEvent.msg (e : VtEvent) : VtEventMsg := ⟨e.oldev.toBitVec.toInt, e.newev.toBitVec.toInt⟩

/-- What VT_WAITEVENT returns: an event, -1 with EINTR, or -1 with another error. -/
inductive IoctlResult where
  | event (e : VtEvent)
  | interrupted
  | failed
  deriving DecidableEq, Repr

/-- What writing a message returns. Messages are short enough to be written whole or not at
all. -/
inductive WriteResult where
  | written
  | interrupted
  | failed
  deriving DecidableEq, Repr

/-- What reading a message returns: a message, if there is one, or an error. -/
inductive ReadResult where
  | message
  | failed
  deriving DecidableEq, Repr

/-- Where `server_vt_event_loop` is: at the condition of its loop, in the ioctl, in the write of a
message, or at its end. -/
inductive WatcherAt where
  | loop
  | waiting
  | writing (msg : VtEventMsg)
  | ended
  deriving DecidableEq, Repr

/-- Where the main thread is: in the poller, in the loop of `server_handle_vt_event`, or in
`server_finish`. -/
inductive MainAt where
  | polling
  | reading
  | finished
  deriving DecidableEq, Repr

/-- The daemon, its watcher and the pipe between them, oldest message first. Two lists record what
happened: the switch events the ioctl returned while `vt_event_running` was set, and the messages
passed to `seat_handle_vt_event`. -/
structure Watched where
  server : Server
  running : Bool
  watcher : WatcherAt
  main : MainAt
  pipe : List VtEventMsg
  returned : List VtEventMsg
  handled : List VtEventMsg

/-- The end of `server_init`: the watcher was started, or could not be. -/
def Watched.init (vtBound started : Bool) : Watched :=
  ⟨serverInit vtBound, started, if started then .loop else .ended, .polling, [], [], []⟩

inductive WatchedStep where
  -- the watcher
  | check
  | ioctl (r : IoctlResult)
  | write (r : WriteResult)
  -- the main thread: the poller calls `server_handle_vt_event`, which reads, or another callback
  | dispatch (mask : UInt32)
  | read (r : ReadResult)
  | daemon (st : Step)
  | finish
  deriving DecidableEq, Repr

namespace Watched

variable (k : Kernel) (capacity : Nat)

/-- After VT_WAITEVENT. -/
def afterIoctl (w : Watched) : IoctlResult → Watched
  | .interrupted => { w with watcher := .loop }
  | .failed => { w with watcher := .ended }
  | .event e =>
      if e.event &&& VT_EVENT_SWITCH = 0 then { w with watcher := .loop }
      else { w with
        watcher := .writing e.msg,
        returned := if w.running then w.returned ++ [e.msg] else w.returned }

/-- After the write, which waits for room in the pipe. -/
def afterWrite (w : Watched) (msg : VtEventMsg) : WriteResult → Watched
  | .written =>
      if w.pipe.length < capacity then { w with pipe := w.pipe ++ [msg], watcher := .loop } else w
  | .interrupted => { w with watcher := .loop }
  | .failed => { w with watcher := .ended }

/-- After the read. -/
def afterRead (w : Watched) (r : ReadResult) : Watched :=
  match r, w.pipe with
  | .message, msg :: rest =>
      { w with
        server := seatHandleVtEvent k w.server msg.oldVt msg.newVt,
        pipe := rest, handled := w.handled ++ [msg] }
  | _, _ => { w with main := .polling }

/-- One step of one of the threads; a step that is not its next one changes nothing. -/
def step (w : Watched) : WatchedStep → Watched
  | .check =>
      if w.watcher = .loop then { w with watcher := if w.running then .waiting else .ended } else w
  | .ioctl r => if w.watcher = .waiting then w.afterIoctl r else w
  | .write r =>
      match w.watcher with
      | .writing msg => w.afterWrite capacity msg r
      | _ => w
  | .dispatch mask =>
      if w.main = .polling ∧ mask &&& (EVENT_ERROR ||| EVENT_HANGUP) = 0
        ∧ mask &&& EVENT_READABLE ≠ 0 then { w with main := .reading } else w
  | .read r => if w.main = .reading then w.afterRead k r else w
  | .daemon (.vtEvent _ _) => w
  | .daemon st =>
      if w.main = .polling then { w with server := DdeSeatd.step k w.server st } else w
  | .finish => if w.main = .polling then { w with main := .finished, running := false } else w

/-! ## Delivery -/

/-- The events are handled in order, from the first on; and once the watcher waits for the next
one with nothing left in the pipe, all of them have been. -/
def Delivers (w : Watched) : Prop :=
  w.handled <+: w.returned ∧ (w.watcher = .waiting → w.pipe = [] → w.handled = w.returned)

instance (w : Watched) : Decidable w.Delivers :=
  inferInstanceAs (Decidable (_ ∧ (_ → _ → _)))

/-- The step interrupts the write of a message. -/
def LosesEvent (w : Watched) (st : WatchedStep) : Prop :=
  st = .write .interrupted ∧ ∃ msg, w.watcher = .writing msg

/-- The message being written. -/
def inFlight (w : Watched) : List VtEventMsg :=
  match w.watcher with
  | .writing msg => [msg]
  | _ => []

/-- While the main thread runs, what was returned is what was handled, what is in the pipe and
what is being written, in this order; a watcher that has ended may have failed to write its last
event. In `server_finish`, the watcher that still waits has nothing outstanding. -/
structure Inv (w : Watched) : Prop where
  stopped : w.main = .finished → w.running = false
  started : w.main ≠ .finished → w.watcher ≠ .ended → w.running = true
  inOrder : w.main ≠ .finished → w.handled ++ w.pipe ++ w.inFlight <+: w.returned
  complete : w.main ≠ .finished → w.watcher ≠ .ended →
    w.handled ++ w.pipe ++ w.inFlight = w.returned
  waits : w.watcher = .waiting → w.handled ++ w.pipe = w.returned
  handled : w.handled <+: w.returned

variable {k capacity} {w : Watched}

theorem Inv.delivers (h : w.Inv) : w.Delivers := by
  refine ⟨h.handled, fun hwaiting hempty => ?_⟩
  have := h.waits hwaiting
  rwa [hempty, List.append_nil] at this

theorem inv_init (vtBound started : Bool) : (Watched.init vtBound started).Inv := by
  cases started <;>
    constructor <;> simp [Watched.init, inFlight]

/-- The watcher moves on with nothing to write. -/
theorem Inv.moveOn (h : w.Inv) {next : WatcherAt} (hflight : w.inFlight = [])
    (hlive : w.watcher ≠ .ended)
    (hnext : next = .loop ∨ next = .ended ∨ next = .waiting ∧ w.running = true) :
    { w with watcher := next }.Inv := by
  have hflight' : { w with watcher := next }.inFlight = [] := by
    rcases hnext with rfl | rfl | ⟨rfl, -⟩ <;> rfl
  refine ⟨h.stopped, fun hmain _ => h.started hmain hlive, fun hmain => ?_, fun hmain _ => ?_,
    fun hwaiting => ?_, h.handled⟩
  · rw [hflight', ← hflight]
    exact h.inOrder hmain
  · rw [hflight', ← hflight]
    exact h.complete hmain hlive
  · obtain rfl : next = .waiting := hwaiting
    rcases hnext with hnext | hnext | ⟨-, hrunning⟩
    · cases hnext
    · cases hnext
    · have hmain : w.main ≠ .finished := fun hmain => by
        rw [h.stopped hmain] at hrunning
        cases hrunning
      have hall := h.complete hmain hlive
      rwa [hflight, List.append_nil] at hall

/-- A switch event. -/
theorem Inv.event (h : w.Inv) (hwaiting : w.watcher = .waiting) (msg : VtEventMsg) :
    { w with
      watcher := .writing msg,
      returned := if w.running then w.returned ++ [msg] else w.returned }.Inv := by
  have hlive : w.watcher ≠ .ended := by simp [hwaiting]
  have hall : w.main ≠ .finished → w.handled ++ w.pipe ++ [msg]
      = if w.running then w.returned ++ [msg] else w.returned := by
    intro hmain
    rw [if_pos (h.started hmain hlive), h.waits hwaiting]
  refine ⟨h.stopped, fun hmain _ => h.started hmain hlive, fun hmain => ?_, fun hmain _ => hall hmain,
    (fun hnot => by cases hnot), ?_⟩
  · exact (hall hmain) ▸ List.prefix_rfl
  · dsimp only
    split_ifs
    · exact h.handled.trans (List.prefix_append _ _)
    · exact h.handled

/-- A message is written, or could not be. -/
theorem Inv.written (h : w.Inv) {msg : VtEventMsg} (hwriting : w.watcher = .writing msg) :
    { w with pipe := w.pipe ++ [msg], watcher := .loop }.Inv := by
  have hlive : w.watcher ≠ .ended := by simp [hwriting]
  have hflight : w.inFlight = [msg] := by rw [inFlight, hwriting]
  have hlist : w.handled ++ (w.pipe ++ [msg]) ++ [] = w.handled ++ w.pipe ++ w.inFlight := by
    rw [hflight, List.append_nil, List.append_assoc]
  refine ⟨h.stopped, fun hmain _ => h.started hmain hlive, fun hmain => ?_, fun hmain _ => ?_,
    (fun hnot => by cases hnot), h.handled⟩
  · exact hlist ▸ h.inOrder hmain
  · exact hlist.trans (h.complete hmain hlive)

theorem Inv.writeFailed (h : w.Inv) : { w with watcher := .ended }.Inv := by
  refine ⟨h.stopped, fun _ hnot => absurd rfl hnot, fun hmain => ?_, fun _ hnot => absurd rfl hnot,
    (fun hnot => by cases hnot), h.handled⟩
  show w.handled ++ w.pipe ++ [] <+: w.returned
  rw [List.append_nil]
  exact (List.prefix_append _ _).trans (h.inOrder hmain)

/-- A message is read. -/
theorem Inv.read (h : w.Inv) (hreading : w.main = .reading) {msg : VtEventMsg}
    {rest : List VtEventMsg} (hpipe : w.pipe = msg :: rest) (server : Server) :
    { w with server := server, pipe := rest, handled := w.handled ++ [msg] }.Inv := by
  have hmain : w.main ≠ .finished := by simp [hreading]
  have hlist : w.handled ++ [msg] ++ rest = w.handled ++ w.pipe := by
    rw [hpipe, List.append_assoc]
    rfl
  have hall : w.handled ++ [msg] ++ rest ++ w.inFlight <+: w.returned :=
    hlist ▸ h.inOrder hmain
  refine ⟨h.stopped, h.started, fun _ => hall, fun _ hlive => ?_, fun hwaiting => ?_, ?_⟩
  · exact (congrArg (· ++ w.inFlight) hlist).trans (h.complete hmain hlive)
  · exact hlist.trans (h.waits hwaiting)
  · rw [List.append_assoc (w.handled ++ [msg])] at hall
    exact (List.prefix_append _ _).trans hall

/-- The main thread moves on. -/
theorem Inv.mainOn (h : w.Inv) {next : MainAt} (hmain : w.main ≠ .finished)
    (hnext : next ≠ .finished) : { w with main := next }.Inv :=
  ⟨fun hnot => absurd hnot hnext, fun _ => h.started hmain, fun _ => h.inOrder hmain,
    fun _ => h.complete hmain, h.waits, h.handled⟩

theorem Inv.finish (h : w.Inv) : { w with main := .finished, running := false }.Inv :=
  ⟨fun _ => rfl, fun hnot => absurd rfl hnot, fun hnot => absurd rfl hnot,
    fun hnot => absurd rfl hnot, h.waits, h.handled⟩

/-- **A step that loses no event keeps the invariant.** -/
theorem Inv.step (h : w.Inv) {st : WatchedStep} (hst : ¬ w.LosesEvent st) :
    (w.step k capacity st).Inv := by
  cases st with
  | check =>
      simp only [Watched.step]
      split_ifs with hloop hrunning
      · exact h.moveOn (by rw [inFlight, hloop]) (by simp [hloop]) (Or.inr (Or.inr ⟨rfl, hrunning⟩))
      · exact h.moveOn (by rw [inFlight, hloop]) (by simp [hloop]) (Or.inr (Or.inl rfl))
      · exact h
  | ioctl r =>
      simp only [Watched.step]
      split_ifs with hwaiting
      · have hflight : w.inFlight = [] := by rw [inFlight, hwaiting]
        have hlive : w.watcher ≠ .ended := by simp [hwaiting]
        cases r with
        | interrupted => exact h.moveOn hflight hlive (Or.inl rfl)
        | failed => exact h.moveOn hflight hlive (Or.inr (Or.inl rfl))
        | event e =>
            by_cases hswitch : e.event &&& VT_EVENT_SWITCH = 0
            · rw [afterIoctl, if_pos hswitch]
              exact h.moveOn hflight hlive (Or.inl rfl)
            · rw [afterIoctl, if_neg hswitch]
              exact h.event hwaiting e.msg
      · exact h
  | write r =>
      simp only [Watched.step]
      cases hwatcher : w.watcher with
      | writing msg =>
          cases r with
          | written =>
              show (if w.pipe.length < capacity then _ else w).Inv
              split_ifs
              · exact h.written hwatcher
              · exact h
          | interrupted => exact absurd ⟨rfl, msg, hwatcher⟩ hst
          | failed => exact h.writeFailed
      | _ => exact h
  | dispatch mask =>
      simp only [Watched.step]
      split_ifs with hpolling
      · exact h.mainOn (by simp [hpolling.1]) (by simp)
      · exact h
  | read r =>
      simp only [Watched.step]
      split_ifs with hreading
      · have hidle : { w with main := .polling }.Inv := h.mainOn (by simp [hreading]) (by simp)
        cases r with
        | failed => exact hidle
        | message =>
            unfold afterRead
            cases hpipe : w.pipe with
            | nil =>
                rw [hpipe] at hidle
                exact hidle
            | cons msg rest => exact h.read hreading hpipe _
      · exact h
  | daemon st =>
      have hserver : ∀ server, { w with server := server }.Inv := fun _ =>
        ⟨h.stopped, h.started, h.inOrder, h.complete, h.waits, h.handled⟩
      have hdaemon : (if w.main = .polling then { w with server := DdeSeatd.step k w.server st }
          else w).Inv := by
        split_ifs
        · exact hserver _
        · exact h
      cases st <;> first | exact h | exact hdaemon
  | finish =>
      simp only [Watched.step]
      split_ifs
      · exact h.finish
      · exact h

/-- **VT events are delivered.** In every run in which no write of the watcher is interrupted,
however the two threads are interleaved, the events are handled in order and without gaps, and all
of them have been whenever the watcher waits and the pipe is empty. -/
theorem vt_events_delivered (k : Kernel) (capacity : Nat) (vtBound started : Bool)
    (steps : List WatchedStep)
    (hsteps : Run.Meets (Watched.step k capacity) (fun w st => ¬ w.LosesEvent st)
      (Watched.init vtBound started) steps) :
    (Run.run (Watched.step k capacity) (Watched.init vtBound started) steps).Delivers :=
  (Run.run_invariant_of_meets (P := Inv) (fun _ _ hw hst => hw.step hst)
    (inv_init vtBound started) steps hsteps).delivers

/-- Two switches, both handled. -/
theorem vt_events_delivered_two :
    let steps : List WatchedStep := [.check, .ioctl (.event ⟨VT_EVENT_SWITCH, 1, 2⟩),
      .write .written, .check, .ioctl .interrupted, .check,
      .ioctl (.event ⟨VT_EVENT_SWITCH, 2, 3⟩), .write .written, .dispatch EVENT_READABLE,
      .read .message, .read .message]
    let w := Run.run (Watched.step (.obliging 1) 2) (Watched.init true true) steps
    w.Delivers ∧ w.handled = [⟨1, 2⟩, ⟨2, 3⟩] := by
  intro steps w
  refine ⟨vt_events_delivered (.obliging 1) 2 true true steps ?_, by decide +kernel⟩
  simp [steps, Run.Meets, LosesEvent]

/-- Switches to VT 2 and back, `n` times each, that the main thread does not handle. -/
def backAndForth (n : Nat) : List WatchedStep :=
  (List.replicate n [.check, .ioctl (.event ⟨VT_EVENT_SWITCH, 1, 2⟩), .write .written,
    .check, .ioctl (.event ⟨VT_EVENT_SWITCH, 2, 1⟩), .write .written]).flatten

-- the messages are compared one by one
set_option maxRecDepth 4000 in
/-- The pipe, of one page, is full, so that the write of the switch from VT 1 to VT 3 blocks, and a
signal interrupts it. When the main thread has emptied the pipe and the watcher waits, that switch
was not handled; then the next one is handled as if it followed the others. -/
theorem interrupted_write_loses :
    let lost : List WatchedStep := [.check, .ioctl (.event ⟨VT_EVENT_SWITCH, 1, 3⟩),
      .write .interrupted, .check]
    let drain : List WatchedStep := .dispatch EVENT_READABLE :: List.replicate 513 (.read .message)
    let next : List WatchedStep := [.ioctl (.event ⟨VT_EVENT_SWITCH, 3, 4⟩), .write .written,
      .dispatch EVENT_READABLE, .read .message]
    let full := Run.run (Watched.step (.obliging 1) 512) (Watched.init true true) (backAndForth 256)
    let w := Run.run (Watched.step (.obliging 1) 512) full (lost ++ drain)
    let w' := Run.run (Watched.step (.obliging 1) 512) w next
    full.pipe.length = 512
      ∧ (w.watcher = .waiting ∧ w.pipe = [] ∧ w.returned = full.pipe ++ [⟨1, 3⟩]
        ∧ w.handled = full.pipe)
      ∧ w'.returned = full.pipe ++ [⟨1, 3⟩, ⟨3, 4⟩] ∧ w'.handled = full.pipe ++ [⟨3, 4⟩]
      ∧ ¬ w.Delivers ∧ ¬ w'.Delivers := by
  decide +kernel

end Watched

end DdeSeatd
