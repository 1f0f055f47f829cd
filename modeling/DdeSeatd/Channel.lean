import DdeSeatd.Calls
import DdeSeatd.Transfer
import DdeSeatd.Lib.Labelled

set_option autoImplicit false

/-! # What the daemon has said to one peer

The connection of a peer, its event mask, and what the trace records about it are put together
as a `Channel`. System calls leave every channel as it is (`Calls.channel`); the lemmas at the end
say what a single update of the daemon's state does to the channels.
-/

namespace DdeSeatd

open RingBuffer Labelled

/-! ## Reading the trace -/

section Past

variable {α : Type}

/-- What `f` keeps of a trace, oldest first. -/
def past (f : Event → List α) (trace : List Event) : List α := trace.reverse.flatMap f

@[simp] theorem past_nil (f : Event → List α) : past f [] = [] := rfl

@[simp] theorem past_cons (f : Event → List α) (e : Event) (trace : List Event) :
    past f (e :: trace) = past f trace ++ f e := by
  simp [past]

theorem past_append (f : Event → List α) (new old : List Event) :
    past f (new ++ old) = past f old ++ past f new := by
  simp [past]

/-- System calls are not kept. -/
theorem past_calls {f : Event → List α} (hf : ∀ call r, f (.sys call r) = [])
    (calls : List (Syscall × Int)) (old : List Event) :
    past f ((calls.map fun x => Event.sys x.1 x.2) ++ old) = past f old := by
  induction calls with
  | nil => rfl
  | cons x calls ih => rw [List.map_cons, List.cons_append, past_cons, hf, List.append_nil, ih]

end Past

/-- The messages handed to the kernel. -/
def Event.sentTo (p : Peer) : Event → List Segment
  | .io q _ sent _ => if q = p then sent else []
  | _ => []

/-- The fds closed. -/
def Event.closedFor (p : Peer) : Event → List Int
  | .io q _ _ closed => if q = p then closed else []
  | .fdsClosed q fds => if q = p then fds else []
  | _ => []

/-- The fds queued by `connection_put_fd`. -/
def Event.queuedFor (p : Peer) : Event → List Int
  | .fdQueued c _ dup _ => if .client c = p then [fdInt dup] else []
  | _ => []

/-- The frames put completely. -/
def Event.framesTo (p : Peer) : Event → List ServerMsg
  | .frame c m ok => if .client c = p ∧ ok then [m] else []
  | _ => []

/-- The events whose flush failed. -/
def Event.unflushedTo (p : Peer) : Event → List ServerMsg
  | .unflushed c m => if .client c = p then [m] else []
  | _ => []

/-- The device a message announces. -/
def ServerMsg.opens : ServerMsg → Option Int
  | .deviceOpened id => some id
  | _ => none

/-- The DEVICE_OPENED frames put, each with the fd that was queued last before it. -/
def devicesOpened (p : Peer) : List Event → List (Int × Option Int)
  | [] => []
  | e :: trace =>
      devicesOpened p trace
        ++ ((e.framesTo p).filterMap ServerMsg.opens).map fun id =>
            (id, (past (Event.queuedFor p) trace).getLast?)

/-! ## Channels -/

structure Channel where
  connection : Connection
  mask : UInt32
  sent : List Segment
  closed : List Int
  queued : List Int
  frames : List ServerMsg
  unflushed : List ServerMsg
  devices : List (Int × Option Int)

def Server.mask (s : Server) : Peer → UInt32
  | .client c => (s.clients c).mask
  | .control i => (s.controls i).mask

def Server.channel (s : Server) (p : Peer) : Channel where
  connection := s.connection p
  mask := s.mask p
  sent := past (Event.sentTo p) s.trace
  closed := past (Event.closedFor p) s.trace
  queued := past (Event.queuedFor p) s.trace
  frames := past (Event.framesTo p) s.trace
  unflushed := past (Event.unflushedTo p) s.trace
  devices := devicesOpened p s.trace

/-- An event that is not a frame. -/
theorem devicesOpened_cons {p : Peer} {e : Event} (h : e.framesTo p = []) (trace : List Event) :
    devicesOpened p (e :: trace) = devicesOpened p trace := by
  simp [devicesOpened, h]

theorem devicesOpened_calls (p : Peer) (calls : List (Syscall × Int)) (old : List Event) :
    devicesOpened p ((calls.map fun x => Event.sys x.1 x.2) ++ old) = devicesOpened p old := by
  induction calls with
  | nil => rfl
  | cons x calls ih => rw [List.map_cons, List.cons_append, devicesOpened_cons rfl, ih]

theorem Calls.channel {Q : Syscall → Prop} {s s' : Server} (h : Calls Q s s') (p : Peer) :
    s'.channel p = s.channel p := by
  obtain ⟨calls, htrace, -⟩ := h.trace
  have hconn : s'.connection p = s.connection p := by
    cases p with
    | client c => exact h.connection c
    | control i => show (s'.controls i).connection = _; rw [h.controls]; rfl
  have hmask : s'.mask p = s.mask p := by
    cases p with
    | client c => exact h.mask c
    | control i => show (s'.controls i).mask = _; rw [h.controls]; rfl
  unfold Server.channel
  rw [hconn, hmask, htrace]
  congr 1
  case e_devices => exact devicesOpened_calls _ _ _
  all_goals exact past_calls (fun _ _ => rfl) _ _

/-! ## Single updates -/

section

variable (s : Server) (p : Peer)

@[simp] theorem connection_setConnection (conn : Connection) :
    (s.setConnection p conn).connection p = conn := by
  cases p <;> simp [Server.setConnection, Server.connection, Server.setClient, Server.setControl]

theorem connection_setConnection_of_ne {q : Peer} (h : q ≠ p) (conn : Connection) :
    (s.setConnection p conn).connection q = s.connection q := by
  cases p <;> cases q <;>
    simp_all [Server.setConnection, Server.connection, Server.setClient, Server.setControl]

@[simp] theorem mask_setConnection (q : Peer) (conn : Connection) :
    (s.setConnection p conn).mask q = s.mask q := by
  cases p <;> cases q <;>
    simp only [Server.setConnection, Server.mask, Server.setClient, Server.setControl]
  all_goals
    rename_i a b
    by_cases hab : b = a
    · subst hab; simp
    · simp [hab]

@[simp] theorem trace_setConnection (conn : Connection) :
    (s.setConnection p conn).trace = s.trace := by
  cases p <;> rfl

@[simp] theorem connection_setMask (q : Peer) (mask : UInt32) :
    (s.setMask p mask).connection q = s.connection q := by
  cases p <;> cases q <;>
    simp only [Server.setMask, Server.connection, Server.setClient, Server.setControl]
  all_goals
    rename_i a b
    by_cases hab : b = a
    · subst hab; simp
    · simp [hab]

@[simp] theorem mask_setMask (mask : UInt32) : (s.setMask p mask).mask p = mask := by
  cases p <;> simp [Server.setMask, Server.mask, Server.setClient, Server.setControl]

theorem mask_setMask_of_ne {q : Peer} (h : q ≠ p) (mask : UInt32) :
    (s.setMask p mask).mask q = s.mask q := by
  cases p <;> cases q <;>
    simp_all [Server.setMask, Server.mask, Server.setClient, Server.setControl]

@[simp] theorem trace_setMask (mask : UInt32) : (s.setMask p mask).trace = s.trace := by
  cases p <;> rfl

end

end DdeSeatd
