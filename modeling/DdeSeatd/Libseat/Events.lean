import Mathlib
import DdeSeatd.Libseat.Session

set_option autoImplicit false
set_option mvcgen.warning false

/-! # Seat events reach the listener in order, one at a time

`queue_event` inserts an event at the front of the list of pending events, and `execute_events`
takes the list apart from the front. Two events that are pending together therefore reach the
listener in the wrong order, and so do those that arrive while the callback for one of two
events runs. `events_in_order_iff` says that this is all that can go wrong: over every run of
entry points, callbacks that call entry points again, and answers of the kernel, the listener
is called with the seat events of the byte stream, each once and in their order, if and only if
`execute_events` never finds more than one of them.

The order is that of the bytes as the connection delivers them. `seatEvents` reads the seat
events off a byte stream; `seatEvents_messages` says that for what the daemon sends these are
the seat events among its messages. The proof follows the computations of the backend with
Hoare triples. Their invariant, `Backend.Within`, says that the bytes taken off the connection
are whole frames, up to the response that is being read, and accounts for every seat event
among them.
-/

namespace DdeSeatd.Libseat

open RingBuffer Std.Do

/-! ## The seat events of a byte stream -/

/-- The seat events of a stream, of which the first bytes are the rest of a response. Events
and pongs are bare headers to `read_and_queue`; any other frame is a response, and its payload
belongs to it. -/
def seatEventsAfter : Nat → List UInt8 → List SeatEvent
  | _, [] => []
  | skip + 1, _ :: rest => seatEventsAfter skip rest
  | 0, o₀ :: o₁ :: s₀ :: s₁ :: rest =>
      if bytesUint16 [o₀, o₁] = SERVER_PONG then seatEventsAfter 0 rest
      else
        match seatEvent (bytesUint16 [o₀, o₁]) with
        | some ev => ev :: seatEventsAfter 0 rest
        | none => seatEventsAfter (bytesUint16 [s₀, s₁]) rest
  | 0, _ => []

def seatEvents (stream : List UInt8) : List SeatEvent := seatEventsAfter 0 stream

theorem seatEventsAfter_append {data : List UInt8} (rest : List UInt8) :
    ∀ {n : Nat}, data.length ≤ n →
      seatEventsAfter n (data ++ rest) = seatEventsAfter (n - data.length) rest := by
  induction data with
  | nil => intro n _; rfl
  | cons x data ih =>
      intro n h
      obtain ⟨m, rfl⟩ : ∃ m, n = m + 1 := ⟨n - 1, by simp at h; omega⟩
      have hm : data.length ≤ m := by simpa using h
      show seatEventsAfter m (data ++ rest) = _
      rw [ih hm]
      simp

/-- The frame of a stream that begins with the given header. -/
theorem seatEventsAfter_header {header : List UInt8} (h : header.length = HEADER_SIZE)
    (rest : List UInt8) :
    seatEventsAfter 0 (header ++ rest)
      = if headerOpcode header = SERVER_PONG then seatEventsAfter 0 rest
        else
          match seatEvent (headerOpcode header) with
          | some ev => ev :: seatEventsAfter 0 rest
          | none => seatEventsAfter (headerSize header) rest := by
  obtain ⟨a, b, c, d, rfl⟩ := List.length_eq_four.mp h
  rfl

/-- The seat event that a message of the daemon is. -/
def eventOf : ServerMsg → Option SeatEvent
  | .disableSeat => some .disableSeat
  | .enableSeat => some .enableSeat
  | _ => none

theorem seatEventsAfter_message {m : ServerMsg} (h : m.payload.flatten.length < 2 ^ 16)
    (rest : List UInt8) :
    seatEventsAfter 0 (m.parts.flatten ++ rest)
      = (eventOf m).toList ++ seatEventsAfter 0 rest := by
  have hsize : (m.payload.map List.length).sum = m.payload.flatten.length :=
    List.length_flatten.symm
  have hop : m.opcode < 2 ^ 16 := by cases m <;> simp [ServerMsg.opcode, serverEvent]
  have hparts : m.parts.flatten
      = headerBytes m.opcode m.payload.flatten.length ++ m.payload.flatten := by
    rw [← hsize]
    rfl
  have hopcode : headerOpcode (headerBytes m.opcode m.payload.flatten.length) = m.opcode :=
    bytesUint16_uint16Bytes hop
  have hlen : headerSize (headerBytes m.opcode m.payload.flatten.length)
      = m.payload.flatten.length := bytesUint16_uint16Bytes h
  have hskip : seatEventsAfter m.payload.flatten.length (m.payload.flatten ++ rest)
      = seatEventsAfter 0 rest := by
    rw [seatEventsAfter_append rest le_rfl, Nat.sub_self]
  rw [hparts, List.append_assoc, seatEventsAfter_header rfl, hopcode, hlen, hskip]
  -- a seat event or a pong has no payload, and the other messages are responses
  cases m <;> rfl

/-- What the daemon sends has its own seat events. -/
theorem seatEvents_messages (msgs : List ServerMsg)
    (h : ∀ m ∈ msgs, m.payload.flatten.length < 2 ^ 16) :
    seatEvents (msgs.flatMap fun m => m.parts.flatten) = msgs.filterMap eventOf := by
  induction msgs with
  | nil => rfl
  | cons m msgs ih =>
      have hmsgs : seatEventsAfter 0 (msgs.flatMap fun m => m.parts.flatten)
          = msgs.filterMap eventOf := ih fun m' hm' => h m' (List.mem_cons_of_mem m hm')
      rw [List.flatMap_cons, seatEvents, seatEventsAfter_message (h m List.mem_cons_self), hmsgs]
      cases hm : eventOf m <;> simp [hm]

/-- The header at the front of the bytes, if there is one, is a response's. -/
def ResponseFirst (bs : List UInt8) : Prop :=
  HEADER_SIZE ≤ bs.length →
    headerOpcode bs ≠ SERVER_PONG ∧ seatEvent (headerOpcode bs) = none

/-- Number events from `n` on. -/
def numberFrom (n : Nat) (evs : List SeatEvent) : List PendingEvent :=
  evs.mapIdx fun i ev => ⟨ev, n + i⟩

theorem numberFrom_append (n : Nat) (xs ys : List SeatEvent) :
    numberFrom n (xs ++ ys) = numberFrom n xs ++ numberFrom (n + xs.length) ys := by
  unfold numberFrom
  rw [List.mapIdx_append]
  congr 1
  exact List.mapIdx_eq_mapIdx_iff.mpr (by intros; congr 1; omega)

/-! ## What the backend has accounted for -/

/-- The backend has lost and mixed up nothing: what it has taken off the connection is a
sequence of whole frames and all but `n` bytes of a response, and the seat events among them
are those it has told the listener about and those it holds, in this order. -/
structure Backend.Within (n : Nat) (b : Backend) : Prop where
  room : b.connection.inp.size ≤ CONNECTION_BUFFER_SIZE
  stream : ∃ taken, b.input = taken ++ b.connection.inp.toList
    ∧ ∀ rest, seatEvents (taken ++ rest) = b.received ++ seatEventsAfter n rest
  order : b.callbacks ++ b.pendingEvents.reverse = numberFrom 0 b.received
  detached : ∀ f ∈ b.frames, f.list = []

/-- A backend in error has nothing to account for. -/
def Backend.Good (n : Nat) (b : Backend) : Prop := b.error = false → b.Within n

/-- As `Good`, and with no event or pong at the front of the in ring. -/
def Backend.Ready (b : Backend) : Prop :=
  b.error = false → b.Within 0 ∧ ResponseFirst b.connection.inp.toList

@[grind ←] theorem Backend.Ready.good {b : Backend} (h : b.Ready) : b.Good 0 := fun he => (h he).1

@[grind ←] theorem Backend.good_of_error {b : Backend} {n : Nat} (h : b.error = true) : b.Good n :=
  fun he => nomatch h.symm.trans he

@[grind ←] theorem Backend.ready_of_error {b : Backend} (h : b.error = true) : b.Ready :=
  fun he => nomatch h.symm.trans he

theorem Backend.within_zero : Backend.zero.Within 0 where
  room := by decide
  stream := ⟨[], rfl, fun _ => rfl⟩
  order := rfl
  detached := nofun

/-- Only the in ring and the records of what came in matter. -/
theorem Backend.Within.same {b b' : Backend} {n : Nat} (h : b.Within n)
    (hinp : b'.connection.inp = b.connection.inp) (hinput : b'.input = b.input)
    (hreceived : b'.received = b.received) (hcallbacks : b'.callbacks = b.callbacks)
    (hpending : b'.pendingEvents = b.pendingEvents) (hframes : b'.frames = b.frames) :
    b'.Within n where
  room := hinp ▸ h.room
  stream := by rw [hinp, hinput, hreceived]; exact h.stream
  order := by rw [hcallbacks, hpending, hreceived]; exact h.order
  detached := hframes ▸ h.detached

section Taken

variable {b : Backend} {n count : Nat} {data header : List UInt8} {conn : Connection}

theorem get_toList (h : connectionGet b.connection count = (.ok data, conn)) :
    b.connection.inp.toList = data ++ conn.inp.toList ∧ data.length = count := by
  obtain ⟨hle, rfl, rfl⟩ := connectionGet_eq_ok h
  refine ⟨?_, by simp [hle]⟩
  rw [toList_skip size_dvd _ hle, List.take_append_drop]

theorem get_size (h : connectionGet b.connection count = (.ok data, conn)) :
    conn.inp.size + count = b.connection.inp.size := by
  obtain ⟨hlist, hlen⟩ := get_toList h
  have := congrArg List.length hlist
  simp only [toList_length, List.length_append] at this
  omega

theorem restore_get (h : connectionGet b.connection count = (.ok data, conn)) :
    connectionRestore conn count = b.connection := by
  obtain ⟨-, -, rfl⟩ := connectionGet_eq_ok h
  exact connectionRestore_skip b.connection count

theorem headerOpcode_get (h : connectionGet b.connection HEADER_SIZE = (.ok header, conn)) :
    headerOpcode header = headerOpcode b.connection.inp.toList := by
  obtain ⟨-, rfl, -⟩ := connectionGet_eq_ok h
  simp [headerOpcode, bytesUint16, List.getD, HEADER_SIZE]

/-- Taking `data` off the connection, when it brings the given events. -/
theorem Backend.Within.take {m : Nat} {b' : Backend} (evs : List SeatEvent) (h : b.Within n)
    (hget : connectionGet b.connection count = (.ok data, conn))
    (hevs : ∀ rest, seatEventsAfter n (data ++ rest) = evs ++ seatEventsAfter m rest)
    (hinp : b'.connection.inp = conn.inp) (hinput : b'.input = b.input)
    (hreceived : b'.received = b.received ++ evs) (hcallbacks : b'.callbacks = b.callbacks)
    (hpending : b'.pendingEvents
      = (numberFrom b.received.length evs).reverse ++ b.pendingEvents)
    (hframes : b'.frames = b.frames) : b'.Within m := by
  obtain ⟨hle, -, hconn⟩ := connectionGet_eq_ok hget
  obtain ⟨taken, hin, hevents⟩ := h.stream
  refine ⟨?_, ⟨taken ++ data, ?_, fun rest => ?_⟩, ?_, hframes ▸ h.detached⟩
  · rw [hinp, hconn, show ({ b.connection with inp := b.connection.inp.skip count } : Connection).inp
      = b.connection.inp.skip count from rfl, size_skip _ hle]
    exact (Nat.sub_le _ _).trans h.room
  · rw [hinput, hin, hinp, (get_toList hget).1, List.append_assoc]
  · rw [List.append_assoc, hevents, hevs, hreceived, List.append_assoc]
  · rw [hcallbacks, hpending, hreceived, numberFrom_append, ← h.order]
    simp

theorem Backend.Within.payload (h : b.Within n) (hle : count ≤ n)
    (hget : connectionGet b.connection count = (.ok data, conn)) :
    { b with connection := conn }.Within (n - count) := by
  have hlen := (get_toList hget).2
  refine h.take [] hget (fun rest => ?_) rfl rfl (by simp) rfl (by simp [numberFrom]) rfl
  rw [seatEventsAfter_append rest (by omega), hlen]
  rfl

section Header

variable (h : b.Within 0) (hget : connectionGet b.connection HEADER_SIZE = (.ok header, conn))
include h hget

theorem Backend.Within.response (hpong : headerOpcode header ≠ SERVER_PONG)
    (hev : seatEvent (headerOpcode header) = none) :
    { b with connection := conn }.Within (headerSize header) := by
  refine h.take [] hget (fun rest => ?_) rfl rfl (by simp) rfl (by simp [numberFrom]) rfl
  rw [seatEventsAfter_header (get_toList hget).2, if_neg hpong, hev]
  rfl

theorem Backend.Within.pong (hpong : headerOpcode header = SERVER_PONG) :
    { b with connection := conn, awaitingPong := false }.Within 0 := by
  refine h.take [] hget (fun rest => ?_) rfl rfl (by simp) rfl (by simp [numberFrom]) rfl
  rw [seatEventsAfter_header (get_toList hget).2, if_pos hpong]
  rfl

/-- Looking at a response's header and putting it back. -/
theorem Backend.Within.restored (hpong : headerOpcode header ≠ SERVER_PONG)
    (hev : seatEvent (headerOpcode header) = none) :
    { b with connection := connectionRestore conn HEADER_SIZE }.Within 0
      ∧ ResponseFirst (connectionRestore conn HEADER_SIZE).inp.toList := by
  rw [restore_get hget]
  refine ⟨h, fun _ => ?_⟩
  rw [← headerOpcode_get hget]
  exact ⟨hpong, hev⟩

theorem Backend.Within.event {ev : SeatEvent} (hpong : headerOpcode header ≠ SERVER_PONG)
    (hev : seatEvent (headerOpcode header) = some ev) :
    { b with
      connection := conn
      pendingEvents := ⟨ev, b.received.length⟩ :: b.pendingEvents
      received := b.received ++ [ev] }.Within 0 := by
  refine h.take [ev] hget (fun rest => ?_) rfl rfl rfl rfl (by simp [numberFrom]) rfl
  rw [seatEventsAfter_header (get_toList hget).2, if_neg hpong, hev]
  rfl

end Header

theorem Backend.Good.payload (h : b.Good n) (hle : count ≤ n)
    (hget : connectionGet b.connection count = (.ok data, conn)) :
    { b with connection := conn }.Good (n - count) :=
  fun he => (h he).payload hle hget

theorem Backend.Ready.response (h : b.Ready)
    (hget : connectionGet b.connection HEADER_SIZE = (.ok header, conn)) :
    { b with connection := conn }.Good (headerSize header) := by
  intro he
  obtain ⟨hwithin, hfirst⟩ := h he
  obtain ⟨hpong, hev⟩ := hfirst (by simpa using (connectionGet_eq_ok hget).1)
  rw [← headerOpcode_get hget] at hpong hev
  exact hwithin.response hget hpong hev

end Taken

/-- Bytes that arrive go behind what is there. -/
theorem Backend.Within.read {b : Backend} {n : Nat} (h : b.Within n) (results : List RecvResult) :
    (b.read results).Within n := by
  obtain ⟨bytes, hbytes, hroom, -⟩ := connectionRead_appends b.connection results h.room
  obtain ⟨taken, hin, hevents⟩ := h.stream
  refine ⟨hroom, ⟨taken, ?_, hevents⟩, h.order, h.detached⟩
  have hinput : (b.read results).input = b.input ++ bytes := by
    show b.input ++ _ = _
    rw [hbytes, List.drop_left' (toList_length _)]
  have hring : (b.read results).connection.inp.toList = b.connection.inp.toList ++ bytes := hbytes
  rw [hinput, hring, hin, List.append_assoc]

@[grind ←] theorem Backend.Good.read {b : Backend} {n : Nat} (h : b.Good n)
    (results : List RecvResult) : (b.read results).Good n :=
  fun he => (h he).read results

theorem Backend.Ready.read_fail {b : Backend} (h : b.Ready) {results : List RecvResult} {e : Nat}
    (hfail : (connectionRead b.connection results).1 = .error e) : (b.read results).Ready := by
  intro he
  obtain ⟨hwithin, hfirst⟩ := h he
  obtain ⟨bytes, hbytes, -, hnone⟩ := connectionRead_appends b.connection results hwithin.room
  refine ⟨hwithin.read results, ?_⟩
  show ResponseFirst (connectionRead b.connection results).2.1.inp.toList
  rw [hbytes, hnone e hfail, List.append_nil]
  exact hfirst

/-! ## The computations of the backend -/

@[spec] theorem setError_spec :
    ⦃⌜True⌝⦄ setError ⦃⇓ _ b => ⌜b.error = true⌝⦄ := by
  mvcgen [setError]
  next b _ =>
    show (if b.error then b else _).error = true
    cases h : b.error
    · rfl
    · exact h

@[spec] theorem connPut_spec (data : List UInt8) (results : List SendResult) :
    ⦃fun b => ⌜b.Good 0⌝⦄ connPut data results
    ⦃post⟨fun _ b => ⌜b.Good 0⌝, fun _ b => ⌜b.error = true⌝⟩⦄ := by
  mvcgen [connPut, connSend]
  next h _ _ _ _ => exact fun he => (h he).same (connectionPut_inp _ data results) rfl rfl rfl rfl rfl

@[spec] theorem connFlush_spec (results : List SendResult) :
    ⦃fun b => ⌜b.Good 0⌝⦄ connFlush results
    ⦃post⟨fun _ b => ⌜b.Good 0⌝, fun _ b => ⌜b.error = true⌝⟩⦄ := by
  mvcgen [connFlush, connSend]
  next h _ _ _ _ => exact fun he => (h he).same (connectionFlush_inp _ results) rfl rfl rfl rfl rfl

@[spec] theorem connPutAll_spec (a : Answers) (parts : List (List UInt8)) :
    ∀ i, ⦃fun b => ⌜b.Good 0⌝⦄ connPutAll a i parts
      ⦃post⟨fun _ b => ⌜b.Good 0⌝, fun _ b => ⌜b.error = true⌝⟩⦄ := by
  induction parts with
  | nil => intro i; mvcgen [connPutAll]
  | cons data parts ih => intro i; mvcgen [connPutAll, ih]

@[spec] theorem sendRequest_spec (a : Answers) (r : Request) :
    ⦃fun b => ⌜b.Good 0⌝⦄ sendRequest a r
    ⦃post⟨fun _ b => ⌜b.Good 0⌝, fun _ b => ⌜b.error = true⌝⟩⦄ := by
  mvcgen [sendRequest]

@[spec] theorem connGetFd_spec :
    ⦃fun b => ⌜b.Good 0⌝⦄ connGetFd
    ⦃post⟨fun _ b => ⌜b.Good 0⌝, fun _ b => ⌜b.error = true⌝⟩⦄ := by
  mvcgen [connGetFd]
  next b h _ _ hget _ =>
    have hinp := connectionGetFd_inp b.connection
    rw [hget] at hinp
    exact fun he => (h he).same hinp rfl rfl rfl rfl rfl

@[spec] theorem readHeader_spec (expectedOpcode expectedSize : Nat) (variableSize : Bool) :
    ⦃fun b => ⌜b.Ready⌝⦄ readHeader expectedOpcode expectedSize variableSize
    ⦃post⟨fun size b => ⌜b.Good size
        ∧ if variableSize then expectedSize ≤ size else size = expectedSize⌝,
      fun _ b => ⌜b.Good 0⌝⟩⦄ := by
  mvcgen [readHeader, connGet] <;> try grind
  · next h header _ hget _ _ _ herr _ _ hpayload _ =>
      have hsize : headerSize header = SERVER_ERROR_SIZE := by
        by_contra hne
        exact herr (.inr hne)
      have hgood := (h.response hget).payload hsize.ge hpayload
      rwa [hsize, Nat.sub_self] at hgood
  · next h _ _ hget _ _ _ hsize =>
      refine ⟨h.response hget, ?_⟩
      cases variableSize <;> simpa using hsize

/-- A turn that takes a header leaves fewer bytes for the remaining turns. -/
theorem turn_size {b : Backend} {header : List UInt8} {conn : Connection} {turns : Nat}
    (hget : connectionGet b.connection HEADER_SIZE = (.ok header, conn))
    (hlt : b.connection.inp.size < HEADER_SIZE * (turns + 1)) :
    conn.inp.size < HEADER_SIZE * turns := by
  have hsize := get_size hget
  rw [Nat.mul_add_one] at hlt
  omega

theorem readAndQueueLoop_spec (a : Answers) (wanted : Bool) (turns : Nat) : ∀ packets,
    ⦃fun b => ⌜b.error = false → b.Within 0 ∧ b.connection.inp.size < HEADER_SIZE * turns⌝⦄
      readAndQueueLoop a wanted turns packets
    ⦃post⟨fun _ b => ⌜b.Ready⌝, fun _ b => ⌜b.error = true⌝⟩⦄ := by
  induction turns with
  | zero =>
      intro packets
      mvcgen [readAndQueueLoop]
      next h => exact fun he => absurd (h he).2 (Nat.not_lt_zero _)
  | succ turns ih =>
      intro packets
      mvcgen [readAndQueueLoop, queueEvent, ih]
      · -- fewer bytes than a header
        next h _ _ hget =>
          exact fun he => ⟨(h he).1, fun hlen =>
            absurd hlen (by rw [toList_length]; exact (connectionGet_eq_error hget).not_ge)⟩
      · next h _ _ hget _ hpong _ =>
          refine fun he => ⟨(h he).1.pong hget hpong, ?_⟩
          exact turn_size hget (h he).2
      · next h _ _ hget _ hpong _ hev _ =>
          refine fun he => ⟨(h he).1.event hget hpong hev, ?_⟩
          exact turn_size hget (h he).2
      · next h _ _ hget _ hpong hev _ _ _ =>
          exact fun he => (h he).1.restored hget hpong hev

@[spec] theorem readAndQueue_spec (a : Answers) (wanted : Bool) :
    ⦃fun b => ⌜b.Good 0⌝⦄ readAndQueue a wanted
    ⦃post⟨fun _ b => ⌜b.Ready⌝, fun _ b => ⌜b.error = true⌝⟩⦄ := by
  mvcgen [readAndQueue, readAndQueueLoop_spec]
  next b h =>
    refine fun he => ⟨h he, ?_⟩
    show b.connection.inp.size < 4 * (b.connection.inp.size + 1)
    omega

@[spec] theorem checkPendingEvents_spec (a : Answers) :
    ⦃fun b => ⌜b.Good 0⌝⦄ checkPendingEvents a
    ⦃post⟨fun _ b => ⌜b.Good 0⌝, fun _ b => ⌜b.Good 0⌝⟩⦄ := by
  mvcgen [checkPendingEvents, sendPing] <;> try grind
  next h _ => exact fun he => (h he).same rfl rfl rfl rfl rfl rfl

theorem pollConnection_spec {P : Backend → Prop} (a : Answers) (hgood : ∀ b, P b → b.Good 0)
    (herror : ∀ b, b.error = true → P b)
    (hfail : ∀ b e, P b → (connectionRead b.connection a.recv).1 = .error e → P (b.read a.recv)) :
    ⦃fun b => ⌜P b⌝⦄ pollConnection a ⦃post⟨fun _ b => ⌜b.Good 0⌝, fun _ b => ⌜P b⌝⟩⦄ := by
  mvcgen [pollConnection, connRead] <;> grind

@[spec] theorem seatOpened_spec :
    ⦃fun b => ⌜b.Ready⌝⦄ seatOpened
    ⦃post⟨fun _ b => ⌜b.Good 0⌝, fun _ _ => ⌜True⌝⟩⦄ := by
  mvcgen [seatOpened, connGet]
  next size _ _ _ hlen _ _ hsize _ _ _ hname _ _ _ _ _ h =>
    have hle : 2 ≤ size := by simpa using h.2
    have hgood := (h.1.payload hle hlen).payload (not_not.mp hsize).le hname
    rw [not_not.mp hsize, Nat.sub_self] at hgood
    exact fun he => (hgood he).same rfl rfl rfl rfl rfl rfl

@[spec] theorem readResponse_spec (r : Request) :
    ⦃fun b => ⌜b.Ready⌝⦄ readResponse r
    ⦃post⟨fun _ b => ⌜b.Good 0⌝, fun _ b => ⌜b.Good 0⌝⟩⦄ := by
  cases r <;> mvcgen [readResponse, connGet] <;> try grind
  next size b h _ _ hget _ =>
    have hsize : size = 4 := h.2
    have hgood := h.1.payload hsize.ge hget
    rwa [hsize, Nat.sub_self] at hgood

/-! ## The entry points -/

/-- What holds when the library gives up control. -/
@[grind] def Next.Holds (b : Backend) : Next → Prop
  | .waits _ => b.Ready
  | .destroys _ => True
  | _ => b.Good 0

@[grind ←] theorem replied_holds {b : Backend} (h : b.Good 0) (r : Request)
    (reply : Except Int Reply) : (replied r reply).Holds b := by
  unfold replied
  split <;> split
  · exact h
  · exact h
  · exact h
  · split <;> exact h

@[spec] theorem finish_spec (a : Answers) (r : Request) (outcome : Except Int Unit) :
    ⦃fun b => ⌜b.Ready⌝⦄ finish a r outcome ⦃⇓ next b => ⌜next.Holds b⌝⦄ := by
  cases r <;> mvcgen [finish] <;> try grind

@[spec] theorem awaitResponse_spec (a : Answers) (r : Request) :
    ⦃fun b => ⌜b.Good 0⌝⦄ awaitResponse a r ⦃⇓ next b => ⌜next.Holds b⌝⦄ := by
  mvcgen [awaitResponse]
  grind

theorem wake_spec (a : Answers) (r : Request) :
    ⦃fun b => ⌜b.Ready⌝⦄ wake a r ⦃⇓ next b => ⌜next.Holds b⌝⦄ := by
  have hpoll := pollConnection_spec (P := Backend.Ready) a (fun _ h => h.good)
    (fun _ => Backend.ready_of_error) (fun _ _ h => h.read_fail)
  mvcgen [wake, hpoll]

@[spec] theorem request_spec (a : Answers) (r : Request) :
    ⦃fun b => ⌜b.Good 0⌝⦄ request a r ⦃⇓ next b => ⌜next.Holds b⌝⦄ := by
  mvcgen [request]
  grind

theorem call_spec (a : Answers) (r : Request) :
    ⦃fun b => ⌜b.Good 0⌝⦄ call a r ⦃⇓ next b => ⌜next.Holds b⌝⦄ := by
  mvcgen [call]

theorem dispatch_spec (a : Answers) (timeout : Int) :
    ⦃fun b => ⌜b.Good 0⌝⦄ dispatch a timeout ⦃⇓ next b => ⌜next.Holds b⌝⦄ := by
  mvcgen [dispatch] <;> grind

theorem afterEvents_spec (a : Answers) (executed : Nat) (k : Cont) :
    ⦃fun b => ⌜b.Good 0⌝⦄ afterEvents a executed k ⦃⇓ next b => ⌜next.Holds b⌝⦄ := by
  have hpoll := pollConnection_spec (P := Backend.Good 0) a (fun _ h => h)
    (fun _ => Backend.good_of_error) (fun _ _ h _ => h.read a.recv)
  cases k <;> mvcgen [afterEvents, dispatchRead, connRead, postdispatch, hpoll] <;> grind

/-! ## Moves -/

theorem holds_of_triple {P : Backend → Prop} {m : StateM Backend Next}
    (h : ⦃fun b => ⌜P b⌝⦄ m ⦃⇓ next b => ⌜next.Holds b⌝⦄) {b : Backend} (hb : P b) :
    (m.run b).1.Holds (m.run b).2 :=
  h b hb

/-- The invariant of runs in which `execute_events` never finds two events. -/
structure Session.Inv (s : Session) : Prop where
  good : s.backend.Good 0
  ready : ∀ r, s.control = .waiting r → s.backend.Ready

theorem Session.inv_init : Session.init.Inv :=
  ⟨fun _ => Backend.within_zero, fun _ hw => by cases hw⟩

theorem Session.inv_enter {s : Session} {m : StateM Backend Next}
    (h : (m.run s.backend).1.Holds (m.run s.backend).2) : (s.enter m).Inv := by
  unfold Session.enter
  dsimp only
  split <;> rename_i heq <;> rw [heq] at h
  · exact ⟨h, fun _ hw => (nomatch hw)⟩
  · exact ⟨h.good, fun _ _ => h⟩
  · exact ⟨h, fun _ hw => (nomatch hw)⟩
  · exact ⟨fun _ => Backend.within_zero, fun _ hw => (nomatch hw)⟩
  · exact ⟨h, fun _ hw => (nomatch hw)⟩

/-- The move is not a call of `execute_events` that finds two events or more. -/
def Session.OneAtATime (s : Session) : Move → Prop
  | .execute _ =>
      (∃ k, s.control = .executing k) → s.backend.error = false → s.backend.pendingEvents.length ≤ 1
  | _ => True

/-- A callback with the only event held. -/
theorem Backend.Within.callback {b : Backend} {ev : PendingEvent} (h : b.Within 0)
    (hpending : b.pendingEvents = [ev]) (executed : Nat) (k : Cont) :
    { b with
      pendingEvents := []
      callbacks := b.callbacks ++ [ev]
      frames := ⟨[], executed, k⟩ :: b.frames }.Within 0 where
  room := h.room
  stream := h.stream
  order := by simpa [hpending] using h.order
  detached := by
    intro f hf
    rcases List.mem_cons.mp hf with rfl | hf
    · rfl
    · exact h.detached f hf

/-- **What a move keeps.** -/
theorem Session.inv_step {s : Session} (h : s.Inv) (m : Move) (hone : s.OneAtATime m) :
    (s.step m).Inv := by
  induction m using Session.step_cases (s := s) with
  | same => exact h
  | openSeat a hc => exact inv_enter (holds_of_triple (request_spec a .openSeat) h.good)
  | call r a hc _ => exact inv_enter (holds_of_triple (call_spec a _) h.good)
  | dispatch timeout a hc => exact inv_enter (holds_of_triple (dispatch_spec a timeout) h.good)
  | wake a r hc => exact inv_enter (holds_of_triple (wake_spec a r) (h.ready r hc))
  | execute a k hc =>
      have hle := hone ⟨k, hc⟩
      cases hpending : s.backend.pendingEvents with
      | nil =>
          apply Session.inv_enter
          apply holds_of_triple (afterEvents_spec a 0 k)
          exact fun he => (h.good he).same rfl rfl rfl rfl hpending.symm rfl
      | cons ev list =>
          refine ⟨fun he => ?_, fun _ hw => (nomatch hw)⟩
          have hlist : list = [] := by simpa [hpending] using hle he
          subst hlist
          exact (h.good he).callback hpending 1 k
  | callbackReturn a f frames hc hframes =>
      have hempty : s.backend.error = false → f.list = [] := fun he =>
        (h.good he).detached f (hframes ▸ List.mem_cons_self)
      unfold Session.executeEvents
      split
      · apply Session.inv_enter
        apply holds_of_triple (afterEvents_spec a f.executed f.cont)
        intro he
        obtain ⟨hroom, hstream, horder, hdetached⟩ := h.good he
        exact ⟨hroom, hstream, horder,
          fun g hg => hdetached g (hframes ▸ List.mem_cons_of_mem f hg)⟩
      · rename_i heq
        exact ⟨fun he => (nomatch heq.symm.trans (hempty he)), fun _ hw => (nomatch hw)⟩

/-! ## Order -/

/-- The events of the stream received so far are, in this order, those the listener was called
with, those pending, and those in frames that are still to be looked at. -/
def Backend.InOrder (b : Backend) : Prop :=
  b.callbacks ++ b.pendingEvents.reverse
      ++ numberFrom b.received.length (seatEvents b.connection.inp.toList)
    = numberFrom 0 (seatEvents b.input)

instance (b : Backend) : Decidable b.InOrder := inferInstanceAs (Decidable (_ = _))

theorem Backend.Within.inOrder {b : Backend} (h : b.Within 0) : b.InOrder := by
  obtain ⟨taken, hin, hevents⟩ := h.stream
  unfold Backend.InOrder
  rw [h.order, hin, hevents, numberFrom_append, Nat.zero_add]
  rfl

/-- An event's number is its place. -/
theorem number_eq_length {xs ys : List PendingEvent} {ev : PendingEvent} {evs : List SeatEvent}
    (h : xs ++ ev :: ys = numberFrom 0 evs) : ev.number = xs.length := by
  have hget : (numberFrom 0 evs)[xs.length]? = some ev := by rw [← h]; simp
  unfold numberFrom at hget
  rw [List.getElem?_mapIdx, Option.map_eq_some_iff] at hget
  obtain ⟨_, -, rfl⟩ := hget
  simp

/-- A call of `execute_events` that finds two events begins with the later one. -/
theorem Session.oneAtATime_of_inOrder {s : Session} (h : s.Inv) (m : Move)
    (hnext : (s.step m).backend.error = false → (s.step m).backend.InOrder) : s.OneAtATime m := by
  cases m with
  | execute a =>
      rintro ⟨k, hk⟩ he
      cases hpending : s.backend.pendingEvents with
      | nil => simp
      | cons ev list =>
          have hstep : s.step (.execute a)
              = { s with
                  backend := { s.backend with
                    pendingEvents := []
                    callbacks := s.backend.callbacks ++ [ev]
                    frames := ⟨list, 1, k⟩ :: s.backend.frames }
                  control := .app } := by
            simp only [Session.step, hk, hpending, Session.executeEvents]
          rw [hstep] at hnext
          have hfirst := hnext he
          have horder := (h.good he).order
          simp only [Backend.InOrder, List.reverse_nil, List.append_nil, List.append_assoc,
            List.singleton_append] at hfirst
          rw [hpending, List.reverse_cons, ← List.append_assoc] at horder
          have hearly := number_eq_length hfirst
          have hlate := number_eq_length horder
          simp only [List.length_append, List.length_reverse] at hlate
          rw [List.length_cons]
          omega
  | _ => trivial

/-- **Seat events are delivered in order, one at a time.** Over a whole run of calls, callbacks
and answers of the kernel, as long as the backend is not in error, the listener has been called
with the events of the byte stream in the order in which they came, each once, and the events
it has not been called with are held in this order, if and only if `execute_events` never finds
more than one pending event. -/
theorem events_in_order_iff (moves : List Move) :
    (∀ pre, pre <+: moves → (Session.run pre).backend.error = false →
        (Session.run pre).backend.InOrder)
      ↔ Run.Meets Session.step Session.OneAtATime Session.init moves :=
  Run.forall_prefix_iff_meets (I := Session.Inv)
    (P := fun s => s.backend.error = false → s.backend.InOrder)
    (fun _ h he => (h.good he).inOrder) (fun _ m h hone => Session.inv_step h m hone)
    (fun _ m h hnext => Session.oneAtATime_of_inOrder h m hnext)
    Session.inv_init moves

/-- A kernel that takes whatever is sent and has the given messages of the daemon to read. -/
def Answers.hears (msgs : List ServerMsg) : Answers where
  sends _ := [.sent CONNECTION_BUFFER_SIZE]
  poll := .ready false true
  recv := [.data (msgs.flatMap fun m => m.parts.flatten) []]
  calloc _ := true

/-- The daemon opens a seat, enables it and disables it again before the application
dispatches. -/
def enabledAndDisabled : List Move :=
  [.call .openSeat (.hears []),
    .wake (.hears [.seatOpened (ascii ['s', 'e', 'a', 't', '0']), .enableSeat, .disableSeat]),
    .execute (.hears []), .dispatch 0 (.hears []), .execute (.hears []),
    .callbackReturn (.hears [])]

/-- The listener is told that the seat is disabled, and then that it is enabled. -/
theorem disable_overtakes_enable :
    (Session.run enabledAndDisabled).backend.error = false
      ∧ seatEvents (Session.run enabledAndDisabled).backend.input = [.enableSeat, .disableSeat]
      ∧ (Session.run enabledAndDisabled).backend.callbacks.map PendingEvent.opcode
        = [.disableSeat, .enableSeat]
      ∧ ¬ (Session.run enabledAndDisabled).backend.InOrder := by
  decide +kernel

end DdeSeatd.Libseat
