import DdeSeatd.Libseat.Rules

set_option autoImplicit false

/-! # `dispatch` on a connection that the daemon has closed

When the daemon has closed the connection and nothing is left to read, `recvmsg` returns 0 and
`poll` is ready. `connection_read` returns the number of bytes in the ring, so it returns 0 only
if no part of a frame is left there; and `dispatch` takes a 0 for an error only where it polls. A
call that does not poll, or that finds a part of a frame, does not notice the end of the stream.
`closed_connection_reported` says, by the backend before the call that executes the last events,
when that call or the following one notices it.

The first call runs the application's callbacks, which may call the library again. Whatever they
do, the backend is `Dry` when it returns: it is in error, or it has no event left and no more bytes
than those behind the last whole header.
-/

namespace DdeSeatd.Libseat

open Fallible

/-- The kernel once the daemon has closed the connection and all its bytes are read. -/
def Answers.AtEnd (a : Answers) : Prop :=
  (∃ hangup, a.poll = .ready hangup true) ∧ recvmsgLoop a.recv = .data [] []

/-- `poll` reports a hangup or an error. -/
def Answers.hangsUp (a : Answers) : Bool :=
  match a.poll with
  | .ready hangup _ => hangup
  | .fail _ => false

/-- In error, or without an event, and with too few bytes for a header and fewer than `n`. -/
def Backend.Dry (n : Nat) (b : Backend) : Prop :=
  b.error = true ∨ b.Short ∧ b.connection.inp.size < n ∧ b.pendingEvents = []

theorem Backend.dry_failed {n : Nat} (b : Backend) : b.failed.Dry n := .inl (failed_error b)

/-- There is nothing to take where a header does not fit. -/
theorem readAndQueue_short (a : Answers) (wanted : Bool) {b : Backend} (h : b.Short) :
    outcome (readAndQueue a wanted) b = (.ok (0, 0), b) := by
  unfold readAndQueue
  rw [outcome_bind, outcome_get]
  dsimp only
  unfold readAndQueueLoop
  rw [outcome_bind, outcome_get]
  dsimp only
  rw [connectionGet_short b.connection h]
  rfl

/-- Only the in ring, the pending events and the error matter. -/
theorem Backend.closed_dry (n : Nat) : Closed (Backend.Dry n) where
  failed := Backend.dry_failed
  same h herror hinp hpending := by
    rcases h with he | ⟨hshort, hless, hnone⟩
    · exact .inl (herror.trans he)
    · exact .inr ⟨hinp.trans_lt hshort, hinp.trans_lt hless, hpending.trans hnone⟩
  queue a wanted b hb := by
    rcases hb with he | hb
    · exact .inl (closed_error.queue a wanted b he)
    · rw [readAndQueue_short a wanted hb.1]
      exact .inr hb

/-! ## Reading at the end of the stream -/

section

variable {n : Nat} {a : Answers} (hend : a.AtEnd) {b : Backend}
include hend

theorem connectionRead_atEnd (h : b.Short) :
    connectionRead b.connection a.recv = (.ok b.connection.inp.size, b.connection, []) :=
  connectionRead_eof b.connection (h.trans (by decide)) hend.2

/-- A read changes nothing. -/
theorem read_atEnd (h : b.Short) : b.read a.recv = b := by
  unfold Backend.read
  rw [connectionRead_atEnd hend h]
  dsimp only
  rw [List.drop_eq_nil_of_le (RingBuffer.toList_length _).le, List.append_nil]

theorem connRead_short (h : b.Short) :
    outcome (connRead a) b = (.ok (.ok b.connection.inp.size), b) := by
  show (Except.ok (connectionRead b.connection a.recv).1, b.read a.recv) = _
  rw [connectionRead_atEnd hend h, read_atEnd hend h]

theorem Backend.Dry.read (h : b.Dry n) : (b.read a.recv).Dry n := by
  rcases h with he | hb
  · exact .inl he
  · rw [read_atEnd hend hb.1]
    exact .inr hb

/-- A part of a frame in the ring hides the end of the stream. -/
theorem pollConnection_short (h : b.Short) :
    outcome (pollConnection a) b =
      if a.hangsUp then (.error (EPIPE : Int), b.failed)
      else if b.connection.inp.size = 0 then (.error (Int.ofNat EIO), b.failed)
      else (.ok b.connection.inp.size, b) := by
  obtain ⟨⟨hangup, hpoll⟩, -⟩ := id hend
  unfold pollConnection Answers.hangsUp
  rw [hpoll]
  cases hangup with
  | true => rfl
  | false =>
      show outcome (connRead a >>= _) b = _
      rw [outcome_bind, connRead_short hend h]
      dsimp only
      by_cases hzero : b.connection.inp.size = 0
      · rw [if_pos hzero, if_neg Bool.false_ne_true, if_pos hzero]
        rfl
      · rw [if_neg hzero, if_neg Bool.false_ne_true, if_neg hzero]
        rfl

end

/-! ## The first call

Before it the ring may hold anything. -/

/-- Every whole header among the bytes is one of a pong, or of an event that there is memory for
when `n` events came before. -/
def Answers.Takes (a : Answers) : Nat → List UInt8 → Prop
  | n, o₀ :: o₁ :: _ :: _ :: rest =>
      if bytesUint16 [o₀, o₁] = SERVER_PONG then a.Takes n rest
      else seatEvent (bytesUint16 [o₀, o₁]) ≠ none ∧ a.calloc n = true ∧ a.Takes (n + 1) rest
  | _, _ => True

section

variable {a : Answers}

theorem Answers.takes_header {header : List UInt8} (h : header.length = HEADER_SIZE) (n : Nat)
    (rest : List UInt8) :
    a.Takes n (header ++ rest)
      = if headerOpcode header = SERVER_PONG then a.Takes n rest
        else seatEvent (headerOpcode header) ≠ none ∧ a.calloc n = true ∧ a.Takes (n + 1) rest := by
  obtain ⟨_, _, _, _, rfl⟩ := List.length_eq_four.mp h
  rfl

theorem Answers.takes_short {bs : List UInt8} (h : bs.length < HEADER_SIZE) (n : Nat) :
    a.Takes n bs := by
  rcases bs with _ | ⟨_, _ | ⟨_, _ | ⟨_, _ | ⟨_, rest⟩⟩⟩⟩
  · trivial
  · trivial
  · trivial
  · trivial
  · exact absurd h (by simp [HEADER_SIZE])

/-- `read_and_queue` has taken `packets` headers since the backend was `b₀`. -/
structure Backend.Taking (a : Answers) (b₀ : Backend) (packets : Nat) (b : Backend) : Prop where
  error : b.error = b₀.error
  frames : b.frames = b₀.frames
  pending : b.pendingEvents = [] → b₀.pendingEvents = []
  size : b.connection.inp.size % HEADER_SIZE = b₀.connection.inp.size % HEADER_SIZE
  takes : a.Takes b₀.received.length b₀.connection.inp.toList
    ↔ a.Takes b.received.length b.connection.inp.toList
  begun : b = b₀ ∨ 0 < packets

theorem Backend.Taking.turn {b₀ b b' : Backend} {packets : Nat} {header : List UInt8}
    {conn : Connection} (h : b₀.Taking a packets b) (hget : b.Takes header conn)
    (hconn : b'.connection = conn) (herror : b'.error = b.error) (hframes : b'.frames = b.frames)
    (hpending : b'.pendingEvents = [] → b.pendingEvents = [])
    (htakes : a.Takes b.received.length b.connection.inp.toList
      ↔ a.Takes b'.received.length conn.inp.toList) : b₀.Taking a (packets + 1) b' where
  error := herror.trans h.error
  frames := hframes.trans h.frames
  pending := fun hnone => h.pending (hpending hnone)
  size := by rw [hconn, ← h.size, ← get_size hget, Nat.add_mod_right]
  takes := hconn ▸ h.takes.trans htakes
  begun := .inr (Nat.succ_pos packets)

/-- How `read_and_queue` ends that expects no response: it has taken all whole headers, or one was
not to be taken. -/
theorem readAndQueue_took (a : Answers) (b₀ : Backend) :
    Ends (fun p b => a.Takes b₀.received.length b₀.connection.inp.toList
        ∧ b.error = b₀.error ∧ b.frames = b₀.frames
        ∧ (b.pendingEvents = [] → b₀.pendingEvents = [])
        ∧ b.connection.inp.size = b₀.connection.inp.size % HEADER_SIZE
        ∧ (b₀.Short ∨ 0 < p.1))
      (fun _ b => ¬ a.Takes b₀.received.length b₀.connection.inp.toList ∧ b.error = true)
      (outcome (readAndQueue a false) b₀) := by
  have hheader : ∀ {b : Backend} {header conn}, b.Takes header conn →
      a.Takes b.received.length b.connection.inp.toList
        = if headerOpcode header = SERVER_PONG then a.Takes b.received.length conn.inp.toList
          else seatEvent (headerOpcode header) ≠ none ∧ a.calloc b.received.length = true
            ∧ a.Takes (b.received.length + 1) conn.inp.toList := by
    intro b header conn hget
    obtain ⟨hlist, hlen⟩ := get_toList hget
    rw [hlist]
    exact Answers.takes_header hlen _ _
  refine readAndQueue_rule (I := b₀.Taking a) (fun {packets b} h hshort => ?_)
    (fun {packets b header conn} h hget hpong => ?_)
    (fun {packets b header conn ev} h hget hpong hev => ?_)
    (fun {packets b header conn} h hget hresponse => ?_) b₀ ⟨rfl, rfl, id, rfl, .rfl, .inl rfl⟩
  · have hall := h.takes.mpr (Answers.takes_short ((RingBuffer.toList_length _).trans_lt hshort) _)
    refine ⟨hall, h.error, h.frames, h.pending, ?_, h.begun.imp_left fun hsame => ?_⟩
    · rw [← h.size, Nat.mod_eq_of_lt hshort]
    · exact hsame ▸ hshort
  · refine h.turn hget rfl rfl rfl id ?_
    rw [hheader hget, if_pos hpong]
  · have htakes := hheader hget
    rw [if_neg hpong, hev] at htakes
    split_ifs with hmem
    · refine h.turn hget rfl rfl rfl (fun hno => by cases hno) ?_
      rw [htakes, List.length_append]
      exact ⟨fun h => h.2.2, fun h => ⟨Option.some_ne_none ev, hmem, h⟩⟩
    · exact fun _ he => ⟨fun hall => hmem (htakes ▸ h.takes.mp hall).2.1, he⟩
  · have htakes := hheader hget
    rw [if_neg hresponse.1] at htakes
    rw [if_neg Bool.false_ne_true]
    exact fun _ he => ⟨fun hall => (htakes ▸ h.takes.mp hall).1 hresponse.2, he⟩

end

def Move.answers : Move → Answers
  | .call _ a | .dispatch _ a | .wake a | .execute a | .callbackReturn a => a

/-! ## A seat that is closed

The application may close the seat in a callback. It cannot open another one: there is no response
to come. -/

/-- `open_seat` waits, or has given up. -/
def Next.Lost (next : Next) (b : Backend) : Prop :=
  next = .waits .openSeat ∧ b.Short ∨ ∃ result, next = .destroys result

theorem awaitResponse_lost (a : Answers) :
    Yields Backend.Short (awaitResponse a .openSeat) Next.Lost := by
  intro b hb
  unfold awaitResponse
  rw [run_caught, readAndQueue_short a true hb]
  exact .inl ⟨rfl, hb⟩

theorem finish_lost {P : Backend → Prop} (a : Answers) (e : Int) :
    Yields P (finish a .openSeat (.error e)) Next.Lost :=
  yields_pure fun _ _ => .inr ⟨_, rfl⟩

theorem request_lost (a : Answers) : Yields Backend.Short (request a .openSeat) Next.Lost :=
  (sendRequest_sends (fun _ _ _ hinp h => (congrArg _ hinp).trans_lt h) a .openSeat).caught
    (fun _ => awaitResponse_lost a) fun e => finish_lost a e

theorem wake_lost {a : Answers} (hend : a.AtEnd) :
    Yields Backend.Short (wake a .openSeat) Next.Lost := by
  have hpoll : Spec Backend.Short (pollConnection a) (fun _ => Backend.Short)
      fun _ _ => True := by
    intro b hb
    rw [pollConnection_short hend hb]
    split_ifs
    · trivial
    · trivial
    · exact hb
  exact hpoll.caught (fun _ => awaitResponse_lost a) fun e => finish_lost a e

theorem Backend.short_zero : Backend.zero.Short := show (0 : Nat) < 4 by decide

/-- There is no backend, or only one that waits for the response to `open_seat`. -/
def Session.Gone (s : Session) : Prop :=
  (s.control = .closed ∨ s.control = .waiting .openSeat) ∧ s.backend.Short

theorem Session.gone_enter {s : Session} {m : StateM Backend Next}
    (h : (m.run s.backend).1.Lost (m.run s.backend).2) : (s.enter m).Gone := by
  unfold Session.enter
  dsimp only
  rcases h with ⟨hwaits, hshort⟩ | ⟨result, hdestroys⟩
  · rw [hwaits]
    exact ⟨.inr rfl, hshort⟩
  · rw [hdestroys]
    exact ⟨.inl rfl, Backend.short_zero⟩

theorem Session.Gone.step {s : Session} (h : s.Gone) (m : Move) (hend : m.answers.AtEnd) :
    (s.step m).Gone := by
  have happ : s.control ≠ .app := fun hc => by simp [Session.Gone, hc] at h
  induction m using Session.step_cases (s := s) with
  | same => exact h
  | openSeat a hc => exact Session.gone_enter (request_lost a _ h.2)
  | call r a hc _ | dispatch timeout a hc | callbackReturn a f frames hc _ => exact absurd hc happ
  | wake a r hc =>
      obtain rfl : r = .openSeat := by simpa [hc] using h.1
      exact Session.gone_enter (wake_lost hend _ h.2)
  | execute a k hc => simp [Session.Gone, hc] at h

/-! ## Moves -/

theorem Session.enter_returns {s : Session} {m : StateM Backend Next} {b : Backend}
    {result : Except Int Reply} (h : m.run s.backend = (.returns result, b)) :
    s.enter m = { s with backend := b, control := .app, result := some result } := by
  unfold Session.enter
  rw [h]

theorem Session.enter_executes {s : Session} {m : StateM Backend Next} {b : Backend} {k : Cont}
    (h : m.run s.backend = (.executes k, b)) :
    s.enter m = { s with backend := b, control := .executing k } := by
  unfold Session.enter
  rw [h]

/-- The backend is dry, but for the events that `execute_events` is about to take, or the seat is
closed. -/
def Session.Ebbs (n : Nat) (s : Session) : Prop :=
  s.backend.Dry n
    ∨ (∃ k, s.control = .executing k) ∧ s.backend.Short ∧ s.backend.connection.inp.size < n
    ∨ s.Gone

section

variable {n : Nat} {s : Session}

theorem Session.ebbs_enter {m : StateM Backend Next} (hm : Stays (Backend.Dry n) m)
    (h : s.backend.Dry n) : (s.enter m).Ebbs n := by
  have hmid := hm s.backend h
  unfold Session.enter
  dsimp only
  cases (m.run s.backend).1 with
  | returns _ | waits _ | executes _ | aborts => exact .inl hmid
  | destroys _ => exact .inr (.inr ⟨.inl rfl, Backend.short_zero⟩)

theorem Session.ebbs_executeEvents {a : Answers} (hend : a.AtEnd) (h : s.backend.Dry n)
    (list : List PendingEvent) (executed : Nat) (k : Cont) :
    (s.executeEvents a list executed k).Ebbs n := by
  cases list with
  | nil =>
      exact Session.ebbs_enter
        ((Backend.closed_dry n).afterEvents (fun _ => Backend.Dry.read hend) executed k) h
  | cons ev list => exact .inl ((Backend.closed_dry n).same h rfl le_rfl rfl)

theorem Session.Ebbs.dry (h : s.Ebbs n) (hgone : ¬ s.Gone) (hcontrol : ∀ k, s.control ≠ .executing k) :
    s.backend.Dry n :=
  h.resolve_right (not_or_intro (fun hexecuting => hexecuting.1.elim hcontrol) hgone)

/-- **Whatever the application does, the backend stays dry.** -/
theorem Session.Ebbs.step (h : s.Ebbs n) (m : Move) (hend : m.answers.AtEnd) :
    (s.step m).Ebbs n := by
  by_cases hgone : s.Gone
  · exact .inr (.inr (hgone.step m hend))
  have hdry := h.dry hgone
  have hclosed := Backend.closed_dry n
  induction m using Session.step_cases (s := s) with
  | same => exact h
  | openSeat a hc => exact Session.ebbs_enter (hclosed.request a _) (hdry (by simp [hc]))
  | call r a hc _ => exact Session.ebbs_enter (hclosed.call a _) (hdry (by simp [hc]))
  | dispatch timeout a hc => exact Session.ebbs_enter (hclosed.dispatch a timeout) (hdry (by simp [hc]))
  | wake a r hc =>
      exact Session.ebbs_enter (hclosed.wake (fun _ => Backend.Dry.read hend) r) (hdry (by simp [hc]))
  | execute a k hc =>
      have hclear : Backend.Dry n { s.backend with pendingEvents := [] } := by
        rcases h with (he | ⟨hshort, hless, -⟩) | ⟨-, hshort, hless⟩ | hno
        · exact .inl he
        · exact .inr ⟨hshort, hless, rfl⟩
        · exact .inr ⟨hshort, hless, rfl⟩
        · exact absurd hno hgone
      exact Session.ebbs_executeEvents (s := ⟨_, _, _⟩) hend hclear _ _ _
  | callbackReturn a f frames hc _ =>
      have hpopped : Backend.Dry n { s.backend with frames := frames } :=
        hclosed.same (hdry (by simp [hc])) rfl le_rfl rfl
      exact Session.ebbs_executeEvents (s := ⟨_, _, _⟩) hend hpopped _ _ _

theorem Session.Ebbs.run (h : s.Ebbs n) {moves : List Move}
    (hends : ∀ m ∈ moves, m.answers.AtEnd) : (Run.run Session.step s moves).Ebbs n := by
  refine Run.run_invariant_of_meets (P := Session.Ebbs n)
    (C := fun _ m => m.answers.AtEnd ∧ True) (fun _ m h hm => h.step m hm.1) h moves ?_
  exact Run.meets_and_of_forall hends (Run.meets_of_forall (fun _ _ => trivial) _ moves)

/-- Where the application has control again. -/
theorem Session.Ebbs.dry_of_app (h : s.Ebbs n) (happ : s.control = .app) : s.backend.Dry n :=
  h.dry (fun hgone => by simp [Session.Gone, happ] at hgone) fun k hk => by simp [happ] at hk

end

/-! ## The following call -/

theorem dispatch_of_error (a : Answers) (timeout : Int) {b : Backend} (he : b.error = true) :
    (dispatch a timeout).run b = (.returns (.error (ENOTCONN : Int)), b) := by
  unfold dispatch
  show StateT.run (if b.error then _ else _ : StateM Backend Next) b = _
  rw [if_pos he]
  rfl

theorem dispatch_of_ok (a : Answers) (timeout : Int) {b : Backend} (he : b.error = false) :
    (dispatch a timeout).run b = match outcome (readAndQueue a false) b with
      | (.error e, b') => (.returns (.error e), b')
      | (.ok p, b') => (.executes (.predispatch p.1 timeout), b') := by
  unfold dispatch
  show StateT.run (if b.error then _ else _ : StateM Backend Next) b = _
  rw [if_neg (by simp [he]), run_caught]
  rcases outcome (readAndQueue a false) b with ⟨_ | _, _⟩ <;> rfl

/-- The last call to return has failed, and the backend is in error. -/
def Session.Reported (s : Session) : Prop :=
  s.backend.error = true ∧ ∃ e, s.result = some (.error e)

/-- A call of `dispatch` that finds no event: it goes through `execute_events` once or twice. -/
def dispatchCall (timeout : Int) (a₁ a₂ a₃ : Answers) : List Move :=
  [.dispatch timeout a₁, .execute a₂, .execute a₃]

theorem Session.reported_of_error {s : Session} (happ : s.control = .app)
    (he : s.backend.error = true) (timeout : Int) (a₁ a₂ a₃ : Answers) :
    (Run.run Session.step s (dispatchCall timeout a₁ a₂ a₃)).Reported := by
  have hstep : s.step (.dispatch timeout a₁) = { s with
      control := .app
      result := some (.error (ENOTCONN : Int)) } := by
    unfold Session.step
    simp only [happ]
    exact Session.enter_returns (dispatch_of_error a₁ timeout he)
  show Session.Reported (((s.step (.dispatch timeout a₁)).step (.execute a₂)).step (.execute a₃))
  rw [hstep]
  exact ⟨he, _, rfl⟩

theorem dispatchRead_short {a : Answers} (hend : a.AtEnd) (immediate : Bool) {b : Backend}
    (h : b.Short) : (dispatchRead a immediate).run b =
      if immediate then (.ok b.connection.inp.size, b)
      else outcome (pollConnection a) b := by
  cases immediate with
  | true =>
      show StateT.run ((connRead a).run >>= _) b = _
      rw [run_caught, connRead_short hend h]
      rfl
  | false => rfl

theorem postdispatch_short (a : Answers) (predispatch : Nat) {b : Backend} (h : b.Short) :
    (postdispatch a predispatch).run b = (.executes (.postdispatch predispatch 0), b) := by
  unfold postdispatch
  rw [run_caught, readAndQueue_short a false h]
  rfl

/-- The second half of `dispatch` polls. -/
def Polls (predispatch : Nat) (timeout : Int) : Prop := predispatch = 0 ∧ timeout ≠ 0

instance (predispatch : Nat) (timeout : Int) : Decidable (Polls predispatch timeout) :=
  inferInstanceAs (Decidable (_ ∧ _))

/-- The rest of a call of `dispatch` after its events. -/
theorem afterEvents_short {a : Answers} (hend : a.AtEnd) (executed packets : Nat) (timeout : Int)
    {b : Backend} (h : b.Short) : (afterEvents a executed (.predispatch packets timeout)).run b =
      if Polls (packets + executed) timeout ∧ a.hangsUp then
        (.returns (.error (EPIPE : Int)), b.failed)
      else if b.connection.inp.size ≠ 0 then
        (.executes (.postdispatch (packets + executed) 0), b)
      else if Polls (packets + executed) timeout then
        (.returns (.error (Int.ofNat EIO)), b.failed)
      else (.returns (.ok ⟨(packets + executed : Nat), none⟩), b) := by
  have hpost := postdispatch_short a (packets + executed) h
  have himmediate : decide (packets + executed > 0 ∨ timeout = 0)
      = !decide (Polls (packets + executed) timeout) := by
    rw [← decide_not, decide_eq_decide]
    unfold Polls
    omega
  unfold afterEvents
  dsimp only
  rw [StateT.run_bind, himmediate, dispatchRead_short hend _ h, pollConnection_short hend h]
  by_cases hpolls : Polls (packets + executed) timeout
  · rw [if_neg (by simp [hpolls])]
    by_cases hhup : a.hangsUp = true
    · rw [if_pos hhup, if_pos ⟨hpolls, hhup⟩]
      rfl
    · have hno : ¬(Polls (packets + executed) timeout ∧ a.hangsUp = true) :=
        fun hboth => hhup hboth.2
      rw [if_neg hhup, if_neg hno]
      by_cases hzero : b.connection.inp.size = 0
      · rw [if_pos hzero, if_neg (by simp [hzero]), if_pos hpolls]
        rfl
      · rw [if_neg hzero, if_pos hzero]
        show StateT.run (if b.connection.inp.size = 0 then _ else _ : StateM Backend Next) _ = _
        rw [if_neg hzero]
        exact hpost
  · -- the ring is read at once, and an empty one is not an error
    rw [if_pos (by simp [hpolls]), if_neg fun hboth => hpolls hboth.1]
    by_cases hzero : b.connection.inp.size = 0
    · rw [if_neg (by simp [hzero]), if_neg hpolls]
      show StateT.run (if b.connection.inp.size = 0 then _ else _ : StateM Backend Next) _ = _
      rw [if_pos hzero]
      rfl
    · rw [if_pos hzero]
      show StateT.run (if b.connection.inp.size = 0 then _ else _ : StateM Backend Next) _ = _
      rw [if_neg hzero]
      exact hpost

/-- `dispatch` on a backend with nothing to take. -/
theorem Session.dispatch_short {s : Session} (happ : s.control = .app)
    (he : s.backend.error = false) (hshort : s.backend.Short) (hnone : s.backend.pendingEvents = [])
    (timeout : Int) (a₁ a₂ : Answers) :
    (s.step (.dispatch timeout a₁)).step (.execute a₂)
      = { s with control := .executing (.predispatch 0 timeout) }.enter
          (afterEvents a₂ 0 (.predispatch 0 timeout)) := by
  have hdispatch : s.step (.dispatch timeout a₁)
      = { s with control := .executing (.predispatch 0 timeout) } := by
    have hrun := dispatch_of_ok a₁ timeout he
    rw [readAndQueue_short a₁ false hshort] at hrun
    unfold Session.step
    simp only [happ]
    exact Session.enter_executes hrun
  have hbackend : { s.backend with pendingEvents := [] } = s.backend := by rw [← hnone]
  rw [hdispatch]
  show Session.executeEvents { s with
    backend := { s.backend with pendingEvents := [] }
    control := .executing (.predispatch 0 timeout) } a₂ s.backend.pendingEvents 0 _ = _
  rw [hbackend, hnone]
  rfl

/-- **A call on a dry backend.** It reports the end of the stream if it polls, and the hangup is
reported or no part of a frame is left; otherwise it returns 0, and everything is as before. -/
theorem Session.dispatchCall_dry {s : Session} (happ : s.control = .app)
    (he : s.backend.error = false) (hshort : s.backend.Short) (hnone : s.backend.pendingEvents = [])
    (timeout : Int) (a₁ : Answers) {a₂ : Answers} (a₃ : Answers) (hend : a₂.AtEnd) :
    let s' := Run.run Session.step s (dispatchCall timeout a₁ a₂ a₃)
    if timeout ≠ 0 ∧ (a₂.hangsUp ∨ s.backend.connection.inp.size = 0) then s'.Reported
    else s' = { s with control := .app, result := some (.ok ⟨0, none⟩) } := by
  intro s'
  let s₁ : Session := { s with control := .executing (.predispatch 0 timeout) }
  have hs' : s' = (s₁.enter (afterEvents a₂ 0 (.predispatch 0 timeout))).step (.execute a₃) :=
    congrArg (·.step (.execute a₃)) (Session.dispatch_short happ he hshort hnone timeout a₁ a₂)
  have hrun := afterEvents_short hend 0 0 timeout hshort
  have hpolls : Polls (0 + 0) timeout ↔ timeout ≠ 0 := ⟨And.right, fun h => ⟨rfl, h⟩⟩
  simp only [hpolls] at hrun
  by_cases hhup : timeout ≠ 0 ∧ a₂.hangsUp = true
  · rw [if_pos hhup] at hrun
    rw [if_pos ⟨hhup.1, .inl hhup.2⟩, hs', Session.enter_returns (s := s₁) hrun]
    exact ⟨failed_error _, _, rfl⟩
  · rw [if_neg hhup] at hrun
    by_cases hzero : s.backend.connection.inp.size = 0
    · rw [if_neg (by simp [hzero])] at hrun
      by_cases htimeout : timeout = 0
      · rw [if_neg (by simp [htimeout])] at hrun
        rw [if_neg fun hboth => hboth.1 htimeout, hs', Session.enter_returns (s := s₁) hrun]
        rfl
      · rw [if_pos htimeout] at hrun
        rw [if_pos ⟨htimeout, .inr hzero⟩, hs', Session.enter_returns (s := s₁) hrun]
        exact ⟨failed_error _, _, rfl⟩
    · rw [if_pos hzero] at hrun
      have hno : ¬(timeout ≠ 0 ∧ (a₂.hangsUp = true ∨ s.backend.connection.inp.size = 0)) :=
        fun hboth => hboth.2.elim (fun hh => hhup ⟨hboth.1, hh⟩) hzero
      rw [if_neg hno, hs', Session.enter_executes (s := s₁) hrun]
      -- `execute_events` finds nothing, and the call returns what it has dispatched
      have hbackend : { s.backend with pendingEvents := [] } = s.backend := by rw [← hnone]
      unfold Session.step
      dsimp only
      rw [hnone, hbackend]
      rfl

/-! ## The first call, by the backend before it -/

section

variable {s : Session} (happ : s.control = .app) (he : s.backend.error = false)
include happ he

/-- The first call of `dispatch` takes all the whole headers, or fails. -/
theorem Session.step_dispatch (timeout : Int) (a : Answers) :
    a.Takes s.backend.received.length s.backend.connection.inp.toList
        ∧ (∃ b' packets, s.step (.dispatch timeout a)
            = { s with backend := b', control := .executing (.predispatch packets timeout) }
          ∧ b'.error = false ∧ b'.frames = s.backend.frames
          ∧ (b'.pendingEvents = [] → s.backend.pendingEvents = [])
          ∧ b'.connection.inp.size = s.backend.connection.inp.size % HEADER_SIZE
          ∧ (s.backend.Short ∨ 0 < packets))
      ∨ ¬ a.Takes s.backend.received.length s.backend.connection.inp.toList
        ∧ (s.step (.dispatch timeout a)).backend.error = true := by
  have htook := readAndQueue_took a s.backend
  have hrun := dispatch_of_ok a timeout he
  unfold Session.step
  simp only [happ]
  rcases hout : outcome (readAndQueue a false) s.backend with ⟨e | p, b'⟩ <;>
    rw [hout] at htook hrun
  · rw [Session.enter_returns hrun]
    exact .inr htook
  · rw [Session.enter_executes hrun]
    obtain ⟨htakes, herror, hframes, hpending, hsize, hpackets⟩ := htook
    exact .inl ⟨htakes, b', p.1, rfl, herror.trans he, hframes, hpending, hsize, hpackets⟩

theorem Session.ebbs_dispatch (timeout : Int) (a : Answers) :
    (s.step (.dispatch timeout a)).Ebbs (s.backend.connection.inp.size % HEADER_SIZE + 1) := by
  rcases Session.step_dispatch happ he timeout a with ⟨-, b', packets, hstep, -, -, -, hsize, -⟩ | h
  · rw [hstep]
    refine .inr (.inl ⟨⟨_, rfl⟩, hsize.trans_lt (Nat.mod_lt _ (by decide)), ?_⟩)
    exact hsize.trans_lt (Nat.lt_succ_self _)
  · exact .inl (.inl h.2)

/-- A call that fails on what it finds in the ring. -/
theorem Session.ebbs_not_taken (timeout : Int) {a : Answers}
    (h : ¬ a.Takes s.backend.received.length s.backend.connection.inp.toList) :
    (s.step (.dispatch timeout a)).Ebbs 0 :=
  (Session.step_dispatch happ he timeout a).elim (fun htakes => absurd htakes.1 h)
    fun herror => .inl (.inl herror.2)

/-- A call that finds nothing to take, polls and meets the end of the stream. -/
theorem Session.ebbs_polled {timeout : Int} {a₀ : Answers} (a : Answers) (hend : a₀.AtEnd)
    (hshort : s.backend.Short) (hnone : s.backend.pendingEvents = []) (htimeout : timeout ≠ 0)
    (hmeets : a₀.hangsUp ∨ s.backend.connection.inp.size = 0) :
    ((s.step (.dispatch timeout a)).step (.execute a₀)).Ebbs 0 := by
  have hrun := afterEvents_short hend 0 0 timeout hshort
  have hpolls : Polls (0 + 0) timeout := ⟨rfl, htimeout⟩
  let s₁ : Session := { s with control := .executing (.predispatch 0 timeout) }
  rw [Session.dispatch_short happ he hshort hnone]
  by_cases hhup : a₀.hangsUp = true
  · rw [if_pos ⟨hpolls, hhup⟩] at hrun
    rw [Session.enter_returns (s := s₁) hrun]
    exact .inl (Backend.dry_failed _)
  · have hzero : ¬ s.backend.connection.inp.size ≠ 0 := not_not.mpr (hmeets.resolve_left hhup)
    rw [if_neg (fun hboth => hhup hboth.2), if_neg hzero, if_pos hpolls] at hrun
    rw [Session.enter_returns (s := s₁) hrun]
    exact .inl (Backend.dry_failed _)

end

/-! ## Callbacks that make no calls -/

/-- The application returns from a callback, or the library goes on by itself. -/
def Move.Returns : Move → Prop
  | .execute _ | .callbackReturn _ => True
  | .call _ _ | .dispatch _ _ | .wake _ => False

/-- Not in error, with `r` bytes in the in ring and no event, and with callbacks of `dispatch`
only. -/
structure Backend.Calm (r : Nat) (b : Backend) : Prop where
  error : b.error = false
  size : b.connection.inp.size = r
  pending : b.pendingEvents = []
  frames : ∀ f ∈ b.frames, 0 < f.executed ∧ ∃ packets timeout, f.cont = .predispatch packets timeout

def Session.Calm (r : Nat) (s : Session) : Prop :=
  s.backend.Calm r
    ∧ (s.control = .app ∨ ∃ predispatch packets, s.control = .executing (.postdispatch predispatch packets))

section

variable {r : Nat} {s : Session} {a : Answers}

/-- The end of the stream goes unnoticed where `dispatch` does not poll, or finds a part of a
frame. -/
theorem Session.calm_enter (hr : r < HEADER_SIZE) (h : s.backend.Calm r) (hend : a.AtEnd)
    {executed packets : Nat} {timeout : Int}
    (hmisses : ¬ Polls (packets + executed) timeout ∨ ¬(a.hangsUp = true ∨ r = 0)) :
    (s.enter (afterEvents a executed (.predispatch packets timeout))).Calm r := by
  have hshort : s.backend.Short := h.size.trans_lt hr
  have hhup : ¬(Polls (packets + executed) timeout ∧ a.hangsUp = true) :=
    fun hboth => hmisses.elim (· hboth.1) (· (.inl hboth.2))
  have hrun := afterEvents_short hend executed packets timeout hshort
  rw [if_neg hhup] at hrun
  by_cases hzero : s.backend.connection.inp.size = 0
  · have hpolls : ¬ Polls (packets + executed) timeout :=
      hmisses.resolve_right (not_not.mpr (.inr (h.size.symm.trans hzero)))
    rw [if_neg (not_not.mpr hzero), if_neg hpolls] at hrun
    rw [Session.enter_returns hrun]
    exact ⟨h, .inl rfl⟩
  · rw [if_pos hzero] at hrun
    rw [Session.enter_executes hrun]
    exact ⟨h, .inr ⟨_, _, rfl⟩⟩

theorem Session.calm_executeEvents (hr : r < HEADER_SIZE) (h : s.backend.Calm r) (hend : a.AtEnd)
    (list : List PendingEvent) {executed packets : Nat} {timeout : Int}
    (hmisses : list = [] →
      ¬ Polls (packets + executed) timeout ∨ ¬(a.hangsUp = true ∨ r = 0)) :
    (s.executeEvents a list executed (.predispatch packets timeout)).Calm r := by
  cases list with
  | nil => exact Session.calm_enter hr h hend (hmisses rfl)
  | cons ev list =>
      refine ⟨⟨h.error, h.size, h.pending, fun f hf => ?_⟩, .inl rfl⟩
      rcases List.mem_cons.mp hf with rfl | hf
      · exact ⟨Nat.succ_pos executed, packets, timeout, rfl⟩
      · exact h.frames f hf

theorem Session.Calm.step (hr : r < HEADER_SIZE) (h : s.Calm r) (m : Move) (hreturns : m.Returns)
    (hend : m.answers.AtEnd) : (s.step m).Calm r := by
  obtain ⟨hb, hcontrol⟩ := id h
  induction m using Session.step_cases (s := s) with
  | same => exact h
  | openSeat _ _ | call _ _ _ _ | dispatch _ _ _ | wake _ _ _ => exact hreturns.elim
  | execute a k hc =>
      -- only what `dispatch` read last is looked at, and there is nothing
      obtain ⟨predispatch, packets, hk⟩ := hcontrol.resolve_left (by simp [hc])
      obtain rfl := Control.executing.inj (hc.symm.trans hk)
      rw [hb.pending]
      exact ⟨⟨hb.error, hb.size, rfl, hb.frames⟩, .inl rfl⟩
  | callbackReturn a f frames hc hf =>
      obtain ⟨hexecuted, packets, timeout, hk⟩ := hb.frames f (hf ▸ List.mem_cons_self)
      have hpopped : Backend.Calm r { s.backend with frames := frames } :=
        ⟨hb.error, hb.size, hb.pending, fun g hg => hb.frames g (hf ▸ List.mem_cons_of_mem f hg)⟩
      rw [hk]
      refine Session.calm_executeEvents (s := ⟨_, _, _⟩) hr hpopped hend _ fun _ => .inl ?_
      exact fun hpolls => absurd hpolls.1 (by omega)

end

/-! ## The theorem -/

/-- Two calls of `dispatch` notice the end of the stream: the first one finds a header that it
does not take, or has nothing to do and polls, or the second one polls. A poll notices it by a
hangup, or if no part of a frame is left in the ring; behind the whole headers, which the first
call takes, there are as many bytes as the ring's size leaves over. -/
def Backend.Notices (b : Backend) (timeout : Int) (a a₀ : Answers) (timeout' : Int)
    (a₂ : Answers) : Prop :=
  ¬ a.Takes b.received.length b.connection.inp.toList
    ∨ b.Short ∧ b.pendingEvents = [] ∧ timeout ≠ 0
      ∧ (a₀.hangsUp = true ∨ b.connection.inp.size = 0)
    ∨ timeout' ≠ 0 ∧ (a₂.hangsUp = true ∨ b.connection.inp.size % HEADER_SIZE = 0)

section

variable {s : Session} (happ : s.control = .app) (he : s.backend.error = false)
  {timeout : Int} {a a₀ : Answers} {nested : List Move} (hend₀ : a₀.AtEnd)
  (hends : ∀ m ∈ nested, m.answers.AtEnd)
  (hreturned : (Run.run Session.step s (.dispatch timeout a :: .execute a₀ :: nested)).control = .app)
  {timeout' : Int} {a₁ a₂ a₃ : Answers} (hend : a₂.AtEnd)
include happ he hend₀ hends hreturned hend

theorem Session.reported_of_notices (h : s.backend.Notices timeout a a₀ timeout' a₂) :
    (Run.run Session.step (Run.run Session.step s (.dispatch timeout a :: .execute a₀ :: nested))
      (dispatchCall timeout' a₁ a₂ a₃)).Reported := by
  generalize hs' : Run.run Session.step s (.dispatch timeout a :: .execute a₀ :: nested) = s' at *
  have hzero : s'.Ebbs 0 → (Run.run Session.step s' (dispatchCall timeout' a₁ a₂ a₃)).Reported :=
    fun hebbs => Session.reported_of_error hreturned
      ((hebbs.dry_of_app hreturned).resolve_right fun hno => Nat.not_lt_zero _ hno.2.1) _ _ _ _
  rcases h with htakes | ⟨hshort, hnone, htimeout, hmeets⟩ | ⟨htimeout, hmeets⟩
  · have hebbs := ((Session.ebbs_not_taken happ he timeout htakes).step (.execute a₀) hend₀).run hends
    exact hzero (hs' ▸ hebbs)
  · have hebbs := (Session.ebbs_polled happ he a hend₀ hshort hnone htimeout hmeets).run hends
    exact hzero (hs' ▸ hebbs)
  · have hebbs := ((Session.ebbs_dispatch happ he timeout a).step (.execute a₀) hend₀).run hends
    cases he' : s'.backend.error with
    | true => exact Session.reported_of_error hreturned he' _ _ _ _
    | false =>
        have hdry := Session.Ebbs.dry_of_app (s := s') (hs' ▸ hebbs) hreturned
        obtain ⟨hshort, hless, hnone⟩ := hdry.resolve_left (by simp [he'])
        have hcall := s'.dispatchCall_dry hreturned he' hshort hnone timeout' a₁ a₃ hend
        dsimp only at hcall
        rwa [if_pos ⟨htimeout, hmeets.imp id fun hmod => by omega⟩] at hcall

theorem Session.notices_of_reported (hframes : s.backend.frames = [])
    (hquiet : ∀ m ∈ nested, m.Returns)
    (h : (Run.run Session.step (Run.run Session.step s (.dispatch timeout a :: .execute a₀ :: nested))
      (dispatchCall timeout' a₁ a₂ a₃)).Reported) :
    s.backend.Notices timeout a a₀ timeout' a₂ := by
  by_contra hno
  obtain ⟨htakes, hpolled, hpolls⟩ :
      ¬¬ a.Takes s.backend.received.length s.backend.connection.inp.toList
        ∧ ¬(s.backend.Short ∧ s.backend.pendingEvents = [] ∧ timeout ≠ 0
          ∧ (a₀.hangsUp = true ∨ s.backend.connection.inp.size = 0))
        ∧ ¬(timeout' ≠ 0 ∧ (a₂.hangsUp = true ∨ s.backend.connection.inp.size % HEADER_SIZE = 0)) := by
    simpa only [Backend.Notices, not_or] using hno
  let r := s.backend.connection.inp.size % HEADER_SIZE
  have hr : r < HEADER_SIZE := Nat.mod_lt _ (by decide)
  -- the first call returns, or calls back, without having noticed anything
  have hfirst : ((s.step (.dispatch timeout a)).step (.execute a₀)).Calm r := by
    obtain ⟨-, b', packets, hstep, herror, hf, hpending, hsize, hpackets⟩ :=
      (Session.step_dispatch happ he timeout a).resolve_right fun hno => htakes hno.1
    have hb' : Backend.Calm r { b' with pendingEvents := [] } :=
      ⟨herror, hsize, rfl, fun f hmem => by simp [show b'.frames = [] from hf.trans hframes] at hmem⟩
    rw [hstep]
    refine Session.calm_executeEvents (s := ⟨_, _, _⟩) hr hb' hend₀ b'.pendingEvents fun hnil => ?_
    by_contra hmeets
    obtain ⟨hpoll, hmeets⟩ := not_or.mp hmeets
    have hpoll : Polls (packets + 0) timeout := not_not.mp hpoll
    have hshort : s.backend.Short := hpackets.resolve_right (by have := hpoll.1; omega)
    have hsame : r = s.backend.connection.inp.size := Nat.mod_eq_of_lt hshort
    exact hpolled ⟨hshort, hpending hnil, hpoll.2, hsame ▸ not_not.mp hmeets⟩
  have hcalm : (Run.run Session.step s (.dispatch timeout a :: .execute a₀ :: nested)).Calm r := by
    refine Run.run_invariant_of_meets (P := Session.Calm r)
      (C := fun _ m => (m.Returns ∧ m.answers.AtEnd) ∧ True)
      (fun _ m h hm => h.step hr m hm.1.1 hm.1.2) hfirst nested ?_
    exact Run.meets_and_of_forall (fun m hm => ⟨hquiet m hm, hends m hm⟩)
      (Run.meets_of_forall (fun _ _ => trivial) _ nested)
  have hcall := Session.dispatchCall_dry hreturned hcalm.1.error (hcalm.1.size.trans_lt hr)
    hcalm.1.pending timeout' a₁ a₃ hend
  dsimp only at hcall
  rw [hcalm.1.size, if_neg hpolls] at hcall
  rw [hcall] at h
  exact Bool.false_ne_true (hcalm.1.error.symm.trans h.1)

end

/-- The kernel after the daemon has gone: it reports the hangup to those who poll. -/
def Answers.gone : Answers where
  sends _ := [.fail EPIPE]
  poll := .ready true true
  recv := [.data [] []]
  calloc _ := true

/-- A seat that was opened, before the daemon went away. -/
def openedSeat : Session :=
  Session.run [.call .openSeat (.hears []),
    .wake (.hears [.seatOpened (ascii ['s', 'e', 'a', 't', '0'])]), .execute (.hears [])]

/-- **When `dispatch` reports a closed connection.** The daemon has closed the connection and
nothing is left to read. The application calls `dispatch` on a backend that is not in error,
whatever its ring holds, and does what it likes in the callbacks. If `Backend.Notices` holds of the
backend before that call, the timeouts and the answers to the polls, then the following call fails
and the backend is in error. This is the only way, if the application is in no callback before and
makes no call in those of the first call. -/
theorem closed_connection_reported (s : Session) (happ : s.control = .app)
    (he : s.backend.error = false) (timeout : Int) (a a₀ : Answers) (nested : List Move)
    (hend₀ : a₀.AtEnd) (hends : ∀ m ∈ nested, m.answers.AtEnd)
    (hreturned : (Run.run Session.step s
      (.dispatch timeout a :: .execute a₀ :: nested)).control = .app)
    (timeout' : Int) (a₁ a₂ a₃ : Answers) (hend : a₂.AtEnd) :
    let reported := (Run.run Session.step
      (Run.run Session.step s (.dispatch timeout a :: .execute a₀ :: nested))
      (dispatchCall timeout' a₁ a₂ a₃)).Reported
    (s.backend.Notices timeout a a₀ timeout' a₂ → reported)
      ∧ (s.backend.frames = [] → (∀ m ∈ nested, m.Returns) → reported →
        s.backend.Notices timeout a a₀ timeout' a₂) :=
  ⟨Session.reported_of_notices happ he hend₀ hends hreturned hend,
    Session.notices_of_reported happ he hend₀ hends hreturned hend⟩

/-- The end of the stream is reported to an application that waits. -/
theorem hangup_reported_when_waiting :
    openedSeat.control = .app ∧ openedSeat.backend.error = false
      ∧ (Run.run Session.step (Run.run Session.step openedSeat [.dispatch 0 .gone, .execute .gone])
          (dispatchCall (-1) .gone .gone .gone)).Reported := by
  have happ : openedSeat.control = .app := by decide +kernel
  have herror : openedSeat.backend.error = false := by decide +kernel
  have hgone : Answers.gone.AtEnd := ⟨⟨true, rfl⟩, rfl⟩
  exact ⟨happ, herror, (closed_connection_reported openedSeat happ herror 0 .gone .gone [] hgone
    (fun m hm => by cases hm) (by decide +kernel) (-1) .gone .gone .gone hgone).1
    (.inr (.inr ⟨by decide, .inl rfl⟩))⟩

/-- An application that does not wait is told twice that nothing has happened. -/
theorem hangup_unnoticed :
    let s := Run.run Session.step openedSeat
      (dispatchCall 0 .gone .gone .gone ++ dispatchCall 0 .gone .gone .gone)
    s.control = .app ∧ s.result = some (.ok ⟨0, none⟩) ∧ s.backend.error = false := by
  decide +kernel

/-- **It is told so forever.** -/
theorem Session.silent_forever {s : Session} (happ : s.control = .app)
    (he : s.backend.error = false) (hshort : s.backend.Short) (hnone : s.backend.pendingEvents = [])
    {a : Answers} (hend : a.AtEnd) (calls : Nat) :
    let s' := Run.run Session.step s (List.replicate (calls + 1) (dispatchCall 0 a a a)).flatten
    s'.result = some (.ok ⟨0, none⟩) ∧ s'.backend.error = false := by
  induction calls generalizing s with
  | zero =>
      have hcall := s.dispatchCall_dry happ he hshort hnone 0 a a hend
      dsimp only at hcall
      rw [if_neg (by simp)] at hcall
      intro s'
      rw [show s' = _ from hcall]
      exact ⟨rfl, he⟩
  | succ calls ih =>
      have hcall := s.dispatchCall_dry happ he hshort hnone 0 a a hend
      dsimp only at hcall
      rw [if_neg (by simp)] at hcall
      rw [List.replicate_succ, List.flatten_cons, Run.run_append, hcall]
      exact ih (s := ⟨_, _, _⟩) rfl he hshort hnone

end DdeSeatd.Libseat
