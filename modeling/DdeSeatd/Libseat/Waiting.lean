import DdeSeatd.Libseat.Calls

set_option autoImplicit false

/-! # A call that waits has nothing left to do

The library blocks in the `poll` of `read_until_response` only after it has sent all that it has put
and has taken from its ring all that it can take: what is left there is at most the beginning of a
message (`Backend.Stalled`). So a call that waits really waits for the daemon.
-/

namespace DdeSeatd.Libseat

open Fallible RingBuffer

/-! ## The backend -/

/-- Everything was sent, and no whole message is at the front of the ring. -/
structure Backend.Stalled (b : Backend) : Prop where
  out : b.connection.out.size = 0
  ring : ∀ (m : ServerMsg) (bytes : List UInt8), m.Short →
    b.connection.inp.toList ≠ m.bytes ++ bytes

section

variable {b : Backend} {header : List UInt8} {conn : Connection}

theorem stalled_of_short (hout : b.connection.out.size = 0) (hshort : b.Short) : b.Stalled := by
  refine ⟨hout, fun m bytes _ hring => ?_⟩
  have hle : HEADER_SIZE ≤ b.connection.inp.size := by
    rw [← toList_length, hring, List.length_append, m.bytes_length]
    show 4 ≤ _
    omega
  exact absurd hshort (Nat.not_lt_of_le hle)

/-- A header that `read_and_queue` restores without reporting an opcode. -/
theorem stalled_of_incomplete (hout : b.connection.out.size = 0)
    (hget : connectionGet b.connection HEADER_SIZE = (.ok header, conn))
    (hzero : (if connectionPending conn ≥ headerSize header then headerOpcode header else 0) = 0) :
    b.Stalled := by
  refine ⟨hout, fun m bytes hm hring => ?_⟩
  have hfields := m.header hm bytes
  rw [← hring] at hfields
  have hop : headerOpcode header = m.opcode := (headerOpcode_get hget).trans hfields.1
  have hsize : headerSize header = m.payload.flatten.length := (headerSize_get hget).trans hfields.2
  -- the payload is there
  have hcomplete : connectionPending conn ≥ headerSize header := by
    have hlen := congrArg List.length hring
    rw [toList_length, List.length_append, m.bytes_length] at hlen
    have hpending := get_size hget
    have hhdr : HEADER_SIZE = 4 := rfl
    show conn.inp.size ≥ _
    omega
  rw [if_pos hcomplete, hop] at hzero
  cases m <;> simp [ServerMsg.opcode, serverEvent] at hzero

end

/-- `read_and_queue` reports no opcode only if it has taken all that it can. -/
theorem readAndQueue_stalls (a : Answers) :
    Spec (fun b => b.connection.out.size = 0) (readAndQueue a true)
      (fun p b => p.2 = 0 → b.Stalled) fun _ _ => True := by
  have hout : ∀ {b : Backend} {header conn}, b.connection.out.size = 0 → b.Takes header conn →
      conn.out.size = 0 := by
    intro b header conn hb hget
    obtain ⟨-, -, rfl⟩ := connectionGet_eq_ok hget
    exact hb
  refine readAndQueue_rule (I := fun _ b => b.connection.out.size = 0)
    (fun hb hshort _ => stalled_of_short hb hshort) (fun hb hget _ => hout hb hget)
    (fun hb hget _ _ => ?_) fun hb hget _ => stalled_of_incomplete hb hget
  split_ifs
  · exact hout hb hget
  · exact fun _ _ => trivial

/-! ## The entry points -/

/-- The library waits only if it can do nothing else. -/
def Next.Stalls (b : Backend) : Next → Prop
  | .waits _ => b.Stalled
  | .returns _ | .executes _ | .destroys _ | .aborts => True

theorem replied_stalls (r : Request) (reply : Except Int Reply) (b : Backend) :
    (replied r reply).Stalls b := by
  unfold replied
  split <;> split
  · trivial
  · trivial
  · trivial
  · split <;> trivial

/-- The end of a call does not wait. -/
theorem finish_stalls (a : Answers) (r : Request) (result : Except Int Unit) :
    Yields (fun _ => True) (finish a r result) fun next b => next.Stalls b := by
  cases r with
  | openSeat =>
      cases result with
      | error e => exact yields_pure fun _ _ => trivial
      | ok _ =>
          exact (spec_top seatOpened).caught (fun _ => yields_pure fun _ _ => trivial)
            fun _ => yields_pure fun _ _ => trivial
  | closeSeat =>
      refine (spec_top (readHeader _ 0 false)).caught (fun _ => ?_)
        fun _ => yields_pure fun _ _ => trivial
      cases result with
      | error e => exact yields_pure fun _ _ => trivial
      | ok _ => exact yields_pure fun _ _ => trivial
  | openDevice _ | closeDevice _ | disableSeat | switchSession _ | ping =>
      cases result with
      | error e => exact yields_pure fun _ _ => trivial
      | ok _ =>
          have hcheck : ∀ (reply : Except Int Reply) (r' : Request), Yields (fun _ => True)
              ((checkPendingEvents a).run >>= fun _ => pure (replied r' reply))
              fun next b => next.Stalls b := fun reply r' =>
            (spec_top (checkPendingEvents a)).caught
              (fun _ => yields_pure fun b _ => replied_stalls r' reply b)
              fun _ => yields_pure fun b _ => replied_stalls r' reply b
          exact (spec_top (readResponse _)).caught (fun _ => hcheck _ _) fun _ => hcheck _ _

theorem awaitResponse_stalls (a : Answers) (r : Request) :
    Yields (fun b => b.connection.out.size = 0) (awaitResponse a r) fun next b => next.Stalls b := by
  refine (readAndQueue_stalls a).caught (fun p => ?_) fun e => finish_stalls a r (.error e)
  dsimp only
  split_ifs with hzero
  · exact yields_pure fun _ h => h hzero
  · exact (finish_stalls a r (.ok ())).weaken (fun _ _ => trivial) fun _ _ h => h

section

variable {ch : Channel} {s₀ : List Segment} {n : Nat} {x : List UInt8} {a : Answers}

/-- A flush that succeeds has sent everything. -/
theorem connFlush_empties (results : List SendResult) :
    Spec (fun b => b.Upto ch s₀ n x) (connFlush results) (fun _ b => b.connection.out.size = 0)
      fun _ _ => True := by
  refine connSend_rule ?_ fun _ _ _ => trivial
  rintro b k ⟨ms, -, hb⟩ hret
  exact (connectionFlush_flushed b.connection results hb.out hb.flush).ok k hret

theorem request_stalls (r : Request) :
    Yields (fun b => b.Upto ch s₀ n x) (request a r) fun next b => next.Stalls b := by
  have hput : Spec (fun b => b.Upto ch s₀ n x) (connPutAll a 0 r.parts)
      (fun _ b => b.Upto ch s₀ n (x ++ r.parts.flatten)) fun _ _ => True :=
    (connPutAll_upto r.parts 0 x).weaken (fun _ h => h) (fun _ _ h => h) fun _ _ _ => trivial
  have hsend : Spec (fun b => b.Upto ch s₀ n x) (sendRequest a r)
      (fun _ b => b.connection.out.size = 0) fun _ _ => True :=
    hput.bind fun _ => connFlush_empties _
  exact hsend.caught (fun _ => awaitResponse_stalls a r) fun e => finish_stalls a r (.error e)

theorem call_stalls (r : Request) :
    Yields (fun b => b.error = true ∨ b.Upto ch s₀ n x) (call a r) fun next b => next.Stalls b := by
  intro b h
  by_cases hrefused : b.error = true ∨ refuses r = true
  · rcases call_refused (a := a) hrefused with ⟨result, hrun⟩ | ⟨k, hrun⟩
    · rw [hrun]
      trivial
    · rw [hrun]
      trivial
  · rw [call_request hrefused]
    exact request_stalls r b (h.resolve_left (not_or.mp hrefused).1)

end

/-- `poll_connection` leaves what is to be sent alone. -/
theorem pollConnection_out (a : Answers) :
    Spec (fun b => b.connection.out.size = 0) (pollConnection a)
      (fun _ b => b.connection.out.size = 0) fun _ _ => True :=
  pollConnection_rule (fun _ h _ => h) (fun _ _ _ _ _ => trivial) (fun _ _ _ => trivial)
    (fun b _ h _ _ _ =>
      (congrArg RingBuffer.size (connectionRead_out b.connection a.recv).1).trans h)
    fun _ _ _ _ => trivial

theorem wake_stalls (a : Answers) (r : Request) :
    Yields (fun b => b.connection.out.size = 0) (wake a r) fun next b => next.Stalls b :=
  (pollConnection_out a).caught (fun _ => awaitResponse_stalls a r) fun e =>
    finish_stalls a r (.error e)

/-- `dispatch` does not wait. -/
theorem dispatch_stalls (a : Answers) (timeout : Int) :
    Yields (fun _ => True) (dispatch a timeout) fun next b => next.Stalls b := by
  intro b _
  cases he : b.error with
  | true =>
      rw [dispatch_of_error a timeout he]
      trivial
  | false =>
      rw [dispatch_of_ok a timeout he]
      rcases outcome (readAndQueue a false) b with ⟨e | p, b'⟩ <;> trivial

theorem postdispatch_stalls (a : Answers) (predispatch : Nat) :
    Yields (fun _ => True) (postdispatch a predispatch) fun next b => next.Stalls b :=
  (spec_top (readAndQueue a false)).caught (fun _ => yields_pure fun _ _ => trivial)
    fun _ => yields_pure fun _ _ => trivial

theorem afterEvents_stalls (a : Answers) (executed : Nat) (k : Cont) :
    Yields (fun _ => True) (afterEvents a executed k) fun next b => next.Stalls b := by
  cases k with
  | predispatch packets timeout =>
      have hread : ∀ immediate, Yields (fun _ => True) (dispatchRead a immediate) fun _ _ => True :=
        fun _ _ _ => trivial
      refine (hread _).bind fun result => ?_
      cases result with
      | ok len | error e =>
          dsimp only
          split_ifs
          · exact yields_pure fun _ _ => trivial
          · exact postdispatch_stalls a _
  | postdispatch predispatch packets | openSeat | closeSeat res =>
      exact yields_pure fun _ _ => trivial

/-! ## Moves -/

/-- A call that waits has nothing left to do. -/
def Session.Stalls (s : Session) : Prop := ∀ r, s.control = .waiting r → s.backend.Stalled

section

variable {s : Session}

theorem Session.stalls_of_not_waiting (h : ∀ r, s.control ≠ .waiting r) : s.Stalls :=
  fun r hr => absurd hr (h r)

theorem Session.stalls_enter {m : StateM Backend Next}
    (h : (m.run s.backend).1.Stalls (m.run s.backend).2) : (s.enter m).Stalls := by
  unfold Session.enter
  rcases hrun : m.run s.backend with ⟨next, b'⟩
  rw [hrun] at h
  cases next with
  | waits r => exact fun _ _ => h
  | returns _ | executes _ | destroys _ | aborts =>
      exact Session.stalls_of_not_waiting fun _ hno => by cases hno

theorem Session.stalls_executeEvents (a : Answers) (list : List PendingEvent) (executed : Nat)
    (k : Cont) : (s.executeEvents a list executed k).Stalls := by
  cases list with
  | cons ev list => exact Session.stalls_of_not_waiting fun _ hno => by cases hno
  | nil => exact Session.stalls_enter (afterEvents_stalls a executed k s.backend trivial)

/-- **Every move that ends in a wait has left nothing to do.** -/
theorem Session.Stalls.step {ch : Channel} {s₀ : List Segment} {asked : List Request}
    (h : s.Stalls) (hexchanging : s.Exchanging ch s₀ asked) (m : Move) : (s.step m).Stalls := by
  obtain ⟨reqs, -, -, hstate⟩ := hexchanging
  induction m using Session.step_cases (s := s) with
  | same => exact h
  | openSeat a hc =>
      rw [hc] at hstate
      exact Session.stalls_enter (request_stalls .openSeat s.backend hstate)
  | call r a hc _ =>
      rw [hc] at hstate
      exact Session.stalls_enter (call_stalls _ s.backend hstate)
  | dispatch timeout a hc => exact Session.stalls_enter (dispatch_stalls a timeout s.backend trivial)
  | wake a r hc => exact Session.stalls_enter (wake_stalls a r s.backend (h r hc).out)
  | execute a k hc | callbackReturn a f frames hc _ => exact Session.stalls_executeEvents a _ _ _

end

end DdeSeatd.Libseat
