import DdeSeatd.Lib.Fallible
import DdeSeatd.Libseat.Events

set_option autoImplicit false

/-! # Rules for the functions of the backend

What a function of the backend does to a property depends on few of its steps: what is handed to
the kernel, what is taken off the connection, what a read brings. Each rule here asks for these, and
gives the property of the whole function, with its loop and its failures.
-/

namespace DdeSeatd.Libseat

open Fallible

def Backend.Short (b : Backend) : Prop := b.connection.inp.size < HEADER_SIZE

variable {P : Backend → Prop} {E : Int → Backend → Prop}

theorem setError_fails {α : Type} {Q : α → Backend → Prop} {e : Int} (h : ∀ b, P b → E e b.failed) :
    Spec P (setError >>= fun _ => throw e : Api α) Q E := h

/-! ## Sending -/

theorem connSend_rule {f : Connection → SendOut} {Q : Unit → Backend → Prop}
    (ok : ∀ b n, P b → (f b.connection).ret = .ok n →
      Q () { b with connection := (f b.connection).conn, sent := b.sent ++ (f b.connection).sent })
    (fail : ∀ b (e : Nat), P b → E e (Backend.failed
      { b with connection := (f b.connection).conn, sent := b.sent ++ (f b.connection).sent })) :
    Spec P (connSend f) Q E := by
  intro b hb
  unfold connSend
  rw [outcome_bind, outcome_get]
  dsimp only
  rw [outcome_bind, outcome_modify]
  dsimp only
  cases hret : (f b.connection).ret with
  | error e => exact fail b e hb
  | ok n => exact ok b n hb hret

/-- `I x` is to hold when the bytes `x` have been put. -/
theorem connPutAll_rule {I : List UInt8 → Backend → Prop} (a : Answers)
    (put : ∀ x data results, Spec (I x) (connPut data results) (fun _ => I (x ++ data)) E)
    (parts : List (List UInt8)) : ∀ i x,
    Spec (I x) (connPutAll a i parts) (fun _ => I (x ++ parts.flatten)) E := by
  induction parts with
  | nil => exact fun _ _ => spec_pure fun _ hb => by simpa using hb
  | cons data parts ih =>
      intro i x
      refine (put x data _).bind fun _ => ?_
      have hrest := ih (i + 1) (x ++ data)
      rwa [List.append_assoc, ← List.flatten_cons] at hrest

section

variable (hP : ∀ (b : Backend) conn sent, conn.inp = b.connection.inp → P b →
  P { b with connection := conn, sent := sent })
include hP

theorem connSend_sends {f : Connection → SendOut} (hf : ∀ c, (f c).conn.inp = c.inp) :
    Spec P (connSend f) (fun _ => P) fun _ b => ∃ b', P b' ∧ b = b'.failed :=
  connSend_rule (fun b _ hb _ => hP b _ _ (hf _) hb) fun b _ hb => ⟨_, hP b _ _ (hf _) hb, rfl⟩

theorem connFlush_sends (results : List SendResult) :
    Spec P (connFlush results) (fun _ => P) fun _ b => ∃ b', P b' ∧ b = b'.failed :=
  connSend_sends hP fun c => connectionFlush_inp c results

theorem connPutAll_sends (a : Answers) (parts : List (List UInt8)) (i : Nat) :
    Spec P (connPutAll a i parts) (fun _ => P) fun _ b => ∃ b', P b' ∧ b = b'.failed :=
  connPutAll_rule (I := fun _ => P) a
    (fun _ data results => connSend_sends hP fun c => connectionPut_inp c data results) parts i []

theorem sendRequest_sends (a : Answers) (r : Request) :
    Spec P (sendRequest a r) (fun _ => P) fun _ b => ∃ b', P b' ∧ b = b'.failed :=
  (connPutAll_sends hP a _ 0).bind fun _ => connFlush_sends hP _

theorem sendPing_sends (a : Answers) :
    Spec P (sendPing a) (fun _ => P) fun _ b => ∃ b', P b' ∧ b = b'.failed :=
  (connPutAll_sends hP a _ 4).bind fun _ => connFlush_sends hP _

end

/-! ## Taking frames -/

/-- `read_header`: `F n` is to hold when `n` bytes of the response are still to be taken. -/
theorem readHeader_rule {F : Nat → Backend → Prop} (expectedOpcode expectedSize : Nat)
    (variableSize : Bool)
    (header : Spec P (connGet HEADER_SIZE) (fun header => F (headerSize header)) E)
    (error : Spec (F SERVER_ERROR_SIZE) (connGet SERVER_ERROR_SIZE) (fun _ b => ∀ e, E e b) E)
    (bad : ∀ b : Backend, E EBADMSG b.failed) :
    Spec P (readHeader expectedOpcode expectedSize variableSize)
      (fun size b => F size b ∧ if variableSize then expectedSize ≤ size else size = expectedSize)
      E := by
  refine header.bind fun header => ?_
  by_cases hopcode : headerOpcode header ≠ expectedOpcode
  · rw [if_pos hopcode]
    by_cases hother : headerOpcode header ≠ SERVER_ERROR ∨ headerSize header ≠ SERVER_ERROR_SIZE
    · rw [if_pos hother]
      exact setError_fails fun b _ => bad b
    · rw [if_neg hother, not_ne_iff.mp (not_or.mp hother).2]
      exact error.bind fun _ => spec_throw fun _ h => h _
  · rw [if_neg hopcode]
    by_cases hsize : (!variableSize) = true ∧ headerSize header ≠ expectedSize
        ∨ variableSize = true ∧ headerSize header < expectedSize
    · rw [if_pos hsize]
      exact setError_fails fun b _ => bad b
    · rw [if_neg hsize]
      refine spec_pure fun b hb => ⟨hb, ?_⟩
      cases variableSize <;> simpa using hsize

/-- An event that there is no memory for puts the backend in error. -/
theorem queueEvent_outcome (a : Answers) (opcode : SeatEvent) (b : Backend) :
    outcome (tryCatch (queueEvent a opcode) fun e => do
        setError
        throw e) b
      = if a.calloc b.received.length then
          (.ok (), { b with
            pendingEvents := ⟨opcode, b.received.length⟩ :: b.pendingEvents
            received := b.received ++ [opcode] })
        else (.error (ENOMEM : Int), b.failed) := by
  have hqueue : outcome (queueEvent a opcode) b = if a.calloc b.received.length then
          (.ok (), { b with
            pendingEvents := ⟨opcode, b.received.length⟩ :: b.pendingEvents
            received := b.received ++ [opcode] })
        else (.error (ENOMEM : Int), b) := by
    unfold queueEvent
    rw [outcome_bind]
    show outcome (if a.calloc b.received.length then _ else _ : Api Unit) b = _
    split_ifs <;> rfl
  rw [outcome_tryCatch, hqueue]
  split_ifs <;> rfl

/-- `header` is taken off the connection, which leaves `conn`. -/
abbrev Backend.Takes (b : Backend) (header : List UInt8) (conn : Connection) : Prop :=
  connectionGet b.connection HEADER_SIZE = (.ok header, conn)

/-- A header of neither a pong nor an event. -/
def IsResponse (header : List UInt8) : Prop :=
  headerOpcode header ≠ SERVER_PONG ∧ seatEvent (headerOpcode header) = none

/-- **`read_and_queue`**, with an invariant `I` of its loop: what holds before it takes a header
must hold after a pong and after an event; it ends where no whole header is left, where there is no
memory for an event, and at a response. -/
theorem readAndQueue_rule {a : Answers} {wanted : Bool} {I : Nat → Backend → Prop}
    {Q : Nat × Nat → Backend → Prop}
    (short : ∀ {packets b}, I packets b → b.Short → Q (packets, 0) b)
    (pong : ∀ {packets b header conn}, I packets b → b.Takes header conn →
      headerOpcode header = SERVER_PONG →
      I (packets + 1) { b with connection := conn, awaitingPong := false })
    (event : ∀ {packets b header conn ev}, I packets b → b.Takes header conn →
      headerOpcode header ≠ SERVER_PONG → seatEvent (headerOpcode header) = some ev →
      if a.calloc b.received.length then
        I (packets + 1) { b with
          connection := conn
          pendingEvents := ⟨ev, b.received.length⟩ :: b.pendingEvents
          received := b.received ++ [ev] }
      else ∀ b' : Backend, b'.error = true → E ENOMEM b')
    (response : ∀ {packets b header conn}, I packets b → b.Takes header conn → IsResponse header →
      if wanted then Q (packets + 1,
        if connectionPending conn ≥ headerSize header then headerOpcode header else 0) b
      else ∀ b' : Backend, b'.error = true → E EBADMSG b') :
    Spec (I 0) (readAndQueue a wanted) Q E := by
  -- every turn takes a header, so that the turns do not run out
  have hloop : ∀ turns packets,
      Spec (fun b => I packets b ∧ b.connection.inp.size < HEADER_SIZE * turns)
        (readAndQueueLoop a wanted turns packets) Q E := by
    intro turns
    induction turns with
    | zero => exact fun _ => spec_pure fun _ h => absurd h.2 (Nat.not_lt_zero _)
    | succ turns ih =>
        intro packets
        refine spec_get_bind fun b ⟨hb, hturns⟩ => ?_
        rcases hget : connectionGet b.connection HEADER_SIZE with ⟨e | header, conn⟩
        · exact short hb (connectionGet_eq_error hget)
        have hsize : conn.inp.size < HEADER_SIZE * turns := turn_size hget hturns
        dsimp only
        rw [outcome_bind, outcome_modify]
        dsimp only
        by_cases hpong : headerOpcode header = SERVER_PONG
        · have hnext := pong hb hget hpong
          rw [if_pos hpong, outcome_bind, outcome_modify]
          exact ih _ _ ⟨hnext, hsize⟩
        rw [if_neg hpong]
        cases hev : seatEvent (headerOpcode header) with
        | some ev =>
            have hnext := event hb hget hpong hev
            dsimp only
            rw [outcome_bind, queueEvent_outcome]
            split_ifs at hnext ⊢
            · exact ih _ _ ⟨hnext, hsize⟩
            · exact hnext _ (failed_error _)
        | none =>
            have hends := response hb hget ⟨hpong, hev⟩
            cases wanted with
            | true =>
                have hsame : ({ b with connection := connectionRestore conn HEADER_SIZE } : Backend)
                    = b := by rw [restore_get hget]
                rw [← hsame] at hends
                exact hends
            | false => exact hends _ (failed_error _)
  refine spec_get_bind fun b hb => hloop _ 0 b ⟨hb, ?_⟩
  show b.connection.inp.size < 4 * (b.connection.inp.size + 1)
  omega

/-! ## Reading -/

/-- **`poll_connection`**: it finds nothing to read, or gives up on the connection, or reads. -/
theorem pollConnection_rule {a : Answers} {Q : Nat → Backend → Prop}
    (nothing : ∀ b, P b → a.poll ≠ .ready false true → Q 0 b)
    (fails : ∀ b (e : Nat), P b → a.poll = .fail e → ¬(e = EAGAIN ∨ e = EINTR) → E e b)
    (failed : ∀ (b : Backend) (e : Nat), e ≠ EAGAIN → E e b.failed)
    (read : ∀ (b : Backend) len, P b → a.poll = .ready false true →
      (connectionRead b.connection a.recv).1 = .ok len → len ≠ 0 → Q len (b.read a.recv))
    (again : ∀ b : Backend, P b → a.poll = .ready false true →
      (connectionRead b.connection a.recv).1 = .error EAGAIN → E EAGAIN (b.read a.recv)) :
    Spec P (pollConnection a) Q E := by
  intro b hb
  unfold pollConnection
  cases hpoll : a.poll with
  | fail e =>
      dsimp only
      split_ifs with hnone
      · exact nothing b hb (by simp [hpoll])
      · exact fails b e hb hpoll hnone
  | ready hangup readable =>
      cases hangup with
      | true => exact failed b EPIPE (by decide)
      | false =>
          cases readable with
          | false => exact nothing b hb (by simp [hpoll])
          | true =>
              have hread : outcome (connRead a) b
                  = (.ok (connectionRead b.connection a.recv).1, b.read a.recv) := rfl
              show Ends _ _ (outcome (connRead a >>= _) b)
              rw [outcome_bind, hread]
              dsimp only
              cases hresult : (connectionRead b.connection a.recv).1 with
              | ok len =>
                  dsimp only
                  split_ifs with hzero
                  · exact failed _ EIO (by decide)
                  · exact read b len hb hpoll hresult hzero
              | error e =>
                  dsimp only
                  split_ifs with hother
                  · exact failed _ e hother
                  · rw [not_ne_iff.mp hother] at hresult ⊢
                    exact again b hb hpoll hresult

/-! ## Properties that are never lost -/

/-- A property that holds in error and survives what takes bytes off the connection or leaves it
alone. -/
structure Closed (P : Backend → Prop) : Prop where
  failed : ∀ b : Backend, P b.failed
  same : ∀ {b b' : Backend}, P b → b'.error = b.error →
    b'.connection.inp.size ≤ b.connection.inp.size → b'.pendingEvents = b.pendingEvents → P b'
  queue : ∀ a wanted, Keeps P (readAndQueue a wanted)

/-- Nothing clears the error. -/
theorem closed_error : Closed fun b => b.error = true where
  failed := failed_error
  same h herror _ _ := herror.trans h
  queue a wanted := by
    refine (readAndQueue_rule (I := fun _ b => b.error = true) (Q := fun _ b => b.error = true)
      (E := fun _ b => b.error = true) (fun h _ => h) (fun h _ _ => h) (fun h _ _ _ => ?_)
      fun h _ _ => ?_).keeps
    · split_ifs
      · exact h
      · exact fun _ he => he
    · split_ifs
      · exact h
      · exact fun _ he => he

section

variable (hP : Closed P)
include hP

theorem Closed.sendRequest (a : Answers) (r : Request) : Keeps P (sendRequest a r) :=
  ((sendRequest_sends (fun _ _ _ hinp h => hP.same h rfl (congrArg _ hinp).le rfl) a r).weaken
    (fun _ h => h) (fun _ _ h => h) fun _ _ ⟨b', _, hb⟩ => hb ▸ hP.failed b').keeps

theorem Closed.sendPing (a : Answers) : Keeps P (sendPing a) :=
  ((sendPing_sends (fun _ _ _ hinp h => hP.same h rfl (congrArg _ hinp).le rfl) a).weaken
    (fun _ h => h) (fun _ _ h => h) fun _ _ ⟨b', _, hb⟩ => hb ▸ hP.failed b').keeps

theorem Closed.fails {α : Type} (e : Int) : Keeps P (setError >>= fun _ => throw e : Api α) :=
  fun b _ => hP.failed b

theorem Closed.connGet (count : Nat) : Keeps P (connGet count) := by
  refine keeps_get_bind fun b hb => ?_
  rcases hget : connectionGet b.connection count with ⟨e | data, conn⟩
  · exact hP.failed b
  · have hle : conn.inp.size ≤ b.connection.inp.size := by
      obtain ⟨hcount, -, rfl⟩ := connectionGet_eq_ok hget
      exact (RingBuffer.size_skip b.connection.inp hcount).trans_le (Nat.sub_le _ _)
    exact hP.same hb rfl hle rfl

theorem Closed.connGetFd : Keeps P connGetFd := by
  refine keeps_get_bind fun b hb => ?_
  have hinp := connectionGetFd_inp b.connection
  rcases hget : connectionGetFd b.connection with ⟨e | fd, conn⟩
  · exact hP.failed b
  · rw [hget] at hinp
    exact hP.same hb rfl (congrArg _ hinp).le rfl

theorem Closed.readHeader (expectedOpcode expectedSize : Nat) (variableSize : Bool) :
    Keeps P (readHeader expectedOpcode expectedSize variableSize) := by
  refine (hP.connGet _).bind fun header => ?_
  dsimp only
  split_ifs
  · exact hP.fails _
  · exact (hP.connGet _).bind fun _ => keeps_throw _
  · exact hP.fails _
  · exact keeps_pure _

theorem Closed.readResponse (r : Request) : Keeps P (readResponse r) := by
  cases r with
  | openDevice path =>
      exact (hP.readHeader _ _ _).bind fun _ => (hP.connGet _).bind fun _ =>
        hP.connGetFd.bind fun _ => keeps_pure _
  | openSeat | closeSeat | closeDevice _ | disableSeat | switchSession _ | ping =>
      exact (hP.readHeader _ _ _).bind fun _ => keeps_pure _

theorem Closed.seatOpened : Keeps P seatOpened := by
  refine (hP.readHeader _ _ _).bind fun size => (hP.connGet _).bind fun len => ?_
  dsimp only
  split_ifs
  · exact keeps_throw _
  · exact keeps_throw _
  · refine (hP.connGet _).bind fun data => ?_
    split_ifs
    all_goals first
      | exact keeps_throw _
      | exact keeps_modify fun _ hb => hP.same hb rfl le_rfl rfl

theorem Closed.checkPendingEvents (a : Answers) : Keeps P (checkPendingEvents a) := by
  refine (hP.queue a false).bind fun _ => keeps_get_bind fun b hb => ?_
  split_ifs
  · exact hb
  · exact hb
  · refine ((hP.sendPing a).bind fun _ => ?_) b hb
    exact keeps_modify fun _ hb => hP.same hb rfl le_rfl rfl

theorem Closed.finish (a : Answers) (r : Request) (outcome : Except Int Unit) :
    Stays P (finish a r outcome) := by
  cases r with
  | openSeat =>
      cases outcome with
      | error e => exact stays_pure _
      | ok u =>
          refine hP.seatOpened.stays.bind fun result => ?_
          cases result <;> exact stays_pure _
  | closeSeat =>
      refine (hP.readHeader _ _ _).stays.bind fun result => ?_
      cases result with
      | error e => exact stays_pure _
      | ok size => cases outcome <;> exact stays_pure _
  | openDevice _ | closeDevice _ | disableSeat | switchSession _ | ping =>
      cases outcome with
      | error e => exact stays_pure _
      | ok u =>
          exact (hP.readResponse _).stays.bind fun _ =>
            (hP.checkPendingEvents a).stays.bind fun _ => stays_pure _

theorem Closed.awaitResponse (a : Answers) (r : Request) : Stays P (awaitResponse a r) := by
  refine (hP.queue a true).stays.bind fun result => ?_
  cases result with
  | error e => exact hP.finish a r _
  | ok p =>
      dsimp only
      split_ifs
      · exact stays_pure _
      · exact hP.finish a r _

theorem Closed.request (a : Answers) (r : Request) : Stays P (request a r) := by
  refine (hP.sendRequest a r).stays.bind fun result => ?_
  cases result with
  | error e => exact hP.finish a r _
  | ok u => exact hP.awaitResponse a r

theorem Closed.call (a : Answers) (r : Request) : Stays P (call a r) := by
  intro b hb
  unfold Libseat.call
  show P (StateT.run (if b.error then _ else _ : StateM Backend Next) b).2
  split_ifs
  · cases r <;> exact hb
  · exact hb
  · exact hP.request a r b hb

theorem Closed.dispatch (a : Answers) (timeout : Int) : Stays P (dispatch a timeout) := by
  intro b hb
  unfold Libseat.dispatch
  show P (StateT.run (if b.error then _ else _ : StateM Backend Next) b).2
  split_ifs
  · exact hb
  · refine ((hP.queue a false).stays.bind fun result => ?_) b hb
    cases result <;> exact stays_pure _

theorem Closed.postdispatch (a : Answers) (predispatch : Nat) :
    Stays P (postdispatch a predispatch) := by
  refine (hP.queue a false).stays.bind fun result => ?_
  cases result <;> exact stays_pure _

/-! Reading may bring bytes, and the property has to survive that. -/

variable {a : Answers} (hread : ∀ b : Backend, P b → P (b.read a.recv))
include hread

theorem Closed.pollConnection : Keeps P (pollConnection a) :=
  (pollConnection_rule (Q := fun _ => P) (E := fun _ => P) (fun _ h _ => h) (fun _ _ h _ _ => h)
    (fun b _ _ => hP.failed b) (fun b _ h _ _ _ => hread b h) fun b h _ _ => hread b h).keeps

theorem Closed.wake (r : Request) : Stays P (wake a r) := by
  refine (hP.pollConnection hread).stays.bind fun result => ?_
  cases result with
  | error e => exact hP.finish a r _
  | ok len => exact hP.awaitResponse a r

theorem Closed.dispatchRead (immediate : Bool) : Stays P (dispatchRead a immediate) := by
  cases immediate with
  | true =>
      refine Stays.bind (m := (connRead a).run) hread fun result => ?_
      rcases result with e | (e | len) <;> exact stays_pure _
  | false => exact (hP.pollConnection hread).stays

theorem Closed.afterEvents (executed : Nat) (k : Cont) : Stays P (afterEvents a executed k) := by
  cases k with
  | predispatch packets timeout =>
      refine (hP.dispatchRead hread _).bind fun result => ?_
      cases result with
      | ok len | error e =>
          dsimp only
          split_ifs
          · exact stays_pure _
          · exact hP.postdispatch a _
  | postdispatch _ _ | openSeat | closeSeat _ => exact stays_pure _

end

end DdeSeatd.Libseat
