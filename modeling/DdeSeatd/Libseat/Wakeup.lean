import DdeSeatd.Libseat.Pongs

set_option autoImplicit false

/-! # Events at the return of a call

An application polls the file descriptor of the connection and dispatches when it is readable.
Events that the library has already read, or that sit in its in ring, do not make the descriptor
readable; `check_pending_events` sends a ping for them, whose pong does. A call may therefore
return with events pending only while a pong is awaited.

The requests that answer at once take what is in the ring behind their response and send the
ping. `dispatch` executes what it finds, but its callbacks may call requests that queue more.
`open_seat` reads its response and executes what is queued; what came in behind the response
stays in the ring, and nothing is sent for it. The theorem here says what has to be given, read by
read, so that every call that returns success leaves a pong to come for the events it leaves.
-/

namespace DdeSeatd.Libseat

open Fallible RingBuffer

/-! ## The responses of a byte stream -/

/-- The number of response headers in a stream, of which the first bytes are the rest of a
response. The frames are those of `seatEventsAfter`. -/
def responsesAfter : Nat → List UInt8 → Nat
  | _, [] => 0
  | skip + 1, _ :: rest => responsesAfter skip rest
  | 0, o₀ :: o₁ :: s₀ :: s₁ :: rest =>
      if bytesUint16 [o₀, o₁] = SERVER_PONG then responsesAfter 0 rest
      else
        match seatEvent (bytesUint16 [o₀, o₁]) with
        | some _ => responsesAfter 0 rest
        | none => responsesAfter (bytesUint16 [s₀, s₁]) rest + 1
  | 0, _ => 0

theorem responsesAfter_append {data : List UInt8} (rest : List UInt8) : ∀ n : Nat,
    responsesAfter (n + data.length) (data ++ rest) = responsesAfter n rest := by
  induction data with
  | nil => exact fun _ => rfl
  | cons x data ih => exact fun n => ih n

/-- The seat events of a stream behind its first response. -/
def eventsBehind : List UInt8 → List SeatEvent
  | o₀ :: o₁ :: s₀ :: s₁ :: rest =>
      if bytesUint16 [o₀, o₁] = SERVER_PONG then eventsBehind rest
      else
        match seatEvent (bytesUint16 [o₀, o₁]) with
        | some _ => eventsBehind rest
        | none => seatEventsAfter (bytesUint16 [s₀, s₁]) rest
  | _ => []

section Header

variable {header : List UInt8} (h : header.length = HEADER_SIZE) (rest : List UInt8)
include h

/-- A pong or an event is not a response. -/
theorem frames_event
    (hevent : headerOpcode header = SERVER_PONG ∨ seatEvent (headerOpcode header) ≠ none) :
    responsesAfter 0 (header ++ rest) = responsesAfter 0 rest
      ∧ eventsBehind (header ++ rest) = eventsBehind rest := by
  obtain ⟨o₀, o₁, s₀, s₁, rfl⟩ := List.length_eq_four.mp h
  have hopcode : bytesUint16 [o₀, o₁] = headerOpcode [o₀, o₁, s₀, s₁] := rfl
  simp only [List.cons_append, List.nil_append, responsesAfter, eventsBehind, hopcode]
  by_cases hpong : headerOpcode [o₀, o₁, s₀, s₁] = SERVER_PONG
  · rw [if_pos hpong, if_pos hpong]
    exact ⟨rfl, rfl⟩
  · obtain ⟨ev, hev⟩ := Option.ne_none_iff_exists'.mp (hevent.resolve_left hpong)
    rw [if_neg hpong, if_neg hpong, hev]
    exact ⟨rfl, rfl⟩

theorem frames_response (hpong : headerOpcode header ≠ SERVER_PONG)
    (hev : seatEvent (headerOpcode header) = none) :
    responsesAfter 0 (header ++ rest) = responsesAfter (headerSize header) rest + 1
      ∧ eventsBehind (header ++ rest) = seatEventsAfter (headerSize header) rest := by
  obtain ⟨o₀, o₁, s₀, s₁, rfl⟩ := List.length_eq_four.mp h
  have hopcode : bytesUint16 [o₀, o₁] = headerOpcode [o₀, o₁, s₀, s₁] := rfl
  simp only [List.cons_append, List.nil_append, responsesAfter, eventsBehind, hopcode]
  rw [if_neg hpong, if_neg hpong, hev]
  exact ⟨rfl, rfl⟩

end Header

/-- `R` is a property of streams, and `M` one of streams of which the first bytes are the rest of a
response: the first response of a stream with `R` leaves one with `M`. -/
structure Framed (R : List UInt8 → Prop) (M : Nat → List UInt8 → Prop) : Prop where
  response : ∀ {header rest : List UInt8}, header.length = HEADER_SIZE →
    headerOpcode header ≠ SERVER_PONG → seatEvent (headerOpcode header) = none →
    R (header ++ rest) → M (headerSize header) rest
  payload : ∀ {n : Nat} {data rest : List UInt8}, M (n + data.length) (data ++ rest) → M n rest

theorem framed_responses :
    Framed (fun bs => responsesAfter 0 bs ≤ 1) fun n bs => responsesAfter n bs ≤ 0 where
  response h hpong hev hone := by
    rw [(frames_response h _ hpong hev).1] at hone
    exact Nat.le_of_succ_le_succ hone
  payload hnone := (responsesAfter_append _ _).symm.trans_le hnone

theorem framed_behind :
    Framed (fun bs => eventsBehind bs = []) fun n bs => seatEventsAfter n bs = [] where
  response h hpong hev hnone := (frames_response h _ hpong hev).2.symm.trans hnone
  payload {n data rest} hnone := by
    rwa [seatEventsAfter_append rest (Nat.le_add_left _ _), Nat.add_sub_cancel] at hnone

theorem seatEvents_short {bs : List UInt8} (h : bs.length < HEADER_SIZE) : seatEvents bs = [] := by
  rcases bs with _ | ⟨_, _ | ⟨_, _ | ⟨_, _ | ⟨_, rest⟩⟩⟩⟩
  · rfl
  · rfl
  · rfl
  · rfl
  · exact absurd h (by simp [HEADER_SIZE])

/-! ## The computations of a request -/

/-- Not in error, with bytes in the in ring that have the given property. -/
def Backend.Holds (R : List UInt8 → Prop) (b : Backend) : Prop :=
  b.error = false ∧ R b.connection.inp.toList

/-- There is a pong to come for the events that are queued. -/
def Backend.Pings (b : Backend) : Prop := b.pendingEvents ≠ [] → b.awaitingPong = true

/-- Nothing is left in the ring, and there is a pong to come for what is queued. -/
structure Backend.Rests (b : Backend) : Prop where
  short : b.Short
  pings : b.Pings
  dropped : b.error = true → b.pendingEvents = []

/-- A response was taken: it was refused with an error, or what is left has the given property. -/
def Backend.Answered (R : List UInt8 → Prop) (e : Int) (b : Backend) : Prop :=
  b.error = true ∧ 0 < e ∨ b.Holds R

section Response

variable {R : List UInt8 → Prop} {M : Nat → List UInt8 → Prop} (hM : Framed R M)
include hM

theorem connGet_holds (n count : Nat) :
    Spec (Backend.Holds (M (n + count))) (connGet count) (fun _ => Backend.Holds (M n))
      fun e b => b.error = true ∧ 0 < e := by
  refine spec_get_bind fun b hb => ?_
  rcases hget : connectionGet b.connection count with ⟨e | data, conn⟩
  · exact ⟨failed_error b, show (0 : Int) < 74 by decide⟩
  · obtain ⟨hlist, hlen⟩ := get_toList hget
    have hbytes := hb.2
    rw [hlist, ← hlen] at hbytes
    exact ⟨hb.1, hM.payload hbytes⟩

/-- `read_header` takes the first response there is. -/
theorem readHeader_holds (expectedOpcode expectedSize : Nat) (variableSize : Bool) :
    Spec (fun b => b.Holds R ∧ b.AtResponse) (readHeader expectedOpcode expectedSize variableSize)
      (fun size b => b.Holds (M size)
        ∧ if variableSize then expectedSize ≤ size else size = expectedSize)
      (Backend.Answered (M 0)) := by
  have hheader : Spec (fun b => b.Holds R ∧ b.AtResponse) (connGet HEADER_SIZE)
      (fun header => Backend.Holds (M (headerSize header))) (Backend.Answered (M 0)) := by
    refine spec_get_bind fun b hb => ?_
    rcases hget : connectionGet b.connection HEADER_SIZE with ⟨e | header, conn⟩
    · exact .inl ⟨failed_error b, show (0 : Int) < 74 by decide⟩
    · obtain ⟨hpong, hev⟩ := hb.2 (by simpa using (connectionGet_eq_ok hget).1)
      rw [← headerOpcode_get hget] at hpong hev
      obtain ⟨hlist, hlen⟩ := get_toList hget
      have hbytes := hb.1.2
      rw [hlist] at hbytes
      exact ⟨hb.1.1, hM.response hlen hpong hev hbytes⟩
  refine readHeader_rule _ _ _ hheader ?_ fun b => .inl ⟨failed_error b, by decide⟩
  rw [← Nat.zero_add SERVER_ERROR_SIZE]
  exact (connGet_holds hM 0 SERVER_ERROR_SIZE).weaken (fun _ h => h) (fun _ _ h _ => .inr h)
    fun _ _ h => .inl h

end Response

/-- There is no other response in the ring. -/
def Backend.Last (b : Backend) : Prop := b.Holds fun bs => responsesAfter 0 bs ≤ 0

/-- There is at most one response in the ring. -/
def Backend.Single (b : Backend) : Prop := b.Holds fun bs => responsesAfter 0 bs ≤ 1

def Backend.Refused (e : Int) (b : Backend) : Prop :=
  Backend.Answered (fun bs => responsesAfter 0 bs ≤ 0) e b

theorem connGetFd_last :
    Spec Backend.Last connGetFd (fun _ => Backend.Last) fun e b => b.error = true ∧ 0 < e := by
  refine spec_get_bind fun b hb => ?_
  have hinp := connectionGetFd_inp b.connection
  rcases hget : connectionGetFd b.connection with ⟨e | fd, conn⟩
  · exact ⟨failed_error b, show (0 : Int) < 74 by decide⟩
  · rw [hget] at hinp
    refine ⟨hb.1, ?_⟩
    show responsesAfter 0 conn.inp.toList ≤ 0
    rw [show conn.inp = b.connection.inp from hinp]
    exact hb.2

theorem readResponse_holds (r : Request) :
    Spec (fun b => b.Single ∧ b.AtResponse) (readResponse r) (fun _ => Backend.Last)
      Backend.Refused := by
  have hbare : ∀ opcode, Spec (fun b => b.Single ∧ b.AtResponse)
      (readHeader opcode 0 false >>= fun _ => pure ⟨0, none⟩ : Api Reply)
      (fun _ => Backend.Last) Backend.Refused := by
    intro opcode
    refine (readHeader_holds framed_responses opcode 0 false).bind fun size =>
      spec_pure fun b hb => ?_
    obtain rfl : size = 0 := hb.2
    exact hb.1
  cases r with
  | openSeat | closeSeat | closeDevice _ | disableSeat | switchSession _ | ping => exact hbare _
  | openDevice path =>
      refine (readHeader_holds framed_responses _ 4 false).bind fun size => ?_
      have hget : Spec (fun b => b.Holds (fun bs => responsesAfter size bs ≤ 0)
            ∧ if false = true then 4 ≤ size else size = 4)
          (connGet 4) (fun _ => Backend.Last) Backend.Refused := by
        refine (connGet_holds framed_responses 0 4).weaken (fun b hb => ?_) (fun _ _ h => h)
          fun _ _ h => .inl h
        obtain rfl : size = 0 + 4 := hb.2
        exact hb.1
      refine hget.bind fun _ => ?_
      exact (connGetFd_last.weaken (fun _ h => h) (fun _ _ h => h)
        fun _ _ h => .inl h).bind fun _ => spec_pure fun _ h => h

/-- `open_seat` takes its response as a whole, so that no event is left where there is none behind
the response. -/
theorem seatOpened_holds :
    Spec (fun b => b.Holds (fun bs => eventsBehind bs = []) ∧ b.AtResponse) seatOpened
      (fun _ => Backend.Holds fun bs => seatEvents bs = []) fun _ _ => True := by
  refine ((readHeader_holds framed_behind _ 2 true).weaken (fun _ h => h) (fun _ _ h => h)
    fun _ _ _ => trivial).bind fun size => ?_
  have hlen : Spec (fun b => b.Holds (fun bs => seatEventsAfter size bs = [])
        ∧ if true = true then 2 ≤ size else size = 2) (connGet 2)
      (fun _ => Backend.Holds fun bs => seatEventsAfter (size - 2) bs = []) fun _ _ => True := by
    refine fun b hb => ((connGet_holds framed_behind (size - 2) 2).weaken (fun _ h => h)
      (fun _ _ h => h) fun _ _ _ => trivial) b ?_
    rw [Nat.sub_add_cancel (show 2 ≤ size from hb.2)]
    exact hb.1
  refine hlen.bind fun len => ?_
  dsimp only
  split_ifs with hne
  · exact spec_throw fun _ _ => trivial
  · exact spec_throw fun _ _ => trivial
  · refine ((connGet_holds framed_behind 0 _).weaken (fun b hb => ?_) (fun _ _ h => h)
      fun _ _ _ => trivial).bind fun data => ?_
    · rw [Nat.zero_add, not_ne_iff.mp hne]
      exact hb
    split_ifs
    all_goals first
      | exact spec_throw fun _ _ => trivial
      | exact spec_modify fun _ h => h

/-- There is memory for every event. -/
def Answers.Allocates (a : Answers) : Prop := ∀ n, a.calloc n = true

/-- `read_and_queue` keeps what does not look at pongs and events, and does not fail where its
caller expects a response or there is none. -/
theorem readAndQueue_holds {a : Answers} (ha : a.Allocates) {wanted : Bool}
    {R : List UInt8 → Prop}
    (hevent : ∀ {header rest : List UInt8}, header.length = HEADER_SIZE →
      headerOpcode header = SERVER_PONG ∨ seatEvent (headerOpcode header) ≠ none →
      R (header ++ rest) → R rest)
    (hnone : wanted = false → ∀ {bs : List UInt8}, R bs → responsesAfter 0 bs = 0) :
    Spec (Backend.Holds R) (readAndQueue a wanted)
      (fun _ b => b.Holds R ∧ b.AtResponse ∧ (wanted = false → b.Short)) fun _ _ => False := by
  refine readAndQueue_rule (I := fun _ => Backend.Holds R) (fun hb hshort => ?_)
    (fun hb hget hpong => ?_) (fun hb hget hpong hev => ?_) fun hb hget hresponse => ?_
  · refine ⟨hb, fun hlen => ?_, fun _ => hshort⟩
    rw [toList_length] at hlen
    exact absurd hlen (Nat.not_le_of_lt hshort)
  · obtain ⟨hlist, hlen⟩ := get_toList hget
    exact ⟨hb.1, hevent hlen (.inl hpong) (hlist ▸ hb.2)⟩
  · obtain ⟨hlist, hlen⟩ := get_toList hget
    rw [if_pos (ha _)]
    exact ⟨hb.1, hevent hlen (.inr (by simp [hev])) (hlist ▸ hb.2)⟩
  · obtain ⟨hlist, hlen⟩ := get_toList hget
    cases wanted with
    | true =>
        refine ⟨hb, fun _ => ?_, fun hno => absurd hno Bool.true_eq_false.mp⟩
        rw [← headerOpcode_get hget]
        exact hresponse
    | false =>
        have hzero := hnone rfl hb.2
        rw [hlist, (frames_response hlen _ hresponse.1 hresponse.2).1] at hzero
        exact absurd hzero (Nat.succ_ne_zero _)

theorem Backend.rests_failed {b : Backend} (h : b.error = false ∧ b.Short) : b.failed.Rests := by
  have hfailed : b.failed = cleanup { b with error := true } := if_neg (by simp [h.1])
  rw [hfailed]
  exact ⟨h.2, fun hne => absurd rfl hne, fun _ => rfl⟩

/-- **`check_pending_events` leaves no event without a pong to come**, unless it fails, and then
it leaves no event. -/
theorem checkPendingEvents_rests {a : Answers} (ha : a.Allocates) :
    Spec Backend.Last (checkPendingEvents a) (fun _ => Backend.Rests) fun _ => Backend.Rests := by
  have hqueue : Spec Backend.Last (readAndQueue a false)
      (fun _ b => b.error = false ∧ b.Short) fun _ => Backend.Rests :=
    (readAndQueue_holds ha (fun hlen hevent h => (frames_event hlen _ hevent).1.symm.trans_le h)
      fun _ _ h => Nat.le_zero.mp h).weaken (fun _ h => h)
      (fun _ _ h => ⟨h.1.1, h.2.2 rfl⟩) fun _ _ h => h.elim
  refine hqueue.bind fun _ => spec_get_bind fun b hb => ?_
  have hok : b.Pings → b.Rests := fun hp => ⟨hb.2, hp, fun he => by simp [hb.1] at he⟩
  split_ifs with hnil hawaits
  · exact hok fun hne => absurd hnil hne
  · exact hok fun _ => hawaits
  · have hping : Spec (fun b => b.error = false ∧ b.Short) (sendPing a)
        (fun _ b => b.error = false ∧ b.Short) fun _ => Backend.Rests := by
      have hsent : ∀ (b : Backend) (conn : Connection) (sent : List Segment),
          conn.inp = b.connection.inp → b.error = false ∧ b.Short →
            b.error = false ∧ Backend.Short { b with connection := conn, sent := sent } :=
        fun b conn sent hinp h => ⟨h.1, show conn.inp.size < HEADER_SIZE from hinp ▸ h.2⟩
      refine (sendPing_sends hsent a).weaken (fun _ h => h) (fun _ _ h => h) ?_
      rintro e b ⟨b', hb', rfl⟩
      exact Backend.rests_failed hb'
    refine (hping.bind fun _ => spec_modify fun b' hb' => ?_) b hb
    exact ⟨hb'.2, fun _ => rfl, fun he => by simp [hb'.1] at he⟩

/-! ## The entry points -/

/-- There is a pong to come for the events that are queued or in the in ring. -/
def Backend.Woken (b : Backend) : Prop :=
  b.pendingEvents ≠ [] ∨ seatEvents b.connection.inp.toList ≠ [] → b.Awaits

theorem Backend.Short.seatEvents {b : Backend} (h : b.Short) :
    seatEvents b.connection.inp.toList = [] :=
  seatEvents_short ((toList_length _).trans_lt h)

theorem Backend.Rests.woken {b : Backend} (h : b.Rests) : b.Woken := by
  intro hevents
  have hne : b.pendingEvents ≠ [] := hevents.resolve_right (not_not.mpr h.short.seatEvents)
  refine ⟨?_, h.pings hne⟩
  by_contra he
  exact hne (h.dropped (by simpa using he))

/-- `execute_events` may go on with `k`: the backend is not in error, `dispatch` has left no whole
header in the ring and `open_seat` no whole event. -/
def Cont.Clear (b : Backend) : Cont → Prop
  | .predispatch _ _ | .postdispatch _ _ => b.error = false ∧ b.Short
  | .openSeat => b.Holds fun bs => seatEvents bs = []
  | .closeSeat _ => True

theorem Backend.Short.clear {b : Backend} (h : b.Short) (he : b.error = false) (k : Cont) :
    k.Clear b := by
  cases k with
  | predispatch _ _ | postdispatch _ _ => exact ⟨he, h⟩
  | openSeat => exact ⟨he, h.seatEvents⟩
  | closeSeat _ => trivial

/-- What holds while the application runs, in a callback if there are frames. -/
def Backend.Attended (frames : List Frame) (b : Backend) : Prop :=
  b.error = false → b.Pings ∧ ∀ f rest, frames = f :: rest → f.cont.Clear b

/-- What holds when the library gives up control. `frames` are those of the call, and `o` says that
it is `open_seat`. -/
def Next.Wakes (frames : List Frame) (o : Prop) (b : Backend) : Next → Prop
  | .returns result => b.Attended frames ∧ ∀ reply, result = .ok reply → b.Woken
  | .waits r => b.error = false ∧ (r = .openSeat → o)
  | .executes k => k.Clear b ∧ (k = .openSeat → o)
  | .destroys _ | .aborts => True

/-- At most one response, and for `open_seat` no event behind it. -/
def Expects (r : Request) (bs : List UInt8) : Prop :=
  responsesAfter 0 bs ≤ 1 ∧ (r = .openSeat → eventsBehind bs = [])

section Requests

variable {frames : List Frame} {o : Prop} {a : Answers} {b : Backend}

theorem Backend.Rests.wakes (h : b.Rests) (r : Request) (reply : Except Int Reply) :
    (replied r reply).Wakes frames o b := by
  have hreturns : ∀ result, (Next.returns result).Wakes frames o b :=
    fun _ => ⟨fun he => ⟨h.pings, fun f _ _ => h.short.clear he f.cont⟩, fun _ _ => h.woken⟩
  unfold replied
  split <;> split
  · exact hreturns _
  · exact hreturns _
  · exact hreturns _
  · split
    · trivial
    · exact hreturns _

/-- A call that fails and leaves the backend in error. -/
theorem Next.wakes_of_error (he : b.error = true) (e : Int) :
    (Next.returns (.error e)).Wakes frames o b :=
  ⟨fun hno => by simp [he] at hno, fun _ hok => by cases hok⟩

theorem Next.wakes_closeSeat (res : Int) :
    (Next.executes (.closeSeat res)).Wakes frames o b :=
  ⟨trivial, fun hno => by cases hno⟩

/-- The backend may be in error only when the reply is one too. -/
theorem finish_answered (ha : a.Allocates) (r : Request) :
    Yields (fun b => b.Single ∧ b.AtResponse)
      ((readResponse r).run >>= fun reply => do
        let _ ← (checkPendingEvents a).run
        pure (replied r reply))
      fun next b => next.Wakes frames o b := by
  have hrests : ∀ reply, Yields Backend.Last
      ((checkPendingEvents a).run >>= fun _ => pure (replied r reply))
      fun next b => next.Wakes frames o b := fun reply =>
    (checkPendingEvents_rests ha).caught (fun _ => yields_pure fun _ h => h.wakes r reply)
      fun _ => yields_pure fun _ h => h.wakes r reply
  refine (readResponse_holds r).caught (fun reply => hrests _) fun e b hb => ?_
  rcases hb with ⟨he, hpos⟩ | hb
  · have hreply : replied r (.error e) = .returns (.error e) := if_pos (by omega)
    have hstays : (outcome (checkPendingEvents a) b).2.error = true :=
      closed_error.checkPendingEvents a b he
    show (replied r (.error e)).Wakes frames o (outcome (checkPendingEvents a) b).2
    rw [hreply]
    exact Next.wakes_of_error hstays e
  · exact hrests _ b hb

theorem finish_wakes (ha : a.Allocates) (r : Request) :
    Yields (fun b => b.Holds (Expects r) ∧ b.AtResponse) (finish a r (.ok ()))
      fun next b => next.Wakes frames (r = .openSeat) b := by
  cases r with
  | openSeat =>
      refine (seatOpened_holds.weaken (fun _ h => ⟨⟨h.1.1, h.1.2.2 rfl⟩, h.2⟩) (fun _ _ h => h)
        fun _ _ h => h).caught (fun _ => ?_) fun _ => yields_pure fun _ _ => trivial
      exact yields_pure fun _ h => ⟨h, fun _ => rfl⟩
  | closeSeat =>
      refine (spec_top (readHeader _ _ _)).caught (fun _ => ?_) fun _ => ?_
      · exact yields_pure fun _ _ => Next.wakes_closeSeat _
      · exact yields_pure fun _ _ => Next.wakes_closeSeat _
  | openDevice _ | closeDevice _ | disableSeat | switchSession _ | ping =>
      exact (finish_answered ha _).weaken (fun _ h => ⟨⟨h.1.1, h.1.2.1⟩, h.2⟩) fun _ _ h => h

theorem finish_wakes_error (a : Answers) (r : Request) (e : Int) :
    Yields (fun b => b.error = true) (finish a r (.error e))
      fun next b => next.Wakes frames (r = .openSeat) b := by
  cases r with
  | openSeat => exact yields_pure fun _ _ => trivial
  | closeSeat =>
      refine (spec_top (readHeader _ _ _)).caught (fun _ => ?_) fun _ => ?_
      · exact yields_pure fun _ _ => Next.wakes_closeSeat _
      · exact yields_pure fun _ _ => Next.wakes_closeSeat _
  | openDevice _ | closeDevice _ | disableSeat | switchSession _ | ping =>
      exact yields_pure fun _ h => Next.wakes_of_error h e

theorem awaitResponse_wakes (ha : a.Allocates) (r : Request) :
    Yields (Backend.Holds (Expects r)) (awaitResponse a r)
      fun next b => next.Wakes frames (r = .openSeat) b := by
  have hevent : ∀ {header rest : List UInt8}, header.length = HEADER_SIZE →
      headerOpcode header = SERVER_PONG ∨ seatEvent (headerOpcode header) ≠ none →
      Expects r (header ++ rest) → Expects r rest := by
    intro header rest hlen hevent h
    obtain ⟨hresponses, hbehind⟩ := frames_event hlen rest hevent
    exact ⟨hresponses ▸ h.1, fun hr => hbehind ▸ h.2 hr⟩
  have hqueue : Spec (Backend.Holds (Expects r)) (readAndQueue a true)
      (fun _ b => b.Holds (Expects r) ∧ b.AtResponse) fun _ b => b.error = true :=
    (readAndQueue_holds ha hevent fun hno => by cases hno).weaken (fun _ h => h)
      (fun _ _ h => ⟨h.1, h.2.1⟩) fun _ _ h => h.elim
  refine hqueue.caught (fun p => ?_) fun e => finish_wakes_error a r e
  dsimp only
  split_ifs
  · exact yields_pure fun _ h => ⟨h.1.1, id⟩
  · exact finish_wakes ha r

theorem request_wakes (ha : a.Allocates) (r : Request) :
    Yields (Backend.Holds (Expects r)) (request a r)
      fun next b => next.Wakes frames (r = .openSeat) b := by
  have hsent : ∀ (b : Backend) (conn : Connection) (sent : List Segment),
      conn.inp = b.connection.inp → b.Holds (Expects r) →
        Backend.Holds (Expects r) { b with connection := conn, sent := sent } := by
    intro b conn sent hinp h
    refine ⟨h.1, ?_⟩
    show Expects r conn.inp.toList
    rw [hinp]
    exact h.2
  refine (sendRequest_sends hsent a r).caught (fun _ => awaitResponse_wakes ha r) fun e => ?_
  refine (finish_wakes_error a r e).weaken ?_ fun _ _ h => h
  rintro b ⟨b', -, rfl⟩
  exact failed_error b'

end Requests

/-! ## Waiting for the daemon -/

theorem decodeCmsgLoop_error {e : Nat} (cmsgs : List Cmsg) : ∀ b overflow closed,
    (decodeCmsgLoop b overflow closed cmsgs).1 = .error e → e = EOVERFLOW := by
  induction cmsgs with
  | nil =>
      intro b overflow closed h
      cases overflow <;> cases h
      rfl
  | cons cmsg cmsgs ih =>
      intro b overflow closed h
      cases cmsg with
      | other => exact ih _ _ _ h
      | rights data =>
          unfold decodeCmsgLoop at h
          dsimp only at h
          split_ifs at h with hroom
          · exact ih _ _ _ h
          · -- the put has room, and fails for nothing else
            by_cases hlong : data.length > CONNECTION_BUFFER_SIZE
            · have hput : connectionBufferPut b data = .error EOVERFLOW := if_pos hlong
              rw [hput] at h
              cases h
              rfl
            · have hput : ∃ b', connectionBufferPut b data = .ok b' := ⟨_, if_neg hlong⟩
              obtain ⟨b', hput⟩ := hput
              rw [hput] at h
              exact ih _ _ _ h

/-- `connection_read` finds nothing only when the kernel says so. -/
theorem connectionRead_again {c : Connection} {results : List RecvResult}
    (h : (connectionRead c results).1 = .error EAGAIN) : recvmsgLoop results = .fail EAGAIN := by
  have hother : (Except.error EOVERFLOW : Except Nat Nat) ≠ .error EAGAIN := fun hno => by cases hno
  unfold connectionRead at h
  split_ifs at h
  · exact absurd h hother
  · cases hrecv : recvmsgLoop results with
    | fail e =>
        rw [hrecv] at h
        cases h
        rfl
    | data bytes cmsgs =>
        rw [hrecv] at h
        dsimp only at h
        rcases hdecode : decodeCmsg c.fdsIn cmsgs with ⟨e | _, fdsIn, closed⟩ <;>
          rw [hdecode] at h
        · have he : e = EOVERFLOW := decodeCmsgLoop_error cmsgs _ _ _ (by
            show (decodeCmsg c.fdsIn cmsgs).1 = _
            rw [hdecode])
          rw [he] at h
          exact absurd h hother
        · cases h

/-- `poll` ends for the reasons `poll_connection` expects, and there is something to read when it
says so. -/
def Answers.Responds (a : Answers) : Prop :=
  (∀ e, a.poll = .fail e → e = EAGAIN ∨ e = EINTR)
    ∧ (a.poll = .ready false true → recvmsgLoop a.recv ≠ .fail EAGAIN)

/-- The backend after the read of `poll_connection`, if there is one. -/
def Backend.heard (b : Backend) (a : Answers) : Backend :=
  if a.poll = .ready false true then b.read a.recv else b

/-- `poll_connection` does not fail without `set_error`. -/
theorem pollConnection_holds {a : Answers} (ha : a.Responds) {R : List UInt8 → Prop} :
    Spec (fun b => b.error = false ∧ R (b.heard a).connection.inp.toList) (pollConnection a)
      (fun _ => Backend.Holds R) fun _ b => b.error = true := by
  refine pollConnection_rule (fun b hb hpoll => ?_) (fun _ e _ hpoll hno => absurd (ha.1 e hpoll) hno)
    (fun b _ _ => failed_error b) (fun b _ hb hpoll _ _ => ?_)
    fun _ _ hpoll hread => absurd (connectionRead_again hread) (ha.2 hpoll)
  · have hheard := hb.2
    unfold Backend.heard at hheard
    rw [if_neg hpoll] at hheard
    exact ⟨hb.1, hheard⟩
  · have hheard := hb.2
    unfold Backend.heard at hheard
    rw [if_pos hpoll] at hheard
    exact ⟨hb.1, hheard⟩

section

variable {frames : List Frame}

theorem wake_wakes {a : Answers} (ha : a.Allocates) (hresponds : a.Responds) (r : Request) :
    Yields (fun b => b.error = false ∧ Expects r (b.heard a).connection.inp.toList) (wake a r)
      fun next b => next.Wakes frames (r = .openSeat) b :=
  (pollConnection_holds hresponds).caught (fun _ => awaitResponse_wakes ha r)
    fun e => finish_wakes_error a r e

theorem call_wakes {a : Answers} (ha : a.Allocates) (r : Request) :
    Yields (fun b => b.Attended frames ∧ Expects r b.connection.inp.toList) (call a r)
      fun next b => next.Wakes frames (r = .openSeat) b := by
  intro b hb
  unfold call
  show Next.Wakes frames _ (StateT.run (if b.error then _ else _ : StateM Backend Next) b).2
    (StateT.run (if b.error then _ else _ : StateM Backend Next) b).1
  split_ifs with he
  · cases r with
    | closeSeat => exact Next.wakes_closeSeat _
    | openSeat | openDevice _ | closeDevice _ | disableSeat | switchSession _ | ping =>
        exact Next.wakes_of_error he _
  · exact ⟨hb.1, fun _ hok => by cases hok⟩
  · exact request_wakes ha r b ⟨by simpa using he, hb.2⟩

theorem readAndQueue_empties (a : Answers) :
    Spec (fun b => b.error = false) (readAndQueue a false) (fun _ b => b.error = false ∧ b.Short)
      fun _ b => b.error = true := by
  intro b hb
  have htook := readAndQueue_took a b
  rcases hout : outcome (readAndQueue a false) b with ⟨e | p, b'⟩ <;> rw [hout] at htook
  · exact htook.2
  · obtain ⟨-, herror, -, -, hsize, -⟩ := htook
    exact ⟨herror.trans hb, hsize.trans_lt (Nat.mod_lt _ (by decide))⟩

theorem dispatch_wakes (a : Answers) (timeout : Int) :
    Yields (fun _ => True) (dispatch a timeout) fun next b => next.Wakes frames False b := by
  intro b _
  cases he : b.error with
  | true =>
      rw [dispatch_of_error a timeout he]
      exact Next.wakes_of_error he _
  | false =>
      have hqueue := readAndQueue_empties a b he
      rw [dispatch_of_ok a timeout he]
      rcases hout : outcome (readAndQueue a false) b with ⟨e | p, b'⟩ <;> rw [hout] at hqueue
      · exact Next.wakes_of_error hqueue _
      · exact ⟨hqueue, fun hno => by cases hno⟩

theorem postdispatch_wakes (a : Answers) (predispatch : Nat) :
    Yields (fun b => b.error = false) (postdispatch a predispatch)
      fun next b => next.Wakes frames False b :=
  (readAndQueue_empties a).caught (fun _ => yields_pure fun _ h => ⟨h, fun hno => by cases hno⟩)
    fun _ => yields_pure fun _ h => Next.wakes_of_error h _

end

/-! ## The second half of `dispatch` -/

/-- `connection_read` returns what the ring holds. -/
theorem connectionRead_size {c : Connection} {results : List RecvResult} {len : Nat}
    (h : (connectionRead c results).1 = .ok len) :
    (connectionRead c results).2.1.inp.size = len := by
  unfold connectionRead at h ⊢
  split_ifs at h ⊢
  cases hrecv : recvmsgLoop results with
  | fail e =>
      rw [hrecv] at h
      cases h
  | data bytes cmsgs =>
      rw [hrecv] at h
      dsimp only at h ⊢
      rcases hdecode : decodeCmsg c.fdsIn cmsgs with ⟨e | _, fdsIn, closed⟩ <;> rw [hdecode] at h
      · cases h
      · cases h
        rfl

/-- A read that brings nothing leaves the ring as it was. -/
theorem Backend.Short.read {b : Backend} (h : b.Short) {results : List RecvResult}
    (hnone : (connectionRead b.connection results).1 = .ok 0
      ∨ ∃ e, (connectionRead b.connection results).1 = .error e) : (b.read results).Short := by
  rcases hnone with hzero | ⟨e, he⟩
  · show (connectionRead b.connection results).2.1.inp.size < HEADER_SIZE
    rw [connectionRead_size hzero]
    decide
  · obtain ⟨bytes, hbytes, -, hnil⟩ := connectionRead_appends b.connection results
      (h.le.trans (by decide))
    have hlen := congrArg List.length hbytes
    rw [hnil e he, List.append_nil, toList_length, toList_length] at hlen
    exact hlen.trans_lt h

/-- The backend between the two halves of `dispatch`, with nothing left to take. -/
def Backend.Idle (b : Backend) : Prop := b.error = false ∧ b.Short ∧ b.Pings

theorem Backend.Idle.read {b : Backend} (h : b.Idle) {results : List RecvResult}
    (hnone : (connectionRead b.connection results).1 = .ok 0
      ∨ ∃ e, (connectionRead b.connection results).1 = .error e) : (b.read results).Idle :=
  ⟨h.1, h.2.1.read hnone, h.2.2⟩

/-- How the read in the middle of `dispatch` ends on such a backend: it leaves it so when it brings
nothing, and with an error when it fails for another reason. -/
def Idles : Except Int Nat → Backend → Prop
  | .ok len, b => b.error = false ∧ (len = 0 → b.Idle)
  | .error e, b => b.error = true ∧ e ≠ EAGAIN ∨ b.Idle

theorem connRead_idle (a : Answers) {E : Int → Backend → Prop} :
    Spec Backend.Idle (connRead a) (fun result b => b.error = false
      ∧ (result = .ok 0 ∨ (∃ e, result = .error e) → b.Idle)) E :=
  fun _ hb => ⟨hb.1, fun hnone => hb.read hnone⟩

theorem pollConnection_idle (a : Answers) :
    Spec Backend.Idle (pollConnection a) (fun len => Idles (.ok len)) fun e => Idles (.error e) :=
  pollConnection_rule (fun _ h _ => ⟨h.1, fun _ => h⟩) (fun _ _ h _ _ => .inr h)
    (fun b _ he => .inl ⟨failed_error b, fun hno => he (Int.ofNat.inj hno)⟩)
    (fun _ _ h _ _ hne => ⟨h.1, fun hzero => absurd hzero hne⟩)
    fun _ h _ hread => .inr (h.read (.inr ⟨_, hread⟩))

theorem dispatchRead_idle (a : Answers) (immediate : Bool) :
    Yields Backend.Idle (dispatchRead a immediate) Idles := by
  cases immediate with
  | true =>
      refine (connRead_idle a).caught (fun result => ?_) fun _ => yields_pure fun _ h => h
      cases result with
      | ok len => exact yields_pure fun b hb => ⟨hb.1, fun hzero => hb.2 (.inl (by rw [hzero]))⟩
      | error e => exact yields_pure fun b hb => .inr (hb.2 (.inr ⟨e, rfl⟩))
  | false =>
      intro b hb
      have hpoll := pollConnection_idle a b hb
      show Idles (outcome (pollConnection a) b).1 (outcome (pollConnection a) b).2
      rcases hout : outcome (pollConnection a) b with ⟨e | len, b'⟩ <;> rw [hout] at hpoll <;>
        exact hpoll

theorem Backend.Idle.wakes {b : Backend} {frames : List Frame} {o : Prop} (h : b.Idle)
    (result : Except Int Reply) : (Next.returns result).Wakes frames o b := by
  have hrests : b.Rests := ⟨h.2.1, h.2.2, fun he => by simp [h.1] at he⟩
  exact ⟨fun he => ⟨h.2.2, fun f _ _ => h.2.1.clear he f.cont⟩, fun _ _ => hrests.woken⟩

theorem afterEvents_wakes {frames : List Frame} (a : Answers) (executed packets : Nat)
    (timeout : Int) : Yields Backend.Idle (afterEvents a executed (.predispatch packets timeout))
      fun next b => next.Wakes frames False b := by
  refine (dispatchRead_idle a _).bind fun result => ?_
  have hpost : Yields (fun b => b.error = false) (postdispatch a (packets + executed))
      fun next b => next.Wakes frames False b := postdispatch_wakes a _
  cases result with
  | ok len =>
      dsimp only
      split_ifs with hzero
      · exact yields_pure fun b hb => (hb.2 hzero).wakes _
      · exact hpost.weaken (fun _ h => h.1) fun _ _ h => h
  | error e =>
      dsimp only
      split_ifs with hother
      · exact yields_pure fun b hb =>
          hb.elim (fun he => Next.wakes_of_error he.1 e) fun hidle => hidle.wakes _
      · exact hpost.weaken (fun _ h => (h.resolve_left fun he => hother he.2).1) fun _ _ h => h

/-! ## Moves -/

/-- Callbacks of `open_seat` are not inside others: there is no backend before it. -/
def OpenSeatLast (frames : List Frame) : Prop :=
  ∀ f rest, f :: rest <:+ frames → f.cont = .openSeat → rest = []

/-- What the moves keep. -/
structure Session.Attends (s : Session) : Prop where
  closed : s.control = .closed → s.backend = Backend.zero
  waiting : ∀ r, s.control = .waiting r →
    s.backend.error = false ∧ (r = .openSeat → s.backend.frames = [])
  app : s.control = .app → s.backend.Attended s.backend.frames
  executing : ∀ k, s.control = .executing k →
    k.Clear s.backend ∧ (k = .openSeat → s.backend.error = false → s.backend.frames = [])
  bottom : s.backend.error = false → OpenSeatLast s.backend.frames

/-- If a call has returned success, there is a pong to come for the events it left. -/
def Session.Woke (s : Session) : Prop :=
  s.control = .app → ∀ reply, s.result = some (.ok reply) → s.backend.Woken

theorem Session.woke_of_none {s : Session} (h : s.result = none) : s.Woke :=
  fun _ _ hok => by rw [h] at hok; cases hok

/-- Calls do not touch the frames of the calls they are nested in. -/
theorem Next.Tracked.frames {b₀ b : Backend} {x : List UInt8} {next : Next}
    (h : next.Tracked b₀ x b) (hnext : ∀ result, next ≠ .destroys result)
    (he : b.error = false) : b.frames = b₀.frames := by
  have hno : ¬ b.error = true := by simp [he]
  cases next with
  | returns _ | executes _ | aborts => exact (Or.resolve_left h hno).2.1
  | waits _ => exact (Or.resolve_left h.1 hno).frames
  | destroys result => exact absurd rfl (hnext result)

theorem Session.attends_enter {s : Session} {m : StateM Backend Next} {x : List UInt8} {o : Prop}
    (hwakes : (m.run s.backend).1.Wakes s.backend.frames o (m.run s.backend).2)
    (htracked : (m.run s.backend).1.Tracked s.backend x (m.run s.backend).2)
    (ho : o → s.backend.frames = [])
    (hbottom : (m.run s.backend).2.error = false → OpenSeatLast s.backend.frames) :
    (s.enter m).Attends ∧ (s.enter m).Woke := by
  unfold Session.enter
  dsimp only
  generalize hb : (m.run s.backend).2 = b at *
  cases hnext : (m.run s.backend).1 with
  | returns result =>
      rw [hnext] at hwakes htracked
      have hframes := htracked.frames (fun _ hno => by cases hno)
      refine ⟨⟨fun hno => (by cases hno), fun _ hno => (by cases hno), fun _ he => ?_,
        fun _ hno => (by cases hno), fun he => ?_⟩, fun _ reply hok => ?_⟩
      · exact hframes he ▸ hwakes.1 he
      · exact (hframes he).symm ▸ hbottom he
      · exact hwakes.2 reply (Option.some.inj hok)
  | waits r =>
      rw [hnext] at hwakes htracked
      have hframes := htracked.frames (fun _ hno => by cases hno)
      refine ⟨⟨fun hno => (by cases hno), fun r' hr => ?_, fun hno => (by cases hno),
        fun _ hno => (by cases hno), fun he => (hframes he).symm ▸ hbottom he⟩,
        fun hno => (by cases hno)⟩
      cases hr
      exact ⟨hwakes.1, fun hopen => (hframes hwakes.1).trans (ho (hwakes.2 hopen))⟩
  | executes k =>
      rw [hnext] at hwakes htracked
      have hframes := htracked.frames (fun _ hno => by cases hno)
      refine ⟨⟨fun hno => (by cases hno), fun _ hno => (by cases hno), fun hno => (by cases hno),
        fun k' hk => ?_, fun he => (hframes he).symm ▸ hbottom he⟩, fun hno => (by cases hno)⟩
      cases hk
      exact ⟨hwakes.1, fun hopen he => (hframes he).trans (ho (hwakes.2 hopen))⟩
  | destroys result =>
      exact ⟨⟨fun _ => rfl, fun _ hno => (by cases hno), fun hno => (by cases hno),
        fun _ hno => (by cases hno), fun _ f rest hsuffix => absurd hsuffix (by simp [Backend.zero])⟩,
        fun hno => (by cases hno)⟩
  | aborts =>
      rw [hnext] at htracked
      have hframes := htracked.frames (fun _ hno => by cases hno)
      exact ⟨⟨fun hno => (by cases hno), fun _ hno => (by cases hno), fun hno => (by cases hno),
        fun _ hno => (by cases hno), fun he => (hframes he).symm ▸ hbottom he⟩,
        fun hno => (by cases hno)⟩

theorem Session.attends_executeEvents {s : Session} {a : Answers} {list : List PendingEvent}
    {executed : Nat} {k : Cont} (hnone : s.result = none)
    (htracks : s.backend.Tracks 0 [] s.backend)
    (hbottom : s.backend.error = false → OpenSeatLast s.backend.frames)
    (hcont : s.backend.error = false → s.backend.Pings ∧ k.Clear s.backend
      ∧ (k = .openSeat → s.backend.frames = []))
    (hgoes : list = [] → s.backend.error = false ∨ ∃ res, k = .closeSeat res) :
    (s.executeEvents a list executed k).Attends ∧ (s.executeEvents a list executed k).Woke := by
  cases list with
  | nil =>
      have htracked := afterEvents_tracks a executed k _ htracks
      rcases hgoes rfl with he | ⟨res, rfl⟩
      · obtain ⟨hpings, hclear, hframes⟩ := hcont he
        refine Session.attends_enter (o := False) ?_ htracked False.elim fun _ => hbottom he
        cases k with
        | predispatch packets timeout =>
            exact afterEvents_wakes a executed packets timeout _ ⟨he, hclear.2, hpings⟩
        | postdispatch _ _ => exact Backend.Idle.wakes ⟨he, hclear.2, hpings⟩ _
        | openSeat =>
            refine ⟨fun _ => ⟨hpings, fun f rest hin => ?_⟩, fun _ _ hevents => ?_⟩
            · exact absurd (hin.symm.trans (hframes rfl)) (List.cons_ne_nil _ _)
            · exact ⟨he, hpings (hevents.resolve_right (not_not.mpr hclear.2))⟩
        | closeSeat res => trivial
      · exact Session.attends_enter (m := afterEvents a executed (.closeSeat res)) (o := False)
          trivial htracked False.elim hbottom
  | cons ev list =>
      refine ⟨⟨fun hno => (by cases hno), fun _ hno => (by cases hno), fun _ he => ?_,
        fun _ hno => (by cases hno), fun he f rest hsuffix hopen => ?_⟩, Session.woke_of_none hnone⟩
      · obtain ⟨hpings, hclear, -⟩ := hcont he
        refine ⟨hpings, fun f rest hin => ?_⟩
        cases hin
        cases k <;> exact hclear
      · rcases List.suffix_cons_iff.mp hsuffix with heq | hsuffix
        · cases heq
          exact (hcont he).2.2 hopen
        · exact hbottom he f rest hsuffix hopen

/-- What has to be given for a move. A request needs memory for the events it queues, no second
response behind the one it reads, and a `poll` that fails for no unforeseen reason; the read of
`open_seat` that brings the response brings no whole event behind it. When the last callback of
`open_seat` or `dispatch` returns, the calls made in it have not put the backend in error. -/
def Session.Wakes (s : Session) : Move → Prop
  | .call _ a => a.Allocates ∧ responsesAfter 0 s.backend.connection.inp.toList ≤ 1
  | .dispatch _ _ | .execute _ => True
  | .wake a => a.Allocates ∧ a.Responds
      ∧ ∀ r, s.control = .waiting r → Expects r (s.backend.heard a).connection.inp.toList
  | .callbackReturn _ => ∀ f frames, s.control = .app → s.backend.frames = f :: frames →
      f.list = [] → s.backend.error = false ∨ ∃ res, f.cont = .closeSeat res

theorem call_of_error (a : Answers) (r : Request) {b : Backend} (he : b.error = true) :
    ((call a r).run b).2 = b := by
  unfold call
  show (StateT.run (if b.error then _ else _ : StateM Backend Next) b).2 = b
  rw [if_pos he]
  cases r <;> rfl

/-- **What a move does to the events that are pending.** -/
theorem Session.Attends.step {s : Session} (h : s.Attends) (hordered : s.Ordered)
    (hnone : s.result = none) {m : Move} (hwakes : s.Wakes m) :
    (s.step m).Attends ∧ (s.step m).Woke := by
  have htracks := hordered.tracks
  induction m using Session.step_cases (s := s) with
  | same => exact ⟨h, Session.woke_of_none hnone⟩
  | openSeat a hc =>
      have hzero := h.closed hc
      have hholds : s.backend.Holds (Expects .openSeat) := by
        rw [hzero]
        exact ⟨rfl, Nat.zero_le 1, fun _ => rfl⟩
      exact Session.attends_enter (request_wakes hwakes.1 .openSeat _ hholds)
        (request_tracks a .openSeat _ htracks) (fun _ => by rw [hzero]; rfl)
        fun _ => h.bottom hholds.1
  | call r a hc hopen =>
      refine Session.attends_enter
        (call_wakes hwakes.1 r _ ⟨h.app hc, hwakes.2, fun hno => absurd hno hopen⟩)
        (call_tracks a r _ htracks) (fun hno => absurd hno hopen) fun he => h.bottom ?_
      by_contra herror
      rw [call_of_error a _ (by simpa using herror)] at he
      exact herror he
  | dispatch timeout a hc =>
      refine Session.attends_enter (dispatch_wakes a timeout _ trivial)
        (dispatch_tracks a timeout _ htracks) False.elim fun he => h.bottom ?_
      by_contra herror
      rw [dispatch_of_error a timeout (by simpa using herror)] at he
      exact herror he
  | wake a r hc =>
      obtain ⟨he, hframes⟩ := h.waiting r hc
      exact Session.attends_enter (wake_wakes hwakes.1 hwakes.2.1 r _ ⟨he, hwakes.2.2 r hc⟩)
        (wake_tracks a r _ ⟨htracks, hordered.waiting r hc⟩) hframes fun _ => h.bottom he
  | execute a k hc =>
      have hdetached : Session.Ordered { s with backend := { s.backend with pendingEvents := [] } } :=
        ⟨Or.imp id (fun h => ⟨h.room, h.out, h.flush⟩) hordered.sound, hordered.waiting⟩
      obtain ⟨hclear, hframes⟩ := h.executing k hc
      refine Session.attends_executeEvents hnone hdetached.tracks h.bottom
        (fun he => ⟨fun hno => absurd rfl hno, ?_, fun hk => hframes hk he⟩) fun _ => ?_
      · cases k <;> exact hclear
      · cases k with
        | predispatch _ _ | postdispatch _ _ | openSeat => exact .inl hclear.1
        | closeSeat res => exact .inr ⟨res, rfl⟩
  | callbackReturn a f frames hc hf =>
      have hpopped : Session.Ordered { s with backend := { s.backend with frames := frames } } :=
        ⟨Or.imp id (fun h => ⟨h.room, h.out, h.flush⟩) hordered.sound, hordered.waiting⟩
      have hlast : s.backend.error = false → OpenSeatLast (f :: frames) :=
        fun he => hf ▸ h.bottom he
      refine Session.attends_executeEvents hnone hpopped.tracks (fun he g rest hsuffix => ?_)
        (fun he => ⟨(h.app hc he).1, ?_, fun hk => ?_⟩) fun hnil => hwakes f frames hc hf hnil
      · exact hlast he g rest (hsuffix.trans (List.suffix_cons _ _))
      · have hclear := (h.app hc he).2 f frames hf
        cases hk : f.cont <;> rw [hk] at hclear <;> exact hclear
      · exact hlast he f frames List.suffix_rfl hk

/-! ## Runs -/

/-- No call has returned yet. -/
def Session.unreturned (s : Session) : Session := { s with result := none }

/-- The move ends a call that returns success to the application. -/
def Session.Succeeds (s : Session) (m : Move) : Prop :=
  (s.unreturned.step m).control = .app
    ∧ ∃ reply, (s.unreturned.step m).result = some (.ok reply)

/-- What the last call returned does not matter to the next move. -/
def Session.Alike (s s' : Session) : Prop := s'.backend = s.backend ∧ s'.control = s.control

theorem Session.enter_unreturned (s : Session) (m : StateM Backend Next) :
    (s.enter m).Alike (s.unreturned.enter m) := by
  unfold Session.enter Session.unreturned
  dsimp only
  cases (m.run s.backend).1 <;> exact ⟨rfl, rfl⟩

theorem Session.executeEvents_unreturned (s : Session) (a : Answers) (list : List PendingEvent)
    (executed : Nat) (k : Cont) :
    (s.executeEvents a list executed k).Alike (s.unreturned.executeEvents a list executed k) := by
  cases list with
  | nil => exact Session.enter_unreturned s _
  | cons ev list => exact ⟨rfl, rfl⟩

theorem Session.step_unreturned (s : Session) (m : Move) :
    (s.step m).Alike (s.unreturned.step m) := by
  have hsame : s.Alike s.unreturned := ⟨rfl, rfl⟩
  unfold Session.step
  simp only [show s.unreturned.control = s.control from rfl,
    show s.unreturned.backend = s.backend from rfl]
  cases m with
  | call r a =>
      dsimp only
      split
      · exact Session.enter_unreturned s _
      · exact hsame
      · exact hsame
      · exact Session.enter_unreturned s _
      · exact hsame
  | dispatch timeout a | wake a =>
      dsimp only
      split
      · exact Session.enter_unreturned s _
      · exact hsame
  | execute a | callbackReturn a =>
      dsimp only
      split
      · exact Session.executeEvents_unreturned ⟨_, _, _⟩ a _ _ _
      · exact hsame

theorem Session.Attends.alike {s s' : Session} (h : s.Attends) (halike : s.Alike s') :
    s'.Attends := by
  obtain ⟨b, control, result⟩ := s
  obtain ⟨b', control', result'⟩ := s'
  obtain ⟨rfl, rfl⟩ := halike
  exact ⟨h.closed, h.waiting, h.app, h.executing, h.bottom⟩

theorem Session.attends_init : Session.init.Attends :=
  ⟨fun _ => rfl, fun _ hno => (by cases hno), fun hno => (by cases hno), fun _ hno => (by cases hno),
    fun _ f rest hsuffix => absurd hsuffix (by simp [Session.init, Backend.zero])⟩

/-- **What a move does, whatever was returned before.** -/
theorem Session.attends_step {s : Session} (h : s.Attends) (hordered : s.Ordered) {m : Move}
    (hwakes : s.Wakes m) :
    (s.step m).Attends ∧ (s.Succeeds m → (s.step m).backend.Woken) := by
  have hunreturned : s.unreturned.Attends := h.alike ⟨rfl, rfl⟩
  obtain ⟨hbackend, hcontrol⟩ := s.step_unreturned m
  obtain ⟨hattends, hwoke⟩ := hunreturned.step ⟨hordered.sound, hordered.waiting⟩ rfl
    (m := m) (by cases m <;> exact hwakes)
  refine ⟨hattends.alike ⟨hbackend.symm, hcontrol.symm⟩, fun ⟨happ, reply, hok⟩ => ?_⟩
  exact hbackend ▸ hwoke happ reply hok

theorem Session.attends_run {moves : List Move}
    (h : Run.Meets Session.step Session.Wakes Session.init moves) : (Session.run moves).Attends := by
  have hboth : (Session.run moves).Attends ∧ (Session.run moves).Ordered :=
    Run.run_invariant_of_meets (P := fun s => s.Attends ∧ s.Ordered)
      (fun s m hs hwakes => ⟨(Session.attends_step hs.1 hs.2 hwakes).1, (hs.2.step m).1⟩)
      ⟨Session.attends_init, Session.ordered_run []⟩ moves h
  exact hboth.1

/-- **No wake-up is lost.** Over a whole run of calls, callbacks and answers of the kernel, when
every move meets `Session.Wakes`, a call that returns success with an event in its queue or with a
whole event in the ring leaves the flag set, for a ping that was sent and whose pong was not taken
off the connection since. -/
theorem pong_awaited_for_events (moves : List Move)
    (h : Run.Meets Session.step Session.Wakes Session.init moves) :
    ∀ pre m, pre ++ [m] <+: moves → (Session.run pre).Succeeds m →
      (Session.run (pre ++ [m])).backend.pendingEvents ≠ []
        ∨ seatEvents (Session.run (pre ++ [m])).backend.connection.inp.toList ≠ [] →
      (Session.run (pre ++ [m])).backend.awaitingPong = true ∧ Awaited (pre ++ [m]) := by
  intro pre m hprefix hsucceeds hevents
  obtain ⟨rest, rfl⟩ := hprefix
  have hrun : Session.run (pre ++ [m]) = (Session.run pre).step m := Run.run_append ..
  obtain ⟨hpre, hlast⟩ := (Run.meets_append _ _ _).mp ((Run.meets_append _ _ _).mp h).1
  have hwoken := (Session.attends_step (Session.attends_run hpre) (Session.ordered_run pre)
    hlast.1).2 hsucceeds
  rw [← hrun] at hwoken
  have hawaits := hwoken hevents
  exact ⟨hawaits.2, Session.awaited _ hawaits⟩

/-- A seat that is opened before the daemon enables it, and a device that is closed while the
event is on its way. -/
def enabledBehindResponse : List Move :=
  [.call .openSeat (.hears []), .wake (.hears [.seatOpened (ascii ['s', 'e', 'a', 't', '0'])]),
    .execute (.hears []), .call (.closeDevice 0) (.hears [])]

/-- The event behind `DEVICE_CLOSED` is queued, and a ping is sent for it. -/
theorem pong_awaited_after_close_device :
    Run.Meets Session.step Session.Wakes Session.init
        (enabledBehindResponse ++ [.wake (.hears [.deviceClosed, .enableSeat])])
      ∧ (Session.run enabledBehindResponse).Succeeds (.wake (.hears [.deviceClosed, .enableSeat]))
      ∧ (Session.run (enabledBehindResponse
          ++ [.wake (.hears [.deviceClosed, .enableSeat])])).backend.awaitingPong = true
      ∧ Awaited (enabledBehindResponse ++ [.wake (.hears [.deviceClosed, .enableSeat])]) := by
  have hmeets : Run.Meets Session.step Session.Wakes Session.init
      (enabledBehindResponse ++ [.wake (.hears [.deviceClosed, .enableSeat])]) := by
    have hfirst : (Session.run (enabledBehindResponse.take 1)).control = .waiting .openSeat := by
      decide +kernel
    have hsecond : (Session.run enabledBehindResponse).control = .waiting (.closeDevice 0) := by
      decide +kernel
    refine ⟨⟨fun _ => rfl, by decide +kernel⟩, ⟨fun _ => rfl, ⟨?_, ?_⟩, fun r hr => ?_⟩, trivial,
      ⟨fun _ => rfl, by decide +kernel⟩, ⟨fun _ => rfl, ⟨?_, ?_⟩, fun r hr => ?_⟩, trivial⟩
    · exact fun e he => by cases he
    · exact fun _ => by decide +kernel
    · cases hfirst.symm.trans hr
      exact ⟨by decide +kernel, fun _ => by decide +kernel⟩
    · exact fun e he => by cases he
    · exact fun _ => by decide +kernel
    · cases hsecond.symm.trans hr
      exact ⟨by decide +kernel, fun hno => by cases hno⟩
  have hsucceeds : (Session.run enabledBehindResponse).Succeeds
      (.wake (.hears [.deviceClosed, .enableSeat])) :=
    ⟨by decide +kernel, ⟨0, none⟩, by decide +kernel⟩
  exact ⟨hmeets, hsucceeds, pong_awaited_for_events _ hmeets _ _ List.prefix_rfl hsucceeds
    (.inl (by decide +kernel))⟩

/-- The daemon answers `OPEN_SEAT` and enables the seat in one segment. -/
def enabledBehindSeatOpened : List Move :=
  [.call .openSeat (.hears []),
    .wake (.hears [.seatOpened (ascii ['s', 'e', 'a', 't', '0']), .enableSeat])]

/-- `open_seat` returns success with the event in the ring, and nothing is sent for it. -/
theorem enable_left_in_ring :
    (Session.run enabledBehindSeatOpened).Succeeds (.execute (.hears []))
      ∧ seatEvents (Session.run (enabledBehindSeatOpened
          ++ [.execute (.hears [])])).backend.connection.inp.toList = [.enableSeat]
      ∧ (Session.run (enabledBehindSeatOpened
          ++ [.execute (.hears [])])).backend.awaitingPong = false :=
  ⟨⟨by decide +kernel, ⟨0, none⟩, by decide +kernel⟩, by decide +kernel, by decide +kernel⟩

end DdeSeatd.Libseat
