import DdeSeatd.Libseat.Hangup

set_option autoImplicit false

/-! # `awaiting_pong` stands for a ping without an answer

`check_pending_events` sends a ping and sets `awaiting_pong`, and `read_and_queue` clears the flag
when it takes a pong off the connection. This module says that the flag means what its name says:
as long as it is set, and the backend is not in error, a ping has been sent since when no pong was
taken off the connection (`Session.awaited`), over every run of calls, callbacks and answers of
the kernel.

A pong is a frame, so the argument follows the bytes that are taken: `NoPongs n d` says that `d` is
a sequence of frames without a pong, of the last of which `n` bytes are missing.
-/

namespace DdeSeatd.Libseat

open Fallible RingBuffer

/-! ## Frames that are not pongs -/

/-- A sequence of frames without a pong, of the last of which `n` bytes are missing. -/
inductive NoPongs : Nat → List UInt8 → Prop where
  | nil : NoPongs 0 []
  | event {d header : List UInt8} {ev : SeatEvent} (h : NoPongs 0 d)
      (hlen : header.length = HEADER_SIZE) (hpong : headerOpcode header ≠ SERVER_PONG)
      (hev : seatEvent (headerOpcode header) = some ev) : NoPongs 0 (d ++ header)
  | response {d header : List UInt8} (h : NoPongs 0 d) (hlen : header.length = HEADER_SIZE)
      (hpong : headerOpcode header ≠ SERVER_PONG) (hev : seatEvent (headerOpcode header) = none) :
      NoPongs (headerSize header) (d ++ header)
  | payload {n : Nat} {d data : List UInt8} (h : NoPongs (n + data.length) d) :
      NoPongs n (d ++ data)

theorem NoPongs.append {n : Nat} {d d' : List UInt8} (h : NoPongs 0 d) (h' : NoPongs n d') :
    NoPongs n (d ++ d') := by
  induction h' with
  | nil => rwa [List.append_nil]
  | event _ hlen hpong hev ih => exact List.append_assoc .. ▸ ih.event hlen hpong hev
  | response _ hlen hpong hev ih => exact List.append_assoc .. ▸ ih.response hlen hpong hev
  | payload _ ih => exact List.append_assoc .. ▸ ih.payload

/-- `d` was taken off the connection. -/
def Backend.Took (b₀ b : Backend) (d : List UInt8) : Prop :=
  ∃ new, b.input = b₀.input ++ new
    ∧ b₀.connection.inp.toList ++ new = d ++ b.connection.inp.toList

theorem Backend.Took.refl (b : Backend) : b.Took b [] := ⟨[], by simp, by simp⟩

theorem Backend.Took.trans {b₀ b₁ b₂ : Backend} {d d' : List UInt8} (h : b₀.Took b₁ d)
    (h' : b₁.Took b₂ d') : b₀.Took b₂ (d ++ d') := by
  obtain ⟨new, hinput, hbytes⟩ := h
  obtain ⟨new', hinput', hbytes'⟩ := h'
  refine ⟨new ++ new', by rw [hinput', hinput, List.append_assoc], ?_⟩
  rw [← List.append_assoc, hbytes, List.append_assoc, hbytes', List.append_assoc]

/-- Everything that was put on the connection. -/
def Backend.put (b : Backend) : List UInt8 := sentBytes b.sent ++ b.connection.out.toList

def Backend.Awaits (b : Backend) : Prop := b.error = false ∧ b.awaitingPong = true

/-- What has happened since the backend was `b₀`: the bytes `x` were put on the connection, and if a
pong is awaited, it was so before and none was taken off. -/
structure Backend.Since (b₀ : Backend) (n : Nat) (x : List UInt8) (b : Backend) : Prop where
  room : b.connection.inp.size ≤ CONNECTION_BUFFER_SIZE
  out : b.connection.out.size ≤ CONNECTION_BUFFER_SIZE
  flush : 0 < b.connection.out.size → b.connection.wantFlush = true
  put : b.put = b₀.put ++ x
  frames : b.frames = b₀.frames
  awaits : b.awaitingPong = true → b₀.Awaits ∧ ∃ d, b₀.Took b d ∧ NoPongs n d

/-- A backend in error is not followed further. -/
def Backend.Tracks (b₀ : Backend) (n : Nat) (x : List UInt8) (b : Backend) : Prop :=
  b.error = true ∨ b₀.Since n x b

/-- The front of the in ring is a response or not a whole header. -/
def Backend.AtResponse (b : Backend) : Prop := ResponseFirst b.connection.inp.toList

theorem connectionRead_out (c : Connection) (results : List RecvResult) :
    (connectionRead c results).2.1.out = c.out
      ∧ (connectionRead c results).2.1.wantFlush = c.wantFlush := by
  unfold connectionRead
  split_ifs
  · exact ⟨rfl, rfl⟩
  · cases recvmsgLoop results with
    | fail e => exact ⟨rfl, rfl⟩
    | data bytes cmsgs =>
        dsimp only
        rcases decodeCmsg c.fdsIn cmsgs with ⟨_ | _, fdsIn, closed⟩ <;> exact ⟨rfl, rfl⟩

section

variable {b₀ b b' : Backend} {n : Nat} {x : List UInt8}

/-- A step that leaves the connection alone. -/
theorem Backend.Since.same (h : b₀.Since n x b) (hconn : b'.connection = b.connection)
    (hinput : b'.input = b.input) (hsent : b'.sent = b.sent) (hframes : b'.frames = b.frames)
    (hpong : b'.awaitingPong = true → b.awaitingPong = true) : b₀.Since n x b' where
  room := hconn ▸ h.room
  out := hconn ▸ h.out
  flush := hconn ▸ h.flush
  put := by
    unfold Backend.put
    rw [hconn, hsent]
    exact h.put
  frames := hframes.trans h.frames
  awaits := fun hp => by
    obtain ⟨hbefore, d, ⟨new, hnew, hbytes⟩, hd⟩ := h.awaits (hpong hp)
    exact ⟨hbefore, d, ⟨new, hinput.trans hnew, by rw [hconn]; exact hbytes⟩, hd⟩

/-- A step that takes `data` off the connection. -/
theorem Backend.Since.take {m count : Nat} {data : List UInt8} {conn : Connection}
    (h : b₀.Since n x b) (hget : connectionGet b.connection count = (.ok data, conn))
    (hconn : b'.connection = conn) (hinput : b'.input = b.input) (hsent : b'.sent = b.sent)
    (hframes : b'.frames = b.frames)
    (hpong : b'.awaitingPong = true → b.awaitingPong = true
      ∧ ∀ d, NoPongs n d → NoPongs m (d ++ data)) :
    b₀.Since m x b' := by
  obtain ⟨hle, -, hskip⟩ := connectionGet_eq_ok hget
  obtain ⟨hlist, -⟩ := get_toList hget
  have hout : conn.out = b.connection.out ∧ conn.wantFlush = b.connection.wantFlush := by
    rw [hskip]
    exact ⟨rfl, rfl⟩
  refine ⟨?_, ?_, ?_, ?_, hframes.trans h.frames, fun hp => ?_⟩
  · rw [hconn]
    exact (Nat.le_of_add_right_le (get_size hget).le).trans h.room
  · rw [hconn, hout.1]
    exact h.out
  · rw [hconn, hout.1, hout.2]
    exact h.flush
  · unfold Backend.put
    rw [hconn, hout.1, hsent]
    exact h.put
  · obtain ⟨hp, hd'⟩ := hpong hp
    obtain ⟨hbefore, d, ⟨new, hnew, hbytes⟩, hd⟩ := h.awaits hp
    refine ⟨hbefore, d ++ data, ⟨new, hinput.trans hnew, ?_⟩, hd' d hd⟩
    rw [hbytes, hlist, hconn, List.append_assoc]

/-- Bytes that arrive go behind what is there. -/
theorem Backend.Since.read (h : b₀.Since n x b) (results : List RecvResult) :
    b₀.Since n x (b.read results) := by
  obtain ⟨bytes, hbytes, hroom, -⟩ := connectionRead_appends b.connection results h.room
  obtain ⟨hout, hwant⟩ := connectionRead_out b.connection results
  have hring : (b.read results).connection.inp.toList = b.connection.inp.toList ++ bytes := hbytes
  have hinput : (b.read results).input = b.input ++ bytes := by
    show b.input ++ _ = _
    rw [hbytes, List.drop_left' (toList_length _)]
  refine ⟨hroom, ?_, ?_, ?_, h.frames, fun hp => ?_⟩
  · show (connectionRead b.connection results).2.1.out.size ≤ _
    rw [hout]
    exact h.out
  · show 0 < (connectionRead b.connection results).2.1.out.size →
      (connectionRead b.connection results).2.1.wantFlush = true
    rw [hout, hwant]
    exact h.flush
  · show sentBytes b.sent ++ (connectionRead b.connection results).2.1.out.toList = _
    rw [hout]
    exact h.put
  · obtain ⟨hbefore, d, ⟨new, hnew, htaken⟩, hd⟩ := h.awaits hp
    refine ⟨hbefore, d, ⟨new ++ bytes, ?_, ?_⟩, hd⟩
    · rw [hinput, hnew, List.append_assoc]
    · rw [hring, ← List.append_assoc, htaken, List.append_assoc]

end

/-! ## The computations of the backend -/

section

variable {b₀ : Backend} {n : Nat} {x : List UInt8} {b : Backend}

theorem connPut_tracks (data : List UInt8) (results : List SendResult) :
    Spec (b₀.Tracks n x) (connPut data results) (fun _ => b₀.Tracks n (x ++ data))
      fun _ b => b.error = true := by
  refine connSend_rule (fun b k hb hret => ?_) fun _ _ _ => failed_error _
  rcases hb with he | hb
  · exact .inl he
  have hput := connectionPut_put b.connection data results hb.out
  refine .inr ⟨hput.inp.symm ▸ hb.room, hput.size, hput.flush, ?_, hb.frames, fun hp => ?_⟩
  · show sentBytes (b.sent ++ _) ++ _ = _
    rw [sentBytes_append, List.append_assoc, hput.ok k hret, ← List.append_assoc]
    show b.put ++ data = _
    rw [hb.put, List.append_assoc]
  · obtain ⟨hbefore, d, ⟨new, hnew, hbytes⟩, hd⟩ := hb.awaits hp
    exact ⟨hbefore, d, ⟨new, hnew, hput.inp.symm ▸ hbytes⟩, hd⟩

/-- After a flush everything that was put is sent. -/
theorem connFlush_tracks (results : List SendResult) :
    Spec (b₀.Tracks n x) (connFlush results)
      (fun _ b => b₀.Tracks n x b ∧ (b.error = false → sentBytes b.sent = b₀.put ++ x))
      fun _ b => b.error = true := by
  refine connSend_rule (fun b k hb hret => ?_) fun _ _ _ => failed_error _
  rcases hb with he | hb
  · exact ⟨.inl he, fun hno => (by simp_all)⟩
  have hflush := connectionFlush_flushed b.connection results hb.out hb.flush
  have hempty := hflush.ok k hret
  have hput : sentBytes (b.sent ++ (connectionFlush b.connection results).sent)
      ++ (connectionFlush b.connection results).conn.out.toList = b₀.put ++ x := by
    rw [sentBytes_append, List.append_assoc, hflush.bytes]
    exact hb.put
  refine ⟨.inr ⟨hflush.inp.symm ▸ hb.room, hflush.size.trans hb.out, fun hpos => ?_, hput,
    hb.frames, fun hp => ?_⟩, fun _ => ?_⟩
  · exact absurd hempty hpos.ne'
  · obtain ⟨hbefore, d, ⟨new, hnew, hbytes⟩, hd⟩ := hb.awaits hp
    exact ⟨hbefore, d, ⟨new, hnew, hflush.inp.symm ▸ hbytes⟩, hd⟩
  · have hnil : (connectionFlush b.connection results).conn.out.toList = [] :=
      List.length_eq_zero_iff.mp ((toList_length _).trans hempty)
    rw [hnil, List.append_nil] at hput
    exact hput

theorem sendRequest_tracks (a : Answers) (r : Request) :
    Spec (b₀.Tracks 0 []) (sendRequest a r) (fun _ => b₀.Tracks 0 r.parts.flatten)
      fun _ b => b.error = true :=
  (connPutAll_rule a (fun _ => connPut_tracks) r.parts 0 []).bind fun _ =>
    (connFlush_tracks _).weaken (fun _ h => h) (fun _ _ h => h.1) fun _ _ h => h

/-- A ping was sent behind the bytes `x`. -/
def Backend.Pinged (b₀ : Backend) (x : List UInt8) (b : Backend) : Prop :=
  sentBytes b.sent = b₀.put ++ x ++ (Request.parts .ping).flatten

theorem sendPing_tracks (a : Answers) :
    Spec (b₀.Tracks n x) (sendPing a)
      (fun _ b => ∃ y, b₀.Tracks n y b ∧ (b.error = false → b₀.Pinged x b))
      fun _ b => b.error = true :=
  (connPutAll_rule a (fun _ => connPut_tracks) _ 4 x).bind fun _ =>
    (connFlush_tracks _).weaken (fun _ h => h)
      (fun _ _ h => ⟨_, h.1, fun he => (h.2 he).trans (List.append_assoc ..).symm⟩) fun _ _ h => h

theorem connGet_tracks (count : Nat) :
    Spec (b₀.Tracks (n + count) x) (connGet count)
      (fun data b => data.length = count ∧ b₀.Tracks n x b) fun _ b => b.error = true := by
  refine spec_get_bind fun b hb => ?_
  rcases hget : connectionGet b.connection count with ⟨e | data, conn⟩
  · exact failed_error b
  · have hlen := (get_toList hget).2
    refine ⟨hlen, hb.imp (fun he => he) fun hb => ?_⟩
    refine hb.take hget rfl rfl rfl rfl fun hp => ⟨hp, fun d hd => ?_⟩
    exact NoPongs.payload (hlen.symm ▸ hd)

theorem connGetFd_tracks :
    Spec (b₀.Tracks n x) connGetFd (fun _ => b₀.Tracks n x) fun _ b => b.error = true := by
  refine spec_get_bind fun b hb => ?_
  have hsame : (connectionGetFd b.connection).2.inp = b.connection.inp
      ∧ (connectionGetFd b.connection).2.out = b.connection.out
      ∧ (connectionGetFd b.connection).2.wantFlush = b.connection.wantFlush := by
    unfold connectionGetFd
    split_ifs <;> exact ⟨rfl, rfl, rfl⟩
  rcases hget : connectionGetFd b.connection with ⟨e | fd, conn⟩
  · exact failed_error b
  · rw [hget] at hsame
    obtain ⟨hinp, hout, hwant⟩ := hsame
    refine hb.imp (fun he => he) fun hb => ⟨hinp.symm ▸ hb.room,
      hout.symm ▸ hb.out, ?_, ?_, hb.frames, fun hp => ?_⟩
    · show 0 < conn.out.size → conn.wantFlush = true
      rw [hout, hwant]
      exact hb.flush
    · show sentBytes b.sent ++ conn.out.toList = _
      rw [hout]
      exact hb.put
    · obtain ⟨hbefore, d, ⟨new, hnew, hbytes⟩, hd⟩ := hb.awaits hp
      refine ⟨hbefore, d, ⟨new, hnew, ?_⟩, hd⟩
      show _ = d ++ conn.inp.toList
      rw [hinp]
      exact hbytes

/-- Nothing is missing of the last frame, and the next one is a response. -/
def Backend.AtFrame (b₀ : Backend) (x : List UInt8) (b : Backend) : Prop :=
  b₀.Tracks 0 x b ∧ (b.error = false → b.AtResponse)

theorem readHeader_tracks (expectedOpcode expectedSize : Nat) (variableSize : Bool) :
    Spec (b₀.AtFrame x) (readHeader expectedOpcode expectedSize variableSize)
      (fun size b => b₀.Tracks size x b
        ∧ if variableSize then expectedSize ≤ size else size = expectedSize)
      fun _ => b₀.Tracks 0 x := by
  -- the header is that of a response, since events and pongs were taken before
  have hheader : Spec (b₀.AtFrame x) (connGet HEADER_SIZE)
      (fun header b => b₀.Tracks (headerSize header) x b) fun _ => b₀.Tracks 0 x := by
    refine spec_get_bind fun b hb => ?_
    rcases hget : connectionGet b.connection HEADER_SIZE with ⟨e | header, conn⟩
    · exact .inl (failed_error b)
    · rcases hb.1 with he | hsince
      · exact .inl he
      · cases he : b.error with
        | true => exact .inl he
        | false =>
            obtain ⟨hpong, hev⟩ := hb.2 he (by simpa using (connectionGet_eq_ok hget).1)
            rw [← headerOpcode_get hget] at hpong hev
            refine .inr (hsince.take hget rfl rfl rfl rfl fun hp => ⟨hp, fun d hd => ?_⟩)
            exact hd.response (get_toList hget).2 hpong hev
  refine readHeader_rule _ _ _ hheader ?_ fun b => .inl (failed_error b)
  -- a `SERVER_ERROR` is a whole frame
  rw [← Nat.zero_add SERVER_ERROR_SIZE]
  exact (connGet_tracks _).weaken (fun _ h => h) (fun _ _ h _ => h.2) fun _ _ h => .inl h

theorem readResponse_tracks (r : Request) :
    Spec (b₀.AtFrame x) (readResponse r) (fun _ => b₀.Tracks 0 x) fun _ => b₀.Tracks 0 x := by
  have hbare : ∀ opcode, Spec (b₀.AtFrame x)
      (readHeader opcode 0 false >>= fun _ => pure ⟨0, none⟩ : Api Reply)
      (fun _ => b₀.Tracks 0 x) fun _ => b₀.Tracks 0 x := by
    intro opcode
    refine (readHeader_tracks opcode 0 false).bind fun size => spec_pure fun b hb => ?_
    have hsize : size = 0 := hb.2
    exact hsize ▸ hb.1
  cases r with
  | openSeat | closeSeat | closeDevice _ | disableSeat | switchSession _ | ping => exact hbare _
  | openDevice path =>
      refine (readHeader_tracks _ 4 false).bind fun size => ?_
      have hget : Spec (fun b => b₀.Tracks size x b ∧ if false = true then 4 ≤ size else size = 4)
          (connGet 4) (fun _ => b₀.Tracks 0 x) fun _ => b₀.Tracks 0 x := by
        refine (connGet_tracks 4).weaken (P := b₀.Tracks (0 + 4) x) (fun b hb => ?_)
          (fun _ _ h => h.2) fun _ _ h => .inl h
        have hsize : size = 0 + 4 := hb.2
        exact hsize ▸ hb.1
      refine hget.bind fun _ => ?_
      refine Spec.bind (connGetFd_tracks.weaken (fun _ h => h) (fun _ _ h => h) fun _ _ h => .inl h)
        fun _ => spec_pure fun _ h => h

theorem seatOpened_tracks :
    Spec (b₀.AtFrame x) seatOpened (fun _ => b₀.Tracks 0 x) fun _ _ => True := by
  refine Spec.bind ((readHeader_tracks _ 2 true).weaken (fun _ h => h) (fun _ _ h => h)
    fun _ _ _ => trivial) fun size => ?_
  have htwo : Spec (fun b => b₀.Tracks size x b ∧ if true = true then 2 ≤ size else size = 2)
      (connGet 2) (fun _ => b₀.Tracks (size - 2) x) fun _ _ => True := by
    intro b hb
    have hle : size - 2 + 2 = size := Nat.sub_add_cancel hb.2
    exact (connGet_tracks 2).weaken (P := b₀.Tracks (size - 2 + 2) x) (fun _ h => h)
      (fun _ _ h => h.2) (fun _ _ _ => trivial) b (hle.symm ▸ hb.1)
  refine htwo.bind fun two => ?_
  by_cases hlen : bytesUint16 two ≠ size - 2
  · rw [if_pos hlen]
    exact spec_throw fun _ _ => trivial
  rw [if_neg hlen]
  by_cases hlong : bytesUint16 two > MAX_SEAT_LEN
  · rw [if_pos hlong]
    exact spec_throw fun _ _ => trivial
  rw [if_neg hlong]
  have hname : Spec (b₀.Tracks (size - 2) x) (connGet (bytesUint16 two))
      (fun _ => b₀.Tracks 0 x) fun _ _ => True := by
    have hrest : 0 + bytesUint16 two = size - 2 := (Nat.zero_add _).trans (not_not.mp hlen)
    rw [← hrest]
    exact (connGet_tracks _).weaken (fun _ h => h) (fun _ _ h => h.2) fun _ _ _ => trivial
  have hstore : ∀ stored : List UInt8, Spec (b₀.Tracks 0 x)
      (if (stored.takeWhile (· ≠ 0)).length ≠ stored.length - 1 then throw (EBADMSG : Int)
        else modify fun b => { b with seatName := stored.takeWhile (· ≠ 0) } : Api Unit)
      (fun _ => b₀.Tracks 0 x) fun _ _ => True := by
    intro stored
    split_ifs
    · exact spec_throw fun _ _ => trivial
    · exact spec_modify fun b hb => Or.imp id (fun h => h.same rfl rfl rfl rfl id) hb
  exact hname.bind fun data => hstore _

/-- A pong clears the flag. -/
theorem readAndQueue_tracks (a : Answers) (wanted : Bool) :
    Spec (b₀.Tracks 0 x) (readAndQueue a wanted)
      (fun _ b => b₀.AtFrame x b ∧ (wanted = false → b.error = false → b.Short))
      fun _ b => b.error = true := by
  refine readAndQueue_rule (I := fun _ => b₀.Tracks 0 x) (fun hb hshort => ?_)
    (fun hb hget hpong => ?_) (fun hb hget hpong hev => ?_) fun hb hget hresponse => ?_
  · refine ⟨⟨hb, fun _ hlen => ?_⟩, fun _ _ => hshort⟩
    rw [toList_length] at hlen
    exact absurd hlen (Nat.not_le_of_lt hshort)
  · refine hb.imp id fun h => ?_
    exact h.take hget rfl rfl rfl rfl fun hp => absurd hp Bool.false_ne_true
  · split_ifs
    · refine hb.imp id fun h => ?_
      exact h.take hget rfl rfl rfl rfl fun hp =>
        ⟨hp, fun d hd => hd.event (get_toList hget).2 hpong hev⟩
    · exact fun _ he => he
  · split_ifs with hwanted
    · refine ⟨⟨hb, fun _ _ => ?_⟩, fun hno => absurd (hwanted.symm.trans hno) (by simp)⟩
      rw [← headerOpcode_get hget]
      exact hresponse
    · exact fun _ he => he

theorem connRead_tracks (a : Answers) :
    Spec (b₀.Tracks 0 x) (connRead a) (fun _ => b₀.Tracks 0 x) fun _ _ => False :=
  fun _ hb => hb.imp id fun h => h.read a.recv

theorem Backend.atFrame_failed (b : Backend) : b₀.AtFrame x b.failed :=
  ⟨.inl (failed_error b), fun he => absurd ((failed_error b).symm.trans he) (by simp)⟩

/-- A read that fails brings no bytes. -/
theorem connRead_atFrame (a : Answers) :
    Spec (b₀.AtFrame x) (connRead a)
      (fun result b => b₀.Tracks 0 x b ∧ ∀ e, result = .error e → b₀.AtFrame x b)
      fun _ _ => False := by
  intro b hb
  have htracks : b₀.Tracks 0 x (b.read a.recv) := Or.imp id (fun h => h.read a.recv) hb.1
  refine ⟨htracks, fun e hread => ⟨htracks, fun he => ?_⟩⟩
  have hsince := hb.1.resolve_left (by rw [show b.error = false from he]; exact Bool.false_ne_true)
  obtain ⟨bytes, hbytes, -, hnone⟩ := connectionRead_appends b.connection a.recv hsince.room
  show ResponseFirst (connectionRead b.connection a.recv).2.1.inp.toList
  rw [hbytes, hnone e hread, List.append_nil]
  exact hb.2 he

theorem pollConnection_tracks (a : Answers) :
    Spec (b₀.AtFrame x) (pollConnection a) (fun _ => b₀.Tracks 0 x) fun _ => b₀.AtFrame x :=
  pollConnection_rule (fun _ h _ => h.1) (fun _ _ h _ _ => h)
    (fun b _ _ => Backend.atFrame_failed b) (fun b _ h _ _ _ => (connRead_atFrame a b h).1)
    fun b h _ hread => (connRead_atFrame a b h).2 _ hread

/-- The rings are in order. -/
structure Backend.Sound (b : Backend) : Prop where
  room : b.connection.inp.size ≤ CONNECTION_BUFFER_SIZE
  out : b.connection.out.size ≤ CONNECTION_BUFFER_SIZE
  flush : 0 < b.connection.out.size → b.connection.wantFlush = true

/-- A call of the library is over: a pong that is awaited now was awaited before and has not been
taken off, or is the answer to a ping just sent. -/
def Backend.Ended (b₀ : Backend) (x : List UInt8) (b : Backend) : Prop :=
  b.error = true ∨ b.Sound ∧ b.frames = b₀.frames ∧ (b.awaitingPong = true →
    b₀.Pinged x b ∨ b₀.Awaits ∧ ∃ d, b₀.Took b d ∧ NoPongs 0 d)

theorem Backend.Tracks.ended {y : List UInt8} (h : b₀.Tracks 0 y b) :
    b₀.Ended x b :=
  Or.imp id (fun h => ⟨⟨h.room, h.out, h.flush⟩, h.frames, fun hp => .inr (h.awaits hp)⟩) h

theorem checkPendingEvents_tracks (a : Answers) :
    Spec (b₀.Tracks 0 x) (checkPendingEvents a) (fun _ => b₀.Ended x) fun _ => b₀.Ended x := by
  have hqueue : Spec (b₀.Tracks 0 x) (readAndQueue a false) (fun _ => b₀.Tracks 0 x)
      fun _ => b₀.Ended x :=
    (readAndQueue_tracks a false).weaken (fun _ h => h) (fun _ _ h => h.1.1) fun _ _ h => .inl h
  refine hqueue.bind fun _ => spec_get_bind fun b hb => ?_
  split_ifs
  · exact Backend.Tracks.ended hb
  · exact Backend.Tracks.ended hb
  · have hping : Spec (b₀.Tracks 0 x) (sendPing a)
        (fun _ b => ∃ y, b₀.Tracks 0 y b ∧ (b.error = false → b₀.Pinged x b))
        fun _ => b₀.Ended x :=
      (sendPing_tracks a).weaken (fun _ h => h) (fun _ _ h => h) fun _ _ h => .inl h
    refine (hping.bind fun _ => spec_modify fun b' hb' => ?_) b hb
    obtain ⟨y, htracks, hpinged⟩ := hb'
    cases he : b'.error with
    | true => exact .inl rfl
    | false =>
        have hsince := htracks.resolve_left (by rw [he]; exact Bool.false_ne_true)
        exact .inr ⟨⟨hsince.room, hsince.out, hsince.flush⟩, hsince.frames,
          fun _ => .inl (hpinged he)⟩

/-! ## The entry points -/

/-- What holds when the library gives up control. -/
def Next.Tracked (b₀ : Backend) (x : List UInt8) (b : Backend) : Next → Prop
  | .waits _ => b₀.AtFrame x b
  | .destroys _ => True
  | _ => b₀.Ended x b

theorem replied_tracked (h : b₀.Ended x b) (r : Request) (reply : Except Int Reply) :
    (replied r reply).Tracked b₀ x b := by
  unfold replied
  split <;> split
  · exact h
  · exact h
  · exact h
  · split <;> exact h

theorem finish_tracks (a : Answers) (r : Request) (outcome : Except Int Unit) :
    Yields (b₀.AtFrame x) (finish a r outcome) fun next b => next.Tracked b₀ x b := by
  have hended : ∀ b, b₀.AtFrame x b → b₀.Ended x b := fun _ h => h.1.ended
  cases r with
  | openSeat =>
      cases outcome with
      | error e => exact yields_pure fun _ _ => trivial
      | ok u =>
          exact seatOpened_tracks.caught (fun _ => yields_pure fun _ h => Backend.Tracks.ended h)
            fun _ => yields_pure fun _ _ => trivial
  | closeSeat =>
      refine (readHeader_tracks _ _ _).caught (fun size => ?_)
        fun _ => yields_pure fun _ h => Backend.Tracks.ended h
      have hpost : ∀ b, (b₀.Tracks size x b ∧ if false = true then 0 ≤ size else size = 0) →
          b₀.Ended x b := by
        intro b hb
        have hsize : size = 0 := hb.2
        exact Backend.Tracks.ended (hsize ▸ hb.1)
      cases outcome with
      | error e => exact yields_pure hpost
      | ok u => exact yields_pure hpost
  | openDevice _ | closeDevice _ | disableSeat | switchSession _ | ping =>
      cases outcome with
      | error e => exact yields_pure hended
      | ok u =>
          have hcheck : ∀ reply : Except Int Reply, ∀ r, Yields (b₀.Tracks 0 x)
              ((checkPendingEvents a).run >>= fun _ => pure (replied r reply))
              fun next b => next.Tracked b₀ x b := fun reply r =>
            (checkPendingEvents_tracks a).caught
              (fun _ => yields_pure fun _ h => replied_tracked h r reply)
              fun _ => yields_pure fun _ h => replied_tracked h r reply
          exact (readResponse_tracks _).caught (fun _ => hcheck _ _) fun _ => hcheck _ _

theorem Backend.atFrame_of_error (he : b.error = true) : b₀.AtFrame x b :=
  ⟨.inl he, fun hno => absurd (he.symm.trans hno) (by simp)⟩

theorem awaitResponse_tracks (a : Answers) (r : Request) :
    Yields (b₀.Tracks 0 x) (awaitResponse a r) fun next b => next.Tracked b₀ x b := by
  refine (readAndQueue_tracks a true).caught (fun p => ?_) fun e => ?_
  · dsimp only
    split_ifs
    · exact yields_pure fun _ h => h.1
    · exact (finish_tracks a r _).weaken (fun _ h => h.1) fun _ _ h => h
  · exact (finish_tracks a r _).weaken (fun _ h => Backend.atFrame_of_error h) fun _ _ h => h

theorem wake_tracks (a : Answers) (r : Request) :
    Yields (b₀.AtFrame x) (wake a r) fun next b => next.Tracked b₀ x b :=
  (pollConnection_tracks a).caught (fun _ => awaitResponse_tracks a r) fun _ => finish_tracks a r _

theorem request_tracks (a : Answers) (r : Request) :
    Yields (b₀.Tracks 0 []) (request a r) fun next b => next.Tracked b₀ r.parts.flatten b :=
  (sendRequest_tracks a r).caught (fun _ => awaitResponse_tracks a r) fun _ =>
    (finish_tracks a r _).weaken (fun _ h => Backend.atFrame_of_error h) fun _ _ h => h

theorem call_tracks (a : Answers) (r : Request) :
    Yields (b₀.Tracks 0 []) (call a r) fun next b => next.Tracked b₀ r.parts.flatten b := by
  intro b hb
  unfold call
  show Next.Tracked b₀ _ (StateT.run (if b.error then _ else _ : StateM Backend Next) b).2
    (StateT.run (if b.error then _ else _ : StateM Backend Next) b).1
  split_ifs
  · cases r <;> exact Backend.Tracks.ended hb
  · exact Backend.Tracks.ended hb
  · exact request_tracks a r b hb

theorem dispatch_tracks (a : Answers) (timeout : Int) :
    Yields (b₀.Tracks 0 x) (dispatch a timeout) fun next b => next.Tracked b₀ x b := by
  intro b hb
  cases he : b.error with
  | true =>
      rw [dispatch_of_error a timeout he]
      exact Backend.Tracks.ended hb
  | false =>
      have hqueue := readAndQueue_tracks a false b hb
      rw [dispatch_of_ok a timeout he]
      rcases hout : outcome (readAndQueue a false) b with ⟨e | p, b'⟩ <;> rw [hout] at hqueue
      · exact .inl hqueue
      · exact hqueue.1.1.ended

theorem postdispatch_tracks (a : Answers) (predispatch : Nat) :
    Yields (b₀.Tracks 0 x) (postdispatch a predispatch) fun next b => next.Tracked b₀ x b :=
  (readAndQueue_tracks a false).caught (fun _ => yields_pure fun _ h => h.1.1.ended)
    fun _ => yields_pure fun _ h => .inl h

/-- `poll_connection` outside `read_until_response`. -/
theorem pollConnection_keeps_tracks (a : Answers) :
    Spec (b₀.Tracks 0 x) (pollConnection a) (fun _ => b₀.Tracks 0 x) fun _ => b₀.Tracks 0 x :=
  pollConnection_rule (fun _ h _ => h) (fun _ _ h _ _ => h) (fun b _ _ => .inl (failed_error b))
    (fun b _ h _ _ _ => connRead_tracks a b h) fun b h _ _ => connRead_tracks a b h

theorem dispatchRead_tracks (a : Answers) (immediate : Bool) :
    Yields (b₀.Tracks 0 x) (dispatchRead a immediate) fun _ => b₀.Tracks 0 x := by
  cases immediate with
  | true =>
      refine (connRead_tracks a).caught (fun result => ?_) fun _ => yields_pure fun _ h => h.elim
      cases result <;> exact yields_pure fun _ h => h
  | false =>
      intro b hb
      have hpoll := pollConnection_keeps_tracks a b hb
      show b₀.Tracks 0 x (outcome (pollConnection a) b).2
      revert hpoll
      rcases outcome (pollConnection a) b with ⟨_ | _, b'⟩ <;> exact id

theorem afterEvents_tracks (a : Answers) (executed : Nat) (k : Cont) :
    Yields (b₀.Tracks 0 x) (afterEvents a executed k) fun next b => next.Tracked b₀ x b := by
  have hended : ∀ b, b₀.Tracks 0 x b → b₀.Ended x b := fun _ h => Backend.Tracks.ended h
  cases k with
  | predispatch packets timeout =>
      refine (dispatchRead_tracks a _).bind fun result => ?_
      cases result with
      | ok len | error e =>
          dsimp only
          split_ifs
          · exact yields_pure hended
          · exact postdispatch_tracks a _
  | postdispatch _ _ | openSeat => exact yields_pure hended
  | closeSeat res => exact yields_pure fun _ _ => trivial

end

/-! ## Moves -/

/-- The request that a move sends. -/
def Move.requested : Move → List UInt8
  | .call r _ => r.parts.flatten
  | _ => []

/-- The rings are in order, and a blocked request has taken the events and pongs there were. -/
structure Session.Ordered (s : Session) : Prop where
  sound : s.backend.error = true ∨ s.backend.Sound
  waiting : ∀ r, s.control = .waiting r → s.backend.error = false → s.backend.AtResponse

theorem Backend.sound_zero : Backend.zero.Sound :=
  ⟨show (0 : Nat) ≤ 256 by decide, show (0 : Nat) ≤ 256 by decide,
    fun h => absurd (show 0 < 0 from h) (Nat.lt_irrefl 0)⟩

theorem Session.Ordered.tracks {s : Session} (h : s.Ordered) : s.backend.Tracks 0 [] s.backend := by
  cases he : s.backend.error with
  | true => exact .inl he
  | false =>
      obtain ⟨hroom, hout, hflush⟩ := h.sound.resolve_left (by rw [he]; exact Bool.false_ne_true)
      exact .inr ⟨hroom, hout, hflush, (List.append_nil _).symm, rfl,
        fun hp => ⟨⟨he, hp⟩, [], .refl _, .nil⟩⟩

/-- The state after a move: a pong that is awaited now was awaited before and has not been taken
off, or is the answer to a ping that the move has sent. -/
def Session.Moved (b₀ : Backend) (x : List UInt8) (s : Session) : Prop :=
  s.Ordered ∧ (s.backend.Awaits →
    b₀.Pinged x s.backend ∨ b₀.Awaits ∧ ∃ d, b₀.Took s.backend d ∧ NoPongs 0 d)

theorem Session.moved_of_ended {s : Session} {b₀ : Backend} {x : List UInt8}
    (h : b₀.Ended x s.backend)
    (hwaiting : ∀ r, s.control = .waiting r → s.backend.error = false → s.backend.AtResponse) :
    s.Moved b₀ x := by
  refine ⟨⟨Or.imp id And.left h, hwaiting⟩, fun ha => ?_⟩
  exact (h.resolve_left (by rw [ha.1]; exact Bool.false_ne_true)).2.2 ha.2

theorem Session.moved_enter {s : Session} {b₀ : Backend} {x : List UInt8} {m : StateM Backend Next}
    (h : (m.run s.backend).1.Tracked b₀ x (m.run s.backend).2) : (s.enter m).Moved b₀ x := by
  unfold Session.enter
  dsimp only
  cases hnext : (m.run s.backend).1 with
  | returns _ | executes _ | aborts =>
      rw [hnext] at h
      exact Session.moved_of_ended h fun r hr => (by cases hr)
  | waits r =>
      rw [hnext] at h
      exact Session.moved_of_ended (Backend.Tracks.ended h.1) fun _ _ => h.2
  | destroys _ =>
      exact ⟨⟨.inr Backend.sound_zero, fun r hr => (by cases hr)⟩, fun ha => (by cases ha.2)⟩

theorem Session.moved_executeEvents {s : Session} {b₀ : Backend} (h : b₀.Tracks 0 [] s.backend)
    (a : Answers) (list : List PendingEvent) (executed : Nat) (k : Cont) :
    (s.executeEvents a list executed k).Moved b₀ [] := by
  cases list with
  | nil => exact Session.moved_enter (afterEvents_tracks a executed k _ h)
  | cons ev list =>
      refine ⟨⟨Or.imp id (fun h => ⟨h.room, h.out, h.flush⟩) h, fun r hr => by cases hr⟩,
        fun ha => ?_⟩
      exact .inr ((h.resolve_left fun he => by simp [show s.backend.error = false from ha.1] at he).awaits
        ha.2)

/-- A move that changes nothing. -/
theorem Session.Ordered.moved {s : Session} (h : s.Ordered) (x : List UInt8) : s.Moved s.backend x :=
  Session.moved_of_ended h.tracks.ended h.waiting

/-- **What a move does to the pong that is awaited.** -/
theorem Session.Ordered.step {s : Session} (h : s.Ordered) (m : Move) :
    (s.step m).Moved s.backend m.requested := by
  have htracks := h.tracks
  induction m using Session.step_cases (s := s) with
  | same => exact h.moved _
  | openSeat a hc => exact Session.moved_enter (request_tracks a .openSeat _ htracks)
  | call r a hc _ => exact Session.moved_enter (call_tracks a _ _ htracks)
  | dispatch timeout a hc => exact Session.moved_enter (dispatch_tracks a timeout _ htracks)
  | wake a r hc => exact Session.moved_enter (wake_tracks a r _ ⟨htracks, h.waiting r hc⟩)
  | execute a k hc =>
      refine Session.moved_executeEvents ?_ a _ 0 k
      exact Or.imp id (fun h => h.same rfl rfl rfl rfl id) htracks
  | callbackReturn a f frames hc hf =>
      -- what is awaited does not depend on the frames
      have hpopped : Session.Ordered { s with backend := { s.backend with frames := frames } } :=
        ⟨Or.imp id (fun h => ⟨h.room, h.out, h.flush⟩) h.sound, h.waiting⟩
      exact Session.moved_executeEvents hpopped.tracks a f.list f.executed f.cont

theorem Session.ordered_run (moves : List Move) : (Session.run moves).Ordered :=
  Run.run_invariant (P := Session.Ordered) (fun _ m h => (h.step m).1)
    ⟨.inr Backend.sound_zero, fun _ hw => (by cases hw)⟩ moves

/-! ## The history of a run -/

/-- A move of the run has sent a ping, and no pong was taken off the connection since. -/
def Awaited (moves : List Move) : Prop :=
  ∃ pre m, pre ++ [m] <+: moves
    ∧ (Session.run pre).backend.Pinged m.requested (Session.run (pre ++ [m])).backend
    ∧ ∃ d, (Session.run (pre ++ [m])).backend.Took (Session.run moves).backend d ∧ NoPongs 0 d

/-- **The flag means what it says.** -/
theorem Session.awaited (moves : List Move) (h : (Session.run moves).backend.Awaits) :
    Awaited moves := by
  induction moves using List.reverseRecOn with
  | nil => exact absurd h.2 Bool.false_ne_true
  | append_singleton pre m ih =>
      have hrun : Session.run (pre ++ [m]) = (Session.run pre).step m := Run.run_append ..
      have hcause := ((Session.ordered_run pre).step m).2
      rw [← hrun] at hcause
      rcases hcause h with hpinged | ⟨hbefore, d, htook, hd⟩
      · exact ⟨pre, m, List.prefix_rfl, hpinged, [], .refl _, .nil⟩
      · obtain ⟨pre', m', hpre, hpinged, d', htook', hd'⟩ := ih hbefore
        exact ⟨pre', m', hpre.trans (List.prefix_append _ _), hpinged, d' ++ d,
          htook'.trans htook, hd'.append hd⟩

end DdeSeatd.Libseat
