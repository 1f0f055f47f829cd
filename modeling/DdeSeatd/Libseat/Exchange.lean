import DdeSeatd.DeviceFds
import DdeSeatd.Libseat.Wakeup
import DdeSeatd.RequestStream

set_option autoImplicit false

/-! # Requests and responses in the library

What the library makes of the stream of a daemon that answers the requests in their order. The
daemon's side is a channel that does not change while the library runs (`Channel.Serves`): each
response on it belongs to the next request that has none.

`Backend.Hears` says which messages of the channel the library has taken. The library takes whole
frames only, and it takes a response only when a request waits for one; so the responses it has
taken are as many as the requests that are answered, `read_header` meets the response to its own
request, and `read_and_queue` meets none when none is expected.
-/

namespace DdeSeatd

/-! ## Responses -/

/-- Neither a seat event nor a pong. -/
def ServerMsg.isResponse : ServerMsg → Bool
  | .disableSeat | .enableSeat | .pong => false
  | .seatOpened _ | .seatClosed | .deviceOpened _ | .deviceClosed | .sessionSwitched
  | .seatDisabled | .error _ => true

def responsesIn (ms : List ServerMsg) : List ServerMsg := ms.filter ServerMsg.isResponse

@[simp] theorem responsesIn_nil : responsesIn [] = [] := rfl

@[simp] theorem responsesIn_append (ms ms' : List ServerMsg) :
    responsesIn (ms ++ ms') = responsesIn ms ++ responsesIn ms' := List.filter_append ..

theorem responsesIn_single_of_true {m : ServerMsg} (h : m.isResponse = true) :
    responsesIn [m] = [m] := by
  simp [responsesIn, h]

theorem responsesIn_single_of_false {m : ServerMsg} (h : m.isResponse = false) :
    responsesIn [m] = [] := by
  simp [responsesIn, h]

/-- A message that is not a response is a bare header. -/
theorem ServerMsg.bare_of_not_response {m : ServerMsg} (h : m.isResponse = false) :
    m.bytes.length = 4 ∧ m.opens.toList.length = 0 := by
  cases m <;> first | exact ⟨rfl, rfl⟩ | cases h

/-- The channel to a client that has asked `asked`: the next response is that to the first request
which has none yet. So is the one of which only the beginning was put. -/
structure Channel.Serves (asked : List Request) (ch : Channel) : Prop where
  carries : Carries ch.sent ch.frames ch.queued
  ints : ∀ fd ∈ ch.queued, fdInt fd = fd
  next : ∀ ms m rest, ch.frames = ms ++ m :: rest → m.isResponse = true →
    ∃ r, asked[(responsesIn ms).length]? = some r ∧ Answers r m
  last : ∃ part, sentBytes ch.sent <+: messageBytes ch.frames ++ part
    ∧ (part = [] ∨ ∃ m r, m.isResponse = true ∧ part <+: m.bytes ∧ part ≠ m.bytes
      ∧ asked[(responsesIn ch.frames).length]? = some r ∧ Answers r m)

theorem Channel.Serves.more {asked : List Request} {ch : Channel} (h : ch.Serves asked)
    (more : List Request) : ch.Serves (asked ++ more) where
  carries := h.carries
  ints := h.ints
  next := fun ms m rest hframes hm => by
    obtain ⟨r, hget, hr⟩ := h.next ms m rest hframes hm
    exact ⟨r, List.getElem?_append_left (List.getElem?_eq_some_iff.mp hget).1 ▸ hget, hr⟩
  last := by
    obtain ⟨part, hsent, hpart⟩ := h.last
    refine ⟨part, hsent, hpart.imp id ?_⟩
    rintro ⟨m, r, hm, hpre, hne, hget, hr⟩
    exact ⟨m, r, hm, hpre, hne,
      List.getElem?_append_left (List.getElem?_eq_some_iff.mp hget).1 ▸ hget, hr⟩

/-- The header of a frame of which at least the header has arrived. -/
theorem ServerMsg.header_of_begun {m : ServerMsg} (hm : m.Short) {bytes tail : List UInt8}
    (hpre : bytes <+: m.bytes ++ tail) (hlen : 4 ≤ bytes.length) :
    bytesUint16 bytes = m.opcode ∧ bytesUint16 (bytes.drop 2) = m.payload.flatten.length := by
  obtain ⟨more, hmore⟩ := hpre
  have hheader := m.header hm tail
  rw [← hmore] at hheader
  obtain ⟨b₀, b₁, b₂, b₃, bs, rfl⟩ : ∃ b₀ b₁ b₂ b₃ bs, bytes = b₀ :: b₁ :: b₂ :: b₃ :: bs := by
    obtain ⟨b₀, bytes, rfl⟩ := List.exists_cons_of_length_pos (by omega : 0 < bytes.length)
    obtain ⟨b₁, bytes, rfl⟩ := List.exists_cons_of_length_pos
      (by rw [List.length_cons] at hlen; omega : 0 < bytes.length)
    obtain ⟨b₂, bytes, rfl⟩ := List.exists_cons_of_length_pos
      (by simp only [List.length_cons] at hlen; omega : 0 < bytes.length)
    obtain ⟨b₃, bytes, rfl⟩ := List.exists_cons_of_length_pos
      (by simp only [List.length_cons] at hlen; omega : 0 < bytes.length)
    exact ⟨b₀, b₁, b₂, b₃, bytes, rfl⟩
  exact hheader

namespace Libseat

open Fallible RingBuffer

/-! ## What the library has heard -/

/-- The library has put the bytes `x` on the connection, sending more than `s₀`, and has taken the
messages `ms` off it. -/
structure Backend.Hears (b : Backend) (ch : Channel) (s₀ : List Segment) (ms : List ServerMsg)
    (x : List UInt8) : Prop where
  ok : b.error = false
  sent : s₀ <+: b.sent
  out : b.connection.out.size ≤ CONNECTION_BUFFER_SIZE
  flush : 0 < b.connection.out.size → b.connection.wantFlush = true
  put : b.put = x
  receives : Receives ch.sent ch.frames ch.queued b.connection b.input.length (deviceIds ms).length
  begun : ms <+: ch.frames
  stream : b.input <+: sentBytes ch.sent
  bytes : b.input = messageBytes ms ++ b.connection.inp.toList

section

variable {b b' : Backend} {ch : Channel} {s₀ : List Segment} {ms : List ServerMsg} {x : List UInt8}
  {asked : List Request} {rest : List ServerMsg}

/-- A step that leaves the connection alone. -/
theorem Backend.Hears.same (h : b.Hears ch s₀ ms x) (hconn : b'.connection = b.connection)
    (hinput : b'.input = b.input) (hsent : b'.sent = b.sent) (herror : b'.error = b.error) :
    b'.Hears ch s₀ ms x where
  ok := herror.trans h.ok
  sent := hsent ▸ h.sent
  out := hconn ▸ h.out
  flush := hconn ▸ h.flush
  put := by
    unfold Backend.put
    rw [hconn, hsent]
    exact h.put
  receives := by
    rw [hconn, hinput]
    exact h.receives
  begun := h.begun
  stream := hinput ▸ h.stream
  bytes := by
    rw [hconn, hinput]
    exact h.bytes

/-- A connection that differs in what is still to be sent. -/
theorem receives_congr {sent : List Segment} {frames : List ServerMsg} {queued : List Int}
    {conn conn' : Connection} {taken count : Nat}
    (h : Receives sent frames queued conn taken count) (hinp : conn'.inp = conn.inp)
    (hfdsIn : conn'.fdsIn = conn.fdsIn) : Receives sent frames queued conn' taken count where
  room := hinp ▸ h.room
  ring := hfdsIn ▸ h.ring
  arrived := h.arrived
  opened := h.opened
  read := by
    rw [hinp, hfdsIn]
    exact h.read

/-- The library puts something. -/
theorem Backend.Hears.send (h : b.Hears ch s₀ ms x) {conn : Connection} {sent : List Segment}
    {data : List UInt8} (hout : conn.out.size ≤ CONNECTION_BUFFER_SIZE)
    (hflush : 0 < conn.out.size → conn.wantFlush = true)
    (hinp : conn.inp = b.connection.inp) (hfdsIn : conn.fdsIn = b.connection.fdsIn)
    (hbytes : sentBytes sent ++ conn.out.toList = b.connection.out.toList ++ data) :
    ({ b with connection := conn, sent := b.sent ++ sent } : Backend).Hears ch s₀ ms (x ++ data) where
  ok := h.ok
  sent := h.sent.trans (List.prefix_append _ _)
  out := hout
  flush := hflush
  put := by
    show sentBytes (b.sent ++ sent) ++ conn.out.toList = _
    rw [sentBytes_append, List.append_assoc, hbytes, ← List.append_assoc]
    exact congrArg (· ++ data) h.put
  receives := receives_congr h.receives hinp hfdsIn
  begun := h.begun
  stream := h.stream
  bytes := by
    show b.input = messageBytes ms ++ conn.inp.toList
    rw [hinp]
    exact h.bytes

/-- The bytes in the ring are those of the messages that come next. -/
theorem Backend.Hears.ring (h : b.Hears ch s₀ ms x) {part : List UInt8}
    (hframes : ms ++ rest = ch.frames) (hsent : sentBytes ch.sent <+: messageBytes ch.frames ++ part) :
    b.connection.inp.toList <+: messageBytes rest ++ part := by
  have hall := h.stream.trans hsent
  rw [h.bytes, ← hframes, messageBytes_append, List.append_assoc] at hall
  exact (List.prefix_append_right_inj _).mp hall

/-- **What a header in the ring belongs to**: a whole pong or seat event, or the response to the
first request without one, all of which is there once it is as long as its header says. -/
theorem Backend.Hears.front (h : b.Hears ch s₀ ms x) (hserves : ch.Serves asked)
    (hlen : HEADER_SIZE ≤ b.connection.inp.size) :
    (∃ m rest bytes, ch.frames = ms ++ m :: rest ∧ m.isResponse = false
      ∧ b.connection.inp.toList = m.bytes ++ bytes)
    ∨ ∃ m r, m.isResponse = true ∧ asked[(responsesIn ms).length]? = some r ∧ DdeSeatd.Answers r m
      ∧ headerOpcode b.connection.inp.toList = m.opcode
      ∧ (HEADER_SIZE + headerSize b.connection.inp.toList ≤ b.connection.inp.size →
        ∃ rest bytes, ch.frames = ms ++ m :: rest
          ∧ b.connection.inp.toList = m.bytes ++ bytes) := by
  obtain ⟨part, hsent, hpart⟩ := hserves.last
  obtain ⟨rest, hframes⟩ := h.begun
  have hring := h.ring hframes hsent
  rw [← toList_length] at hlen ⊢
  have hhdr : HEADER_SIZE = 4 := rfl
  cases rest with
  | cons m rest =>
      have hm : m.Short := hserves.carries.short m (by rw [← hframes]; simp)
      have hring' : b.connection.inp.toList <+: m.bytes ++ (messageBytes rest ++ part) := by
        rw [← List.append_assoc]
        exact hring
      -- the frame is there once its bytes are
      have hwhole : m.bytes.length ≤ b.connection.inp.toList.length →
          ∃ bytes, b.connection.inp.toList = m.bytes ++ bytes := by
        intro hle
        obtain ⟨bytes, hbytes⟩ :=
          List.prefix_of_prefix_length_le (List.prefix_append _ _) hring' hle
        exact ⟨bytes, hbytes.symm⟩
      cases hresponse : m.isResponse with
      | false =>
          obtain ⟨bytes, hbytes⟩ := hwhole (by rw [(m.bare_of_not_response hresponse).1]; omega)
          exact .inl ⟨m, rest, bytes, hframes.symm, hresponse, hbytes⟩
      | true =>
          obtain ⟨r, hget, hr⟩ := hserves.next ms m rest hframes.symm hresponse
          obtain ⟨hop, hsize⟩ := m.header_of_begun hm hring' hlen
          refine .inr ⟨m, r, hresponse, hget, hr, hop, fun hcomplete => ?_⟩
          obtain ⟨bytes, hbytes⟩ := hwhole (by
            rw [m.bytes_length, ← hsize]
            exact hcomplete)
          exact ⟨rest, bytes, hframes.symm, hbytes⟩
  | nil =>
      rw [List.append_nil] at hframes
      have hring' : b.connection.inp.toList <+: part := hring
      rcases hpart with rfl | ⟨m, r, hresponse, hpre, hne, hget, hr⟩
      · have hnone := List.prefix_nil.mp hring'
        rw [hnone] at hlen
        exact absurd hlen (by decide)
      · have hbegun : b.connection.inp.toList <+: m.bytes ++ [] := by
          rw [List.append_nil]
          exact hring'.trans hpre
        obtain ⟨hop, hsize⟩ := m.header_of_begun hr.short hbegun hlen
        rw [← hframes] at hget
        refine .inr ⟨m, r, hresponse, hget, hr, hop, fun hcomplete => ?_⟩
        -- only the beginning of the response was put
        have hle : m.bytes.length ≤ part.length := by
          rw [m.bytes_length, ← hsize]
          exact (show 4 + _ ≤ _ from hcomplete).trans hring'.length_le
        exact absurd (hpre.eq_of_length_le hle) hne

/-- A message is taken off the connection, with a fd if it announces a device. -/
theorem Backend.Hears.take (h : b.Hears ch s₀ ms x) {m : ServerMsg} {bytes : List UInt8}
    {fdsIn : ConnectionBuffer} (hframes : ch.frames = ms ++ m :: rest)
    (hring : b.connection.inp.toList = m.bytes ++ bytes) (hfdsIn : FdRing fdsIn)
    (hcount : (deviceIds (ms ++ [m])).length ≤ ch.queued.length)
    (hfds : wireFds ((wireOf ch.sent).take b.input.length)
      = ch.queued.take (deviceIds (ms ++ [m])).length ++ ringFds fdsIn)
    (hconn : b'.connection
      = { b.connection with inp := b.connection.inp.skip m.bytes.length, fdsIn := fdsIn })
    (hinput : b'.input = b.input) (hsent : b'.sent = b.sent) (herror : b'.error = b.error) :
    b'.Hears ch s₀ (ms ++ [m]) x := by
  have hle : m.bytes.length ≤ b.connection.inp.size := by
    rw [← toList_length, hring, List.length_append]
    exact Nat.le_add_right _ _
  have hbytes : b.input = messageBytes (ms ++ [m]) ++ bytes := by
    rw [h.bytes, hring, messageBytes_append, messageBytes_single, List.append_assoc]
  rw [deviceIds_append, deviceIds_single, List.length_append] at hcount hfds
  have hskip := h.receives.skip hframes hring rfl
    ((List.prefix_iff_eq_take.mp h.stream).symm.trans hbytes) hfdsIn hcount hfds
  refine ⟨herror.trans h.ok, hsent ▸ h.sent, ?_, ?_, ?_, ?_, ?_, ?_, ?_⟩
  · rw [hconn]
    exact h.out
  · rw [hconn]
    exact h.flush
  · unfold Backend.put
    rw [hconn, hsent]
    exact h.put
  · rw [hconn, hinput, deviceIds_append, deviceIds_single, List.length_append]
    exact hskip
  · rw [hframes]
    exact ⟨rest, by simp⟩
  · rw [hinput]
    exact h.stream
  · rw [hconn, hinput, hbytes]
    show _ = _ ++ (b.connection.inp.skip m.bytes.length).toList
    rw [toList_skip size_dvd _ hle, hring, List.drop_left]

/-- A message without a device. -/
theorem Backend.Hears.takeBare (h : b.Hears ch s₀ ms x) {m : ServerMsg} {bytes : List UInt8}
    (hframes : ch.frames = ms ++ m :: rest) (hring : b.connection.inp.toList = m.bytes ++ bytes)
    (hopens : m.opens.toList.length = 0)
    (hconn : b'.connection = { b.connection with inp := b.connection.inp.skip m.bytes.length })
    (hinput : b'.input = b.input) (hsent : b'.sent = b.sent) (herror : b'.error = b.error) :
    b'.Hears ch s₀ (ms ++ [m]) x := by
  obtain ⟨-, -, -, -, hfds⟩ := h.receives.read
  have hcount : (deviceIds (ms ++ [m])).length = (deviceIds ms).length := by
    rw [deviceIds_append, deviceIds_single, List.length_append, hopens, Nat.add_zero]
  refine h.take hframes hring h.receives.ring ?_ ?_ hconn hinput hsent herror
  · rw [hcount]
    exact h.receives.opened
  · rw [hcount]
    exact hfds

end

/-! ## The computations of the backend -/

/-- Not in error, and `n` responses were taken. -/
def Backend.Upto (b : Backend) (ch : Channel) (s₀ : List Segment) (n : Nat) (x : List UInt8) : Prop :=
  ∃ ms, (responsesIn ms).length = n ∧ b.Hears ch s₀ ms x

/-- The response to `r` is there, and `n` responses were taken before. -/
def Backend.Faces (b : Backend) (ch : Channel) (s₀ : List Segment) (r : Request) (n : Nat)
    (x : List UInt8) : Prop :=
  ∃ ms m rest bytes, (responsesIn ms).length = n ∧ b.Hears ch s₀ ms x ∧ ch.frames = ms ++ m :: rest
    ∧ b.connection.inp.toList = m.bytes ++ bytes ∧ m.isResponse = true ∧ DdeSeatd.Answers r m

section

variable {ch : Channel} {s₀ : List Segment} {n : Nat} {x : List UInt8} {asked : List Request}
  {a : Answers}

theorem connPut_upto (data : List UInt8) (results : List SendResult) :
    Spec (fun b => b.Upto ch s₀ n x) (connPut data results) (fun _ b => b.Upto ch s₀ n (x ++ data))
      fun _ b => b.error = true := by
  refine connSend_rule ?_ fun _ _ _ => failed_error _
  rintro b k ⟨ms, hms, hb⟩ hret
  have hput := connectionPut_put b.connection data results hb.out
  exact ⟨ms, hms, hb.send hput.size hput.flush hput.inp hput.fdsIn (hput.ok k hret)⟩

theorem connFlush_upto (results : List SendResult) :
    Spec (fun b => b.Upto ch s₀ n x) (connFlush results) (fun _ b => b.Upto ch s₀ n x)
      fun _ b => b.error = true := by
  refine connSend_rule ?_ fun _ _ _ => failed_error _
  rintro b k ⟨ms, hms, hb⟩ hret
  have hflush := connectionFlush_flushed b.connection results hb.out hb.flush
  have hempty := hflush.ok k hret
  refine ⟨ms, hms, ?_⟩
  rw [← List.append_nil x]
  refine hb.send (hflush.size.trans hb.out) (fun hpos => absurd hempty hpos.ne') hflush.inp
    hflush.fdsIn ?_
  rw [List.append_nil]
  exact hflush.bytes

theorem connPutAll_upto (parts : List (List UInt8)) (i : Nat) (x : List UInt8) :
    Spec (fun b => b.Upto ch s₀ n x) (connPutAll a i parts)
      (fun _ b => b.Upto ch s₀ n (x ++ parts.flatten)) fun _ b => b.error = true :=
  connPutAll_rule (I := fun x b => b.Upto ch s₀ n x) a (fun _ => connPut_upto) parts i x

theorem sendRequest_upto (r : Request) :
    Spec (fun b => b.Upto ch s₀ n x) (sendRequest a r) (fun _ b => b.Upto ch s₀ n (x ++ r.bytes))
      fun _ b => b.error = true :=
  (connPutAll_upto r.parts 0 x).bind fun _ => connFlush_upto _

theorem sendPing_upto :
    Spec (fun b => b.Upto ch s₀ n x) (sendPing a)
      (fun _ b => b.Upto ch s₀ n (x ++ Request.bytes .ping)) fun _ b => b.error = true :=
  (connPutAll_upto _ 4 x).bind fun _ => connFlush_upto _

/-- The opcodes by which `read_and_queue` tells responses from the rest. -/
theorem isResponse_iff_opcode (m : ServerMsg) :
    m.isResponse = true ↔ m.opcode ≠ SERVER_PONG ∧ seatEvent m.opcode = none := by
  cases m <;> simp [ServerMsg.isResponse, seatEvent, SERVER_PONG, SERVER_DISABLE_SEAT,
    SERVER_ENABLE_SEAT, ServerMsg.opcode, serverEvent]

theorem headerSize_get {b : Backend} {header : List UInt8} {conn : Connection}
    (h : connectionGet b.connection HEADER_SIZE = (.ok header, conn)) :
    headerSize header = headerSize b.connection.inp.toList := by
  obtain ⟨-, rfl, -⟩ := connectionGet_eq_ok h
  simp [headerSize, bytesUint16, List.getD, HEADER_SIZE]

/-- What is no response is taken with its header. -/
theorem Backend.Hears.takeHeader {b b' : Backend} {ms : List ServerMsg} {header : List UInt8}
    {conn : Connection} (h : b.Hears ch s₀ ms x) (hserves : ch.Serves asked)
    (hget : connectionGet b.connection HEADER_SIZE = (.ok header, conn))
    (hother : ¬ (headerOpcode header ≠ SERVER_PONG ∧ seatEvent (headerOpcode header) = none))
    (hconn : b'.connection = conn) (hinput : b'.input = b.input) (hsent : b'.sent = b.sent)
    (herror : b'.error = b.error) : b'.Upto ch s₀ (responsesIn ms).length x := by
  obtain ⟨hle, -, hskip⟩ := connectionGet_eq_ok hget
  rw [headerOpcode_get hget] at hother
  rcases h.front hserves hle with ⟨m, rest, bytes, hframes, hm, hring⟩ | ⟨m, r, hm, -, -, hop, -⟩
  · obtain ⟨hlen, hopens⟩ := m.bare_of_not_response hm
    refine ⟨ms ++ [m], ?_, h.takeBare hframes hring hopens ?_ hinput hsent herror⟩
    · rw [responsesIn_append, responsesIn_single_of_false hm, List.append_nil]
    · rw [hconn, hskip, hlen]
      rfl
  · rw [hop] at hother
    exact absurd ((isResponse_iff_opcode m).mp hm) hother

/-- A header that is left where it is belongs to the response that comes next. -/
theorem Backend.Hears.faces {b : Backend} {ms : List ServerMsg} (h : b.Hears ch s₀ ms x)
    (hserves : ch.Serves asked) (hlen : HEADER_SIZE ≤ b.connection.inp.size)
    (hresponse : headerOpcode b.connection.inp.toList ≠ SERVER_PONG
      ∧ seatEvent (headerOpcode b.connection.inp.toList) = none) :
    ∃ r, asked[(responsesIn ms).length]? = some r
      ∧ (HEADER_SIZE + headerSize b.connection.inp.toList ≤ b.connection.inp.size →
        b.Faces ch s₀ r (responsesIn ms).length x) := by
  rcases h.front hserves hlen with
    ⟨m, rest, bytes, hframes, hm, hring⟩ | ⟨m, r, hm, hget, hr, -, hwhole⟩
  · -- the header of a pong or of an event
    have hshort : m.Short := hserves.carries.short m (by rw [hframes]; simp)
    have hop : headerOpcode b.connection.inp.toList = m.opcode := by
      rw [hring]
      exact (m.header hshort bytes).1
    rw [hop] at hresponse
    have hm' := (isResponse_iff_opcode m).mpr hresponse
    rw [hm] at hm'
    cases hm'
  · refine ⟨r, hget, fun hcomplete => ?_⟩
    obtain ⟨rest, bytes, hframes, hring⟩ := hwhole hcomplete
    exact ⟨ms, m, rest, bytes, rfl, h, hframes, hring, hm, hr⟩

/-- **`read_and_queue` takes what is no response** and stops at a response; it fails for want of
memory only. -/
theorem readAndQueue_upto (hserves : ch.Serves asked) {wanted : Bool}
    (hwanted : wanted = false → asked.length ≤ n) :
    Spec (fun b => b.Upto ch s₀ n x) (readAndQueue a wanted)
      (fun p b => b.Upto ch s₀ n x ∧ (p.2 ≠ 0 → ∃ r, asked[n]? = some r ∧ b.Faces ch s₀ r n x))
      fun e b => b.error = true ∧ e = ENOMEM := by
  refine readAndQueue_rule (I := fun _ b => b.Upto ch s₀ n x)
    (fun hb _ => ⟨hb, fun hno => absurd rfl hno⟩) (fun ⟨ms, hms, hears⟩ hget hpong => ?_)
    (fun ⟨ms, hms, hears⟩ hget _ hev => ?_) fun {_ b header conn} ⟨ms, hms, hears⟩ hget hresponse => ?_
  · exact hms ▸ hears.takeHeader hserves hget (fun hno => hno.1 hpong) rfl rfl rfl rfl
  · split_ifs
    · exact hms ▸ hears.takeHeader hserves hget (fun hno => by simp [hev] at hno) rfl rfl rfl rfl
    · exact fun _ he => ⟨he, rfl⟩
  · subst hms
    obtain ⟨r, hr, hfaces⟩ := hears.faces hserves (connectionGet_eq_ok hget).1
      (headerOpcode_get hget ▸ hresponse)
    cases wanted with
    | true =>
        refine ⟨⟨ms, rfl, hears⟩, fun hne => ⟨r, hr, hfaces ?_⟩⟩
        have hcomplete : conn.inp.size ≥ headerSize header := by
          by_contra hno
          exact hne (if_neg hno)
        rw [← headerSize_get hget, ← get_size hget]
        omega
    | false =>
        -- a response that nobody waits for
        have hlt := (List.getElem?_eq_some_iff.mp hr).1
        exact absurd (hwanted rfl) (Nat.not_le_of_lt hlt)

/-- `check_pending_events` may put a ping. -/
theorem checkPendingEvents_upto (hserves : ch.Serves asked) (hn : asked.length ≤ n) :
    Spec (fun b => b.Upto ch s₀ n x) (checkPendingEvents a)
      (fun _ b => b.Upto ch s₀ n x ∨ b.Upto ch s₀ n (x ++ Request.bytes .ping))
      fun _ b => b.error = true := by
  have hqueue : Spec (fun b => b.Upto ch s₀ n x) (readAndQueue a false) (fun _ b => b.Upto ch s₀ n x)
      fun _ b => b.error = true :=
    (readAndQueue_upto hserves fun _ => hn).weaken (fun _ h => h) (fun _ _ h => h.1)
      fun _ _ h => h.1
  refine hqueue.bind fun _ => spec_get_bind fun b hb => ?_
  split_ifs
  · exact .inl hb
  · exact .inl hb
  · refine (sendPing_upto.bind fun _ => spec_modify fun b' hb' => ?_) b hb
    obtain ⟨ms, hms, hears⟩ := hb'
    exact .inr ⟨ms, hms, hears.same rfl rfl rfl rfl⟩

end

/-! ## Responses -/

/-- The arguments with which the response to a request has its header read. -/
def responseHeader : Request → Nat × Nat × Bool
  | .openSeat => (ServerMsg.opcode (.seatOpened []), 2, true)
  | .closeSeat => (ServerMsg.opcode .seatClosed, 0, false)
  | .openDevice _ => (ServerMsg.opcode (.deviceOpened 0), 4, false)
  | .closeDevice _ => (ServerMsg.opcode .deviceClosed, 0, false)
  | .switchSession _ => (ServerMsg.opcode .sessionSwitched, 0, false)
  | .disableSeat | .ping => (ServerMsg.opcode .seatDisabled, 0, false)

/-- `read_header` for the response to a request. -/
def readResponseHeader (r : Request) : Api Nat :=
  readHeader (responseHeader r).1 (responseHeader r).2.1 (responseHeader r).2.2

/-- The backend after `count` bytes were taken. -/
def Backend.skipped (b : Backend) (count : Nat) : Backend :=
  { b with connection := { b.connection with inp := b.connection.inp.skip count } }

section

variable {b : Backend} {m : ServerMsg} {bytes : List UInt8}

theorem Backend.skipped_skipped (b : Backend) (i j : Nat) :
    (b.skipped i).skipped j = b.skipped (i + j) := by
  unfold Backend.skipped
  rw [skip_skip]

theorem skipped_toList {data : List UInt8} (hring : b.connection.inp.toList = data ++ bytes) :
    (b.skipped data.length).connection.inp.toList = bytes := by
  have hle : data.length ≤ b.connection.inp.size := by
    rw [← toList_length, hring, List.length_append]
    exact Nat.le_add_right _ _
  show (b.connection.inp.skip data.length).toList = bytes
  rw [toList_skip size_dvd _ hle, hring, List.drop_left]

/-- Getting the bytes the ring begins with. -/
theorem outcome_connGet {data : List UInt8} (hring : b.connection.inp.toList = data ++ bytes) :
    outcome (connGet data.length) b = (.ok data, b.skipped data.length) := by
  have hle : data.length ≤ b.connection.inp.size := by
    rw [← toList_length, hring, List.length_append]
    exact Nat.le_add_right _ _
  refine (run_connGet hle).trans ?_
  rw [hring, List.take_left]
  rfl

/-- Getting the header of the message the ring begins with. -/
theorem outcome_connGet_header (hring : b.connection.inp.toList = m.bytes ++ bytes) :
    outcome (connGet HEADER_SIZE) b
      = (.ok (headerBytes m.opcode m.payload.flatten.length), b.skipped HEADER_SIZE) := by
  rw [m.bytes_eq, List.append_assoc] at hring
  exact outcome_connGet hring

theorem header_fields (hm : m.Short) :
    headerOpcode (headerBytes m.opcode m.payload.flatten.length) = m.opcode
      ∧ headerSize (headerBytes m.opcode m.payload.flatten.length) = m.payload.flatten.length :=
  ⟨bytesUint16_uint16Bytes m.opcode_lt, bytesUint16_uint16Bytes hm⟩

/-- `read_header` on the message it expects. -/
theorem outcome_readHeader_reply (hm : m.Short) (hring : b.connection.inp.toList = m.bytes ++ bytes)
    {expectedSize : Nat} {variableSize : Bool}
    (hsize : if variableSize then expectedSize ≤ m.payload.flatten.length
      else m.payload.flatten.length = expectedSize) :
    outcome (readHeader m.opcode expectedSize variableSize) b
      = (.ok m.payload.flatten.length, b.skipped HEADER_SIZE) := by
  obtain ⟨hop, hlen⟩ := header_fields hm
  unfold readHeader
  rw [outcome_bind, outcome_connGet_header hring]
  dsimp only
  rw [hop, hlen, if_neg (not_not.mpr rfl), if_neg]
  · rfl
  · cases variableSize <;> simpa using hsize

/-- `read_header` on an error. -/
theorem outcome_readHeader_error {code : Int} {expectedOpcode : Nat}
    (hring : b.connection.inp.toList = (ServerMsg.error code).bytes ++ bytes)
    (hop : expectedOpcode ≠ SERVER_ERROR) (expectedSize : Nat) (variableSize : Bool) :
    outcome (readHeader expectedOpcode expectedSize variableSize) b
      = (.error (bytesInt (intBytes code)), b.skipped (ServerMsg.error code).bytes.length) := by
  have hring' : b.connection.inp.toList
      = headerBytes SERVER_ERROR SERVER_ERROR_SIZE ++ (intBytes code ++ bytes) := hring
  have hget := outcome_connGet (skipped_toList hring')
  have hfields : headerOpcode (headerBytes (ServerMsg.error code).opcode
      (ServerMsg.error code).payload.flatten.length) = SERVER_ERROR
    ∧ headerSize (headerBytes (ServerMsg.error code).opcode
      (ServerMsg.error code).payload.flatten.length) = SERVER_ERROR_SIZE :=
    header_fields (show 4 < 2 ^ 16 from by decide)
  unfold readHeader
  rw [outcome_bind, outcome_connGet_header hring]
  dsimp only
  rw [hfields.1, hfields.2, if_pos (Ne.symm hop), if_neg (by decide), outcome_bind]
  rw [show outcome (connGet SERVER_ERROR_SIZE) (b.skipped HEADER_SIZE) = _ from hget]
  dsimp only
  rw [Backend.skipped_skipped]
  rfl

/-- The response to a request is the message `read_header` is called for. -/
theorem responseHeader_expects {r : Request} (hr : DdeSeatd.Answers r m) (hping : r ≠ .ping)
    (herror : ∀ code, m ≠ .error code) :
    (responseHeader r).1 = m.opcode
      ∧ if (responseHeader r).2.2 then (responseHeader r).2.1 ≤ m.payload.flatten.length
        else m.payload.flatten.length = (responseHeader r).2.1 := by
  cases m with
  | error code => exact absurd rfl (herror code)
  | seatOpened name =>
      cases r with
      | openSeat => exact ⟨rfl, by simp [responseHeader, ServerMsg.payload]⟩
      | _ => cases hr
  | deviceOpened id =>
      cases r with
      | openDevice path => exact ⟨rfl, rfl⟩
      | _ => cases hr
  | seatClosed | deviceClosed | disableSeat | enableSeat | pong | sessionSwitched | seatDisabled =>
      cases r <;> first | exact ⟨rfl, rfl⟩ | exact absurd rfl hping | cases hr

/-- **`read_header` meets the response to its own request.** -/
theorem outcome_readResponseHeader {r : Request} (hr : DdeSeatd.Answers r m) (hping : r ≠ .ping)
    (hring : b.connection.inp.toList = m.bytes ++ bytes) :
    (∃ code, m = .error code ∧ outcome (readResponseHeader r) b
      = (.error (bytesInt (intBytes code)), b.skipped m.bytes.length))
    ∨ (∀ code, m ≠ .error code) ∧ outcome (readResponseHeader r) b
      = (.ok m.payload.flatten.length, b.skipped HEADER_SIZE) := by
  by_cases herror : ∃ code, m = .error code
  · obtain ⟨code, rfl⟩ := herror
    refine .inl ⟨code, rfl, outcome_readHeader_error hring ?_ _ _⟩
    cases r <;> simp [responseHeader, SERVER_ERROR, ServerMsg.opcode, serverEvent]
  · have hne : ∀ code, m ≠ .error code := fun code hm => herror ⟨code, hm⟩
    obtain ⟨hop, hsize⟩ := responseHeader_expects hr hping hne
    refine .inr ⟨hne, ?_⟩
    unfold readResponseHeader
    rw [hop]
    exact outcome_readHeader_reply hr.short hring hsize

end

section

variable {b : Backend} {ch : Channel} {s₀ : List Segment} {ms rest : List ServerMsg}
  {m : ServerMsg} {x bytes : List UInt8}

/-- A response without a device is taken. -/
theorem Backend.Hears.takeResponse (h : b.Hears ch s₀ ms x) (hframes : ch.frames = ms ++ m :: rest)
    (hring : b.connection.inp.toList = m.bytes ++ bytes) (hm : m.isResponse = true)
    (hopens : m.opens.toList.length = 0) :
    (b.skipped m.bytes.length).Upto ch s₀ ((responsesIn ms).length + 1) x := by
  refine ⟨ms ++ [m], ?_, h.takeBare hframes hring hopens rfl rfl rfl rfl⟩
  rw [responsesIn_append, responsesIn_single_of_true hm, List.length_append]
  rfl

/-- DEVICE_OPENED is taken with its fd. -/
theorem readResponse_device {id : Int} (path : CString) (h : b.Hears ch s₀ ms x)
    (hcarries : Carries ch.sent ch.frames ch.queued)
    (hframes : ch.frames = ms ++ .deviceOpened id :: rest)
    (hring : b.connection.inp.toList = (ServerMsg.deviceOpened id).bytes ++ bytes) :
    ∃ reply b', outcome (readResponse (.openDevice path)) b = (.ok reply, b')
      ∧ b'.Upto ch s₀ ((responsesIn ms).length + 1) x := by
  obtain ⟨-, -, -, -, hfds⟩ := h.receives.read
  have hbytes : b.input = messageBytes (ms ++ [.deviceOpened id]) ++ bytes := by
    rw [h.bytes, hring, messageBytes_append, messageBytes_single, List.append_assoc]
  obtain ⟨fd, fds, hfd, hget, hfds'⟩ := h.receives.device hcarries hframes rfl rfl
    ((List.prefix_iff_eq_take.mp h.stream).symm.trans hbytes) hfds
  obtain ⟨-, hfdsIn, hleft⟩ := h.receives.ring.get hfd
  have hcount : (deviceIds (ms ++ [.deviceOpened id])).length = (deviceIds ms).length + 1 := by
    rw [deviceIds_append, deviceIds_single, List.length_append]
    rfl
  refine ⟨_, _, readResponse_openDevice hring h.receives.ring hfd, ms ++ [.deviceOpened id], ?_,
    h.take hframes hring hfdsIn ?_ ?_ rfl rfl rfl rfl⟩
  · rw [responsesIn_append, List.length_append]
    rfl
  · rw [hcount]
    exact (List.getElem?_eq_some_iff.mp hget).1
  · rw [hcount, hleft]
    exact hfds'

end

section

variable {ch : Channel} {s₀ : List Segment} {n : Nat} {x : List UInt8} {asked : List Request}
  {r : Request}

/-- `read_header` takes an error whole, and only the header of another response. -/
theorem Backend.Faces.header {b : Backend} (h : b.Faces ch s₀ r n x) (hping : r ≠ .ping) :
    (∃ e b', outcome (readResponseHeader r) b = (.error e, b') ∧ b'.Upto ch s₀ (n + 1) x)
    ∨ ∃ ms m rest bytes, (responsesIn ms).length = n ∧ b.Hears ch s₀ ms x
      ∧ ch.frames = ms ++ m :: rest ∧ b.connection.inp.toList = m.bytes ++ bytes
      ∧ m.isResponse = true ∧ DdeSeatd.Answers r m ∧ (∀ code, m ≠ .error code)
      ∧ outcome (readResponseHeader r) b
        = (.ok m.payload.flatten.length, b.skipped HEADER_SIZE) := by
  obtain ⟨ms, m, rest, bytes, rfl, hears, hframes, hring, hm, hr⟩ := h
  rcases outcome_readResponseHeader hr hping hring with ⟨code, rfl, hout⟩ | ⟨hne, hout⟩
  · exact .inl ⟨_, _, hout, hears.takeResponse hframes hring hm rfl⟩
  · exact .inr ⟨ms, m, rest, bytes, rfl, hears, hframes, hring, hm, hr, hne, hout⟩

/-- The response to a request without data is a bare header. -/
theorem readHeader_faces (hping : r ≠ .ping) (hbare : (responseHeader r).2 = (0, false)) :
    Spec (fun b => b.Faces ch s₀ r n x) (readResponseHeader r) (fun _ b => b.Upto ch s₀ (n + 1) x)
      fun _ b => b.Upto ch s₀ (n + 1) x := by
  intro b hb
  rcases hb.header hping with
    ⟨e, b', hout, hb'⟩ | ⟨ms, m, rest, bytes, rfl, hears, hframes, hring, hm, hr, hne, hout⟩
  · rw [hout]
    exact hb'
  · rw [hout]
    have hexpects := (responseHeader_expects hr hping hne).2
    rw [hbare, if_neg Bool.false_ne_true] at hexpects
    have hlen : m.bytes.length = HEADER_SIZE := by
      rw [m.bytes_length, hexpects]
      rfl
    have hopens : m.opens.toList.length = 0 := by
      cases m with
      | deviceOpened id => exact absurd (show 4 = 0 from hexpects) (by decide)
      | seatOpened | seatClosed | deviceClosed | disableSeat | enableSeat | pong
      | sessionSwitched | seatDisabled | error => rfl
    rw [← hlen]
    exact hears.takeResponse hframes hring hm hopens

/-- **A response is taken whole**, with its fd if it has one. -/
theorem readResponse_faces (hserves : ch.Serves asked) (hseat : r ≠ .openSeat ∧ r ≠ .closeSeat)
    (hping : r ≠ .ping) :
    Spec (fun b => b.Faces ch s₀ r n x) (readResponse r) (fun _ b => b.Upto ch s₀ (n + 1) x)
      fun _ b => b.Upto ch s₀ (n + 1) x := by
  cases r with
  | openSeat => exact absurd rfl hseat.1
  | closeSeat => exact absurd rfl hseat.2
  | ping => exact absurd rfl hping
  | closeDevice _ | switchSession _ | disableSeat =>
      exact (readHeader_faces hping rfl).bind fun _ => spec_pure fun _ h => h
  | openDevice path =>
      intro b hb
      rcases hb.header hping with
        ⟨e, b', hout, hb'⟩ | ⟨ms, m, rest, bytes, rfl, hears, hframes, hring, hm, hr, hne, -⟩
      · show Ends _ _ (outcome (readResponseHeader (.openDevice path) >>= _) b)
        rw [outcome_bind, hout]
        exact hb'
      · cases m with
        | error code => exact absurd rfl (hne code)
        | deviceOpened id =>
            obtain ⟨reply, b', hout, hb'⟩ :=
              readResponse_device path hears hserves.carries hframes hring
            rw [hout]
            exact hb'
        | seatOpened | seatClosed | deviceClosed | disableSeat | enableSeat | pong
        | sessionSwitched | seatDisabled => cases hr

/-- SEAT_OPENED is taken whole. -/
theorem seatOpened_faces :
    Spec (fun b => b.Faces ch s₀ .openSeat n x) seatOpened (fun _ b => b.Upto ch s₀ (n + 1) x)
      fun _ _ => True := by
  intro b hb
  rcases hb.header (by simp) with
    ⟨e, b', hout, -⟩ | ⟨ms, m, rest, bytes, rfl, hears, hframes, hring, hm, hr, hne, hout⟩
  · show Ends _ _ (outcome (readResponseHeader .openSeat >>= _) b)
    rw [outcome_bind, hout]
    trivial
  · cases m with
    | seatOpened name =>
        obtain rfl : name = SEAT0 := hr
        -- what follows the header: the length of the name, and the name with its NUL
        have hring' : b.connection.inp.toList
            = headerBytes (ServerMsg.opcode (.seatOpened SEAT0)) 8
              ++ (uint16Bytes 6 ++ ((SEAT0 ++ [0]) ++ bytes)) := hring
        have hlen := skipped_toList hring'
        have hname := skipped_toList hlen
        have hgetLen := outcome_connGet hlen
        have hgetName := outcome_connGet hname
        show Ends _ _ (outcome (readResponseHeader .openSeat >>= _) b)
        rw [outcome_bind, hout]
        dsimp only
        rw [outcome_bind, show outcome (connGet 2) (b.skipped HEADER_SIZE) = _ from hgetLen]
        dsimp only
        rw [if_neg (by decide), if_neg (by decide), outcome_bind,
          show outcome (connGet (bytesUint16 (uint16Bytes 6))) _ = _ from hgetName]
        dsimp only
        rw [if_neg (by decide), Backend.skipped_skipped, Backend.skipped_skipped]
        obtain ⟨ms', hms', hears'⟩ := hears.takeResponse hframes hring hm rfl
        exact ⟨ms', hms', hears'.same rfl rfl rfl rfl⟩
    | seatClosed | deviceOpened | deviceClosed | disableSeat | enableSeat | pong
    | sessionSwitched | seatDisabled | error => cases hr

end

/-! ## Reading -/

/-- The kernel delivers the next bytes that were sent, with their fds, as many as it likes and there
is room for; none of them when the stream has ended; or the read fails. -/
def Answers.Delivers (a : Answers) (ch : Channel) (b : Backend) : Prop :=
  (∃ e, recvmsgLoop a.recv = .fail e)
  ∨ ∃ len, len ≤ CONNECTION_BUFFER_SIZE - b.connection.inp.size
    ∧ b.input.length + len ≤ (sentBytes ch.sent).length
    ∧ recvmsgLoop a.recv
      = .data ((((wireOf ch.sent).drop b.input.length).take len).map Prod.fst)
          (wireCmsgs (((wireOf ch.sent).drop b.input.length).take len))

section

variable {b : Backend} {ch : Channel} {s₀ : List Segment} {ms : List ServerMsg} {n : Nat}
  {x : List UInt8} {asked : List Request} {a : Answers}

/-- A read that fails changes nothing. -/
theorem Backend.read_same {results : List RecvResult}
    (h : (connectionRead b.connection results).2.1 = b.connection) : b.read results = b := by
  unfold Backend.read
  rw [h]
  dsimp only
  rw [List.drop_of_length_le (toList_length _).le, List.append_nil]

/-- What is read are the next bytes of the stream. -/
theorem Backend.Hears.read (h : b.Hears ch s₀ ms x) (hserves : ch.Serves asked)
    (ha : a.Delivers ch b) : (b.read a.recv).Hears ch s₀ ms x := by
  by_cases hfull : CONNECTION_BUFFER_SIZE ≤ b.connection.inp.size
  · rw [Backend.read_same (by rw [connectionRead_full _ _ hfull])]
    exact h
  have hroom : b.connection.inp.size < CONNECTION_BUFFER_SIZE := by omega
  rcases ha with ⟨e, hrecv⟩ | ⟨len, hfit, hlen, hrecv⟩
  · rw [Backend.read_same (by rw [connectionRead_fail _ hroom hrecv])]
    exact h
  set got := ((sentBytes ch.sent).drop b.input.length).take len with hgot
  have hbytes : (((wireOf ch.sent).drop b.input.length).take len).map Prod.fst = got := by
    rw [hgot, List.map_take, List.map_drop, wireOf_bytes]
  have hgotLen : got.length = len := by
    rw [hgot, List.length_take, List.length_drop]
    omega
  rw [hbytes] at hrecv
  obtain ⟨fdsIn, hdecode, hreceives⟩ := h.receives.push hserves.carries hserves.ints hlen (by omega)
  have hread := connectionRead_rights b.connection hroom hrecv (by omega) hdecode
  have hring : (b.connection.inp.push got).toList = b.connection.inp.toList ++ got :=
    toList_push size_dvd size_lt _ (by omega)
  have hconn : (b.read a.recv).connection
      = { b.connection with inp := b.connection.inp.push got, fdsIn := fdsIn } := by
    show (connectionRead b.connection a.recv).2.1 = _
    rw [hread]
  have hinput : (b.read a.recv).input = b.input ++ got := by
    show b.input ++ (connectionRead b.connection a.recv).2.1.inp.toList.drop _ = _
    rw [hread]
    show b.input ++ (b.connection.inp.push got).toList.drop _ = _
    rw [hring, List.drop_left' (toList_length _)]
  refine ⟨h.ok, h.sent, ?_, ?_, ?_, ?_, h.begun, ?_, ?_⟩
  · rw [hconn]
    exact h.out
  · rw [hconn]
    exact h.flush
  · unfold Backend.put
    rw [hconn]
    exact h.put
  · rw [hconn, hinput, List.length_append, hgotLen]
    exact hreceives
  · rw [hinput]
    obtain ⟨more, hmore⟩ := h.stream
    have hdrop : (sentBytes ch.sent).drop b.input.length = more := by
      rw [← hmore, List.drop_left]
    refine ⟨more.drop len, ?_⟩
    rw [hgot, hdrop, List.append_assoc, List.take_append_drop]
    exact hmore
  · rw [hconn, hinput, h.bytes, List.append_assoc]
    exact congrArg _ hring.symm

theorem connRead_upto (hserves : ch.Serves asked) :
    Spec (fun b => b.Upto ch s₀ n x ∧ a.Delivers ch b) (connRead a) (fun _ b => b.Upto ch s₀ n x)
      fun _ b => b.error = true := by
  intro b hb
  obtain ⟨⟨ms, hms, hears⟩, ha⟩ := hb
  exact ⟨ms, hms, hears.read hserves ha⟩

/-- `poll_connection` fails only when it closes the connection. -/
theorem pollConnection_upto (hserves : ch.Serves asked) (hresponds : a.Responds) :
    Spec (fun b => b.Upto ch s₀ n x ∧ a.Delivers ch b) (pollConnection a) (fun _ b => b.Upto ch s₀ n x)
      fun _ b => b.error = true :=
  pollConnection_rule (fun _ h _ => h.1)
    (fun _ e _ hpoll hno => absurd (hresponds.1 e hpoll) hno) (fun b _ _ => failed_error b)
    (fun b _ h _ _ _ => connRead_upto hserves b h)
    fun _ _ hpoll hread => absurd (connectionRead_again hread) (hresponds.2 hpoll)

/-- The read of `dispatch` leaves the connection open or closes it. -/
theorem dispatchRead_upto (hserves : ch.Serves asked) (hresponds : a.Responds) (immediate : Bool) :
    Yields (fun b => b.Upto ch s₀ n x ∧ a.Delivers ch b) (dispatchRead a immediate)
      fun _ b => b.error = true ∨ b.Upto ch s₀ n x := by
  cases immediate with
  | true =>
      refine (connRead_upto hserves).caught (fun result => ?_) fun _ => yields_pure fun _ h => .inl h
      cases result with
      | ok len => exact yields_pure fun _ h => .inr h
      | error e => exact yields_pure fun _ h => .inr h
  | false =>
      intro b hb
      have hpoll := pollConnection_upto hserves hresponds b hb
      show (outcome (pollConnection a) b).2.error = true ∨ (outcome (pollConnection a) b).2.Upto ch s₀ n x
      rcases hout : outcome (pollConnection a) b with ⟨e | len, b'⟩ <;> rw [hout] at hpoll
      · exact .inl hpoll
      · exact .inr hpoll

end

/-! ## The entry points -/

/-- Not in error and up to date, after a ping or without one. -/
def Backend.Caught (b : Backend) (ch : Channel) (s₀ : List Segment) (n : Nat) (x : List UInt8) : Prop :=
  b.error = true ∨ b.Upto ch s₀ n x ∨ b.Upto ch s₀ n (x ++ Request.bytes .ping)

/-- What holds when the library gives up control in a call that has put the request `r`: it waits
for the response, or has taken it. -/
def Next.Exchanges (ch : Channel) (s₀ : List Segment) (r : Request) (n : Nat) (x : List UInt8)
    (b : Backend) : Next → Prop
  | .waits r' => r' = r ∧ b.Upto ch s₀ n x
  | .destroys _ => True
  | .returns _ | .executes _ | .aborts => b.Caught ch s₀ (n + 1) x

section

variable {ch : Channel} {s₀ : List Segment} {n : Nat} {x : List UInt8} {asked : List Request}
  {a : Answers} {r : Request}

theorem Backend.Caught.replied {b : Backend} (h : b.Caught ch s₀ (n + 1) x) (r r' : Request)
    (reply : Except Int Reply) : (replied r' reply).Exchanges ch s₀ r n x b := by
  unfold Libseat.replied
  split <;> split
  · exact h
  · exact h
  · exact h
  · split <;> exact h

theorem finish_exchanges (hserves : ch.Serves asked) (hn : asked.length = n + 1)
    (hping : r ≠ .ping) :
    Yields (fun b => b.Faces ch s₀ r n x) (finish a r (.ok ()))
      fun next b => next.Exchanges ch s₀ r n x b := by
  cases r with
  | ping => exact absurd rfl hping
  | openSeat =>
      exact seatOpened_faces.caught (fun _ => yields_pure fun _ h => .inr (.inl h))
        fun _ => yields_pure fun _ _ => trivial
  | closeSeat =>
      have hheader : Spec (fun b => b.Faces ch s₀ .closeSeat n x)
          (readHeader (ServerMsg.opcode .seatClosed) 0 false) (fun _ b => b.Upto ch s₀ (n + 1) x)
          fun _ b => b.Upto ch s₀ (n + 1) x := readHeader_faces hping rfl
      exact hheader.caught (fun _ => yields_pure fun _ h => .inr (.inl h))
        fun _ => yields_pure fun _ h => .inr (.inl h)
  | openDevice _ | closeDevice _ | disableSeat | switchSession _ =>
      have hcheck : ∀ (reply : Except Int Reply) (r r' : Request),
          Yields (fun b => b.Upto ch s₀ (n + 1) x)
            ((checkPendingEvents a).run >>= fun _ => pure (replied r' reply))
            fun next b => next.Exchanges ch s₀ r n x b := fun reply r r' =>
        (checkPendingEvents_upto hserves hn.le).caught
          (fun _ => yields_pure fun _ h => Backend.Caught.replied (.inr h) r r' reply)
          fun _ => yields_pure fun _ h => Backend.Caught.replied (.inl h) r r' reply
      exact (readResponse_faces hserves (by simp) (by simp)).caught (fun _ => hcheck _ _ _)
        fun _ => hcheck _ _ _

theorem finish_exchanges_error (a : Answers) (r : Request) (e : Int) :
    Yields (fun b => b.error = true) (finish a r (.error e))
      fun next b => next.Exchanges ch s₀ r n x b := by
  cases r with
  | openSeat => exact yields_pure fun _ _ => trivial
  | closeSeat =>
      exact (closed_error.readHeader _ _ _).spec.caught (fun _ => yields_pure fun _ h => .inl h)
        fun _ => yields_pure fun _ h => .inl h
  | openDevice _ | closeDevice _ | disableSeat | switchSession _ | ping =>
      exact yields_pure fun _ h => .inl h

/-- The request that has no response yet is the one that waits. -/
theorem awaitResponse_exchanges (hserves : ch.Serves asked) (hn : asked.length = n + 1)
    (hlast : asked[n]? = some r) (hping : r ≠ .ping) :
    Yields (fun b => b.Upto ch s₀ n x) (awaitResponse a r)
      fun next b => next.Exchanges ch s₀ r n x b := by
  have hqueue : Spec (fun b => b.Upto ch s₀ n x) (readAndQueue a true)
      (fun p b => b.Upto ch s₀ n x ∧ (p.2 ≠ 0 → ∃ r, asked[n]? = some r ∧ b.Faces ch s₀ r n x))
      fun e b => b.error = true ∧ e = ENOMEM :=
    readAndQueue_upto hserves fun hno => by cases hno
  refine hqueue.caught (fun p => ?_) fun e =>
    (finish_exchanges_error a r e).weaken (fun _ h => h.1) fun _ _ h => h
  dsimp only
  split_ifs with hzero
  · exact yields_pure fun _ h => ⟨rfl, h.1⟩
  · refine (finish_exchanges hserves hn hping).weaken (fun b hb => ?_) fun _ _ h => h
    obtain ⟨r', hr', hfaces⟩ := hb.2 hzero
    rw [hlast] at hr'
    cases hr'
    exact hfaces

theorem wake_exchanges (hserves : ch.Serves asked) (hn : asked.length = n + 1)
    (hlast : asked[n]? = some r) (hping : r ≠ .ping) (hresponds : a.Responds) :
    Yields (fun b => b.Upto ch s₀ n x ∧ a.Delivers ch b) (wake a r)
      fun next b => next.Exchanges ch s₀ r n x b :=
  (pollConnection_upto hserves hresponds).caught
    (fun _ => awaitResponse_exchanges hserves hn hlast hping) fun e => finish_exchanges_error a r e

/-- **A request**: it is put behind all that were put before, and its response is the next one. -/
theorem request_exchanges (hserves : ch.Serves asked) (hn : asked.length = n + 1)
    (hlast : asked[n]? = some r) (hping : r ≠ .ping) :
    Yields (fun b => b.Upto ch s₀ n x) (request a r)
      fun next b => next.Exchanges ch s₀ r n (x ++ r.bytes) b :=
  (sendRequest_upto r).caught (fun _ => awaitResponse_exchanges hserves hn hlast hping)
    fun e => finish_exchanges_error a r e

/-- Outside of requests nothing that is a response is taken. -/
theorem readAndQueue_quiet (hserves : ch.Serves asked) (hn : asked.length ≤ n) :
    Spec (fun b => b.error = true ∨ b.Upto ch s₀ n x) (readAndQueue a false)
      (fun _ b => b.error = true ∨ b.Upto ch s₀ n x) fun _ b => b.error = true ∨ b.Upto ch s₀ n x := by
  intro b hb
  rcases hb with he | hupto
  · exact (closed_error.queue a false).spec.weaken (fun _ h => h) (fun _ _ h => .inl h)
      (fun _ _ h => .inl h) b he
  · exact (readAndQueue_upto hserves fun _ => hn).weaken (fun _ h => h) (fun _ _ h => .inr h.1)
      (fun _ _ h => .inl h.1) b hupto

/-- What holds when `dispatch` gives up control. -/
def Next.Quiet (ch : Channel) (s₀ : List Segment) (n : Nat) (x : List UInt8) (b : Backend) :
    Next → Prop
  | .waits _ => False
  | .destroys _ => True
  | .returns _ | .executes _ | .aborts => b.error = true ∨ b.Upto ch s₀ n x

theorem dispatch_quiet (hserves : ch.Serves asked) (hn : asked.length ≤ n) (timeout : Int) :
    Yields (fun b => b.error = true ∨ b.Upto ch s₀ n x) (dispatch a timeout)
      fun next b => next.Quiet ch s₀ n x b := by
  intro b hb
  cases he : b.error with
  | true =>
      rw [dispatch_of_error a timeout he]
      exact .inl he
  | false =>
      have hqueue := readAndQueue_quiet (a := a) hserves hn b hb
      rw [dispatch_of_ok a timeout he]
      rcases hout : outcome (readAndQueue a false) b with ⟨e | p, b'⟩ <;> rw [hout] at hqueue <;>
        exact hqueue

theorem postdispatch_quiet (hserves : ch.Serves asked) (hn : asked.length ≤ n) (predispatch : Nat) :
    Yields (fun b => b.error = true ∨ b.Upto ch s₀ n x) (postdispatch a predispatch)
      fun next b => next.Quiet ch s₀ n x b :=
  (readAndQueue_quiet hserves hn).caught (fun _ => yields_pure fun _ h => h)
    fun _ => yields_pure fun _ h => h

/-- The read of `dispatch`, also on a connection that is closed. -/
theorem dispatchRead_quiet (hserves : ch.Serves asked) (hresponds : a.Responds)
    (immediate : Bool) :
    Yields (fun b => (b.error = true ∨ b.Upto ch s₀ n x) ∧ a.Delivers ch b)
      (dispatchRead a immediate) fun _ b => b.error = true ∨ b.Upto ch s₀ n x := by
  intro b hb
  rcases hb with ⟨he | hupto, hdelivers⟩
  · exact .inl (closed_error.dispatchRead (fun _ h => h) immediate b he)
  · exact dispatchRead_upto hserves hresponds immediate b ⟨hupto, hdelivers⟩

/-- The rest of an entry point after `execute_events`. -/
theorem afterEvents_quiet (hserves : ch.Serves asked) (hn : asked.length ≤ n)
    (hresponds : a.Responds) (executed : Nat) (k : Cont) :
    Yields (fun b => (b.error = true ∨ b.Upto ch s₀ n x) ∧ a.Delivers ch b)
      (afterEvents a executed k) fun next b => next.Quiet ch s₀ n x b := by
  cases k with
  | predispatch packets timeout =>
      refine (dispatchRead_quiet hserves hresponds _).bind fun result => ?_
      cases result with
      | ok len | error e =>
          dsimp only
          split_ifs
          · exact yields_pure fun _ h => h
          · exact postdispatch_quiet hserves hn _
  | postdispatch predispatch packets => exact yields_pure fun _ h => h.1
  | openSeat => exact yields_pure fun _ h => h.1
  | closeSeat res => exact yields_pure fun _ _ => trivial

end

end Libseat

end DdeSeatd
