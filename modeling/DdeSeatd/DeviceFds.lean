import DdeSeatd.Outgoing
import DdeSeatd.Libseat.Backend

set_option autoImplicit false

/-! # Every device arrives with its own fd

The daemon and the library's end of one client's connection. The daemon takes any steps; the
library reads when it likes, in whatever pieces the socket delivers, and takes frames off its
in ring, a DEVICE_OPENED as `open_device` does. The socket delivers the fds of a message with
the message's first byte.

`device_fds` says that the `i`-th DEVICE_OPENED taken off the connection yields the fd that was
queued for it. The two facts about the wire that carry the proof are in `Carries`: the fd is
never behind its frame, and never so far ahead that the ring of fds could overflow.
-/

namespace DdeSeatd

open RingBuffer

/-! ## The two ends -/

/-- The daemon and the library. `taken` counts the bytes the library has read, and `opened` is
what `open_device` made of the DEVICE_OPENED frames. -/
structure Handover where
  server : Server
  backend : Libseat.Backend
  taken : Nat
  opened : List (Except Int Libseat.Reply)

inductive HandoverMove where
  | daemon (st : Step)
  | read (choices : List RecvChoice)
  | hangup
  | take
  deriving DecidableEq, Repr

/-- The kernel during one `poll_connection`. -/
def pollAnswers (hangup : Bool) (recv : List RecvResult) : Libseat.Answers where
  sends := fun _ => []
  poll := .ready hangup true
  recv := recv
  calloc := fun _ => true

/-- The number of bytes of an answer. -/
def RecvResult.received : RecvResult → Nat
  | .fail _ => 0
  | .data bytes _ => bytes.length

/-- The library polls the connection and reads. -/
def Handover.read (c : ClientId) (choices : List RecvChoice) (l : Handover) : Handover :=
  let room := CONNECTION_BUFFER_SIZE - connectionPending l.backend.connection
  let wire := (wireOf (l.server.channel (.client c)).sent).drop l.taken
  let results := choices.map (recvAnswer room wire)
  { l with
    backend := ((Libseat.pollConnection (pollAnswers false results)).run.run l.backend).2
    taken := if room = 0 then l.taken else l.taken + (recvmsgLoop results).received }

/-- The library takes the next frame, if all of it has arrived. -/
def Handover.takeFrame (l : Handover) : Handover :=
  match connectionGet l.backend.connection Libseat.HEADER_SIZE with
  | (.error _, _) => l
  | (.ok header, conn) =>
      if connectionPending conn < Libseat.headerSize header then l
      else if Libseat.headerOpcode header = ServerMsg.opcode (.deviceOpened 0) then
        let r := (Libseat.readResponse (.openDevice [])).run.run l.backend
        { l with backend := r.2, opened := l.opened ++ [r.1] }
      else
        { l with backend := { l.backend with
          connection := (connectionGet conn (Libseat.headerSize header)).2 } }

/-- A backend in error has closed the connection. -/
def Handover.step (k : Kernel) (c : ClientId) (l : Handover) : HandoverMove → Handover
  | .daemon st => { l with server := DdeSeatd.step k l.server st }
  | .read choices => if l.backend.error then l else l.read c choices
  | .hangup =>
      { l with backend := ((Libseat.pollConnection (pollAnswers true [])).run.run l.backend).2 }
  | .take => if l.backend.error then l else l.takeFrame

def handoverRun (k : Kernel) (vtBound : Bool) (c : ClientId) (moves : List HandoverMove) :
    Handover :=
  Run.run (Handover.step k c) ⟨serverInit vtBound, Libseat.Backend.zero, 0, []⟩ moves

/-! ## Fds in control messages -/

theorem fdInt_fdInt (fd : Int) : fdInt (fdInt fd) = fdInt fd := by
  unfold fdInt
  rw [bytesInt_intBytes, bytesInt_intBytes, Int.bmod_bmod]

/-- The fds queued are `int`s. -/
theorem fdInt_of_queued {p : Peer} {trace : List Event} {fd : Int}
    (h : fd ∈ past (Event.queuedFor p) trace) : fdInt fd = fd := by
  unfold past at h
  obtain ⟨e, -, hfd⟩ := List.mem_flatMap.mp h
  cases e <;> simp only [Event.queuedFor, List.not_mem_nil] at hfd
  split_ifs at hfd with hp
  · rw [List.mem_singleton.mp hfd]
    exact fdInt_fdInt _
  · cases hfd

theorem bytesFds_flatMap (fds : List Int) : bytesFds (fds.flatMap intBytes) = fds.map fdInt := by
  induction fds with
  | nil => rfl
  | cons fd fds ih =>
      rw [List.flatMap_cons, bytesFds_append _ (by rw [intBytes_length]), bytesFds_intBytes, ih]
      rfl

theorem flatMap_intBytes_length (fds : List Int) :
    (fds.flatMap intBytes).length = 4 * fds.length := by
  induction fds with
  | nil => rfl
  | cons fd fds ih =>
      rw [List.flatMap_cons, List.length_append, intBytes_length, ih, List.length_cons]
      omega

/-- A ring of fds with room for more. -/
theorem FdRing.push {b : ConnectionBuffer} (h : FdRing b) {fds : List Int}
    (hfit : 4 * ((ringFds b).length + fds.length) ≤ CONNECTION_BUFFER_SIZE) :
    FdRing (b.push (fds.flatMap intBytes))
      ∧ ringFds (b.push (fds.flatMap intBytes)) = ringFds b ++ fds.map fdInt := by
  have hlen := h.length
  have hbytes := flatMap_intBytes_length fds
  have hroom : b.size + (fds.flatMap intBytes).length ≤ CONNECTION_BUFFER_SIZE := by omega
  have hsize := size_push size_lt b hroom
  have hwhole := h.whole
  refine ⟨⟨by omega, by omega⟩, ?_⟩
  unfold ringFds
  rw [toList_push size_dvd size_lt b hroom, bytesFds_append _ (by rw [toList_length]; exact hwhole),
    bytesFds_flatMap]

/-- `decode_cmsg` stores the fds of a stretch of the wire, if they fit. -/
theorem decodeCmsg_wire (w : Wire) {b : ConnectionBuffer} (h : FdRing b)
    (hfit : 4 * ((ringFds b).length + (wireFds w).length) ≤ CONNECTION_BUFFER_SIZE) :
    ∃ b', decodeCmsg b (wireCmsgs w) = (.ok (), b', []) ∧ FdRing b'
      ∧ ringFds b' = ringFds b ++ (wireFds w).map fdInt := by
  unfold decodeCmsg
  induction w generalizing b with
  | nil => exact ⟨b, rfl, h, (List.append_nil _).symm⟩
  | cons x w ih =>
      have hfds : wireFds (x :: w) = x.2 ++ wireFds w := rfl
      rw [hfds, List.length_append] at hfit
      by_cases hx : x.2 = []
      · have hcmsgs : wireCmsgs (x :: w) = wireCmsgs w := by simp [wireCmsgs, hx]
        rw [hcmsgs, hfds, hx, List.nil_append]
        exact ih h (by omega)
      · have hcmsgs : wireCmsgs (x :: w) = .rights (x.2.flatMap intBytes) :: wireCmsgs w := by
          simp [wireCmsgs, hx]
        have hlen := h.length
        have hbytes := flatMap_intBytes_length x.2
        obtain ⟨hring, hpush⟩ := h.push (by omega : 4 * ((ringFds b).length + x.2.length) ≤ _)
        have hlen' : (ringFds (b.push (x.2.flatMap intBytes))).length
            = (ringFds b).length + x.2.length := by
          rw [hpush, List.length_append, List.length_map]
        obtain ⟨b', hdecode, hring', hfds'⟩ := ih hring (by omega)
        refine ⟨b', ?_, hring', ?_⟩
        · rw [hcmsgs]
          have hroom : ¬ ((x.2.flatMap intBytes).length > CONNECTION_BUFFER_SIZE
              - connectionBufferSize b || false) = true := by
            rw [Bool.or_false, decide_eq_true_eq]
            show ¬ _ > CONNECTION_BUFFER_SIZE - b.size
            omega
          unfold decodeCmsgLoop
          rw [if_neg hroom, connectionBufferPut_ok _ (by omega)]
          exact hdecode
        · rw [hfds', hpush, hfds, List.map_append, List.append_assoc]

/-- Getting the oldest fd. -/
theorem FdRing.get {conn : Connection} (h : FdRing conn.fdsIn) {fd : Int} {fds : List Int}
    (hfds : ringFds conn.fdsIn = fd :: fds) :
    connectionGetFd conn = (.ok fd, { conn with fdsIn := conn.fdsIn.skip 4 })
      ∧ FdRing (conn.fdsIn.skip 4) ∧ ringFds (conn.fdsIn.skip 4) = fds := by
  have hlen := h.length
  rw [hfds, List.length_cons] at hlen
  have hle : 4 ≤ conn.fdsIn.size := by omega
  have hsize := size_skip conn.fdsIn hle
  have hwhole := h.whole
  have hbound := h.size
  obtain ⟨b₀, b₁, b₂, b₃, bs, hbytes⟩ : ∃ b₀ b₁ b₂ b₃ bs,
      conn.fdsIn.toList = b₀ :: b₁ :: b₂ :: b₃ :: bs := by
    have hlength : 4 ≤ conn.fdsIn.toList.length := by rw [toList_length]; exact hle
    match conn.fdsIn.toList, hlength with
    | b₀ :: b₁ :: b₂ :: b₃ :: bs, _ => exact ⟨b₀, b₁, b₂, b₃, bs, rfl⟩
  have hring : bytesInt [b₀, b₁, b₂, b₃] = fd ∧ bytesFds bs = fds := by
    unfold ringFds at hfds
    rw [hbytes] at hfds
    exact List.cons.inj hfds
  refine ⟨?_, ⟨by omega, by omega⟩, ?_⟩
  · unfold connectionGetFd
    rw [if_neg (by show ¬ 4 > conn.fdsIn.size; omega), connectionBufferCopy_eq _ hle, hbytes]
    show (Except.ok (bytesInt [b₀, b₁, b₂, b₃]), _) = _
    rw [hring.1]
    rfl
  · unfold ringFds
    rw [toList_skip size_dvd _ hle, hbytes]
    exact hring.2

/-! ## The library on its own -/

theorem poll_backend (b : Libseat.Backend) (recv : List RecvResult) :
    ((Libseat.pollConnection (pollAnswers false recv)).run.run b).2
      = match (connectionRead b.connection recv).1 with
        | .ok len => if len = 0 then (b.read recv).failed else b.read recv
        | .error e => if e ≠ EAGAIN then (b.read recv).failed else b.read recv := by
  have hread : (Libseat.connRead (pollAnswers false recv)).run.run b
      = (.ok (connectionRead b.connection recv).1, b.read recv) := rfl
  have hpoll : (Libseat.pollConnection (pollAnswers false recv))
      = Libseat.connRead (pollAnswers false recv) >>= _ := rfl
  rw [hpoll, Libseat.run_bind, hread]
  dsimp only
  cases (connectionRead b.connection recv).1 with
  | ok len =>
      dsimp only
      split_ifs <;> rfl
  | error e =>
      dsimp only
      split_ifs <;> rfl

/-- `open_device` takes a DEVICE_OPENED and the oldest fd. -/
theorem readResponse_openDevice {b : Libseat.Backend} {id fd : Int} {path : CString}
    {rest : List UInt8} {fds : List Int}
    (hbytes : b.connection.inp.toList = (ServerMsg.deviceOpened id).bytes ++ rest)
    (hring : FdRing b.connection.fdsIn) (hfds : ringFds b.connection.fdsIn = fd :: fds) :
    (Libseat.readResponse (.openDevice path)).run.run b
      = (.ok ⟨bytesInt (intBytes id), some fd⟩,
          { b with connection := { b.connection with
            inp := b.connection.inp.skip 8, fdsIn := b.connection.fdsIn.skip 4 } }) := by
  have hsize : 8 ≤ b.connection.inp.size := by
    rw [← toList_length, hbytes, List.length_append, ServerMsg.bytes_length]
    show 8 ≤ 4 + 4 + rest.length
    omega
  have hskip : (b.connection.inp.skip 4).size = b.connection.inp.size - 4 :=
    size_skip _ (by omega)
  have hheader : b.connection.inp.toList.take 4 = headerBytes (ServerMsg.opcode (.deviceOpened 0)) 4 := by
    rw [hbytes]
    rfl
  have hpayload : (b.connection.inp.skip 4).toList.take 4 = intBytes id := by
    rw [toList_skip size_dvd _ (by omega), hbytes]
    rfl
  have hread : (Libseat.readHeader (ServerMsg.opcode (.deviceOpened 0)) 4 false).run.run b
      = (.ok 4, { b with connection := { b.connection with inp := b.connection.inp.skip 4 } }) := by
    unfold Libseat.readHeader
    rw [Libseat.run_bind, Libseat.run_connGet (show Libseat.HEADER_SIZE ≤ _ from by
      show 4 ≤ _; omega)]
    rw [show b.connection.inp.toList.take Libseat.HEADER_SIZE = _ from hheader]
    rfl
  unfold Libseat.readResponse
  dsimp only
  rw [Libseat.run_bind, hread]
  dsimp only
  rw [Libseat.run_bind, Libseat.run_connGet (by show 4 ≤ (b.connection.inp.skip 4).size; omega)]
  dsimp only
  rw [hpayload, skip_skip, Libseat.run_bind]
  have hring' : FdRing ({ b.connection with inp := b.connection.inp.skip 8 } : Connection).fdsIn :=
    hring
  rw [Libseat.run_connGetFd (hring'.get hfds).1]
  rfl

/-! ## What the library has received -/

/-- The library has taken whole frames, with `count` devices among them, and the fds of these
devices. -/
structure Receives (sent : List Segment) (frames : List ServerMsg) (queued : List Int)
    (conn : Connection) (taken count : Nat) : Prop where
  room : conn.inp.size ≤ CONNECTION_BUFFER_SIZE
  ring : FdRing conn.fdsIn
  arrived : taken ≤ (sentBytes sent).length
  opened : count ≤ queued.length
  read : ∃ ms, ms <+: frames ∧ (deviceIds ms).length = count
    ∧ (sentBytes sent).take taken = messageBytes ms ++ conn.inp.toList
    ∧ wireFds ((wireOf sent).take taken) = queued.take count ++ ringFds conn.fdsIn

/-- Nothing has been read. -/
theorem Receives.zero (sent : List Segment) (frames : List ServerMsg) (queued : List Int) :
    Receives sent frames queued Connection.zero 0 0 := by
  have hinp : Connection.zero.inp.toList = [] := toList_of_size zero_size
  have hfdsIn : ringFds Connection.zero.fdsIn = [] := ringFds_of_size zero_size
  refine ⟨zero_size.le.trans (Nat.zero_le _), FdRing.zero, Nat.zero_le _, Nat.zero_le _, [],
    List.nil_prefix, rfl, ?_, ?_⟩
  · rw [hinp, List.take_zero]
    rfl
  · rw [hfdsIn, List.take_zero, List.take_zero]
    rfl

section

variable {sent sent' : List Segment} {frames frames' : List ServerMsg} {queued queued' : List Int}
  {conn : Connection} {taken count : Nat}

/-- The daemon goes on. -/
theorem Receives.grow (h : Receives sent frames queued conn taken count) (hsent : sent <+: sent')
    (hframes : frames <+: frames') (hqueued : queued <+: queued') :
    Receives sent' frames' queued' conn taken count := by
  obtain ⟨ms, hms, hdevices, hbytes, hfds⟩ := h.read
  obtain ⟨more, rfl⟩ := hsent
  obtain ⟨moreFds, rfl⟩ := hqueued
  have htaken := h.arrived
  have hcount := h.opened
  refine ⟨h.room, h.ring, ?_, ?_, ms, hms.trans hframes, hdevices, ?_, ?_⟩
  · rw [sentBytes_append, List.length_append]
    omega
  · rw [List.length_append]
    omega
  · rw [sentBytes_append, List.take_append_of_le_length htaken]
    exact hbytes
  · rw [wireOf_append, List.take_append_of_le_length (by rw [wireOf_length]; exact htaken),
      List.take_append_of_le_length hcount]
    exact hfds

theorem deviceIds_length_mul_le (ms : List ServerMsg) :
    8 * (deviceIds ms).length ≤ (messageBytes ms).length := by
  induction ms with
  | nil => exact Nat.zero_le _
  | cons m ms ih =>
      have hone : 8 * m.opens.toList.length ≤ m.bytes.length := by
        cases m with
        | deviceOpened id =>
            rw [ServerMsg.bytes_length]
            exact le_rfl
        | seatOpened | seatClosed | deviceClosed | disableSeat | enableSeat | pong
        | sessionSwitched | seatDisabled | error => exact Nat.zero_le _
      have hdevices : deviceIds (m :: ms) = m.opens.toList ++ deviceIds ms := by
        rw [← deviceIds_single, ← deviceIds_append]
        rfl
      have hbytes : messageBytes (m :: ms) = m.bytes ++ messageBytes ms := rfl
      rw [hdevices, hbytes, List.length_append, List.length_append]
      omega

/-- **The ring of fds does not overflow.** Of the fds on the part of the wire that the library has
room for, those it has not taken yet are at most 64: two rings of bytes hold at most 63 frames with
a device, and one fd may be there without its frame. -/
theorem Carries.fits (h : Carries sent frames queued) {ms : List ServerMsg} (hms : ms <+: frames)
    {p : Nat} (hp : p ≤ (sentBytes sent).length)
    (hring : p ≤ (messageBytes ms).length + CONNECTION_BUFFER_SIZE) :
    (wireFds ((wireOf sent).take p)).length ≤ (deviceIds ms).length + 64 := by
  have hcap : CONNECTION_BUFFER_SIZE = 256 := rfl
  by_cases hpos : p = 0
  · subst hpos
    exact Nat.zero_le _
  obtain ⟨ahead, hahead, hcount, hnear⟩ := h.ahead p (Nat.pos_of_ne_zero hpos) hp
  rcases List.prefix_or_prefix_of_prefix hahead hms with hle | ⟨more, rfl⟩
  · have hdevices := deviceIds_length_le hle
    omega
  · have hmore := deviceIds_length_mul_le more
    rw [deviceIds_append, List.length_append] at hcount
    rw [messageBytes_append, List.length_append] at hnear
    omega

/-- The library reads. -/
theorem Receives.push (h : Receives sent frames queued conn taken count)
    (hcarries : Carries sent frames queued) (hints : ∀ fd ∈ queued, fdInt fd = fd) {len : Nat}
    (hlen : taken + len ≤ (sentBytes sent).length)
    (hroom : conn.inp.size + len ≤ CONNECTION_BUFFER_SIZE) :
    ∃ fdsIn, decodeCmsg conn.fdsIn (wireCmsgs (((wireOf sent).drop taken).take len)) = (.ok (), fdsIn, [])
      ∧ Receives sent frames queued
        { conn with inp := conn.inp.push (((sentBytes sent).drop taken).take len), fdsIn := fdsIn }
        (taken + len) count := by
  obtain ⟨ms, hms, hdevices, hbytes, hfds⟩ := h.read
  set got := ((wireOf sent).drop taken).take len with hgot
  have htake : (wireOf sent).take (taken + len) = (wireOf sent).take taken ++ got := by
    rw [hgot, List.take_add]
  have htakeBytes : (sentBytes sent).take (taken + len)
      = (sentBytes sent).take taken ++ ((sentBytes sent).drop taken).take len := List.take_add
  have hgotBytes : (((sentBytes sent).drop taken).take len).length = len := by
    rw [List.length_take, List.length_drop]
    omega
  -- the fds fit
  have hcount : (queued.take count).length = count := List.length_take_of_le h.opened
  have htaken : taken = (messageBytes ms).length + conn.inp.size := by
    have hlength := congrArg List.length hbytes
    rwa [List.length_take_of_le h.arrived, List.length_append, toList_length] at hlength
  have hfits := hcarries.fits hms hlen (by omega)
  rw [htake, wireFds_append, hfds, List.length_append, List.length_append, hcount, hdevices] at hfits
  have hcap : CONNECTION_BUFFER_SIZE = 256 := rfl
  obtain ⟨fdsIn, hdecode, hring, hringFds⟩ := decodeCmsg_wire got h.ring (by omega)
  -- and they are those that were queued
  have hsame : (wireFds got).map fdInt = wireFds got := by
    have hpre : wireFds ((wireOf sent).take (taken + len)) <+: queued := by
      refine List.IsPrefix.trans ?_ hcarries.fds
      rw [← wireFds_wireOf hcarries.full]
      refine ⟨wireFds ((wireOf sent).drop (taken + len)), ?_⟩
      rw [← wireFds_append, List.take_append_drop]
    refine (List.map_congr_left fun fd hfd => ?_).trans (List.map_id _)
    refine hints fd (hpre.subset ?_)
    rw [htake, wireFds_append]
    exact List.mem_append_right _ hfd
  rw [hsame] at hringFds
  refine ⟨fdsIn, hdecode, ?_, hring, hlen, h.opened, ms, hms, hdevices, ?_, ?_⟩
  · show (conn.inp.push _).size ≤ _
    rw [size_push size_lt _ (by rw [hgotBytes]; exact hroom), hgotBytes]
    exact hroom
  · show _ = messageBytes ms ++ (conn.inp.push _).toList
    rw [toList_push size_dvd size_lt _ (by rw [hgotBytes]; exact hroom), htakeBytes, hbytes,
      List.append_assoc]
  · show _ = queued.take count ++ ringFds fdsIn
    rw [htake, wireFds_append, hfds, hringFds, List.append_assoc]

/-- What has arrived is part of the frames that were put. -/
theorem Receives.next (h : Receives sent frames queued conn taken count)
    (hcarries : Carries sent frames queued)
    (hlen : 4 + bytesUint16 (conn.inp.toList.drop 2) ≤ conn.inp.size) :
    ∃ ms m rest bytes, frames = ms ++ m :: rest ∧ conn.inp.toList = m.bytes ++ bytes ∧ m.Short
      ∧ (deviceIds ms).length = count
      ∧ (sentBytes sent).take taken = messageBytes (ms ++ [m]) ++ bytes
      ∧ wireFds ((wireOf sent).take taken) = queued.take count ++ ringFds conn.fdsIn := by
  obtain ⟨ms, ⟨rest, rfl⟩, hdevices, hbytes, hfds⟩ := h.read
  obtain ⟨part, hstream, hpart⟩ := hcarries.stream
  have hpre : conn.inp.toList <+: messageBytes rest ++ part := by
    have hall := (List.take_prefix taken (sentBytes sent)).trans hstream
    rw [hbytes, messageBytes_append, List.append_assoc] at hall
    exact (List.prefix_append_right_inj _).mp hall
  obtain ⟨m, rest, bytes, rfl, hnext⟩ := next_frame
    (fun m hm => hcarries.short m (List.mem_append_right ms hm)) hpart hpre
    (by rw [toList_length]; exact hlen)
  refine ⟨ms, m, rest, bytes, rfl, hnext, ?_, hdevices, ?_, hfds⟩
  · exact hcarries.short m (List.mem_append_right ms List.mem_cons_self)
  · rw [hbytes, hnext, messageBytes_append, messageBytes_single, List.append_assoc]

/-- The library takes a frame, with a fd if it announces a device. -/
theorem Receives.skip (h : Receives sent frames queued conn taken count)
    {ms rest : List ServerMsg} {m : ServerMsg} {bytes : List UInt8} {fdsIn : ConnectionBuffer}
    (hframes : frames = ms ++ m :: rest) (hinp : conn.inp.toList = m.bytes ++ bytes)
    (hdevices : (deviceIds ms).length = count)
    (hbytes : (sentBytes sent).take taken = messageBytes (ms ++ [m]) ++ bytes)
    (hring : FdRing fdsIn) (hcount : count + m.opens.toList.length ≤ queued.length)
    (hfds : wireFds ((wireOf sent).take taken)
      = queued.take (count + m.opens.toList.length) ++ ringFds fdsIn) :
    Receives sent frames queued
      { conn with inp := conn.inp.skip m.bytes.length, fdsIn := fdsIn } taken
      (count + m.opens.toList.length) := by
  have hle : m.bytes.length ≤ conn.inp.size := by
    rw [← toList_length, hinp, List.length_append]
    exact Nat.le_add_right _ _
  have hsize := size_skip conn.inp hle
  have hroom := h.room
  refine ⟨?_, hring, h.arrived, hcount, ms ++ [m], ?_, ?_, ?_, hfds⟩
  · show (conn.inp.skip m.bytes.length).size ≤ _
    omega
  · rw [hframes]
    exact ⟨rest, by simp⟩
  · rw [deviceIds_append, deviceIds_single, List.length_append, hdevices]
  · show _ = messageBytes (ms ++ [m]) ++ (conn.inp.skip m.bytes.length).toList
    rw [toList_skip size_dvd _ hle, hinp, List.drop_left]
    exact hbytes

/-- **The fd is there.** The oldest fd the library holds when it takes a DEVICE_OPENED is the one
that was queued for it. -/
theorem Receives.device (h : Receives sent frames queued conn taken count)
    (hcarries : Carries sent frames queued) {ms rest : List ServerMsg} {m : ServerMsg}
    {bytes : List UInt8} (hframes : frames = ms ++ m :: rest)
    (hopens : m.opens.toList.length = 1) (hdevices : (deviceIds ms).length = count)
    (hbytes : (sentBytes sent).take taken = messageBytes (ms ++ [m]) ++ bytes)
    (hfds : wireFds ((wireOf sent).take taken) = queued.take count ++ ringFds conn.fdsIn) :
    ∃ fd fds, ringFds conn.fdsIn = fd :: fds ∧ queued[count]? = some fd
      ∧ wireFds ((wireOf sent).take taken) = queued.take (count + 1) ++ fds := by
  have hpre : ms ++ [m] <+: frames := by
    rw [hframes]
    exact ⟨rest, by simp⟩
  have hle : (messageBytes (ms ++ [m])).length ≤ taken := by
    have hlength := congrArg List.length hbytes
    rw [List.length_take_of_le h.arrived, List.length_append] at hlength
    omega
  -- the wire up to the end of the frame has one fd more than the library has taken
  have hbehind := hcarries.behind (ms ++ [m]) hpre (hle.trans h.arrived)
  have hmono : (wireFds ((wireOf sent).take (messageBytes (ms ++ [m])).length)).length
      ≤ (wireFds ((wireOf sent).take taken)).length := by
    obtain ⟨more, hmore⟩ := List.take_prefix_take_left hle (l := wireOf sent)
    rw [← hmore, wireFds_append, List.length_append]
    exact Nat.le_add_right _ _
  rw [deviceIds_append, deviceIds_single, List.length_append, hopens, hdevices] at hbehind
  rw [hfds, List.length_append, List.length_take_of_le h.opened] at hmono
  obtain ⟨fd, fds, hring⟩ : ∃ fd fds, ringFds conn.fdsIn = fd :: fds := by
    refine List.exists_cons_of_length_pos ?_
    omega
  have hqueued : queued.take count ++ fd :: fds <+: queued := by
    rw [← hring, ← hfds]
    refine List.IsPrefix.trans ?_ hcarries.fds
    rw [← wireFds_wireOf hcarries.full]
    refine ⟨wireFds ((wireOf sent).drop taken), ?_⟩
    rw [← wireFds_append, List.take_append_drop]
  obtain ⟨more, hmore⟩ := hqueued
  have hget : queued[count]? = some fd := by
    rw [← hmore, List.append_assoc,
      List.getElem?_append_right (List.length_take_of_le h.opened).le,
      List.length_take_of_le h.opened, Nat.sub_self]
    rfl
  refine ⟨fd, fds, hring, hget, ?_⟩
  rw [hfds, hring, List.take_add_one, hget, List.append_assoc]
  rfl

end

/-! ## Moves -/

/-- What `open_device` makes of a device and its fd. -/
def deviceReply (d : Int × Option Int) : Except Int Libseat.Reply :=
  .ok ⟨bytesInt (intBytes d.1), d.2⟩

/-- What holds between the moves. -/
structure Handover.Inv (c : ClientId) (l : Handover) : Prop where
  kept : l.server.Kept
  outgoing : l.server.Outgoing c
  opened : l.opened
    = ((l.server.channel (.client c)).devices.take l.opened.length).map deviceReply
  receives : l.backend.error = false →
    Receives (l.server.channel (.client c)).sent (l.server.channel (.client c)).frames
      (l.server.channel (.client c)).queued l.backend.connection l.taken l.opened.length

theorem Server.Outgoing.facts {s : Server} {c : ClientId} (h : s.Outgoing c) :
    Carries (s.channel (.client c)).sent (s.channel (.client c)).frames
        (s.channel (.client c)).queued
      ∧ (s.channel (.client c)).devices = (deviceIds (s.channel (.client c)).frames).zip
        ((s.channel (.client c)).queued.map some) := by
  rcases h with ⟨-, h⟩ | ⟨-, h⟩ <;> exact ⟨h.carries, h.devices⟩

theorem recvmsgLoop_wire (room : Nat) (w : Wire) (choices : List RecvChoice) :
    (∃ e, recvmsgLoop (choices.map (recvAnswer room w)) = .fail e)
    ∨ ∃ n, w ≠ [] ∧ recvmsgLoop (choices.map (recvAnswer room w))
        = .data ((w.take (takenLen n (min room w.length))).map Prod.fst)
            (wireCmsgs (w.take (takenLen n (min room w.length)))) := by
  induction choices with
  | nil => exact .inl ⟨EAGAIN, rfl⟩
  | cons o choices ih =>
      cases o with
      | fail e =>
          by_cases he : e = EINTR
          · rw [List.map_cons, show recvAnswer room w (.fail e) = .fail e from rfl, recvmsgLoop,
              if_pos he]
            exact ih
          · rw [List.map_cons, show recvAnswer room w (.fail e) = .fail e from rfl, recvmsgLoop,
              if_neg he]
            exact .inl ⟨e, rfl⟩
      | take n =>
          by_cases hw : w = []
          · rw [List.map_cons, show recvAnswer room w (.take n) = .fail EAGAIN from if_pos hw]
            exact .inl ⟨EAGAIN, rfl⟩
          · rw [List.map_cons, show recvAnswer room w (.take n) = .data _ _ from if_neg hw]
            exact .inr ⟨n, hw, rfl⟩

section

variable {k : Kernel} {c : ClientId} {l : Handover}

theorem Handover.Inv.daemon (h : l.Inv c) (st : Step) :
    ({ l with server := DdeSeatd.step k l.server st } : Handover).Inv c := by
  have hgrows := grows_step (k := k) h.kept (.client c) st
  refine ⟨kept_step h.kept st, outgoing_step h.kept h.outgoing st, ?_, fun hok => ?_⟩
  · obtain ⟨more, hmore⟩ := hgrows.devices
    have hlen := congrArg List.length h.opened
    rw [List.length_map, List.length_take] at hlen
    have hle : l.opened.length ≤ (l.server.channel (.client c)).devices.length := by omega
    show l.opened = (((DdeSeatd.step k l.server st).channel (.client c)).devices.take
      l.opened.length).map _
    rw [← hmore, List.take_append_of_le_length hle]
    exact h.opened
  · exact (h.receives hok).grow hgrows.sent hgrows.frames hgrows.queued

/-- A backend whose connection was closed has nothing to account for. -/
theorem Handover.Inv.failed (h : l.Inv c) (b : Libseat.Backend) (taken : Nat) :
    ({ l with backend := b.failed, taken := taken } : Handover).Inv c := by
  refine ⟨h.kept, h.outgoing, h.opened, fun hok => ?_⟩
  rw [show b.failed.error = true from Libseat.failed_error b] at hok
  cases hok

theorem Handover.Inv.read (h : l.Inv c) (hok : l.backend.error = false)
    (choices : List RecvChoice) : (l.read c choices).Inv c := by
  have hrec := h.receives hok
  obtain ⟨hcarries, -⟩ := h.outgoing.facts
  unfold Handover.read
  dsimp only
  set room := CONNECTION_BUFFER_SIZE - connectionPending l.backend.connection with hroom
  set ch := l.server.channel (.client c) with hch
  set wire := (wireOf ch.sent).drop l.taken with hwire
  set results := choices.map (recvAnswer room wire) with hresults
  have hroom' : room = CONNECTION_BUFFER_SIZE - l.backend.connection.inp.size := rfl
  rw [poll_backend]
  by_cases hfull : CONNECTION_BUFFER_SIZE ≤ l.backend.connection.inp.size
  · rw [connectionRead_full _ _ hfull]
    exact h.failed _ _
  rw [if_neg (by omega)]
  rcases recvmsgLoop_wire room wire choices with ⟨e, hrecv⟩ | ⟨n, hne, hrecv⟩
  · have hread := connectionRead_fail l.backend.connection (by omega) hrecv
    rw [hread, hrecv]
    dsimp only
    split_ifs
    · exact h.failed _ _
    · -- nothing to read: only the record of the input is rewritten
      refine ⟨h.kept, h.outgoing, h.opened, fun _ => ?_⟩
      show Receives _ _ _ (l.backend.read results).connection (l.taken + 0) _
      unfold Libseat.Backend.read
      dsimp only
      rw [hread]
      exact hrec
  · set len := takenLen n (min room wire.length) with hlen
    have hpos : 0 < len := by
      have hwpos := List.length_pos_iff.mpr hne
      exact takenLen_pos (by omega)
    have hle : len ≤ min room wire.length := takenLen_le _ _
    have hwlen : wire.length = (sentBytes ch.sent).length - l.taken := by
      rw [hwire, List.length_drop, wireOf_length]
    have harrived := hrec.arrived
    have hbytes : (wire.take len).map Prod.fst = ((sentBytes ch.sent).drop l.taken).take len := by
      rw [hwire, List.map_take, List.map_drop, wireOf_bytes]
    have hbl : ((wire.take len).map Prod.fst).length = len := by
      rw [List.length_map, List.length_take]
      omega
    have hstays : l.taken + len ≤ (sentBytes ch.sent).length := by omega
    obtain ⟨fdsIn, hdecode, hrec'⟩ :=
      hrec.push hcarries (fun fd => fdInt_of_queued) hstays (by omega)
    have hread := connectionRead_rights l.backend.connection (by omega) hrecv
      (by rw [hbl]; omega) hdecode
    rw [hread, hrecv]
    dsimp only
    rw [if_neg (by rw [hbl]; omega)]
    refine ⟨h.kept, h.outgoing, h.opened, fun _ => ?_⟩
    show Receives _ _ _ (l.backend.read results).connection
      (l.taken + ((wire.take len).map Prod.fst).length) _
    unfold Libseat.Backend.read
    dsimp only
    rw [hread, hbl, hbytes]
    exact hrec'

theorem Handover.Inv.takeFrame (h : l.Inv c) (hok : l.backend.error = false) :
    l.takeFrame.Inv c := by
  have hrec := h.receives hok
  obtain ⟨hcarries, hdevices⟩ := h.outgoing.facts
  set conn := l.backend.connection with hconn
  unfold Handover.takeFrame
  rw [← hconn]
  by_cases hshort : conn.inp.size < Libseat.HEADER_SIZE
  · rw [connectionGet_short conn hshort]
    exact h
  have hhdr : Libseat.HEADER_SIZE = 4 := rfl
  rw [connectionGet_ok conn (by omega)]
  dsimp only
  set header := conn.inp.toList.take Libseat.HEADER_SIZE with hheader
  have hlength : 4 ≤ conn.inp.toList.length := by rw [toList_length]; omega
  have hfields : Libseat.headerOpcode header = bytesUint16 conn.inp.toList
      ∧ Libseat.headerSize header = bytesUint16 (conn.inp.toList.drop 2) := by
    rw [hheader, hhdr]
    match conn.inp.toList, hlength with
    | _ :: _ :: _ :: _ :: _, _ => exact ⟨rfl, rfl⟩
  have hskip : (conn.inp.skip Libseat.HEADER_SIZE).size = conn.inp.size - 4 :=
    size_skip _ (by omega)
  by_cases hpart : connectionPending { conn with inp := conn.inp.skip Libseat.HEADER_SIZE }
      < Libseat.headerSize header
  · rw [if_pos hpart]
    exact h
  rw [if_neg hpart]
  have hcomplete : 4 + bytesUint16 (conn.inp.toList.drop 2) ≤ conn.inp.size := by
    have hpart' : ¬ (conn.inp.skip Libseat.HEADER_SIZE).size < Libseat.headerSize header := hpart
    rw [← hfields.2]
    omega
  obtain ⟨ms, m, rest, bytes, hframes, hinp, hm, hcount, hread, hfds⟩ :=
    hrec.next hcarries hcomplete
  have hmheader := m.header hm bytes
  rw [← hinp] at hmheader
  rw [hfields.1, hmheader.1]
  have hmlen : m.bytes.length = 4 + Libseat.headerSize header := by
    rw [hfields.2, hmheader.2, m.bytes_length]
  by_cases hop : m.opcode = ServerMsg.opcode (.deviceOpened 0)
  · -- DEVICE_OPENED, with its fd
    rw [if_pos hop]
    obtain ⟨id, rfl⟩ : ∃ id, m = .deviceOpened id := by
      cases m with
      | deviceOpened id => exact ⟨id, rfl⟩
      | seatOpened | seatClosed | deviceClosed | disableSeat | enableSeat | pong
      | sessionSwitched | seatDisabled | error => exact absurd hop (by simp [ServerMsg.opcode, serverEvent])
    obtain ⟨fd, fds, hring, hget, hfds'⟩ := hrec.device hcarries hframes rfl hcount hread hfds
    obtain ⟨-, hring', hfdsIn⟩ := hrec.ring.get hring
    rw [readResponse_openDevice hinp hrec.ring hring]
    have hqueued : l.opened.length < (l.server.channel (.client c)).queued.length :=
      (List.getElem?_eq_some_iff.mp hget).1
    refine ⟨h.kept, h.outgoing, ?_, fun _ => ?_⟩
    · -- it is the next device that was announced
      have hid : (deviceIds (l.server.channel (.client c)).frames)[l.opened.length]? = some id := by
        rw [hframes, deviceIds_append, List.getElem?_append_right (by omega), hcount, Nat.sub_self]
        rfl
      have hnext : (l.server.channel (.client c)).devices[l.opened.length]? = some (id, some fd) := by
        rw [hdevices, List.getElem?_zip_eq_some, List.getElem?_map, hget]
        exact ⟨hid, rfl⟩
      show l.opened ++ [_] = _
      rw [List.length_append, List.length_singleton, List.take_add_one, hnext, List.map_append,
        ← h.opened]
      rfl
    · show Receives _ _ _ _ _ (l.opened ++ [_]).length
      rw [List.length_append, List.length_singleton]
      exact hrec.skip hframes hinp hcount hread hring' hqueued (by rw [hfdsIn]; exact hfds')
  · -- any other frame
    rw [if_neg hop]
    have hnone : m.opens.toList.length = 0 := by
      cases m with
      | deviceOpened id => exact absurd rfl hop
      | seatOpened | seatClosed | deviceClosed | disableSeat | enableSeat | pong
      | sessionSwitched | seatDisabled | error => rfl
    have hget := connectionGet_ok { conn with inp := conn.inp.skip Libseat.HEADER_SIZE }
      (Nat.not_lt.mp hpart : Libseat.headerSize header ≤ _)
    rw [hget, skip_skip, hhdr, ← hmlen]
    refine ⟨h.kept, h.outgoing, h.opened, fun _ => ?_⟩
    have hskipped := hrec.skip hframes hinp hcount hread hrec.ring
      (by rw [hnone]; exact hrec.opened) (by rw [hnone]; exact hfds)
    rw [hnone] at hskipped
    exact hskipped

theorem Handover.Inv.step (h : l.Inv c) (m : HandoverMove) : (l.step k c m).Inv c := by
  unfold Handover.step
  cases m with
  | daemon st => exact h.daemon st
  | read choices =>
      dsimp only
      split_ifs with herror
      · exact h
      · exact h.read (Bool.eq_false_iff.mpr herror) choices
  | hangup => exact h.failed l.backend l.taken
  | take =>
      dsimp only
      split_ifs with herror
      · exact h
      · exact h.takeFrame (Bool.eq_false_iff.mpr herror)

end

theorem handover_inv (k : Kernel) (vtBound : Bool) (c : ClientId) (moves : List HandoverMove) :
    (handoverRun k vtBound c moves).Inv c := by
  refine Run.run_invariant (P := Handover.Inv c) (fun _ m h => h.step m) ?_ moves
  exact ⟨kept_init vtBound, outgoing_run k vtBound [] c, rfl, fun _ => .zero _ _ _⟩

/-- **Each opened device arrives with its own fd.** Whatever the daemon does, however its sends are
cut and however the library's reads are: the `i`-th DEVICE_OPENED the library takes off the
connection gives `open_device` the device and the fd that was queued for it. Every fd queued is
handed to the kernel at most once, in order; it is closed when it was handed over, and all others
are closed with the connection. -/
theorem device_fds (k : Kernel) (vtBound : Bool) (c : ClientId) (moves : List HandoverMove) :
    let l := handoverRun k vtBound c moves
    let ch := l.server.channel (.client c)
    l.opened = (ch.devices.take l.opened.length).map deviceReply
      ∧ segmentFds ch.sent <+: ch.queued
      ∧ ch.closed = if c ∈ l.server.live then segmentFds ch.sent else ch.queued := by
  intro l ch
  have h : l.Inv c := handover_inv k vtBound c moves
  refine ⟨h.opened, h.outgoing.facts.1.fds, ?_⟩
  rcases h.outgoing with ⟨hlive, hch⟩ | ⟨hdead, hch⟩
  · rw [if_pos hlive]
    exact hch.closed
  · rw [if_neg hdead]
    exact hch.closed

/-- Two devices, read in pieces that end inside the first DEVICE_OPENED. -/
example :
    let path := ascii ['/', 'd', 'e', 'v', '/', 'd', 'r', 'i', '/', 'c', 'a', 'r', 'd', '0']
    let open0 := Step.request 0 (.openDevice path)
    let l := handoverRun (.obliging 1) true 0 ([.connect 100, .request 0 .openSeat, open0, open0].map
      HandoverMove.daemon ++ [.read [.take 20], .take, .take, .read [.take 100], .take, .take])
    l.opened.length = 2 ∧ l.opened = (l.server.channel (.client 0)).devices.map deviceReply := by
  decide +kernel

end DdeSeatd
