import DdeSeatd.StepDialogue
import DdeSeatd.Stream

set_option autoImplicit false

/-! # What a client has been sent

The bytes and the fds for a client leave the daemon through two rings, and whichever `sendmsg`
comes next takes all the fds with it. This file says where the fds end up in the byte stream:
the fd of a device is on the wire no later than the end of its DEVICE_OPENED (`Carries.behind`),
and it is not far ahead of it, because the ring in front of which it goes out holds at most 256
bytes (`Carries.ahead`).

`Channel.Owes n part` describes the channel of a live client: everything that was put is on the
wire or in the ring, `n` fds are queued for a frame that is still to be put, and `part` is the
beginning of a frame whose rest could not be put. `Channel.Gone` is what is left of it when the
client was destroyed. Every step of the daemon keeps the two (`outgoing_step`).
-/

namespace DdeSeatd

open RingBuffer

/-! ## Messages and the wire -/

def messageBytes (ms : List ServerMsg) : List UInt8 := ms.flatMap ServerMsg.bytes

/-- The devices announced. -/
def deviceIds (ms : List ServerMsg) : List Int := ms.filterMap ServerMsg.opens

/-- The fds on a stretch of the wire. -/
def wireFds (w : Wire) : List Int := w.flatMap Prod.snd

@[simp] theorem messageBytes_nil : messageBytes [] = [] := rfl

@[simp] theorem messageBytes_append (ms ms' : List ServerMsg) :
    messageBytes (ms ++ ms') = messageBytes ms ++ messageBytes ms' := List.flatMap_append

@[simp] theorem messageBytes_single (m : ServerMsg) : messageBytes [m] = m.bytes :=
  List.flatMap_singleton _ m

@[simp] theorem deviceIds_append (ms ms' : List ServerMsg) :
    deviceIds (ms ++ ms') = deviceIds ms ++ deviceIds ms' := List.filterMap_append

@[simp] theorem deviceIds_single (m : ServerMsg) : deviceIds [m] = m.opens.toList := by
  unfold deviceIds
  cases h : m.opens <;> simp [h]

@[simp] theorem wireFds_append (w w' : Wire) : wireFds (w ++ w') = wireFds w ++ wireFds w' :=
  List.flatMap_append

theorem deviceIds_length_le {ms ms' : List ServerMsg} (h : ms <+: ms') :
    (deviceIds ms).length ≤ (deviceIds ms').length := (h.filterMap ServerMsg.opens).length_le

theorem ServerMsg.bytes_pos (m : ServerMsg) : 0 < m.bytes.length := by
  cases m <;>
    simp [ServerMsg.bytes, ServerMsg.parts, frameParts, ServerMsg.payload, headerBytes]

theorem wireOf_append (sent more : List Segment) :
    wireOf (sent ++ more) = wireOf sent ++ wireOf more := List.flatMap_append

theorem wireOf_length (sent : List Segment) : (wireOf sent).length = (sentBytes sent).length := by
  rw [← wireOf_bytes, List.length_map]

theorem wireFds_segmentWire {seg : Segment} (h : seg.bytes ≠ []) :
    wireFds (segmentWire seg) = seg.fds := by
  unfold segmentWire
  cases hb : seg.bytes with
  | nil => exact absurd hb h
  | cons b bs => simp [wireFds]

/-- Every fd that was sent is on the wire. -/
theorem wireFds_wireOf {sent : List Segment} (h : ∀ seg ∈ sent, seg.bytes ≠ []) :
    wireFds (wireOf sent) = segmentFds sent := by
  induction sent with
  | nil => rfl
  | cons seg sent ih =>
      have hseg := wireFds_segmentWire (h seg List.mem_cons_self)
      have hsent := ih fun x hx => h x (List.mem_cons_of_mem seg hx)
      show wireFds (segmentWire seg ++ wireOf sent) = seg.fds ++ segmentFds sent
      rw [wireFds_append, hseg, hsent]

/-- If all the fds went with the first message, they are on the wire with its first byte. -/
theorem wireFds_first {more : List Segment} (hfull : ∀ seg ∈ more, seg.bytes ≠ [])
    (htail : segmentFds more.tail = []) {n : Nat} (hn : 0 < n) :
    wireFds ((wireOf more).take n) = segmentFds more := by
  have hall := wireFds_wireOf hfull
  cases more with
  | nil => simp [wireOf, wireFds]
  | cons seg more =>
      obtain ⟨b, bs, hb⟩ := List.exists_cons_of_ne_nil (hfull seg List.mem_cons_self)
      obtain ⟨n, rfl⟩ : ∃ n', n = n' + 1 := ⟨n - 1, by omega⟩
      have hwire : wireOf (seg :: more) = (b, seg.fds) :: (bs.map (fun x => (x, [])) ++ wireOf more) := by
        simp [wireOf, segmentWire, hb]
      have hrest : wireFds (bs.map (fun x => (x, [])) ++ wireOf more) = [] := by
        rw [wireFds_append, wireFds_wireOf fun x hx => hfull x (List.mem_cons_of_mem seg hx)]
        exact List.append_eq_nil_iff.mpr ⟨by simp [wireFds], htail⟩
      -- what follows the first byte carries nothing, and so does every part of it
      have htake : wireFds ((bs.map (fun x => (x, [])) ++ wireOf more).take n) = [] := by
        rw [← List.take_append_drop n (bs.map (fun x => (x, [])) ++ wireOf more), wireFds_append,
          List.append_eq_nil_iff] at hrest
        exact hrest.1
      rw [hwire, List.take_succ_cons]
      show seg.fds ++ wireFds _ = seg.fds ++ segmentFds more
      rw [htake, show segmentFds more = [] from htail]

/-! ## Where the fds are -/

/-- The size of the payload fits into the header. -/
def ServerMsg.Short (m : ServerMsg) : Prop := m.payload.flatten.length < 2 ^ 16

/-- The beginning of a message, not all of it. -/
def Partial (part : List UInt8) : Prop :=
  ∃ m : ServerMsg, m.Short ∧ part <+: m.bytes ∧ part ≠ m.bytes

theorem Partial.nil : Partial [] := by
  refine ⟨.pong, by simp [ServerMsg.Short, ServerMsg.payload], List.nil_prefix, fun h => ?_⟩
  exact absurd (ServerMsg.bytes_pos .pong) (by rw [← h]; exact Nat.lt_irrefl 0)

/-- The messages sent carry a stream of frames and the fds queued for them. -/
structure Carries (sent : List Segment) (frames : List ServerMsg) (queued : List Int) : Prop where
  full : ∀ seg ∈ sent, seg.bytes ≠ []
  short : ∀ m ∈ frames, m.Short
  stream : ∃ part, sentBytes sent <+: messageBytes frames ++ part ∧ Partial part
  fds : segmentFds sent <+: queued
  /-- No frame is sent before its fd. -/
  behind : ∀ ms, ms <+: frames → (messageBytes ms).length ≤ (sentBytes sent).length →
    (deviceIds ms).length ≤ (wireFds ((wireOf sent).take (messageBytes ms).length)).length
  /-- A fd is at most one ring ahead of its frame, and at most one is without a frame. -/
  ahead : ∀ p, 0 < p → p ≤ (sentBytes sent).length → ∃ ms, ms <+: frames
    ∧ (wireFds ((wireOf sent).take p)).length ≤ (deviceIds ms).length + 1
    ∧ (messageBytes ms).length < p + CONNECTION_BUFFER_SIZE

theorem Carries.nil : Carries [] [] [] where
  full := fun _ h => by cases h
  short := fun _ h => by cases h
  stream := ⟨[], List.nil_prefix, .nil⟩
  fds := List.nil_prefix
  behind := fun ms hms _ => by rw [List.prefix_nil.mp hms]; exact Nat.zero_le _
  ahead := fun p hpos hle => absurd hpos (Nat.not_lt.mpr hle)

theorem Carries.queue {sent : List Segment} {frames : List ServerMsg} {queued : List Int}
    (h : Carries sent frames queued) (fd : Int) : Carries sent frames (queued ++ [fd]) :=
  ⟨h.full, h.short, h.stream, h.fds.trans (List.prefix_append _ _), h.behind, h.ahead⟩

/-- More is sent: the fds that were queued go with the first message, in front of which at most a
ring of frames is still to be sent. -/
theorem Carries.grow {sent more : List Segment} {frames frames' : List ServerMsg}
    {queued : List Int} (h : Carries sent frames queued) (hfull : ∀ seg ∈ more, seg.bytes ≠ [])
    (hshort : ∀ m ∈ frames', m.Short)
    (hstream : ∃ part, sentBytes (sent ++ more) <+: messageBytes frames' ++ part ∧ Partial part)
    (hfds : segmentFds (sent ++ more) <+: queued)
    (hfirst : more ≠ [] → segmentFds (sent ++ more) = queued ∧ segmentFds more.tail = [])
    (hframes : frames <+: frames')
    (hold : ∀ ms, ms <+: frames' → (messageBytes ms).length ≤ (sentBytes sent).length →
      ms <+: frames)
    (hbehind : (deviceIds frames').length ≤ queued.length)
    (hahead : queued.length ≤ (deviceIds frames).length + 1)
    (hring : (messageBytes frames).length ≤ (sentBytes sent).length + CONNECTION_BUFFER_SIZE) :
    Carries (sent ++ more) frames' queued := by
  have hlen : (sentBytes (sent ++ more)).length = (sentBytes sent).length + (sentBytes more).length := by
    rw [sentBytes_append, List.length_append]
  have hsame : ∀ {p}, p ≤ (sentBytes sent).length →
      (wireOf (sent ++ more)).take p = (wireOf sent).take p := by
    intro p hp
    rw [wireOf_append, List.take_append_of_le_length (by rw [wireOf_length]; exact hp)]
  have hall : ∀ {p}, (sentBytes sent).length < p → p ≤ (sentBytes (sent ++ more)).length →
      wireFds ((wireOf (sent ++ more)).take p) = queued := by
    intro p hp hle
    have hne : more ≠ [] := by
      rintro rfl
      rw [List.append_nil] at hle
      omega
    obtain ⟨hqueued, htail⟩ := hfirst hne
    obtain ⟨n, rfl⟩ : ∃ n, p = (wireOf sent).length + n := ⟨p - (wireOf sent).length, by
      rw [wireOf_length]; omega⟩
    rw [wireOf_length] at hp
    rw [wireOf_append, List.take_length_add_append, wireFds_append, wireFds_wireOf h.full,
      wireFds_first hfull htail (by omega), ← segmentFds_append, hqueued]
  refine ⟨?_, hshort, hstream, hfds, ?_, ?_⟩
  · intro seg hseg
    rcases List.mem_append.mp hseg with hseg | hseg
    · exact h.full seg hseg
    · exact hfull seg hseg
  · intro ms hms hle
    by_cases hp : (messageBytes ms).length ≤ (sentBytes sent).length
    · rw [hsame hp]
      exact h.behind ms (hold ms hms hp) hp
    · rw [hall (Nat.lt_of_not_le hp) hle]
      exact (deviceIds_length_le hms).trans hbehind
  · intro p hpos hle
    by_cases hp : p ≤ (sentBytes sent).length
    · obtain ⟨ms, hms, hcount, hnear⟩ := h.ahead p hpos hp
      exact ⟨ms, hms.trans hframes, by rw [hsame hp]; exact hcount, hnear⟩
    · refine ⟨frames, hframes, ?_, by omega⟩
      rw [hall (Nat.lt_of_not_le hp) hle]
      exact hahead

/-! ## The channel of a client -/

/-- A live client's channel: `n` fds wait for their frame, and `part` was put of a frame that
could not be put completely. -/
structure Channel.Owes (n : Nat) (part : List UInt8) (ch : Channel) : Prop where
  carries : Carries ch.sent ch.frames ch.queued
  stream : sentBytes ch.sent ++ ch.connection.out.toList = messageBytes ch.frames ++ part
  fds : segmentFds ch.sent ++ ringFds ch.connection.fdsOut = ch.queued
  count : ch.queued.length = (deviceIds ch.frames).length + n
  closed : ch.closed = segmentFds ch.sent
  fdsIn : ch.connection.fdsIn.size = 0
  devices : ch.devices = (deviceIds ch.frames).zip (ch.queued.map some)
  sound : ch.connection.Sound

/-- The channel of a client that was destroyed: every fd queued for it is closed. -/
structure Channel.Gone (ch : Channel) : Prop where
  carries : Carries ch.sent ch.frames ch.queued
  closed : ch.closed = ch.queued
  devices : ch.devices = (deviceIds ch.frames).zip (ch.queued.map some)

theorem zip_of_length_eq {α β : Type} {xs : List α} {ys : List β} (h : ys.length = xs.length)
    (y : β) : xs.zip (ys ++ [y]) = xs.zip ys := by
  have happend : (xs ++ []).zip (ys ++ [y]) = xs.zip ys ++ [].zip [y] := List.zip_append h.symm
  rwa [List.append_nil, List.zip_nil_left, List.append_nil] at happend

section

variable {ch mid ch' : Channel} {n : Nat} {part data : List UInt8} {m : ServerMsg} {c : ClientId}
  {r : Request} {ts : List Talk} {ok : Bool}

/-- Mask and unflushed events do not matter. -/
theorem Channel.Owes.setMask (h : ch.Owes n part) (mask : UInt32) (unflushed : List ServerMsg) :
    { ch with mask := mask, unflushed := unflushed }.Owes n part :=
  ⟨h.carries, h.stream, h.fds, h.count, h.closed, h.fdsIn, h.devices, h.sound⟩

/-- What was put is on the wire or in the ring, which is not over-full. -/
theorem Channel.Owes.ring (h : ch.Owes n []) :
    (messageBytes ch.frames).length = (sentBytes ch.sent).length + ch.connection.out.size
      ∧ (messageBytes ch.frames).length ≤ (sentBytes ch.sent).length + CONNECTION_BUFFER_SIZE := by
  have hlen := congrArg List.length h.stream
  rw [List.append_nil, List.length_append, toList_length] at hlen
  have hout := h.sound.out
  exact ⟨hlen.symm, by omega⟩

/-- Part of a frame is put, and something is sent. -/
theorem Channel.Owes.moves (h : ch.Owes n []) (hn : n ≤ 1) (hmoves : ch.Moves data mid)
    (hdata : Partial data) : mid.Owes n data := by
  obtain ⟨more, ht, heq⟩ := hmoves
  have hstream : sentBytes (ch.sent ++ more) ++ mid.connection.out.toList
      = messageBytes ch.frames ++ data := by
    rw [sentBytes_append, List.append_assoc, ht.stream, ← List.append_assoc, h.stream,
      List.append_nil]
  have hfds : segmentFds (ch.sent ++ more) ++ ringFds mid.connection.fdsOut = ch.queued := by
    rw [segmentFds_append, List.append_assoc, ht.fds, h.fds]
  have hcarries : Carries (ch.sent ++ more) ch.frames ch.queued := by
    refine h.carries.grow ht.bytes h.carries.short ⟨data, ⟨_, hstream⟩, hdata⟩ ⟨_, hfds⟩ (fun hne => ?_)
      (List.prefix_refl _) (fun ms hms _ => hms) ?_ ?_ h.ring.2
    · rw [(ht.first hne).1, List.append_nil] at hfds
      exact ⟨hfds, (ht.first hne).2⟩
    · rw [h.count]
      exact Nat.le_add_right _ _
    · rw [h.count]
      omega
  rw [heq]
  refine ⟨hcarries, hstream, hfds, h.count, ?_, ht.fdsIn ▸ h.fdsIn, h.devices, ht.sound⟩
  show ch.closed ++ segmentFds more = _
  rw [h.closed, segmentFds_append]

/-- A frame is put, for which a fd was queued if it needs one. -/
theorem Channel.Owes.said (h : ch.Owes n []) (hm : m.Short) (hn : m.opens.toList.length = n)
    (hmoves : ch.Moves m.bytes mid) : (mid.said m).Owes 0 [] := by
  have hle : m.opens.toList.length ≤ 1 := by cases m.opens <;> simp
  obtain ⟨more, ht, heq⟩ := hmoves
  have hstream : sentBytes (ch.sent ++ more) ++ mid.connection.out.toList
      = messageBytes (ch.frames ++ [m]) ++ [] := by
    rw [sentBytes_append, List.append_assoc, ht.stream, ← List.append_assoc, h.stream,
      List.append_nil, List.append_nil, messageBytes_append, messageBytes_single]
  have hfds : segmentFds (ch.sent ++ more) ++ ringFds mid.connection.fdsOut = ch.queued := by
    rw [segmentFds_append, List.append_assoc, ht.fds, h.fds]
  have hcount : ch.queued.length = (deviceIds (ch.frames ++ [m])).length := by
    rw [h.count, deviceIds_append, deviceIds_single, List.length_append, hn]
  have hshort : ∀ x ∈ ch.frames ++ [m], x.Short := by
    intro x hx
    rcases List.mem_append.mp hx with hx | hx
    · exact h.carries.short x hx
    · rw [List.mem_singleton.mp hx]
      exact hm
  have hcarries : Carries (ch.sent ++ more) (ch.frames ++ [m]) ch.queued := by
    refine h.carries.grow ht.bytes hshort ⟨[], ⟨_, hstream⟩, .nil⟩ ⟨_, hfds⟩ (fun hne => ?_)
      (List.prefix_append _ _) (fun ms hms hsent => ?_) hcount.ge ?_ h.ring.2
    · rw [(ht.first hne).1, List.append_nil] at hfds
      exact ⟨hfds, (ht.first hne).2⟩
    · -- the new frame is behind everything that was sent before
      rcases List.prefix_concat_iff.mp hms with rfl | hms
      · have hpos := m.bytes_pos
        have hring := h.ring.1
        rw [messageBytes_append, messageBytes_single, List.length_append] at hsent
        omega
      · exact hms
    · rw [h.count]
      omega
  have hdevices : ch.devices ++ m.opens.toList.map (fun id => (id, ch.queued.getLast?))
      = (deviceIds (ch.frames ++ [m])).zip (ch.queued.map some) := by
    have hcount' := h.count
    rw [h.devices, deviceIds_append, deviceIds_single]
    cases hopens : m.opens with
    | none => simp
    | some id =>
        rw [hopens] at hn
        obtain ⟨queued, fd, hqueued⟩ : ∃ queued fd, ch.queued = queued ++ [fd] := by
          refine (List.eq_nil_or_concat' ch.queued).resolve_left fun hnil => ?_
          rw [hnil] at hcount'
          simp [← hn] at hcount'
        rw [hqueued, ← hn, List.length_append] at hcount'
        have hlen : (queued.map some).length = (deviceIds ch.frames).length := by
          rw [List.length_map]
          simpa using hcount'
        rw [hqueued, List.map_append, List.getLast?_append, List.map_singleton,
          zip_of_length_eq hlen]
        simp [List.zip_append hlen.symm]
  rw [heq]
  refine ⟨hcarries, hstream, hfds, hcount, ?_, ht.fdsIn ▸ h.fdsIn, hdevices, ht.sound⟩
  show ch.closed ++ segmentFds more = _
  rw [h.closed]
  exact (segmentFds_append _ _).symm

/-- A fd is queued. -/
theorem Channel.Owes.queue (h : ch.Owes 0 []) {fd : Int} {conn : Connection}
    (hput : connectionPutFd ch.connection fd = .ok conn) :
    { ch with connection := conn, queued := ch.queued ++ [fdInt fd] }.Owes 1 [] := by
  obtain ⟨hring, hsound, hout, -, hfdsIn⟩ := connectionPutFd_ok h.sound hput
  have hcount := h.count
  refine ⟨h.carries.queue _, ?_, ?_, ?_, h.closed, hfdsIn ▸ h.fdsIn, ?_, hsound⟩
  · show sentBytes ch.sent ++ conn.out.toList = _
    rw [hout]
    exact h.stream
  · show segmentFds ch.sent ++ ringFds conn.fdsOut = _
    rw [hring, ← List.append_assoc, h.fds]
  · show (ch.queued ++ [fdInt fd]).length = _
    rw [List.length_append, hcount]
    rfl
  · show ch.devices = (deviceIds ch.frames).zip ((ch.queued ++ [fdInt fd]).map some)
    rw [List.map_append, List.map_singleton, zip_of_length_eq (by rw [List.length_map, hcount]; rfl)]
    exact h.devices

/-- The client is destroyed. -/
theorem Channel.Owes.shut (h : ch.Owes n part) : ch.shut.Gone := by
  refine ⟨h.carries, ?_, h.devices⟩
  have hin := (fdRing_of_size h.fdsIn).closeFds.1
  have hout := h.sound.fdsOut.closeFds.1
  show ch.closed ++ ((connectionBufferCloseFds ch.connection.fdsIn).1
    ++ (connectionBufferCloseFds ch.connection.fdsOut).1) = ch.queued
  rw [hin, hout, ringFds_of_size h.fdsIn, List.nil_append, h.closed, h.fds]

/-! ## Talks -/

theorem Channel.Owes.frame (h : ch.Owes n []) (hm : m.Short) (hn : m.opens.toList.length = n)
    (hframe : ch.Frame m true ch') : ch'.Owes 0 [] := by
  obtain ⟨mid, hmoves, -, rfl⟩ := hframe
  exact h.said hm hn hmoves

theorem Channel.Owes.frame_failed (h : ch.Owes n []) (hm : m.Short) (hn : n ≤ 1)
    (hframe : ch.Frame m false ch') : ∃ part, ch'.Owes n part := by
  obtain ⟨data, hpre, hne, -, hmoves⟩ := hframe
  exact ⟨data, h.moves hn hmoves ⟨m, hm, hpre, hne⟩⟩

theorem Channel.Owes.served (h : ch.Owes n part) (hserved : ch.Served ch') : ch'.Owes n part := by
  rcases hserved with ⟨-, rfl⟩ | rfl
  · exact h
  · exact h.setMask _ _

theorem Channel.Owes.event (h : ch.Owes 0 []) (hm : m.isSeatEvent = true)
    (hevent : (Talk.event c m ok).Effect ch ch') : ch'.Owes 0 [] := by
  have hopens : m.opens.toList.length = 0 := by cases m <;> first | rfl | cases hm
  have hshort : m.Short := by
    unfold ServerMsg.Short
    rw [ServerMsg.payload_of_isSeatEvent hm]
    exact Nat.two_pow_pos 16
  cases ok with
  | true =>
      obtain ⟨mid, hmoves, -, rfl⟩ := hevent
      exact h.said hshort hopens hmoves
  | false =>
      rcases hevent with ⟨data, -, -, hdata, hmoves⟩ | ⟨mid, hmoves, -, rfl⟩
      · -- an event is a bare header: nothing of it was put
        rw [hdata (ServerMsg.payload_of_isSeatEvent hm)] at hmoves
        exact h.moves (Nat.zero_le _) hmoves .nil
      · exact (h.said hshort hopens hmoves).setMask _ _

theorem Channel.Owes.hails {P : ClientId → Prop} (h : ch.Owes 0 []) (hts : Hails P ts)
    (heffects : Effects ts ch ch') : ch'.Owes 0 [] := by
  rcases hts with rfl | ⟨x, m, ok, -, hm, rfl⟩
  · rw [show ch' = ch from heffects]
    exact h
  · obtain ⟨mid, hevent, hend⟩ := heffects
    rw [show ch' = mid from hend]
    exact h.event hm hevent

theorem Channel.Owes.flush (h : ch.Owes 0 [])
    (hflush : (Talk.flush c ok).Effect ch ch') : ch'.Owes 0 [] := by
  obtain ⟨mid, hmoves, hflush⟩ := hflush
  have hmid := h.moves (Nat.zero_le _) hmoves .nil
  cases ok with
  | true => exact hmid.served hflush
  | false =>
      rw [show ch' = mid from hflush]
      exact hmid

theorem Channel.Owes.drain {p : Peer} (h : ch.Owes 0 [])
    (hdrain : (Talk.drain p ok).Effect ch ch') : ch'.Owes 0 [] := by
  obtain ⟨mid, hmoves, hdrain⟩ := hdrain
  have hmid := h.moves (Nat.zero_le _) hmoves .nil
  cases ok with
  | true =>
      obtain ⟨-, rfl⟩ := hdrain
      exact hmid.setMask _ _
  | false =>
      rw [show ch' = mid from hdrain]
      exact hmid

theorem short_deviceOpened (id : Int) : (ServerMsg.deviceOpened id).Short :=
  (by decide : 4 < 2 ^ 16)

/-- The answers to requests are short. -/
theorem Answers.short (h : Answers r m) : m.Short := by
  unfold ServerMsg.Short
  cases m with
  | seatOpened name =>
      match r, h with
      | .openSeat, h =>
          rw [show name = SEAT0 from h]
          decide
  | deviceOpened id => exact short_deviceOpened id
  | error => exact (by decide : 4 < 2 ^ 16)
  | seatClosed | deviceClosed | disableSeat | enableSeat | pong | sessionSwitched | seatDisabled =>
      exact Nat.two_pow_pos 16

/-- A reply is put, with the fd it needs. -/
theorem Channel.Owes.reply {t : Talk} (h : ch.Owes 0 []) (ht : Replies c r true t)
    (heffect : t.Effect ch ch') : ch'.Owes 0 [] := by
  cases ht with
  | @frame m hanswers hm =>
      refine h.frame hanswers.short ?_ heffect
      cases m <;> first | rfl | exact absurd rfl (hm _)
  | device _ d =>
      obtain ⟨fd, conn, hput, hframe⟩ := heffect
      exact (h.queue hput).frame (short_deviceOpened _) rfl hframe

/-- A reply could not be put. -/
theorem Channel.Owes.reply_failed {t : Talk} (h : ch.Owes 0 []) (ht : Replies c r false t)
    (heffect : t.Effect ch ch') : ∃ n part, ch'.Owes n part := by
  cases ht with
  | frame hanswers => exact ⟨0, h.frame_failed hanswers.short (Nat.zero_le _) heffect⟩
  | device _ d =>
      obtain ⟨fd, conn, hput, hframe⟩ := heffect
      exact ⟨1, (h.queue hput).frame_failed (short_deviceOpened _) le_rfl hframe⟩

/-! ## Steps -/

theorem Hails.presence {P : ClientId → Prop} (h : Hails P ts) (here : Prop) :
    ts.foldl Talk.presence here = here := by
  rcases h with rfl | ⟨x, m, ok, -, -, rfl⟩ <;> rfl

theorem Replies.presence {t : Talk} (h : Replies c r ok t)
    (here : Prop) : t.presence here = here := by
  cases h <;> rfl

/-- The channel of a client that is there or not. -/
def Channel.After (here : Prop) (ch : Channel) : Prop := here ∧ ch.Owes 0 [] ∨ ¬ here ∧ ch.Gone

/-- The last talk with a client that is destroyed. -/
theorem Channel.Owes.close (h : ch.Owes n part)
    (heffects : Effects [.close (.client c)] ch ch') : ch'.Gone := by
  obtain ⟨mid, hclose, hend⟩ := heffects
  rw [show ch' = mid from hend, show mid = ch.shut from hclose]
  exact h.shut

theorem RequestTalks.outgoing (h : RequestTalks c r ts) (heffects : Effects ts ch ch')
    (hch : ch.Owes 0 []) :
    ch'.After (ts.foldl Talk.presence True) := by
  cases h with
  | served hbefore hafter hreply =>
      obtain ⟨ch₃, heffects, hflush⟩ := Effects.append.mp heffects
      obtain ⟨ch₁, hfirst, ch₂, ht, hlast⟩ := Effects.append.mp heffects
      obtain ⟨ch₄, hflush, hend⟩ := hflush
      rw [show ch' = ch₄ from hend]
      refine .inl ⟨?_, (((hch.hails hbefore hfirst).reply hreply ht).hails hafter hlast).flush hflush⟩
      simp only [List.foldl_append, List.foldl_cons, List.foldl_nil, hbefore.presence,
        hreply.presence, hafter.presence]
      trivial
  | unsent hbefore hafter hreply =>
      obtain ⟨ch₃, heffects, ch₄, hflush, hclose⟩ := Effects.append.mp heffects
      obtain ⟨ch₁, hfirst, ch₂, ht, hlast⟩ := Effects.append.mp heffects
      have hch₃ := ((hch.hails hbefore hfirst).reply hreply ht).hails hafter hlast
      exact .inr ⟨by simp [List.foldl_append, Talk.presence], (hch₃.flush hflush).close hclose⟩
  | failed hbefore hreply =>
      obtain ⟨ch₂, heffects, hclose⟩ := Effects.append.mp heffects
      obtain ⟨ch₁, hfirst, hlast⟩ := Effects.append.mp heffects
      have hch₁ := hch.hails hbefore hfirst
      refine .inr ⟨by simp [List.foldl_append, Talk.presence], ?_⟩
      rcases hreply with rfl | ⟨t, rfl, hreply⟩
      · rw [show ch₂ = ch₁ from hlast] at hclose
        exact hch₁.close hclose
      · obtain ⟨mid, ht, hend⟩ := hlast
        rw [show ch₂ = mid from hend] at hclose
        obtain ⟨n, part, hmid⟩ := hch₁.reply_failed hreply ht
        exact hmid.close hclose

end

/-- Nothing was said, so nothing is owed. -/
theorem Channel.Virgin.gone {ch : Channel} (h : ch.Virgin) : ch.Gone := by
  obtain ⟨hsent, hclosed, hqueued, hframes, -, hdevices⟩ := h
  refine ⟨?_, hclosed.trans hqueued.symm, ?_⟩
  · rw [hsent, hframes, hqueued]
    exact .nil
  · rw [hdevices, hframes]
    rfl

theorem Channel.Virgin.accept {p : Peer} {ch ch' : Channel} (h : ch.Virgin)
    (heffect : (Talk.accept p).Effect ch ch') : ch'.Owes 0 [] := by
  obtain ⟨hsent, hclosed, hqueued, hframes, -, hdevices⟩ := h
  rw [show ch' = _ from heffect]
  refine ⟨?_, ?_, ?_, ?_, ?_, zero_size, ?_, Connection.sound_zero⟩
  · show Carries ch.sent ch.frames ch.queued
    rw [hsent, hframes, hqueued]
    exact .nil
  · show sentBytes ch.sent ++ Connection.zero.out.toList = messageBytes ch.frames ++ []
    rw [hsent, hframes]
    rfl
  · show segmentFds ch.sent ++ ringFds Connection.zero.fdsOut = ch.queued
    rw [hsent, hqueued]
    rfl
  · show ch.queued.length = (deviceIds ch.frames).length
    rw [hqueued, hframes]
    rfl
  · show ch.closed = segmentFds ch.sent
    rw [hclosed, hsent]
    rfl
  · show ch.devices = (deviceIds ch.frames).zip (ch.queued.map some)
    rw [hdevices, hframes]
    rfl

/-- Everything the client was sent is accounted for. -/
def Server.Outgoing (s : Server) (c : ClientId) : Prop :=
  (s.channel (.client c)).After (c ∈ s.live)

theorem outgoing_step {k : Kernel} {s : Server} (hs : s.Kept) {c : ClientId} (h : s.Outgoing c)
    (st : Step) : (step k s st).Outgoing c := by
  obtain ⟨ts, hclient, heffects, hpresent⟩ := step_client (k := k) hs c st
  unfold Server.Outgoing
  rw [hpresent]
  generalize (step k s st).channel (.client c) = ch' at heffects ⊢
  unfold ClientTalks at hclient
  by_cases hown : st.client = some c ∧ c ∈ s.live
  · -- the step is about the client
    rw [if_pos hown] at hclient
    have hch := (h.resolve_right fun hgone => hgone.1 hown.2).2
    rw [eq_true hown.2]
    have hclosed : Effects [.close (.client c)] (s.channel (.client c)) ch' →
        ts = [.close (.client c)] → ch'.After (ts.foldl Talk.presence True) := by
      rintro heffects rfl
      exact .inr ⟨not_false, hch.close heffects⟩
    match st, hclient with
    | .request _ r, hclient => exact RequestTalks.outgoing hclient heffects hch
    | .writable _, .inl ⟨ok, hdrain⟩ =>
        subst hdrain
        obtain ⟨mid, hdrain, hend⟩ := heffects
        rw [show ch' = mid from hend]
        exact .inl ⟨trivial, hch.drain hdrain⟩
    | .writable _, .inr hdrain =>
        subst hdrain
        obtain ⟨mid, hdrain, hclose⟩ := heffects
        exact .inr ⟨not_false, (hch.drain hdrain).close hclose⟩
    | .disconnect _, hclient => exact hclosed (hclient ▸ heffects) hclient
  · rw [if_neg hown] at hclient
    rcases hclient with ⟨hhails, hlive⟩ | ⟨hnew, hclient⟩
    · rw [hhails.presence]
      rcases h with ⟨hhere, hch⟩ | ⟨hdead, hch⟩
      · exact .inl ⟨hhere, hch.hails hhails heffects⟩
      · have hnil : ts = [] := by
          by_contra hne
          exact hdead (hlive hne)
        subst hnil
        rw [show ch' = s.channel (.client c) from heffects]
        exact .inr ⟨hdead, hch⟩
    · have hvirgin := hs.virgin c hnew.ge
      rcases hclient with rfl | rfl
      · obtain ⟨mid, haccept, hend⟩ := heffects
        rw [show ch' = mid from hend]
        exact .inl ⟨trivial, hvirgin.accept haccept⟩
      · obtain ⟨mid, haccept, hclose⟩ := heffects
        exact .inr ⟨not_false, (hvirgin.accept haccept).close hclose⟩

theorem outgoing_run (k : Kernel) (vtBound : Bool) (steps : List Step) (c : ClientId) :
    (run k vtBound steps).Outgoing c := by
  let I : Server → Prop := fun s => s.Kept ∧ s.Outgoing c
  have hinit : I (serverInit vtBound) := by
    have hkept := kept_init vtBound
    exact ⟨hkept, .inr ⟨List.not_mem_nil, (hkept.virgin c (Nat.zero_le c)).gone⟩⟩
  exact (Run.run_invariant (P := I) (fun s st h => ⟨kept_step h.1 st, outgoing_step h.1 h.2 st⟩)
    hinit steps).2

/-! ## Channels only grow -/

structure Channel.Grows (ch ch' : Channel) : Prop where
  sent : ch.sent <+: ch'.sent
  frames : ch.frames <+: ch'.frames
  queued : ch.queued <+: ch'.queued
  devices : ch.devices <+: ch'.devices

theorem Channel.Grows.refl (ch : Channel) : ch.Grows ch :=
  ⟨List.prefix_rfl, List.prefix_rfl, List.prefix_rfl, List.prefix_rfl⟩

theorem Channel.Grows.trans {ch ch' ch'' : Channel} (h : ch.Grows ch') (h' : ch'.Grows ch'') :
    ch.Grows ch'' :=
  ⟨h.sent.trans h'.sent, h.frames.trans h'.frames, h.queued.trans h'.queued,
    h.devices.trans h'.devices⟩

section

variable {ch mid ch' : Channel} {m : ServerMsg}

theorem Channel.Moves.grows {data : List UInt8} (h : ch.Moves data ch') : ch.Grows ch' := by
  obtain ⟨more, -, heq⟩ := h
  rw [heq]
  exact ⟨List.prefix_append _ _, List.prefix_rfl, List.prefix_rfl, List.prefix_rfl⟩

theorem Channel.grows_said (ch : Channel) (m : ServerMsg) : ch.Grows (ch.said m) :=
  ⟨List.prefix_rfl, List.prefix_append _ _, List.prefix_rfl, List.prefix_append _ _⟩

theorem Channel.Frame.grows {ok : Bool} (h : ch.Frame m ok ch') : ch.Grows ch' := by
  cases ok with
  | true =>
      obtain ⟨mid, hmoves, -, rfl⟩ := h
      exact hmoves.grows.trans (mid.grows_said m)
  | false =>
      obtain ⟨_, -, -, -, hmoves⟩ := h
      exact hmoves.grows

theorem Channel.Served.grows (h : ch.Served ch') : ch.Grows ch' := by
  rcases h with ⟨-, rfl⟩ | rfl
  · exact .refl _
  · exact ⟨List.prefix_rfl, List.prefix_rfl, List.prefix_rfl, List.prefix_rfl⟩

theorem Talk.Effect.grows {t : Talk} (h : t.Effect ch ch') : ch.Grows ch' := by
  cases t with
  | frame c m ok => exact Channel.Frame.grows h
  | device c d ok =>
      obtain ⟨fd, conn, -, hframe⟩ := h
      have hqueue : ch.Grows { ch with connection := conn, queued := ch.queued ++ [fdInt fd] } :=
        ⟨List.prefix_rfl, List.prefix_rfl, List.prefix_append _ _, List.prefix_rfl⟩
      exact hqueue.trans hframe.grows
  | event c m ok =>
      cases ok with
      | true =>
          obtain ⟨mid, hmoves, -, rfl⟩ := h
          exact hmoves.grows.trans (mid.grows_said m)
      | false =>
          rcases h with ⟨_, -, -, -, hmoves⟩ | ⟨mid, hmoves, -, rfl⟩
          · exact hmoves.grows
          · have hsaid := hmoves.grows.trans (mid.grows_said m)
            exact ⟨hsaid.sent, hsaid.frames, hsaid.queued, hsaid.devices⟩
  | flush c ok =>
      obtain ⟨mid, hmoves, h⟩ := h
      cases ok with
      | true => exact hmoves.grows.trans (Channel.Served.grows h)
      | false => exact (show ch' = mid from h) ▸ hmoves.grows
  | message i m ok =>
      obtain ⟨_, mid, hmoves, h⟩ := h
      have hmid := hmoves.grows
      cases ok with
      | true =>
          have hserved := Channel.Served.grows h
          exact ⟨hmid.sent.trans hserved.sent, hmid.frames.trans hserved.frames,
            hmid.queued.trans hserved.queued, hmid.devices.trans hserved.devices⟩
      | false =>
          rw [show ch' = mid.shut from h]
          exact ⟨hmid.sent, hmid.frames, hmid.queued, hmid.devices⟩
  | drain p ok =>
      obtain ⟨mid, hmoves, h⟩ := h
      have hmid := hmoves.grows
      cases ok with
      | true =>
          obtain ⟨-, rfl⟩ := h
          exact ⟨hmid.sent, hmid.frames, hmid.queued, hmid.devices⟩
      | false => exact (show ch' = mid from h) ▸ hmid
  | accept p | close p =>
      rw [show ch' = _ from h]
      exact ⟨List.prefix_rfl, List.prefix_rfl, List.prefix_rfl, List.prefix_rfl⟩

end

theorem grows_step {k : Kernel} {s : Server} (hs : s.Kept) (p : Peer) (st : Step) :
    (s.channel p).Grows ((step k s st).channel p) := by
  obtain ⟨ts, htalk, -⟩ := step_dialogue k s hs.wf st
  exact ((htalk.spec hs.sound).effects p).invariant (I := fun ch => (s.channel p).Grows ch)
    (fun _ _ _ _ ht h => h.trans ht.grows) (.refl _)

/-! ## The next frame of a stream -/

/-- A frame is its header and its payload. -/
theorem ServerMsg.bytes_eq (m : ServerMsg) :
    m.bytes = headerBytes m.opcode m.payload.flatten.length ++ m.payload.flatten := by
  have hsize : (m.payload.map List.length).sum = m.payload.flatten.length :=
    List.length_flatten.symm
  rw [← hsize]
  rfl

theorem ServerMsg.bytes_length (m : ServerMsg) : m.bytes.length = 4 + m.payload.flatten.length := by
  rw [m.bytes_eq, List.length_append]
  rfl

theorem ServerMsg.opcode_lt (m : ServerMsg) : m.opcode < 2 ^ 16 := by
  cases m <;> simp [ServerMsg.opcode, serverEvent]

/-- The header of the frame that a stream begins with. -/
theorem ServerMsg.header {m : ServerMsg} (hm : m.Short) (rest : List UInt8) :
    bytesUint16 (m.bytes ++ rest) = m.opcode
      ∧ bytesUint16 ((m.bytes ++ rest).drop 2) = m.payload.flatten.length := by
  rw [m.bytes_eq]
  exact ⟨bytesUint16_uint16Bytes m.opcode_lt, bytesUint16_uint16Bytes hm⟩

/-- **The next frame.** What has arrived of a stream of frames, of which the last may be
incomplete, begins with the next frame as soon as it is as long as its header says. -/
theorem next_frame {frames : List ServerMsg} {part bytes : List UInt8}
    (hshort : ∀ m ∈ frames, m.Short) (hpart : Partial part)
    (hpre : bytes <+: messageBytes frames ++ part)
    (hlen : 4 + bytesUint16 (bytes.drop 2) ≤ bytes.length) :
    ∃ m rest bytes', frames = m :: rest ∧ bytes = m.bytes ++ bytes' := by
  obtain ⟨more, hmore⟩ := hpre
  -- the size in the header is that of the message the stream begins with
  have hsize : ∀ (m : ServerMsg) (more rest : List UInt8), m.Short →
      bytes ++ more = m.bytes ++ rest → m.bytes.length ≤ bytes.length := by
    intro m more rest hm heq
    obtain ⟨b₀, b₁, b₂, b₃, bs, rfl⟩ : ∃ b₀ b₁ b₂ b₃ bs, bytes = b₀ :: b₁ :: b₂ :: b₃ :: bs := by
      match bytes, hlen with
      | b₀ :: b₁ :: b₂ :: b₃ :: bs, _ => exact ⟨b₀, b₁, b₂, b₃, bs, rfl⟩
      | [], hlen | [_], hlen | [_, _], hlen | [_, _, _], hlen => simp at hlen <;> omega
    have hheader := (m.header hm rest).2
    rw [← heq] at hheader
    rw [m.bytes_length, ← hheader]
    exact hlen
  cases frames with
  | nil =>
      -- only the beginning of a frame is there, too little for its header
      obtain ⟨m, hm, ⟨tail, htail⟩, hne⟩ := hpart
      have hmore' : bytes ++ more = part := hmore
      have hle := hsize m (more ++ tail) [] hm (by
        rw [← List.append_assoc, hmore', htail, List.append_nil])
      have hpart := congrArg List.length hmore'
      have htotal := congrArg List.length htail
      rw [List.length_append] at hpart htotal
      have hnil : tail = [] := List.length_eq_zero_iff.mp (by omega)
      rw [hnil, List.append_nil] at htail
      exact absurd htail hne
  | cons m rest =>
      have heq : bytes ++ more = m.bytes ++ (messageBytes rest ++ part) := by
        rw [hmore, ← List.append_assoc]
        rfl
      have hle := hsize m more _ (hshort m List.mem_cons_self) heq
      obtain ⟨bytes', hbytes⟩ : m.bytes <+: bytes :=
        List.prefix_of_prefix_length_le ⟨_, heq.symm⟩ ⟨_, rfl⟩ hle
      exact ⟨m, rest, bytes', rfl, hbytes.symm⟩

end DdeSeatd
