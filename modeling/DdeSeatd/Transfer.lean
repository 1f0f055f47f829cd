import DdeSeatd.Connection

set_option autoImplicit false

/-! # What sending moves

Bytes and file descriptors leave a connection by different rules: a `sendmsg` takes some of the
bytes of the out ring, and all the fds of the fd ring with them. `Transfer c data c' sent` says
what a sequence of puts and flushes did: `data` went behind the bytes to send, a front part of
these bytes was sent, and the fds went, in order, with the first message that was sent. It is
closed under composition (`Transfer.trans`), so that it describes one put, the puts of a whole
frame, and a frame with the flush after it alike.

## Conventions

* The fds of a ring are its bytes read four at a time (`ringFds`); a ring of fds is only ever
  filled and emptied by whole fds, so nothing is lost by this reading.
* A fd is the `int` the ring holds. `connection_put_fd` of an integer stores it modulo `2 ^ 32`.
-/

namespace DdeSeatd

open RingBuffer

/-! ## Fds in bytes -/

/-- Induction over the fds of a list of bytes. -/
theorem fds_induction {motive : (xs : List UInt8) → 4 ∣ xs.length → Prop} (nil : ∀ h, motive [] h)
    (fd : ∀ a b c d rest h, motive rest h → ∀ h', motive (a :: b :: c :: d :: rest) h') :
    ∀ xs h, motive xs h
  | [], h => nil h
  | [_], h | [_, _], h | [_, _, _], h => by simp at h
  | a :: b :: c :: d :: rest, h => by
      have hrest : 4 ∣ rest.length := by
        simp only [List.length_cons] at h
        omega
      exact fd a b c d rest hrest (fds_induction nil fd rest hrest) h

theorem bytesFds_append {xs : List UInt8} (ys : List UInt8) (h : 4 ∣ xs.length) :
    bytesFds (xs ++ ys) = bytesFds xs ++ bytesFds ys := by
  induction xs, h using fds_induction with
  | nil => rfl
  | fd a b c d rest _ ih _ =>
      show bytesInt [a, b, c, d] :: bytesFds (rest ++ ys) = _
      rw [ih]
      rfl

/-- The `int` of a fd number. -/
def fdInt (fd : Int) : Int := bytesInt (intBytes fd)

theorem bytesFds_intBytes (fd : Int) : bytesFds (intBytes fd) = [fdInt fd] := rfl

theorem bytesFds_length {xs : List UInt8} (h : 4 ∣ xs.length) :
    4 * (bytesFds xs).length = xs.length := by
  induction xs, h using fds_induction with
  | nil => rfl
  | fd a b c d rest _ ih _ =>
      show 4 * (bytesFds rest).length.succ = rest.length + 4
      omega

/-! ## Rings of fds -/

/-- The fds in a ring, the oldest first. -/
def ringFds (b : ConnectionBuffer) : List Int := bytesFds b.toList

/-- A ring that holds whole fds, and not more than a message can carry. -/
structure FdRing (b : ConnectionBuffer) : Prop where
  size : b.size ≤ CONNECTION_BUFFER_SIZE
  whole : 4 ∣ b.size

theorem FdRing.zero : FdRing ConnectionBuffer.zero := ⟨by decide, by decide⟩

theorem toList_of_size {b : ConnectionBuffer} (h : b.size = 0) : b.toList = [] := by
  apply List.length_eq_zero_iff.mp
  rw [toList_length, h]

theorem ringFds_of_size {b : ConnectionBuffer} (h : b.size = 0) : ringFds b = [] := by
  rw [ringFds, toList_of_size h]
  rfl

section

variable {b : ConnectionBuffer}

theorem FdRing.length (h : FdRing b) : 4 * (ringFds b).length = b.size := by
  rw [ringFds, bytesFds_length (by rw [toList_length]; exact h.whole), toList_length]

/-- `build_cmsg` attaches all the fds. -/
theorem FdRing.buildCmsg (h : FdRing b) : bytesFds (buildCmsg b) = ringFds b := by
  have hsize := h.size
  have hmin : min (connectionBufferSize b) (MAX_FDS * 4) = b.size := Nat.min_eq_left hsize
  unfold DdeSeatd.buildCmsg
  dsimp only
  rw [hmin]
  split_ifs with h0
  · rw [ringFds_of_size h0]
    rfl
  · rw [connectionBufferCopy_eq b le_rfl, List.take_of_length_le (by rw [toList_length])]
    rfl

/-- `connection_buffer_close_fds` closes all the fds and leaves an empty ring. -/
theorem FdRing.closeFds (h : FdRing b) :
    (connectionBufferCloseFds b).1 = ringFds b ∧ (connectionBufferCloseFds b).2.size = 0 := by
  have hcount : b.size / 4 * 4 = b.size := Nat.div_mul_cancel h.whole
  unfold connectionBufferCloseFds
  dsimp only
  split_ifs with h0
  · exact ⟨(ringFds_of_size h0).symm, h0⟩
  · change bytesFds ((connectionBufferCopy b b.size).take (b.size / 4 * 4)) = _
      ∧ (b.skip (b.size / 4 * 4)).size = 0
    rw [hcount]
    constructor
    · rw [connectionBufferCopy_eq b le_rfl, List.take_take, Nat.min_self,
        List.take_of_length_le (by rw [toList_length])]
      rfl
    · rw [size_skip b le_rfl, Nat.sub_self]

theorem fdRing_of_size (h : b.size = 0) : FdRing b := ⟨by omega, by omega⟩

end

/-! ## The sending side of a connection -/

/-- A connection as the code keeps it: no ring is over-full, bytes to send are marked for
flushing, and the fd ring holds whole fds. -/
structure Connection.Sound (c : Connection) : Prop where
  out : c.out.size ≤ CONNECTION_BUFFER_SIZE
  flush : 0 < c.out.size → c.wantFlush = true
  fdsOut : FdRing c.fdsOut

theorem Connection.sound_zero : Connection.zero.Sound :=
  ⟨by decide, fun h => absurd h (by decide), FdRing.zero⟩

/-- The fds of a sequence of messages. -/
def segmentFds (sent : List Segment) : List Int := sent.flatMap Segment.fds

@[simp] theorem segmentFds_nil : segmentFds [] = [] := rfl

@[simp] theorem segmentFds_append (xs ys : List Segment) :
    segmentFds (xs ++ ys) = segmentFds xs ++ segmentFds ys := by
  simp [segmentFds]

/-- What puts and flushes did to a connection: `data` was put behind the bytes to send, and the
messages `sent` were sent. -/
structure Transfer (c : Connection) (data : List UInt8) (c' : Connection)
    (sent : List Segment) : Prop where
  stream : sentBytes sent ++ c'.out.toList = c.out.toList ++ data
  fds : segmentFds sent ++ ringFds c'.fdsOut = ringFds c.fdsOut
  /-- The fds go with the first message. -/
  first : sent ≠ [] → ringFds c'.fdsOut = [] ∧ segmentFds sent.tail = []
  bytes : ∀ seg ∈ sent, seg.bytes ≠ []
  inp : c'.inp = c.inp
  fdsIn : c'.fdsIn = c.fdsIn
  sound : c'.Sound

theorem Transfer.refl {c : Connection} (h : c.Sound) : Transfer c [] c [] where
  stream := by simp
  fds := rfl
  first := fun h => absurd rfl h
  bytes := fun _ h => (nomatch h)
  inp := rfl
  fdsIn := rfl
  sound := h

theorem Transfer.trans {c c' c'' : Connection} {data data' : List UInt8}
    {sent sent' : List Segment} (h : Transfer c data c' sent) (h' : Transfer c' data' c'' sent') :
    Transfer c (data ++ data') c'' (sent ++ sent') where
  stream := by
    rw [sentBytes_append, List.append_assoc, h'.stream, ← List.append_assoc, h.stream,
      List.append_assoc]
  fds := by rw [segmentFds_append, List.append_assoc, h'.fds, h.fds]
  first := by
    intro hne
    cases sent with
    | nil => exact h'.first (by simpa using hne)
    | cons seg sent =>
        obtain ⟨hring, htail⟩ := h.first (by simp)
        -- nothing is left in the fd ring for the later messages
        have hnone := h'.fds
        rw [hring, List.append_eq_nil_iff] at hnone
        refine ⟨hnone.2, ?_⟩
        rw [List.cons_append, List.tail_cons, segmentFds_append, hnone.1, List.append_nil]
        exact htail
  bytes := by
    intro seg hseg
    rcases List.mem_append.mp hseg with hseg | hseg
    · exact h.bytes seg hseg
    · exact h'.bytes seg hseg
  inp := h'.inp.trans h.inp
  fdsIn := h'.fdsIn.trans h.fdsIn
  sound := h'.sound

/-! ## Flushing -/

theorem takenLen_pos {len total : Nat} (h : 0 < total) : 0 < takenLen len total := by
  unfold takenLen
  omega

/-- One `sendmsg` that takes `len` bytes. -/
theorem Transfer.sendmsg {c : Connection} (h : c.Sound) (hpos : 0 < c.out.size) (len : Nat) :
    let n := takenLen len c.out.size
    Transfer c [] { c with fdsOut := (connectionBufferCloseFds c.fdsOut).2,
                           out := connectionBufferConsume c.out n }
      [⟨c.out.toList.take n, bytesFds (buildCmsg c.fdsOut)⟩] := by
  intro n
  have hle : n ≤ c.out.size := takenLen_le _ _
  have hn : 0 < n := takenLen_pos hpos
  have hempty := h.fdsOut.closeFds.2
  have hskip : (connectionBufferConsume c.out n).toList = c.out.toList.drop n :=
    toList_skip size_dvd _ hle
  have hsize : (connectionBufferConsume c.out n).size = c.out.size - n := size_skip _ hle
  have hout := h.out
  refine ⟨?_, ?_, fun _ => ⟨ringFds_of_size hempty, rfl⟩, ?_, rfl, rfl, ?_, ?_, ?_⟩
  · simp [sentBytes, hskip, List.take_append_drop]
  · simp [segmentFds, h.fdsOut.buildCmsg, ringFds_of_size hempty]
  · intro seg hseg
    rw [List.mem_singleton.mp hseg]
    intro hnil
    have hlen := congrArg List.length hnil
    simp only [List.length_take, toList_length, List.length_nil] at hlen
    omega
  · show (connectionBufferConsume c.out n).size ≤ _
    omega
  · intro _
    exact h.flush hpos
  · exact fdRing_of_size hempty

/-- The call succeeded. -/
def SendOut.succeeded (o : SendOut) : Bool := o.ret.isOk

/-- What the loop of `connection_flush` sent in addition to what had been sent before, and
closed in addition to what had been closed. It succeeds if and only if all bytes are sent. -/
def FlushTransfer (c : Connection) (sent : List Segment) (closed : List Int) (o : SendOut) :
    Prop :=
  ∃ more, o.sent = sent ++ more ∧ o.closed = closed ++ segmentFds more
    ∧ Transfer c [] o.conn more ∧ (o.succeeded = true ↔ o.conn.out.size = 0)

theorem connectionFlushLoop_transfer (tail : BitVec 32) (results : List SendResult) :
    ∀ (c : Connection) (sent : List Segment) (closed : List Int), c.Sound →
      FlushTransfer c sent closed (connectionFlushLoop tail c sent closed results) := by
  have stop : ∀ (c : Connection) (sent : List Segment) (closed : List Int) (n : Nat), c.Sound →
      c.out.size = 0 →
      FlushTransfer c sent closed ⟨.ok n, { c with wantFlush := false }, sent, closed⟩ := by
    intro c sent closed n h h0
    have h' : ({ c with wantFlush := false } : Connection).Sound :=
      ⟨h.out, fun hpos => absurd hpos (by show ¬ 0 < c.out.size; omega), h.fdsOut⟩
    exact ⟨[], by simp, by simp, ⟨by simp, rfl, fun hne => absurd rfl hne,
      fun _ hm => (nomatch hm), rfl, rfl, h'⟩, iff_of_true rfl h0⟩
  have fail : ∀ (c : Connection) (sent : List Segment) (closed : List Int) (e : Nat), c.Sound →
      c.out.size ≠ 0 → FlushTransfer c sent closed ⟨.error e, c, sent, closed⟩ := by
    intro c sent closed e h h0
    exact ⟨[], by simp, by simp, .refl h, iff_of_false Bool.false_ne_true h0⟩
  induction results with
  | nil =>
      intro c sent closed h
      unfold connectionFlushLoop
      split_ifs with h0
      · exact stop c sent closed _ h h0
      · exact fail c sent closed _ h h0
  | cons r results ih =>
      intro c sent closed h
      unfold connectionFlushLoop
      split_ifs with h0
      · exact stop c sent closed _ h h0
      · cases r with
        | fail e =>
            dsimp only
            split_ifs
            · exact ih c sent closed h
            · exact fail c sent closed e h h0
        | sent n =>
            have hpos : 0 < c.out.size := Nat.pos_of_ne_zero h0
            have hsend := Transfer.sendmsg h hpos n
            simp only [iovBytes_getIov c.out hpos h.out, toList_length]
            obtain ⟨more, hsent, hclosed, htransfer, hok⟩ := ih _
              (sent ++ [⟨c.out.toList.take (takenLen n c.out.size),
                bytesFds (buildCmsg c.fdsOut)⟩])
              (closed ++ (connectionBufferCloseFds c.fdsOut).1) hsend.sound
            refine ⟨_ :: more, ?_, ?_, hsend.trans htransfer, hok⟩
            · rw [hsent, List.append_assoc]
              rfl
            · rw [hclosed, h.fdsOut.closeFds.1, ← h.fdsOut.buildCmsg, List.append_assoc]
              rfl

/-- What one call on a sound connection may do. -/
structure SendOut.Transfers (c : Connection) (data : List UInt8) (o : SendOut) : Prop where
  transfer : Transfer c data o.conn o.sent
  closed : o.closed = segmentFds o.sent

theorem connectionFlush_transfers {c : Connection} (h : c.Sound) (results : List SendResult) :
    (connectionFlush c results).Transfers c []
      ∧ ((connectionFlush c results).succeeded = true
        ↔ (connectionFlush c results).conn.out.size = 0) := by
  unfold connectionFlush
  by_cases hw : c.wantFlush = true
  · rw [if_neg (by simp [hw])]
    obtain ⟨more, hsent, hclosed, htransfer, hok⟩ :=
      connectionFlushLoop_transfer c.out.tail results c [] [] h
    rw [List.nil_append] at hsent hclosed
    exact ⟨⟨hsent ▸ htransfer, hsent ▸ hclosed⟩, hok⟩
  · rw [if_pos (by simpa using hw)]
    have h0 : c.out.size = 0 := by
      by_contra hne
      exact hw (h.flush (Nat.pos_of_ne_zero hne))
    exact ⟨⟨.refl h, rfl⟩, iff_of_true rfl h0⟩

/-! ## Putting -/

/-- What `connection_put` did: all of `data` is in the out ring, or none of it. -/
structure SendOut.Puts (c : Connection) (data : List UInt8) (o : SendOut) : Prop where
  ok : o.succeeded = true → o.Transfers c data ∧ data.length ≤ o.conn.out.size
  fail : o.succeeded = false → o.Transfers c []

theorem connectionPutTail_puts {c : Connection} {o : SendOut} (data : List UInt8)
    (h : o.Transfers c [])
    (hroom : o.conn.out.size = 0 ∨ o.conn.out.size + data.length ≤ CONNECTION_BUFFER_SIZE) :
    (connectionPutTail o data).Puts c data := by
  have hs := h.transfer.sound
  unfold connectionPutTail
  by_cases hlen : data.length ≤ CONNECTION_BUFFER_SIZE
  · have hfit : o.conn.out.size + data.length ≤ CONNECTION_BUFFER_SIZE := by omega
    have hsize : (o.conn.out.push data).size = o.conn.out.size + data.length :=
      size_push size_lt _ hfit
    rw [connectionBufferPut_ok _ hlen]
    refine ⟨fun _ => ⟨⟨⟨?_, h.transfer.fds, h.transfer.first, h.transfer.bytes, h.transfer.inp,
      h.transfer.fdsIn, ?_, fun _ => rfl, hs.fdsOut⟩, h.closed⟩, ?_⟩, fun hret => (nomatch hret)⟩
    · show sentBytes o.sent ++ (o.conn.out.push data).toList = _
      rw [toList_push size_dvd size_lt _ hfit, ← List.append_assoc, h.transfer.stream,
        List.append_nil]
    · show (o.conn.out.push data).size ≤ _
      omega
    · show data.length ≤ (o.conn.out.push data).size
      omega
  · have herr : connectionBufferPut o.conn.out data = .error EOVERFLOW := by
      unfold connectionBufferPut
      rw [if_pos (by omega)]
    rw [herr]
    exact ⟨fun hret => (nomatch hret), fun _ => ⟨h.transfer, h.closed⟩⟩

theorem connectionPut_puts {c : Connection} (h : c.Sound) (data : List UInt8)
    (results : List SendResult) : (connectionPut c data results).Puts c data := by
  unfold connectionPut
  split_ifs with hover
  · -- the put flushes first; only an empty ring lets it go on
    have hw : ({ c with wantFlush := true } : Connection).Sound := ⟨h.out, fun _ => rfl, h.fdsOut⟩
    obtain ⟨⟨ht, hclosed⟩, hok⟩ := connectionFlush_transfers hw results
    have hflush : (connectionFlush { c with wantFlush := true } results).Transfers c [] :=
      ⟨⟨ht.stream, ht.fds, ht.first, ht.bytes, ht.inp, ht.fdsIn, ht.sound⟩, hclosed⟩
    dsimp only
    split
    · next e hret =>
        have hfail : (connectionFlush { c with wantFlush := true } results).succeeded = false := by
          rw [SendOut.succeeded, hret]
          rfl
        exact ⟨fun h' => (nomatch hfail.symm.trans h'), fun _ => hflush⟩
    · next n hret =>
        have hsucc : (connectionFlush { c with wantFlush := true } results).succeeded = true := by
          rw [SendOut.succeeded, hret]
          rfl
        exact connectionPutTail_puts data hflush (.inl (hok.mp hsucc))
  · have hsize : c.out.size + data.length ≤ CONNECTION_BUFFER_SIZE := by
      show connectionBufferSize c.out + data.length ≤ _
      omega
    exact connectionPutTail_puts (o := ⟨.ok 0, c, [], []⟩) data ⟨.refl h, rfl⟩ (.inr hsize)

/-! ## A socket that takes everything -/

theorem connectionFlush_drains {c : Connection} (h : c.Sound) :
    (connectionFlush c [.sent CONNECTION_BUFFER_SIZE]).succeeded = true := by
  unfold connectionFlush
  split_ifs
  · rfl
  · unfold connectionFlushLoop
    split_ifs with hempty
    · rfl
    · have hpos : 0 < c.out.size := Nat.pos_of_ne_zero hempty
      have hbytes := iovBytes_getIov c.out hpos h.out
      have hlen : takenLen CONNECTION_BUFFER_SIZE c.out.size = c.out.size := by
        have hout := h.out
        unfold takenLen
        omega
      have hrest : connectionBufferSize (connectionBufferConsume c.out c.out.size) = 0 := by
        show (c.out.skip c.out.size).size = 0
        rw [size_skip c.out le_rfl, Nat.sub_self]
      dsimp only
      rw [hbytes, toList_length, hlen]
      unfold connectionFlushLoop
      rw [if_pos hrest]
      rfl

theorem connectionPut_drains {c : Connection} (h : c.Sound) {data : List UInt8}
    (hlen : data.length ≤ CONNECTION_BUFFER_SIZE) :
    (connectionPut c data [.sent CONNECTION_BUFFER_SIZE]).succeeded = true := by
  have htail : ∀ o : SendOut, (connectionPutTail o data).succeeded = true := by
    intro o
    unfold connectionPutTail
    rw [connectionBufferPut_ok _ hlen]
    rfl
  unfold connectionPut
  split_ifs
  · have hw : ({ c with wantFlush := true } : Connection).Sound := ⟨h.out, fun _ => rfl, h.fdsOut⟩
    have hflush := connectionFlush_drains hw
    dsimp only
    split
    · next e hret =>
        rw [SendOut.succeeded, hret] at hflush
        cases hflush
    · exact htail _
  · exact htail _

/-! ## Queueing a fd -/

theorem connectionPutFd_ok {c c' : Connection} {fd : Int} (h : c.Sound)
    (hput : connectionPutFd c fd = .ok c') :
    ringFds c'.fdsOut = ringFds c.fdsOut ++ [fdInt fd] ∧ c'.Sound
      ∧ c'.out = c.out ∧ c'.inp = c.inp ∧ c'.fdsIn = c.fdsIn := by
  unfold connectionPutFd at hput
  split_ifs at hput with hfull
  have hsize : c.fdsOut.size < CONNECTION_BUFFER_SIZE := by
    change ¬ c.fdsOut.size ≥ CONNECTION_BUFFER_SIZE at hfull
    omega
  have hwhole := h.fdsOut.whole
  have hcap : CONNECTION_BUFFER_SIZE = 256 := rfl
  have hfit : c.fdsOut.size + (intBytes fd).length ≤ CONNECTION_BUFFER_SIZE := by
    rw [intBytes_length]
    omega
  rw [connectionBufferPut_ok _ (by rw [intBytes_length]; omega)] at hput
  cases hput
  have hpush : (c.fdsOut.push (intBytes fd)).size = c.fdsOut.size + 4 := by
    rw [size_push size_lt _ hfit, intBytes_length]
  refine ⟨?_, ⟨h.out, h.flush, ?_, ?_⟩, rfl, rfl, rfl⟩
  · show bytesFds (c.fdsOut.push (intBytes fd)).toList = _
    rw [toList_push size_dvd size_lt _ hfit,
      bytesFds_append _ (by rw [toList_length]; exact hwhole), bytesFds_intBytes]
    rfl
  · show (c.fdsOut.push (intBytes fd)).size ≤ _
    rw [hpush]
    rw [intBytes_length] at hfit
    exact hfit
  · show 4 ∣ (c.fdsOut.push (intBytes fd)).size
    omega

end DdeSeatd
