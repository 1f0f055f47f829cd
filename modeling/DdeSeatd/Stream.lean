import DdeSeatd.Connection
import DdeSeatd.Lib.Run

set_option autoImplicit false

/-! # A connection is a FIFO byte stream

Two connections joined by a stream socket: one side puts and flushes, the other reads, gets
and restores. The socket keeps its bytes in order and attaches the fds of a message to the
message's first byte. How much a `sendmsg` takes, how much a `recvmsg` delivers, and when
either is interrupted or would block, is chosen by the environment at every call.

The invariant is one equation (`Link.Inv.stream`): the bytes put are the bytes got, followed
by the bytes in the receiver's ring, on the wire and in the sender's ring.
-/

namespace DdeSeatd

open RingBuffer

/-! ## The socket -/

/-- A byte in flight, with the fds that are delivered with it. -/
abbrev Wire := List (UInt8 × List Int)

/-- The bytes of one message; the fds travel with the first. -/
def segmentWire (seg : Segment) : Wire :=
  match seg.bytes with
  | [] => []
  | b :: bs => (b, seg.fds) :: bs.map fun x => (x, [])

def wireOf (sent : List Segment) : Wire := sent.flatMap segmentWire

/-- What the environment chooses for one `recvmsg`. -/
inductive RecvChoice where
  | fail (errno : Nat)
  | take (len : Nat)
  deriving DecidableEq, Repr

/-- The fds delivered with a stretch of the wire. -/
def wireCmsgs (w : Wire) : List Cmsg :=
  w.filterMap fun x => if x.2 = [] then none else some (.rights (x.2.flatMap intBytes))

/-- The answer of `recvmsg` for a buffer of `room` bytes. -/
def recvAnswer (room : Nat) (w : Wire) : RecvChoice → RecvResult
  | .fail e => .fail e
  | .take n =>
      if w = [] then .fail EAGAIN
      else
        let got := w.take (takenLen n (min room w.length))
        .data (got.map Prod.fst) (wireCmsgs got)

/-- The wire after the bytes of an answer were taken off. -/
def wireRest (w : Wire) : RecvResult → Wire
  | .fail _ => w
  | .data bytes _ => w.drop bytes.length

/-! ## The link -/

/-- Sender, socket and receiver, with the bytes put and got so far. -/
structure Link where
  tx : Connection
  wire : Wire
  rx : Connection
  put : List UInt8
  got : List UInt8

inductive LinkOp where
  | put (data : List UInt8) (results : List SendResult)
  | flush (results : List SendResult)
  | read (choices : List RecvChoice)
  | get (count : Nat)
  | getRestore (count : Nat)

def Link.init : Link := ⟨Connection.zero, [], Connection.zero, [], []⟩

/-- `connection_get` on the receiving side. -/
def Link.get (l : Link) (count : Nat) : Link :=
  match connectionGet l.rx count with
  | (.error _, rx) => { l with rx := rx }
  | (.ok bytes, rx) => { l with rx := rx, got := l.got ++ bytes }

def Link.step (l : Link) : LinkOp → Link
  | .put data results =>
      let o := connectionPut l.tx data results
      { l with tx := o.conn, wire := l.wire ++ wireOf o.sent,
               put := match o.ret with | .ok _ => l.put ++ data | .error _ => l.put }
  | .flush results =>
      let o := connectionFlush l.tx results
      { l with tx := o.conn, wire := l.wire ++ wireOf o.sent }
  | .read choices =>
      let room := CONNECTION_BUFFER_SIZE - connectionBufferSize l.rx.inp
      let results := choices.map (recvAnswer room l.wire)
      { l with rx := (connectionRead l.rx results).2.1,
               wire := if room = 0 then l.wire else wireRest l.wire (recvmsgLoop results) }
  | .get count => l.get count
  | .getRestore count =>
      -- only what was got can be restored
      match (connectionGet l.rx count).1 with
      | .error _ => l.get count
      | .ok _ =>
          let l' := l.get count
          { l' with rx := connectionRestore l'.rx count,
                    got := l'.got.take (l'.got.length - count) }

def Link.run (ops : List LinkOp) : Link := Run.run Link.step Link.init ops

/-- The eight rings of a link. -/
def Link.rings (l : Link) : List ConnectionBuffer :=
  [l.tx.inp, l.tx.out, l.tx.fdsIn, l.tx.fdsOut, l.rx.inp, l.rx.out, l.rx.fdsIn, l.rx.fdsOut]

/-- The cells that hold the stored bytes, oldest first. -/
def storedCells (b : ConnectionBuffer) : List Nat :=
  (List.range b.size).map fun i => (b.tail.toNat + i) % CONNECTION_BUFFER_SIZE

/-- The other cells, in the order in which they will be written. -/
def freeCells (b : ConnectionBuffer) : List Nat :=
  (List.range (CONNECTION_BUFFER_SIZE - b.size)).map fun i =>
    (b.head.toNat + i) % CONNECTION_BUFFER_SIZE

/-! ## Cells -/

theorem mod_mask (idx : BitVec 32) (i : Nat) :
    ((connectionBufferMask idx).toNat + i) % CONNECTION_BUFFER_SIZE
      = (idx.toNat + i) % CONNECTION_BUFFER_SIZE := by
  rw [mask_toNat, Nat.mod_add_mod]

/-- Stored and free cells together are all the cells, each once. -/
theorem storedCells_append_freeCells (b : ConnectionBuffer)
    (hb : b.size ≤ CONNECTION_BUFFER_SIZE) :
    (storedCells b ++ freeCells b).Perm (List.range CONNECTION_BUFFER_SIZE) := by
  set t := (connectionBufferMask b.tail).toNat with ht
  have htn : t < CONNECTION_BUFFER_SIZE := mask_lt b.tail
  have hall : storedCells b ++ freeCells b
      = (List.range CONNECTION_BUFFER_SIZE).map fun i => (t + i) % CONNECTION_BUFFER_SIZE := by
    have hsum : CONNECTION_BUFFER_SIZE = b.size + (CONNECTION_BUFFER_SIZE - b.size) := by omega
    have hrange : List.range CONNECTION_BUFFER_SIZE = List.range b.size
        ++ (List.range (CONNECTION_BUFFER_SIZE - b.size)).map (b.size + ·) := by
      rw [← List.range_add, ← hsum]
    rw [hrange, List.map_append, List.map_map]
    congr 1
    · apply List.map_congr_left
      intro i _
      rw [ht, mod_mask]
    · apply List.map_congr_left
      intro i _
      show (b.head.toNat + i) % CONNECTION_BUFFER_SIZE
        = (t + (b.size + i)) % CONNECTION_BUFFER_SIZE
      rw [ht, mod_mask, Nat.add_mod, head_mod size_dvd b, ← Nat.add_mod, Nat.add_assoc]
  have hsplit : List.range CONNECTION_BUFFER_SIZE
      = List.range t ++ (List.range (CONNECTION_BUFFER_SIZE - t)).map (t + ·) := by
    rw [← List.range_add]
    congr 1
    omega
  rw [hall, cells_around htn (Nat.le_refl _) (by omega), Nat.add_sub_cancel]
  simp only [Nat.zero_add, List.map_id']
  rw [hsplit]
  exact List.perm_append_comm

theorem iovCells_getIov_eq (b : ConnectionBuffer) (h0 : 0 < b.size)
    (hb : b.size ≤ CONNECTION_BUFFER_SIZE) :
    iovCells (connectionBufferGetIov b) = storedCells b := by
  rw [iovCells_getIov b h0 hb]
  apply List.map_congr_left
  intro i _
  exact mod_mask b.tail i

theorem iovCells_putIov_eq (b : ConnectionBuffer) (hb : b.size < CONNECTION_BUFFER_SIZE) :
    iovCells (connectionBufferPutIov b) = freeCells b := by
  rw [iovCells_putIov b hb]
  apply List.map_congr_left
  intro i _
  exact mod_mask b.head i

/-! ## The invariant -/

theorem segmentWire_bytes (seg : Segment) : (segmentWire seg).map Prod.fst = seg.bytes := by
  unfold segmentWire
  split
  · next h => rw [h]; rfl
  · next b bs h => simp [h, Function.comp_def]

theorem wireOf_bytes (sent : List Segment) : (wireOf sent).map Prod.fst = sentBytes sent := by
  simp only [wireOf, sentBytes, List.map_flatMap]
  exact congrArg (fun f => sent.flatMap f) (funext segmentWire_bytes)

theorem wireOf_plain {sent : List Segment} (h : ∀ seg ∈ sent, seg.fds = []) :
    ∀ x ∈ wireOf sent, x.2 = [] := by
  intro x hx
  obtain ⟨seg, hseg, hx⟩ := List.mem_flatMap.mp hx
  unfold segmentWire at hx
  split at hx
  · cases hx
  · rcases List.mem_cons.mp hx with rfl | hx
    · exact h seg hseg
    · obtain ⟨_, _, rfl⟩ := List.mem_map.mp hx
      rfl

theorem wireCmsgs_plain {w : Wire} (h : ∀ x ∈ w, x.2 = []) : wireCmsgs w = [] := by
  apply List.filterMap_eq_nil_iff.mpr
  intro x hx
  rw [if_pos (h x hx)]

structure Link.Inv (l : Link) : Prop where
  stream : l.put = l.got ++ (l.rx.inp.toList ++ (l.wire.map Prod.fst ++ l.tx.out.toList))
  txOut : l.tx.out.size ≤ CONNECTION_BUFFER_SIZE
  rxInp : l.rx.inp.size ≤ CONNECTION_BUFFER_SIZE
  flush : 0 < l.tx.out.size → l.tx.wantFlush = true
  plain : ∀ x ∈ l.wire, x.2 = []
  txRest : l.tx.inp = ConnectionBuffer.zero ∧ l.tx.fdsIn = ConnectionBuffer.zero
    ∧ l.tx.fdsOut = ConnectionBuffer.zero
  rxRest : l.rx.out = ConnectionBuffer.zero ∧ l.rx.fdsIn = ConnectionBuffer.zero
    ∧ l.rx.fdsOut = ConnectionBuffer.zero

theorem zero_size : ConnectionBuffer.zero.size = 0 := rfl

theorem Link.inv_init : Link.init.Inv where
  stream := rfl
  txOut := by show ConnectionBuffer.zero.size ≤ _; rw [zero_size]; omega
  rxInp := by show ConnectionBuffer.zero.size ≤ _; rw [zero_size]; omega
  flush := fun h => absurd h (by show ¬ 0 < ConnectionBuffer.zero.size; rw [zero_size]; omega)
  plain := fun _ h => by cases h
  txRest := ⟨rfl, rfl, rfl⟩
  rxRest := ⟨rfl, rfl, rfl⟩

theorem Link.inv_put {l : Link} (h : l.Inv) (data : List UInt8) (results : List SendResult) :
    (l.step (.put data results)).Inv := by
  obtain ⟨hok, hfail, hsize, hflush, hinp, hfds⟩ := connectionPut_put l.tx data results h.txOut
  obtain ⟨hfo, hseg⟩ := connectionPut_noFds l.tx data results (by rw [h.txRest.2.2]; rfl)
  refine ⟨?_, hsize, h.rxInp, hflush, ?_, ?_, h.rxRest⟩
  · show (match (connectionPut l.tx data results).ret with
        | .ok _ => l.put ++ data | .error _ => l.put) = _
    simp only [Link.step, List.map_append, wireOf_bytes]
    cases hret : (connectionPut l.tx data results).ret with
    | error e =>
        simp only [h.stream, List.append_assoc]
        rw [hfail e hret]
    | ok n =>
        simp only [h.stream, List.append_assoc]
        rw [hok n hret]
  · intro x hx
    rcases List.mem_append.mp hx with hx | hx
    · exact h.plain x hx
    · exact wireOf_plain hseg x hx
  · exact ⟨hinp.trans h.txRest.1, hfds.trans h.txRest.2.1, hfo.trans h.txRest.2.2⟩

theorem Link.inv_flush {l : Link} (h : l.Inv) (results : List SendResult) :
    (l.step (.flush results)).Inv := by
  obtain ⟨hbytes, hsize, hinp, hfds, hok, hfail⟩ :=
    connectionFlush_flushed l.tx results h.txOut h.flush
  obtain ⟨hfo, hseg⟩ := connectionFlush_noFds l.tx results (by rw [h.txRest.2.2]; rfl)
  refine ⟨?_, Nat.le_trans hsize h.txOut, h.rxInp, fun hpos => ?_, ?_, ?_, h.rxRest⟩
  · show l.put = _
    simp only [Link.step, List.map_append, wireOf_bytes, h.stream, List.append_assoc]
    rw [hbytes]
    rfl
  · have hpos' : 0 < (connectionFlush l.tx results).conn.out.size := hpos
    cases hret : (connectionFlush l.tx results).ret with
    | error e => exact (hfail e hret).trans (h.flush (by omega))
    | ok n => have := hok n hret; omega
  · intro x hx
    rcases List.mem_append.mp hx with hx | hx
    · exact h.plain x hx
    · exact wireOf_plain hseg x hx
  · exact ⟨hinp.trans h.txRest.1, hfds.trans h.txRest.2.1, hfo.trans h.txRest.2.2⟩

/-- One `recvmsg` into a ring with room: nothing, or a non-empty stretch that fits. -/
theorem recvAnswer_plain (room : Nat) {w : Wire} (hplain : ∀ x ∈ w, x.2 = []) (o : RecvChoice) :
    (∃ e, recvAnswer room w o = .fail e) ∨
    ∃ k, k ≤ room ∧ k ≤ w.length
      ∧ recvAnswer room w o = .data ((w.take k).map Prod.fst) [] := by
  cases o with
  | fail e => exact Or.inl ⟨e, rfl⟩
  | take n =>
      by_cases hw : w = []
      · exact Or.inl ⟨EAGAIN, by simp [recvAnswer, hw]⟩
      · have hk := takenLen_le n (min room w.length)
        refine Or.inr ⟨takenLen n (min room w.length), by omega, by omega, ?_⟩
        simp only [recvAnswer, if_neg hw]
        rw [wireCmsgs_plain fun x hx => hplain x (List.mem_of_mem_take hx)]

theorem recvmsgLoop_plain (room : Nat) {w : Wire} (hplain : ∀ x ∈ w, x.2 = [])
    (choices : List RecvChoice) :
    (∃ e, recvmsgLoop (choices.map (recvAnswer room w)) = .fail e) ∨
    ∃ k, k ≤ room ∧ k ≤ w.length ∧
      recvmsgLoop (choices.map (recvAnswer room w)) = .data ((w.take k).map Prod.fst) [] := by
  induction choices with
  | nil => exact Or.inl ⟨EAGAIN, rfl⟩
  | cons o choices ih =>
      rw [List.map_cons]
      rcases recvAnswer_plain room hplain o with ⟨e, h⟩ | ⟨k, hk, hk', h⟩
      · rw [h]
        unfold recvmsgLoop
        split_ifs
        · exact ih
        · exact Or.inl ⟨e, rfl⟩
      · exact Or.inr ⟨k, hk, hk', by rw [h]; rfl⟩

theorem Link.inv_read {l : Link} (h : l.Inv) (choices : List RecvChoice) :
    (l.step (.read choices)).Inv := by
  set room := CONNECTION_BUFFER_SIZE - connectionBufferSize l.rx.inp with hroom
  have hroom' : room = CONNECTION_BUFFER_SIZE - l.rx.inp.size := hroom
  have hstep : l.step (.read choices) =
      { l with rx := (connectionRead l.rx (choices.map (recvAnswer room l.wire))).2.1,
               wire := if room = 0 then l.wire
                 else wireRest l.wire (recvmsgLoop (choices.map (recvAnswer room l.wire))) } := rfl
  rw [hstep]
  by_cases hfull : room = 0
  · rw [if_pos hfull, connectionRead_full l.rx _ (by omega)]
    exact h
  · rw [if_neg hfull]
    have hlt : l.rx.inp.size < CONNECTION_BUFFER_SIZE := by omega
    rcases recvmsgLoop_plain room h.plain choices with ⟨e, hrecv⟩ | ⟨k, hk, hkw, hrecv⟩
    · rw [connectionRead_fail l.rx hlt hrecv, hrecv]
      exact h
    · have hlen : ((l.wire.take k).map Prod.fst).length = k := by
        rw [List.length_map, List.length_take]; omega
      have hfit : l.rx.inp.size + ((l.wire.take k).map Prod.fst).length
          ≤ CONNECTION_BUFFER_SIZE := by omega
      rw [connectionRead_data l.rx hlt hrecv (by omega), hrecv]
      refine ⟨?_, h.txOut, ?_, h.flush, fun x hx => h.plain x (List.mem_of_mem_drop hx), h.txRest,
        h.rxRest⟩
      · show l.put = l.got ++ ((l.rx.inp.push _).toList
          ++ ((l.wire.drop ((l.wire.take k).map Prod.fst).length).map Prod.fst ++ _))
        rw [toList_push size_dvd size_lt _ hfit, hlen, h.stream]
        have hsplit : l.wire.map Prod.fst
            = (l.wire.take k).map Prod.fst ++ (l.wire.drop k).map Prod.fst := by
          rw [← List.map_append, List.take_append_drop]
        rw [hsplit]
        simp only [List.append_assoc]
      · show (l.rx.inp.push _).size ≤ _
        rw [size_push size_lt _ hfit]
        exact hfit

theorem Link.inv_get {l : Link} (h : l.Inv) (count : Nat) : (l.get count).Inv := by
  by_cases hc : count ≤ l.rx.inp.size
  · have hget : l.get count = { l with rx := { l.rx with inp := l.rx.inp.skip count },
                                       got := l.got ++ l.rx.inp.toList.take count } := by
      unfold Link.get
      rw [connectionGet_ok l.rx hc]
    rw [hget]
    refine ⟨?_, h.txOut, ?_, h.flush, h.plain, h.txRest, h.rxRest⟩
    · show l.put = (l.got ++ l.rx.inp.toList.take count) ++ ((l.rx.inp.skip count).toList ++ _)
      rw [toList_skip size_dvd _ hc, h.stream, List.append_assoc,
        ← List.append_assoc (l.rx.inp.toList.take count), List.take_append_drop]
    · show (l.rx.inp.skip count).size ≤ _
      rw [size_skip _ hc]
      have := h.rxInp
      omega
  · have hget : l.get count = l := by
      unfold Link.get
      rw [connectionGet_short l.rx (by omega)]
    rw [hget]
    exact h

theorem Link.getRestore_eq (l : Link) (count : Nat) : l.step (.getRestore count) = l := by
  by_cases hc : count ≤ l.rx.inp.size
  · have hrx := connectionRestore_skip l.rx count
    have hlen : (l.rx.inp.toList.take count).length = count := by
      rw [List.length_take, toList_length]; omega
    simp only [Link.step, Link.get, connectionGet_ok l.rx hc, hrx, List.length_append, hlen,
      Nat.add_sub_cancel, List.take_left']
  · simp only [Link.step, Link.get, connectionGet_short l.rx (show l.rx.inp.size < count by omega)]

theorem Link.inv_step (l : Link) (op : LinkOp) (h : l.Inv) : (l.step op).Inv := by
  cases op with
  | put data results => exact Link.inv_put h data results
  | flush results => exact Link.inv_flush h results
  | read choices => exact Link.inv_read h choices
  | get count => exact Link.inv_get h count
  | getRestore count => rw [Link.getRestore_eq]; exact h

theorem Link.inv_run (ops : List LinkOp) : (Link.run ops).Inv :=
  Run.run_invariant Link.inv_step Link.inv_init ops

theorem Link.rings_size {l : Link} (h : l.Inv) :
    ∀ b ∈ l.rings, b.size ≤ CONNECTION_BUFFER_SIZE := by
  have hz : ConnectionBuffer.zero.size ≤ CONNECTION_BUFFER_SIZE := by rw [zero_size]; omega
  intro b hb
  simp only [Link.rings, h.txRest.1, h.txRest.2.1, h.txRest.2.2, h.rxRest.1, h.rxRest.2.1,
    h.rxRest.2.2, List.mem_cons, List.not_mem_nil, or_false] at hb
  rcases hb with rfl | rfl | rfl | rfl | rfl | rfl | rfl | rfl
  all_goals first | exact hz | exact h.txOut | exact h.rxInp

/-- **A connection is a FIFO byte stream.** In every state of a link: the bytes got are a
prefix of the bytes put; no ring is over-full, and its I/O vectors (asked for only while there
is something to send, or room to receive) are exactly its stored and its free cells; bytes to
send are always marked for flushing; a failed get changes nothing; a failed put sends or keeps
the bytes that were there and none of its own. -/
theorem link_fifo (ops : List LinkOp) :
    let l := Link.run ops
    l.got <+: l.put
    ∧ (∀ b ∈ l.rings, b.size ≤ CONNECTION_BUFFER_SIZE
        ∧ (storedCells b ++ freeCells b).Perm (List.range CONNECTION_BUFFER_SIZE)
        ∧ (0 < b.size → iovCells (connectionBufferGetIov b) = storedCells b
            ∧ iovBytes b.data (connectionBufferGetIov b) = b.toList)
        ∧ (b.size < CONNECTION_BUFFER_SIZE →
            iovCells (connectionBufferPutIov b) = freeCells b))
    ∧ (∀ c ∈ [l.tx, l.rx], 0 < c.out.size → c.wantFlush = true)
    ∧ (∀ count e, (connectionGet l.rx count).1 = .error e → (connectionGet l.rx count).2 = l.rx)
    ∧ ∀ data results e, (connectionPut l.tx data results).ret = .error e →
        sentBytes (connectionPut l.tx data results).sent
          ++ (connectionPut l.tx data results).conn.out.toList = l.tx.out.toList := by
  intro l
  have h : l.Inv := Link.inv_run ops
  refine ⟨⟨_, h.stream.symm⟩, fun b hb => ?_, fun c hc hpos => ?_, fun count e herr => ?_,
    fun data results e herr => (connectionPut_put l.tx data results h.txOut).fail e herr⟩
  · have hsize := Link.rings_size h b hb
    exact ⟨hsize, storedCells_append_freeCells b hsize,
      fun h0 => ⟨iovCells_getIov_eq b h0 hsize, iovBytes_getIov b h0 hsize⟩,
      fun hlt => iovCells_putIov_eq b hlt⟩
  · simp only [List.mem_cons, List.not_mem_nil, or_false] at hc
    rcases hc with rfl | rfl
    · exact h.flush hpos
    · rw [h.rxRest.1, zero_size] at hpos
      omega
  · by_cases hc : count ≤ l.rx.inp.size
    · rw [connectionGet_ok l.rx hc] at herr
      cases herr
    · rw [connectionGet_short l.rx (by omega)]

end DdeSeatd
