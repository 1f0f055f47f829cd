import DdeSeatd.Basic
import DdeSeatd.Lib.RingBuffer

set_option autoImplicit false

/-! # Connections (`common/connection.c`)

A connection is four byte rings of 256 cells: the bytes read and the bytes to send, and the
file descriptors received and to send, the latter stored as the bytes of their `int`s. The
definitions below follow the source function by function; what the kernel answers is an
argument:

* `connectionFlush` gets the answers of the successive `sendmsg` calls it makes. A list that
  is used up means that the socket takes no more for now (`EAGAIN`);
* `connectionRead` gets the answers of the successive `recvmsg` calls. An empty list means
  that there is nothing to read (`EAGAIN`).

The socket itself (`connection.fd`) is left implicit. `RingBuffer` gives the rings their
meaning; the lemmas at the end of each section say what the operations do to the stored
bytes, so that later files never look at a counter.
-/

namespace DdeSeatd

open RingBuffer

abbrev CONNECTION_BUFFER_SIZE : Nat := 256

/-- `CONNECTION_BUFFER_SIZE / sizeof(int)`. -/
abbrev MAX_FDS : Nat := CONNECTION_BUFFER_SIZE / 4

instance : NeZero CONNECTION_BUFFER_SIZE := ⟨by decide⟩

abbrev ConnectionBuffer := RingBuffer UInt8 32 CONNECTION_BUFFER_SIZE

/-! ## The ring -/

def connectionBufferMask (idx : BitVec 32) : BitVec 32 :=
  idx &&& BitVec.ofNat 32 (CONNECTION_BUFFER_SIZE - 1)

def connectionBufferSize (b : ConnectionBuffer) : Nat := (b.head - b.tail).toNat

def connectionBufferConsume (b : ConnectionBuffer) (size : Nat) : ConnectionBuffer :=
  { b with tail := b.tail + BitVec.ofNat 32 size }

def connectionBufferRestore (b : ConnectionBuffer) (size : Nat) : ConnectionBuffer :=
  { b with tail := b.tail - BitVec.ofNat 32 size }

/-- A block of the ring's array: its first index and its length. -/
structure Iovec where
  base : Nat
  len : Nat
  deriving DecidableEq, Repr

/-- The blocks to send from. -/
def connectionBufferGetIov (b : ConnectionBuffer) : List Iovec :=
  let head := (connectionBufferMask b.head).toNat
  let tail := (connectionBufferMask b.tail).toNat
  if tail < head then [⟨tail, head - tail⟩]
  else if head = 0 then [⟨tail, CONNECTION_BUFFER_SIZE - tail⟩]
  else [⟨tail, CONNECTION_BUFFER_SIZE - tail⟩, ⟨0, head⟩]

/-- The blocks to receive into. -/
def connectionBufferPutIov (b : ConnectionBuffer) : List Iovec :=
  let head := (connectionBufferMask b.head).toNat
  let tail := (connectionBufferMask b.tail).toNat
  if head < tail then [⟨head, tail - head⟩]
  else if tail = 0 then [⟨head, CONNECTION_BUFFER_SIZE - head⟩]
  else [⟨head, CONNECTION_BUFFER_SIZE - head⟩, ⟨0, tail⟩]

/-- Copy the `count` oldest bytes into a linear buffer. -/
def connectionBufferCopy (b : ConnectionBuffer) (count : Nat) : List UInt8 :=
  let tail := (connectionBufferMask b.tail).toNat
  if tail + count ≤ CONNECTION_BUFFER_SIZE then window b.data tail count
  else
    let size := CONNECTION_BUFFER_SIZE - tail
    window b.data tail size ++ window b.data 0 (count - size)

/-- Copy a linear buffer into the ring. -/
def connectionBufferPut (b : ConnectionBuffer) (data : List UInt8) :
    Except Nat ConnectionBuffer :=
  if data.length > CONNECTION_BUFFER_SIZE then .error EOVERFLOW
  else
    let head := (connectionBufferMask b.head).toNat
    let cells :=
      if head + data.length ≤ CONNECTION_BUFFER_SIZE then blit b.data head data
      else
        let size := CONNECTION_BUFFER_SIZE - head
        blit (blit b.data head (data.take size)) 0 (data.drop size)
    .ok { b with data := cells, head := b.head + BitVec.ofNat 32 data.length }

/-! ## I/O vectors -/

/-- The bytes `sendmsg` finds in the blocks, in order. -/
def iovBytes (data : Fin CONNECTION_BUFFER_SIZE → UInt8) (iov : List Iovec) : List UInt8 :=
  iov.flatMap fun v => window data v.base v.len

/-- The cells of the blocks, in order. -/
def iovCells (iov : List Iovec) : List Nat :=
  iov.flatMap fun v => (List.range v.len).map (v.base + ·)

/-- The cells of the array after `recvmsg` has filled the blocks in order. -/
def iovFill (data : Fin CONNECTION_BUFFER_SIZE → UInt8) :
    List Iovec → List UInt8 → Fin CONNECTION_BUFFER_SIZE → UInt8
  | [], _ => data
  | v :: iov, bytes => iovFill (blit data v.base (bytes.take v.len)) iov (bytes.drop v.len)

def iovLen (iov : List Iovec) : Nat := (iov.map Iovec.len).sum

/-! ## File descriptors -/

/-- The `int`s stored in a byte sequence. -/
def bytesFds : List UInt8 → List Int
  | a :: b :: c :: d :: rest => bytesInt [a, b, c, d] :: bytesFds rest
  | _ => []

/-- Close all fds in the ring: the fds closed and the ring that remains. -/
def connectionBufferCloseFds (b : ConnectionBuffer) : List Int × ConnectionBuffer :=
  let size := connectionBufferSize b
  if size = 0 then ([], b)
  else
    let fds := connectionBufferCopy b size
    let count := size / 4
    (bytesFds (fds.take (count * 4)), connectionBufferConsume b (count * 4))

/-- The control data of a message that carries the ring's fds. -/
def buildCmsg (b : ConnectionBuffer) : List UInt8 :=
  let size := min (connectionBufferSize b) (MAX_FDS * 4)
  if size = 0 then [] else connectionBufferCopy b size

/-- A control message: fds (`SCM_RIGHTS`) as bytes, or something else. -/
inductive Cmsg where
  | rights (data : List UInt8)
  | other
  deriving DecidableEq, Repr

/-- The loop of `decode_cmsg`: the result, the ring and the fds closed for lack of room. -/
def decodeCmsgLoop (b : ConnectionBuffer) (overflow : Bool) (closed : List Int) :
    List Cmsg → Except Nat Unit × ConnectionBuffer × List Int
  | [] => (if overflow then .error EOVERFLOW else .ok (), b, closed)
  | .other :: rest => decodeCmsgLoop b overflow closed rest
  | .rights data :: rest =>
      let max := CONNECTION_BUFFER_SIZE - connectionBufferSize b
      if data.length > max || overflow then
        decodeCmsgLoop b true (closed ++ bytesFds data) rest
      else
        match connectionBufferPut b data with
        | .error e => (.error e, b, closed)
        | .ok b' => decodeCmsgLoop b' overflow closed rest

def decodeCmsg (b : ConnectionBuffer) (cmsgs : List Cmsg) :
    Except Nat Unit × ConnectionBuffer × List Int :=
  decodeCmsgLoop b false [] cmsgs

/-! ## The connection -/

structure Connection where
  inp : ConnectionBuffer
  out : ConnectionBuffer
  fdsIn : ConnectionBuffer
  fdsOut : ConnectionBuffer
  wantFlush : Bool

/-- A zero-initialised ring. -/
def ConnectionBuffer.zero : ConnectionBuffer := ⟨0, 0, fun _ => 0⟩

/-- A zero-initialised connection. -/
def Connection.zero : Connection where
  inp := ConnectionBuffer.zero
  out := ConnectionBuffer.zero
  fdsIn := ConnectionBuffer.zero
  fdsOut := ConnectionBuffer.zero
  wantFlush := false

instance : Inhabited Connection := ⟨Connection.zero⟩

/-- The answer of one `sendmsg`: an error, or how many bytes it took. -/
inductive SendResult where
  | fail (errno : Nat)
  | sent (len : Nat)
  deriving DecidableEq, Repr

/-- The answer of one `recvmsg`. -/
inductive RecvResult where
  | fail (errno : Nat)
  | data (bytes : List UInt8) (cmsgs : List Cmsg)
  deriving DecidableEq, Repr

/-- What one successful `sendmsg` handed to the kernel. -/
structure Segment where
  bytes : List UInt8
  fds : List Int
  deriving DecidableEq, Repr

/-- The outcome of a call that may send: its result (`errno` or the value returned), the
connection, the messages sent and the fds closed after they were sent. -/
structure SendOut where
  ret : Except Nat Nat
  conn : Connection
  sent : List Segment
  closed : List Int

/-- The number of bytes a `sendmsg` answer stands for: a stream socket takes at least one
byte of a non-empty message, and never more than it is offered. -/
def takenLen (len total : Nat) : Nat := min (max len 1) total

/-- The `while` loop of `connection_flush`. `tail` is the value of `out.tail` at entry. -/
def connectionFlushLoop (tail : BitVec 32) (c : Connection) (sent : List Segment)
    (closed : List Int) : List SendResult → SendOut
  | [] =>
      if connectionBufferSize c.out = 0 then
        ⟨.ok (c.out.head - tail).toNat, { c with wantFlush := false }, sent, closed⟩
      else ⟨.error EAGAIN, c, sent, closed⟩
  | r :: results =>
      if connectionBufferSize c.out = 0 then
        ⟨.ok (c.out.head - tail).toNat, { c with wantFlush := false }, sent, closed⟩
      else
        match r with
        | .fail e =>
            if e = EINTR then connectionFlushLoop tail c sent closed results
            else ⟨.error e, c, sent, closed⟩
        | .sent n =>
            let bytes := iovBytes c.out.data (connectionBufferGetIov c.out)
            let len := takenLen n bytes.length
            let fds := connectionBufferCloseFds c.fdsOut
            connectionFlushLoop tail
              { c with fdsOut := fds.2, out := connectionBufferConsume c.out len }
              (sent ++ [⟨bytes.take len, bytesFds (buildCmsg c.fdsOut)⟩])
              (closed ++ fds.1) results

def connectionFlush (c : Connection) (results : List SendResult) : SendOut :=
  if !c.wantFlush then ⟨.ok 0, c, [], []⟩
  else connectionFlushLoop c.out.tail c [] [] results

/-- The last part of `connection_put`, once there is room. -/
def connectionPutTail (o : SendOut) (data : List UInt8) : SendOut :=
  match connectionBufferPut o.conn.out data with
  | .error e => { o with ret := .error e }
  | .ok out => { o with ret := .ok 0, conn := { o.conn with out := out, wantFlush := true } }

def connectionPut (c : Connection) (data : List UInt8) (results : List SendResult) : SendOut :=
  if connectionBufferSize c.out + data.length > CONNECTION_BUFFER_SIZE then
    let o := connectionFlush { c with wantFlush := true } results
    match o.ret with
    | .error _ => o
    | .ok _ => connectionPutTail o data
  else connectionPutTail ⟨.ok 0, c, [], []⟩ data

def connectionPutFd (c : Connection) (fd : Int) : Except Nat Connection :=
  if connectionBufferSize c.fdsOut ≥ MAX_FDS * 4 then .error EOVERFLOW
  else (connectionBufferPut c.fdsOut (intBytes fd)).map fun b => { c with fdsOut := b }

/-- The `do` loop of `connection_read`: retry while `recvmsg` is interrupted. -/
def recvmsgLoop : List RecvResult → RecvResult
  | [] => .fail EAGAIN
  | .fail e :: results => if e = EINTR then recvmsgLoop results else .fail e
  | .data bytes cmsgs :: _ => .data bytes cmsgs

/-- The result, the connection and the fds closed for lack of room. -/
def connectionRead (c : Connection) (results : List RecvResult) :
    Except Nat Nat × Connection × List Int :=
  if connectionBufferSize c.inp ≥ CONNECTION_BUFFER_SIZE then (.error EOVERFLOW, c, [])
  else
    let iov := connectionBufferPutIov c.inp
    match recvmsgLoop results with
    | .fail e => (.error e, c, [])
    | .data bytes cmsgs =>
        -- `recvmsg` fills the blocks before the control messages are looked at
        let bytes := bytes.take (iovLen iov)
        let filled := { c.inp with data := iovFill c.inp.data iov bytes }
        match decodeCmsg c.fdsIn cmsgs with
        | (.error e, fdsIn, closed) => (.error e, { c with inp := filled, fdsIn := fdsIn }, closed)
        | (.ok _, fdsIn, closed) =>
            let inp := { filled with head := filled.head + BitVec.ofNat 32 bytes.length }
            (.ok (connectionBufferSize inp), { c with inp := inp, fdsIn := fdsIn }, closed)

def connectionGet (c : Connection) (count : Nat) : Except Nat (List UInt8) × Connection :=
  if count > connectionBufferSize c.inp then (.error EAGAIN, c)
  else (.ok (connectionBufferCopy c.inp count),
    { c with inp := connectionBufferConsume c.inp count })

def connectionGetFd (c : Connection) : Except Nat Int × Connection :=
  if 4 > connectionBufferSize c.fdsIn then (.error EAGAIN, c)
  else (.ok (bytesInt (connectionBufferCopy c.fdsIn 4)),
    { c with fdsIn := connectionBufferConsume c.fdsIn 4 })

/-- The fds closed, and the connection. -/
def connectionCloseFds (c : Connection) : List Int × Connection :=
  let i := connectionBufferCloseFds c.fdsIn
  let o := connectionBufferCloseFds c.fdsOut
  (i.1 ++ o.1, { c with fdsIn := i.2, fdsOut := o.2 })

def connectionPending (c : Connection) : Nat := connectionBufferSize c.inp

def connectionRestore (c : Connection) (count : Nat) : Connection :=
  { c with inp := connectionBufferRestore c.inp count }

/-! ## What the operations do to the stored bytes -/

theorem size_dvd : CONNECTION_BUFFER_SIZE ∣ 2 ^ 32 := by decide
theorem size_lt : CONNECTION_BUFFER_SIZE < 2 ^ 32 := by decide

theorem mask_toNat (idx : BitVec 32) :
    (connectionBufferMask idx).toNat = idx.toNat % CONNECTION_BUFFER_SIZE := by
  unfold connectionBufferMask
  rw [BitVec.toNat_and, BitVec.toNat_ofNat]
  exact Nat.and_two_pow_sub_one_eq_mod idx.toNat 8

theorem mask_lt (idx : BitVec 32) : (connectionBufferMask idx).toNat < CONNECTION_BUFFER_SIZE := by
  rw [mask_toNat]; exact Nat.mod_lt _ (by decide)

theorem mask_head (b : ConnectionBuffer) : (connectionBufferMask b.head).toNat
    = ((connectionBufferMask b.tail).toNat + b.size) % CONNECTION_BUFFER_SIZE := by
  rw [mask_toNat, mask_toNat, head_mod size_dvd b, Nat.mod_add_mod]

theorem toList_eq_window_mask (b : ConnectionBuffer) :
    b.toList = window b.data (connectionBufferMask b.tail).toNat b.size := by
  rw [mask_toNat]
  exact window_congr _ (Nat.mod_mod _ _).symm _

theorem store_mask (b : ConnectionBuffer) (data : List UInt8) :
    store b.data b.head.toNat data = store b.data (connectionBufferMask b.head).toNat data := by
  funext i
  unfold store
  rw [mask_toNat, Nat.mod_mod]

theorem connectionBufferPut_ok (b : ConnectionBuffer) {data : List UInt8}
    (h : data.length ≤ CONNECTION_BUFFER_SIZE) :
    connectionBufferPut b data = .ok (b.push data) := by
  have hlt := mask_lt b.head
  unfold connectionBufferPut push
  rw [if_neg (by omega), store_mask]
  dsimp only
  by_cases hfit : (connectionBufferMask b.head).toNat + data.length ≤ CONNECTION_BUFFER_SIZE
  · rw [if_pos hfit, store_eq_blit _ _ hlt hfit]
  · rw [if_neg hfit, store_eq_blit_blit _ _ hlt h]

theorem connectionBufferCopy_eq (b : ConnectionBuffer) {count : Nat} (h : count ≤ b.size) :
    connectionBufferCopy b count = b.toList.take count := by
  have hlt := mask_lt b.tail
  rw [toList_eq_window_mask, window_take _ _ h]
  unfold connectionBufferCopy
  dsimp only
  set t := (connectionBufferMask b.tail).toNat
  by_cases hfit : t + count ≤ CONNECTION_BUFFER_SIZE
  · rw [if_pos hfit]
  · have hrest : count - (CONNECTION_BUFFER_SIZE - t) = t + count - CONNECTION_BUFFER_SIZE := by
      omega
    have haround : window b.data t count = window b.data t (CONNECTION_BUFFER_SIZE - t)
        ++ window b.data 0 (t + count - CONNECTION_BUFFER_SIZE) :=
      window_around b.data hlt (by omega)
    rw [if_neg hfit, hrest, haround]

/-- The two shapes of `connection_buffer_get_iov` on a ring that is not empty. -/
theorem getIov_cases (b : ConnectionBuffer) (h0 : 0 < b.size)
    (hb : b.size ≤ CONNECTION_BUFFER_SIZE) :
    let t := (connectionBufferMask b.tail).toNat
    (t + b.size ≤ CONNECTION_BUFFER_SIZE ∧ connectionBufferGetIov b = [⟨t, b.size⟩]) ∨
    (CONNECTION_BUFFER_SIZE < t + b.size ∧ connectionBufferGetIov b
      = [⟨t, CONNECTION_BUFFER_SIZE - t⟩, ⟨0, t + b.size - CONNECTION_BUFFER_SIZE⟩]) := by
  intro t
  have hlt : t < CONNECTION_BUFFER_SIZE := mask_lt b.tail
  have hhead : (connectionBufferMask b.head).toNat = (t + b.size) % CONNECTION_BUFFER_SIZE :=
    mask_head b
  unfold connectionBufferGetIov
  dsimp only
  rw [hhead]
  rcases Nat.lt_trichotomy (t + b.size) CONNECTION_BUFFER_SIZE with h | h | h
  · refine Or.inl ⟨by omega, ?_⟩
    rw [Nat.mod_eq_of_lt h, if_pos (by omega), Nat.add_sub_cancel_left]
  · refine Or.inl ⟨by omega, ?_⟩
    have hlen : CONNECTION_BUFFER_SIZE - t = b.size := by omega
    rw [h, Nat.mod_self, if_neg (by omega), if_pos rfl]
    show [Iovec.mk t (CONNECTION_BUFFER_SIZE - t)] = _
    rw [hlen]
  · refine Or.inr ⟨h, ?_⟩
    rw [mod_of_wrap (by omega) (by omega), if_neg (by omega), if_neg (by omega)]


/-- The two shapes of `connection_buffer_put_iov` on a ring that is not full. -/
theorem putIov_cases (b : ConnectionBuffer) (hb : b.size < CONNECTION_BUFFER_SIZE) :
    let h := (connectionBufferMask b.head).toNat
    let free := CONNECTION_BUFFER_SIZE - b.size
    (h + free ≤ CONNECTION_BUFFER_SIZE ∧ connectionBufferPutIov b = [⟨h, free⟩]) ∨
    (CONNECTION_BUFFER_SIZE < h + free ∧ connectionBufferPutIov b
      = [⟨h, CONNECTION_BUFFER_SIZE - h⟩, ⟨0, h + free - CONNECTION_BUFFER_SIZE⟩]) := by
  intro h free
  have hlt : (connectionBufferMask b.tail).toNat < CONNECTION_BUFFER_SIZE := mask_lt b.tail
  have hhead : h = ((connectionBufferMask b.tail).toNat + b.size) % CONNECTION_BUFFER_SIZE :=
    mask_head b
  show (_ ∧ _) ∨ (_ ∧ _)
  unfold connectionBufferPutIov
  dsimp only
  change (_ ∧ (if h < _ then [Iovec.mk h _] else if _ then [Iovec.mk h _] else [Iovec.mk h _, _]) = _) ∨ _
  set t := (connectionBufferMask b.tail).toNat
  by_cases hend : t + b.size < CONNECTION_BUFFER_SIZE
  · rw [Nat.mod_eq_of_lt hend] at hhead
    by_cases hz : t = 0
    · refine Or.inl ⟨by omega, ?_⟩
      rw [if_neg (by omega), if_pos hz]
      have : CONNECTION_BUFFER_SIZE - h = free := by omega
      rw [this]
    · refine Or.inr ⟨by omega, ?_⟩
      rw [if_neg (by omega), if_neg hz]
      have : t = h + free - CONNECTION_BUFFER_SIZE := by omega
      rw [← this]
  · rw [mod_of_wrap (by omega) (by omega)] at hhead
    refine Or.inl ⟨by omega, ?_⟩
    rw [if_pos (by omega)]
    have : t - h = free := by omega
    rw [this]


theorem iovBytes_getIov (b : ConnectionBuffer) (h0 : 0 < b.size)
    (hb : b.size ≤ CONNECTION_BUFFER_SIZE) :
    iovBytes b.data (connectionBufferGetIov b) = b.toList := by
  rw [toList_eq_window_mask]
  rcases getIov_cases b h0 hb with ⟨-, h⟩ | ⟨hw, h⟩
  · simp [h, iovBytes]
  · rw [h, window_around _ (mask_lt b.tail) (by omega)]
    simp [iovBytes]

theorem iovCells_getIov (b : ConnectionBuffer) (h0 : 0 < b.size)
    (hb : b.size ≤ CONNECTION_BUFFER_SIZE) :
    iovCells (connectionBufferGetIov b) = (List.range b.size).map fun i =>
      ((connectionBufferMask b.tail).toNat + i) % CONNECTION_BUFFER_SIZE := by
  rcases getIov_cases b h0 hb with ⟨hw, h⟩ | ⟨hw, h⟩
  · rw [h, cells_inside hw]
    simp [iovCells]
  · rw [h, cells_around (mask_lt b.tail) hb (by omega)]
    simp [iovCells]

theorem iovCells_putIov (b : ConnectionBuffer) (hb : b.size < CONNECTION_BUFFER_SIZE) :
    iovCells (connectionBufferPutIov b) = (List.range (CONNECTION_BUFFER_SIZE - b.size)).map
      fun i => ((connectionBufferMask b.head).toNat + i) % CONNECTION_BUFFER_SIZE := by
  rcases putIov_cases b hb with ⟨hw, h⟩ | ⟨hw, h⟩
  · rw [h, cells_inside hw]
    simp [iovCells]
  · rw [h, cells_around (mask_lt b.head) (by omega) (by omega)]
    simp [iovCells]

theorem iovLen_putIov (b : ConnectionBuffer) (hb : b.size < CONNECTION_BUFFER_SIZE) :
    iovLen (connectionBufferPutIov b) = CONNECTION_BUFFER_SIZE - b.size := by
  have hlt := mask_lt b.head
  rcases putIov_cases b hb with ⟨hw, h⟩ | ⟨hw, h⟩
  · simp [h, iovLen]
  · rw [h]
    simp only [iovLen, List.map_cons, List.map_nil, List.sum_cons, List.sum_nil]
    omega

/-- `recvmsg` into the blocks of `connection_buffer_put_iov` stores behind the head. -/
theorem iovFill_putIov (b : ConnectionBuffer) (hb : b.size < CONNECTION_BUFFER_SIZE)
    {bytes : List UInt8} (hlen : bytes.length ≤ CONNECTION_BUFFER_SIZE - b.size) :
    iovFill b.data (connectionBufferPutIov b) bytes = store b.data b.head.toNat bytes := by
  have hlt := mask_lt b.head
  rw [store_mask]
  rcases putIov_cases b hb with ⟨hw, h⟩ | ⟨hw, h⟩
  · rw [h, store_eq_blit _ _ hlt (by omega)]
    simp only [iovFill]
    rw [List.take_of_length_le hlen]
  · rw [h, store_eq_blit_blit _ _ hlt (by omega)]
    simp only [iovFill]
    have hdrop : (bytes.drop (CONNECTION_BUFFER_SIZE - (connectionBufferMask b.head).toNat)).length
        ≤ (connectionBufferMask b.head).toNat + (CONNECTION_BUFFER_SIZE - b.size)
          - CONNECTION_BUFFER_SIZE := by
      rw [List.length_drop]; omega
    rw [List.take_of_length_le hdrop]

/-! ### Flushing and putting -/

/-- The bytes of a sequence of messages. -/
def sentBytes (sent : List Segment) : List UInt8 := sent.flatMap Segment.bytes

@[simp] theorem sentBytes_nil : sentBytes [] = [] := rfl

@[simp] theorem sentBytes_append (a b : List Segment) :
    sentBytes (a ++ b) = sentBytes a ++ sentBytes b := by
  simp [sentBytes]

/-- What `connection_flush` may do to a connection: it moves bytes from the front of the out
ring to the socket, and clears `want_flush` only once the ring is empty. -/
structure Flushed (c : Connection) (sent : List Segment) (o : SendOut) : Prop where
  bytes : sentBytes o.sent ++ o.conn.out.toList = sentBytes sent ++ c.out.toList
  size : o.conn.out.size ≤ c.out.size
  inp : o.conn.inp = c.inp
  fdsIn : o.conn.fdsIn = c.fdsIn
  ok : ∀ n, o.ret = .ok n → o.conn.out.size = 0
  fail : ∀ e, o.ret = .error e → o.conn.wantFlush = c.wantFlush

theorem takenLen_le (len total : Nat) : takenLen len total ≤ total := by
  unfold takenLen; omega

theorem connectionFlushLoop_flushed (tail : BitVec 32) (results : List SendResult) :
    ∀ (c : Connection) (sent : List Segment) (closed : List Int),
      c.out.size ≤ CONNECTION_BUFFER_SIZE →
      Flushed c sent (connectionFlushLoop tail c sent closed results) := by
  induction results with
  | nil =>
      intro c sent closed _
      unfold connectionFlushLoop
      by_cases h0 : connectionBufferSize c.out = 0
      · rw [if_pos h0]
        exact ⟨rfl, Nat.le_refl _, rfl, rfl, fun _ _ => h0, fun _ h => by cases h⟩
      · rw [if_neg h0]
        exact ⟨rfl, Nat.le_refl _, rfl, rfl, fun _ h => (by cases h), fun _ _ => rfl⟩
  | cons r results ih =>
      intro c sent closed hb
      unfold connectionFlushLoop
      by_cases h0 : connectionBufferSize c.out = 0
      · rw [if_pos h0]
        exact ⟨rfl, Nat.le_refl _, rfl, rfl, fun _ _ => h0, fun _ h => by cases h⟩
      · rw [if_neg h0]
        cases r with
        | fail e =>
            by_cases he : e = EINTR
            · simp only [if_pos he]
              exact ih c sent closed hb
            · simp only [if_neg he]
              exact ⟨rfl, Nat.le_refl _, rfl, rfl, fun _ h => (by cases h), fun _ _ => rfl⟩
        | sent n =>
            have hpos : 0 < c.out.size := Nat.pos_of_ne_zero h0
            have hiov := iovBytes_getIov c.out hpos hb
            have hlen : takenLen n c.out.size ≤ c.out.size := takenLen_le _ _
            simp only [hiov, toList_length]
            have hskip : (connectionBufferConsume c.out (takenLen n c.out.size)).size
                = c.out.size - takenLen n c.out.size := size_skip _ hlen
            obtain ⟨h1, h2, h3, h4, h5, h6⟩ := ih
              { c with fdsOut := (connectionBufferCloseFds c.fdsOut).2,
                       out := connectionBufferConsume c.out (takenLen n c.out.size) }
              (sent ++ [⟨c.out.toList.take (takenLen n c.out.size),
                bytesFds (buildCmsg c.fdsOut)⟩])
              (closed ++ (connectionBufferCloseFds c.fdsOut).1) (by rw [hskip]; omega)
            refine ⟨?_, by rw [hskip] at h2; omega, h3, h4, h5, h6⟩
            have hdrop : (connectionBufferConsume c.out (takenLen n c.out.size)).toList
                = c.out.toList.drop (takenLen n c.out.size) := toList_skip size_dvd _ hlen
            rw [h1, sentBytes_append, hdrop]
            simp [sentBytes, List.append_assoc, List.take_append_drop]

theorem connectionFlush_flushed (c : Connection) (results : List SendResult)
    (hb : c.out.size ≤ CONNECTION_BUFFER_SIZE) (hw : 0 < c.out.size → c.wantFlush = true) :
    Flushed c [] (connectionFlush c results) := by
  unfold connectionFlush
  by_cases h : c.wantFlush = true
  · rw [if_neg (by simp [h])]
    exact connectionFlushLoop_flushed _ results c [] [] hb
  · rw [if_pos (by simpa using h)]
    have h0 : c.out.size = 0 := by
      by_contra hne
      exact h (hw (Nat.pos_of_ne_zero hne))
    exact ⟨rfl, Nat.le_refl _, rfl, rfl, fun _ _ => h0, fun _ _ => rfl⟩

/-- What `connection_put` does to the bytes still to send: all of `data` is behind them, or
none of it. -/
structure Put (c : Connection) (data : List UInt8) (o : SendOut) : Prop where
  ok : ∀ n, o.ret = .ok n → sentBytes o.sent ++ o.conn.out.toList = c.out.toList ++ data
  fail : ∀ e, o.ret = .error e → sentBytes o.sent ++ o.conn.out.toList = c.out.toList
  size : o.conn.out.size ≤ CONNECTION_BUFFER_SIZE
  flush : 0 < o.conn.out.size → o.conn.wantFlush = true
  inp : o.conn.inp = c.inp
  fdsIn : o.conn.fdsIn = c.fdsIn

/-- The last part of `connection_put` behind a ring with room for the data, or an empty one. -/
theorem connectionPutTail_put {c : Connection} {o : SendOut} (data : List UInt8)
    (hbytes : sentBytes o.sent ++ o.conn.out.toList = c.out.toList)
    (hroom : o.conn.out.size = 0 ∨ o.conn.out.size + data.length ≤ CONNECTION_BUFFER_SIZE)
    (hinp : o.conn.inp = c.inp) (hfds : o.conn.fdsIn = c.fdsIn) :
    Put c data (connectionPutTail o data) := by
  unfold connectionPutTail
  by_cases hlen : data.length ≤ CONNECTION_BUFFER_SIZE
  · have hfit : o.conn.out.size + data.length ≤ CONNECTION_BUFFER_SIZE := by omega
    rw [connectionBufferPut_ok _ hlen]
    refine ⟨fun _ _ => ?_, fun _ h => (by cases h), ?_, fun _ => rfl, hinp, hfds⟩
    · show sentBytes o.sent ++ (o.conn.out.push data).toList = _
      rw [toList_push size_dvd size_lt _ hfit, ← List.append_assoc, hbytes]
    · show (o.conn.out.push data).size ≤ _
      rw [size_push size_lt _ hfit]
      exact hfit
  · have h0 : o.conn.out.size = 0 := by omega
    have herr : connectionBufferPut o.conn.out data = .error EOVERFLOW := by
      unfold connectionBufferPut
      rw [if_pos (by omega)]
    rw [herr]
    refine ⟨fun _ h => (by cases h), fun _ _ => hbytes, ?_, fun h => ?_, hinp, hfds⟩
    · show o.conn.out.size ≤ _
      omega
    · have : 0 < o.conn.out.size := h
      omega

theorem connectionPut_put (c : Connection) (data : List UInt8) (results : List SendResult)
    (hb : c.out.size ≤ CONNECTION_BUFFER_SIZE) : Put c data (connectionPut c data results) := by
  unfold connectionPut
  by_cases hover : connectionBufferSize c.out + data.length > CONNECTION_BUFFER_SIZE
  · rw [if_pos hover]
    obtain ⟨h1, h2, h3, h4, h5, h6⟩ :=
      connectionFlush_flushed { c with wantFlush := true } results hb (fun _ => rfl)
    dsimp only
    cases hret : (connectionFlush { c with wantFlush := true } results).ret with
    | error e =>
        refine ⟨fun n h => ?_, fun _ _ => by simpa using h1, Nat.le_trans h2 hb,
          fun _ => h6 e hret, h3, h4⟩
        rw [hret] at h
        cases h
    | ok n => exact connectionPutTail_put data (by simpa using h1) (Or.inl (h5 n hret)) h3 h4
  · rw [if_neg hover]
    have hsize : c.out.size + data.length ≤ CONNECTION_BUFFER_SIZE := by
      show connectionBufferSize c.out + data.length ≤ _
      omega
    exact connectionPutTail_put (o := ⟨.ok 0, c, [], []⟩) data rfl (Or.inr hsize) rfl rfl

/-! ### The in ring while sending -/

theorem connectionFlushLoop_inp (tail : BitVec 32) (results : List SendResult) :
    ∀ (c : Connection) (sent : List Segment) (closed : List Int),
      (connectionFlushLoop tail c sent closed results).conn.inp = c.inp := by
  induction results with
  | nil =>
      intro c sent closed
      unfold connectionFlushLoop
      split <;> rfl
  | cons r results ih =>
      intro c sent closed
      unfold connectionFlushLoop
      split
      · rfl
      · cases r with
        | fail e =>
            dsimp only
            split
            · exact ih c sent closed
            · rfl
        | sent n => exact ih _ _ _

theorem connectionFlush_inp (c : Connection) (results : List SendResult) :
    (connectionFlush c results).conn.inp = c.inp := by
  unfold connectionFlush
  split
  · rfl
  · exact connectionFlushLoop_inp _ results c [] []

theorem connectionPutTail_inp (o : SendOut) (data : List UInt8) :
    (connectionPutTail o data).conn.inp = o.conn.inp := by
  unfold connectionPutTail
  split <;> rfl

theorem connectionPut_inp (c : Connection) (data : List UInt8) (results : List SendResult) :
    (connectionPut c data results).conn.inp = c.inp := by
  unfold connectionPut
  split
  · dsimp only
    split
    · exact connectionFlush_inp _ results
    · exact (connectionPutTail_inp _ data).trans (connectionFlush_inp _ results)
  · exact connectionPutTail_inp _ data

/-! ### Connections without fds -/

theorem connectionBufferCloseFds_empty {b : ConnectionBuffer} (h : b.size = 0) :
    connectionBufferCloseFds b = ([], b) := by
  have h' : connectionBufferSize b = 0 := h
  unfold connectionBufferCloseFds
  dsimp only
  rw [if_pos h']

theorem buildCmsg_empty {b : ConnectionBuffer} (h : b.size = 0) : buildCmsg b = [] := by
  have h' : connectionBufferSize b = 0 := h
  unfold buildCmsg
  dsimp only
  rw [h', Nat.zero_min, if_pos rfl]

/-- No fd queued, no fd sent. -/
def NoFds (c : Connection) (o : SendOut) : Prop :=
  o.conn.fdsOut = c.fdsOut ∧ ∀ seg ∈ o.sent, seg.fds = []

theorem connectionFlushLoop_noFds (tail : BitVec 32) (results : List SendResult) :
    ∀ (c : Connection) (sent : List Segment) (closed : List Int),
      c.fdsOut.size = 0 → (∀ seg ∈ sent, seg.fds = []) →
      NoFds c (connectionFlushLoop tail c sent closed results) := by
  induction results with
  | nil =>
      intro c sent closed _ hs
      unfold connectionFlushLoop
      split_ifs <;> exact ⟨rfl, hs⟩
  | cons r results ih =>
      intro c sent closed h0 hs
      unfold connectionFlushLoop
      split_ifs
      · exact ⟨rfl, hs⟩
      · cases r with
        | fail e =>
            by_cases he : e = EINTR
            · simp only [if_pos he]
              exact ih c sent closed h0 hs
            · simp only [if_neg he]
              exact ⟨rfl, hs⟩
        | sent n =>
            simp only [connectionBufferCloseFds_empty h0, buildCmsg_empty h0]
            refine ih _ _ _ h0 fun seg hseg => ?_
            rcases List.mem_append.mp hseg with h | h
            · exact hs seg h
            · rw [List.mem_singleton.mp h]
              rfl

theorem connectionFlush_noFds (c : Connection) (results : List SendResult)
    (h0 : c.fdsOut.size = 0) : NoFds c (connectionFlush c results) := by
  unfold connectionFlush
  split_ifs
  · exact ⟨rfl, fun _ h => by cases h⟩
  · exact connectionFlushLoop_noFds _ results c [] [] h0 (fun _ h => by cases h)

theorem connectionPutTail_noFds {c : Connection} {o : SendOut} (data : List UInt8)
    (h : NoFds c o) : NoFds c (connectionPutTail o data) := by
  unfold connectionPutTail
  split <;> exact h

theorem connectionPut_noFds (c : Connection) (data : List UInt8) (results : List SendResult)
    (h0 : c.fdsOut.size = 0) : NoFds c (connectionPut c data results) := by
  unfold connectionPut
  by_cases hover : connectionBufferSize c.out + data.length > CONNECTION_BUFFER_SIZE
  · rw [if_pos hover]
    have hflush : NoFds c (connectionFlush { c with wantFlush := true } results) :=
      connectionFlush_noFds { c with wantFlush := true } results h0
    dsimp only
    split
    · exact hflush
    · exact connectionPutTail_noFds data hflush
  · rw [if_neg hover]
    exact connectionPutTail_noFds data ⟨rfl, fun _ h => by cases h⟩

/-! ### Reading and getting -/

/-- Bytes that arrive with fds for which there is room are appended to the in ring. -/
theorem connectionRead_rights (c : Connection) {results : List RecvResult} {bytes : List UInt8}
    {cmsgs : List Cmsg} {fdsIn : ConnectionBuffer} {closed : List Int}
    (hroom : c.inp.size < CONNECTION_BUFFER_SIZE) (hrecv : recvmsgLoop results = .data bytes cmsgs)
    (hlen : bytes.length ≤ CONNECTION_BUFFER_SIZE - c.inp.size)
    (hdecode : decodeCmsg c.fdsIn cmsgs = (.ok (), fdsIn, closed)) :
    connectionRead c results = (.ok (c.inp.size + bytes.length),
      { c with inp := c.inp.push bytes, fdsIn := fdsIn }, closed) := by
  have htake : bytes.take (iovLen (connectionBufferPutIov c.inp)) = bytes := by
    rw [iovLen_putIov _ hroom, List.take_of_length_le hlen]
  have hpush : ({ c.inp with data := store c.inp.data c.inp.head.toNat bytes,
                             head := c.inp.head + BitVec.ofNat 32 bytes.length }
      : ConnectionBuffer) = c.inp.push bytes := rfl
  have hsize : connectionBufferSize (c.inp.push bytes) = c.inp.size + bytes.length :=
    size_push size_lt c.inp (by omega)
  unfold connectionRead
  rw [if_neg (by show ¬ c.inp.size ≥ _; omega), hrecv]
  simp only [htake, iovFill_putIov _ hroom hlen, hdecode, hpush, hsize]

/-- Bytes that arrive without fds are appended to the in ring. -/
theorem connectionRead_data (c : Connection) {results : List RecvResult} {bytes : List UInt8}
    (hroom : c.inp.size < CONNECTION_BUFFER_SIZE) (hrecv : recvmsgLoop results = .data bytes [])
    (hlen : bytes.length ≤ CONNECTION_BUFFER_SIZE - c.inp.size) :
    connectionRead c results
      = (.ok (c.inp.size + bytes.length), { c with inp := c.inp.push bytes }, []) :=
  connectionRead_rights c hroom hrecv hlen rfl

/-- At the end of the stream nothing arrives. -/
theorem connectionRead_eof (c : Connection) {results : List RecvResult}
    (hroom : c.inp.size < CONNECTION_BUFFER_SIZE) (hrecv : recvmsgLoop results = .data [] []) :
    connectionRead c results = (.ok c.inp.size, c, []) := by
  rw [connectionRead_data c hroom hrecv (Nat.zero_le _), push_nil]
  rfl

theorem connectionRead_fail (c : Connection) {results : List RecvResult} {e : Nat}
    (hroom : c.inp.size < CONNECTION_BUFFER_SIZE) (hrecv : recvmsgLoop results = .fail e) :
    connectionRead c results = (.error e, c, []) := by
  unfold connectionRead
  rw [if_neg (by show ¬ c.inp.size ≥ _; omega), hrecv]

theorem connectionRead_full (c : Connection) (results : List RecvResult)
    (hfull : CONNECTION_BUFFER_SIZE ≤ c.inp.size) :
    connectionRead c results = (.error EOVERFLOW, c, []) := by
  unfold connectionRead
  rw [if_pos (by show c.inp.size ≥ _; exact hfull)]

/-- Whatever arrives, a read leaves the bytes in the ring and adds some behind them; a read that
fails adds none. -/
theorem connectionRead_appends (c : Connection) (results : List RecvResult)
    (hb : c.inp.size ≤ CONNECTION_BUFFER_SIZE) :
    ∃ bytes, (connectionRead c results).2.1.inp.toList = c.inp.toList ++ bytes
      ∧ (connectionRead c results).2.1.inp.size ≤ CONNECTION_BUFFER_SIZE
      ∧ ∀ e, (connectionRead c results).1 = .error e → bytes = [] := by
  by_cases hfull : CONNECTION_BUFFER_SIZE ≤ c.inp.size
  · rw [connectionRead_full c results hfull]
    exact ⟨[], (List.append_nil _).symm, hb, fun _ _ => rfl⟩
  have hroom : c.inp.size < CONNECTION_BUFFER_SIZE := by omega
  cases hrecv : recvmsgLoop results with
  | fail e =>
      rw [connectionRead_fail c hroom hrecv]
      exact ⟨[], (List.append_nil _).symm, hb, fun _ _ => rfl⟩
  | data bytes cmsgs =>
      set stored := bytes.take (CONNECTION_BUFFER_SIZE - c.inp.size) with hstored
      have hlen : stored.length ≤ CONNECTION_BUFFER_SIZE - c.inp.size := List.length_take_le _ _
      have hfit : c.inp.size + stored.length ≤ CONNECTION_BUFFER_SIZE := by omega
      unfold connectionRead
      rw [if_neg (by show ¬ c.inp.size ≥ _; omega), hrecv]
      dsimp only
      rw [iovLen_putIov _ hroom, ← hstored, iovFill_putIov _ hroom hlen]
      rcases decodeCmsg c.fdsIn cmsgs with ⟨_ | _, fdsIn, closed⟩
      · -- the cells are written, but the head stays where it was
        refine ⟨[], ?_, hb, fun _ _ => rfl⟩
        rw [List.append_nil]
        exact toList_store size_dvd c.inp hfit
      · refine ⟨stored, toList_push size_dvd size_lt c.inp hfit, ?_, fun _ h => nomatch h⟩
        exact (size_push size_lt c.inp hfit).trans_le hfit

theorem connectionGet_ok (c : Connection) {count : Nat} (h : count ≤ c.inp.size) :
    connectionGet c count = (.ok (c.inp.toList.take count), { c with inp := c.inp.skip count }) := by
  unfold connectionGet
  rw [if_neg (by show ¬ count > c.inp.size; omega), connectionBufferCopy_eq _ h]
  rfl

theorem connectionGet_short (c : Connection) {count : Nat} (h : c.inp.size < count) :
    connectionGet c count = (.error EAGAIN, c) := by
  unfold connectionGet
  rw [if_pos (by show count > c.inp.size; omega)]

theorem connectionGet_eq_ok {c conn : Connection} {count : Nat} {data : List UInt8}
    (h : connectionGet c count = (.ok data, conn)) :
    count ≤ c.inp.size ∧ data = c.inp.toList.take count
      ∧ conn = { c with inp := c.inp.skip count } := by
  by_cases hle : count ≤ c.inp.size
  · rw [connectionGet_ok c hle] at h
    cases h
    exact ⟨hle, rfl, rfl⟩
  · rw [connectionGet_short c (by omega)] at h
    cases h

theorem connectionGet_eq_error {c conn : Connection} {count e : Nat}
    (h : connectionGet c count = (.error e, conn)) : c.inp.size < count := by
  by_contra hle
  rw [connectionGet_ok c (by omega)] at h
  cases h

theorem connectionGetFd_inp (c : Connection) : (connectionGetFd c).2.inp = c.inp := by
  unfold connectionGetFd
  split <;> rfl

/-- What was taken can be put back. -/
theorem connectionRestore_skip (c : Connection) (count : Nat) :
    connectionRestore { c with inp := c.inp.skip count } count = c := by
  show { c with inp := (c.inp.skip count).unskip count } = c
  rw [unskip_skip]

end DdeSeatd
