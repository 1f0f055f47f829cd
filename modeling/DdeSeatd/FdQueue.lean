import DdeSeatd.DeviceFds

set_option autoImplicit false

/-! # The queue of fds does not overflow

`handle_open_device` duplicates the device's fd and queues it with `connection_put_fd`, which
refuses when the queue holds `MAX_FDS` fds; the duplicate would then be lost. Nothing checks that
this cannot happen. It cannot because every fd in the queue waits with a frame of eight bytes of
which at most the beginning has been sent: whatever is sent takes all the fds along, and of
frames whose fds are still there the ring of bytes holds at most 32.
-/

namespace DdeSeatd

open RingBuffer

/-! ## The bound -/

/-- Of a list of messages, those whose bytes lie within the first `n`. -/
theorem exists_sent_prefix (n : Nat) (frames : List ServerMsg) :
    ∃ ms rest, frames = ms ++ rest ∧ (messageBytes ms).length ≤ n
      ∧ ∀ m more, rest = m :: more → n < (messageBytes (ms ++ [m])).length := by
  induction frames using List.reverseRecOn with
  | nil => exact ⟨[], [], rfl, Nat.zero_le n, fun _ _ h => by cases h⟩
  | append_singleton frames last ih =>
      by_cases hle : (messageBytes (frames ++ [last])).length ≤ n
      · exact ⟨frames ++ [last], [], (List.append_nil _).symm, hle, fun _ _ h => by cases h⟩
      · obtain ⟨ms, rest, rfl, hms, hnext⟩ := ih
        refine ⟨ms, rest ++ [last], List.append_assoc .., hms, fun m more hrest => ?_⟩
        cases rest with
        | nil =>
            obtain ⟨rfl, -⟩ : last = m ∧ [] = more := by simpa using hrest
            simpa using hle
        | cons m' more' =>
            obtain ⟨rfl, -⟩ : m' = m ∧ more' ++ [last] = more := by simpa using hrest
            exact hnext m' more' rfl

/-- **At most 32 fds wait in the queue of a live client.** -/
theorem Channel.Owes.ringFds_le {ch : Channel} (h : ch.Owes 0 []) :
    (ringFds ch.connection.fdsOut).length ≤ CONNECTION_BUFFER_SIZE / 8 := by
  have hcap : CONNECTION_BUFFER_SIZE = 256 := rfl
  obtain ⟨ms, rest, hframes, hsent, hnext⟩ :=
    exists_sent_prefix (sentBytes ch.sent).length ch.frames
  -- the fds of the frames that were sent are gone
  have hgone : (deviceIds ms).length ≤ (segmentFds ch.sent).length := by
    have hbehind := h.carries.behind ms ⟨rest, hframes.symm⟩ hsent
    have htake : (wireFds ((wireOf ch.sent).take (messageBytes ms).length)).length
        ≤ (wireFds (wireOf ch.sent)).length := by
      conv_rhs => rw [← List.take_append_drop (messageBytes ms).length (wireOf ch.sent)]
      rw [wireFds_append, List.length_append]
      exact Nat.le_add_right _ _
    rw [wireFds_wireOf h.carries.full] at htake
    exact hbehind.trans htake
  have hcount : (segmentFds ch.sent).length + (ringFds ch.connection.fdsOut).length
      = (deviceIds ms).length + (deviceIds rest).length := by
    have hfds := congrArg List.length h.fds
    rw [List.length_append, h.count, hframes, deviceIds_append, List.length_append] at hfds
    omega
  have hring := h.ring
  have hout := h.sound.out
  cases rest with
  | nil =>
      rw [show deviceIds [] = [] from rfl, List.length_nil] at hcount
      omega
  | cons m more =>
      -- all but the first of the frames that were not sent are in the ring as a whole
      have hfirst := hnext m more rfl
      have hmore := deviceIds_length_mul_le more
      have hdevices : (deviceIds (m :: more)).length ≤ 1 + (deviceIds more).length := by
        rw [← List.singleton_append, deviceIds_append, List.length_append, deviceIds_single]
        cases m.opens <;> simp
      have hbytes : (messageBytes ch.frames).length
          = (messageBytes (ms ++ [m])).length + (messageBytes more).length := by
        rw [hframes, ← List.singleton_append, ← List.append_assoc, messageBytes_append,
          List.length_append]
      omega

/-- A queue of at most that many fds takes another one. -/
theorem connectionPutFd_of_le {c : Connection} (h : c.Sound)
    (hle : (ringFds c.fdsOut).length ≤ CONNECTION_BUFFER_SIZE / 8) (fd : Int) :
    ∃ conn, connectionPutFd c fd = .ok conn := by
  have hcap : CONNECTION_BUFFER_SIZE = 256 := rfl
  have hsize := h.fdsOut.length
  have hroom : ¬ connectionBufferSize c.fdsOut ≥ MAX_FDS * 4 := by
    change ¬ c.fdsOut.size ≥ CONNECTION_BUFFER_SIZE
    omega
  unfold connectionPutFd
  rw [if_neg hroom, connectionBufferPut_ok _ (by rw [intBytes_length]; omega)]
  exact ⟨_, rfl⟩

/-! ## The call -/

/-- The state in which `handle_open_device` calls `connection_put_fd`, if it does, and the device. -/
def putFdState (k : Kernel) (s : Server) (c : ClientId) (path : CString) :
    Option (Server × SeatDevice) :=
  if (s.clients c).seat = false then none
  else
    let o := seatOpenDevice k s c path
    (o.1.bind fun i => (o.2.clients c).devices[i]?).bind fun d =>
      let r := o.2.call k (.dup d.fd)
      if r.1 then some (r.2, d) else none

theorem handleOpenDevice_of_putFd {k : Kernel} {s s' : Server} {c : ClientId} {path : CString}
    {d : SeatDevice} (h : putFdState k s c path = some (s', d)) :
    handleOpenDevice k s c path = sendDevice k s' c d := by
  unfold putFdState at h
  unfold handleOpenDevice
  dsimp only at h ⊢
  split_ifs at h ⊢ with hseat
  cases hi : (seatOpenDevice k s c path).1 with
  | none => simp [hi] at h
  | some i =>
      cases hd : ((seatOpenDevice k s c path).2.clients c).devices[i]? with
      | none => simp [hi, hd] at h
      | some d' =>
          simp only [hi, hd, Option.bind_some] at h
          split_ifs at h with hdup
          obtain ⟨rfl, rfl⟩ : _ = s' ∧ d' = d := by simpa using h
          simp only [hd, Option.bind_some, Option.map_some, hdup, if_true]

/-- Opening a device and duplicating its fd leaves the connections alone. -/
theorem putFdState_calls {k : Kernel} {s s' : Server} {c : ClientId} {path : CString}
    {d : SeatDevice} (h : putFdState k s c path = some (s', d)) : Calls Syscall.OffTty s s' := by
  unfold putFdState at h
  dsimp only at h
  split_ifs at h with hseat
  obtain ⟨d', -, hd⟩ := Option.bind_eq_some_iff.mp h
  split_ifs at hd with hdup
  obtain ⟨rfl, -⟩ : _ = s' ∧ d' = d := by simpa using hd
  exact (calls_seatOpenDevice k s c path).call k (by trivial)

/-- **The queue of fds of a live client has room.** In every run, whatever its sends did, when
`handle_open_device` calls `connection_put_fd`, the queue holds at most 32 fds of the 64 it has room
for, and the call succeeds. -/
theorem fd_queue_has_room (k : Kernel) (vtBound : Bool) (steps : List Step) (c : ClientId)
    (path : CString) (s' : Server) (d : SeatDevice) (hlive : c ∈ (run k vtBound steps).live)
    (hput : putFdState k (run k vtBound steps) c path = some (s', d)) :
    handleOpenDevice k (run k vtBound steps) c path = sendDevice k s' c d
    ∧ connectionBufferSize (s'.clients c).connection.fdsOut
        = 4 * (ringFds (s'.clients c).connection.fdsOut).length
    ∧ (ringFds (s'.clients c).connection.fdsOut).length ≤ CONNECTION_BUFFER_SIZE / 8
    ∧ CONNECTION_BUFFER_SIZE / 8 < MAX_FDS
    ∧ ∃ conn, connectionPutFd (s'.clients c).connection s'.nextFd = .ok conn := by
  have howes := ((outgoing_run k vtBound steps c).resolve_right fun hgone => hgone.1 hlive).2
  have hconn : (s'.clients c).connection = ((run k vtBound steps).channel (.client c)).connection :=
    (putFdState_calls hput).connection c
  have hle := howes.ringFds_le
  have hsound := howes.sound
  rw [← hconn] at hle hsound
  exact ⟨handleOpenDevice_of_putFd hput, hsound.fdsOut.length.symm, hle, by decide,
    connectionPutFd_of_le hsound hle _⟩

/-- The socket of a client takes nothing more once the client has opened a device. -/
def Kernel.stalledByDevice : Kernel :=
  { Kernel.obliging 1 with
    sendmsg := fun tr _ =>
      if .sys (.openDevice DRI_PREFIX) 0 ∈ tr then [] else [.sent CONNECTION_BUFFER_SIZE] }

def twoDevices : List Step :=
  [.connect 100, .request 0 .openSeat, .request 0 (.openDevice DRI_PREFIX),
    .request 0 (.openDevice DRI_PREFIX)]

/-- Two descriptors wait in the queue for the client to read when it opens the device again. -/
theorem fd_queue_has_room_stalled :
    ∃ s' d, putFdState .stalledByDevice (run .stalledByDevice true twoDevices) 0 DRI_PREFIX
        = some (s', d)
      ∧ (ringFds (s'.clients 0).connection.fdsOut).length = 2
      ∧ ∃ conn, connectionPutFd (s'.clients 0).connection s'.nextFd = .ok conn := by
  have hqueued : (putFdState .stalledByDevice (run .stalledByDevice true twoDevices) 0
      DRI_PREFIX).map (fun r => (ringFds (r.1.clients 0).connection.fdsOut).length) = some 2 := by
    decide +kernel
  obtain ⟨⟨s', d⟩, hput, hlength⟩ := Option.map_eq_some_iff.mp hqueued
  exact ⟨s', d, hput, hlength, (fd_queue_has_room .stalledByDevice true twoDevices 0 DRI_PREFIX s' d
    (by decide +kernel) hput).2.2.2.2⟩

end DdeSeatd
