import DdeSeatd.ControlFraming

set_option autoImplicit false

/-! # The end of a stream

At the end of a stream `recvmsg` returns 0, and `connection_read` returns the number of bytes in
the ring. The handlers take a result of 0 for the end of the stream. So a peer that has shut down
its sending side in the middle of a frame is not noticed (`end_of_stream_iff`), and since the
socket stays readable, the poller reports it again and again.
-/

namespace DdeSeatd

open RingBuffer Framer

/-- The callback destroys the client before it comes to its read: the poller reports an error, or
it reports that the socket is writable, and the flush fails. -/
def EndsBeforeRead (k : Kernel) (s : Server) (p : Peer) (mask : UInt32) : Prop :=
  mask &&& EVENT_ERROR ≠ 0 ∨ mask &&& EVENT_WRITABLE ≠ 0 ∧ FlushFails k s p

/-! ## Seat clients -/

section

variable {k : Kernel} {s : Server} {c : ClientId} {results : List RecvResult}

/-- A read at the end of the stream destroys the client exactly if the ring is empty. -/
theorem clientHandleReadable_eof (h : s.Kept) (hlive : c ∈ s.live)
    (hroom : (arrived s c).length < CONNECTION_BUFFER_SIZE)
    (hwait : requestFrame (arrived s c) = .wait) (hrecv : recvmsgLoop results = .data [] []) :
    c ∉ ((clientHandleReadable k s c results).finish k c).live ↔ arrived s c = [] := by
  set conn := (s.clients c).connection with hconn
  have hlen : (arrived s c).length = conn.inp.size := toList_length _
  set s₁ := (s.setConnection (.client c) conn).record (.fdsClosed (.client c) []) with hs₁
  have hin : Inputs (.client c) s s₁ := .received s _ conn.inp
  have harr : arrived s₁ c = arrived s c :=
    congrArg (fun x : Connection => x.inp.toList) (connection_setConnection s (.client c) conn)
  have hkept₁ := hin.kept h
  unfold clientHandleReadable
  rw [connectionRead_eof conn (hlen ▸ hroom) hrecv]
  dsimp only
  by_cases hempty : conn.inp.size = 0
  · -- taken for the end of the stream
    rw [if_pos hempty]
    have hgone : c ∉ (Handled.finish k c ⟨[], false, s₁⟩).live :=
      not_live_clientDestroy hkept₁.wf hkept₁.sound hkept₁.peers
    exact iff_of_true hgone (List.length_eq_zero_iff.mp (hlen.trans hempty))
  · rw [if_neg hempty]
    have hsome : arrived s c ≠ [] := fun hnil => hempty (by rw [← hlen, hnil]; rfl)
    refine iff_of_false (not_not.mpr ?_) hsome
    have hsize : (s₁.clients c).connection.inp.size = conn.inp.size :=
      congrArg (fun x : Connection => x.inp.size) (connection_setConnection s (.client c) conn)
    have hpar := clientHandleFrames_parses (k := k) _ hkept₁ (hin.live ▸ hlive) (by omega)
      (hsize.trans_lt (Nat.lt_succ_self _))
    refine hpar.live.mpr (Bool.eq_true_of_not_eq_false fun hok => ?_)
    -- the loop found nothing, so nothing failed
    obtain ⟨hpre, hbad⟩ := hpar.fail hok
    rw [harr, parse_wait hwait] at hpre hbad
    have hnone := List.map_eq_nil_iff.mp (List.prefix_nil.mp hpre)
    exact absurd (hbad fun x hx => by rw [hnone] at hx; cases hx).1 Bool.false_ne_true

/-- The state in which a callback comes to its read. -/
theorem client_before_read (h : s.Kept) (hlive : c ∈ s.live) {mask : UInt32}
    (hends : ¬ EndsBeforeRead k s (.client c) mask) :
    let f := if mask &&& EVENT_WRITABLE ≠ 0 then s.flush k (.client c) else (false, s)
    let s₁ := if f.1 then f.2.setMask (.client c) EVENT_READABLE else f.2
    s₁.Kept ∧ c ∈ s₁.live ∧ arrived s₁ c = arrived s c := by
  intro f s₁
  by_cases hmask : mask &&& EVENT_WRITABLE ≠ 0
  swap
  · have hs₁ : s₁ = s := by simp only [s₁, f, if_neg hmask, Bool.false_eq_true, if_false]
    rw [hs₁]
    exact ⟨h, hlive, rfl⟩
  have hf : f = s.flush k (.client c) := if_pos hmask
  have hfine : ¬ ((s.flush k (.client c)).1 = false ∧ (s.flush k (.client c)).2.errno ≠ EAGAIN) :=
    fun hfail => hends (.inr ⟨hmask, (flushFails_iff k s _).mpr hfail⟩)
  -- this is the daemon's step for EVENT_WRITABLE
  have hstep : step k s (.writable c) = s₁ := by
    rw [show step k s (.writable c) = clientHandleWritable k s c from
      if_neg (by simp [Step.client, Step.controlClient, hlive])]
    unfold clientHandleWritable
    simp only [s₁, hf]
    by_cases hok : (s.flush k (.client c)).1 = true
    · rw [if_pos hok, if_pos hok]
    · have hagain := fun hne => hfine ⟨Bool.eq_false_iff.mpr hok, hne⟩
      rw [if_neg hok, if_neg hok, if_neg hagain]
  have hdrain : Talks k [.drain (.client c) f.1] s s₁ := by
    simp only [s₁, hf]
    exact .one ⟨rfl, rfl⟩
  refine ⟨hstep ▸ kept_step h _, ?_, ?_⟩
  · refine ((hdrain.present h.sound h.peers).2 (.client c)).mpr ?_
    rw [show talksWith (.client c) [Talk.drain (.client c) f.1] = [.drain (.client c) f.1] by
      simp [talksWith, Talk.peer]]
    exact hlive
  · rw [← hstep]
    exact congrArg toList (step_inp h hlive _)

/-- **A seat client at the end of its stream.** -/
theorem clientHandleConnection_eof (h : s.Kept) (hlive : c ∈ s.live)
    (hroom : (arrived s c).length < CONNECTION_BUFFER_SIZE)
    (hwait : requestFrame (arrived s c) = .wait) {mask : UInt32}
    (hreadable : mask &&& EVENT_READABLE ≠ 0) (hhangup : mask &&& EVENT_HANGUP = 0)
    (hrecv : recvmsgLoop results = .data [] []) :
    c ∉ (clientHandleConnection k s c mask results).server.live
      ↔ arrived s c = [] ∨ EndsBeforeRead k s (.client c) mask := by
  unfold clientHandleConnection
  by_cases herror : mask &&& EVENT_ERROR ≠ 0
  · rw [if_pos herror]
    exact iff_of_true (not_live_clientDestroy h.wf h.sound h.peers) (.inr (.inl herror))
  rw [if_neg herror, if_neg (not_not.mpr hhangup)]
  dsimp only
  by_cases hends : EndsBeforeRead k s (.client c) mask
  · -- the flush fails
    obtain ⟨hmask, hfail⟩ := hends.resolve_left herror
    have hfail' := (flushFails_iff k s _).mp hfail
    rw [if_pos hmask, if_pos ⟨hmask, hfail'⟩]
    have hdrain : Talks k [.drain (.client c) false] s (s.flush k (.client c)).2 :=
      .one ⟨hfail'.1, (if_neg Bool.false_ne_true).symm⟩
    refine iff_of_true (not_live_clientDestroy ?_ (hdrain.spec h.sound).sound
      (hdrain.present h.sound h.peers).1) (.inr hends)
    rw [view_flush]
    exact h.wf
  obtain ⟨hkept₁, hlive₁, harr⟩ := client_before_read h hlive hends
  have hgo : ¬ (mask &&& EVENT_WRITABLE ≠ 0
      ∧ (if mask &&& EVENT_WRITABLE ≠ 0 then s.flush k (.client c) else (false, s)).1 = false
      ∧ (if mask &&& EVENT_WRITABLE ≠ 0 then s.flush k (.client c) else (false, s)).2.errno
        ≠ EAGAIN) := by
    rintro ⟨hmask, hfail⟩
    rw [if_pos hmask] at hfail
    exact hends (.inr ⟨hmask, (flushFails_iff k s _).mpr hfail⟩)
  rw [if_neg hgo, if_pos hreadable]
  have heof := clientHandleReadable_eof (k := k) hkept₁ hlive₁ (harr ▸ hroom) (harr ▸ hwait) hrecv
  rw [harr] at heof
  rw [or_iff_left hends, ← heof]
  unfold Handled.finish
  split_ifs <;> rfl

end

/-! ## Control clients -/

section

variable {k : Kernel} {s : Server} {i : ControlId} {results : List RecvResult}

/-- A read at the end of the stream destroys the control client exactly if the ring is empty. -/
theorem controlHandleReadable_eof (h : s.Kept) (hi : i ∈ s.controlClients)
    (hroom : (controlArrived s i).length < CONNECTION_BUFFER_SIZE)
    (hwait : controlTake (controlArrived s i) = .wait) (hrecv : recvmsgLoop results = .data [] []) :
    i ∉ ((controlHandleReadable k s i results).finish i).controlClients
      ↔ controlArrived s i = [] := by
  set conn := (s.controls i).connection with hconn
  have hlen : (controlArrived s i).length = conn.inp.size := toList_length _
  set s₁ := (s.setConnection (.control i) conn).record (.fdsClosed (.control i) []) with hs₁
  have hin : Inputs (.control i) s s₁ := .received s _ conn.inp
  have harr : controlArrived s₁ i = controlArrived s i :=
    congrArg (fun x : Connection => x.inp.toList) (connection_setConnection s (.control i) conn)
  have hkept₁ := hin.kept h
  unfold controlHandleReadable
  rw [connectionRead_eof conn (hlen ▸ hroom) hrecv]
  dsimp only
  by_cases hempty : conn.inp.size = 0
  · -- taken for the end of the stream
    rw [if_pos hempty]
    exact iff_of_true (not_present_controlClientDestroy hkept₁)
      (List.length_eq_zero_iff.mp (hlen.trans hempty))
  · rw [if_neg hempty]
    have hsome : controlArrived s i ≠ [] := fun hnil => hempty (by rw [← hlen, hnil]; rfl)
    refine iff_of_false (not_not.mpr ?_) hsome
    have hpar := controlHandleFrames_parses (k := k) _ hkept₁ (hin.controlClients ▸ hi)
      (harr ▸ hroom.le) (harr ▸ hlen.trans_lt (Nat.lt_succ_self _))
    refine hpar.present.mpr (Bool.eq_true_of_not_eq_false fun hok => ?_)
    -- the loop found nothing, so nothing failed
    obtain ⟨-, hpre, _, r, -, -, hmem⟩ := hpar.fail hok
    rw [harr, parse_wait hwait] at hpre
    rw [List.map_eq_nil_iff.mp (List.prefix_nil.mp hpre)] at hmem
    cases hmem

/-- **A control client at the end of its stream.** -/
theorem controlClientHandleConnection_eof (h : s.Kept) (hi : i ∈ s.controlClients)
    (hroom : (controlArrived s i).length < CONNECTION_BUFFER_SIZE)
    (hwait : controlTake (controlArrived s i) = .wait) {mask : UInt32}
    (hreadable : mask &&& EVENT_READABLE ≠ 0) (hhangup : mask &&& EVENT_HANGUP = 0)
    (hrecv : recvmsgLoop results = .data [] []) :
    i ∉ (controlClientHandleConnection k s i mask results).server.controlClients
      ↔ controlArrived s i = [] ∨ EndsBeforeRead k s (.control i) mask := by
  by_cases herror : mask &&& EVENT_ERROR ≠ 0
  · rw [show controlClientHandleConnection k s i mask results
      = ⟨[], false, controlClientDestroy s i⟩ from if_pos herror]
    exact iff_of_true (not_present_controlClientDestroy h) (.inr (.inl herror))
  have herror0 : mask &&& EVENT_ERROR = 0 := not_not.mp herror
  -- the flush fails as the state and the answers of the kernel say
  have hflushed : (controlHandleFlush k s i mask).1 = false
      ↔ mask &&& EVENT_WRITABLE ≠ 0 ∧ FlushFails k s (.control i) := by
    rw [flushFails_iff]
    unfold controlHandleFlush
    by_cases hmask : mask &&& EVENT_WRITABLE = 0
    · simp [hmask]
    · rw [if_neg hmask]
      cases hok : (s.flush k (.control i)).1 with
      | true => simp [hok]
      | false => simp [hok, hmask]
  have hends : EndsBeforeRead k s (.control i) mask ↔ (controlHandleFlush k s i mask).1 = false :=
    (or_iff_right herror).trans hflushed.symm
  rw [hends]
  rcases controlHandleFlush_cases (k := k) h hi mask with
    ⟨hflush, hi₁, hs₁⟩ | ⟨hflush, hend, -, hgone⟩
  · obtain ⟨-, hserver⟩ := controlClientHandleConnection_go herror0 hflush results
    rw [if_neg (fun hc => hc.2 hhangup), if_pos hreadable] at hserver
    obtain ⟨hkept₁, -, hinp, -⟩ := controlHandleFlush_keeps h hi hs₁
    have harr : controlArrived (controlHandleFlush k s i mask).2 i = controlArrived s i :=
      congrArg toList hinp
    have heof := controlHandleReadable_eof (k := k) hkept₁ hi₁ (harr ▸ hroom) (harr ▸ hwait) hrecv
    rw [harr] at heof
    rw [hserver, heof, hflush]
    simp
  · have hconn : (controlClientHandleConnection k s i mask results).server
        = step k s (.controlWritable i) := by
      unfold controlClientHandleConnection
      rw [if_neg herror, ← hend]
      simp only [hflush, if_true]
    rw [hconn, hflush]
    exact iff_of_true hgone (.inr rfl)

end

/-! ## The theorem -/

/-- **End of stream.** In every state that keeps the daemon's invariant, as every reachable one
does, let a client have left the beginning of a frame in its ring, or nothing, and let `recvmsg`
return 0 while a callback handles EVENT_READABLE without EVENT_HANGUP. Then the client is destroyed
in that call if and only if its ring is empty, or the callback ends before the read. -/
theorem end_of_stream_iff (k : Kernel) (s : Server) (h : s.Kept) (mask : UInt32)
    (hreadable : mask &&& EVENT_READABLE ≠ 0) (hhangup : mask &&& EVENT_HANGUP = 0)
    (results : List RecvResult) (hrecv : recvmsgLoop results = .data [] []) :
    (∀ c ∈ s.live, (arrived s c).length < CONNECTION_BUFFER_SIZE →
        requestFrame (arrived s c) = .wait →
        (c ∉ (clientHandleConnection k s c mask results).server.live
          ↔ arrived s c = [] ∨ EndsBeforeRead k s (.client c) mask))
      ∧ ∀ i ∈ s.controlClients, (controlArrived s i).length < CONNECTION_BUFFER_SIZE →
        controlFrame (controlArrived s i) = .wait →
        (i ∉ (controlClientHandleConnection k s i mask results).server.controlClients
          ↔ controlArrived s i = [] ∨ EndsBeforeRead k s (.control i) mask) := by
  constructor
  · intro c hlive hroom hwait
    exact clientHandleConnection_eof h hlive hroom hwait hreadable hhangup hrecv
  · intro i hi hroom hwait
    have htake : controlTake (controlArrived s i) = .wait := by simp only [controlTake, hwait]
    exact controlClientHandleConnection_eof h hi hroom htake hreadable hhangup hrecv

/-- A client whose request to open the seat, sent in two pieces, has been handled, and a control
client that has sent nothing: both are destroyed. -/
theorem end_of_handled_stream :
    let f := feedRun (.obliging 1) 0
      (feedInit (.obliging 1) true [.connect 100, .controlConnect 101] Request.openSeat.parts.flatten)
      [.readable [.bytes 3], .readable [.bytes 1]]
    f.calls = [(.openSeat, true)]
      ∧ 0 ∉ (clientHandleConnection (.obliging 1) f.server 0 EVENT_READABLE
        [.data [] []]).server.live
      ∧ 0 ∉ (controlClientHandleConnection (.obliging 1) f.server 0 EVENT_READABLE
        [.data [] []]).server.controlClients := by
  intro f
  have hkept : f.server.Kept :=
    (feedRun_inv (by decide +kernel) (by simp [Writes, Run.Meets, FeedMove.WriteFails])).kept
  have heof := end_of_stream_iff (.obliging 1) f.server hkept EVENT_READABLE (by decide) (by decide)
    [.data [] []] rfl
  have hempty : f.calls = [(.openSeat, true)]
      ∧ 0 ∈ f.server.live ∧ arrived f.server 0 = [] ∧ requestFrame (arrived f.server 0) = .wait
      ∧ 0 ∈ f.server.controlClients ∧ controlArrived f.server 0 = []
      ∧ controlFrame (controlArrived f.server 0) = .wait := by decide +kernel
  obtain ⟨hcalls, hlive, hnil, hwait, hi, hnil', hwait'⟩ := hempty
  exact ⟨hcalls, (heof.1 0 hlive (by rw [hnil]; decide) hwait).mpr (.inl hnil),
    (heof.2 0 hi (by rw [hnil']; decide) hwait').mpr (.inl hnil')⟩

/-- One byte of a header, then the end of the stream: neither client is destroyed, and what is in
their rings stays there. -/
theorem half_closed_unnoticed :
    let s := run (.obliging 1) true [.connect 100, .controlConnect 101]
    let half := [RecvResult.data [1] []]
    let s₁ := (clientHandleConnection (.obliging 1) s 0 EVENT_READABLE half).server
    let s₂ := (controlClientHandleConnection (.obliging 1) s₁ 0 EVENT_READABLE half).server
    let s₃ := (clientHandleConnection (.obliging 1) s₂ 0 EVENT_READABLE [.data [] []]).server
    let s₄ := (controlClientHandleConnection (.obliging 1) s₃ 0 EVENT_READABLE [.data [] []]).server
    0 ∈ s₄.live ∧ 0 ∈ s₄.controlClients ∧ arrived s₄ 0 = [1] ∧ controlArrived s₄ 0 = [1] := by
  decide +kernel

end DdeSeatd
