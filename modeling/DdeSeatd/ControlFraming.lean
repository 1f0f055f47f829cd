import DdeSeatd.ControlReading
import DdeSeatd.VtInert

set_option autoImplicit false

/-! # A control client that sends a stream and hangs up

A control client sends a stream of bytes and closes its socket. What the poller reports about the
socket, how many bytes a read delivers and what else the daemon does in between is chosen by the
environment. Along every run the daemon stands where its own parser stands
(`ControlFeed.Inv`), so what is left to ask is where that parser agrees with the reference
(`control_framing_iff`), and whether all bytes have been read when the client is destroyed
(`hangup_executes_iff`).
-/

namespace DdeSeatd

open RingBuffer Framer

/-- The daemon, the bytes a control client has sent and the daemon has not read, and the handler
calls made for it so far. -/
structure ControlFeed where
  server : Server
  unread : List UInt8
  calls : List (ControlRequest × Bool)

inductive ControlFeedMove where
  | callback (mask : UInt32) (answers : List Delivery)
  | other (st : Step)
  deriving DecidableEq, Repr

/-- Whether the step stands for input from the control client. -/
def Step.isControlInput (i : ControlId) : Step → Bool
  | .control j _ | .controlDisconnect j => j = i
  | _ => false

/-- The answers of `recvmsg` to the next read. At the end of the stream it delivers nothing. -/
def ControlFeed.results (i : ControlId) (f : ControlFeed) (answers : List Delivery) :
    List RecvResult :=
  answers.map (Delivery.result
    (CONNECTION_BUFFER_SIZE - connectionPending (f.server.controls i).connection) f.unread)

/-- What the socket still holds after the next read. -/
def ControlFeed.left (i : ControlId) (f : ControlFeed) (answers : List Delivery) : List UInt8 :=
  unreadAfter (CONNECTION_BUFFER_SIZE - connectionPending (f.server.controls i).connection) f.unread
    (recvmsgLoop (f.results i answers))

/-- Whether the callback comes to its read. -/
def ControlFeed.reads (k : Kernel) (i : ControlId) (f : ControlFeed) (mask : UInt32) : Bool :=
  mask &&& EVENT_ERROR = 0 ∧ (controlHandleFlush k f.server i mask).1 = true
    ∧ mask &&& EVENT_READABLE ≠ 0

/-- A callback of the control client's event source, or a step of the daemon that takes no input
from this client. -/
def ControlFeed.step (k : Kernel) (i : ControlId) (f : ControlFeed) : ControlFeedMove → ControlFeed
  | .callback mask answers =>
      if i ∉ f.server.controlClients then f
      else
        let h := controlClientHandleConnection k f.server i mask (f.results i answers)
        { server := h.server
          unread := if f.reads k i mask then f.left i answers else f.unread
          calls := f.calls ++ h.calls }
  | .other st => if st.isControlInput i then f else { f with server := DdeSeatd.step k f.server st }

/-- What holds between the moves: the daemon stands where its own parser stands. -/
structure ControlFeed.Inv (i : ControlId) (stream : List UInt8) (f : ControlFeed) : Prop where
  kept : f.server.Kept
  old : i < f.server.nextControlId
  calls : f.calls.map Prod.fst <+: (parse controlTake stream).frames.map Prod.fst
  present : i ∈ f.server.controlClients →
    (controlArrived f.server i).length ≤ CONNECTION_BUFFER_SIZE
      ∧ ∃ read xs, stream = read ++ f.unread
        ∧ parse controlTake read = ⟨xs, false, controlArrived f.server i⟩
        ∧ xs.map Prod.fst = f.calls.map Prod.fst

/-! ## One read -/

section

variable {k : Kernel} {i : ControlId} {s : Server}

theorem not_present_controlClientDestroy (h : s.Kept) :
    i ∉ (controlClientDestroy s i).controlClients := by
  have htalk : Talks (.obliging 1) [.close (.control i)] s (controlClientDestroy s i) := .one rfl
  intro hmem
  have hpresent := ((htalk.present h.sound h.peers).2 (.control i)).mp hmem
  rw [show talksWith (.control i) [Talk.close (.control i)] = [.close (.control i)] by
    simp [talksWith, Talk.peer]] at hpresent
  exact hpresent

/-- **One read.** It fails on a full ring, and at the end of the stream if nothing is left in the
ring; otherwise the loop goes over what is then in the ring. -/
theorem controlHandleReadable_cases (hring : (controlArrived s i).length ≤ CONNECTION_BUFFER_SIZE)
    (unread : List UInt8) (answers : List Delivery) :
    let room := CONNECTION_BUFFER_SIZE - connectionPending (s.controls i).connection
    let results := answers.map (Delivery.result room unread)
    let left := unreadAfter room unread (recvmsgLoop results)
    (∃ s₁, Inputs (.control i) s s₁ ∧ left = unread
      ∧ ((controlArrived s i).length = CONNECTION_BUFFER_SIZE
        ∨ controlArrived s i = [] ∧ unread = [])
      ∧ controlHandleReadable k s i results = ⟨[], false, s₁⟩)
    ∨ ∃ s₁ bytes turns, Inputs (.control i) s s₁ ∧ unread = bytes ++ left
        ∧ controlArrived s₁ i = controlArrived s i ++ bytes
        ∧ (controlArrived s₁ i).length ≤ CONNECTION_BUFFER_SIZE
        ∧ (controlArrived s₁ i).length < turns
        ∧ controlHandleReadable k s i results = controlHandleFrames k i turns s₁
        ∧ (answers = [.bytes 1] → unread ≠ [] → bytes ≠ []) := by
  intro room results left
  have hlen : (controlArrived s i).length = (s.controls i).connection.inp.size := toList_length _
  unfold controlHandleReadable
  rcases connectionRead_deliveries (hlen.symm.trans_le hring) unread answers with
    ⟨hfull, hleft, hread⟩ | ⟨ret, inp, bytes, hread, hsplit, harr, hsize, hret⟩
  · -- EOVERFLOW
    rw [hread]
    exact .inl ⟨_, (Inputs.received s _ _).trans (.setErrno _ _ EOVERFLOW), hleft,
      .inl (hlen.trans hfull), if_pos (by decide : EOVERFLOW ≠ EAGAIN)⟩
  rw [hread]
  set conn : Connection := { (s.controls i).connection with inp := inp } with hconn
  set s₁ := (s.setConnection (.control i) conn).record (.fdsClosed (.control i) []) with hs₁
  have hin : Inputs (.control i) s s₁ := .received s _ inp
  have harr' : controlArrived s₁ i = inp.toList := by
    show ((s.setConnection (.control i) conn).controls i).connection.inp.toList = _
    rw [controls_setConnection]
  have hlen' := (congrArg List.length harr').trans (toList_length inp)
  rcases hret with ⟨rfl, hfail⟩ | ⟨rfl, hsome⟩
  · refine .inr ⟨_, bytes, inp.size + 1, hin.trans (.setErrno _ _ EAGAIN), hsplit,
      harr'.trans harr, hlen'.trans_le hsize, hlen'.trans_lt (Nat.lt_succ_self _),
      if_neg (not_not.mpr rfl : ¬ EAGAIN ≠ EAGAIN), ?_⟩
    rintro rfl -
    cases hfail
  by_cases heof : inp.size = 0
  · -- the end of the stream, and the ring is empty
    have hnil : controlArrived s i ++ bytes = [] := by
      rw [show controlArrived s i ++ bytes = inp.toList from harr.symm, ← List.length_eq_zero_iff,
        toList_length, heof]
    obtain ⟨hempty, hbytes⟩ := List.append_eq_nil_iff.mp hnil
    refine .inl ⟨_, hin, ?_, .inr ⟨hempty, by_contra fun hne => hsome hne hbytes⟩, if_pos heof⟩
    rw [hbytes] at hsplit
    exact hsplit.symm
  · exact .inr ⟨_, bytes, inp.size + 1, hin, hsplit, harr'.trans harr, hlen'.trans_le hsize,
      hlen'.trans_lt (Nat.lt_succ_self _), if_neg heof, fun _ => hsome⟩

/-! ## One callback -/

/-- The `EVENT_WRITABLE` part is the daemon's step for it, or nothing; it ends the handling if the
flush fails. -/
theorem controlHandleFlush_cases (h : s.Kept) (hi : i ∈ s.controlClients) (mask : UInt32) :
    let f := controlHandleFlush k s i mask
    (f.1 = true ∧ i ∈ f.2.controlClients
      ∧ (mask &&& EVENT_WRITABLE = 0 ∧ f.2 = s ∨ f.2 = step k s (.controlWritable i)))
    ∨ f.1 = false ∧ controlClientDestroy f.2 i = step k s (.controlWritable i)
        ∧ (step k s (.controlWritable i)).sendFailed i = true
        ∧ i ∉ (step k s (.controlWritable i)).controlClients := by
  intro f
  have hstep : step k s (.controlWritable i) = controlHandleWritable k s i :=
    if_neg (by simp [Step.client, Step.controlClient, hi])
  by_cases hmask : mask &&& EVENT_WRITABLE = 0
  · have hf : f = (true, s) := if_pos hmask
    rw [hf]
    exact .inl ⟨rfl, hi, .inl ⟨hmask, rfl⟩⟩
  have hf : f = _ := if_neg hmask
  set fl := s.flush k (.control i) with hfl
  -- a flush alone leaves the client where it is
  have hdrain : Talks k [.drain (.control i) fl.1] s
      (if fl.1 then fl.2.setMask (.control i) EVENT_READABLE else fl.2) := .one ⟨rfl, rfl⟩
  have hhere := ((hdrain.present h.sound h.peers).2 (.control i)).mpr (by
    rw [show talksWith (.control i) [Talk.drain (.control i) fl.1] = [.drain (.control i) fl.1] by
      simp [talksWith, Talk.peer]]
    exact hi)
  rw [hf, hstep, controlHandleWritable]
  simp only [← hfl]
  cases hok : fl.1 with
  | true =>
      rw [hok, if_pos rfl] at hhere
      simp only [if_true]
      exact .inl ⟨trivial, hhere, .inr trivial⟩
  | false =>
      rw [hok, if_neg Bool.false_ne_true] at hhere
      simp only [Bool.false_eq_true, if_false]
      by_cases hagain : fl.2.errno = EAGAIN
      · simp only [hagain, decide_true, ne_eq, not_true_eq_false, if_false]
        exact .inl ⟨trivial, hhere, .inr trivial⟩
      · simp only [hagain, decide_false, ne_eq, not_false_eq_true, if_true]
        have hclose : (Talk.close (.control i)).Does k fl.2 (controlClientDestroy fl.2 i) := rfl
        rw [hok, if_neg Bool.false_ne_true] at hdrain
        refine .inr ⟨trivial, trivial, hclose.records.sendFailed ?_, fun hmem => ?_⟩
        swap
        · have hend := ((hdrain.trans (.one hclose)).present h.sound h.peers).2 (.control i)
          simpa [talksWith, Talk.peer, Talk.presence] using hend.mp hmem
        rcases trace_finishIo s (.control i)
          (connectionFlush (s.connection (.control i)) (k.sendmsg s.trace (.control i))) with
          ⟨sent, closed, hfst, -⟩ | ⟨e, sent, closed, -, herrno, htrace⟩
        · exact absurd (hfst.symm.trans hok) (by simp)
        · have herr : e ≠ EAGAIN := fun he => hagain ((show fl.2.errno = e from herrno).trans he)
          show fl.2.trace.any _ = true
          rw [show fl.2.trace = _ from htrace]
          simp [Event.sendFails, herr]

end

/-- What a flush that does not fail leaves alone. -/
theorem controlHandleFlush_keeps {k : Kernel} {i : ControlId} {s s₁ : Server} {mask : UInt32}
    (h : s.Kept) (hi : i ∈ s.controlClients)
    (hs₁ : mask &&& EVENT_WRITABLE = 0 ∧ s₁ = s ∨ s₁ = step k s (.controlWritable i)) :
    s₁.Kept ∧ s.nextControlId ≤ s₁.nextControlId
      ∧ (s₁.controls i).connection.inp = (s.controls i).connection.inp
      ∧ (s.sendFailed i = true → s₁.sendFailed i = true) := by
  rcases hs₁ with ⟨-, rfl⟩ | rfl
  · exact ⟨h, le_rfl, rfl, id⟩
  · exact ⟨kept_step h _, nextControlId_step h _, step_controlInp h hi _, sendFailed_step h _⟩

/-- The daemon's parser has gone over what was read, and `rest` is left of it. -/
def ControlFeed.Stands (stream rest : List UInt8) (f : ControlFeed) : Prop :=
  ∃ read xs, stream = read ++ f.unread ∧ parse controlTake read = ⟨xs, false, rest⟩
    ∧ xs.map Prod.fst = f.calls.map Prod.fst

section

variable {k : Kernel} {i : ControlId} {stream : List UInt8} {f : ControlFeed} {s : Server}
  {mask : UInt32} {answers : List Delivery}

/-- A state change that leaves the client's input alone. -/
theorem ControlFeed.Inv.change (h : f.Inv i stream) (hkept : s.Kept)
    (hold : f.server.nextControlId ≤ s.nextControlId)
    (hpresent : i ∈ s.controlClients →
      i ∈ f.server.controlClients ∧ controlArrived s i = controlArrived f.server i) :
    ({ f with server := s } : ControlFeed).Inv i stream := by
  refine ⟨hkept, h.old.trans_le hold, h.calls, fun hi => ?_⟩
  obtain ⟨hbefore, harr⟩ := hpresent hi
  show (controlArrived s i).length ≤ _ ∧ ∃ read xs, _ ∧ parse controlTake read
    = ⟨xs, false, controlArrived s i⟩ ∧ _
  rw [harr]
  exact h.present hbefore

/-- A step of the daemon. -/
theorem ControlFeed.Inv.daemon (h : f.Inv i stream) (st : Step) :
    ({ f with server := DdeSeatd.step k f.server st } : ControlFeed).Inv i stream := by
  refine h.change (kept_step h.kept st) (nextControlId_step h.kept st) fun hi => ?_
  have hbefore : i ∈ f.server.controlClients := by
    by_contra hnot
    exact h.old.ne ((step_absent h.kept hnot st).2 hi)
  exact ⟨hbefore, congrArg toList (step_controlInp h.kept hbefore st)⟩

theorem ControlFeed.Inv.stands (h : f.Inv i stream) (hi : i ∈ f.server.controlClients) :
    f.Stands stream (controlArrived f.server i) := (h.present hi).2

/-- **The read of a callback.** -/
theorem ControlFeed.Inv.read (h : f.Inv i stream) (hi : i ∈ f.server.controlClients)
    (answers : List Delivery) :
    let hd := controlHandleReadable k f.server i (f.results i answers)
    let f' : ControlFeed := ⟨hd.finish i, f.left i answers, f.calls ++ hd.calls⟩
    f'.Inv i stream ∧ (i ∈ f'.server.controlClients ↔ hd.ok = true)
      ∧ (f.server.sendFailed i = true → f'.server.sendFailed i = true)
      ∧ (hd.ok = false →
        (f'.server.sendFailed i = true ∧ ∃ s₁ r, s₁.Kept ∧ (handleControlRequest k s₁ i r).1 = false)
        ∨ f'.Stands stream (controlArrived f.server i)
          ∧ ((controlArrived f.server i).length = CONNECTION_BUFFER_SIZE
            ∨ controlArrived f.server i = [] ∧ f.unread = []))
      ∧ (answers = [.bytes 1] → f.unread ≠ [] → hd.ok = true →
        f'.unread.length < f.unread.length) := by
  intro hd f'
  obtain ⟨hring, read, xs, hstream, hparse, hxs⟩ := h.present hi
  rcases controlHandleReadable_cases (k := k) hring f.unread answers with
    ⟨s₁, hin, hleft, hends, hres⟩ | ⟨s₁, bytes, turns, hin, hsplit, harr, hring₁, hturns, hres, hone⟩
  · have hhd : hd = ⟨[], false, s₁⟩ := hres
    have hleft' : f.left i answers = f.unread := hleft
    have hkept₁ := hin.kept h.kept
    have hi₁ : i ∈ s₁.controlClients := hin.controlClients ▸ hi
    have hf' : f' = { f with server := controlClientDestroy s₁ i } := by
      show (⟨hd.finish i, f.left i answers, f.calls ++ hd.calls⟩ : ControlFeed) = _
      rw [hhd, hleft', List.append_nil]
      rfl
    have hgone := not_present_controlClientDestroy (i := i) hkept₁
    have hend : controlClientDestroy s₁ i = DdeSeatd.step k s₁ (.controlDisconnect i) :=
      (step_controlDisconnect hi₁).symm
    rw [hf', hhd]
    refine ⟨h.change ?_ ?_ fun hmem => absurd hmem hgone, ⟨fun hmem => absurd hmem hgone,
      fun hok => (by cases hok)⟩, fun hf => ?_, fun _ => .inr ⟨⟨read, xs, hstream, hparse, hxs⟩, hends⟩,
      fun _ _ hok => (by cases hok)⟩
    · rw [hend]
      exact kept_step hkept₁ _
    · rw [hend, ← hin.nextControlId]
      exact nextControlId_step hkept₁ _
    · show (controlClientDestroy s₁ i).sendFailed i = true
      rw [hend]
      exact sendFailed_step hkept₁ _ ((hin.sendFailed i).trans hf)
  · have hhd : hd = controlHandleFrames k i turns s₁ := hres
    have hsplit' : f.unread = bytes ++ f.left i answers := hsplit
    have hpar : ControlParses k i s₁ hd := by
      rw [hhd]
      exact controlHandleFrames_parses turns (hin.kept h.kept) (hin.controlClients ▸ hi)
        hring₁ hturns
    have hstream' : stream = (read ++ bytes) ++ f.left i answers := by
      rw [List.append_assoc, ← hsplit']
      exact hstream
    have hmore := parse_more controlTake_lawful hparse bytes
    rw [← harr] at hmore
    -- the calls made now are the next frames of the daemon's parser
    have hcalls : hd.calls.map Prod.fst
        <+: (parse controlTake (controlArrived s₁ i)).frames.map Prod.fst := by
      cases hok : hd.ok with
      | true =>
          obtain ⟨⟨ys, hys, hcalls⟩, -⟩ := hpar.ok hok
          rw [hys, hcalls]
      | false => exact (hpar.fail hok).2.1
    refine ⟨⟨hpar.kept, ?_, ?_, fun hmem => ?_⟩, hpar.present,
      fun hf => hpar.failed ((hin.sendFailed i).trans hf),
      fun hok => ?_, fun hans hne _ => ?_⟩
    · exact h.old.trans_le (hin.nextControlId.ge.trans hpar.old)
    · show (f.calls ++ hd.calls).map Prod.fst <+: _
      have hpre : (parse controlTake (read ++ bytes)).frames.map Prod.fst
          <+: (parse controlTake stream).frames.map Prod.fst := by
        rw [hstream']
        exact (parse_frames_mono controlTake_lawful _ _).map Prod.fst
      refine List.IsPrefix.trans ?_ hpre
      rw [hmore, List.map_append, List.map_append, hxs]
      exact (List.prefix_append_right_inj _).mpr hcalls
    · obtain ⟨⟨ys, hys, hcalls⟩, hsize⟩ := hpar.ok (hpar.present.mp hmem)
      refine ⟨hsize, read ++ bytes, xs ++ ys, hstream', ?_, ?_⟩
      · rw [hmore, hys]
      · rw [List.map_append, List.map_append, hxs, hcalls]
    · obtain ⟨hfailed, -, s₂, r, hkept₂, hunsent, -⟩ := hpar.fail hok
      exact .inl ⟨hfailed, s₂, r, hkept₂, hunsent⟩
    · have hpos := List.length_pos_iff.mpr (hone hans hne)
      have hlen := congrArg List.length hsplit'
      rw [List.length_append] at hlen
      show (f.left i answers).length < f.unread.length
      omega

/-- What the socket holds after a callback whose flush does not fail. -/
def ControlFeed.after (i : ControlId) (f : ControlFeed) (mask : UInt32) (answers : List Delivery) :
    List UInt8 :=
  if mask &&& EVENT_ERROR = 0 ∧ mask &&& EVENT_READABLE ≠ 0 then f.left i answers else f.unread

/-- The rest of a callback, after its flush. -/
theorem controlClientHandleConnection_go (herror : mask &&& EVENT_ERROR = 0)
    (hflush : (controlHandleFlush k s i mask).1 = true) (results : List RecvResult) :
    let s₁ := (controlHandleFlush k s i mask).2
    let hd := if mask &&& EVENT_READABLE ≠ 0 then controlHandleReadable k s₁ i results
      else ⟨[], true, s₁⟩
    (controlClientHandleConnection k s i mask results).calls = hd.calls
      ∧ (controlClientHandleConnection k s i mask results).server
        = if hd.ok = true ∧ mask &&& EVENT_HANGUP ≠ 0 then controlClientDestroy (hd.finish i) i
          else hd.finish i := by
  intro s₁ hd
  have hgo : controlClientHandleConnection k s i mask results
      = if hd.ok = false ∨ mask &&& EVENT_HANGUP ≠ 0 then
          ⟨hd.calls, false, controlClientDestroy hd.server i⟩ else hd := by
    unfold controlClientHandleConnection
    rw [if_neg (not_not.mpr herror)]
    simp only [hflush, Bool.true_eq_false, if_false]
    rfl
  rw [hgo]
  generalize hd = hd
  unfold ControlHandled.finish
  cases hok : hd.ok with
  | false => simp
  | true =>
      by_cases hhang : mask &&& EVENT_HANGUP = 0
      · simp [hhang]
      · simp [hhang]

/-- A callback that reports no error and whose flush does not fail. -/
theorem ControlFeed.step_go (hi : i ∈ f.server.controlClients) (herror : mask &&& EVENT_ERROR = 0)
    (hflush : (controlHandleFlush k f.server i mask).1 = true)
    (answers : List Delivery) :
    let s₁ := (controlHandleFlush k f.server i mask).2
    let hd := if mask &&& EVENT_READABLE ≠ 0 then controlHandleReadable k s₁ i (f.results i answers)
      else ⟨[], true, s₁⟩
    f.step k i (.callback mask answers)
      = ⟨if hd.ok = true ∧ mask &&& EVENT_HANGUP ≠ 0 then controlClientDestroy (hd.finish i) i
          else hd.finish i, f.after i mask answers, f.calls ++ hd.calls⟩ := by
  intro s₁ hd
  obtain ⟨hcalls, hserver⟩ := controlClientHandleConnection_go herror hflush (f.results i answers)
  rw [show f.step k i (.callback mask answers) = _ from if_neg (not_not.mpr hi), hcalls, hserver]
  simp only [ControlFeed.reads, ControlFeed.after, herror, hflush, true_and, decide_eq_true_eq]
  rfl

/-- A callback that ends the client before it comes to its read. -/
theorem ControlFeed.step_ended (hi : i ∈ f.server.controlClients)
    (hreads : f.reads k i mask = false)
    (hconn : controlClientHandleConnection k f.server i mask (f.results i answers)
      = ⟨[], false, s⟩) :
    f.step k i (.callback mask answers) = { f with server := s } := by
  rw [show f.step k i (.callback mask answers) = _ from if_neg (not_not.mpr hi), hconn, hreads,
    List.append_nil]
  rfl

/-- A change that leaves the ring alone leaves the next read as it is. -/
theorem ControlFeed.after_congr
    (h : (s.controls i).connection.inp = (f.server.controls i).connection.inp) (mask : UInt32)
    (answers : List Delivery) :
    ({ f with server := s } : ControlFeed).results i answers = f.results i answers
      ∧ ({ f with server := s } : ControlFeed).after i mask answers = f.after i mask answers := by
  have hpending : connectionPending (s.controls i).connection
      = connectionPending (f.server.controls i).connection := congrArg connectionBufferSize h
  constructor
  · simp only [ControlFeed.results, hpending]
  · simp only [ControlFeed.after, ControlFeed.left, ControlFeed.results, hpending]

/-- The end of a control client. -/
theorem ControlFeed.Inv.destroy (h : f.Inv i stream) (hi : i ∈ f.server.controlClients) :
    ({ f with server := controlClientDestroy f.server i } : ControlFeed).Inv i stream
      ∧ (f.server.sendFailed i = true →
        (controlClientDestroy f.server i).sendFailed i = true) := by
  rw [← step_controlDisconnect (k := .obliging 1) hi]
  exact ⟨h.daemon _, sendFailed_step h.kept _⟩

/-- What a callback makes of the feed. Unless a send fails, the daemon's parser has gone over what
was read, and the client is destroyed for an error or a hangup, on a full ring, or at the end of
the stream with nothing left in the ring. -/
structure ControlFeed.Called (i : ControlId) (stream : List UInt8) (mask : UInt32)
    (answers : List Delivery) (f f' : ControlFeed) : Prop where
  inv : f'.Inv i stream
  failed : f.server.sendFailed i = true → f'.server.sendFailed i = true
  sent : f'.server.sendFailed i = true
    ∨ (∃ rest, f'.Stands stream rest) ∧ f'.unread = f.after i mask answers
      ∧ (mask &&& EVENT_ERROR ≠ 0 ∨ mask &&& EVENT_HANGUP ≠ 0 → i ∉ f'.server.controlClients)
      ∧ (i ∉ f'.server.controlClients → mask &&& EVENT_ERROR ≠ 0 ∨ mask &&& EVENT_HANGUP ≠ 0
        ∨ (controlArrived f.server i).length = CONNECTION_BUFFER_SIZE
        ∨ controlArrived f.server i = [] ∧ f.unread = [])

/-- An error ends the client at once. -/
theorem ControlFeed.Inv.callback_error (h : f.Inv i stream) (hi : i ∈ f.server.controlClients)
    (herror : mask &&& EVENT_ERROR ≠ 0) (answers : List Delivery) :
    f.Called i stream mask answers (f.step k i (.callback mask answers)) := by
  rw [ControlFeed.step_ended hi (by simp [ControlFeed.reads, herror]) (if_pos herror)]
  refine ⟨(h.destroy hi).1, (h.destroy hi).2, .inr ⟨⟨_, h.stands hi⟩, ?_,
    fun _ => not_present_controlClientDestroy h.kept, fun _ => .inl herror⟩⟩
  exact (if_neg fun hc => herror hc.1).symm

/-- A flush that fails ends the client too, and a send has failed. -/
theorem ControlFeed.Inv.callback_unsent (h : f.Inv i stream) (hi : i ∈ f.server.controlClients)
    (herror : mask &&& EVENT_ERROR = 0)
    (hflush : (controlHandleFlush k f.server i mask).1 = false)
    (hend : controlClientDestroy (controlHandleFlush k f.server i mask).2 i
      = DdeSeatd.step k f.server (.controlWritable i))
    (hfailed : (DdeSeatd.step k f.server (.controlWritable i)).sendFailed i = true)
    (answers : List Delivery) :
    f.Called i stream mask answers (f.step k i (.callback mask answers)) := by
  have hconn : controlClientHandleConnection k f.server i mask (f.results i answers)
      = ⟨[], false, DdeSeatd.step k f.server (.controlWritable i)⟩ := by
    unfold controlClientHandleConnection
    rw [if_neg (not_not.mpr herror), ← hend]
    exact if_pos hflush
  rw [ControlFeed.step_ended hi (by simp [ControlFeed.reads, hflush]) hconn]
  exact ⟨h.daemon _, fun _ => hfailed, .inl hfailed⟩

/-- What follows the flush, up to the hangup. -/
theorem ControlFeed.Inv.input (h : f.Inv i stream) (hi : i ∈ f.server.controlClients)
    (herror : mask &&& EVENT_ERROR = 0) (answers : List Delivery) :
    let hd := if mask &&& EVENT_READABLE ≠ 0
      then controlHandleReadable k f.server i (f.results i answers) else ⟨[], true, f.server⟩
    let f' : ControlFeed := ⟨hd.finish i, f.after i mask answers, f.calls ++ hd.calls⟩
    f'.Inv i stream ∧ (i ∈ f'.server.controlClients ↔ hd.ok = true)
      ∧ (f.server.sendFailed i = true → f'.server.sendFailed i = true)
      ∧ (hd.ok = false → f'.server.sendFailed i = true
        ∨ f'.Stands stream (controlArrived f.server i)
          ∧ ((controlArrived f.server i).length = CONNECTION_BUFFER_SIZE
            ∨ controlArrived f.server i = [] ∧ f.unread = [])) := by
  intro hd f'
  by_cases hreadable : mask &&& EVENT_READABLE ≠ 0
  · have hf' : f' = ⟨hd.finish i, f.left i answers, f.calls ++ hd.calls⟩ :=
      congrArg (ControlFeed.mk _ · _) (if_pos ⟨herror, hreadable⟩)
    obtain ⟨hinv, hpresent, hfail, hends, -⟩ := h.read (k := k) hi answers
    rw [hf', show hd = _ from if_pos hreadable]
    exact ⟨hinv, hpresent, hfail, fun hok => (hends hok).imp_left And.left⟩
  · have hd' : hd = ⟨[], true, f.server⟩ := if_neg hreadable
    have hf' : f' = f := by
      show (⟨hd.finish i, f.after i mask answers, f.calls ++ hd.calls⟩ : ControlFeed) = f
      rw [hd', show f.after i mask answers = f.unread from if_neg fun hc => hreadable hc.2,
        List.append_nil]
      rfl
    rw [hf', hd']
    exact ⟨h, ⟨fun _ => rfl, fun _ => hi⟩, id, fun hok => (by cases hok)⟩

/-- **One callback.** -/
theorem ControlFeed.Inv.callback (h : f.Inv i stream) (hi : i ∈ f.server.controlClients)
    (mask : UInt32) (answers : List Delivery) :
    f.Called i stream mask answers (f.step k i (.callback mask answers)) := by
  by_cases herror : mask &&& EVENT_ERROR ≠ 0
  · exact h.callback_error hi herror answers
  have herror0 : mask &&& EVENT_ERROR = 0 := not_not.mp herror
  rcases controlHandleFlush_cases (k := k) h.kept hi mask with
    ⟨hflush, hi₁, hs₁⟩ | ⟨hflush, hend, hfailed, -⟩
  swap
  · exact h.callback_unsent hi herror0 hflush hend hfailed answers
  obtain ⟨hkept₁, hold, hinp, hmono⟩ := controlHandleFlush_keeps h.kept hi hs₁
  have harr : controlArrived (controlHandleFlush k f.server i mask).2 i = controlArrived f.server i :=
    congrArg toList hinp
  have h₁ := h.change hkept₁ hold fun _ => ⟨hi, harr⟩
  obtain ⟨hresults, hafter⟩ := ControlFeed.after_congr (f := f) hinp mask answers
  have hinput := h₁.input (k := k) hi₁ herror0 answers
  rw [hresults, hafter, harr] at hinput
  extract_lets hd f₂ at hinput
  rw [show f.step k i (.callback mask answers)
    = { f₂ with server := if hd.ok = true ∧ mask &&& EVENT_HANGUP ≠ 0
          then controlClientDestroy f₂.server i else f₂.server } from
    ControlFeed.step_go hi herror0 hflush answers]
  obtain ⟨h₂, hpresent, hfail, hends⟩ := hinput
  by_cases hend : hd.ok = true ∧ mask &&& EVENT_HANGUP ≠ 0
  · -- everything is handled, and the hangup ends the client
    rw [if_pos hend]
    have hi₂ := hpresent.mpr hend.1
    obtain ⟨hinv, hfailed⟩ := h₂.destroy hi₂
    exact ⟨hinv, fun hf => hfailed (hfail (hmono hf)), .inr ⟨⟨_, h₂.stands hi₂⟩, rfl,
      fun _ => not_present_controlClientDestroy h₂.kept, fun _ => .inr (.inl hend.2)⟩⟩
  · rw [if_neg hend]
    refine ⟨h₂, fun hf => hfail (hmono hf), ?_⟩
    cases hok : hd.ok with
    | true =>
        have hi₂ := hpresent.mpr hok
        have hno : ¬ mask &&& EVENT_HANGUP ≠ 0 := fun hhang => hend ⟨hok, hhang⟩
        refine .inr ⟨⟨_, h₂.stands hi₂⟩, rfl, fun hmask => ?_, fun hgone => absurd hi₂ hgone⟩
        exact absurd hmask (not_or.mpr ⟨herror, hno⟩)
    | false =>
        have hgone : i ∉ f₂.server.controlClients := fun hmem => by
          rw [hpresent, hok] at hmem
          cases hmem
        refine (hends hok).imp_right fun ⟨hstands, hcause⟩ => ?_
        exact ⟨⟨_, hstands⟩, rfl, fun _ => hgone, fun _ => .inr (.inr hcause)⟩

theorem ControlFeed.Inv.move (h : f.Inv i stream) (m : ControlFeedMove) :
    (f.step k i m).Inv i stream
      ∧ (f.server.sendFailed i = true → (f.step k i m).server.sendFailed i = true) := by
  cases m with
  | callback mask answers =>
      by_cases hi : i ∈ f.server.controlClients
      · have hcall := h.callback (k := k) hi mask answers
        exact ⟨hcall.inv, hcall.failed⟩
      · rw [show f.step k i (.callback mask answers) = f from if_pos hi]
        exact ⟨h, id⟩
  | other st =>
      by_cases hst : st.isControlInput i = true
      · rw [show f.step k i (.other st) = f from if_pos hst]
        exact ⟨h, id⟩
      · rw [show f.step k i (.other st) = { f with server := DdeSeatd.step k f.server st } from
          if_neg hst]
        exact ⟨h.daemon st, sendFailed_step h.kept st⟩

end

/-! ## Whole streams -/

/-- The feed before anything of the stream has been read. -/
def controlFeedInit (k : Kernel) (vtBound : Bool) (steps : List Step) (stream : List UInt8) :
    ControlFeed :=
  ⟨run k vtBound steps, stream, []⟩

def controlFeedRun (k : Kernel) (i : ControlId) (f : ControlFeed) (moves : List ControlFeedMove) :
    ControlFeed :=
  Run.run (ControlFeed.step k i) f moves

section

variable {k : Kernel} {vtBound : Bool} {steps : List Step} {i : ControlId} {stream : List UInt8}

theorem controlFeedInit_inv (hi : i ∈ (run k vtBound steps).controlClients) :
    (controlFeedInit k vtBound steps stream).Inv i stream := by
  have hkept := kept_run k vtBound steps
  have harr : controlArrived (controlFeedInit k vtBound steps stream).server i = [] :=
    toList_of_size (inp_run k vtBound steps (.control i))
  refine ⟨hkept, hkept.peers.controlsFresh i hi, List.nil_prefix, fun _ => ⟨?_, [], [], rfl, ?_, rfl⟩⟩
  · rw [harr]
    exact Nat.zero_le _
  · rw [harr]
    rfl

theorem controlFeedRun_inv {f : ControlFeed} (h : f.Inv i stream) (moves : List ControlFeedMove) :
    (controlFeedRun k i f moves).Inv i stream :=
  Run.run_invariant (P := ControlFeed.Inv i stream) (fun _ m hf => (hf.move m).1) h moves

end

/-! ## Framing -/

/-- The daemon has treated the bytes as frames of a header and as many bytes as the header says:
its calls are the frames of the reference parser, and while the client is there, the two stand at
the same byte. -/
def ControlFeed.Frames (i : ControlId) (stream : List UInt8) (f : ControlFeed) : Prop :=
  f.calls.map Prod.fst <+: (parse controlFrame stream).frames.map Prod.fst
    ∧ (i ∈ f.server.controlClients → ∃ read, stream = read ++ f.unread
      ∧ (parse controlFrame read).frames.map Prod.fst = f.calls.map Prod.fst
      ∧ (parse controlFrame read).rest = controlArrived f.server i)

section

variable {k : Kernel} {i : ControlId} {stream : List UInt8} {f : ControlFeed}

/-- On a stream of aligned frames the daemon's parser is the reference parser. -/
theorem ControlFeed.Inv.frames (h : f.Inv i stream)
    (haligned : ∀ x ∈ (parse controlFrame stream).frames, Aligned x) : f.Frames i stream := by
  refine ⟨controlTake_agrees stream haligned ▸ h.calls, fun hi => ?_⟩
  obtain ⟨-, read, xs, hstream, hparse, hxs⟩ := h.present hi
  have hread : ∀ x ∈ (parse controlFrame read).frames, Aligned x := fun x hx => by
    refine haligned x ?_
    rw [hstream]
    exact (parse_frames_mono controlFrame_lawful read f.unread).subset hx
  rw [controlTake_agrees read hread] at hparse
  exact ⟨read, hstream, by rw [hparse, hxs], by rw [hparse]⟩

/-- Where the two stand at the same byte, what was read so far is aligned. -/
theorem ControlFeed.Inv.aligned (h : f.Inv i stream) (hi : i ∈ f.server.controlClients)
    (hframes : f.Frames i stream) : ∃ read, stream = read ++ f.unread
      ∧ (∀ x ∈ (parse controlFrame read).frames, Aligned x)
      ∧ parse controlTake read = parse controlFrame read
      ∧ (parse controlTake read).bad = false
      ∧ (parse controlTake read).rest = controlArrived f.server i := by
  obtain ⟨-, read, xs, hstream, hparse, hxs⟩ := h.present hi
  obtain ⟨read', hstream', hcalls, hrest⟩ := hframes.2 hi
  obtain rfl : read = read' := List.append_cancel_right (hstream.symm.trans hstream')
  have haligned := (controlTake_agrees_iff read).mp ⟨by rw [hparse, hcalls, hxs], by rw [hparse, hrest]⟩
  exact ⟨read, hstream, haligned, controlTake_agrees read haligned, by rw [hparse], by rw [hparse]⟩

theorem ControlMsg.part_length (m : ControlMsg) :
    ∀ part ∈ m.parts, part.length ≤ CONNECTION_BUFFER_SIZE := by
  have hcap : CONNECTION_BUFFER_SIZE = 256 := rfl
  intro part hpart
  rcases List.mem_cons.mp hpart with rfl | hpart
  · rw [hcap]
    simp [headerBytes]
  · cases m <;> simp only [ControlMsg.payload, List.mem_singleton, List.not_mem_nil] at hpart
    all_goals
      rw [hpart, hcap]
      simp

/-- A kernel that takes whatever is sent takes every message to a control client. -/
theorem controlSendMessage_draining (k : Kernel) {s : Server} (h : s.Sound) (m : ControlMsg) :
    (controlSendMessage k.draining s i m).1 = true := by
  have hput := putAll_draining k m.part_length (h (.control i))
  have hmoves := ((putAll_spec k.draining s (.control i) m.parts (h (.control i))).ok hput).1
  unfold controlSendMessage
  dsimp only
  rw [if_pos hput]
  set s₁ := (Server.putAll k.draining (.control i) s m.parts).2 with hs₁
  obtain ⟨-, hsame⟩ := only_controlFrame s₁ (.control i) i m true
  have hsound : ((s₁.record (.controlFrame i m true)).connection (.control i)).Sound := by
    show ((s₁.record (.controlFrame i m true)).channel (.control i)).connection.Sound
    rw [hsame]
    exact hmoves.sound
  have hflush : ((s₁.record (.controlFrame i m true)).flush k.draining (.control i)).1 = true :=
    (finishIo_fst _ (.control i) _).trans (connectionFlush_drains hsound)
  rw [hput]
  unfold controlClientFlush
  dsimp only
  rw [if_pos hflush]

theorem handleControlRequest_draining (k : Kernel) {s : Server} (h : s.Kept) (r : ControlRequest) :
    (handleControlRequest k.draining s i r).1 = true := by
  rcases handleControlRequest_cases k.draining s i r with ⟨-, s₁, -, heq⟩ | ⟨-, s₁, m, hcalls, -, heq⟩
  · rw [heq]
  · rw [heq]
    exact controlSendMessage_draining k (hcalls.sound h.sound) m

/-- A callback that reports only EVENT_READABLE is the read. -/
theorem ControlFeed.step_readable (hi : i ∈ f.server.controlClients) (answers : List Delivery) :
    f.step k i (.callback EVENT_READABLE answers)
      = ⟨(controlHandleReadable k f.server i (f.results i answers)).finish i, f.left i answers,
          f.calls ++ (controlHandleReadable k f.server i (f.results i answers)).calls⟩ := by
  have hno : ¬ EVENT_READABLE &&& EVENT_HANGUP ≠ 0 := by decide
  have hgo := ControlFeed.step_go (k := k) hi (rfl : EVENT_READABLE &&& EVENT_ERROR = 0) rfl answers
  extract_lets s₁ hd at hgo
  rw [if_neg fun hc => hno hc.2] at hgo
  exact hgo

/-- If the daemon keeps to the frames whatever happens, they are aligned: a kernel that takes every
reply and delivers byte after byte shows the first one that is not. -/
theorem ControlFeed.Inv.aligned_of_frames (h : f.Inv i stream) (hi : i ∈ f.server.controlClients)
    (hall : ∀ moves, (controlFeedRun k.draining i f moves).Frames i stream) :
    ∀ x ∈ (parse controlFrame stream).frames, Aligned x := by
  induction hn : f.unread.length using Nat.strong_induction_on generalizing f with
  | _ n ih =>
      obtain ⟨read, hstream, haligned, hagree, hbad, hrest⟩ := h.aligned hi (hall [])
      by_cases hunread : f.unread = []
      · rw [hstream, hunread, List.append_nil]
        exact haligned
      set m : ControlFeedMove := .callback EVENT_READABLE [.bytes 1]
      have hstep := ControlFeed.step_readable (k := k.draining) hi [.bytes 1]
      obtain ⟨hinv, hpresent, -, hends, hless⟩ := h.read (k := k.draining) hi [.bytes 1]
      rw [← hstep] at hinv hpresent hends hless
      cases hok : (controlHandleReadable k.draining f.server i (f.results i [.bytes 1])).ok with
      | true =>
          exact ih _ (hn ▸ hless rfl hunread hok) hinv (hpresent.mpr hok)
            (fun moves => hall (m :: moves)) rfl
      | false =>
          rcases hends hok with ⟨-, s₁, r, hkept, hunsent⟩ | ⟨-, hfull | ⟨-, hnil⟩⟩
          · rw [handleControlRequest_draining k hkept] at hunsent
            cases hunsent
          · -- the frame in the ring does not fit, and there are no more
            have hwait : controlFrame (controlArrived f.server i) = .wait := by
              have := parse_rest controlFrame_lawful read (hagree ▸ hbad)
              rwa [← hagree, hrest] at this
            have hmore := parse_append controlFrame_lawful read f.unread (hagree ▸ hbad)
            rw [← hagree, hrest, parse_bad (controlFrame_full hfull hwait hunread)] at hmore
            rw [hstream, hmore, List.append_nil, hagree]
            exact haligned
          · exact absurd hnil hunread

end

/-- **Framing on the control socket.** The daemon treats a stream as frames of a header and as many
bytes as the header says, whatever the poller reports, in whatever pieces the stream is read and
whatever else the daemon does, exactly if the frames in it that are not requests have no payload.
Such a frame is answered with EPROTO, but its payload stays in the ring and is read as the next
header. -/
theorem control_framing_iff (stream : List UInt8) :
    (∀ (k : Kernel) (vtBound : Bool) (steps : List Step) (i : ControlId)
        (moves : List ControlFeedMove), i ∈ (run k vtBound steps).controlClients →
        (controlFeedRun k i (controlFeedInit k vtBound steps stream) moves).Frames i stream)
      ↔ ∀ x ∈ (parse controlFrame stream).frames, Aligned x := by
  constructor
  · intro hall
    have hi : 0 ∈ (run (.obliging 1) true [.controlConnect 100]).controlClients := by decide +kernel
    have hinv : (controlFeedInit (.obliging 1) true [.controlConnect 100] stream).Inv 0 stream :=
      controlFeedInit_inv hi
    exact hinv.aligned_of_frames (k := .obliging 1) hi fun moves =>
      hall (.obliging 1) true [.controlConnect 100] 0 moves hi
  · intro haligned k vtBound steps i moves hi
    exact (controlFeedRun_inv (controlFeedInit_inv hi) moves).frames haligned

/-- A frame with an unknown opcode and four bytes of payload: the payload is served as
GET_ACTIVE_VT. -/
theorem payload_served_as_request :
    let stream : List UInt8 := [9, 0, 4, 0, 3, 0, 0, 0]
    let f := controlFeedRun (.obliging 1) 0
      (controlFeedInit (.obliging 1) true [.controlConnect 100] stream)
      [.callback EVENT_READABLE [.bytes 8]]
    (parse controlFrame stream).frames = [(.invalid, 4)]
      ∧ f.calls = [(.invalid, true), (.getActiveVt, true)]
      ∧ ¬ f.calls.map Prod.fst <+: (parse controlFrame stream).frames.map Prod.fst := by
  decide +kernel

/-! ## Hangup -/

/-- The stream consists of these requests. -/
def IsRequests (rs : List ControlRequest) (stream : List UInt8) : Prop :=
  (parse controlFrame stream).frames.map Prod.fst = rs ∧ (parse controlFrame stream).bad = false
    ∧ (parse controlFrame stream).rest = [] ∧ .invalid ∉ rs

instance IsRequests.decidable (rs : List ControlRequest) (stream : List UInt8) :
    Decidable (IsRequests rs stream) :=
  inferInstanceAs (Decidable (_ ∧ _))

/-- All requests have been executed if the client is gone, and once everything has been read. -/
def ControlFeed.Executed (i : ControlId) (rs : List ControlRequest) (f : ControlFeed) : Prop :=
  i ∉ f.server.controlClients ∨ f.unread = [] → f.calls.map Prod.fst = rs

instance ControlFeed.Executed.decidable (i : ControlId) (rs : List ControlRequest) (f : ControlFeed) :
    Decidable (f.Executed i rs) :=
  inferInstanceAs (Decidable (_ → _))

/-- A callback that reports an error or a hangup leaves nothing in the socket: there was nothing,
or it reports EVENT_READABLE too, and its one read takes everything. -/
def DrainedAtHangup (i : ControlId) (f : ControlFeed) : ControlFeedMove → Prop
  | .callback mask answers => i ∈ f.server.controlClients →
      mask &&& EVENT_ERROR ≠ 0 ∨ mask &&& EVENT_HANGUP ≠ 0 → f.after i mask answers = []
  | .other _ => True

instance DrainedAtHangup.decidable (i : ControlId) (f : ControlFeed) (m : ControlFeedMove) :
    Decidable (DrainedAtHangup i f m) := by
  cases m with
  | callback mask answers => exact inferInstanceAs (Decidable (_ → _ → _))
  | other st => exact inferInstanceAs (Decidable True)

section

variable {k : Kernel} {i : ControlId} {stream rest : List UInt8} {rs : List ControlRequest}
  {f : ControlFeed}

/-- A stream of requests is aligned, so that the daemon finds the requests in it. -/
theorem IsRequests.parse (h : IsRequests rs stream) :
    ∃ xs, Framer.parse controlTake stream = ⟨xs, false, []⟩ ∧ xs.map Prod.fst = rs := by
  obtain ⟨hrs, hbad, hrest, hvalid⟩ := h
  have haligned : ∀ x ∈ (Framer.parse controlFrame stream).frames, Aligned x := fun x hx hinvalid => by
    refine absurd ?_ hvalid
    rw [← hrs, ← hinvalid]
    exact List.mem_map_of_mem hx
  refine ⟨(Framer.parse controlFrame stream).frames, ?_, hrs⟩
  rw [controlTake_agrees stream haligned, ← hbad, ← hrest]

/-- All requests have been executed exactly if everything has been read. -/
theorem ControlFeed.Stands.executed_iff (h : f.Stands stream rest) (hrs : IsRequests rs stream) :
    f.calls.map Prod.fst = rs ↔ f.unread = [] := by
  obtain ⟨xs, hparse, hxs⟩ := hrs.parse
  obtain ⟨read, ys, hstream, hread, hys⟩ := h
  have hmore := parse_more controlTake_lawful hread f.unread
  rw [← hstream, hparse] at hmore
  obtain ⟨hframes, -, hrest⟩ := Parsed.mk.inj hmore
  constructor
  · intro hcalls
    -- no frame is left, so what is left would wait for more
    have hlen : xs.length = ys.length := by
      rw [← List.length_map (f := Prod.fst), hxs, ← hcalls, ← hys, List.length_map]
    have hnone : (Framer.parse controlTake (rest ++ f.unread)).frames = [] := by
      have := congrArg List.length hframes
      rw [List.length_append] at this
      exact List.length_eq_zero_iff.mp (by omega)
    have htotal := parse_length controlTake_lawful (w := takenFor)
      (fun h => (controlTake_eq_frame h).1) (rest ++ f.unread)
    rw [hnone, ← hrest] at htotal
    exact (List.append_eq_nil_iff.mp (List.length_eq_zero_iff.mp htotal)).2
  · intro hnil
    rw [hnil, List.append_nil] at hstream
    rw [← hstream, hparse] at hread
    rw [← hys, ← (Parsed.mk.inj hread).1, hxs]

/-- The requests fit into the ring, which is never full between callbacks. -/
theorem ControlFeed.Inv.not_full (h : f.Inv i stream) (hi : i ∈ f.server.controlClients)
    (hrs : IsRequests rs stream) : (controlArrived f.server i).length ≠ CONNECTION_BUFFER_SIZE := by
  intro hfull
  obtain ⟨xs, hparse, -⟩ := hrs.parse
  obtain ⟨-, read, ys, hstream, hread, -⟩ := h.present hi
  have hmore := parse_more controlTake_lawful hread f.unread
  rw [← hstream, hparse] at hmore
  obtain ⟨-, hbad, hrest⟩ := Parsed.mk.inj hmore
  have hwait : controlTake (controlArrived f.server i) = .wait := by
    have := parse_rest controlTake_lawful read (by rw [hread])
    rwa [hread] at this
  by_cases hunread : f.unread = []
  · rw [hunread, List.append_nil, parse_wait hwait] at hrest
    rw [show controlArrived f.server i = [] from hrest.symm] at hfull
    exact absurd hfull (by decide)
  · have hwait' : controlFrame (controlArrived f.server i) = .wait := by
      unfold controlTake at hwait
      split at hwait
      · cases hwait
      · assumption
      · cases hwait
    have htake : controlTake (controlArrived f.server i ++ f.unread) = .bad := by
      simp only [controlTake, controlFrame_full hfull hwait' hunread]
    rw [parse_bad htake] at hbad
    cases hbad

/-- A step of the daemon that takes no input from the client ends it only for a failed send. -/
theorem present_other (h : f.Inv i stream) (hi : i ∈ f.server.controlClients) {st : Step}
    (hst : st.isControlInput i = false) (hsent : (DdeSeatd.step k f.server st).sendFailed i = false) :
    i ∈ (DdeSeatd.step k f.server st).controlClients := by
  rcases step_tells (k := k) h.kept hi st with ⟨hhere, -⟩ | ⟨hgone, rfl | rfl | hfailed⟩
  · exact hhere
  · simp [Step.isControlInput] at hst
  · -- the flush failed
    rcases controlHandleFlush_cases (k := k) h.kept hi EVENT_WRITABLE with
      ⟨-, hhere, ⟨hmask, -⟩ | heq⟩ | ⟨-, -, hfailed, -⟩
    · exact absurd hmask (by decide)
    · exact heq ▸ hhere
    · rw [hsent] at hfailed
      cases hfailed
  · rw [hsent] at hfailed
    cases hfailed

/-- At the end of the stream a read leaves nothing. -/
theorem ControlFeed.after_nil (h : f.unread = []) (mask : UInt32) (answers : List Delivery) :
    f.after i mask answers = [] := by
  unfold ControlFeed.after ControlFeed.left unreadAfter
  rw [h]
  split_ifs
  · split
    · exact List.drop_nil
    · rfl
  · rfl

/-- A move at which no send fails executes everything exactly if it meets the condition. -/
theorem ControlFeed.Inv.executed_move (h : f.Inv i stream) (hrs : IsRequests rs stream)
    (hbefore : f.Executed i rs) (m : ControlFeedMove)
    (hsent : (f.step k i m).server.sendFailed i = false) :
    (f.step k i m).Executed i rs ↔ DrainedAtHangup i f m := by
  cases m with
  | other st =>
      refine ⟨fun _ => trivial, fun _ hdone => ?_⟩
      by_cases hst : st.isControlInput i = true
      · rw [show f.step k i (.other st) = f from if_pos hst] at hdone ⊢
        exact hbefore hdone
      have hstep : f.step k i (.other st) = { f with server := DdeSeatd.step k f.server st } :=
        if_neg hst
      rw [hstep] at hsent hdone ⊢
      refine hbefore ?_
      by_cases hi : i ∈ f.server.controlClients
      · have hhere := present_other (k := k) h hi (Bool.eq_false_iff.mpr hst) hsent
        exact .inr (hdone.resolve_left (not_not.mpr hhere))
      · exact .inl hi
  | callback mask answers =>
      by_cases hi : i ∈ f.server.controlClients
      swap
      · rw [show f.step k i (.callback mask answers) = f from if_pos hi]
        exact ⟨fun _ hmem => absurd hmem hi, fun _ => hbefore⟩
      have hout := (h.callback (k := k) hi mask answers).sent
      rw [hsent] at hout
      obtain ⟨⟨rest, hstands⟩, hunread, hends, hcause⟩ := hout.resolve_left Bool.false_ne_true
      have hiff := hstands.executed_iff hrs
      rw [hunread] at hiff
      constructor
      · intro hexecuted _ hmask
        exact hiff.mp (hexecuted (.inl (hends hmask)))
      · rintro hdrained (hgone | hnil)
        · refine hiff.mpr ?_
          rcases hcause hgone with hmask | hmask | hfull | ⟨-, hnil⟩
          · exact hdrained hi (.inl hmask)
          · exact hdrained hi (.inr hmask)
          · exact absurd hfull (h.not_full hi hrs)
          · exact ControlFeed.after_nil hnil mask answers
        · exact hiff.mpr (hunread ▸ hnil)

end

/-- **Requests and a hangup.** For every stream of well-formed requests of a connected control
client that then closes its socket, and every run in which no send to it fails: all requests are
executed before the client is destroyed, and once everything has been read, in every state of the
run, if and only if every callback that reports an error or a hangup leaves nothing in the socket.
One callback reads once, and at most what fits into the ring. -/
theorem hangup_executes_iff (k : Kernel) (vtBound : Bool) (steps : List Step) (i : ControlId)
    (hi : i ∈ (run k vtBound steps).controlClients) (rs : List ControlRequest) (stream : List UInt8)
    (hrs : IsRequests rs stream) (moves : List ControlFeedMove)
    (hsent : (controlFeedRun k i (controlFeedInit k vtBound steps stream) moves).server.sendFailed i
      = false) :
    (∀ pre, pre <+: moves →
        (controlFeedRun k i (controlFeedInit k vtBound steps stream) pre).Executed i rs)
      ↔ Run.Meets (ControlFeed.step k i) (DrainedAtHangup i) (controlFeedInit k vtBound steps stream)
          moves := by
  have hinit : (controlFeedInit k vtBound steps stream).Inv i stream := controlFeedInit_inv hi
  refine Run.forall_prefix_iff_meets_while (J := ControlFeed.Inv i stream)
    (Q := fun f => f.server.sendFailed i = false) (fun _ m h => (h.move m).1) ?_ ?_ ?_ hinit ?_
    moves hsent
  · intro f m h hafter
    by_contra hbefore
    rw [(h.move m).2 (Bool.eq_true_of_not_eq_false hbefore)] at hafter
    cases hafter
  · exact fun f m h hP hQ hC => (h.executed_move hrs hP m hQ).mpr hC
  · exact fun f m h hP hQ hP' => (h.executed_move hrs hP m hQ).mp hP'
  · -- nothing has been executed yet, and that is right only if there is nothing to execute
    rintro (hgone | hnil)
    · exact absurd hi hgone
    · exact ((hinit.stands hi).executed_iff hrs).mpr hnil

/-- A compositor gets `n` group VTs, from VT 2 on, through a control client. -/
def registerVts (n : Nat) : List Step :=
  [.connect 7, .request 0 .openSeat, .controlConnect 8]
    ++ (List.range n).map fun v => .control 0 (.createGroupVt 7 (v + 2))

/-- The requests that destroy these group VTs again. They are not answered, so that the daemon sends
nothing to the client, which has closed its socket. -/
def destroyVts (n : Nat) : List ControlRequest :=
  (List.range n).map fun v => .destroyGroupVt (v + 2)

/-- The bytes of these requests. -/
def destroyVtsBytes (n : Nat) : List UInt8 :=
  (List.range n).flatMap fun v => [2, 0, 4, 0, .ofNat (v + 2), 0, 0, 0]

/-- Two of them, read in pieces, with a hangup at the last bytes. -/
theorem hangup_executes_two :
    let moves : List ControlFeedMove := [.callback EVENT_READABLE [.bytes 3],
      .callback (EVENT_READABLE ||| EVENT_HANGUP) [.interrupted, .bytes 256]]
    let f := controlFeedRun (.obliging 1) 0
      (controlFeedInit (.obliging 1) true (registerVts 2) (destroyVtsBytes 2)) moves
    f.calls.map Prod.fst = destroyVts 2 ∧ 0 ∉ f.server.controlClients := by
  intro moves f
  have hgone : 0 ∉ f.server.controlClients := by decide +kernel
  have hall := (hangup_executes_iff (.obliging 1) true (registerVts 2) 0 (by decide +kernel)
    (destroyVts 2) (destroyVtsBytes 2) (by decide +kernel) moves (by decide +kernel)).mpr
    (by decide +kernel)
  exact ⟨hall moves List.prefix_rfl (.inl hgone), hgone⟩

/-- 33 of them are 264 bytes, eight more than fit into the ring: with EVENT_READABLE and EVENT_HANGUP
together the last one is lost, and its group VT stays. No reply was due, so no send can have
failed. -/
theorem hangup_loses_request :
    let f := controlFeedRun (.obliging 1) 0
      (controlFeedInit (.obliging 1) true (registerVts 33) (destroyVtsBytes 33))
      [.callback (EVENT_READABLE ||| EVENT_HANGUP) [.bytes 264]]
    IsRequests (destroyVts 33) (destroyVtsBytes 33) ∧ f.server.sendFailed 0 = false
      ∧ 0 ∉ f.server.controlClients ∧ f.calls.map Prod.fst = destroyVts 32
      ∧ f.server.seat.groupVts = [⟨0, 34⟩] ∧ ¬ f.Executed 0 (destroyVts 33) := by
  decide +kernel

end DdeSeatd
