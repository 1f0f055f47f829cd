import DdeSeatd.Channel
import DdeSeatd.ServerRefinement

set_option autoImplicit false

/-! # The system calls of the daemon

`Logs Q s s'` says that the system calls made between two states satisfy `Q`. Other than `Calls` it
covers functions that send messages, so it can be said of whole handlers. Here it is shown for the
functions that send, for those that open, strip and switch clients, and for the handlers that have
nothing to do with VTs; which ttys they open and which of them they put into another mode is left to
two conditions `O` and `M`.
-/

namespace DdeSeatd

/-! ## System calls in the trace -/

/-- The system calls made from `s` to `s'` satisfy `Q`. -/
def Logs (Q : Syscall → Prop) (s s' : Server) : Prop :=
  ∃ evs, s'.trace = evs ++ s.trace ∧ ∀ call r, .sys call r ∈ evs → Q call

section

variable {Q : Syscall → Prop} {s s' s'' : Server}

theorem Logs.refl (s : Server) : Logs Q s s := ⟨[], rfl, fun _ _ h => absurd h List.not_mem_nil⟩

theorem Logs.trans (h : Logs Q s s') (h' : Logs Q s' s'') : Logs Q s s'' := by
  obtain ⟨evs, htrace, hevs⟩ := h
  obtain ⟨evs', htrace', hevs'⟩ := h'
  refine ⟨evs' ++ evs, by rw [htrace', htrace, List.append_assoc], fun call r hmem => ?_⟩
  rcases List.mem_append.mp hmem with hmem | hmem
  · exact hevs' call r hmem
  · exact hevs call r hmem

/-- A change that leaves the trace alone. -/
theorem Logs.same (h : Logs Q s s') (htrace : s''.trace = s'.trace) : Logs Q s s'' := by
  obtain ⟨evs, hevs, hall⟩ := h
  exact ⟨evs, htrace.trans hevs, hall⟩

theorem Logs.record (h : Logs Q s s') {e : Event} (he : ∀ call r, e = .sys call r → Q call) :
    Logs Q s (s'.record e) := by
  obtain ⟨evs, htrace, hevs⟩ := h
  refine ⟨e :: evs, by rw [List.cons_append, ← htrace]; rfl, fun call r hmem => ?_⟩
  rcases List.mem_cons.mp hmem with heq | hmem
  · exact he call r heq.symm
  · exact hevs call r hmem

theorem Calls.logs (h : Calls Q s s') : Logs Q s s' := by
  obtain ⟨calls, htrace, hcalls⟩ := h.trace
  refine ⟨_, htrace, fun call r hmem => ?_⟩
  obtain ⟨x, hx, heq⟩ := List.mem_map.mp hmem
  cases heq
  exact hcalls x hx

theorem Logs.calls (h : Logs Q s s') (h' : Calls Q s' s'') : Logs Q s s'' := h.trans h'.logs

end

/-! ## Messages -/

section

variable {Q : Syscall → Prop} (k : Kernel) (s : Server)

theorem logs_finishIo (p : Peer) (o : SendOut) : Logs Q s (s.finishIo p o).2 := by
  have hconn : Logs Q s (s.setConnection p o.conn) := (Logs.refl s).same (trace_setConnection s p _)
  unfold Server.finishIo
  dsimp only
  cases o.ret with
  | ok n => exact hconn.record fun _ _ h => by cases h
  | error e => exact (hconn.record fun _ _ h => by cases h).same rfl

theorem logs_flush (p : Peer) : Logs Q s (s.flush k p).2 := logs_finishIo s p _

theorem logs_putAll (p : Peer) (parts : List (List UInt8)) :
    Logs Q s (Server.putAll k p s parts).2 := by
  induction parts generalizing s with
  | nil => exact Logs.refl s
  | cons part parts ih =>
      have hput : Logs Q s (s.put k p part).2 := logs_finishIo s p _
      simp only [Server.putAll]
      split_ifs
      · exact hput.trans (ih _)
      · exact hput

theorem logs_clientPutMsg (c : ClientId) (m : ServerMsg) : Logs Q s (clientPutMsg k s c m).2 :=
  (logs_putAll k s _ _).record fun _ _ h => by cases h

theorem logs_clientFlush (c : ClientId) : Logs Q s (clientFlush k s c).2 := by
  have hflush := logs_flush (Q := Q) k s (.client c)
  unfold clientFlush
  dsimp only
  split_ifs
  · exact hflush
  · exact hflush.same (trace_setMask _ _ _)
  · exact hflush

theorem logs_clientSendEvent (c : ClientId) (m : ServerMsg) :
    Logs Q s (clientSendEvent k s c m).2 := by
  have hput := logs_clientPutMsg (Q := Q) k s c m
  have hflush := hput.trans (logs_flush k (clientPutMsg k s c m).2 (.client c))
  unfold clientSendEvent
  dsimp only
  split_ifs
  · exact hflush
  · exact hflush.record fun _ _ h => by cases h
  · exact hput

theorem logs_controlClientDestroy (i : ControlId) : Logs Q s (controlClientDestroy s i) := by
  refine Logs.record ((Logs.refl s).same rfl) fun _ _ heq => ?_
  cases heq

theorem logs_controlSendMessage (i : ControlId) (m : ControlMsg) :
    Logs Q s (controlSendMessage k s i m).2 := by
  have hput : Logs Q s ((Server.putAll k (.control i) s m.parts).2.record
      (.controlFrame i m (Server.putAll k (.control i) s m.parts).1)) :=
    (logs_putAll k s _ _).record fun _ _ h => by cases h
  unfold controlSendMessage
  dsimp only
  split_ifs
  · refine hput.trans ?_
    generalize (Server.putAll k (.control i) s m.parts).2.record
      (.controlFrame i m (Server.putAll k (.control i) s m.parts).1) = s1
    have hflush := logs_flush (Q := Q) k s1 (.control i)
    unfold controlClientFlush
    dsimp only
    split_ifs
    · exact hflush.same (trace_setMask _ _ _)
    · exact hflush.same (trace_setMask _ _ _)
    · exact hflush
  · exact hput

theorem logs_controlBroadcastVtChange (oldVt newVt : Int) :
    Logs Q s (controlBroadcastVtChange k s oldVt newVt) := by
  have hall : ∀ (is : List ControlId) (s : Server),
      Logs Q s (controlBroadcastTo k (.vtChanged oldVt newVt) s is) := by
    intro is
    induction is with
    | nil => exact Logs.refl
    | cons i is ih =>
        intro s
        have hsend := logs_controlSendMessage (Q := Q) k s i (.vtChanged oldVt newVt)
        simp only [controlBroadcastTo]
        split_ifs
        · exact hsend.trans (ih _)
        · exact (hsend.trans (logs_controlClientDestroy _ i)).trans (ih _)
  exact hall _ s

end

/-! ## Seat functions -/

section

variable {O M : Int → Prop} (k : Kernel) (s : Server) {Q : Syscall → Prop} {c : ClientId}

theorem logs_seatEnableClient {openVt : Int} (hO : O openVt) (hM : M openVt) :
    Logs (Syscall.OnTty O M) s (seatEnableClient k s c openVt).2 := by
  have hup : Logs (Syscall.OnTty O M) s (seatActivateDevices k s c) :=
    (calls_seatActivateDevices k s c).offTty.logs
  have hsend := hup.trans (logs_clientSendEvent k (seatActivateDevices k s c) c .enableSeat)
  unfold seatEnableClient
  dsimp only
  split_ifs
  · exact hsend.same rfl
  · exact hsend.calls ((calls_seatRollBack k _ c openVt).oneTty hO hM)

/-- Opening a client opens and configures the tty of its VT. -/
theorem logs_seatOpenClient (hO : O (vtForClientOpen s c)) (hM : M (vtForClientOpen s c)) :
    Logs (Syscall.OnTty O M) s (seatOpenClient k s c).2 := by
  have hvt : Logs (Syscall.OnTty O M) s
      (if s.seat.vtBound then vtOpen k s (vtForClientOpen s c) else (true, s)).2 := by
    split_ifs
    · exact ((calls_vtConfigure k s _ true).oneTty hO hM).logs
    · exact Logs.refl s
  unfold seatOpenClient
  dsimp only
  generalize (if s.seat.vtBound then vtOpen k s (vtForClientOpen s c) else (true, s)) = v
    at hvt ⊢
  split_ifs
  · exact (Logs.refl s).same rfl
  · exact (Logs.refl s).same rfl
  · exact hvt.trans (logs_seatEnableClient k v.2 hO hM)
  · exact hvt

theorem logs_seatActivate (hO : ∀ c, seatActivateTarget s = some c → O (vtForClientOpen s c))
    (hM : ∀ c, seatActivateTarget s = some c → M (vtForClientOpen s c)) :
    Logs (Syscall.OnTty O M) s (seatActivate k s).2 := by
  unfold seatActivate
  split_ifs
  · exact Logs.refl s
  · cases htarget : seatActivateTarget s with
    | none => exact Logs.refl s
    | some c =>
        exact ((Logs.refl s).same rfl).trans
          (logs_seatOpenClient k (s.setSeat { s.seat with nextClient := none }) (hO c htarget)
            (hM c htarget))

theorem logs_seatDisableClient (c : ClientId) :
    Logs (Syscall.OnTty O M) s (seatDisableClient k s c).2 := by
  unfold seatDisableClient
  split_ifs
  · exact (Logs.refl s).same rfl
  · exact (((calls_seatDeactivateDevices k s c).offTty.logs).same rfl).trans
      (logs_clientSendEvent k _ c .disableSeat)

/-- Taking its devices and group VTs from a client closes the ttys of the group VTs. -/
theorem logs_seatStripClient (hO : ∀ g ∈ s.seat.groupVts, g.owner = c → O g.vt)
    (hM : ∀ g ∈ s.seat.groupVts, g.owner = c → M g.vt) :
    Logs (Syscall.OnTty O M) s (seatStripClient k s c) := by
  unfold seatStripClient
  dsimp only
  set s1 := s.setSeat { s.seat with
    nextClient := if s.seat.nextClient = some c then none else s.seat.nextClient,
    clients := s.seat.clients.erase c } with hs1
  have hclose : Logs (Syscall.OnTty O M) s
      (seatCloseDevices k c (closeRounds (s1.clients c).devices) s1) :=
    ((Logs.refl s).same rfl).trans (calls_seatCloseDevices k s1 c _).offTty.logs
  have hseat : (seatCloseDevices k c (closeRounds (s1.clients c).devices) s1).seat = s1.seat :=
    (seat_of_closes k (seatCloseDevices_path k s1 (some c) (Or.inr rfl) _)).1
  set s2 := seatCloseDevices k c (closeRounds (s1.clients c).devices) s1 with hs2
  have hgroups : Calls (Syscall.OnTty (fun vt => O vt ∧ M vt) fun vt => O vt ∧ M vt) s2
      (seatRemoveGroupVts k c s2 s2.seat.groupVts) := by
    refine calls_seatRemoveGroupVts k s2 c s2.seat.groupVts fun g hg howner => ?_
    rw [hseat] at hg
    exact ⟨hO g hg howner, hM g hg howner⟩
  exact hclose.calls (hgroups.onTty (fun _ => And.left) fun _ => And.right)

/-! ## Connections -/

theorem logs_clientDestroy_idle
    (hseat : (s.clients c).seat = false) : Logs Q s (clientDestroy k s c) := by
  unfold clientDestroy
  rw [hseat]
  refine Logs.record ((Logs.refl s).same ?_) fun _ _ heq => ?_
  · rw [trace_setConnection]
    rfl
  · cases heq

theorem Tried.logs_watched {k : Kernel} {s s₁ s₂ : Server} (h : Tried k s s₁)
    (hQ : ∀ call, call.OffTty → Q call) (hsame : s₂.trace = s₁.trace) :
    Logs Q s (s₂.call k .pollerAddFd).2 :=
  ((h.calls hQ).logs.same hsame).calls ((Calls.refl _).call k (hQ .pollerAddFd trivial))

theorem logs_serverAddClient (hQ : ∀ call, call.OffTty → Q call) (pid : Int) :
    Logs Q s (serverAddClient k s pid) :=
  serverAddClient_cases pid (fun _ h => (h.calls hQ).logs) (fun _ h => h.logs_watched hQ rfl)
    fun s₁ h => (h.logs_watched hQ (show (clientCreate s₁ pid).trace = _ from rfl)).trans
      (logs_clientDestroy_idle k _ (seat_clientCreate k s₁ pid))

theorem logs_controlAddClient (hQ : ∀ call, call.OffTty → Q call) (pid : Int) :
    Logs Q s (controlAddClient k s pid) :=
  controlAddClient_cases pid (fun _ h => (h.calls hQ).logs) (fun _ h => h.logs_watched hQ rfl)
    fun s₁ h => (h.logs_watched hQ (show (controlCreate s₁ pid).trace = _ from rfl)).trans
      (logs_controlClientDestroy _ _)

/-! ## Requests about devices and sessions -/

theorem logs_handleOpenDevice (c : ClientId) (path : CString) :
    Logs (Syscall.OnTty O M) s (handleOpenDevice k s c path).2 := by
  have hopen : Calls (Syscall.OnTty O M) s (seatOpenDevice k s c path).2 :=
    (calls_seatOpenDevice k s c path).offTty
  unfold handleOpenDevice
  dsimp only
  split_ifs
  · exact Logs.refl s
  · cases (seatOpenDevice k s c path).1.bind
        fun i => ((seatOpenDevice k s c path).2.clients c).devices[i]?.map fun d => (i, d) with
    | none => exact hopen.logs.trans (logs_clientPutMsg k _ c _)
    | some x =>
        have hdup : Calls (Syscall.OnTty O M) s
            ((seatOpenDevice k s c path).2.call k (.dup x.2.fd)).2 := hopen.call k (by trivial)
        dsimp only
        split_ifs
        · refine hdup.logs.trans ?_
          generalize ((seatOpenDevice k s c path).2.call k (.dup x.2.fd)).2 = s1
          unfold sendDevice
          dsimp only
          cases connectionPutFd (s1.newFd.clients c).connection s1.nextFd with
          | error e => exact (Logs.refl s1).same rfl
          | ok conn =>
              refine Logs.trans (Logs.record ((Logs.refl s1).same ?_) fun _ _ heq => ?_)
                (logs_clientPutMsg k _ c _)
              · rw [trace_setConnection]
                rfl
              · cases heq
        · exact (hdup.trans (calls_seatCloseDevice k _ c x.1).offTty).logs.trans
            (logs_clientPutMsg k _ c _)

theorem logs_handleCloseDevice (c : ClientId) (deviceId : Int) :
    Logs (Syscall.OnTty O M) s (handleCloseDevice k s c deviceId).2 := by
  have hfind : Calls (Syscall.OnTty O M) s (seatFindDevice s c deviceId).2 :=
    (calls_seatFindDevice s c deviceId).offTty
  unfold handleCloseDevice
  dsimp only
  split_ifs
  · exact Logs.refl s
  · cases (seatFindDevice s c deviceId).1 with
    | none => exact hfind.logs.trans (logs_clientPutMsg k _ c _)
    | some i =>
        exact (hfind.trans (calls_seatCloseDevice k _ c i).offTty).logs.trans
          (logs_clientPutMsg k _ c _)

theorem logs_seatSetNextSession (hO : s.seat.vtBound = true → O s.seat.curVt)
    (c : ClientId) (session : Int) :
    Logs (Syscall.OnTty O M) s (seatSetNextSession k s c session).2 := by
  unfold seatSetNextSession
  split_ifs with h1 h2 h3 h4 h5 h6 hb
  · exact (Logs.refl s).same rfl
  · exact (Logs.refl s).same rfl
  · exact Logs.refl s
  · exact Logs.refl s
  · exact (Logs.refl s).same rfl
  · exact Logs.refl s
  · have hcur : ∀ vt, vt = s.seat.curVt → O vt := by
      rintro vt rfl
      exact hO hb
    exact ((calls_seatRequestVt k s session).onTty hcur fun _ => False.elim).logs
  · cases s.seat.clients.find? fun o => (s.clients o).session = session with
    | none => exact (Logs.refl s).same rfl
    | some target =>
        dsimp only
        cases (s.setSeat { s.seat with nextClient := some target }).seat.activeClient with
        | none => exact (Logs.refl s).same rfl
        | some a => exact ((Logs.refl s).same rfl).trans (logs_seatDisableClient k _ a)

/-! ## VT signals and control requests -/

theorem logs_seatVtActivate (h0 : O 0)
    (hcur : s.seat.vtBound = true → O (seatUpdateVt k s).2.seat.curVt) :
    Logs (Syscall.OnTty O M) s (seatVtActivate k s).2 := by
  by_cases hb : s.seat.vtBound = false
  · rw [seatVtActivate, if_pos hb]
    exact Logs.refl s
  · have hopens : ∀ vt, vt = 0 ∨ vt = (seatUpdateVt k s).2.seat.curVt → O vt := by
      rintro vt (rfl | rfl)
      · exact h0
      · exact hcur (by simpa using hb)
    exact ((calls_seatVtActivate k s).onTty hopens fun _ => False.elim).logs

theorem logs_seatVtRelease (h0 : O 0)
    (hcur : s.seat.vtBound = true → O (seatUpdateVt k s).2.seat.curVt) :
    Logs (Syscall.OnTty O M) s (seatVtRelease k s).2 := by
  unfold seatVtRelease
  split_ifs with hb
  · exact Logs.refl s
  have hcur := hcur (by simpa using hb)
  have hupdate : Logs (Syscall.OnTty O M) s (seatUpdateVt k s).2 := by
    have hzero : ∀ vt : Int, vt = 0 → O vt := by
      rintro vt rfl
      exact h0
    exact ((calls_seatUpdateVt k s).onTty hzero fun _ => False.elim).logs
  -- the acknowledgement, on the VT that was found
  have hack : ∀ s' : Server, Logs (Syscall.OnTty O M) s s' →
      s'.seat.curVt = (seatUpdateVt k s).2.seat.curVt →
      Logs (Syscall.OnTty O M) s (vtAck k s' true).2 := by
    intro s' hs' hsame
    have hopens : ∀ vt, vt = s'.seat.curVt → O vt := by
      rintro vt rfl
      rw [hsame]
      exact hcur
    exact hs'.calls ((calls_vtAck k s' true).onTty hopens fun _ => False.elim)
  dsimp only
  refine hack _ ?_ ?_
  · cases (seatUpdateVt k s).2.seat.activeClient with
    | none => exact hupdate
    | some a =>
        dsimp only
        split_ifs
        · exact hupdate
        · exact hupdate.calls (calls_seatDropClientDrmMaster k _ a).offTty
        · exact hupdate
  · cases (seatUpdateVt k s).2.seat.activeClient with
    | none => rfl
    | some a =>
        dsimp only
        split_ifs
        · rfl
        · obtain ⟨evs, ds, -, -, hview⟩ := view_seatDropClientDrmMaster k (seatUpdateVt k s).2 none a
          exact congrArg (fun v => (View.seat v).curVt) hview
        · rfl

theorem logs_controlHandleWritable (i : ControlId) :
    Logs Q s (controlHandleWritable k s i) := by
  have hflush := logs_flush (Q := Q) k s (.control i)
  unfold controlHandleWritable
  dsimp only
  split_ifs
  · exact hflush.same (trace_setMask _ _ _)
  · exact hflush.trans (logs_controlClientDestroy _ i)
  · exact hflush

theorem logs_controlReplyVt (i : ControlId) (m : Int → ControlMsg)
    (r : Int × Server) : Logs Q r.2 (controlReplyVt k i m r).2 := by
  unfold controlReplyVt
  split_ifs <;> exact logs_controlSendMessage k _ i _

end

end DdeSeatd
