import DdeSeatd.Channel

set_option autoImplicit false

/-! # Talks

Every function of the daemon that uses a connection does so in one of a few ways, the kinds of
`Talk`: put a frame, queue a fd and put the frame that goes with it, send a seat event, flush,
drain a connection that has become writable, answer a control client, accept and close. `Does`
says which call of the model a talk is. What it does to the channel of its peer is `Effect`,
which no longer mentions the kernel; the channels of other peers it leaves alone
(`Talk.Does.only`).

`Talks k ts s s'` then says that the daemon went from `s` to `s'` by the talks `ts`, in this
order, and system calls.
-/

namespace DdeSeatd

open RingBuffer Labelled

/-! ## Bytes of a connection -/

def ServerMsg.bytes (m : ServerMsg) : List UInt8 := m.parts.flatten

/-- `data` was put on the channel, and bytes were sent from it; nothing else happened. -/
def Channel.Moves (data : List UInt8) (ch ch' : Channel) : Prop :=
  ∃ sent, Transfer ch.connection data ch'.connection sent
    ∧ ch' = { ch with connection := ch'.connection, sent := ch.sent ++ sent,
                      closed := ch.closed ++ segmentFds sent }

theorem Channel.Moves.refl {ch : Channel} (h : ch.connection.Sound) : ch.Moves [] ch :=
  ⟨[], .refl h, by simp⟩

theorem Channel.Moves.trans {ch ch' ch'' : Channel} {data data' : List UInt8}
    (h : ch.Moves data ch') (h' : ch'.Moves data' ch'') : ch.Moves (data ++ data') ch'' := by
  obtain ⟨sent, ht, heq⟩ := h
  obtain ⟨sent', ht', heq'⟩ := h'
  refine ⟨sent ++ sent', ht.trans ht', ?_⟩
  rw [heq', heq]
  simp [List.append_assoc]

theorem Channel.Moves.sound {ch ch' : Channel} {data : List UInt8} (h : ch.Moves data ch') :
    ch'.connection.Sound := by
  obtain ⟨_, ht, -⟩ := h
  exact ht.sound

/-- Only the channel of `p` changed, and no peer came or went. -/
structure Only (p : Peer) (s s' : Server) : Prop where
  other : ∀ q, q ≠ p → s'.channel q = s.channel q
  live : s'.live = s.live
  controlClients : s'.controlClients = s.controlClients
  nextClientId : s'.nextClientId = s.nextClientId
  nextControlId : s'.nextControlId = s.nextControlId

theorem Only.refl (p : Peer) (s : Server) : Only p s s := ⟨fun _ _ => rfl, rfl, rfl, rfl, rfl⟩

theorem Only.trans {p : Peer} {s s' s'' : Server} (h : Only p s s') (h' : Only p s' s'') :
    Only p s s'' :=
  ⟨fun q hq => (h'.other q hq).trans (h.other q hq), h'.live.trans h.live,
    h'.controlClients.trans h.controlClients, h'.nextClientId.trans h.nextClientId,
    h'.nextControlId.trans h.nextControlId⟩

/-! ## Puts and flushes -/

section

variable (k : Kernel) (s : Server) (p : Peer)

/-- Nothing that channels show depends on `errno`. -/
theorem channel_setErrno (e : Nat) (q : Peer) : (s.setErrno e).channel q = s.channel q := by
  cases q <;> rfl

theorem only_setErrno (e : Nat) : Only p s (s.setErrno e) :=
  ⟨fun q _ => channel_setErrno s e q, rfl, rfl, rfl, rfl⟩

theorem only_setConnection (conn : Connection) : Only p s (s.setConnection p conn) := by
  refine ⟨fun q hq => ?_, ?_, ?_, ?_, ?_⟩
  · unfold Server.channel
    rw [connection_setConnection_of_ne s p hq, mask_setConnection, trace_setConnection]
  all_goals cases p <;> rfl

theorem only_setMask (mask : UInt32) : Only p s (s.setMask p mask) := by
  refine ⟨fun q hq => ?_, ?_, ?_, ?_, ?_⟩
  · unfold Server.channel
    rw [connection_setMask, mask_setMask_of_ne s p hq, trace_setMask]
  all_goals cases p <;> rfl

theorem channel_setMask (mask : UInt32) :
    (s.setMask p mask).channel p = { s.channel p with mask := mask } := by
  unfold Server.channel
  rw [connection_setMask, mask_setMask, trace_setMask]

/-- An event that says nothing about `q`. -/
theorem channel_record {e : Event} {q : Peer} (hsent : e.sentTo q = [])
    (hclosed : e.closedFor q = []) (hqueued : e.queuedFor q = []) (hframes : e.framesTo q = [])
    (hunflushed : e.unflushedTo q = []) : (s.record e).channel q = s.channel q := by
  have hconn : (s.record e).connection q = s.connection q := by cases q <;> rfl
  have hmask : (s.record e).mask q = s.mask q := by cases q <;> rfl
  have htrace : (s.record e).trace = e :: s.trace := rfl
  unfold Server.channel
  rw [hconn, hmask, htrace]
  simp only [past_cons, hsent, hclosed, hqueued, hframes, hunflushed, List.append_nil,
    devicesOpened_cons hframes]

theorem only_record {e : Event} (hsent : ∀ q, q ≠ p → e.sentTo q = [])
    (hclosed : ∀ q, q ≠ p → e.closedFor q = []) (hqueued : ∀ q, q ≠ p → e.queuedFor q = [])
    (hframes : ∀ q, q ≠ p → e.framesTo q = [])
    (hunflushed : ∀ q, q ≠ p → e.unflushedTo q = []) : Only p s (s.record e) :=
  ⟨fun q hq => channel_record s (hsent q hq) (hclosed q hq) (hqueued q hq) (hframes q hq)
    (hunflushed q hq), rfl, rfl, rfl, rfl⟩

theorem only_io (err : Option Nat) (sent : List Segment) (closed : List Int) :
    Only p s (s.record (.io p err sent closed)) :=
  only_record s p (fun _ hq => if_neg hq.symm) (fun _ hq => if_neg hq.symm) (fun _ _ => rfl)
    (fun _ _ => rfl) (fun _ _ => rfl)

theorem channel_io (err : Option Nat) (sent : List Segment) (closed : List Int) :
    (s.record (.io p err sent closed)).channel p
      = { s.channel p with sent := (s.channel p).sent ++ sent,
                           closed := (s.channel p).closed ++ closed } := by
  have hconn : (s.record (.io p err sent closed)).connection p = s.connection p := by
    cases p <;> rfl
  have hmask : (s.record (.io p err sent closed)).mask p = s.mask p := by cases p <;> rfl
  have htrace : (s.record (.io p err sent closed)).trace = .io p err sent closed :: s.trace := rfl
  unfold Server.channel
  rw [hconn, hmask, htrace, devicesOpened_cons rfl]
  simp [Event.sentTo, Event.closedFor, Event.queuedFor, Event.framesTo, Event.unflushedTo]

theorem finishIo_fst (o : SendOut) : (s.finishIo p o).1 = o.succeeded := by
  unfold Server.finishIo SendOut.succeeded
  dsimp only
  split
  · next h => rw [h]; rfl
  · next h => rw [h]; rfl

theorem only_finishIo (o : SendOut) : Only p s (s.finishIo p o).2 := by
  have hset := only_setConnection s p o.conn
  unfold Server.finishIo
  dsimp only
  split
  · exact hset.trans (only_io _ p _ _ _)
  · exact (hset.trans (only_io _ p _ _ _)).trans (only_setErrno _ p _)

theorem channel_finishIo (o : SendOut) :
    (s.finishIo p o).2.channel p
      = { s.channel p with connection := o.conn, sent := (s.channel p).sent ++ o.sent,
                           closed := (s.channel p).closed ++ o.closed } := by
  have hset : (s.setConnection p o.conn).channel p = { s.channel p with connection := o.conn } := by
    unfold Server.channel
    rw [connection_setConnection, mask_setConnection, trace_setConnection]
  unfold Server.finishIo
  dsimp only
  split
  · rw [channel_io, hset]
  · rw [channel_setErrno, channel_io, hset]

theorem moves_finishIo {o : SendOut} {data : List UInt8} (h : o.Transfers (s.connection p) data) :
    (s.channel p).Moves data ((s.finishIo p o).2.channel p) := by
  rw [channel_finishIo, h.closed]
  exact ⟨o.sent, h.transfer, rfl⟩

/-- What the puts of a frame did. -/
structure PutsAll (parts : List (List UInt8)) (r : Bool × Server) : Prop where
  only : Only p s r.2
  /-- All parts are on the connection, the last one still in the ring. -/
  ok : r.1 = true → (s.channel p).Moves parts.flatten (r.2.channel p)
    ∧ ∀ part ∈ parts.getLast?, part.length ≤ (r.2.channel p).connection.out.size
  /-- The parts before the one that failed are on the connection. -/
  fail : r.1 = false → ∃ data, data <+: parts.flatten
    ∧ ((∀ part ∈ parts, part ≠ []) → data ≠ parts.flatten) ∧ (parts.length ≤ 1 → data = [])
    ∧ (s.channel p).Moves data (r.2.channel p)

theorem putAll_spec (parts : List (List UInt8)) (h : (s.connection p).Sound) :
    PutsAll s p parts (Server.putAll k p s parts) := by
  induction parts generalizing s with
  | nil =>
      exact ⟨.refl p s, fun _ => ⟨.refl h, fun _ hp => (nomatch hp)⟩, fun hf => (nomatch hf)⟩
  | cons part parts ih =>
      have hput := connectionPut_puts h part (k.sendmsg s.trace p)
      have honly : Only p s (s.put k p part).2 := only_finishIo s p _
      have hfst : (s.put k p part).1 = _ := finishIo_fst s p _
      unfold Server.putAll
      dsimp only
      cases hr : (s.put k p part).1 with
      | true =>
          obtain ⟨htransfers, hroom⟩ := hput.ok (hfst.symm.trans hr)
          have hmoves : (s.channel p).Moves part ((s.put k p part).2.channel p) :=
            moves_finishIo s p htransfers
          obtain ⟨honly', hok', hfail'⟩ := ih (s.put k p part).2 hmoves.sound
          rw [if_pos rfl]
          refine ⟨honly.trans honly', fun hall => ?_, fun hall => ?_⟩
          · obtain ⟨hmoves', hlast⟩ := hok' hall
            refine ⟨hmoves.trans hmoves', fun x hx => ?_⟩
            cases parts with
            | nil =>
                -- the last part is this one, and nothing was sent since
                obtain rfl : part = x := by simpa using hx
                show part.length ≤ ((s.put k p part).2.channel p).connection.out.size
                rw [show ((s.put k p part).2.channel p) = _ from channel_finishIo s p _]
                exact hroom
            | cons next parts => exact hlast x (by simpa using hx)
          · obtain ⟨data, hpre, hless, -, hmoves'⟩ := hfail' hall
            refine ⟨part ++ data, ?_, fun hparts heq => ?_, fun hlen => ?_, hmoves.trans hmoves'⟩
            · rw [List.flatten_cons]
              exact List.prefix_append_right_inj _ |>.mpr hpre
            · rw [List.flatten_cons] at heq
              exact hless (fun x hx => hparts x (List.mem_cons_of_mem part hx))
                (List.append_cancel_left heq)
            · -- with no parts left the puts cannot fail
              have hnil : parts = [] := by
                simp only [List.length_cons] at hlen
                exact List.length_eq_zero_iff.mp (by omega)
              rw [hnil] at hall
              cases hall
      | false =>
          rw [if_neg Bool.false_ne_true]
          refine ⟨honly, fun hall => (nomatch hr.symm.trans hall),
            fun _ => ⟨[], List.nil_prefix, fun hparts heq => ?_, fun _ => rfl, ?_⟩⟩
          · rw [List.flatten_cons, eq_comm, List.append_eq_nil_iff] at heq
            exact hparts part List.mem_cons_self heq.1
          · exact moves_finishIo s p (hput.fail (hfst.symm.trans hr))

theorem flush_spec (h : (s.connection p).Sound) :
    Only p s (s.flush k p).2 ∧ (s.channel p).Moves [] ((s.flush k p).2.channel p)
      ∧ ((s.flush k p).1 = true ↔ ((s.flush k p).2.channel p).connection.out.size = 0) := by
  obtain ⟨htransfers, hok⟩ := connectionFlush_transfers h (k.sendmsg s.trace p)
  refine ⟨only_finishIo s p _, moves_finishIo s p htransfers, ?_⟩
  rw [show (s.flush k p).1 = _ from finishIo_fst s p _,
    show (s.flush k p).2.channel p = _ from channel_finishIo s p _]
  exact hok

end

/-! ## The kinds of talk -/

inductive Talk where
  /-- `ok` says whether every put of the frame succeeded. -/
  | frame (c : ClientId) (m : ServerMsg) (ok : Bool)
  /-- The response to OPEN_DEVICE: the fd is queued, then the frame is put. -/
  | device (c : ClientId) (d : SeatDevice) (ok : Bool)
  | event (c : ClientId) (m : ServerMsg) (ok : Bool)
  | flush (c : ClientId) (ok : Bool)
  /-- A message to a control client, who is dropped if it cannot be sent. -/
  | message (i : ControlId) (m : ControlMsg) (ok : Bool)
  | drain (p : Peer) (ok : Bool)
  | accept (p : Peer)
  | close (p : Peer)
  deriving DecidableEq

def Talk.peer : Talk → Peer
  | .frame c _ _ | .device c _ _ | .event c _ _ | .flush c _ => .client c
  | .message i _ _ => .control i
  | .drain p _ | .accept p | .close p => p

/-- The end of `client_destroy`. -/
def clientFree (s : Server) (c : ClientId) : Server :=
  let closed := connectionCloseFds (s.clients c).connection
  let s := { s with idleClients := s.idleClients.erase c, live := s.live.erase c }
  (s.setConnection (.client c) closed.2).record (.fdsClosed (.client c) closed.1)

theorem clientDestroy_eq (k : Kernel) (s : Server) (c : ClientId) :
    clientDestroy k s c
      = clientFree (if (s.clients c).seat then seatRemoveClient k s c else s) c := rfl

/-- The call of the model that a talk is. -/
def Talk.Does (k : Kernel) (s s' : Server) : Talk → Prop
  | .frame c m ok => clientPutMsg k s c m = (ok, s')
  | .device c d ok =>
      (∃ conn, connectionPutFd (s.clients c).connection s.nextFd = .ok conn)
        ∧ sendDevice k s c d = (ok, s')
  | .event c m ok => clientSendEvent k s c m = (ok, s')
  | .flush c ok => clientFlush k s c = (ok, s')
  | .message i m ok =>
      (controlSendMessage k s i m).1 = ok
        ∧ s' = if ok then (controlSendMessage k s i m).2
          else controlClientDestroy (controlSendMessage k s i m).2 i
  | .drain p ok =>
      (s.flush k p).1 = ok
        ∧ s' = if ok then (s.flush k p).2.setMask p EVENT_READABLE else (s.flush k p).2
  | .accept (.client c) => c = s.nextClientId ∧ ∃ pid, s' = clientCreate s pid
  | .accept (.control i) => i = s.nextControlId ∧ ∃ pid, s' = controlCreate s pid
  | .close (.client c) => s' = clientFree s c
  | .close (.control i) => s' = controlClientDestroy s i

/-! ## Effects -/

/-- The channel after a frame was put on it. -/
def Channel.said (ch : Channel) (m : ServerMsg) : Channel :=
  { ch with frames := ch.frames ++ [m],
            devices := ch.devices ++ m.opens.toList.map fun id => (id, ch.queued.getLast?) }

/-- What putting the frame `m` does. -/
def Channel.Frame (m : ServerMsg) (ok : Bool) (ch ch' : Channel) : Prop :=
  if ok then ∃ mid, ch.Moves m.bytes mid ∧ 0 < mid.connection.out.size ∧ ch' = mid.said m
  else ∃ data, data <+: m.bytes ∧ data ≠ m.bytes ∧ (m.payload = [] → data = [])
    ∧ ch.Moves data ch'

/-- The out ring is empty, or the peer is waited for. -/
def Channel.Served (ch ch' : Channel) : Prop :=
  ch.connection.out.size = 0 ∧ ch' = ch
    ∨ ch' = { ch with mask := EVENT_READABLE ||| EVENT_WRITABLE }

/-- The channel after its fds were closed for good. -/
def Channel.shut (ch : Channel) : Channel :=
  { ch with connection := (connectionCloseFds ch.connection).2,
            closed := ch.closed ++ (connectionCloseFds ch.connection).1 }

/-- What a talk does to the channel of its peer. -/
def Talk.Effect (ch ch' : Channel) : Talk → Prop
  | .frame _ m ok => ch.Frame m ok ch'
  | .device _ d ok =>
      ∃ fd conn, connectionPutFd ch.connection fd = .ok conn
        ∧ { ch with connection := conn, queued := ch.queued ++ [fdInt fd] }.Frame
            (.deviceOpened d.deviceId) ok ch'
  | .event _ m ok =>
      if ok then ∃ mid, ch.Moves m.bytes mid ∧ mid.connection.out.size = 0 ∧ ch' = mid.said m
      else
        (∃ data, data <+: m.bytes ∧ data ≠ m.bytes ∧ (m.payload = [] → data = [])
          ∧ ch.Moves data ch')
        ∨ ∃ mid, ch.Moves m.bytes mid ∧ 0 < mid.connection.out.size
            ∧ ch' = { mid.said m with unflushed := mid.unflushed ++ [m] }
  | .flush _ ok => ∃ mid, ch.Moves [] mid ∧ if ok then mid.Served ch' else ch' = mid
  | .message _ _ ok =>
      ∃ data mid, ch.Moves data mid
        ∧ if ok then { mid with mask := EVENT_READABLE }.Served ch' else ch' = mid.shut
  | .drain _ ok =>
      ∃ mid, ch.Moves [] mid
        ∧ if ok then mid.connection.out.size = 0 ∧ ch' = { mid with mask := EVENT_READABLE }
          else ch' = mid
  | .accept _ => ch' = { ch with connection := Connection.zero, mask := EVENT_READABLE }
  | .close _ => ch' = ch.shut

/-- The live seat clients after a talk. -/
def Talk.clientsAfter (live : List ClientId) : Talk → List ClientId
  | .accept (.client c) => c :: live
  | .close (.client c) => live.erase c
  | _ => live

/-- The control clients after a talk. -/
def Talk.controlsAfter (controls : List ControlId) : Talk → List ControlId
  | .accept (.control i) => i :: controls
  | .close (.control i) | .message i _ false => controls.erase i
  | _ => controls

/-- A peer that is accepted gets the next identifier. -/
def Talk.Numbers (s s' : Server) : Talk → Prop
  | .accept (.client c) =>
      c = s.nextClientId ∧ s'.nextClientId = c + 1 ∧ s'.nextControlId = s.nextControlId
  | .accept (.control i) =>
      i = s.nextControlId ∧ s'.nextControlId = i + 1 ∧ s'.nextClientId = s.nextClientId
  | _ => s'.nextClientId = s.nextClientId ∧ s'.nextControlId = s.nextControlId

/-- What a talk does to the daemon. -/
structure Talk.Spec (t : Talk) (s s' : Server) : Prop where
  other : ∀ q, q ≠ t.peer → s'.channel q = s.channel q
  effect : t.Effect (s.channel t.peer) (s'.channel t.peer)
  live : s'.live = t.clientsAfter s.live
  controlClients : s'.controlClients = t.controlsAfter s.controlClients
  numbers : t.Numbers s s'

/-- A talk that accepts and closes nobody. -/
theorem Talk.Spec.of_only {t : Talk} {s s' : Server} (h : Only t.peer s s')
    (heffect : t.Effect (s.channel t.peer) (s'.channel t.peer))
    (hlive : t.clientsAfter s.live = s.live)
    (hcontrols : t.controlsAfter s.controlClients = s.controlClients)
    (hnumbers : t.Numbers s s' ↔ s'.nextClientId = s.nextClientId
      ∧ s'.nextControlId = s.nextControlId) : t.Spec s s' :=
  ⟨h.other, heffect, h.live.trans hlive.symm, h.controlClients.trans hcontrols.symm,
    hnumbers.mpr ⟨h.nextClientId, h.nextControlId⟩⟩

/-- Every connection of the daemon is sound. -/
def Server.Sound (s : Server) : Prop := ∀ p, (s.connection p).Sound

section

variable (k : Kernel) (s : Server)

/-! ### Seat clients -/

theorem only_frame (c : ClientId) (m : ServerMsg) (ok : Bool) :
    Only (.client c) s (s.record (.frame c m ok)) := by
  refine only_record s (.client c) (fun _ _ => rfl) (fun _ _ => rfl) (fun _ _ => rfl) ?_
    (fun _ _ => rfl)
  intro q hq
  exact if_neg fun h => hq h.1.symm

theorem channel_frame (c : ClientId) (m : ServerMsg) (ok : Bool) :
    (s.record (.frame c m ok)).channel (.client c)
      = if ok then (s.channel (.client c)).said m else s.channel (.client c) := by
  cases ok <;> cases hm : m.opens <;>
    simp [Server.channel, Channel.said, Server.record, Server.connection, Server.mask,
      Event.sentTo, Event.closedFor, Event.queuedFor, Event.framesTo, Event.unflushedTo,
      devicesOpened, hm]

theorem only_unflushed (c : ClientId) (m : ServerMsg) :
    Only (.client c) s (s.record (.unflushed c m)) := by
  refine only_record s (.client c) (fun _ _ => rfl) (fun _ _ => rfl) (fun _ _ => rfl)
    (fun _ _ => rfl) ?_
  intro q hq
  exact if_neg fun h => hq h.symm

theorem channel_unflushed (c : ClientId) (m : ServerMsg) :
    (s.record (.unflushed c m)).channel (.client c)
      = { s.channel (.client c) with
          unflushed := (s.channel (.client c)).unflushed ++ [m] } := by
  simp [Server.channel, Server.record, Server.connection, Server.mask, Event.sentTo,
    Event.closedFor, Event.queuedFor, Event.framesTo, Event.unflushedTo, devicesOpened]

/-- The last put of a frame is not empty. -/
theorem ServerMsg.last_part (m : ServerMsg) : ∃ part ∈ m.parts.getLast?, 0 < part.length := by
  cases m <;>
    simp [ServerMsg.parts, frameParts, ServerMsg.payload, headerBytes, uint16Bytes]

theorem ServerMsg.parts_ne_nil (m : ServerMsg) : ∀ part ∈ m.parts, part ≠ [] := by
  cases m <;>
    simp [ServerMsg.parts, frameParts, ServerMsg.payload, headerBytes, uint16Bytes, intBytes]

theorem clientPutMsg_spec (c : ClientId) (m : ServerMsg) (h : s.Sound) :
    Only (.client c) s (clientPutMsg k s c m).2
      ∧ (s.channel (.client c)).Frame m (clientPutMsg k s c m).1
          ((clientPutMsg k s c m).2.channel (.client c)) := by
  obtain ⟨honly, hok, hfail⟩ := putAll_spec k s (.client c) m.parts (h (.client c))
  unfold clientPutMsg
  dsimp only
  refine ⟨honly.trans (only_frame _ c m _), ?_⟩
  rw [channel_frame]
  unfold Channel.Frame
  cases hr : (Server.putAll k (.client c) s m.parts).1 with
  | true =>
      obtain ⟨hmoves, hlast⟩ := hok hr
      obtain ⟨part, hpart, hpos⟩ := m.last_part
      exact ⟨_, hmoves, hpos.trans_le (hlast part hpart), rfl⟩
  | false =>
      obtain ⟨data, hpre, hless, hone, hmoves⟩ := hfail hr
      refine ⟨data, hpre, hless m.parts_ne_nil, fun hpayload => hone ?_, hmoves⟩
      simp [ServerMsg.parts, frameParts, hpayload]

theorem Channel.Frame.sound {m : ServerMsg} {ok : Bool} {ch ch' : Channel}
    (h : ch.Frame m ok ch') : ch'.connection.Sound := by
  cases ok with
  | true =>
      obtain ⟨mid, hmoves, -, rfl⟩ := h
      exact hmoves.sound
  | false =>
      obtain ⟨_, -, -, -, hmoves⟩ := h
      exact hmoves.sound

/-- A frame that was put, and what is moved afterwards. -/
theorem Channel.Moves.said {ch mid ch' : Channel} {m : ServerMsg} {data data' : List UInt8}
    (h : ch.Moves data mid) (h' : (mid.said m).Moves data' ch') :
    ∃ mid', ch.Moves (data ++ data') mid' ∧ mid'.connection = ch'.connection
      ∧ ch' = mid'.said m := by
  obtain ⟨sent, ht, heq⟩ := h'
  refine ⟨{ mid with connection := ch'.connection, sent := mid.sent ++ sent,
                     closed := mid.closed ++ segmentFds sent }, h.trans ⟨sent, ht, rfl⟩, rfl, ?_⟩
  rw [heq]
  rfl

theorem clientSendEvent_spec (c : ClientId) (m : ServerMsg) (h : s.Sound) :
    Only (.client c) s (clientSendEvent k s c m).2
      ∧ (Talk.event c m (clientSendEvent k s c m).1).Effect (s.channel (.client c))
          ((clientSendEvent k s c m).2.channel (.client c)) := by
  obtain ⟨honly, hframe⟩ := clientPutMsg_spec k s c m h
  unfold clientSendEvent
  dsimp only
  cases hput : (clientPutMsg k s c m).1 with
  | false =>
      rw [hput] at hframe
      rw [if_neg Bool.false_ne_true]
      exact ⟨honly, by rw [hput]; exact .inl hframe⟩
  | true =>
      rw [hput] at hframe
      obtain ⟨mid, hmoves, -, hsaid⟩ := hframe
      have hsound : ((clientPutMsg k s c m).2.connection (.client c)).Sound := by
        show ((clientPutMsg k s c m).2.channel (.client c)).connection.Sound
        rw [hsaid]
        exact hmoves.sound
      obtain ⟨honly', hmoves', hempty⟩ := flush_spec k _ (.client c) hsound
      rw [hsaid] at hmoves'
      obtain ⟨mid', hmid', hconn, hsaid'⟩ := hmoves.said hmoves'
      rw [List.append_nil] at hmid'
      rw [if_pos rfl]
      cases hflush : ((clientPutMsg k s c m).2.flush k (.client c)).1 with
      | true =>
          rw [if_pos rfl]
          refine ⟨honly.trans honly', ?_⟩
          rw [hflush]
          exact ⟨mid', hmid', by rw [hconn]; exact hempty.mp hflush, hsaid'⟩
      | false =>
          rw [if_neg Bool.false_ne_true]
          refine ⟨(honly.trans honly').trans (only_unflushed _ c m), .inr ⟨mid', hmid', ?_, ?_⟩⟩
          · rw [hconn]
            refine Nat.pos_of_ne_zero fun h0 => ?_
            cases hflush.symm.trans (hempty.mpr h0)
          · rw [channel_unflushed, hsaid']
            rfl

theorem clientFlush_spec (c : ClientId) (h : s.Sound) :
    Only (.client c) s (clientFlush k s c).2
      ∧ (Talk.flush c (clientFlush k s c).1).Effect (s.channel (.client c))
          ((clientFlush k s c).2.channel (.client c)) := by
  obtain ⟨honly, hmoves, hempty⟩ := flush_spec k s (.client c) (h (.client c))
  unfold clientFlush
  dsimp only
  split_ifs with hok hagain
  · refine ⟨honly, _, hmoves, ?_⟩
    rw [hok]
    exact .inl ⟨hempty.mp hok, rfl⟩
  · refine ⟨honly.trans (only_setMask _ _ _), _, hmoves, .inr ?_⟩
    exact channel_setMask (s.flush k (.client c)).2 (.client c) _
  · refine ⟨honly, _, hmoves, ?_⟩
    rw [if_neg hok]

theorem sendDevice_spec (c : ClientId) (d : SeatDevice) (h : s.Sound) {conn : Connection}
    (hput : connectionPutFd (s.clients c).connection s.nextFd = .ok conn) :
    Only (.client c) s (sendDevice k s c d).2
      ∧ (Talk.device c d (sendDevice k s c d).1).Effect (s.channel (.client c))
          ((sendDevice k s c d).2.channel (.client c)) := by
  set queued := (s.newFd.setConnection (.client c) conn).record
    (.fdQueued c d.fd s.nextFd d.type) with hqueued
  have hsend : sendDevice k s c d = clientPutMsg k queued c (.deviceOpened d.deviceId) := by
    unfold sendDevice
    simp only [show (s.newFd.clients c).connection = (s.clients c).connection from rfl, hput]
    rfl
  have hnew : ∀ q, s.newFd.channel q = s.channel q := fun q => by cases q <;> rfl
  have honly : Only (.client c) s queued := by
    have hset := only_setConnection s.newFd (.client c) conn
    have hrec : Only (.client c) (s.newFd.setConnection (.client c) conn) queued := by
      refine only_record _ (.client c) (fun _ _ => rfl) (fun _ _ => rfl) (fun q hq => ?_)
        (fun _ _ => rfl) (fun _ _ => rfl)
      exact if_neg hq.symm
    have hboth := hset.trans hrec
    exact ⟨fun q hq => (hboth.other q hq).trans (hnew q), hboth.live, hboth.controlClients,
      hboth.nextClientId, hboth.nextControlId⟩
  have hchannel : queued.channel (.client c)
      = { s.channel (.client c) with
          connection := conn, queued := (s.channel (.client c)).queued ++ [fdInt s.nextFd] } := by
    simp [hqueued, Server.channel, Server.record, Server.newFd, Server.setConnection,
      Server.setClient, Server.connection, Server.mask, Event.sentTo, Event.closedFor,
      Event.queuedFor, Event.framesTo, Event.unflushedTo, devicesOpened]
  have hsound : queued.Sound := by
    intro q
    by_cases hq : q = .client c
    · subst hq
      show (queued.channel (.client c)).connection.Sound
      rw [hchannel]
      exact (connectionPutFd_ok (h (.client c)) hput).2.1
    · show (queued.channel q).connection.Sound
      rw [honly.other q hq]
      exact h q
  obtain ⟨honly', hframe⟩ := clientPutMsg_spec k queued c (.deviceOpened d.deviceId) hsound
  rw [hsend]
  refine ⟨honly.trans honly', s.nextFd, conn, hput, ?_⟩
  rw [← hchannel]
  exact hframe

/-! ### Control clients -/

theorem only_controlFrame (p : Peer) (i : ControlId) (m : ControlMsg) (ok : Bool) :
    Only p s (s.record (.controlFrame i m ok))
      ∧ (s.record (.controlFrame i m ok)).channel p = s.channel p :=
  ⟨only_record s p (fun _ _ => rfl) (fun _ _ => rfl) (fun _ _ => rfl) (fun _ _ => rfl)
    (fun _ _ => rfl), channel_record s rfl rfl rfl rfl rfl⟩

/-- What `control_client_flush` does to its channel. -/
theorem controlClientFlush_spec (i : ControlId) (h : (s.connection (.control i)).Sound) :
    Only (.control i) s (controlClientFlush k s i).2
      ∧ ∃ mid, (s.channel (.control i)).Moves [] mid
        ∧ if (controlClientFlush k s i).1 then
            Channel.Served { mid with mask := EVENT_READABLE }
              ((controlClientFlush k s i).2.channel (.control i))
          else (controlClientFlush k s i).2.channel (.control i) = mid := by
  obtain ⟨honly, hmoves, hempty⟩ := flush_spec k s (.control i) h
  unfold controlClientFlush
  dsimp only
  by_cases hok : (s.flush k (.control i)).1 = true
  · rw [if_pos hok]
    refine ⟨honly.trans (only_setMask _ _ _), _, hmoves, .inl ⟨hempty.mp hok, ?_⟩⟩
    exact channel_setMask (s.flush k (.control i)).2 (.control i) _
  · rw [if_neg hok]
    by_cases hagain : (s.flush k (.control i)).2.errno = EAGAIN
    · rw [if_pos hagain]
      refine ⟨honly.trans (only_setMask _ _ _), _, hmoves, .inr ?_⟩
      exact channel_setMask (s.flush k (.control i)).2 (.control i) _
    · rw [if_neg hagain]
      refine ⟨honly, _, hmoves, ?_⟩
      rw [if_neg hok]

theorem controlSendMessage_spec (i : ControlId) (m : ControlMsg) (h : s.Sound) :
    Only (.control i) s (controlSendMessage k s i m).2
      ∧ ∃ data mid, (s.channel (.control i)).Moves data mid
        ∧ if (controlSendMessage k s i m).1 then
            Channel.Served { mid with mask := EVENT_READABLE }
              ((controlSendMessage k s i m).2.channel (.control i))
          else (controlSendMessage k s i m).2.channel (.control i) = mid := by
  obtain ⟨honly, hok, hfail⟩ := putAll_spec k s (.control i) m.parts (h (.control i))
  unfold controlSendMessage
  dsimp only
  generalize Server.putAll k (.control i) s m.parts = r at honly hok hfail ⊢
  obtain ⟨ok, s₁⟩ := r
  obtain ⟨honly', hsame⟩ := only_controlFrame s₁ (.control i) i m ok
  cases ok with
  | true =>
      have hmoves := (hok rfl).1
      have hsound : ((s₁.record (.controlFrame i m true)).connection (.control i)).Sound := by
        show ((s₁.record (.controlFrame i m true)).channel (.control i)).connection.Sound
        rw [hsame]
        exact hmoves.sound
      obtain ⟨honly'', mid, hmid, hserved⟩ := controlClientFlush_spec k _ i hsound
      rw [hsame] at hmid
      exact ⟨(honly.trans honly').trans honly'', _, mid, hmoves.trans hmid, hserved⟩
  | false =>
      obtain ⟨data, -, -, -, hmoves⟩ := hfail rfl
      exact ⟨honly.trans honly', data, _, hmoves, hsame⟩

/-! ### Draining, accepting and closing -/

theorem drain_spec (p : Peer) (h : (s.connection p).Sound) :
    let s' := if (s.flush k p).1 then (s.flush k p).2.setMask p EVENT_READABLE
      else (s.flush k p).2
    Only p s s' ∧ (Talk.drain p (s.flush k p).1).Effect (s.channel p) (s'.channel p) := by
  obtain ⟨honly, hmoves, hempty⟩ := flush_spec k s p h
  dsimp only
  split_ifs with hok
  · refine ⟨honly.trans (only_setMask _ _ _), _, hmoves, ?_⟩
    rw [if_pos hok]
    exact ⟨hempty.mp hok, channel_setMask (s.flush k p).2 p _⟩
  · refine ⟨honly, _, hmoves, ?_⟩
    rw [if_neg hok]

theorem only_fdsClosed (p : Peer) (fds : List Int) :
    Only p s (s.record (.fdsClosed p fds)) :=
  only_record s p (fun _ _ => rfl) (fun _ hq => if_neg hq.symm) (fun _ _ => rfl) (fun _ _ => rfl)
    (fun _ _ => rfl)

/-- Closing the fds of a connection for good. -/
theorem close_channel (p : Peer) :
    let closed := connectionCloseFds (s.connection p)
    let s' := (s.setConnection p closed.2).record (.fdsClosed p closed.1)
    Only p s s' ∧ (Talk.close p).Effect (s.channel p) (s'.channel p) := by
  dsimp only
  refine ⟨(only_setConnection s p _).trans (only_fdsClosed _ p _), ?_⟩
  cases p <;>
    simp [Talk.Effect, Channel.shut, Server.channel, Server.record, Server.setConnection, Server.setClient,
      Server.setControl, Server.connection, Server.mask, Event.sentTo, Event.closedFor,
      Event.queuedFor, Event.framesTo, Event.unflushedTo, devicesOpened]

theorem clientFree_spec (c : ClientId) : (Talk.close (.client c)).Spec s (clientFree s c) := by
  set erased : Server := { s with idleClients := s.idleClients.erase c, live := s.live.erase c }
  have hchannel : ∀ q, erased.channel q = s.channel q := fun q => by cases q <;> rfl
  obtain ⟨honly, heffect⟩ := close_channel erased (.client c)
  exact ⟨fun q hq => (honly.other q hq).trans (hchannel q), hchannel (.client c) ▸ heffect,
    honly.live, honly.controlClients, honly.nextClientId, honly.nextControlId⟩

theorem controlClientDestroy_spec (i : ControlId) :
    (Talk.close (.control i)).Spec s (controlClientDestroy s i) := by
  set erased : Server := { s with controlClients := s.controlClients.erase i }
  have hchannel : ∀ q, erased.channel q = s.channel q := fun q => by cases q <;> rfl
  obtain ⟨honly, heffect⟩ := close_channel erased (.control i)
  exact ⟨fun q hq => (honly.other q hq).trans (hchannel q), hchannel (.control i) ▸ heffect,
    honly.live, honly.controlClients, honly.nextClientId, honly.nextControlId⟩

theorem clientCreate_spec (pid : Int) :
    (Talk.accept (.client s.nextClientId)).Spec s (clientCreate s pid) := by
  refine ⟨fun q hq => ?_, ?_, rfl, rfl, rfl, rfl, rfl⟩
  · cases q with
    | client o =>
        have ho : o ≠ s.nextClientId := fun h => hq (h ▸ rfl)
        simp [Server.channel, clientCreate, Server.connection, Server.mask, Server.setClient, ho]
    | control i => rfl
  · show (clientCreate s pid).channel (.client s.nextClientId)
      = { s.channel (.client s.nextClientId) with
          connection := Connection.zero, mask := EVENT_READABLE }
    simp [Server.channel, clientCreate, clientNew, Server.connection, Server.mask,
      Server.setClient]

theorem controlCreate_spec (pid : Int) :
    (Talk.accept (.control s.nextControlId)).Spec s (controlCreate s pid) := by
  refine ⟨fun q hq => ?_, ?_, rfl, rfl, rfl, rfl, rfl⟩
  · cases q with
    | client o => rfl
    | control i =>
        have hi : i ≠ s.nextControlId := fun h => hq (h ▸ rfl)
        simp [Server.channel, controlCreate, Server.connection, Server.mask, Server.setControl, hi]
  · show (controlCreate s pid).channel (.control s.nextControlId)
      = { s.channel (.control s.nextControlId) with
          connection := Connection.zero, mask := EVENT_READABLE }
    simp [Server.channel, controlCreate, Server.connection, Server.mask, Server.setControl]

end

/-- **Every talk does what its kind says**, and nothing to other peers. -/
theorem Talk.Does.spec {k : Kernel} {t : Talk} {s s' : Server} (h : t.Does k s s')
    (hs : s.Sound) : t.Spec s s' := by
  match t, h with
  | .frame c m ok, h =>
      obtain ⟨honly, heffect⟩ := clientPutMsg_spec k s c m hs
      rw [show clientPutMsg k s c m = (ok, s') from h] at honly heffect
      exact .of_only honly heffect rfl rfl Iff.rfl
  | .device c d ok, ⟨⟨conn, hput⟩, h⟩ =>
      obtain ⟨honly, heffect⟩ := sendDevice_spec k s c d hs hput
      rw [h] at honly heffect
      exact .of_only honly heffect rfl rfl Iff.rfl
  | .event c m ok, h =>
      obtain ⟨honly, heffect⟩ := clientSendEvent_spec k s c m hs
      rw [show clientSendEvent k s c m = (ok, s') from h] at honly heffect
      exact .of_only honly heffect rfl rfl Iff.rfl
  | .flush c ok, h =>
      obtain ⟨honly, heffect⟩ := clientFlush_spec k s c hs
      rw [show clientFlush k s c = (ok, s') from h] at honly heffect
      exact .of_only honly heffect rfl rfl Iff.rfl
  | .message i m ok, ⟨hok, h⟩ =>
      obtain ⟨honly, data, mid, hmoves, heffect⟩ := controlSendMessage_spec k s i m hs
      rw [hok] at heffect
      cases ok with
      | true =>
          rw [if_pos rfl] at h
          rw [← h] at honly heffect
          exact .of_only honly ⟨data, mid, hmoves, heffect⟩ rfl rfl Iff.rfl
      | false =>
          rw [if_neg Bool.false_ne_true] at h heffect
          obtain ⟨hother, hclose, hlive, hcontrols, hnumbers⟩ :=
            controlClientDestroy_spec (controlSendMessage k s i m).2 i
          rw [← h] at hother hclose hlive hcontrols hnumbers
          have hshut : s'.channel (.control i) = mid.shut := by
            rw [← heffect]
            exact hclose
          refine ⟨fun q hq => (hother q hq).trans (honly.other q hq), ⟨data, mid, hmoves, hshut⟩,
            hlive.trans honly.live, ?_, hnumbers.1.trans honly.nextClientId,
            hnumbers.2.trans honly.nextControlId⟩
          rw [hcontrols, honly.controlClients]
          rfl
  | .drain p ok, ⟨hok, h⟩ =>
      obtain ⟨honly, heffect⟩ := drain_spec k s p (hs p)
      rw [hok, ← h] at honly heffect
      exact .of_only honly heffect rfl rfl Iff.rfl
  | .accept (.client c), ⟨hc, pid, h⟩ =>
      rw [hc, h]
      exact clientCreate_spec s pid
  | .accept (.control i), ⟨hi, pid, h⟩ =>
      rw [hi, h]
      exact controlCreate_spec s pid
  | .close (.client c), h =>
      rw [show s' = clientFree s c from h]
      exact clientFree_spec s c
  | .close (.control i), h =>
      rw [show s' = controlClientDestroy s i from h]
      exact controlClientDestroy_spec s i

/-! ## Sequences of talks -/

/-- The daemon goes from `s` to `s'` by the given talks and system calls. -/
def Talks (k : Kernel) (ts : List Talk) (s s' : Server) : Prop :=
  Weak (Calls fun _ => True) (fun t s s' => Talk.Does k s s' t) ts s s'

/-- What talks with one peer do to its channel. -/
def Effects : List Talk → Channel → Channel → Prop
  | [], ch, ch' => ch' = ch
  | t :: ts, ch, ch' => ∃ mid, t.Effect ch mid ∧ Effects ts mid ch'

theorem Effects.append {ts ts' : List Talk} {ch ch'' : Channel} :
    Effects (ts ++ ts') ch ch'' ↔ ∃ ch', Effects ts ch ch' ∧ Effects ts' ch' ch'' := by
  induction ts generalizing ch with
  | nil => simp [Effects]
  | cons t ts ih =>
      simp only [List.cons_append, Effects, ih]
      constructor
      · rintro ⟨mid, ht, ch', hts, hts'⟩
        exact ⟨ch', ⟨mid, ht, hts⟩, hts'⟩
      · rintro ⟨ch', ⟨mid, ht, hts⟩, hts'⟩
        exact ⟨mid, ht, ch', hts, hts'⟩

/-- **Invariant rule.** What every talk keeps, a sequence of talks keeps. -/
theorem Effects.invariant {I : Channel → Prop} {ts : List Talk} {ch ch' : Channel}
    (h : Effects ts ch ch') (hstep : ∀ t ∈ ts, ∀ ch ch', t.Effect ch ch' → I ch → I ch')
    (hI : I ch) : I ch' := by
  induction ts generalizing ch with
  | nil =>
      rw [show ch' = ch from h]
      exact hI
  | cons t ts ih =>
      obtain ⟨mid, ht, hts⟩ := h
      apply ih hts fun t' ht' => hstep t' (List.mem_cons_of_mem t ht')
      exact hstep t List.mem_cons_self ch mid ht hI

theorem connectionCloseFds_sound {c : Connection} (h : c.Sound) : (connectionCloseFds c).2.Sound :=
  ⟨h.out, h.flush, fdRing_of_size h.fdsOut.closeFds.2⟩

theorem Channel.Served.connection {ch ch' : Channel} (h : ch.Served ch') :
    ch'.connection = ch.connection := by
  rcases h with ⟨-, rfl⟩ | rfl <;> rfl

/-- A seat event puts bytes out and does no more to the connection. -/
theorem event_moves {c : ClientId} {m : ServerMsg} {ok : Bool} {ch ch' : Channel}
    (h : (Talk.event c m ok).Effect ch ch') : ∃ data mid, ch.Moves data mid
      ∧ ch'.connection = mid.connection ∧ ch'.mask = mid.mask := by
  cases ok with
  | true =>
      obtain ⟨mid, hmoves, -, rfl⟩ := h
      exact ⟨_, mid, hmoves, rfl, rfl⟩
  | false =>
      rcases h with ⟨data, -, -, -, hmoves⟩ | ⟨mid, hmoves, -, rfl⟩
      · exact ⟨data, ch', hmoves, rfl, rfl⟩
      · exact ⟨_, mid, hmoves, rfl, rfl⟩

theorem Talk.Effect.sound {t : Talk} {ch ch' : Channel} (h : t.Effect ch ch')
    (hs : ch.connection.Sound) : ch'.connection.Sound := by
  cases t with
  | frame c m ok => exact Channel.Frame.sound h
  | device c d ok =>
      obtain ⟨_, _, _, hframe⟩ := h
      exact hframe.sound
  | event c m ok =>
      obtain ⟨_, _, hmoves, hconn, -⟩ := event_moves h
      rw [hconn]
      exact hmoves.sound
  | flush c ok =>
      obtain ⟨mid, hmoves, h⟩ := h
      cases ok with
      | true =>
          rw [Channel.Served.connection h]
          exact hmoves.sound
      | false =>
          rw [show ch' = mid from h]
          exact hmoves.sound
  | message i m ok =>
      obtain ⟨_, mid, hmoves, h⟩ := h
      cases ok with
      | true =>
          rw [Channel.Served.connection h]
          exact hmoves.sound
      | false =>
          rw [show ch' = mid.shut from h]
          exact connectionCloseFds_sound hmoves.sound
  | drain p ok =>
      obtain ⟨mid, hmoves, h⟩ := h
      cases ok with
      | true =>
          obtain ⟨-, rfl⟩ := h
          exact hmoves.sound
      | false =>
          rw [show ch' = mid from h]
          exact hmoves.sound
  | accept p =>
      rw [h]
      exact Connection.sound_zero
  | close p =>
      rw [h]
      exact connectionCloseFds_sound hs

theorem Talk.Spec.sound {t : Talk} {s s' : Server} (h : t.Spec s s') (hs : s.Sound) :
    s'.Sound := by
  intro p
  by_cases hp : p = t.peer
  · subst hp
    exact h.effect.sound (hs t.peer)
  · show (s'.channel p).connection.Sound
    rw [h.other p hp]
    exact hs p

theorem Calls.sound {Q : Syscall → Prop} {s s' : Server} (h : Calls Q s s') (hs : s.Sound) :
    s'.Sound := by
  intro p
  show (s'.channel p).connection.Sound
  rw [h.channel p]
  exact hs p

/-- The talks with one peer. -/
def talksWith (p : Peer) (ts : List Talk) : List Talk := ts.filter fun t => t.peer = p

@[simp] theorem talksWith_nil (p : Peer) : talksWith p [] = [] := rfl

@[simp] theorem talksWith_append (p : Peer) (ts ts' : List Talk) :
    talksWith p (ts ++ ts') = talksWith p ts ++ talksWith p ts' := List.filter_append ..

theorem talksWith_self (t : Talk) : talksWith t.peer [t] = [t] := by simp [talksWith]

theorem talksWith_single_other {p : Peer} {t : Talk} (h : t.peer ≠ p) : talksWith p [t] = [] := by
  simp [talksWith, h]

/-- What a sequence of talks does to the daemon. -/
structure Talks.Spec (ts : List Talk) (s s' : Server) : Prop where
  sound : s'.Sound
  effects : ∀ p, Effects (talksWith p ts) (s.channel p) (s'.channel p)
  live : s'.live = ts.foldl Talk.clientsAfter s.live
  controlClients : s'.controlClients = ts.foldl Talk.controlsAfter s.controlClients

theorem Talks.spec {k : Kernel} {ts : List Talk} {s s' : Server} (h : Talks k ts s s')
    (hs : s.Sound) : Talks.Spec ts s s' := by
  induction h with
  | refl => exact ⟨hs, fun _ => rfl, rfl, rfl⟩
  | silent hcalls _ ih =>
      obtain ⟨hsound, heffects, hlive, hcontrols⟩ := ih (hcalls.sound hs)
      refine ⟨hsound, fun p => ?_, by rw [hlive, hcalls.live],
        by rw [hcontrols, hcalls.controlClients]⟩
      rw [← hcalls.channel p]
      exact heffects p
  | @label s s₁ s' t ts ht _ ih =>
      have hspec := Talk.Does.spec ht hs
      obtain ⟨hsound, heffects, hlive, hcontrols⟩ := ih (hspec.sound hs)
      refine ⟨hsound, fun p => ?_, by rw [hlive, hspec.live]; rfl,
        by rw [hcontrols, hspec.controlClients]; rfl⟩
      by_cases hp : t.peer = p
      · subst hp
        have hfilter : talksWith t.peer (t :: ts) = t :: talksWith t.peer ts := by
          simp [talksWith]
        rw [hfilter]
        exact ⟨_, hspec.effect, heffects t.peer⟩
      · have hfilter : talksWith p (t :: ts) = talksWith p ts := by simp [talksWith, hp]
        rw [hfilter, ← hspec.other p fun h => hp h.symm]
        exact heffects p

section

variable {k : Kernel} {ts ts' : List Talk} {s s' s'' : Server} {Q : Syscall → Prop}

theorem Talks.refl (s : Server) : Talks k [] s s := Weak.refl s

theorem Talks.trans (h : Talks k ts s s') (h' : Talks k ts' s' s'') : Talks k (ts ++ ts') s s'' :=
  Weak.append h h'

theorem Talks.one {t : Talk} (h : t.Does k s s') : Talks k [t] s s' := Weak.one h

theorem Talks.quiet (h : Calls Q s s') : Talks k [] s s' := Weak.quiet h.any

/-- System calls more at the end. -/
theorem Talks.calls (h : Talks k ts s s') (h' : Calls Q s' s'') :
    Talks k ts s s'' := Weak.thenQuiet h h'.any

/-- System calls more at the beginning. -/
theorem Talks.after (h : Calls Q s s') (h' : Talks k ts s' s'') :
    Talks k ts s s'' := Weak.silent h.any h'

end

end DdeSeatd
