import DdeSeatd.StepDialogue

set_option autoImplicit false

/-! # What the daemon says to control clients

The trace of the daemon records every message put on the connection of a control client. Every
event that a talk records is about its own peer (`Talk.Does.trace`), so what a control client has
been told is decided by the messages addressed to it. `step_control` says which these are: the
reply to a request of its own, the broadcast of a VT event, and nothing else.
-/

namespace DdeSeatd

open Labelled

/-! ## Reading the trace -/

/-- The peer an event is about. -/
def Event.peer : Event → Option Peer
  | .sys _ _ => none
  | .io p _ _ _ | .fdsClosed p _ => some p
  | .frame c _ _ | .unflushed c _ | .fdQueued c _ _ _ => some (.client c)
  | .controlFrame i _ _ => some (.control i)

/-- The messages put completely on the connection of a control client. -/
def Event.messagesTo (i : ControlId) : Event → List ControlMsg
  | .controlFrame j m ok => if j = i ∧ ok then [m] else []
  | _ => []

/-- A send to a control client failed: a put, or a flush that is not to be tried again. -/
def Event.sendFails (i : ControlId) : Event → Bool
  | .controlFrame j _ ok => j = i ∧ ok = false
  | .io p (some e) _ _ => p = .control i ∧ e ≠ EAGAIN
  | _ => false

/-- The messages put on the connection of a control client, oldest first. -/
def Server.messages (s : Server) (i : ControlId) : List ControlMsg :=
  past (Event.messagesTo i) s.trace

def Server.sendFailed (s : Server) (i : ControlId) : Bool := s.trace.any (Event.sendFails i)

theorem Event.messagesTo_other {i : ControlId} {e : Event} (h : e.peer ≠ some (.control i)) :
    e.messagesTo i = [] := by
  cases e with
  | controlFrame j m ok => exact if_neg fun hj => h (by rw [hj.1]; rfl)
  | sys | io | frame | unflushed | fdQueued | fdsClosed => rfl

theorem Event.sendFails_other {i : ControlId} {e : Event} (h : e.peer ≠ some (.control i)) :
    e.sendFails i = false := by
  cases e with
  | controlFrame j m ok =>
      have hj : j ≠ i := fun hj => h (by rw [hj]; rfl)
      simp [Event.sendFails, hj]
  | io p err sent closed =>
      have hp : p ≠ .control i := fun hp => h (by rw [hp]; rfl)
      cases err <;> simp [Event.sendFails, hp]
  | sys | frame | unflushed | fdQueued | fdsClosed => rfl

theorem past_eq_nil {α : Type} {f : Event → List α} {evs : List Event} (h : ∀ e ∈ evs, f e = []) :
    past f evs = [] := by
  simpa [past, List.flatMap_eq_nil_iff] using h

/-! ## New events -/

/-- The trace grew by events that satisfy `P`. -/
def Records (P : Event → Prop) (s s' : Server) : Prop :=
  ∃ evs, s'.trace = evs ++ s.trace ∧ ∀ e ∈ evs, P e

section

variable {P : Event → Prop} {s s' s'' : Server}

theorem Records.refl (P : Event → Prop) (s : Server) : Records P s s := ⟨[], rfl, by simp⟩

theorem Records.trans (h : Records P s s') (h' : Records P s' s'') : Records P s s'' := by
  obtain ⟨evs, htrace, hevs⟩ := h
  obtain ⟨evs', htrace', hevs'⟩ := h'
  refine ⟨evs' ++ evs, by rw [htrace', htrace, List.append_assoc], fun e he => ?_⟩
  rcases List.mem_append.mp he with he | he
  · exact hevs' e he
  · exact hevs e he

theorem Records.mono {Q : Event → Prop} (hPQ : ∀ e, P e → Q e) (h : Records P s s') :
    Records Q s s' := by
  obtain ⟨evs, htrace, hevs⟩ := h
  exact ⟨evs, htrace, fun e he => hPQ e (hevs e he)⟩

/-- One more event. -/
theorem Records.add (h : Records P s s') {e : Event} (he : P e)
    (htrace : s''.trace = e :: s'.trace) : Records P s s'' :=
  h.trans ⟨[e], htrace, fun _ hx => List.mem_singleton.mp hx ▸ he⟩

theorem Calls.records {Q : Syscall → Prop} (h : Calls Q s s') :
    Records (fun e => e.peer = none) s s' := by
  obtain ⟨calls, htrace, -⟩ := h.trace
  refine ⟨_, htrace, fun e he => ?_⟩
  obtain ⟨x, -, rfl⟩ := List.mem_map.mp he
  rfl

/-- Events about others tell a control client nothing. -/
theorem Records.messages {i : ControlId} (h : Records (fun e => e.peer ≠ some (.control i)) s s') :
    s'.messages i = s.messages i ∧ s'.sendFailed i = s.sendFailed i := by
  obtain ⟨evs, htrace, hevs⟩ := h
  have hnil : past (Event.messagesTo i) evs = [] :=
    past_eq_nil fun e he => Event.messagesTo_other (hevs e he)
  have hnone : evs.any (Event.sendFails i) = false :=
    List.any_eq_false.mpr fun e he => by simp [Event.sendFails_other (hevs e he)]
  unfold Server.messages Server.sendFailed
  rw [htrace, past_append, hnil, List.append_nil, List.any_append, hnone, Bool.false_or]
  exact ⟨rfl, rfl⟩

theorem Records.sendFailed (h : Records P s s') {i : ControlId} (hs : s.sendFailed i = true) :
    s'.sendFailed i = true := by
  obtain ⟨evs, htrace, -⟩ := h
  unfold Server.sendFailed at hs ⊢
  rw [htrace, List.any_append, hs, Bool.or_true]

end

/-! ## What each function records -/

section

variable (k : Kernel) (s : Server) (p : Peer)

/-- An event of the socket of `p` that did not fail. -/
def Event.Sent (p : Peer) (e : Event) : Prop := ∃ sent closed, e = .io p none sent closed

theorem trace_finishIo (o : SendOut) :
    (∃ sent closed, (s.finishIo p o).1 = true
      ∧ (s.finishIo p o).2.trace = .io p none sent closed :: s.trace)
    ∨ ∃ e sent closed, (s.finishIo p o).1 = false ∧ (s.finishIo p o).2.errno = e
      ∧ (s.finishIo p o).2.trace = .io p (some e) sent closed :: s.trace := by
  unfold Server.finishIo
  dsimp only
  split
  · refine .inl ⟨o.sent, o.closed, rfl, ?_⟩
    show _ :: (s.setConnection p o.conn).trace = _
    rw [trace_setConnection]
  · next e _ =>
    refine .inr ⟨e, o.sent, o.closed, rfl, rfl, ?_⟩
    show _ :: (s.setConnection p o.conn).trace = _
    rw [trace_setConnection]

theorem records_put (data : List UInt8) :
    Records (fun e => e.peer = some p) s (s.put k p data).2
      ∧ ((s.put k p data).1 = true → Records (Event.Sent p) s (s.put k p data).2) := by
  rcases trace_finishIo s p (connectionPut (s.connection p) data (k.sendmsg s.trace p)) with
    ⟨sent, closed, -, htrace⟩ | ⟨e, sent, closed, hfail, -, htrace⟩
  · exact ⟨(Records.refl _ s).add rfl htrace,
      fun _ => (Records.refl _ s).add ⟨sent, closed, rfl⟩ htrace⟩
  · refine ⟨(Records.refl _ s).add rfl htrace, fun hok => ?_⟩
    exact absurd (hfail.symm.trans hok) Bool.false_ne_true

theorem records_putAll (parts : List (List UInt8)) :
    Records (fun e => e.peer = some p) s (Server.putAll k p s parts).2
      ∧ ((Server.putAll k p s parts).1 = true →
        Records (Event.Sent p) s (Server.putAll k p s parts).2) := by
  induction parts generalizing s with
  | nil => exact ⟨.refl _ s, fun _ => .refl _ s⟩
  | cons part parts ih =>
      obtain ⟨hall, hsent⟩ := records_put k s p part
      unfold Server.putAll
      dsimp only
      split_ifs with hok
      · obtain ⟨hall', hsent'⟩ := ih (s.put k p part).2
        exact ⟨hall.trans hall', fun hok' => (hsent hok).trans (hsent' hok')⟩
      · exact ⟨hall, fun hok' => absurd hok' hok⟩

theorem records_flush : Records (fun e => e.peer = some p) s (s.flush k p).2 := by
  rcases trace_finishIo s p (connectionFlush (s.connection p) (k.sendmsg s.trace p)) with
    ⟨sent, closed, -, htrace⟩ | ⟨e, sent, closed, -, -, htrace⟩
  · exact (Records.refl _ s).add rfl htrace
  · exact (Records.refl _ s).add rfl htrace

theorem records_clientPutMsg (c : ClientId) (m : ServerMsg) :
    Records (fun e => e.peer = some (.client c)) s (clientPutMsg k s c m).2 :=
  (records_putAll k s (.client c) m.parts).1.add rfl rfl

theorem records_clientFlush (c : ClientId) :
    Records (fun e => e.peer = some (.client c)) s (clientFlush k s c).2 := by
  unfold clientFlush
  dsimp only
  split_ifs
  · exact records_flush k s _
  · exact records_flush k s _
  · exact records_flush k s _

theorem records_clientSendEvent (c : ClientId) (m : ServerMsg) :
    Records (fun e => e.peer = some (.client c)) s (clientSendEvent k s c m).2 := by
  have hput := records_clientPutMsg k s c m
  unfold clientSendEvent
  dsimp only
  split_ifs
  · exact hput.trans (records_flush k _ _)
  · exact (hput.trans (records_flush k _ _)).add rfl rfl
  · exact hput

theorem records_sendDevice (c : ClientId) (d : SeatDevice) :
    Records (fun e => e.peer = some (.client c)) s (sendDevice k s c d).2 := by
  unfold sendDevice
  dsimp only
  split
  · exact ⟨[], rfl, by simp⟩
  · refine Records.trans ?_ (records_clientPutMsg k _ c _)
    exact ⟨[_], rfl, fun e he => by rw [List.mem_singleton.mp he]; rfl⟩

end

/-- A message to a control client: it is put and sent, or the send fails. -/
theorem controlSendMessage_records (k : Kernel) (s : Server) (i : ControlId) (m : ControlMsg) :
    Records (fun e => e.peer = some (.control i)) s (controlSendMessage k s i m).2
      ∧ ((controlSendMessage k s i m).1 = true →
        (controlSendMessage k s i m).2.messages i = s.messages i ++ [m]
          ∧ (controlSendMessage k s i m).2.sendFailed i = s.sendFailed i)
      ∧ ((controlSendMessage k s i m).1 = false →
        (controlSendMessage k s i m).2.sendFailed i = true) := by
  obtain ⟨hall, hsent⟩ := records_putAll k s (.control i) m.parts
  unfold controlSendMessage
  dsimp only
  set r := Server.putAll k (.control i) s m.parts with hr
  have hframe : Records (fun e => e.peer = some (.control i)) s
      (r.2.record (.controlFrame i m r.1)) := hall.add rfl rfl
  cases hok : r.1 with
  | false =>
      rw [if_neg Bool.false_ne_true]
      rw [hok] at hframe
      refine ⟨hframe, fun h => absurd h Bool.false_ne_true, fun _ => ?_⟩
      simp [Server.sendFailed, Server.record, Event.sendFails]
  | true =>
      rw [if_pos rfl]
      rw [hok] at hframe
      -- the puts say nothing yet, and the frame that follows them is the message
      obtain ⟨evs, htrace, hevs⟩ := hsent hok
      have hmessages : (r.2.record (.controlFrame i m true)).messages i = s.messages i ++ [m] := by
        have hnil : past (Event.messagesTo i) evs = [] := past_eq_nil fun e he => by
          obtain ⟨sent, closed, rfl⟩ := hevs e he
          rfl
        show past _ (_ :: r.2.trace) = _
        rw [past_cons, htrace, past_append, hnil, List.append_nil]
        simp [Event.messagesTo, Server.messages]
      have hfailed : (r.2.record (.controlFrame i m true)).sendFailed i = s.sendFailed i := by
        have hnone : evs.any (Event.sendFails i) = false := List.any_eq_false.mpr fun e he => by
          obtain ⟨sent, closed, rfl⟩ := hevs e he
          simp [Event.sendFails]
        show List.any (_ :: r.2.trace) _ = _
        rw [List.any_cons, htrace, List.any_append, hnone]
        simp [Event.sendFails, Server.sendFailed]
      generalize r.2.record (.controlFrame i m true) = s₁ at hframe hmessages hfailed ⊢
      unfold controlClientFlush
      dsimp only
      have hflush := hframe.trans (records_flush k s₁ (.control i))
      have hquiet : ∀ {err sent closed},
          (s₁.flush k (.control i)).2.trace = .io (.control i) err sent closed :: s₁.trace →
          (s₁.flush k (.control i)).2.messages i = s.messages i ++ [m] := by
        intro err sent closed htrace
        rw [← hmessages]
        unfold Server.messages
        rw [htrace, past_cons]
        exact List.append_nil _
      rcases trace_finishIo s₁ (.control i)
        (connectionFlush (s₁.connection (.control i)) (k.sendmsg s₁.trace (.control i))) with
        ⟨sent, closed, hfst, htrace⟩ | ⟨e, sent, closed, hfst, herrno, htrace⟩
      · rw [if_pos (show (s₁.flush k (.control i)).1 = true from hfst)]
        refine ⟨hflush, fun _ => ⟨hquiet htrace, ?_⟩, fun h => absurd h (by simp)⟩
        rw [← hfailed]
        show (s₁.flush k (.control i)).2.trace.any _ = _
        rw [show (s₁.flush k (.control i)).2.trace = _ from htrace]
        rfl
      · rw [if_neg (by rw [show (s₁.flush k (.control i)).1 = false from hfst]; simp)]
        have herr : (s₁.flush k (.control i)).2.errno = e := herrno
        have hany : (s₁.flush k (.control i)).2.sendFailed i
            = (decide (e ≠ EAGAIN) || s₁.sendFailed i) := by
          show (s₁.flush k (.control i)).2.trace.any _ = _
          rw [show (s₁.flush k (.control i)).2.trace = _ from htrace]
          simp [Event.sendFails, Server.sendFailed]
        by_cases hagain : e = EAGAIN
        · rw [if_pos (herr.trans hagain)]
          refine ⟨hflush, fun _ => ⟨hquiet htrace, ?_⟩, fun h => absurd h (by simp)⟩
          show (s₁.flush k (.control i)).2.sendFailed i = _
          rw [hany, hagain, hfailed]
          simp
        · rw [if_neg fun h => hagain (herr.symm.trans h)]
          refine ⟨hflush, fun h => absurd (h.symm.trans hfst) (by simp), fun _ => ?_⟩
          rw [hany]
          simp [hagain]

/-! ## Talks -/

/-- **Every event that a talk records is about its own peer.** -/
theorem Talk.Does.records {k : Kernel} {t : Talk} {s s' : Server} (h : t.Does k s s') :
    Records (fun e => e.peer = some t.peer) s s' := by
  cases t with
  | frame c m ok =>
      have := records_clientPutMsg k s c m
      rwa [show clientPutMsg k s c m = (ok, s') from h] at this
  | device c d ok =>
      have := records_sendDevice k s c d
      rwa [h.2] at this
  | event c m ok =>
      have := records_clientSendEvent k s c m
      rwa [show clientSendEvent k s c m = (ok, s') from h] at this
  | flush c ok =>
      have := records_clientFlush k s c
      rwa [show clientFlush k s c = (ok, s') from h] at this
  | message i m ok =>
      obtain ⟨-, hs'⟩ := h
      have hsend := (controlSendMessage_records k s i m).1
      rw [hs']
      split_ifs
      · exact hsend
      · exact hsend.add rfl (by show _ :: (Server.setConnection _ _ _).trace = _
                                rw [trace_setConnection])
  | drain p ok =>
      obtain ⟨-, hs'⟩ := h
      rw [hs']
      split_ifs
      · obtain ⟨evs, htrace, hevs⟩ := records_flush k s p
        exact ⟨evs, (trace_setMask _ _ _).trans htrace, hevs⟩
      · exact records_flush k s p
  | accept p =>
      cases p with
      | client c | control i => obtain ⟨-, pid, rfl⟩ := h; exact ⟨[], rfl, by simp⟩
  | close p =>
      cases p with
      | client c =>
          rw [show s' = clientFree s c from h]
          exact (Records.refl _ s).add rfl (by show _ :: (Server.setConnection _ _ _).trace = _
                                               rw [trace_setConnection])
      | control i =>
          rw [show s' = controlClientDestroy s i from h]
          exact (Records.refl _ s).add rfl (by show _ :: (Server.setConnection _ _ _).trace = _
                                               rw [trace_setConnection])

/-- The message a talk puts on the connection of a control client. -/
def Talk.words (i : ControlId) : Talk → List ControlMsg
  | .message j m true => if j = i then [m] else []
  | _ => []

theorem Talk.words_other {i : ControlId} {t : Talk} (h : t.peer ≠ .control i) : t.words i = [] := by
  cases t with
  | message j m ok =>
      cases ok with
      | false => rfl
      | true => exact if_neg fun hj => h (by rw [hj]; rfl)
  | frame | device | event | flush | drain | accept | close => rfl

/-- The talk ends the control client for a send that failed. -/
def Talk.drops (i : ControlId) (t : Talk) : Prop := ∃ m, t = .message i m false

/-- What a talk tells a control client that it does not drop. -/
theorem Talk.Does.messages {k : Kernel} {t : Talk} {s s' : Server} (h : t.Does k s s')
    {i : ControlId} (hdrop : ¬ t.drops i) : s'.messages i = s.messages i ++ t.words i := by
  by_cases hp : t.peer = .control i
  · cases t with
    | message j m ok =>
        obtain rfl : j = i := Peer.control.inj hp
        cases ok with
        | false => exact absurd ⟨m, rfl⟩ hdrop
        | true =>
            obtain ⟨hok, hs'⟩ := h
            rw [show s' = (controlSendMessage k s j m).2 from hs',
              ((controlSendMessage_records k s j m).2.1 hok).1]
            simp [Talk.words]
    | drain p ok =>
        obtain ⟨evs, htrace, hevs⟩ := records_flush k s p
        obtain ⟨-, hs'⟩ := h
        have hnil : past (Event.messagesTo i) evs = [] := by
          rcases trace_finishIo s p (connectionFlush (s.connection p) (k.sendmsg s.trace p)) with
            ⟨sent, closed, -, hio⟩ | ⟨e, sent, closed, -, -, hio⟩
          all_goals
            have hone : evs = [_] := List.append_cancel_right (htrace.symm.trans hio)
            rw [hone]
            rfl
        have hall : s'.trace = evs ++ s.trace := by
          rw [hs']
          split_ifs
          · exact (trace_setMask _ _ _).trans htrace
          · exact htrace
        unfold Server.messages
        rw [hall, past_append, hnil]
        rfl
    | accept p =>
        cases p with
        | client c => cases hp
        | control j => obtain ⟨-, pid, rfl⟩ := h; exact (List.append_nil _).symm
    | close p =>
        cases p with
        | client c => cases hp
        | control j =>
            rw [show s' = controlClientDestroy s j from h]
            show past _ (_ :: (Server.setConnection _ _ _).trace) = _
            rw [trace_setConnection, past_cons]
            rfl
    | frame | device | event | flush => cases hp
  · rw [Talk.words_other hp, List.append_nil]
    refine (h.records.mono fun e he => ?_).messages.1
    rw [he]
    exact fun heq => hp (Option.some.inj heq)

/-- A talk that drops a control client has failed to send to it. -/
theorem Talk.Does.dropped {k : Kernel} {t : Talk} {s s' : Server} (h : t.Does k s s')
    {i : ControlId} (hdrop : t.drops i) : s'.sendFailed i = true := by
  obtain ⟨m, rfl⟩ := hdrop
  obtain ⟨hok, hs'⟩ := h
  have hfailed := (controlSendMessage_records k s i m).2.2 hok
  have hclose : (Talk.close (.control i)).Does k (controlSendMessage k s i m).2 s' := hs'
  exact hclose.records.sendFailed hfailed

theorem Talks.records {k : Kernel} {ts : List Talk} {s s' : Server} (h : Talks k ts s s') :
    Records (fun _ => True) s s' := by
  induction h with
  | refl s => exact .refl _ s
  | silent hcalls _ ih => exact (hcalls.records.mono fun _ _ => trivial).trans ih
  | label ht _ ih => exact ((Talk.Does.records ht).mono fun _ _ => trivial).trans ih

/-- **What a sequence of talks tells a control client**: the messages addressed to it, unless one
of them could not be sent. -/
theorem Talks.messages {k : Kernel} {ts : List Talk} {s s' : Server} (h : Talks k ts s s')
    (i : ControlId) :
    (s'.messages i = s.messages i ++ (talksWith (.control i) ts).flatMap (Talk.words i)
      ∧ ∀ t ∈ ts, ¬ t.drops i)
    ∨ s'.sendFailed i = true ∧ ∃ t ∈ ts, t.drops i := by
  induction h with
  | refl s => exact .inl ⟨by simp [talksWith], fun _ ht => (by cases ht)⟩
  | @silent s s₁ s' ts hcalls _ ih =>
      have hquiet : s₁.messages i = s.messages i :=
        (hcalls.records.mono fun e he => by rw [he]; simp).messages.1
      rw [← hquiet]
      exact ih
  | @label s s₁ s' t ts ht hrest ih =>
      by_cases hdrop : t.drops i
      · exact .inr ⟨(Talks.records hrest).sendFailed (Talk.Does.dropped ht hdrop), t,
          List.mem_cons_self, hdrop⟩
      rcases ih with ⟨hmessages, hnone⟩ | ⟨hfailed, t', ht', hdrop'⟩
      · left
        refine ⟨?_, fun t' ht' => ?_⟩
        · rw [hmessages, Talk.Does.messages ht hdrop, List.append_assoc]
          congr 1
          by_cases hp : t.peer = .control i
          · simp [talksWith, hp]
          · simp [talksWith, hp, Talk.words_other hp]
        · rcases List.mem_cons.mp ht' with rfl | ht'
          · exact hdrop
          · exact hnone t' ht'
      · exact .inr ⟨hfailed, t', List.mem_cons_of_mem t ht', hdrop'⟩

/-! ## Steps -/

/-- The talks of a step with the control client `i`. -/
def ControlSaid (s : Server) (i : ControlId) (ts : List Talk) : Step → Prop
  | .control j r => if j = i ∧ i ∈ s.controlClients then Answered s i r ts else ts = []
  | .vtEvent oldVt newVt =>
      if i ∈ s.listeners then ∃ ok, ts = [.message i (.vtChanged oldVt newVt) ok] else ts = []
  | .controlConnect _ =>
      ts = [] ∨ i = s.nextControlId
        ∧ (ts = [.accept (.control i)] ∨ ts = [.accept (.control i), .close (.control i)])
  | .controlWritable j =>
      if j = i ∧ i ∈ s.controlClients then
        (∃ ok, ts = [.drain (.control i) ok]) ∨ ts = [.drain (.control i) false, .close (.control i)]
      else ts = []
  | .controlDisconnect j =>
      if j = i ∧ i ∈ s.controlClients then ts = [.close (.control i)] else ts = []
  | _ => ts = []

theorem Broadcasts.talksWith {m : ControlMsg} {is : List ControlId} {ts : List Talk}
    (h : Broadcasts m is ts) (hnodup : is.Nodup) (i : ControlId) :
    if i ∈ is then ∃ ok, talksWith (.control i) ts = [.message i m ok]
    else DdeSeatd.talksWith (.control i) ts = [] := by
  induction h with
  | nil =>
      rw [if_neg List.not_mem_nil]
      rfl
  | @cons j t is ts hhead _ ih =>
      obtain ⟨ok, rfl⟩ := hhead
      obtain ⟨hj, hnodup⟩ := List.nodup_cons.mp hnodup
      have ih := ih hnodup
      by_cases hi : j = i
      · subst hi
        rw [if_neg hj] at ih
        rw [if_pos List.mem_cons_self]
        refine ⟨ok, ?_⟩
        have hcons : DdeSeatd.talksWith (.control j) (.message j m ok :: ts)
            = .message j m ok :: DdeSeatd.talksWith (.control j) ts := by
          simp [DdeSeatd.talksWith, Talk.peer]
        rw [hcons, ih]
      · have hcons : DdeSeatd.talksWith (.control i) (.message j m ok :: ts)
            = DdeSeatd.talksWith (.control i) ts := by
          simp [DdeSeatd.talksWith, Talk.peer, hi]
        rw [hcons]
        simpa [Ne.symm hi] using ih

/-- A step that talks to the control client `j` only. -/
theorem talksWith_control {j : ControlId} {ts : List Talk} (h : ∀ t ∈ ts, t.peer = .control j)
    (i : ControlId) : talksWith (.control i) ts = if j = i then ts else [] := by
  split_ifs with hij
  · subst hij
    simpa [talksWith, List.filter_eq_self] using h
  · refine talksWith_other fun t ht heq => hij ?_
    exact Peer.control.inj ((h t ht).symm.trans heq)

/-- A step about the control client `j`. -/
theorem talksWith_own {s : Server} {j : ControlId} {ts : List Talk}
    {P : ControlId → List Talk → Prop} (h : ∀ t ∈ ts, t.peer = .control j)
    (hj : j ∈ s.controlClients) (hP : P j ts) (i : ControlId) :
    if j = i ∧ i ∈ s.controlClients then P i (talksWith (.control i) ts)
    else talksWith (.control i) ts = [] := by
  rw [talksWith_control h]
  by_cases hi : j = i
  · subst hi
    rw [if_pos rfl, if_pos ⟨rfl, hj⟩]
    exact hP
  · rw [if_neg hi, if_neg fun hc => hi hc.1]

/-- A control client that is gone hears nothing of the step. -/
theorem ControlSaid.gone {s : Server} {st : Step} {j : ControlId} (hst : st.controlClient = some j)
    (hj : j ∉ s.controlClients) (i : ControlId) : ControlSaid s i [] st := by
  have hnot : ¬ (j = i ∧ i ∈ s.controlClients) := fun h => hj (h.1 ▸ h.2)
  cases st with
  | control j' r | controlWritable j' | controlDisconnect j' =>
      cases hst; rw [ControlSaid, if_neg hnot]
  | connect | request | writable | disconnect | vtRelease | vtAcquire | vtEvent
  | controlConnect => cases hst

/-- **What a step says to control clients.** -/
theorem step_control (k : Kernel) {s : Server} (h : s.Kept) (st : Step) :
    ∃ ts, Talks k ts s (step k s st) ∧ ∀ i, ControlSaid s i (talksWith (.control i) ts) st := by
  unfold step
  split_ifs with hgone
  · refine ⟨[], .refl s, fun i => ?_⟩
    rcases hgone with ⟨c, hc, -⟩ | ⟨j, hj, hdead⟩
    · cases st with
      | request | writable | disconnect => rfl
      | connect | vtRelease | vtAcquire | vtEvent | controlConnect | control | controlWritable
      | controlDisconnect => cases hc
    · exact .gone hj hdead i
  obtain ⟨hlive, hhere⟩ := here_of_made hgone
  cases st with
  | connect pid =>
      obtain ⟨ts, htalk, hts⟩ := serverAddClient_talks k s pid
      refine ⟨ts, htalk, fun i => talksWith_other fun t ht => ?_⟩
      rcases hts with rfl | rfl | rfl
      · cases ht
      · rw [List.mem_singleton.mp ht]
        simp [Talk.peer]
      · rcases List.mem_pair.mp ht with rfl | rfl <;> simp [Talk.peer]
  | request c r =>
      obtain ⟨ts, htalk, habout⟩ := clientHandleRequest_about k s h.wf (hlive c rfl) r
      exact ⟨ts, htalk, habout.controls⟩
  | writable c =>
      obtain ⟨ts, htalk, habout⟩ := clientHandleWritable_about k s (c := c) h.wf
      exact ⟨ts, htalk, habout.controls⟩
  | disconnect c =>
      obtain ⟨ts, htalk, habout⟩ := clientDestroy_about k s (c := c) h.wf
      exact ⟨ts, htalk, habout.controls⟩
  | vtRelease => exact ⟨[], .quiet (calls_seatVtRelease k s), fun i => rfl⟩
  | vtAcquire => exact ⟨[], .quiet (calls_seatVtActivate k s), fun i => rfl⟩
  | vtEvent oldVt newVt =>
      obtain ⟨bs, es, htalk, hbs, hes⟩ := seatHandleVtEvent_talks k s h.wf oldVt newVt
      refine ⟨bs ++ es, htalk, fun i => ?_⟩
      rw [talksWith_append, talksWith_hails_control hes, List.append_nil]
      have hnodup : s.listeners.Nodup := by
        unfold Server.listeners
        split_ifs
        · exact .nil
        · exact h.peers.controlsNodup
      exact hbs.talksWith hnodup i
  | controlConnect pid =>
      obtain ⟨ts, htalk, hts⟩ := controlAddClient_talks k s pid
      refine ⟨ts, htalk, fun i => ?_⟩
      rcases hts with rfl | hts
      · exact .inl rfl
      · have hpeer : ∀ t ∈ ts, t.peer = .control s.nextControlId := by
          rcases hts with rfl | rfl <;> simp [Talk.peer]
        rw [talksWith_control hpeer]
        split_ifs with hi
        · subst hi
          exact .inr ⟨rfl, hts⟩
        · exact .inl rfl
  | control j r =>
      obtain ⟨ts, htalk, hts⟩ := controlHandleRequest_talks k s j r
      refine ⟨ts, htalk, talksWith_own (P := fun i ts => Answered s i r ts) ?_ (hhere j rfl) hts⟩
      unfold Answered at hts
      split_ifs at hts
      · subst hts
        exact fun _ ht => by cases ht
      · obtain ⟨m, ok, -, rfl⟩ := hts
        exact fun t ht => by rw [List.mem_singleton.mp ht]; rfl
  | controlWritable j =>
      obtain ⟨ts, htalk, hts⟩ := controlHandleWritable_talks k s j
      refine ⟨ts, htalk, talksWith_own (P := fun i ts => (∃ ok, ts = [.drain (.control i) ok])
        ∨ ts = [.drain (.control i) false, .close (.control i)]) ?_ (hhere j rfl) hts⟩
      rcases hts with ⟨ok, rfl⟩ | rfl <;> simp [Talk.peer]
  | controlDisconnect j =>
      exact ⟨[.close (.control j)], .one rfl, talksWith_own
        (P := fun i ts => ts = [.close (.control i)]) (by simp [Talk.peer]) (hhere j rfl) rfl⟩

/-! ## A control client that stays -/

/-- What a step puts on the connection of the control client `i`. -/
def Step.Tells (s : Server) (i : ControlId) (ms : List ControlMsg) : Step → Prop
  | .control j r =>
      if j = i ∧ r.silent s = false then ∃ m, r.answeredBy m = true ∧ ms = [m] else ms = []
  | .vtEvent oldVt newVt => ms = if s.seat.clients = [] then [] else [.vtChanged oldVt newVt]
  | _ => ms = []

section

variable {k : Kernel} {s s' : Server} {i : ControlId} {ts : List Talk}

theorem Talks.told_nothing (h : Talks k ts s s') (hs : s.Kept) (hi : i ∈ s.controlClients)
    (hts : talksWith (.control i) ts = []) :
    i ∈ s'.controlClients ∧ s'.messages i = s.messages i ∧ s'.sendFailed i = s.sendFailed i := by
  have hpresent := (h.present hs.sound hs.peers).2 (.control i)
  rw [hts] at hpresent
  refine ⟨hpresent.mpr hi, ?_⟩
  -- no talk is about the client, so no event is
  have hquiet : Records (fun e => e.peer ≠ some (.control i)) s s' := by
    clear hs hi hpresent
    induction h with
    | refl s => exact .refl _ s
    | silent hcalls _ ih => exact (hcalls.records.mono fun e he => by rw [he]; simp).trans (ih hts)
    | @label s s₁ s' t ts ht _ ih =>
        have hp : t.peer ≠ .control i := fun hp => by simp [talksWith, hp] at hts
        have hrest : talksWith (.control i) ts = [] := by simpa [talksWith, hp] using hts
        refine (Talk.Does.records ht |>.mono fun e he => ?_).trans (ih hrest)
        rw [he]
        exact fun heq => hp (Option.some.inj heq)
  exact hquiet.messages

theorem Talks.told (h : Talks k ts s s') (hs : s.Kept) (hi : i ∈ s.controlClients) {m : ControlMsg}
    {ok : Bool} (hts : talksWith (.control i) ts = [.message i m ok]) :
    if ok then i ∈ s'.controlClients ∧ s'.messages i = s.messages i ++ [m]
    else i ∉ s'.controlClients ∧ s'.sendFailed i = true := by
  have hpresent := (h.present hs.sound hs.peers).2 (.control i)
  rw [hts] at hpresent
  -- a talk that drops the client is the only one with it
  have hdrops : ∀ t ∈ ts, t.drops i → ok = false := by
    rintro t ht ⟨m', rfl⟩
    have hmem : Talk.message i m' false ∈ talksWith (.control i) ts :=
      List.mem_filter.mpr ⟨ht, by simp [Talk.peer]⟩
    rw [hts, List.mem_singleton] at hmem
    cases hmem
    rfl
  have hmessage : Talk.message i m ok ∈ ts :=
    (List.mem_filter.mp (hts.symm ▸ List.mem_singleton_self _ : _ ∈ talksWith (.control i) ts)).1
  cases ok with
  | true =>
      rw [if_pos rfl]
      refine ⟨hpresent.mpr hi, ?_⟩
      rcases h.messages i with ⟨hmessages, -⟩ | ⟨-, t, ht, hdrop⟩
      · rw [hmessages, hts]
        simp [Talk.words]
      · exact absurd (hdrops t ht hdrop) (by simp)
  | false =>
      rw [if_neg Bool.false_ne_true]
      refine ⟨fun hmem => hpresent.mp hmem, ?_⟩
      rcases h.messages i with ⟨-, hnone⟩ | ⟨hfailed, -⟩
      · exact absurd ⟨m, rfl⟩ (hnone _ hmessage)
      · exact hfailed

/-- **What a control client hears of a step**, unless it goes: by its own doing, or because a send
to it failed. -/
theorem step_tells (h : s.Kept) (hi : i ∈ s.controlClients) (st : Step) :
    (i ∈ (step k s st).controlClients
      ∧ ∃ ms, st.Tells s i ms ∧ (step k s st).messages i = s.messages i ++ ms)
    ∨ i ∉ (step k s st).controlClients
      ∧ (st = .controlDisconnect i ∨ st = .controlWritable i
        ∨ (step k s st).sendFailed i = true) := by
  obtain ⟨ts, htalk, hsaid⟩ := step_control k h st
  have hsaid := hsaid i
  have hnone : talksWith (.control i) ts = [] → st.Tells s i [] →
      i ∈ (step k s st).controlClients
        ∧ ∃ ms, st.Tells s i ms ∧ (step k s st).messages i = s.messages i ++ ms := by
    intro hnil htells
    obtain ⟨hhere, hmessages, -⟩ := htalk.told_nothing h hi hnil
    exact ⟨hhere, [], htells, by rw [hmessages, List.append_nil]⟩
  cases st with
  | control j r =>
      rw [ControlSaid] at hsaid
      split_ifs at hsaid with hown
      · obtain ⟨rfl, -⟩ := hown
        unfold Answered at hsaid
        split_ifs at hsaid with hsilent
        · exact .inl (hnone hsaid (by rw [Step.Tells, if_neg (by simp [hsilent])]))
        · obtain ⟨m, ok, hm, hts⟩ := hsaid
          have htold := htalk.told h hi hts
          cases ok with
          | true =>
              refine .inl ⟨htold.1, [m], ?_, htold.2⟩
              rw [Step.Tells, if_pos ⟨rfl, Bool.eq_false_iff.mpr hsilent⟩]
              exact ⟨m, hm, rfl⟩
          | false => exact .inr ⟨htold.1, .inr (.inr htold.2)⟩
      · exact .inl (hnone hsaid (by rw [Step.Tells, if_neg fun hc => hown ⟨hc.1, hi⟩]))
  | vtEvent oldVt newVt =>
      rw [ControlSaid] at hsaid
      by_cases hempty : s.seat.clients = []
      · rw [Server.listeners, if_pos hempty, if_neg List.not_mem_nil] at hsaid
        exact .inl (hnone hsaid (if_pos hempty).symm)
      · rw [Server.listeners, if_neg hempty, if_pos hi] at hsaid
        obtain ⟨ok, hts⟩ := hsaid
        have htold := htalk.told h hi hts
        cases ok with
        | true => exact .inl ⟨htold.1, _, (if_neg hempty).symm, htold.2⟩
        | false => exact .inr ⟨htold.1, .inr (.inr htold.2)⟩
  | controlConnect pid =>
      refine .inl (hnone ?_ rfl)
      rcases hsaid with hnil | ⟨hnext, -⟩
      · exact hnil
      · exact absurd hnext (h.peers.controlsFresh i hi).ne
  | controlWritable j =>
      rw [ControlSaid] at hsaid
      split_ifs at hsaid with hown
      · obtain ⟨rfl, -⟩ := hown
        by_cases hhere : j ∈ (step k s (.controlWritable j)).controlClients
        · refine .inl ⟨hhere, [], rfl, ?_⟩
          rcases htalk.messages j with ⟨hmessages, -⟩ | ⟨-, t, ht, m, rfl⟩
          · rw [hmessages]
            rcases hsaid with ⟨ok, hts⟩ | hts <;> rw [hts] <;> rfl
          · have hmem : Talk.message j m false ∈ talksWith (.control j) ts :=
              List.mem_filter.mpr ⟨ht, by simp [Talk.peer]⟩
            rcases hsaid with ⟨ok, hts⟩ | hts <;> rw [hts] at hmem <;> simp at hmem
        · exact .inr ⟨hhere, .inr (.inl rfl)⟩
      · exact .inl (hnone hsaid rfl)
  | controlDisconnect j =>
      rw [ControlSaid] at hsaid
      split_ifs at hsaid with hown
      · obtain ⟨rfl, -⟩ := hown
        refine .inr ⟨fun hmem => ?_, .inl rfl⟩
        have hpresent := ((htalk.present h.sound h.peers).2 (.control j)).mp hmem
        rw [hsaid] at hpresent
        exact hpresent
      · exact .inl (hnone hsaid rfl)
  | connect | request | writable | disconnect | vtRelease | vtAcquire =>
      exact .inl (hnone hsaid rfl)

/-- A request that is served without an answer leaves its client where it is. -/
theorem step_silent (h : s.Kept) (hi : i ∈ s.controlClients) {r : ControlRequest}
    (hr : r.silent s = true) :
    i ∈ (step k s (.control i r)).controlClients
      ∧ (step k s (.control i r)).messages i = s.messages i := by
  obtain ⟨ts, htalk, hsaid⟩ := step_control k h (.control i r)
  have hnil := hsaid i
  rw [ControlSaid, if_pos ⟨rfl, hi⟩, Answered, if_pos hr] at hnil
  obtain ⟨hhere, hmessages, -⟩ := htalk.told_nothing h hi hnil
  exact ⟨hhere, hmessages⟩

/-! ## A control client that is not there -/

theorem Talks.nextControlId (h : Talks k ts s s') (hsound : s.Sound) :
    s.nextControlId ≤ s'.nextControlId := by
  refine (Weak.invariant (I := fun u : Server => u.Sound ∧ s.nextControlId ≤ u.nextControlId) h
    ?_ ?_ ⟨hsound, le_rfl⟩).2
  · rintro u u' hcalls ⟨hu, hle⟩
    exact ⟨hcalls.sound hu, hcalls.nextControlId ▸ hle⟩
  · rintro t - u u' ht ⟨hu, hle⟩
    have hspec := Talk.Does.spec ht hu
    refine ⟨hspec.sound hu, hle.trans ?_⟩
    have hnumbers := hspec.numbers
    cases t with
    | accept p =>
        cases p with
        | client c => exact hnumbers.2.2.ge
        | control j => exact (Nat.le_succ _).trans (hnumbers.1 ▸ hnumbers.2.1.ge)
    | frame | device | event | flush | message | drain | close => exact hnumbers.2.ge

theorem nextControlId_step (h : s.Kept) (st : Step) :
    s.nextControlId ≤ (step k s st).nextControlId := by
  obtain ⟨ts, htalk, -⟩ := step_control k h st
  exact htalk.nextControlId h.sound

/-- Nothing is said to a control client that is not there; one that is accepted is new. -/
theorem step_absent (h : s.Kept) (hi : i ∉ s.controlClients) (st : Step) :
    (step k s st).messages i = s.messages i
      ∧ (i ∈ (step k s st).controlClients → i = s.nextControlId) := by
  obtain ⟨ts, htalk, hsaid⟩ := step_control k h st
  have hpresent := (htalk.present h.sound h.peers).2 (.control i)
  have hown : ∀ j : ControlId, ¬ (j = i ∧ i ∈ s.controlClients) := fun j hc => hi hc.2
  have hcases : talksWith (.control i) ts = [] ∨ i = s.nextControlId
      ∧ (talksWith (.control i) ts = [.accept (.control i)]
        ∨ talksWith (.control i) ts = [.accept (.control i), .close (.control i)]) := by
    have hsaid := hsaid i
    cases st with
    | control j r | controlWritable j | controlDisconnect j =>
        rw [ControlSaid, if_neg (hown j)] at hsaid; exact .inl hsaid
    | vtEvent oldVt newVt =>
        have hdeaf : i ∉ s.listeners := by
          unfold Server.listeners
          split_ifs
          · exact List.not_mem_nil
          · exact hi
        rw [ControlSaid, if_neg hdeaf] at hsaid
        exact .inl hsaid
    | controlConnect pid => exact hsaid
    | connect | request | writable | disconnect | vtRelease | vtAcquire => exact .inl hsaid
  have hmessages : (talksWith (.control i) ts).flatMap (Talk.words i) = []
      ∧ ∀ t ∈ talksWith (.control i) ts, ¬ t.drops i := by
    rcases hcases with hnil | ⟨-, hts | hts⟩
    · rw [hnil]; simp
    · rw [hts]; simp [Talk.words, Talk.drops]
    · rw [hts]; simp [Talk.words, Talk.drops]
  refine ⟨?_, fun hmem => ?_⟩
  · rcases htalk.messages i with ⟨heq, -⟩ | ⟨-, t, ht, hdrop⟩
    · rw [heq, hmessages.1, List.append_nil]
    · refine absurd hdrop (hmessages.2 t (List.mem_filter.mpr ⟨ht, ?_⟩))
      obtain ⟨m, rfl⟩ := hdrop
      simp [Talk.peer]
  · rcases hcases with hnil | ⟨hnext, -⟩
    · rw [hnil] at hpresent
      exact absurd (hpresent.mp hmem) hi
    · exact hnext

end

end DdeSeatd
