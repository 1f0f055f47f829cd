import DdeSeatd.StepDialogue

set_option autoImplicit false

/-! # Unsent output

Bytes that a flush could not send stay in the out ring, and the peer's event source has to ask
for `EVENT_WRITABLE`, or else they stay there until the peer happens to send something. Replies
and control messages go through `client_flush` and `control_client_flush`, which see to that.
`client_send_enable_seat` and `client_send_disable_seat` call `connection_flush` themselves and
leave the mask alone; where they are not followed by the flush of a request of the same client,
output is left behind (`disable_left_behind`).

`unsent_waited_iff` says that this is the only way.
-/

namespace DdeSeatd

open RingBuffer

/-! ## The property -/

/-- The out ring is empty, or the event source asks for `EVENT_WRITABLE`. -/
def Waited (conn : Connection) (mask : UInt32) : Prop :=
  conn.out.size = 0 ∨ mask &&& EVENT_WRITABLE ≠ 0

/-- All output that is not sent yet is being waited for. -/
def Server.UnsentWaited (s : Server) : Prop :=
  (∀ c ∈ s.live, Waited (s.clients c).connection (s.clients c).mask)
    ∧ ∀ i ∈ s.controlClients, Waited (s.controls i).connection (s.controls i).mask

instance (conn : Connection) (mask : UInt32) : Decidable (Waited conn mask) :=
  inferInstanceAs (Decidable (_ ∨ _))

instance (s : Server) : Decidable s.UnsentWaited := inferInstanceAs (Decidable (_ ∧ _))

/-- The seat events of client `c` that its socket did not take at once. -/
def unflushedEvents (c : ClientId) (s : Server) : List ServerMsg :=
  past (Event.unflushedTo (.client c)) s.trace

/-- In this step the kernel does not take all output when a seat event is flushed to a client
whose event source does not ask for `EVENT_WRITABLE`, and the step is not a request of that
client, which would end with another flush. -/
def LeavesBehind (k : Kernel) (s : Server) (st : Step) : Prop :=
  ∃ c ∈ s.live, (∀ r, st ≠ .request c r) ∧ (s.clients c).mask &&& EVENT_WRITABLE = 0
    ∧ unflushedEvents c (step k s st) ≠ unflushedEvents c s

/-! ## Channels -/

def Channel.Waited (ch : Channel) : Prop := DdeSeatd.Waited ch.connection ch.mask

theorem Channel.Moves.mask {ch ch' : Channel} {data : List UInt8} (h : ch.Moves data ch') :
    ch'.mask = ch.mask := by
  obtain ⟨_, -, heq⟩ := h
  rw [heq]

theorem Channel.Moves.unflushed {ch ch' : Channel} {data : List UInt8} (h : ch.Moves data ch') :
    ch'.unflushed = ch.unflushed := by
  obtain ⟨_, -, heq⟩ := h
  rw [heq]

/-- Sending only makes the out ring emptier. -/
theorem Channel.Moves.out_size_le {ch ch' : Channel} (h : ch.Moves [] ch') :
    ch'.connection.out.size ≤ ch.connection.out.size := by
  obtain ⟨sent, ht, -⟩ := h
  have hlen : (sentBytes sent ++ ch'.connection.out.toList).length
      = (ch.connection.out.toList ++ []).length := congrArg List.length ht.stream
  simp only [List.length_append, toList_length, List.length_nil] at hlen
  omega

theorem Channel.Moves.waited {ch ch' : Channel} (h : ch.Moves [] ch') (hw : ch.Waited) :
    ch'.Waited := by
  have hle := h.out_size_le
  rcases hw with hempty | hmask
  · left
    omega
  · right
    rw [h.mask]
    exact hmask

theorem writable_of_both : (EVENT_READABLE ||| EVENT_WRITABLE) &&& EVENT_WRITABLE ≠ 0 := by decide

theorem Channel.Served.waited {ch ch' : Channel} (h : ch.Served ch') : ch'.Waited := by
  rcases h with ⟨hempty, rfl⟩ | rfl
  · exact .inl hempty
  · exact .inr writable_of_both

/-- A seat event leaves output behind exactly when its flush fails and nobody waits. -/
theorem event_waited {c : ClientId} {m : ServerMsg} {ok : Bool} {ch ch' : Channel}
    (hm : m.isSeatEvent = true) (h : (Talk.event c m ok).Effect ch ch') (hw : ch.Waited) :
    ch'.Waited ↔ (ch.mask &&& EVENT_WRITABLE = 0 → ch'.unflushed = ch.unflushed) := by
  cases ok with
  | true =>
      obtain ⟨mid, hmoves, hempty, rfl⟩ := h
      exact ⟨fun _ _ => hmoves.unflushed, fun _ => .inl hempty⟩
  | false =>
      rcases h with ⟨data, -, -, hdata, hmoves⟩ | ⟨mid, hmoves, hfull, rfl⟩
      · -- the frame found no room: nothing was added
        rw [hdata (ServerMsg.payload_of_isSeatEvent hm)] at hmoves
        exact ⟨fun _ _ => hmoves.unflushed, fun _ => hmoves.waited hw⟩
      · have hunflushed : mid.unflushed ++ [m] ≠ ch.unflushed := by
          rw [hmoves.unflushed]
          simp
        constructor
        · intro hwait hmask
          rcases hwait with hempty | hwait
          · exact absurd hempty hfull.ne'
          · exact absurd (hmoves.mask.symm ▸ hmask) hwait
        · intro hcond
          refine .inr fun hmask => hunflushed (hcond ?_)
          rw [← hmoves.mask]
          exact hmask

theorem drain_waited {p : Peer} {ok : Bool} {ch ch' : Channel}
    (h : (Talk.drain p ok).Effect ch ch') (hw : ch.Waited) :
    ch'.Waited ∧ ch'.unflushed = ch.unflushed := by
  obtain ⟨mid, hmoves, h⟩ := h
  cases ok with
  | true =>
      obtain ⟨hempty, rfl⟩ := h
      exact ⟨.inl hempty, hmoves.unflushed⟩
  | false =>
      rw [show ch' = mid from h]
      exact ⟨hmoves.waited hw, hmoves.unflushed⟩

theorem accept_waited {p : Peer} {ch ch' : Channel} (h : (Talk.accept p).Effect ch ch') :
    ch'.Waited ∧ ch'.unflushed = ch.unflushed := by
  have hempty : size Connection.zero.out = 0 := by decide
  rw [h]
  exact ⟨.inl hempty, rfl⟩

/-! ## Control clients -/

/-- Output for the control clients in the list is waited for. -/
def Server.ControlsWaited (s : Server) : Prop :=
  ∀ i, s.Present (.control i) → (s.channel (.control i)).Waited

theorem Talk.Spec.controlsWaited {t : Talk} {s s' : Server} (h : t.Spec s s') (hs : s.PeersOk)
    (hw : s.ControlsWaited) : s'.ControlsWaited := by
  intro i hi
  have hpresent := (h.present hs (.control i)).mp hi
  by_cases hp : t.peer = .control i
  · rw [if_pos hp] at hpresent
    have heffect := h.effect
    rw [hp] at heffect
    match t, hp, hpresent, heffect with
    | .message _ _ true, _, _, ⟨_, _, _, hserved⟩ => exact Channel.Served.waited hserved
    | .drain _ _, _, hpresent, heffect => exact (drain_waited heffect (hw i hpresent)).1
    | .accept _, _, _, heffect => exact (accept_waited heffect).1
  · rw [if_neg hp] at hpresent
    rw [h.other _ fun heq => hp heq.symm]
    exact hw i hpresent

theorem Talks.controlsWaited {k : Kernel} {ts : List Talk} {s s' : Server} (h : Talks k ts s s')
    (hsound : s.Sound) (hs : s.PeersOk) (hw : s.ControlsWaited) : s'.ControlsWaited := by
  induction h with
  | refl => exact hw
  | @silent s s₁ s' ts hcalls _ ih =>
      have hquiet := Talks.quiet (k := k) hcalls
      refine ih (hcalls.sound hsound) (hquiet.present hsound hs).1 fun i hi => ?_
      rw [hcalls.channel]
      exact hw i (((hquiet.present hsound hs).2 _).mp hi)
  | label ht _ ih =>
      have hspec := Talk.Does.spec ht hsound
      exact ih (hspec.sound hsound) (hspec.peersOk hs) (hspec.controlsWaited hs hw)

/-! ## Seat clients -/

/-- The request of a client that is still there ended with a flush. -/
theorem request_waited {c : ClientId} {r : Request} {ts : List Talk} {ch ch' : Channel}
    (hts : RequestTalks c r ts) (h : Effects ts ch ch')
    (hhere : ts.foldl Talk.presence True) : ch'.Waited := by
  cases hts with
  | served hbefore hafter ht =>
      rw [Effects.append] at h
      obtain ⟨_, -, mid, hflush, hend⟩ := h
      obtain ⟨_, -, hserved⟩ := hflush
      rw [show ch' = mid from hend]
      exact Channel.Served.waited hserved
  | unsent hbefore hafter ht | failed hbefore hreply =>
      rw [List.foldl_append] at hhere
      exact hhere.elim

/-- For a seat client that is there after the step, output is left behind exactly when a seat
event to it was not taken, nobody waits, and the step is not a request of its own. -/
theorem client_waited {s : Server} {st : Step} {c : ClientId} {ts : List Talk}
    {ch ch' : Channel} (hts : ClientTalks s st c ts) (h : Effects ts ch ch')
    (hw : c ∈ s.live → ch.Waited) (hhere : ts.foldl Talk.presence (c ∈ s.live)) :
    ch'.Waited ↔ ((∀ r, st ≠ .request c r) → c ∈ s.live → ch.mask &&& EVENT_WRITABLE = 0 →
      ch'.unflushed = ch.unflushed) := by
  have both : ch'.Waited ∧ ch'.unflushed = ch.unflushed → (ch'.Waited ↔ ((∀ r, st ≠ .request c r) →
      c ∈ s.live → ch.mask &&& EVENT_WRITABLE = 0 → ch'.unflushed = ch.unflushed)) :=
    fun hb => ⟨fun _ _ _ _ => hb.2, fun _ => hb.1⟩
  unfold ClientTalks at hts
  split_ifs at hts with hown
  · obtain ⟨hst, hlive⟩ := hown
    rw [eq_true hlive] at hhere
    match st, hst, hts with
    | .request _ r, rfl, hts =>
        exact ⟨fun _ hne => absurd rfl (hne r), fun _ => request_waited hts h hhere⟩
    | .writable _, rfl, .inl ⟨ok, hts⟩ =>
        subst hts
        obtain ⟨mid, hdrain, hend⟩ := h
        rw [show ch' = mid from hend] at both ⊢
        exact both (drain_waited hdrain (hw hlive))
    | .writable _, rfl, .inr hts =>
        subst hts
        exact hhere.elim
    | .disconnect _, rfl, hts =>
        rw [show ts = [.close (.client c)] from hts] at hhere
        exact hhere.elim
  · rcases hts with ⟨hhail, -⟩ | ⟨-, hts⟩
    · rcases hhail with rfl | ⟨x, m, ok, rfl, hm, rfl⟩
      · rw [show ch' = ch from h] at both ⊢
        exact both ⟨hw hhere, rfl⟩
      · obtain ⟨mid, hevent, hend⟩ := h
        rw [show ch' = mid from hend]
        have hlive : x ∈ s.live := hhere
        have hne : ∀ r, st ≠ .request x r := by
          rintro r rfl
          exact hown ⟨rfl, hlive⟩
        rw [event_waited hm hevent (hw hlive)]
        exact ⟨fun hcond _ _ => hcond, fun hcond => hcond hne hlive⟩
    · rcases hts with rfl | rfl
      · obtain ⟨mid, haccept, hend⟩ := h
        rw [show ch' = mid from hend] at both ⊢
        exact both (accept_waited haccept)
      · exact hhere.elim

/-- A client that a step other than its own request parts with hears nothing before. -/
theorem gone_unflushed {s : Server} {st : Step} {c : ClientId} {ts : List Talk}
    {ch ch' : Channel} (hts : ClientTalks s st c ts) (h : Effects ts ch ch')
    (hw : ch.Waited) (hlive : c ∈ s.live) (hgone : ¬ ts.foldl Talk.presence (c ∈ s.live))
    (hne : ∀ r, st ≠ .request c r) : ch'.unflushed = ch.unflushed := by
  unfold ClientTalks at hts
  split_ifs at hts with hown
  · match st, hown.1, hts with
    | .request _ r, rfl, _ => exact absurd rfl (hne r)
    | .writable _, rfl, .inl ⟨ok, hts⟩ =>
        subst hts
        exact absurd hlive hgone
    | .writable _, rfl, .inr hts =>
        subst hts
        obtain ⟨mid, hdrain, last, hclose, hend⟩ := h
        rw [show ch' = last from hend, show last = mid.shut from hclose]
        exact (drain_waited hdrain hw).2
    | .disconnect _, rfl, hts =>
        rw [show ts = [.close (.client c)] from hts] at h
        obtain ⟨last, hclose, hend⟩ := h
        rw [show ch' = last from hend, show last = ch.shut from hclose]
        rfl
  · rcases hts with ⟨hhail, -⟩ | ⟨-, hts⟩
    · rcases hhail with rfl | ⟨x, m, ok, rfl, hm, rfl⟩ <;> exact absurd hlive hgone
    · rcases hts with rfl | rfl
      · exact absurd trivial hgone
      · obtain ⟨mid, haccept, last, hclose, hend⟩ := h
        rw [show ch' = last from hend, show last = mid.shut from hclose]
        exact (accept_waited haccept).2

/-- **One step** leaves output behind exactly as `LeavesBehind` says. -/
theorem step_unsentWaited {k : Kernel} {s : Server} (h : s.Kept) (hw : s.UnsentWaited)
    (st : Step) : (step k s st).UnsentWaited ↔ ¬ LeavesBehind k s st := by
  obtain ⟨ts, htalk, hts⟩ := step_dialogue k s h.wf st
  have hspec := htalk.spec h.sound
  obtain ⟨-, hpresent⟩ := htalk.present h.sound h.peers
  have hcontrols := htalk.controlsWaited h.sound h.peers fun i hi => hw.2 i hi
  -- seat clients that are there afterwards, and what the trace says of the others
  have hclient : ∀ c, c ∈ (step k s st).live →
      (((step k s st).channel (.client c)).Waited ↔ ((∀ r, st ≠ .request c r) → c ∈ s.live →
        (s.clients c).mask &&& EVENT_WRITABLE = 0 →
          unflushedEvents c (step k s st) = unflushedEvents c s)) := fun c hc =>
    client_waited (hts.clients c) (hspec.effects (.client c)) (fun hlive => hw.1 c hlive)
      ((hpresent (.client c)).mp hc)
  constructor
  · rintro ⟨hall, -⟩ ⟨c, hlive, hne, hmask, hnew⟩
    by_cases hhere : c ∈ (step k s st).live
    · exact hnew ((hclient c hhere).mp (hall c hhere) hne hlive hmask)
    · have hgone := mt (hpresent (.client c)).mpr hhere
      exact hnew (gone_unflushed (hts.clients c) (hspec.effects (.client c)) (hw.1 c hlive) hlive
        hgone hne)
  · intro hnot
    refine ⟨fun c hc => (hclient c hc).mpr fun hne hlive hmask => ?_, hcontrols⟩
    by_contra hnew
    exact hnot ⟨c, hlive, hne, hmask, hnew⟩

/-! ## Runs -/

/-- **Unsent output is always being waited for** in a run of the daemon, for every seat client
and every control client, if and only if no step of the run leaves a seat event behind. -/
theorem unsent_waited_iff (k : Kernel) (vtBound : Bool) (steps : List Step) :
    (∀ pre, pre <+: steps → (run k vtBound pre).UnsentWaited)
      ↔ Run.Meets (step k) (fun s st => ¬ LeavesBehind k s st) (serverInit vtBound) steps := by
  refine Run.forall_prefix_iff_meets (I := fun s : Server => s.Kept ∧ s.UnsentWaited)
    (fun _ h => h.2) (fun s st h hst => ⟨kept_step h.1 st, (step_unsentWaited h.1 h.2 st).mpr hst⟩)
    (fun s st h hw => (step_unsentWaited h.1 h.2 st).mp hw) ⟨kept_init vtBound, ?_, ?_⟩ steps
  · exact fun c hc => (List.not_mem_nil hc).elim
  · exact fun i hi => (List.not_mem_nil hi).elim

/-- A system on which a socket is full just when DISABLE_SEAT is to be sent. -/
def Kernel.fullAtDisable : Kernel :=
  { Kernel.obliging 1 with
    sendmsg := fun trace _ => match trace with
      | .frame _ .disableSeat _ :: _ => []
      | _ => [.sent CONNECTION_BUFFER_SIZE] }

/-- A compositor is switched away from while its socket is full: DISABLE_SEAT stays in the ring,
and the event source does not ask to be told when it can be sent. -/
theorem disable_left_behind :
    let s := run .fullAtDisable true [.connect 100, .request 0 .openSeat, .vtEvent 1 2]
    0 ∈ s.live ∧ (s.clients 0).connection.out.toList = ServerMsg.disableSeat.bytes
      ∧ (s.clients 0).mask = EVENT_READABLE ∧ ¬ s.UnsentWaited := by
  decide +kernel

end DdeSeatd
