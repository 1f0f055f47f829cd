import DdeSeatd.ServerRefinement
import DdeSeatd.Talk

set_option autoImplicit false

/-! # What a step of the daemon says to whom

For every function of `seatd/seat.c` and `seatd/client.c` that sends, the talks it consists of;
and from them, for every step of the daemon, its talks with each peer (`step_dialogue`). The two
facts the later files rest on are that a request that is handled gets exactly one reply, with
seat events before or after it, and that any other client hears at most one seat event in a
step.
-/

namespace DdeSeatd

open Labelled

/-! ## Seat events -/

/-- Nothing is said, or one seat event to a client that satisfies `P`. -/
def Hails (P : ClientId → Prop) (ts : List Talk) : Prop :=
  ts = [] ∨ ∃ x m ok, P x ∧ m.isSeatEvent = true ∧ ts = [.event x m ok]

theorem Hails.nil (P : ClientId → Prop) : Hails P [] := .inl rfl

theorem Hails.mono {P Q : ClientId → Prop} {ts : List Talk} (hPQ : ∀ x, P x → Q x)
    (h : Hails P ts) : Hails Q ts := by
  rcases h with h | ⟨x, m, ok, hx, hm, h⟩
  · exact .inl h
  · exact .inr ⟨x, m, ok, hPQ x hx, hm, h⟩

/-- A seat event is a bare header. -/
theorem ServerMsg.payload_of_isSeatEvent {m : ServerMsg} (h : m.isSeatEvent = true) :
    m.payload = [] := by
  cases m <;> first | rfl | cases h

section

variable (k : Kernel) (s : Server)

/-! ## Opening and closing -/

/-- The event of `seat_enable_client` is sent between system calls. -/
theorem seatEnableClient_talks (c : ClientId) (openVt : Int) :
    Talks k [.event c .enableSeat (seatEnableClient k s c openVt).1] s
      (seatEnableClient k s c openVt).2 := by
  have hup := calls_seatActivateDevices k s c
  unfold seatEnableClient
  dsimp only
  set e := clientSendEnableSeat k (seatActivateDevices k s c) c with he
  have hsend : (Talk.event c .enableSeat e.1).Does k (seatActivateDevices k s c) e.2 := rfl
  have htalk := Talks.after hup (Talks.one hsend)
  cases hr : e.1 with
  | true =>
      rw [hr] at htalk
      rw [if_pos rfl]
      exact htalk.calls (((Calls.refl (Q := fun _ => True) _).setState c .active).setSeat _)
  | false =>
      rw [hr] at htalk
      rw [if_neg Bool.false_ne_true]
      exact htalk.calls (calls_seatRollBack k _ c openVt)

/-- `seat_open_client` sends ENABLE_SEAT, or fails before. -/
theorem seatOpenClient_talks (c : ClientId) :
    ∃ ts, Talks k ts s (seatOpenClient k s c).2
      ∧ (ts = [] ∧ (seatOpenClient k s c).1 = false
        ∨ ts = [.event c .enableSeat (seatOpenClient k s c).1]) := by
  have hrefl := Calls.refl (Q := fun _ => True) s
  unfold seatOpenClient
  dsimp only
  split
  · exact ⟨[], .quiet (hrefl.setErrno _), .inl ⟨rfl, rfl⟩⟩
  · split
    · exact ⟨[], .quiet (hrefl.setErrno _), .inl ⟨rfl, rfl⟩⟩
    · have hv : Calls (fun _ => True) s
          (if s.seat.vtBound then vtOpen k s (vtForClientOpen s c) else (true, s)).2 := by
        split_ifs
        · exact (calls_vtConfigure k s _ true).any
        · exact hrefl
      generalize (if s.seat.vtBound then vtOpen k s (vtForClientOpen s c) else (true, s)) = v
        at hv ⊢
      cases hr : v.1 with
      | true =>
          rw [if_pos rfl]
          exact ⟨_, .after hv (seatEnableClient_talks k v.2 c _), .inr rfl⟩
      | false =>
          rw [if_neg Bool.false_ne_true]
          exact ⟨[], .quiet hv, .inl ⟨rfl, rfl⟩⟩

/-- Opening a client changes nothing on the seat but who is active. -/
theorem seat_seatEnableClient (c : ClientId) (openVt : Int) :
    (seatEnableClient k s c openVt).2.seat
      = if (seatEnableClient k s c openVt).1 then { s.seat with activeClient := some c }
        else s.seat := by
  have hup : (seatActivateDevices k s c).seat = s.seat :=
    congrArg View.seat (view_seatActivateDevices k s none c)
  have hsend : (clientSendEnableSeat k (seatActivateDevices k s c) c).2.seat = s.seat := by
    rcases view_clientSendEvent k (seatActivateDevices k s c) none c (m := .enableSeat) rfl with
      ⟨-, h⟩ | ⟨-, h⟩ | ⟨-, h⟩ <;> exact (congrArg View.seat h).trans hup
  unfold seatEnableClient
  dsimp only
  set e := clientSendEnableSeat k (seatActivateDevices k s c) c
  by_cases hr : e.1 = true
  · simp only [if_pos hr, if_true]
    show ({ e.2.seat with activeClient := some c } : Seat) = _
    rw [hsend]
  · simp only [if_neg hr, Bool.false_eq_true, if_false]
    obtain ⟨_, _, -, -, hview⟩ := seatRollBack_view k e.2 none c openVt
    exact (congrArg View.seat hview).trans hsend

theorem seat_seatOpenClient (c : ClientId) :
    (seatOpenClient k s c).2.seat
      = if (seatOpenClient k s c).1 then { s.seat with activeClient := some c } else s.seat := by
  unfold seatOpenClient
  dsimp only
  split
  · rfl
  · split
    · rfl
    · have hv : (if s.seat.vtBound then vtOpen k s (vtForClientOpen s c) else (true, s)).2.seat
          = s.seat := by
        split_ifs
        · exact congrArg View.seat (view_vtOpen k s none _)
        · rfl
      generalize (if s.seat.vtBound then vtOpen k s (vtForClientOpen s c) else (true, s)) = v
        at hv ⊢
      by_cases hr : v.1 = true
      · simp only [if_pos hr]
        rw [seat_seatEnableClient, hv]
      · simp only [if_neg hr, Bool.false_eq_true, if_false]
        exact hv

/-- `seat_activate` sends an event to the client it picks, who is then the only one that may
have become active. -/
theorem seatActivate_talks :
    ∃ ts, Talks k ts s (seatActivate k s).2
      ∧ Hails (fun x => (x ∈ s.seat.clients ∨ s.seat.nextClient = some x)
          ∧ ∀ a, (seatActivate k s).2.seat.activeClient = some a → a = x) ts := by
  unfold seatActivate
  split
  · exact ⟨[], .refl s, .nil _⟩
  · next hnone =>
      split
      · exact ⟨[], .refl s, .nil _⟩
      · next c htarget =>
          have hseat := seat_seatOpenClient k (s.setSeat { s.seat with nextClient := none }) c
          obtain ⟨ts, htalk, hts⟩ :=
            seatOpenClient_talks k (s.setSeat { s.seat with nextClient := none }) c
          refine ⟨ts, .after ((Calls.refl (Q := fun _ => True) s).setSeat _) htalk, ?_⟩
          rcases hts with ⟨h, -⟩ | h
          · exact .inl h
          · refine .inr ⟨c, _, _, ⟨mem_of_seatActivateTarget s htarget, fun a ha => ?_⟩, rfl, h⟩
            rw [hseat] at ha
            split_ifs at ha
            · exact (Option.some.inj ha).symm
            · exact absurd (show s.seat.activeClient ≠ none by
                rw [show s.seat.activeClient = some a from ha]; simp) hnone

/-- `seat_remove_client` says something only if the client was the active one, and then to
another one. -/
theorem seatRemoveClient_talks (c : ClientId) (hnodup : s.seat.clients.Nodup) :
    ∃ ts, Talks k ts s (seatRemoveClient k s c)
      ∧ Hails (fun x => x ≠ c ∧ (x ∈ s.seat.clients ∨ s.seat.nextClient = some x)) ts
      ∧ (ts ≠ [] → s.seat.activeClient = some c) := by
  have hstrip := calls_seatStripClient k s c
  have hseat := seatStripClient_seat k s c
  set s1 := seatStripClient k s c with hs1
  set wasCurrent : Bool := decide (s1.seat.activeClient = some c) with hwas
  set s2 := if wasCurrent = true then
      (seatActivate k (s1.setSeat { s1.seat with activeClient := none })).2
    else s1 with hs2
  set s3 := seatCleanVt k s2 c wasCurrent with hs3
  have hres : seatRemoveClient k s c
      = s3.setClient c { s3.clients c with state := .closed, seat := false } := rfl
  have hend : Calls (fun _ => True) s2 (seatRemoveClient k s c) := by
    rw [hres]
    exact (calls_seatCleanVt k s2 c _).any.setClient rfl rfl
  by_cases hcur : s1.seat.activeClient = some c
  · have hs2' : s2 = (seatActivate k (s1.setSeat { s1.seat with activeClient := none })).2 :=
      if_pos (decide_eq_true hcur)
    obtain ⟨ts, htalk, hts⟩ :=
      seatActivate_talks k (s1.setSeat { s1.seat with activeClient := none })
    rw [← hs2'] at htalk
    have hquiet : Calls (fun _ => True) s (s1.setSeat { s1.seat with activeClient := none }) :=
      hstrip.setSeat _
    refine ⟨ts, (Talks.after hquiet htalk).calls hend, hts.mono ?_, fun _ => ?_⟩
    · rintro x ⟨hx, -⟩
      have hx' : x ∈ s.seat.clients.erase c
          ∨ (if s.seat.nextClient = some c then none else s.seat.nextClient) = some x := by
        have hclients : (s1.setSeat { s1.seat with activeClient := none }).seat.clients
            = s.seat.clients.erase c := congrArg Seat.clients hseat
        have hnext : (s1.setSeat { s1.seat with activeClient := none }).seat.nextClient
            = if s.seat.nextClient = some c then none else s.seat.nextClient :=
          congrArg Seat.nextClient hseat
        rwa [hclients, hnext] at hx
      rcases hx' with hx' | hx'
      · exact ⟨(hnodup.mem_erase_iff.mp hx').1, .inl (List.mem_of_mem_erase hx')⟩
      · split_ifs at hx' with hnext
        exact ⟨fun h => hnext (h ▸ hx'), .inr hx'⟩
    · rw [hseat] at hcur
      exact hcur
  · have hs2' : s2 = s1 := if_neg (by simpa [hwas] using hcur)
    rw [hs2'] at hend
    exact ⟨[], .quiet (hstrip.trans hend), .nil _, fun h => absurd rfl h⟩

/-! ## Switching -/

theorem seatDisableClient_talks (c : ClientId) :
    ∃ ts, Talks k ts s (seatDisableClient k s c).2 ∧ Hails (· = c) ts := by
  unfold seatDisableClient
  split_ifs
  · exact ⟨[], .quiet ((Calls.refl (Q := fun _ => True) s).setErrno _), .nil _⟩
  · dsimp only
    have hdown := ((calls_seatDeactivateDevices k s c).any).setState c .pendingDisable
    have hsend : (Talk.event c .disableSeat (clientSendDisableSeat k
        ((seatDeactivateDevices k s c).setState c .pendingDisable) c).1).Does k
        ((seatDeactivateDevices k s c).setState c .pendingDisable)
        (clientSendDisableSeat k ((seatDeactivateDevices k s c).setState c .pendingDisable) c).2 :=
      rfl
    exact ⟨_, .after hdown (.one hsend), .inr ⟨c, _, _, rfl, rfl, rfl⟩⟩

theorem seatAckDisableClient_talks (c : ClientId) :
    ∃ ts, Talks k ts s (seatAckDisableClient k s c).2
      ∧ Hails (fun x => (x ∈ s.seat.clients ∨ s.seat.nextClient = some x)
          ∧ ∀ a, (seatAckDisableClient k s c).2.seat.activeClient = some a → a = x) ts := by
  have hrefl := Calls.refl (Q := fun _ => True) s
  unfold seatAckDisableClient
  dsimp only
  split
  · exact ⟨[], .quiet (hrefl.setErrno _), .nil _⟩
  · split
    · exact ⟨[], .quiet (hrefl.setState c .disabled), .nil _⟩
    · obtain ⟨ts, htalk, hts⟩ := seatActivate_talks k ((s.setState c .disabled).setSeat
        { (s.setState c .disabled).seat with activeClient := none })
      exact ⟨ts, .after ((hrefl.setState c .disabled).setSeat _) htalk, hts⟩

theorem seatSetNextSession_talks (c : ClientId) (session : Int) :
    ∃ ts, Talks k ts s (seatSetNextSession k s c session).2
      ∧ Hails (fun x => s.seat.activeClient = some x) ts := by
  have hrefl := Calls.refl (Q := fun _ => True) s
  unfold seatSetNextSession
  dsimp only
  split
  · exact ⟨[], .quiet (hrefl.setErrno _), .nil _⟩
  split
  · exact ⟨[], .quiet (hrefl.setErrno _), .nil _⟩
  split
  · exact ⟨[], .refl s, .nil _⟩
  split
  · exact ⟨[], .refl s, .nil _⟩
  split
  · exact ⟨[], .quiet (hrefl.setErrno _), .nil _⟩
  split
  · exact ⟨[], .refl s, .nil _⟩
  split
  · exact ⟨[], .quiet (calls_seatRequestVt k s session), .nil _⟩
  split
  · exact ⟨[], .quiet (hrefl.setErrno _), .nil _⟩
  · next target _ =>
      split
      · next a ha =>
          obtain ⟨ts, htalk, hts⟩ :=
            seatDisableClient_talks k (s.setSeat { s.seat with nextClient := some target }) a
          refine ⟨ts, .after (hrefl.setSeat _) htalk, hts.mono ?_⟩
          rintro x rfl
          exact ha
      · exact ⟨[], .quiet (hrefl.setSeat _), .nil _⟩

end

/-! ## Requests -/

/-- The responses to a request: the message for it, or an error where the source sends one. -/
def Answers : Request → ServerMsg → Prop
  | .openSeat, .seatOpened name => name = SEAT0
  | .closeSeat, .seatClosed => True
  | .openDevice _, .deviceOpened _ => True
  | .openDevice _, .error _ => True
  | .closeDevice _, .deviceClosed => True
  | .closeDevice _, .error _ => True
  | .switchSession _, .sessionSwitched => True
  | .switchSession _, .error _ => True
  | .disableSeat, .seatDisabled => True
  | .disableSeat, .error _ => True
  | .ping, .pong => True
  | _, _ => False

/-- The talk that answers the request `r` of `c`. A DEVICE_OPENED is only ever sent with a fd. -/
inductive Replies (c : ClientId) (r : Request) (ok : Bool) : Talk → Prop where
  | frame {m : ServerMsg} (h : Answers r m) (hm : ∀ id, m ≠ .deviceOpened id) :
      Replies c r ok (.frame c m ok)
  | device {path : CString} (hr : r = .openDevice path) (d : SeatDevice) :
      Replies c r ok (.device c d ok)

/-- The talks of a handler. One that succeeds replies once, after an event to a client that
satisfies `P` or before one to `c` itself; one that fails has not replied. -/
def Handles (P : ClientId → Prop) (c : ClientId) (r : Request) (ok : Bool) (ts : List Talk) :
    Prop :=
  if ok then
    ∃ before t after, ts = before ++ t :: after ∧ Hails P before ∧ Hails (· = c) after
      ∧ Replies c r true t
  else
    ∃ before reply, ts = before ++ reply ∧ Hails P before
      ∧ (reply = [] ∨ ∃ t, reply = [t] ∧ Replies c r false t)

theorem Handles.mono {P Q : ClientId → Prop} {c : ClientId} {r : Request} {ok : Bool}
    {ts : List Talk} (hPQ : ∀ x, P x → Q x) (h : Handles P c r ok ts) : Handles Q c r ok ts := by
  cases ok with
  | true =>
      obtain ⟨before, t, after, hts, hbefore, hrest⟩ := h
      exact ⟨before, t, after, hts, hbefore.mono hPQ, hrest⟩
  | false =>
      obtain ⟨before, reply, hts, hbefore, hrest⟩ := h
      exact ⟨before, reply, hts, hbefore.mono hPQ, hrest⟩

section

variable (k : Kernel) (s : Server) {P : ClientId → Prop} {c : ClientId} {ts : List Talk}
  {r : Request} {x : ClientId}

/-- Putting the reply as the last thing a handler does. -/
theorem handles_put {m : ServerMsg} {s₁ : Server} (h : Talks k ts s s₁) (hts : Hails P ts)
    (hm : Answers r m) (hdev : ∀ id, m ≠ .deviceOpened id) :
    ∃ ts', Talks k ts' s (clientPutMsg k s₁ c m).2
      ∧ Handles P c r (clientPutMsg k s₁ c m).1 ts' := by
  have hput : (Talk.frame c m (clientPutMsg k s₁ c m).1).Does k s₁ (clientPutMsg k s₁ c m).2 := rfl
  refine ⟨_, h.trans (.one hput), ?_⟩
  cases hr : (clientPutMsg k s₁ c m).1 with
  | true => exact ⟨ts, _, [], rfl, hts, .nil _, .frame hm hdev⟩
  | false => exact ⟨ts, _, rfl, hts, .inr ⟨_, rfl, .frame hm hdev⟩⟩

/-- A handler that fails before it has said anything. -/
theorem handles_fail : Handles P c r false [] :=
  ⟨[], [], rfl, .nil _, .inl rfl⟩

theorem handleOpenSeat_talks (c : ClientId) :
    ∃ ts, Talks k ts s (handleOpenSeat k s c).2
      ∧ Handles (· = c) c .openSeat (handleOpenSeat k s c).1 ts := by
  have hadd := calls_seatAddClient k s c
  unfold handleOpenSeat
  dsimp only
  set a := seatAddClient k s c
  split_ifs with ha hput
  · -- the client is opened after the reply, whatever comes of it
    obtain ⟨ts, htalk, hts⟩ := seatOpenClient_talks k (clientPutMsg k a.2 c (.seatOpened SEAT0)).2 c
    have hreply : (Talk.frame c (.seatOpened SEAT0) true).Does k a.2
        (clientPutMsg k a.2 c (.seatOpened SEAT0)).2 := Prod.ext hput rfl
    refine ⟨_, (Talks.after hadd (.one hreply)).trans htalk, [], _, ts, rfl, .nil _, ?_, ?_⟩
    · rcases hts with ⟨h, -⟩ | h
      · exact .inl h
      · exact .inr ⟨c, _, _, rfl, rfl, h⟩
    · exact .frame rfl (by simp)
  · obtain ⟨ts, htalk, hts⟩ := handles_put k s (c := c) (r := .openSeat) (P := (· = c))
      (m := .seatOpened SEAT0) (.quiet hadd) (.nil _) rfl (by simp)
    exact ⟨ts, htalk, hts⟩
  · have hfail : a.1 = false := by simpa using ha
    rw [hfail]
    exact ⟨[], .quiet hadd, handles_fail⟩

/-- The client leaves the seat; if it was active, another one hears about it. -/
theorem handleCloseSeat_talks (c : ClientId) (hnodup : s.seat.clients.Nodup) :
    ∃ ts, Talks k ts s (handleCloseSeat k s c).2
      ∧ Handles (fun x => x ≠ c ∧ (x ∈ s.seat.clients ∨ s.seat.nextClient = some x)) c .closeSeat
          (handleCloseSeat k s c).1 ts := by
  unfold handleCloseSeat
  dsimp only
  split_ifs
  · exact ⟨[], .refl s, handles_fail⟩
  · obtain ⟨ts, htalk, hts, -⟩ := seatRemoveClient_talks k s c hnodup
    have hidle : Calls (fun _ => True) (seatRemoveClient k s c)
        { seatRemoveClient k s c with
          idleClients := c :: (seatRemoveClient k s c).idleClients } :=
      ⟨fun _ => rfl, fun _ => rfl, rfl, rfl, rfl, rfl, rfl, [], rfl, by simp⟩
    exact handles_put k s (htalk.calls hidle) hts trivial (by simp)

theorem sendDevice_talks (c : ClientId) (d : SeatDevice) {path : CString} {s₁ : Server}
    (h : Talks k [] s s₁) :
    ∃ ts, Talks k ts s (sendDevice k s₁ c d).2
      ∧ Handles P c (.openDevice path) (sendDevice k s₁ c d).1 ts := by
  cases hput : connectionPutFd (s₁.clients c).connection s₁.nextFd with
  | error e =>
      have hsend : sendDevice k s₁ c d = (false, s₁.newFd.setErrno e) := by
        unfold sendDevice
        simp only [show (s₁.newFd.clients c).connection = (s₁.clients c).connection from rfl, hput]
      rw [hsend]
      exact ⟨[], h.calls (((Calls.refl (Q := fun _ => True) s₁).newFd).setErrno e), handles_fail⟩
  | ok conn =>
      have hdoes : (Talk.device c d (sendDevice k s₁ c d).1).Does k s₁ (sendDevice k s₁ c d).2 :=
        ⟨⟨conn, hput⟩, rfl⟩
      refine ⟨_, h.trans (.one hdoes), ?_⟩
      cases hr : (sendDevice k s₁ c d).1 with
      | true => exact ⟨[], _, [], rfl, .nil _, .nil _, .device rfl d⟩
      | false => exact ⟨[], _, rfl, .nil _, .inr ⟨_, rfl, .device rfl d⟩⟩

theorem handleOpenDevice_talks (c : ClientId) (path : CString) :
    ∃ ts, Talks k ts s (handleOpenDevice k s c path).2
      ∧ Handles P c (.openDevice path) (handleOpenDevice k s c path).1 ts := by
  have hopen := calls_seatOpenDevice k s c path
  unfold handleOpenDevice
  split_ifs
  · exact ⟨[], .refl s, handles_fail⟩
  · dsimp only
    split
    · exact handles_put k s (.quiet hopen) (.nil _) trivial (by simp)
    · next i d _ =>
        have hdup : Calls Syscall.OffTty s
            ((seatOpenDevice k s c path).2.call k (.dup d.fd)).2 := hopen.call k (by trivial)
        split_ifs
        · exact sendDevice_talks k s c d (.quiet hdup)
        · exact handles_put k s (.quiet (hdup.trans (calls_seatCloseDevice k _ c i))) (.nil _)
            trivial (by simp)

theorem handleCloseDevice_talks (c : ClientId) (deviceId : Int) :
    ∃ ts, Talks k ts s (handleCloseDevice k s c deviceId).2
      ∧ Handles P c (.closeDevice deviceId) (handleCloseDevice k s c deviceId).1 ts := by
  have hfind := calls_seatFindDevice s c deviceId
  unfold handleCloseDevice
  split_ifs
  · exact ⟨[], .refl s, handles_fail⟩
  · dsimp only
    split
    · exact handles_put k s (.quiet hfind) (.nil _) trivial (by simp)
    · next i _ =>
        exact handles_put k s (.quiet (hfind.trans (calls_seatCloseDevice k _ c i))) (.nil _)
          trivial (by simp)

theorem handleSwitchSession_talks (c : ClientId) (session : Int) :
    ∃ ts, Talks k ts s (handleSwitchSession k s c session).2
      ∧ Handles (fun x => (s.clients c).state = .active ∧ s.seat.activeClient = some x) c
          (.switchSession session) (handleSwitchSession k s c session).1 ts := by
  obtain ⟨ts, htalk, hts⟩ := seatSetNextSession_talks k s c session
  -- a client that is not active is refused at once
  have hquiet : Talks k ts s (seatSetNextSession k s c session).2
      ∧ Hails (fun x => (s.clients c).state = .active ∧ s.seat.activeClient = some x) ts
      ∨ Talks k [] s (seatSetNextSession k s c session).2 := by
    by_cases hst : (s.clients c).state = .active
    · exact .inl ⟨htalk, hts.mono fun x hx => ⟨hst, hx⟩⟩
    · right
      unfold seatSetNextSession
      rw [if_pos hst]
      exact .quiet ((Calls.refl (Q := fun _ => True) s).setErrno _)
  unfold handleSwitchSession
  split_ifs
  · exact ⟨[], .refl s, handles_fail⟩
  · dsimp only
    rcases hquiet with ⟨htalk, hts⟩ | htalk
    · split_ifs
      · exact handles_put k s htalk hts trivial (by simp)
      · exact handles_put k s htalk hts trivial (by simp)
    · split_ifs
      · exact handles_put k s htalk (.nil _) trivial (by simp)
      · exact handles_put k s htalk (.nil _) trivial (by simp)

theorem handleDisableSeat_talks (c : ClientId) :
    ∃ ts, Talks k ts s (handleDisableSeat k s c).2
      ∧ Handles (fun x => (x ∈ s.seat.clients ∨ s.seat.nextClient = some x)
            ∧ ∀ a, (handleDisableSeat k s c).2.seat.activeClient = some a → a = x) c
          .disableSeat (handleDisableSeat k s c).1 ts := by
  obtain ⟨ts, htalk, hts⟩ := seatAckDisableClient_talks k s c
  unfold handleDisableSeat
  split_ifs
  · exact ⟨[], .refl s, handles_fail⟩
  · dsimp only
    split_ifs
    · have hseat : (clientPutMsg k (seatAckDisableClient k s c).2 c .seatDisabled).2.seat
          = (seatAckDisableClient k s c).2.seat :=
        congrArg View.seat (view_clientPutMsg k _ none c rfl)
      rw [hseat]
      exact handles_put k s htalk hts trivial (by simp)
    · have hseat : (clientSendError k (seatAckDisableClient k s c).2 c
          (seatAckDisableClient k s c).2.errno).2.seat = (seatAckDisableClient k s c).2.seat :=
        congrArg View.seat (view_clientSendError k _ none c _)
      rw [hseat]
      exact handles_put k s htalk hts trivial (by simp)

theorem handlePing_talks (c : ClientId) :
    ∃ ts, Talks k ts s (handlePing k s c).2 ∧ Handles P c .ping (handlePing k s c).1 ts :=
  handles_put k s (.refl s) (.nil _) trivial (by simp)

/-- The handlers together. If another client hears of the request, then `c` does not hold the
seat afterwards. -/
theorem handleRequest_talks (h : (s.view none).WF) (hlive : c ∈ s.live) (r : Request) :
    ∃ ts, Talks k ts s (handleRequest k s c r).2
      ∧ Handles (fun x => x = c ∨ x ∈ s.seat.clients
          ∧ ((handleRequest k s c r).2.seat.activeClient ≠ some c
            ∨ ((handleRequest k s c r).2.clients c).seat = false)) c r
          (handleRequest k s c r).1 ts := by
  have hnext : ∀ x, x ∈ s.seat.clients ∨ s.seat.nextClient = some x → x ∈ s.seat.clients :=
    fun x hx => hx.elim id fun hn => (h.next x hn).1
  cases r with
  | openSeat =>
      obtain ⟨ts, htalk, hts⟩ := handleOpenSeat_talks k s c
      exact ⟨ts, htalk, hts.mono fun x => .inl⟩
  | closeSeat =>
      obtain ⟨ts, htalk, hts⟩ := handleCloseSeat_talks k s c h.clientsNodup
      by_cases hseat : (s.clients c).seat = false
      · have hres : handleCloseSeat k s c = (false, s) := by
          unfold handleCloseSeat
          rw [if_pos hseat]
        exact ⟨[], by show Talks k [] s (handleCloseSeat k s c).2; rw [hres]; exact .refl s,
          by show Handles _ c .closeSeat (handleCloseSeat k s c).1 []; rw [hres]; exact handles_fail⟩
      · have hc : c ∈ s.seat.clients := mem_of_seat s h hlive (by simpa using hseat)
        refine ⟨ts, htalk, hts.mono fun x hx => .inr ⟨hnext x hx.2, .inr ?_⟩⟩
        -- the client is off the seat when the reply is put
        have hoff := (seatRemoveClient_path k s h hc).2.2
        show ((handleCloseSeat k s c).2.clients c).seat = false
        unfold handleCloseSeat
        rw [if_neg hseat]
        have hview := view_clientPutMsg k
          { seatRemoveClient k s c with
            idleClients := c :: (seatRemoveClient k s c).idleClients } none c (m := .seatClosed) rfl
        exact (congrArg (fun v : View => (v.client c).seat) hview).trans hoff
  | openDevice path => exact handleOpenDevice_talks k s c path
  | closeDevice deviceId => exact handleCloseDevice_talks k s c deviceId
  | switchSession session =>
      obtain ⟨ts, htalk, hts⟩ := handleSwitchSession_talks k s c session
      refine ⟨ts, htalk, hts.mono ?_⟩
      rintro x ⟨hst, hx⟩
      -- an active client is the one that holds the seat
      left
      have hmem : c ∈ s.seat.clients := by
        rcases (h.live_iff c).mp hlive with hidle | hc | hleave
        · rcases (h.idle c hidle).2.2 with ⟨hnew, -⟩ | ⟨hclosed, -⟩
          · exact absurd (hst.symm.trans hnew) (by decide)
          · exact absurd (hst.symm.trans hclosed) (by decide)
        · exact hc
        · cases hleave
      have hactive := h.only c hmem (.inl hst)
      exact Option.some.inj (hx.symm.trans hactive)
  | disableSeat =>
      obtain ⟨ts, htalk, hts⟩ := handleDisableSeat_talks k s c
      refine ⟨ts, htalk, hts.mono ?_⟩
      rintro x ⟨hx, hactive⟩
      by_cases hxc : x = c
      · exact .inl hxc
      · exact .inr ⟨hnext x hx, .inl fun hc => hxc (hactive c hc).symm⟩
  | ping => exact handlePing_talks k s c

/-! ## The end of a client -/

/-- `client_destroy`: another client may be told, and then the connection is closed. -/
theorem clientDestroy_talks (h : (s.view none).WF) :
    ∃ ts, Talks k (ts ++ [.close (.client c)]) s (clientDestroy k s c)
      ∧ Hails (fun x => x ≠ c ∧ x ∈ s.seat.clients ∧ s.seat.activeClient = some c
          ∧ (s.clients c).seat = true) ts := by
  rw [clientDestroy_eq]
  have hfree : ∀ s' : Server, Talks k [.close (.client c)] s' (clientFree s' c) :=
    fun s' => .one rfl
  split_ifs with hseat
  · obtain ⟨ts, htalk, hts, hactive⟩ := seatRemoveClient_talks k s c h.clientsNodup
    refine ⟨ts, htalk.trans (hfree _), ?_⟩
    rcases hts with hts | ⟨x, m, ok, ⟨hne, hx⟩, hm, hts⟩
    · exact .inl hts
    · refine .inr ⟨x, m, ok, ⟨hne, ?_, hactive (by simp [hts]), hseat⟩, hm, hts⟩
      exact hx.elim id fun hn => (h.next x hn).1
  · exact ⟨[], hfree s, .nil _⟩

/-! ## Steps -/

/-- The talks with a client whose request is handled: one reply, seat events before or after it
and a flush; or the request fails and the connection is closed. -/
inductive RequestTalks (c : ClientId) (r : Request) : List Talk → Prop where
  | served {before after : List Talk} {t : Talk} (hbefore : Hails (· = c) before)
      (hafter : Hails (· = c) after) (ht : Replies c r true t) :
      RequestTalks c r (before ++ t :: after ++ [.flush c true])
  | unsent {before after : List Talk} {t : Talk} (hbefore : Hails (· = c) before)
      (hafter : Hails (· = c) after) (ht : Replies c r true t) :
      RequestTalks c r (before ++ t :: after ++ [.flush c false, .close (.client c)])
  | failed {before reply : List Talk} (hbefore : Hails (· = c) before)
      (hreply : reply = [] ∨ ∃ t, reply = [t] ∧ Replies c r false t) :
      RequestTalks c r (before ++ reply ++ [.close (.client c)])

theorem talksWith_hails_self {P : ClientId → Prop}
    (h : Hails P ts) : Hails (· = c) (talksWith (.client c) ts) := by
  rcases h with rfl | ⟨x, m, ok, -, hm, rfl⟩
  · exact .nil _
  · by_cases hx : x = c
    · subst hx
      exact .inr ⟨x, m, ok, rfl, hm, by simp [talksWith, Talk.peer]⟩
    · exact .inl (by simp [talksWith, Talk.peer, hx])

theorem talksWith_hails {P : ClientId → Prop} (h : Hails P ts) :
    talksWith (.client x) ts = []
      ∨ P x ∧ ∃ m ok, m.isSeatEvent = true ∧ talksWith (.client x) ts = [.event x m ok] := by
  rcases h with rfl | ⟨y, m, ok, hy, hm, rfl⟩
  · exact .inl rfl
  · by_cases hx : y = x
    · subst hx
      exact .inr ⟨hy, m, ok, hm, by simp [talksWith, Talk.peer]⟩
    · exact .inl (by simp [talksWith, Talk.peer, hx])

theorem talksWith_other {p : Peer} (h : ∀ t ∈ ts, t.peer ≠ p) :
    talksWith p ts = [] := by
  simpa [talksWith, List.filter_eq_nil_iff] using h

theorem Replies.peer {ok : Bool} {t : Talk} (h : Replies c r ok t) :
    t.peer = .client c := by
  cases h <;> rfl

theorem talksWith_hails_control {P : ClientId → Prop} {i : ControlId}
    (h : Hails P ts) : talksWith (.control i) ts = [] := by
  apply talksWith_other
  intro t ht
  rcases h with rfl | ⟨y, m, ok, -, -, rfl⟩
  · cases ht
  · rw [List.mem_singleton.mp ht]
    simp [Talk.peer]

/-- The talks with a client that the step is not about. -/
def OtherTalks (s : Server) (x : ClientId) (ts : List Talk) : Prop :=
  Hails (· = x) ts ∧ (ts ≠ [] → x ∈ s.live)

theorem otherTalks_of_hails {P : ClientId → Prop} {s : Server} (h : Hails P ts)
    (hP : P x → x ∈ s.live) : OtherTalks s x (talksWith (.client x) ts) := by
  refine ⟨talksWith_hails_self h, fun hne => ?_⟩
  rcases talksWith_hails (x := x) h with hnil | ⟨hx, -⟩
  · exact absurd hnil hne
  · exact hP hx

theorem Replies.talksWith {ok : Bool} {t : Talk}
    (h : Replies c r ok t) : talksWith (.client c) [t] = [t]
      ∧ ∀ p, p ≠ .client c → DdeSeatd.talksWith p [t] = [] := by
  rw [← h.peer]
  exact ⟨talksWith_self t, fun p hp => talksWith_single_other hp.symm⟩

theorem client_ne {x c : ClientId} (h : x ≠ c) : Peer.client x ≠ .client c :=
  fun heq => h (Peer.client.inj heq)

/-- The part of a request before the flush, or the end of the client. -/
theorem talksWith_handles {P : ClientId → Prop} {ok : Bool} (h : Handles P c r ok ts) :
    Handles (· = c) c r ok (talksWith (.client c) ts)
      ∧ (∀ x, x ≠ c → talksWith (.client x) ts = []
        ∨ P x ∧ ∃ m ok, m.isSeatEvent = true ∧ talksWith (.client x) ts = [.event x m ok])
      ∧ ∀ i, talksWith (.control i) ts = [] := by
  cases ok with
  | true =>
      obtain ⟨before, t, after, rfl, hbefore, hafter, ht⟩ := h
      obtain ⟨hself, hother⟩ := ht.talksWith
      have hsplit : before ++ t :: after = before ++ ([t] ++ after) := rfl
      simp only [hsplit, talksWith_append]
      refine ⟨?_, fun x hx => ?_, fun i => ?_⟩
      · rw [hself]
        exact ⟨_, t, _, rfl, talksWith_hails_self hbefore, talksWith_hails_self hafter, ht⟩
      · have hnone : talksWith (.client x) after = [] := by
          rcases talksWith_hails (x := x) hafter with h | ⟨h, -⟩
          · exact h
          · exact absurd h hx
        rw [hother _ (client_ne hx), hnone, List.nil_append, List.append_nil]
        exact talksWith_hails hbefore
      · rw [hother _ (by simp), talksWith_hails_control hbefore, talksWith_hails_control hafter]
        rfl
  | false =>
      obtain ⟨before, reply, rfl, hbefore, hrep⟩ := h
      simp only [talksWith_append]
      rcases hrep with rfl | ⟨t, rfl, ht⟩
      · simp only [talksWith_nil, List.append_nil]
        exact ⟨⟨_, [], (List.append_nil _).symm, talksWith_hails_self hbefore, .inl rfl⟩,
          fun x _ => talksWith_hails hbefore, fun i => talksWith_hails_control hbefore⟩
      · obtain ⟨hself, hother⟩ := ht.talksWith
        refine ⟨?_, fun x hx => ?_, fun i => ?_⟩
        · rw [hself]
          exact ⟨_, _, rfl, talksWith_hails_self hbefore, .inr ⟨t, rfl, ht⟩⟩
        · rw [hother _ (client_ne hx), List.append_nil]
          exact talksWith_hails hbefore
        · rw [hother _ (by simp), List.append_nil, talksWith_hails_control hbefore]

/-- The talks at the end of a client. -/
theorem talksWith_destroy {P : ClientId → Prop} (h : Hails (fun x => x ≠ c ∧ P x) ts) :
    talksWith (.client c) (ts ++ [.close (.client c)]) = [.close (.client c)]
      ∧ (∀ x, x ≠ c → talksWith (.client x) (ts ++ [.close (.client c)])
          = talksWith (.client x) ts)
      ∧ ∀ i, talksWith (.control i) (ts ++ [.close (.client c)]) = [] := by
  have hself : talksWith (.client c) [.close (.client c)] = [.close (.client c)] :=
    talksWith_self (.close (.client c))
  have hother : ∀ p, p ≠ .client c → talksWith p [.close (.client c)] = [] :=
    fun p hp => talksWith_single_other hp.symm
  simp only [talksWith_append]
  refine ⟨?_, fun x hx => ?_, fun i => ?_⟩
  · rcases talksWith_hails (x := c) h with hnil | ⟨⟨hne, -⟩, -⟩
    · rw [hnil, hself]
      rfl
    · exact absurd rfl hne
  · rw [hother _ (client_ne hx), List.append_nil]
  · rw [hother _ (by simp), talksWith_hails_control h]
    rfl

/-- The talks with everyone during a step that is about the client `c`. -/
structure AboutClient (s : Server) (c : ClientId) (own : List Talk → Prop) (ts : List Talk) :
    Prop where
  own : own (talksWith (.client c) ts)
  others : ∀ x, x ≠ c → OtherTalks s x (talksWith (.client x) ts)
  controls : ∀ i, talksWith (.control i) ts = []

theorem live_of_clients {s : Server} (h : (s.view none).WF)
    (hx : x ∈ s.seat.clients) : x ∈ s.live := (h.live_iff x).mpr (.inr (.inl hx))

theorem clientDestroy_about (h : (s.view none).WF) :
    ∃ ts, Talks k ts s (clientDestroy k s c)
      ∧ AboutClient s c (· = [.close (.client c)]) ts := by
  obtain ⟨ts, htalk, hts⟩ := clientDestroy_talks k s (c := c) h
  obtain ⟨hown, hothers, hcontrols⟩ := talksWith_destroy hts
  refine ⟨_, htalk, hown, fun x hx => ?_, hcontrols⟩
  rw [hothers x hx]
  exact otherTalks_of_hails hts fun hP => live_of_clients h hP.2.1

theorem clientHandleWritable_about (h : (s.view none).WF) :
    ∃ ts, Talks k ts s (clientHandleWritable k s c)
      ∧ AboutClient s c (fun own => (∃ ok, own = [.drain (.client c) ok])
          ∨ own = [.drain (.client c) false, .close (.client c)]) ts := by
  have hself : ∀ ok, talksWith (.client c) [.drain (.client c) ok] = [.drain (.client c) ok] :=
    fun ok => talksWith_self (.drain (.client c) ok)
  have hother : ∀ {ok p}, p ≠ .client c → talksWith p [.drain (.client c) ok] = [] :=
    fun hp => talksWith_single_other hp.symm
  have halone : ∀ ok, AboutClient s c (fun own => (∃ ok, own = [.drain (.client c) ok])
      ∨ own = [.drain (.client c) false, .close (.client c)]) [.drain (.client c) ok] := by
    intro ok
    refine ⟨.inl ⟨ok, hself ok⟩, fun x hx => ?_, fun i => hother (by simp)⟩
    rw [hother (client_ne hx)]
    exact ⟨.nil _, fun hne => absurd rfl hne⟩
  unfold clientHandleWritable
  dsimp only
  split_ifs with hok herrno
  · exact ⟨_, .one (t := .drain (.client c) true) ⟨hok, rfl⟩, halone true⟩
  · have hfail : (s.flush k (.client c)).1 = false := by simpa using hok
    have hflush : Talks k [.drain (.client c) false] s (s.flush k (.client c)).2 :=
      .one ⟨hfail, rfl⟩
    have hview := view_flush k s none (.client c)
    obtain ⟨ts, htalk, hts⟩ := clientDestroy_talks k (s.flush k (.client c)).2 (c := c)
      (by rw [hview]; exact h)
    obtain ⟨hown, hothers, hcontrols⟩ := talksWith_destroy hts
    refine ⟨_, hflush.trans htalk, .inr ?_, fun x hx => ?_, fun i => ?_⟩
    · rw [talksWith_append, hown, hself]
      rfl
    · rw [talksWith_append, hothers x hx, hother (client_ne hx), List.nil_append]
      have hseat : (s.flush k (.client c)).2.seat = s.seat := congrArg View.seat hview
      refine otherTalks_of_hails hts fun hP => live_of_clients h ?_
      rw [← hseat]
      exact hP.2.1
    · rw [talksWith_append, hcontrols, hother (by simp)]
      rfl
  · have hfail : (s.flush k (.client c)).1 = false := by simpa using hok
    exact ⟨_, .one (t := .drain (.client c) false) ⟨hfail, rfl⟩, halone false⟩

end

end DdeSeatd
