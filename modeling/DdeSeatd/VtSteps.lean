import DdeSeatd.VtModes

set_option autoImplicit false

/-! # Steps on a seat with VTs

What the invariants about VT modes need to know about the handlers of the daemon: which of them leave
sessions, group VTs and modes alone (`Alike`, `View.SameVts`, `View.SameSessions`), and what an
acknowledged disable, a joining client and one that is destroyed come down to.
-/

namespace DdeSeatd

open ClientState Labelled

/-! ## Transitions that leave the VTs alone -/

/-- Transitions that change neither who is on the seat nor the VTs. -/
def Act.KeepsVts : Act → Prop
  | .create | .join _ _ | .detach _ | .addGroup _ | .destroyGroup _ | .removeGroup _ | .setVt _
  | .vtEvent _ => False
  | _ => True

/-- The same clients and VTs. -/
structure View.SameVts (v v' : View) : Prop where
  clients : v'.seat.clients = v.seat.clients
  groupVts : v'.seat.groupVts = v.seat.groupVts
  curVt : v'.seat.curVt = v.seat.curVt
  session : ∀ o, (v'.client o).session = (v.client o).session

theorem sameVts_of_path {k : Kernel} {P : Act → Prop} (hP : ∀ a, P a → a.KeepsVts) {v v' : View}
    (hp : Act.Path k P v v') : v.SameVts v' := by
  refine Path.invariant (I := fun u : View => v.SameVts u) ?_ hp ⟨rfl, rfl, rfl, fun _ => rfl⟩
  intro a u u' ha ht hu
  have hkeeps := hP a ha
  have hsession : ∀ o, (u'.client o).session = (v.client o).session := fun o =>
    (ht.session (fun heq => by rw [heq] at hkeeps; exact hkeeps)
      (fun c n heq => by rw [heq] at hkeeps; exact hkeeps) o).trans (hu.session o)
  obtain ⟨evs, -, -, -, rfl⟩ := ht
  cases a with
  | create | join | detach | addGroup | destroyGroup | removeGroup | setVt | vtEvent => cases hkeeps
  | _ => exact ⟨hu.clients, hu.groupVts, hu.curVt, hsession⟩

theorem View.SameVts.has {v v' : View} (h : v.SameVts v') (c : ClientId) (vt : Int) :
    v'.Has c vt ↔ v.Has c vt := by
  unfold View.Has
  rw [h.session, h.groupVts]

/-- Ownership is the same then. -/
theorem View.SameVts.clientOwnsVt {s s' : Server} (h : (s.view none).SameVts (s'.view none))
    (hwf : (s.view none).WF) (hwf' : (s'.view none).WF) {c : ClientId} (hc : c ∈ s.seat.clients)
    (vt : Int) : clientOwnsVt s' c vt = clientOwnsVt s c vt := by
  have hc' : c ∈ s'.seat.clients := by
    rw [show s'.seat.clients = s.seat.clients from h.clients]
    exact hc
  rw [Bool.eq_iff_iff, clientOwnsVt_iff_has hwf' hc', clientOwnsVt_iff_has hwf hc]
  exact h.has c vt

/-! ## Acknowledged disables -/

/-- An ack is refused and changes nothing, or the client gives up the seat and another one is looked
for, on a VT-bound seat. -/
theorem seatAckDisableClient_settles (k : Kernel) {s : Server} {c : ClientId} (hs : s.OnVts)
    (hc : c ∈ s.seat.clients) :
    Alike s (seatAckDisableClient k s c).2
    ∨ ∃ s1, (Act.acked c).Trans k (s.view none) (s1.view none) ∧ s1.OnVts
      ∧ s1.inGraphics = s.inGraphics ∧ s1.seat.activeClient = none ∧ s1.seat.nextClient = none
      ∧ (seatAckDisableClient k s c).2 = (seatActivate k s1).2 := by
  unfold seatAckDisableClient
  by_cases hst : (s.clients c).state = pendingDisable
  · have hactive : s.seat.activeClient = some c := hs.wf.only c hc (Or.inr hst)
    rw [if_neg (not_not.mpr hst)]
    dsimp only
    rw [if_neg (show ¬ (s.setState c .disabled).seat.activeClient ≠ some c from
      not_not.mpr hactive)]
    set s1 := (s.setState c disabled).setSeat
      { (s.setState c disabled).seat with activeClient := none } with hs1
    have hnext : s.seat.nextClient = none := hs.wf.nextVt hs.vtBound
    have heffect : ((s.view none).setState c disabled).setSeat
        { (s.setState c disabled).seat with activeClient := none }
        = (Act.acked c).effect (s.view none) := by
      unfold Act.effect
      show View.setSeat _ { s.seat with activeClient := none } = View.setSeat _ { s.seat with
        activeClient := none, nextClient := none }
      rw [← hnext]
    have htrans : (Act.acked c).Trans k (s.view none) (s1.view none) := by
      rw [hs1, view_setSeat, view_setState, heffect]
      exact Act.Trans.silent ⟨hactive, hst⟩ (fun _ => rfl) rfl
    have hs1 : s1.OnVts :=
      hs.path (P := (· = .acked c)) (fun _ hg => by cases hg) (.single _ rfl htrans)
    exact Or.inr ⟨s1, htrans, hs1, rfl, rfl, hnext, rfl⟩
  · rw [if_pos hst]
    exact Or.inl ⟨rfl, rfl⟩

theorem alike_clientPutMsg (k : Kernel) (s : Server) (c : ClientId) {m : ServerMsg}
    (hm : m.isSeatEvent = false) : Alike s (clientPutMsg k s c m).2 :=
  ⟨view_clientPutMsg k s none c hm, (logs_clientPutMsg (Q := Syscall.OffTty) k s c m).modes⟩

theorem alike_handleDisableSeat (k : Kernel) {s : Server} {c : ClientId}
    (hseat : (s.clients c).seat = true) :
    Alike (seatAckDisableClient k s c).2 (handleDisableSeat k s c).2 := by
  unfold handleDisableSeat
  rw [if_neg (by simp [hseat])]
  dsimp only
  split_ifs
  · exact alike_clientPutMsg k _ c rfl
  · exact alike_clientPutMsg k _ c rfl

/-- After CLOSE_SEAT a client is not on the seat. -/
theorem seat_handleCloseSeat (k : Kernel) {s : Server} {c : ClientId} (hwf : (s.view none).WF)
    (hlive : c ∈ s.live) : ((handleCloseSeat k s c).2.clients c).seat = false := by
  unfold handleCloseSeat
  by_cases hseat : (s.clients c).seat = false
  · rw [if_pos hseat]
    exact hseat
  · rw [if_neg hseat]
    obtain ⟨-, -, hoff⟩ := seatRemoveClient_path k s hwf (mem_of_seat s hwf hlive (by simpa using hseat))
    have hsent := (alike_clientPutMsg k { seatRemoveClient k s c with
      idleClients := c :: (seatRemoveClient k s c).idleClients } c (m := .seatClosed) rfl).view
    exact (congrArg (fun v => (View.client v c).seat) hsent).trans hoff

/-! ## Joining -/

/-- A client that joins a VT-bound seat gets the current VT as its session. -/
theorem session_seatAddClient (k : Kernel) {s : Server} {c : ClientId} (hs : s.OnVts)
    (hlive : c ∈ s.live) (hok : (seatAddClient k s c).1 = true) :
    c ∈ (seatAddClient k s c).2.seat.clients
    ∧ ((seatAddClient k s c).2.clients c).session = (seatAddClient k s c).2.seat.curVt
    ∧ (seatAddClient k s c).2.OnVts := by
  rcases seatAddClient_cases k s hs.wf hlive with ⟨hfail, -⟩ | ⟨-, s1, n, hpath, hjoin, -⟩
  · rw [hok] at hfail
    cases hfail
  have hs1 : s1.OnVts := hs.path (fun _ hg => by cases hg) hpath
  have hs2 : (seatAddClient k s c).2.OnVts :=
    hs1.path (P := (· = .join c n)) (fun _ hg => by cases hg) (.single _ rfl hjoin)
  obtain ⟨evs, ⟨-, -, -, -, hn⟩, -, -, hview⟩ := hjoin
  rw [if_pos (show (s1.view none).seat.vtBound = true from hs1.vtBound)] at hn
  have hseat : (seatAddClient k s c).2.seat = { s1.seat with clients := c :: s1.seat.clients } :=
    congrArg View.seat hview
  have hsession : ((seatAddClient k s c).2.clients c).session = n := by
    refine (congrArg (fun v => (View.client v c).session) hview).trans ?_
    simp [Act.effect, View.push, View.set]
  refine ⟨?_, ?_, hs2⟩
  · rw [hseat]
    exact List.mem_cons_self
  · rw [hsession, hseat]
    exact hn

/-! ## Requests that leave the sessions alone -/

/-- Transitions about devices and the pending switch. -/
def Act.Minor : Act → Prop
  | .openDevice _ _ | .adjust _ _ | .closeDevice _ _ | .queueFd _ _ | .setPending _ => True
  | _ => False

/-- Nothing about clients and their VTs has changed. -/
structure View.SameSessions (v v' : View) : Prop where
  seat : v'.seat = { v.seat with pendingVtSwitch := v'.seat.pendingVtSwitch }
  client : ∀ o, (v'.client o).state = (v.client o).state
    ∧ (v'.client o).session = (v.client o).session ∧ (v'.client o).seat = (v.client o).seat

theorem View.SameSessions.refl (v : View) : v.SameSessions v := ⟨rfl, fun _ => ⟨rfl, rfl, rfl⟩⟩

theorem sameSessions_of_path {k : Kernel} {v v' : View} (hp : Act.Path k Act.Minor v v') :
    v.SameSessions v' := by
  refine Path.invariant (I := fun u => v.SameSessions u) ?_ hp (.refl v)
  rintro a u u' ha ⟨evs, -, -, -, rfl⟩ ⟨hseat, hclient⟩
  cases a with
  | openDevice c d | adjust c ds | closeDevice c i =>
      refine ⟨hseat, fun o => ?_⟩
      by_cases ho : o = c
      · subst ho
        simpa [Act.effect, View.push] using hclient o
      · simpa [Act.effect, View.push, ho] using hclient o
  | queueFd c d => exact ⟨hseat, hclient⟩
  | setPending n =>
      refine ⟨?_, hclient⟩
      show ({ u.seat with pendingVtSwitch := n } : Seat) = _
      rw [hseat]
      rfl
  | _ => cases ha

theorem View.SameSessions.sameVts {v v' : View} (h : v.SameSessions v') : v.SameVts v' :=
  ⟨by rw [h.seat], by rw [h.seat], by rw [h.seat], fun o => (h.client o).2.1⟩

/-- A request that is not about the seat itself, on a VT-bound seat. -/
theorem handleRequest_minor (k : Kernel) {s : Server} {c : ClientId} (hs : s.OnVts)
    (hlive : c ∈ s.live) {r : Request} (hr : r.StaysPut) :
    (s.view none).SameSessions ((handleRequest k s c r).2.view none)
    ∧ (handleRequest k s c r).2.inGraphics = s.inGraphics := by
  have hclosed : ∀ a : Act, a.Closes c → a.Minor := fun a ha => by cases a <;> trivial
  cases r with
  | openSeat | closeSeat | disableSeat => cases hr
  | openDevice path =>
      refine ⟨sameSessions_of_path ((handleOpenDevice_path k s hs.wf hlive path).mono fun a ha => ?_),
        (logs_handleOpenDevice (O := fun _ => False) k s c path).modes⟩
      cases a <;> first | trivial | simp [Request.Allows] at ha
  | closeDevice id =>
      exact ⟨sameSessions_of_path ((handleCloseDevice_path k s hs.wf hlive id).mono hclosed),
        (logs_handleCloseDevice (O := fun _ => False) k s c id).modes⟩
  | switchSession session =>
      have hnext := sameSessions_of_path (seatSetNextSession_vt k s none session
        (fun _ _ => trivial) hs.vtBound c)
      have hmodes : (seatSetNextSession k s c session).2.inGraphics = s.inGraphics :=
        (logs_seatSetNextSession (O := fun _ => True) k s (fun _ => trivial) c session).modes
      have hreply : ∀ {s'}, Alike (seatSetNextSession k s c session).2 s' →
          (s.view none).SameSessions (s'.view none) ∧ s'.inGraphics = s.inGraphics := fun h =>
        ⟨h.view ▸ hnext, h.modes.trans hmodes⟩
      show View.SameSessions _ ((handleSwitchSession k s c session).2.view none)
        ∧ (handleSwitchSession k s c session).2.inGraphics = _
      unfold handleSwitchSession
      dsimp only
      split_ifs
      · exact ⟨.refl _, rfl⟩
      · exact hreply (alike_clientPutMsg k _ c rfl)
      · exact hreply (alike_clientPutMsg k _ c rfl)
  | ping =>
      have hpong : Alike s (handleRequest k s c .ping).2 := alike_clientPutMsg k s c rfl
      exact ⟨hpong.view ▸ .refl _, hpong.modes⟩

/-! ## Steps that take a client off the seat -/

section

variable (k : Kernel) (s : Server) {c : ClientId}

theorem alike_flush (c : ClientId) : Alike s (s.flush k (.client c)).2 :=
  ⟨view_flush k s none _, (logs_flush (Q := Syscall.OffTty) k s _).modes⟩

theorem alike_clientFlush (c : ClientId) : Alike s (clientFlush k s c).2 :=
  ⟨view_clientFlush k s none c, (logs_clientFlush (Q := Syscall.OffTty) k s c).modes⟩

/-- A client whose request does not fail is left alone. -/
theorem clientHandleRequest_ok {r : Request} (h : ¬ r.Fails k s c) :
    Alike (handleRequest k s c r).2 (clientHandleRequest k s c r) := by
  obtain ⟨hok, hflush⟩ := not_or.mp h
  rw [← clientFlush_fails_iff] at hflush
  unfold clientHandleRequest
  dsimp only
  rw [if_pos (by simpa using hok), if_pos (by simpa using hflush)]
  exact alike_clientFlush k _ c

/-- The others are destroyed. -/
theorem clientHandleRequest_fails {r : Request} (h : r.Fails k s c) :
    ∃ s', Alike (handleRequest k s c r).2 s' ∧ clientHandleRequest k s c r = clientDestroy k s' c := by
  unfold clientHandleRequest
  dsimp only
  by_cases hok : (handleRequest k s c r).1 = true
  · have hflush : (clientFlush k (handleRequest k s c r).2 c).1 = false := by
      rw [clientFlush_fails_iff]
      exact h.resolve_left (by simp [hok])
    rw [if_pos hok, if_neg (by simp [hflush])]
    exact ⟨_, alike_clientFlush k _ c, rfl⟩
  · rw [if_neg hok]
    exact ⟨_, ⟨rfl, rfl⟩, rfl⟩

theorem clientHandleWritable_ok (h : ¬ FlushFails k s (.client c)) :
    Alike s (clientHandleWritable k s c) := by
  rw [flushFails_iff] at h
  have hflush := alike_flush k s c
  unfold clientHandleWritable
  dsimp only
  split_ifs with hok hagain
  · exact ⟨(view_setMask _ none _ _).trans hflush.view,
      funext fun n => (inGraphics_of_trace (trace_setMask _ _ _) n).trans (congrFun hflush.modes n)⟩
  · exact absurd ⟨by simpa using hok, hagain⟩ h
  · exact hflush

theorem clientHandleWritable_fails (h : FlushFails k s (.client c)) :
    ∃ s', Alike s s' ∧ clientHandleWritable k s c = clientDestroy k s' c := by
  obtain ⟨hfail, hagain⟩ := (flushFails_iff k s _).mp h
  unfold clientHandleWritable
  dsimp only
  rw [if_neg (by simp [hfail]), if_pos hagain]
  exact ⟨_, alike_flush k s c, rfl⟩

/-- Destroying a client takes it off the seat; the rest concerns its connection only. -/
theorem clientDestroy_alike {s1 : Server}
    (hs1 : s1 = if (s.clients c).seat then seatRemoveClient k s c else s) :
    (clientDestroy k s c).seat = s1.seat
    ∧ ((clientDestroy k s c).view none).client = (s1.view none).client
    ∧ (clientDestroy k s c).inGraphics = s1.inGraphics
    ∧ ((clientDestroy k s c).view none).log = (s1.view none).log := by
  unfold clientDestroy
  dsimp only
  rw [← hs1]
  set s2 : Server := { s1 with idleClients := s1.idleClients.erase c, live := s1.live.erase c } with hs2
  set closed := connectionCloseFds (s1.clients c).connection with hclosed
  have hview : ((s2.setConnection (.client c) closed.2).record
      (.fdsClosed (.client c) closed.1)).view none = s2.view none := by
    rw [view_record_quiet _ none rfl, view_setConnection]
  have hclient : (s2.view none).client = (s1.view none).client := rfl
  refine ⟨congrArg View.seat hview, (congrArg View.client hview).trans hclient, ?_,
    (congrArg View.log hview).trans rfl⟩
  have hlogs : Logs Syscall.OffTty s1 ((s2.setConnection (.client c) closed.2).record
      (.fdsClosed (.client c) closed.1)) := by
    have hclose : Logs Syscall.OffTty s1 (s2.setConnection (.client c) closed.2) :=
      (Logs.refl s1).same (trace_setConnection s2 _ _)
    refine hclose.record fun _ _ heq => ?_
    cases heq
  exact hlogs.modes

end

/-! ## Properties of the seat -/

/-- The property is about the seat, its clients, the modes of the VTs and the log. -/
def AboutSeat (I : Server → Prop) : Prop :=
  ∀ ⦃s s' : Server⦄, s'.seat = s.seat → (s'.view none).client = (s.view none).client →
    s'.inGraphics = s.inGraphics → (s'.view none).log = (s.view none).log → I s → I s'

theorem clientOwnsVt_congr {s s' : Server} (hseat : s'.seat = s.seat)
    (hclient : (s'.view none).client = (s.view none).client) (a : ClientId) (vt : Int) :
    clientOwnsVt s' a vt = clientOwnsVt s a vt := by
  rw [Bool.eq_iff_iff, clientOwnsVt_iff s' none, clientOwnsVt_iff s none]
  unfold View.Owns
  rw [hclient, show (s'.view none).seat = (s.view none).seat from hseat]

section

variable {I B : Server → Prop} {k : Kernel} {s : Server} {c : ClientId}

theorem AboutSeat.of_alike (hI : AboutSeat I) {s' : Server} (h : I s) (halike : Alike s s') : I s' :=
  hI (congrArg View.seat halike.view) (congrArg View.client halike.view) halike.modes
    (congrArg View.log halike.view) h

theorem AboutSeat.before_alike (hI : AboutSeat I) {s' : Server} (h : I s') (halike : Alike s s') :
    I s :=
  hI (congrArg View.seat halike.view).symm (congrArg View.client halike.view).symm
    halike.modes.symm (congrArg View.log halike.view).symm h

/-- Destroying a client does what removing it from the seat does. -/
theorem AboutSeat.clientDestroy (hI : AboutSeat I) (h : I s)
    (hremove : (s.clients c).seat = true → I (seatRemoveClient k s c)) : I (clientDestroy k s c) := by
  obtain ⟨hseat, hclient, hmodes, hlog⟩ := clientDestroy_alike k s (c := c) rfl
  refine hI hseat hclient hmodes hlog ?_
  split_ifs with hon
  · exact hremove hon
  · exact h

/-- A property survives the handler of a request if it survives what the handler does to the
seat. -/
theorem AboutSeat.handled (hI : AboutSeat I) (hs : s.OnVts) (hlive : c ∈ s.live) (h : I s)
    {r : Request} (hadd : I (seatAddClient k s c).2)
    (hopen : ∀ s', s'.OnVts → I s' → c ∈ s'.seat.clients →
      (s'.clients c).session = s'.seat.curVt → I (seatOpenClient k s' c).2)
    (hremove : r = .closeSeat → c ∈ s.seat.clients → I (seatRemoveClient k s c))
    (hack : r = .disableSeat → c ∈ s.seat.clients → I (seatAckDisableClient k s c).2)
    (hput : r.StaysPut → I (handleRequest k s c r).2) : I (handleRequest k s c r).2 := by
  have hmem : ¬ (s.clients c).seat = false → c ∈ s.seat.clients :=
    fun hseat => mem_of_seat s hs.wf hlive (Bool.eq_true_of_not_eq_false hseat)
  cases r with
  | openSeat =>
      have hsent := alike_clientPutMsg k (seatAddClient k s c).2 c (m := .seatOpened SEAT0) rfl
      show I (handleOpenSeat k s c).2
      unfold handleOpenSeat
      dsimp only
      split_ifs with hok hreply
      · obtain ⟨hon, hsession, hs1⟩ := session_seatAddClient k hs hlive hok
        have hseat := congrArg View.seat hsent.view
        refine hopen _ (hs1.of_view hsent.view) (hI.of_alike hadd hsent)
          (congrArg Seat.clients hseat ▸ hon) ?_
        exact (congrArg (fun v => (View.client v c).session) hsent.view).trans
          (hsession.trans (congrArg Seat.curVt hseat).symm)
      · exact hI.of_alike hadd hsent
      · exact hadd
  | closeSeat =>
      show I (handleCloseSeat k s c).2
      unfold handleCloseSeat
      split_ifs with hseat
      · exact h
      · refine hI.of_alike ?_ (alike_clientPutMsg k _ c rfl)
        exact @hI (seatRemoveClient k s c) _ rfl rfl rfl rfl (hremove rfl (hmem hseat))
  | disableSeat =>
      by_cases hseat : (s.clients c).seat = false
      · show I (handleDisableSeat k s c).2
        unfold handleDisableSeat
        rw [if_pos hseat]
        exact h
      · exact hI.of_alike (hack rfl (hmem hseat))
          (alike_handleDisableSeat k (Bool.eq_true_of_not_eq_false hseat))
  | openDevice path | closeDevice id | switchSession session | ping => exact hput trivial

/-- A property survives a request if it survives the handler and, in states without `B`, the removal
of the client. -/
theorem AboutSeat.clientHandleRequest (hI : AboutSeat I) (hB : AboutSeat B) (hs : s.OnVts)
    (hlive : c ∈ s.live) {r : Request} (hhandled : I (handleRequest k s c r).2)
    (hremove : ∀ {s'}, s'.OnVts → I s' → c ∈ s'.seat.clients → ¬ B s' → I (seatRemoveClient k s' c))
    (hsafe : r ≠ .closeSeat → r.Fails k s c → ¬ B (handleRequest k s c r).2) :
    I (clientHandleRequest k s c r) := by
  by_cases hfails : r.Fails k s c
  · obtain ⟨s', halike, heq⟩ := clientHandleRequest_fails k s hfails
    have hs' : s'.OnVts := (onVts_handleRequest hs hlive r).of_view halike.view
    have hlive' := live_of_handleRequest k s hs.wf hlive r halike.view
    have h' : I s' := hI.of_alike hhandled halike
    rw [heq]
    refine hI.clientDestroy h' fun hon => ?_
    refine hremove hs' h' (mem_of_seat s' hs'.wf hlive' hon) fun hbad => ?_
    by_cases hr : r = .closeSeat
    · -- the handler has taken the client off the seat already
      subst hr
      have hoff : (s'.clients c).seat = false :=
        (congrArg (fun v => (View.client v c).seat) halike.view).trans
          (seat_handleCloseSeat k hs.wf hlive)
      rw [hoff] at hon
      cases hon
    · exact hsafe hr hfails (hB.before_alike hbad halike)
  · exact hI.of_alike hhandled (clientHandleRequest_ok k s hfails)

theorem AboutSeat.clientHandleWritable (hI : AboutSeat I) (hB : AboutSeat B) (hs : s.OnVts)
    (h : I s) (hlive : c ∈ s.live)
    (hremove : ∀ {s'}, s'.OnVts → I s' → c ∈ s'.seat.clients → ¬ B s' → I (seatRemoveClient k s' c))
    (hsafe : FlushFails k s (.client c) → ¬ B s) : I (clientHandleWritable k s c) := by
  by_cases hfails : FlushFails k s (.client c)
  · obtain ⟨s', halike, heq⟩ := clientHandleWritable_fails k s hfails
    have hs' : s'.OnVts := hs.of_view halike.view
    have hlive' : c ∈ s'.live := by
      rw [show s'.live = s.live from congrArg View.live halike.view]
      exact hlive
    have h' : I s' := hI.of_alike h halike
    rw [heq]
    refine hI.clientDestroy h' fun hon => ?_
    exact hremove hs' h' (mem_of_seat s' hs'.wf hlive' hon) fun hbad =>
      hsafe hfails (hB.before_alike hbad halike)
  · exact hI.of_alike h (clientHandleWritable_ok k s hfails)

theorem AboutSeat.controlClientDestroy (hI : AboutSeat I) (h : I s) (i : ControlId) :
    I (controlClientDestroy s i) :=
  hI.of_alike h ⟨view_controlClientDestroy _ none i,
    (logs_controlClientDestroy (Q := Syscall.OffTty) _ i).modes⟩

theorem AboutSeat.controlHandleRequest (hI : AboutSeat I) {i : ControlId} {r : ControlRequest}
    (hhandled : I (handleControlRequest k s i r).2) : I (controlHandleRequest k s i r) := by
  unfold DdeSeatd.controlHandleRequest
  dsimp only
  split_ifs
  · exact hhandled
  · exact hI.controlClientDestroy hhandled i

theorem AboutSeat.controlSendMessage (hI : AboutSeat I) (h : I s) (i : ControlId) (m : ControlMsg) :
    I (controlSendMessage k s i m).2 :=
  hI.of_alike h ⟨view_controlSendMessage k _ none i m,
    (logs_controlSendMessage (Q := Syscall.OffTty) k _ i m).modes⟩

theorem AboutSeat.controlReplyVt (hI : AboutSeat I) {r : Int × Server} (h : I r.2) (i : ControlId)
    (m : Int → ControlMsg) : I (controlReplyVt k i m r).2 :=
  hI.of_alike h ⟨view_controlReplyVt k i m r, (logs_controlReplyVt (Q := Syscall.OffTty) k i m r).modes⟩

/-- A property survives a control request if it survives what is done to the seat. -/
theorem AboutSeat.handleControlRequest (hI : AboutSeat I) (h : I s) (i : ControlId)
    {r : ControlRequest}
    (hcreate : ∀ pid vt owner, r = .createGroupVt pid vt → I (seatCreateGroupVt k s owner vt).2)
    (hdestroy : ∀ vt, r = .destroyGroupVt vt → I (seatDestroyGroupVt k s vt).2)
    (hget : r = .getActiveVt → I (seatGetActiveVt k s).2)
    (hswitch : ∀ vt, r = .switchVt vt → I (seatSwitchVt k s vt).2) :
    I (handleControlRequest k s i r).2 := by
  cases r with
  | createGroupVt pid vt =>
      show I (handleCreateGroupVt k s i pid vt).2
      unfold handleCreateGroupVt
      cases controlFindOwnerClient s pid with
      | none => exact hI.controlSendMessage h i _
      | some owner =>
          dsimp only
          split_ifs
          · exact hI.controlSendMessage h i _
          · exact hI.controlReplyVt (hcreate pid vt owner rfl) i _
  | destroyGroupVt vt =>
      show I (handleDestroyGroupVt k s i vt).2
      unfold handleDestroyGroupVt
      dsimp only
      split_ifs
      · exact hdestroy vt rfl
      · exact hI.controlSendMessage (hdestroy vt rfl) i _
  | getActiveVt => exact hI.controlReplyVt (hget rfl) i _
  | findFreeVt =>
      refine hI.controlReplyVt (hI.of_alike h ⟨?_, (calls_seatFindAvailableVt k s).logs.modes⟩) i _
      unfold seatFindAvailableVt
      split_ifs <;> simp
  | switchVt vt => exact hI.controlSendMessage (hswitch vt rfl) i _
  | invalid => exact hI.controlSendMessage h i _

theorem AboutSeat.controlAddClient (hI : AboutSeat I) (h : I s) (pid : Int) :
    I (controlAddClient k s pid) :=
  hI.of_alike h ⟨view_controlAddClient k s pid,
    (logs_controlAddClient (Q := Syscall.OffTty) k s (fun _ => id) pid).modes⟩

theorem AboutSeat.controlHandleWritable (hI : AboutSeat I) (h : I s) (i : ControlId) :
    I (controlHandleWritable k s i) :=
  hI.of_alike h ⟨view_controlHandleWritable k s i,
    (logs_controlHandleWritable (Q := Syscall.OffTty) k s i).modes⟩

end

end DdeSeatd
