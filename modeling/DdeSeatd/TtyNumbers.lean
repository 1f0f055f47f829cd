import DdeSeatd.Logs

set_option autoImplicit false

/-! # Which ttys the daemon opens

`terminal_open` aborts the daemon if it is asked for a negative tty. The numbers it is given are
VT 0, the current VT, sessions of clients and group VTs. On a seat that knows its VTs
(`View.VtsKnown`) the latter two are positive, and so is the current VT while a client is on the
seat. It is -1 before the first client has joined, and two functions do not mind: when a VT
signal arrives, `seat_vt_activate` and `seat_vt_release` refresh the current VT, ignore it when
that fails, and acknowledge on the tty of whatever number they have. This is the only way to ask
for a negative tty (`negative_tty_iff`).
-/

namespace DdeSeatd

open Labelled

/-! ## Seats that know their VTs -/

/-- The VT numbers of a seat: the current VT is positive once it is known, and it is known while a
client is on a VT-bound seat; sessions that are set and group VTs are positive. -/
structure View.VtsKnown (v : View) : Prop where
  curVt : v.seat.curVt = -1 ∨ 1 ≤ v.seat.curVt
  current : v.seat.vtBound = true → ∀ c ∈ v.seat.clients, 1 ≤ v.seat.curVt
  sessions : ∀ c, (v.client c).session = -1 ∨ 1 ≤ (v.client c).session
  groups : ∀ g ∈ v.seat.groupVts, 1 ≤ g.vt

/-- The transition brings in no VT number that is not positive. -/
def Act.KnownVts : Act → Prop
  | .addGroup g => 1 ≤ g.vt
  | .vtEvent n => 1 ≤ n
  | _ => True

theorem View.VtsKnown.trans {k : Kernel} {a : Act} {v v' : View} (h : v.VtsKnown)
    (ht : a.Trans k v v') (ha : a.KnownVts) : v'.VtsKnown := by
  obtain ⟨evs, hg, -, -, rfl⟩ := ht
  have hset : ∀ {c : ClientId} {cl : ClientView}, cl.session = (v.client c).session →
      ∀ o, ((v.set c cl).client o).session = -1 ∨ 1 ≤ ((v.set c cl).client o).session := by
    intro c cl hcl o
    rw [View.client_set]
    split_ifs
    · rw [hcl]
      exact h.sessions c
    · exact h.sessions o
  cases a with
  | create =>
      refine ⟨h.curVt, h.current, fun o => ?_, h.groups⟩
      by_cases ho : o = v.nextId
      · exact Or.inl (by simp [Act.effect, View.push, ho])
      · simpa [Act.effect, View.push, ho] using h.sessions o
  | join c n =>
      obtain ⟨-, -, -, hne, hn⟩ := hg
      have hpos : 1 ≤ n := by
        split_ifs at hn
        · rcases h.curVt with hcur | hcur
          · exact absurd (hn.trans hcur) hne
          · exact hn ▸ hcur
        · exact hn.1
      refine ⟨h.curVt, fun hb _ _ => ?_, fun o => ?_, h.groups⟩
      · rw [if_pos (show v.seat.vtBound = true from hb)] at hn
        show 1 ≤ v.seat.curVt
        exact hn ▸ hpos
      · by_cases ho : o = c
        · exact Or.inr (by simpa [Act.effect, View.push, View.set, ho] using hpos)
        · simpa [Act.effect, View.push, View.set, ho] using h.sessions o
  | opened c | openFailed c ds | disabled c ds next | acked c | retire c | dropDrm c ds
  | restoreDrm c st | openDevice c d | adjust c ds | closeDevice c i =>
      exact ⟨h.curVt, h.current, hset rfl, h.groups⟩
  | detach c =>
      exact ⟨h.curVt, fun hb o ho => h.current hb o (List.mem_of_mem_erase ho), h.sessions, h.groups⟩
  | addGroup g =>
      refine ⟨h.curVt, h.current, h.sessions, fun g' hg' => ?_⟩
      rcases List.mem_cons.mp hg' with rfl | hg'
      · exact ha
      · exact h.groups g' hg'
  | destroyGroup g | removeGroup g =>
      exact ⟨h.curVt, h.current, h.sessions, fun g' hg' => h.groups g' (List.mem_of_mem_erase hg')⟩
  | setVt n =>
      have hpos : 1 ≤ n := hg.1
      exact ⟨Or.inr hpos, fun _ _ _ => hpos, h.sessions, h.groups⟩
  | vtEvent n => exact ⟨Or.inr ha, fun _ _ _ => ha, h.sessions, h.groups⟩
  | _ => exact ⟨h.curVt, h.current, h.sessions, h.groups⟩

theorem View.VtsKnown.path {k : Kernel} {P : Act → Prop} {v v' : View} (h : v.VtsKnown)
    (hP : ∀ a, P a → a.KnownVts) (hp : Act.Path k P v v') : v'.VtsKnown :=
  Path.invariant (fun a _ _ ha ht hv => hv.trans ht (hP a ha)) hp h

/-! ## Removing and activating clients -/

/-- Opens and configures only ttys that are not negative. -/
def Syscall.TtyKnown : Syscall → Prop := Syscall.OnTty (0 ≤ ·) (0 ≤ ·)

section

variable (k : Kernel) (s : Server) {x : Option ClientId} {c : ClientId}

theorem vtForClientOpen_nonneg (h : 1 ≤ (s.clients c).session) :
    0 ≤ vtForClientOpen s c := by
  unfold vtForClientOpen
  split_ifs with hcur
  · exact hcur.1.le
  · omega

theorem session_pos (hwf : (s.view x).WF) (h : (s.view x).VtsKnown)
    (hc : c ∈ s.seat.clients) : 1 ≤ (s.clients c).session :=
  (h.sessions c).resolve_left (hwf.onSeat c hc).2.2

theorem logs_seatActivate_known (h : ∀ c ∈ s.seat.clients, 1 ≤ (s.clients c).session)
    (hnext : ∀ n, s.seat.nextClient = some n → n ∈ s.seat.clients) :
    Logs Syscall.TtyKnown s (seatActivate k s).2 :=
  have hpos : ∀ c, seatActivateTarget s = some c → 0 ≤ vtForClientOpen s c := fun c htarget =>
    vtForClientOpen_nonneg s (h c ((mem_of_seatActivateTarget s htarget).elim id (hnext c)))
  logs_seatActivate k s hpos hpos

theorem logs_seatRemoveClient (hwf : (s.view none).WF) (h : (s.view none).VtsKnown)
    (hc : c ∈ s.seat.clients) : Logs Syscall.TtyKnown s (seatRemoveClient k s c) := by
  have hgroups : ∀ g ∈ s.seat.groupVts, g.owner = c → 0 ≤ g.vt := fun g hg _ => by
    have := h.groups g hg
    omega
  have hstrip : Logs Syscall.TtyKnown s (seatStripClient k s c) :=
    logs_seatStripClient k s hgroups hgroups
  obtain ⟨hpath, -, -, -⟩ := seatStripClient_path k s hc
  set s1 := seatStripClient k s c with hs1
  have hwf1 : (s1.view (some c)).WF := hwf.path hpath
  have hknown1 : (s1.view (some c)).VtsKnown := h.path (fun a ha => by cases a <;> trivial) hpath
  set wasCurrent : Bool := decide (s1.seat.activeClient = some c) with hwas
  set s2 := if wasCurrent = true then
      (seatActivate k (s1.setSeat { s1.seat with activeClient := none })).2
    else s1 with hs2
  have hactivate : Logs Syscall.TtyKnown s s2 ∧ (s2.clients c).session = (s1.clients c).session := by
    rw [hs2]
    split_ifs
    · have hvacant : Logs Syscall.TtyKnown s (s1.setSeat { s1.seat with activeClient := none }) :=
        hstrip.same rfl
      refine ⟨hvacant.trans (logs_seatActivate_known k _
        (fun o ho => session_pos s1 hwf1 hknown1 ho) fun n hn => (hwf1.next n hn).1), ?_⟩
      have hopens := seatActivate_path k (s1.setSeat { s1.seat with activeClient := none })
        (some c) rfl (fun n hn => (hwf1.next n hn).1) hwf1.nextVt
      exact session_of_opens hopens c
    · exact ⟨hstrip, rfl⟩
  have hsession : 0 ≤ (s2.clients c).session := by
    rw [hactivate.2]
    have : 1 ≤ (s1.clients c).session :=
      (hknown1.sessions c).resolve_left (hwf1.leavingSession c rfl)
    omega
  exact (hactivate.1.calls ((calls_seatCleanVt k s2 c wasCurrent).oneTty hsession hsession)).same rfl

theorem logs_clientDestroy (hwf : (s.view none).WF) (h : (s.view none).VtsKnown)
    (hlive : c ∈ s.live) : Logs Syscall.TtyKnown s (clientDestroy k s c) := by
  cases hseat : (s.clients c).seat with
  | false => exact logs_clientDestroy_idle k s hseat
  | true =>
      have hremove := logs_seatRemoveClient k s hwf h (mem_of_seat s hwf hlive hseat)
      unfold clientDestroy
      rw [hseat]
      refine Logs.record (hremove.same ?_) fun _ _ heq => ?_
      · rw [trace_setConnection]
        rfl
      · cases heq

/-! ## Requests -/

theorem logs_handleOpenSeat (hwf : (s.view none).WF) (h : (s.view none).VtsKnown)
    (hlive : c ∈ s.live) : Logs Syscall.TtyKnown s (handleOpenSeat k s c).2 := by
  have hadd : Logs Syscall.TtyKnown s (seatAddClient k s c).2 :=
    ((calls_seatAddClient k s c).onTty (fun vt (h0 : vt = 0) => h0.ge) fun _ => False.elim).logs
  have hput := hadd.trans (logs_clientPutMsg k (seatAddClient k s c).2 c (.seatOpened SEAT0))
  have hview := view_clientPutMsg k (seatAddClient k s c).2 none c (m := .seatOpened SEAT0) rfl
  unfold handleOpenSeat
  dsimp only
  set s2 := (clientPutMsg k (seatAddClient k s c).2 c (.seatOpened SEAT0)).2 with hs2
  split_ifs with hok hsent
  · -- the client has joined, so its session is set
    rcases seatAddClient_cases k s hwf hlive with ⟨hfail, -⟩ | ⟨-, s1, n, hpath, hjoin, -⟩
    · rw [hok] at hfail
      cases hfail
    have hwf2 : (s2.view none).WF := hview ▸ (hwf.path hpath).trans hjoin
    have hknown2 : (s2.view none).VtsKnown := by
      rw [hview]
      refine (h.path (fun a ha => ?_) hpath).trans hjoin trivial
      rw [ha]
      trivial
    have hc : c ∈ s2.seat.clients := by
      obtain ⟨evs, -, -, -, heq⟩ := hjoin
      have hseat : s2.seat = { s1.seat with clients := c :: s1.seat.clients } :=
        congrArg View.seat (hview.trans heq)
      rw [hseat]
      exact List.mem_cons_self
    have hpos := vtForClientOpen_nonneg s2 (session_pos s2 hwf2 hknown2 hc)
    exact hput.trans (logs_seatOpenClient k s2 hpos hpos)
  · exact hput
  · exact hadd

theorem logs_handleCloseSeat (hwf : (s.view none).WF) (h : (s.view none).VtsKnown)
    (hlive : c ∈ s.live) : Logs Syscall.TtyKnown s (handleCloseSeat k s c).2 := by
  unfold handleCloseSeat
  split_ifs with hseat
  · exact Logs.refl s
  · have hremove := logs_seatRemoveClient k s hwf h (mem_of_seat s hwf hlive (by simpa using hseat))
    exact (hremove.same rfl).trans (logs_clientPutMsg k _ c .seatClosed)

theorem logs_handleSwitchSession (hwf : (s.view none).WF) (h : (s.view none).VtsKnown)
    (hlive : c ∈ s.live) (session : Int) :
    Logs Syscall.TtyKnown s (handleSwitchSession k s c session).2 := by
  unfold handleSwitchSession
  dsimp only
  by_cases hseat : (s.clients c).seat = false
  · rw [if_pos hseat]
    exact Logs.refl s
  rw [if_neg hseat]
  have hc := mem_of_seat s hwf hlive (by simpa using hseat)
  have hnext : Logs Syscall.TtyKnown s (seatSetNextSession k s c session).2 :=
    logs_seatSetNextSession k s (fun hb => by
      have : 1 ≤ s.seat.curVt := h.current hb c hc
      omega) c session
  split_ifs
  · exact hnext.trans (logs_clientPutMsg k _ c _)
  · exact hnext.trans (logs_clientPutMsg k _ c _)

theorem logs_handleDisableSeat (hwf : (s.view none).WF)
    (h : (s.view none).VtsKnown) : Logs Syscall.TtyKnown s (handleDisableSeat k s c).2 := by
  have hack : Logs Syscall.TtyKnown s (seatAckDisableClient k s c).2 := by
    unfold seatAckDisableClient
    dsimp only
    split_ifs
    · exact (Logs.refl s).same rfl
    · exact (Logs.refl s).same rfl
    · set s1 := (s.setState c .disabled).setSeat
        { (s.setState c .disabled).seat with activeClient := none } with hs1
      have hvacant : Logs Syscall.TtyKnown s s1 := (Logs.refl s).same rfl
      refine hvacant.trans (logs_seatActivate_known k s1 (fun o ho => ?_) fun n hn =>
        (hwf.next n hn).1)
      have hsession : (s1.clients o).session = (s.clients o).session := by
        by_cases hoc : o = c <;>
          simp [hs1, Server.setSeat, Server.setState, Server.setClient, hoc]
      rw [hsession]
      exact session_pos s hwf h ho
  unfold handleDisableSeat
  dsimp only
  split_ifs
  · exact Logs.refl s
  · exact hack.trans (logs_clientPutMsg k _ c _)
  · exact hack.trans (logs_clientPutMsg k _ c _)

theorem logs_handleRequest (hwf : (s.view none).WF) (h : (s.view none).VtsKnown)
    (hlive : c ∈ s.live) (r : Request) : Logs Syscall.TtyKnown s (handleRequest k s c r).2 := by
  cases r with
  | openSeat => exact logs_handleOpenSeat k s hwf h hlive
  | closeSeat => exact logs_handleCloseSeat k s hwf h hlive
  | openDevice path => exact logs_handleOpenDevice k s c path
  | closeDevice id => exact logs_handleCloseDevice k s c id
  | switchSession session => exact logs_handleSwitchSession k s hwf h hlive session
  | disableSeat => exact logs_handleDisableSeat k s hwf h
  | ping => exact logs_clientPutMsg k s c .pong

/-- The transitions of a request bring in no VT numbers. -/
theorem Request.Allows.knownVts {r : Request} {a : Act} (h : r.Allows k s c a) :
    a.KnownVts := by
  cases a <;> trivial

theorem logs_clientHandleRequest (hwf : (s.view none).WF) (h : (s.view none).VtsKnown)
    (hlive : c ∈ s.live) (r : Request) :
    Logs Syscall.TtyKnown s (clientHandleRequest k s c r) := by
  have hhandler := logs_handleRequest k s hwf h hlive r
  have hpath := handleRequest_path k s hwf hlive r
  have hflush := hhandler.trans (logs_clientFlush k (handleRequest k s c r).2 c)
  have hview := view_clientFlush k (handleRequest k s c r).2 none c
  have hdestroy : ∀ s', s'.view none = (handleRequest k s c r).2.view none →
      Logs Syscall.TtyKnown s' (clientDestroy k s' c) := fun s' hs' =>
    logs_clientDestroy k s' (hs' ▸ hwf.path hpath)
      (hs' ▸ h.path (fun _ ha => Request.Allows.knownVts k s ha) hpath)
      (live_of_handleRequest k s hwf hlive r hs')
  unfold clientHandleRequest
  dsimp only
  split_ifs
  · exact hflush
  · exact hflush.trans (hdestroy _ hview)
  · exact hhandler.trans (hdestroy _ rfl)

theorem logs_clientHandleWritable (hwf : (s.view none).WF) (h : (s.view none).VtsKnown)
    (hlive : c ∈ s.live) :
    Logs Syscall.TtyKnown s (clientHandleWritable k s c) := by
  have hflush := logs_flush (Q := Syscall.TtyKnown) k s (.client c)
  have hview := view_flush k s none (.client c)
  unfold clientHandleWritable
  dsimp only
  split_ifs
  · exact hflush.same (trace_setMask _ _ _)
  · refine hflush.trans (logs_clientDestroy k _ (hview ▸ hwf) (hview ▸ h) ?_)
    rw [show (s.flush k (.client c)).2.live = s.live from congrArg View.live hview]
    exact hlive
  · exact hflush

/-! ## VT signals and events -/

theorem curVt_of_seatUpdateVt (h : (seatUpdateVt k s).1 = true) :
    0 < (seatUpdateVt k s).2.seat.curVt := by
  unfold seatUpdateVt at h ⊢
  dsimp only at h ⊢
  split_ifs at h ⊢ with hopen hvt
  exact not_le.mp hvt

/-- A VT signal arrives at a VT-bound seat that does not know its VT, and the kernel does not tell:
`/dev/tty0` cannot be opened, or VT_GETSTATE fails. -/
def Step.AcksUnknownVt (k : Kernel) (s : Server) (st : Step) : Prop :=
  (st = .vtRelease ∨ st = .vtAcquire) ∧ s.seat.vtBound = true ∧ s.seat.curVt = -1
    ∧ (k.ret s.trace (.terminalOpen 0) < 0
      ∨ k.ret (.sys (.terminalOpen 0) (k.ret s.trace (.terminalOpen 0)) :: s.trace) .vtGetState ≤ 0)

theorem logs_seatHandleVtEvent (hwf : (s.view none).WF) (h : (s.view none).VtsKnown)
    (oldVt newVt : Int) : Logs Syscall.TtyKnown s (seatHandleVtEvent k s oldVt newVt) := by
  unfold seatHandleVtEvent
  dsimp only
  set s1 := s.setSeat { s.seat with
    pendingVtSwitch := if 0 < s.seat.pendingVtSwitch then 0 else s.seat.pendingVtSwitch,
    curVt := newVt } with hs1
  have hset : Logs Syscall.TtyKnown s s1 := (Logs.refl s).same rfl
  set s2 := if s1.seat.clients = [] then s1 else controlBroadcastVtChange k s1 oldVt newVt with hs2
  have hcast : Logs Syscall.TtyKnown s s2 := by
    rw [hs2]
    split_ifs
    · exact hset
    · exact hset.trans (logs_controlBroadcastVtChange k s1 oldVt newVt)
  have hview : s2.view none = s1.view none := by
    rw [hs2]
    split_ifs
    · rfl
    · exact view_controlBroadcastVtChange k s1 none oldVt newVt
  cases s2.seat.activeClient with
  | none =>
      have hseat : s2.seat = s1.seat := congrArg View.seat hview
      refine hcast.trans (logs_seatActivate_known k s2 (fun o ho => ?_) fun n hn => ?_)
      · rw [hseat] at ho
        rw [show (s2.clients o).session = (s.clients o).session from
          congrArg (fun v => (View.client v o).session) hview]
        exact session_pos s hwf h ho
      · rw [hseat] at hn ⊢
        exact (hwf.next n hn).1
  | some a =>
      dsimp only
      split_ifs
      · exact hcast.calls (calls_seatRestoreClientDrmMaster k s2 a).offTty
      · exact hcast.trans (logs_seatDisableClient k s2 a)
      · exact hcast

/-! ## Control requests -/

/-- The VT chosen for a group VT is positive, or there is none. -/
theorem groupVtChoice_pos (requestedVt : Int) :
    (groupVtChoice k s requestedVt).1 = -1 ∨ 1 ≤ (groupVtChoice k s requestedVt).1 := by
  have hfind : ∀ s' : Server, (terminalFindAvailable k s').1 = -1
      ∨ 1 ≤ (terminalFindAvailable k s').1 := by
    intro s'
    unfold terminalFindAvailable
    cases k.platform with
    | linux hidraw =>
        dsimp only
        split_ifs
        · exact Or.inl rfl
        · exact Or.inl rfl
        · exact Or.inr (by omega)
    | _ => exact Or.inl rfl
  unfold groupVtChoice
  split_ifs
  · unfold findAvailableVt
    dsimp only
    split_ifs
    · exact hfind _
    · exact Or.inl rfl
  · exact Or.inr (by dsimp only; omega)

theorem logs_handleControlRequest (h : (s.view none).VtsKnown) (i : ControlId) (r : ControlRequest) :
    Logs Syscall.TtyKnown s (handleControlRequest k s i r).2 := by
  have hzero : ∀ vt : Int, vt = 0 → 0 ≤ vt := fun vt heq => heq.ge
  have hreply : ∀ (r : Int × Server) (m : Int → ControlMsg), Logs Syscall.TtyKnown s r.2 →
      Logs Syscall.TtyKnown s (controlReplyVt k i m r).2 := fun r m hr =>
    hr.trans (logs_controlReplyVt k i m r)
  cases r with
  | createGroupVt pid vt =>
      show Logs _ s (handleCreateGroupVt k s i pid vt).2
      unfold handleCreateGroupVt
      cases controlFindOwnerClient s pid with
      | none => exact logs_controlSendMessage k s i _
      | some owner =>
          dsimp only
          split_ifs
          · exact logs_controlSendMessage k s i _
          · have hpos : ∀ n : Int, n = (groupVtChoice k s vt).1 ∧ n ≠ -1 → 0 ≤ n := by
              rintro n ⟨rfl, hne⟩
              have := (groupVtChoice_pos k s vt).resolve_left hne
              omega
            refine hreply _ _ ((calls_seatCreateGroupVt k s owner vt).onTty ?_ hpos).logs
            rintro n (rfl | hn)
            · exact le_rfl
            · exact hpos n hn
  | destroyGroupVt vt =>
      show Logs _ s (handleDestroyGroupVt k s i vt).2
      have hdestroy : Logs Syscall.TtyKnown s (seatDestroyGroupVt k s vt).2 := by
        cases hfind : seatFindGroupVt s.seat vt with
        | none =>
            rw [seatDestroyGroupVt, hfind]
            exact (Logs.refl s).same rfl
        | some g =>
            have hvt : g.vt = vt := by simpa using List.find?_some hfind
            have hpos := h.groups g (List.mem_of_find?_eq_some hfind)
            exact ((calls_seatDestroyGroupVt k s vt).oneTty (O := (0 ≤ ·)) (M := (0 ≤ ·)) (by omega)
              (by omega)).logs
      unfold handleDestroyGroupVt
      dsimp only
      split_ifs
      · exact hdestroy
      · exact hdestroy.trans (logs_controlSendMessage k _ i _)
  | getActiveVt => exact hreply _ _ ((calls_seatGetActiveVt k s).onTty hzero fun _ => False.elim).logs
  | findFreeVt =>
      exact hreply _ _ ((calls_seatFindAvailableVt k s).onTty hzero fun _ => False.elim).logs
  | switchVt vt =>
      have hopens : ∀ n : Int, n = 0 ∨ (seatUpdateVt k s).1 = true
          ∧ n = (seatUpdateVt k s).2.seat.curVt → 0 ≤ n := by
        rintro n (rfl | ⟨hok, rfl⟩)
        · exact le_rfl
        · exact (curVt_of_seatUpdateVt k s hok).le
      exact ((calls_seatSwitchVt k s vt).onTty hopens fun _ => False.elim).logs.trans
        (logs_controlSendMessage k _ i _)
  | invalid => exact logs_controlSendMessage k s i _

/-! ## Steps -/

/-- **A step opens no negative tty**, unless it acknowledges a VT signal without knowing the VT. -/
theorem logs_step (hwf : (s.view none).WF) (h : (s.view none).VtsKnown) {st : Step}
    (hst : ¬ st.AcksUnknownVt k s) : Logs Syscall.TtyKnown s (step k s st) := by
  unfold step
  split_ifs with hgone
  · exact Logs.refl s
  have hlive := (here_of_made hgone).1
  -- the VT of an acknowledgement
  have hcur : st = .vtRelease ∨ st = .vtAcquire → s.seat.vtBound = true →
      0 ≤ (seatUpdateVt k s).2.seat.curVt := by
    intro hsignal hb
    rw [curVt_seatUpdateVt, Server.vtShown]
    split_ifs with hfail
    · rcases h.curVt with hunknown | hknown
      · exact absurd ⟨hsignal, hb, hunknown, hfail⟩ hst
      · have : 1 ≤ s.seat.curVt := hknown
        omega
    · omega
  cases st with
  | connect pid => exact logs_serverAddClient k s (fun _ => Syscall.OffTty.onTty) pid
  | request c r => exact logs_clientHandleRequest k s hwf h (hlive c rfl) r
  | writable c => exact logs_clientHandleWritable k s hwf h (hlive c rfl)
  | disconnect c => exact logs_clientDestroy k s hwf h (hlive c rfl)
  | vtRelease => exact logs_seatVtRelease k s le_rfl (hcur (Or.inl rfl))
  | vtAcquire => exact logs_seatVtActivate k s le_rfl (hcur (Or.inr rfl))
  | vtEvent oldVt newVt => exact logs_seatHandleVtEvent k s hwf h oldVt newVt
  | controlConnect pid => exact logs_controlAddClient k s (fun _ => Syscall.OffTty.onTty) pid
  | control i r =>
      have hrequest := logs_handleControlRequest k s h i r
      show Logs _ s (controlHandleRequest k s i r)
      unfold controlHandleRequest
      dsimp only
      split_ifs
      · exact hrequest
      · exact hrequest.trans (logs_controlClientDestroy _ i)
  | controlWritable i => exact logs_controlHandleWritable k s i
  | controlDisconnect i => exact logs_controlClientDestroy s i

/-- The other steps ask for tty -1. -/
theorem opens_negative (hwf : (s.view none).WF) (h : (s.view none).VtsKnown) {st : Step}
    (hst : st.AcksUnknownVt k s) : ∃ r, .sys (.terminalOpen (-1)) r ∈ (step k s st).trace := by
  obtain ⟨hsignal, hb, hcur, hfail⟩ := hst
  have hupdate : (seatUpdateVt k s).2.seat.curVt = -1 := by
    rw [curVt_seatUpdateVt, Server.vtShown, if_pos hfail, hcur]
  have hack : ∀ (s' : Server) (release : Bool), s'.seat.curVt = -1 →
      ∃ r, .sys (.terminalOpen (-1)) r ∈ (vtAck k s' release).2.trace := by
    intro s' release hs'
    refine ⟨k.ret s'.trace (.terminalOpen (-1)), ?_⟩
    have hopen : (terminalOpen k s' (-1)).2.trace
        = .sys (.terminalOpen (-1)) (k.ret s'.trace (.terminalOpen (-1))) :: s'.trace :=
      trace_sys k s' _
    unfold vtAck
    rw [hs']
    dsimp only
    split_ifs
    · rw [show (terminalAckRelease k (terminalOpen k s' (-1)).2 (-1)).2.trace = _ from trace_sys k _ _]
      simp [hopen]
    · rw [show (terminalAckAcquire k (terminalOpen k s' (-1)).2 (-1)).2.trace = _ from trace_sys k _ _]
      simp [hopen]
    · simp [hopen]
  rcases hsignal with rfl | rfl
  · -- nobody is on a seat without a VT, so nothing else happens
    have hnobody : (seatUpdateVt k s).2.seat.activeClient = none := by
      have hsame : (seatUpdateVt k s).2.seat.activeClient = s.seat.activeClient := by
        rcases view_seatUpdateVt k s none with hv | ⟨n, -, -, hv⟩ <;>
          exact congrArg (fun v => (View.seat v).activeClient) hv
      rw [hsame]
      by_contra hactive
      obtain ⟨a, ha⟩ := Option.ne_none_iff_exists'.mp hactive
      rcases (hwf.active a ha).1 with hmem | hleaving
      · have : 1 ≤ s.seat.curVt := h.current hb a hmem
        omega
      · cases hleaving
    have hstep : step k s .vtRelease = (vtAck k (seatUpdateVt k s).2 true).2 := by
      rw [step, if_neg (by simp [Step.client, Step.controlClient])]
      show (seatVtRelease k s).2 = _
      rw [seatVtRelease, if_neg (by simp [hb])]
      dsimp only
      rw [hnobody]
    rw [hstep]
    exact hack _ true hupdate
  · have hstep : step k s .vtAcquire = (vtAck k (seatUpdateVt k s).2 false).2 := by
      rw [step, if_neg (by simp [Step.client, Step.controlClient])]
      show (seatVtActivate k s).2 = _
      rw [seatVtActivate, if_neg (by simp [hb])]
    rw [hstep]
    exact hack _ false hupdate

end

/-! ## Runs -/

/-- No negative tty was asked for. -/
def Server.TtysKnown (s : Server) : Prop :=
  ∀ vt r, .sys (.terminalOpen vt) r ∈ s.trace → 0 ≤ vt

theorem Logs.ttysKnown {s s' : Server} (h : Logs Syscall.TtyKnown s s') (hs : s.TtysKnown) :
    s'.TtysKnown := by
  obtain ⟨evs, htrace, hevs⟩ := h
  intro vt r hmem
  rw [htrace] at hmem
  rcases List.mem_append.mp hmem with hmem | hmem
  · exact hevs _ r hmem
  · exact hs vt r hmem

/-- The step reports no VT that does not exist. -/
def Step.ReportsVt : Step → Prop
  | .vtEvent _ newVt => 1 ≤ newVt
  | _ => True

theorem Step.Allows.group_pos {k : Kernel} {s : Server} {st : Step} {g : GroupVt}
    (h : st.Allows k s (.addGroup g)) : 1 ≤ g.vt := by
  obtain ⟨i, pid, vt, -, -, hok, hvt⟩ := h.cause
  rcases groupVtChoice_pos k s vt with hnone | hpos
  · exact absurd (seatCreateGroupVt_fails k s g.owner hnone) hok
  · exact le_of_le_of_eq hpos hvt.symm

/-- The transitions of a step bring in only positive VT numbers. -/
theorem Step.Allows.knownVts {k : Kernel} {s : Server} {st : Step} {a : Act}
    (h : st.Allows k s a) (hst : st.ReportsVt) : a.KnownVts := by
  cases a with
  | addGroup g => exact h.group_pos
  | vtEvent n =>
      obtain ⟨oldVt, rfl⟩ := h.cause
      exact hst
  | _ => trivial

theorem vtsKnown_step {k : Kernel} {s : Server} (hwf : (s.view none).WF)
    (h : (s.view none).VtsKnown) {st : Step} (hst : st.ReportsVt) :
    ((step k s st).view none).VtsKnown :=
  h.path (fun _ ha => ha.knownVts hst) (step_path k s hwf st)

/-- **The daemon asks for a negative tty exactly if a VT signal arrives while the current VT is
not known and cannot be found out**, in all runs in which VT events report positive numbers. -/
theorem negative_tty_iff (k : Kernel) (vtBound : Bool) (steps : List Step)
    (hsteps : ∀ st ∈ steps, st.ReportsVt) :
    (∀ pre, pre <+: steps → (run k vtBound pre).TtysKnown)
      ↔ Run.Meets (step k) (fun s st => ¬ st.AcksUnknownVt k s) (serverInit vtBound) steps := by
  refine Run.forall_prefix_iff_meets_of_forall (D := Step.ReportsVt)
    (I := fun s : Server => (s.view none).WF ∧ (s.view none).VtsKnown ∧ s.TtysKnown)
    (fun _ h => h.2.2) (fun s st hst h hC => ?_) (fun s st _ h hP hC => ?_) ?_ steps hsteps
  · exact ⟨h.1.path (step_path k s h.1 st), vtsKnown_step h.1 h.2.1 hst,
      (logs_step k s h.1 h.2.1 hC).ttysKnown h.2.2⟩
  · obtain ⟨r, hr⟩ := opens_negative k s h.1 h.2.1 hC
    exact absurd (hP (-1) r hr) (by decide)
  · refine ⟨wf_init vtBound, ⟨Or.inl rfl, fun _ c hc => absurd hc List.not_mem_nil,
      fun c => Or.inl rfl, fun g hg => absurd hg List.not_mem_nil⟩, fun vt r hmem =>
        absurd hmem List.not_mem_nil⟩

/-- A client that comes and goes, with a VT event in between. -/
theorem negative_tty_none : (run (Kernel.obliging 1) true
    [.connect 7, .request 0 .openSeat, .vtEvent 1 2, .disconnect 0]).TtysKnown :=
  (negative_tty_iff (Kernel.obliging 1) true
    [.connect 7, .request 0 .openSeat, .vtEvent 1 2, .disconnect 0]
    (by simp [Step.ReportsVt])).mpr
    (by simp [Run.Meets, Step.AcksUnknownVt]) _ List.prefix_rfl

/-- Nobody has joined and `/dev/tty0` cannot be opened: the release signal is acknowledged on
tty −1. -/
theorem release_opens_negative : .sys (.terminalOpen (-1)) (-1)
    ∈ (run { Kernel.obliging 1 with ret := fun _ _ => -1 } true [.vtRelease]).trace := by
  decide +kernel

end DdeSeatd
