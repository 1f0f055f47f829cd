import DdeSeatd.Activation
import DdeSeatd.Ownership
import DdeSeatd.TtyNumbers

set_option autoImplicit false

/-! # Which VTs are in graphics mode

`vt_open` puts a VT into graphics mode and turns its keyboard off, `vt_close` takes both back. What
mode a VT is in is read off the trace: it is what the last of these calls said
(`Server.inGraphics`). This module says what the functions of the seat do to it, on a VT-bound seat
and a system where ttys can be opened: opening a client lights the VT on the screen
(`seatOpenClient_modes`), and removing a client darkens all the VTs it has
(`inGraphics_seatRemoveClient`) unless another client takes over (`seatRemoveClient_modes`).
-/

namespace DdeSeatd

open ClientState Labelled

/-! ## Modes in the trace -/

/-- The mode the event puts the VT into, if it does. -/
def Event.modeOf (vt : Int) : Event → Option Bool
  | .sys (.kdSetMode n graphics) _ => if n = vt then some graphics else none
  | _ => none

/-- The VT has been put into graphics mode, and not back into text mode since. -/
def Server.inGraphics (s : Server) (vt : Int) : Bool :=
  (s.trace.findSome? (Event.modeOf vt)).getD false

/-- The same seat and the same modes, from `s` to `s'`. -/
structure Alike (s s' : Server) : Prop where
  view : s'.view none = s.view none
  modes : s'.inGraphics = s.inGraphics

/-- Every tty can be opened. -/
def Kernel.OpensTtys (k : Kernel) : Prop := ∀ tr vt, 0 ≤ k.ret tr (.terminalOpen vt)

section

variable {s s' : Server}

theorem inGraphics_of_trace (h : s'.trace = s.trace) (vt : Int) :
    s'.inGraphics vt = s.inGraphics vt := by
  unfold Server.inGraphics
  rw [h]

/-- Only calls on the VT itself change its mode. -/
theorem Logs.inGraphics {O M : Int → Prop} (h : Logs (Syscall.OnTty O M) s s') {vt : Int}
    (hvt : ¬ M vt) : s'.inGraphics vt = s.inGraphics vt := by
  obtain ⟨evs, htrace, hevs⟩ := h
  have hnone : evs.findSome? (Event.modeOf vt) = none := by
    rw [List.findSome?_eq_none_iff]
    intro e he
    cases e with
    | sys call r =>
        cases call with
        | kdSetMode n graphics =>
            have hn : M n := hevs _ r he
            exact if_neg fun heq : n = vt => hvt (heq ▸ hn)
        | _ => rfl
    | _ => rfl
  unfold Server.inGraphics
  rw [htrace, List.findSome?_append, hnone, Option.none_or]

/-- A function that changes no mode. -/
theorem Logs.modes {O : Int → Prop} (h : Logs (Syscall.OnTty O fun _ => False) s s') :
    s'.inGraphics = s.inGraphics := funext fun _ => h.inGraphics id

end

/-! ## Clients that cannot be told -/

/-- ENABLE_SEAT could not be put on a connection, or not be flushed. -/
def Event.refusesEnable : Event → Bool
  | .frame _ .enableSeat ok => !ok
  | .unflushed _ .enableSeat => true
  | _ => false

/-- Every ENABLE_SEAT was sent. Otherwise `seat_open_client` takes everything back. -/
def EnablesSent (log : List Event) : Prop := ∀ e ∈ log, e.refusesEnable = false

instance (log : List Event) : Decidable (EnablesSent log) :=
  inferInstanceAs (Decidable (∀ e ∈ log, e.refusesEnable = false))

theorem EnablesSent.mono {es es' : List Event} (h : EnablesSent es') (hsub : es ⊆ es') :
    EnablesSent es := fun e he => h e (hsub he)

/-! ## Seats with VTs -/

/-- The group VTs exist. -/
def View.GroupsPos (v : View) : Prop := ∀ g ∈ v.seat.groupVts, 1 ≤ g.vt

theorem View.GroupsPos.path {k : Kernel} {P : Act → Prop} (hP : ∀ g, P (.addGroup g) → 1 ≤ g.vt)
    {v v' : View} (hp : Act.Path k P v v') (h : v.GroupsPos) : v'.GroupsPos := by
  refine Path.invariant (I := View.GroupsPos) ?_ hp h
  rintro a u u' ha ⟨evs, -, -, -, rfl⟩ hu
  cases a with
  | addGroup g =>
      intro g' hg'
      rcases List.mem_cons.mp hg' with rfl | hg'
      · exact hP _ ha
      · exact hu g' hg'
  | destroyGroup g | removeGroup g => exact fun g' hg' => hu g' (List.mem_of_mem_erase hg')
  | _ => exact hu

/-- A well-formed VT-bound seat. -/
structure Server.OnVts (s : Server) : Prop where
  wf : (s.view none).WF
  vtBound : s.seat.vtBound = true
  groups : (s.view none).GroupsPos

theorem Server.OnVts.path {k : Kernel} {P : Act → Prop} {s s' : Server} (h : s.OnVts)
    (hP : ∀ g, P (.addGroup g) → 1 ≤ g.vt) (hp : Act.Path k P (s.view none) (s'.view none)) :
    s'.OnVts :=
  ⟨h.wf.path hp, (vtBound_of_path hp).trans h.vtBound, h.groups.path hP hp⟩

theorem Server.OnVts.of_view {s s' : Server} (h : s.OnVts) (hview : s'.view none = s.view none) :
    s'.OnVts :=
  ⟨hview ▸ h.wf, (congrArg (fun v => (View.seat v).vtBound) hview).trans h.vtBound, hview ▸ h.groups⟩

theorem onVts_init : (serverInit true).OnVts :=
  ⟨wf_init true, rfl, fun _ hg => absurd hg List.not_mem_nil⟩

theorem onVts_step {k : Kernel} {s : Server} (h : s.OnVts) (st : Step) : (step k s st).OnVts :=
  h.path (fun _ ha => ha.group_pos) (step_path k s h.wf st)

/-- The handlers of requests register no group VTs. -/
theorem onVts_handleRequest {k : Kernel} {s : Server} (h : s.OnVts) {c : ClientId}
    (hlive : c ∈ s.live) (r : Request) : (handleRequest k s c r).2.OnVts :=
  h.path (fun _ ha => False.elim ha) (handleRequest_path k s h.wf hlive r)

/-- A client that owns the current VT is opened there. -/
theorem vtForClientOpen_eq {s : Server} (h : (s.view none).GroupsPos) {c : ClientId}
    (howns : clientOwnsVt s c s.seat.curVt = true) : vtForClientOpen s c = s.seat.curVt := by
  unfold vtForClientOpen
  split_ifs with hcur
  · rfl
  rcases (clientOwnsVt_iff s none c _).mp howns with hsession | ⟨-, g, hfind, -⟩
  · exact hsession
  · -- a group VT is positive, so the first test would have found it
    have hvt : g.vt = s.seat.curVt := by simpa using List.find?_some hfind
    have hpos := h g (List.mem_of_find?_eq_some hfind)
    exact absurd ⟨by omega, howns⟩ hcur

/-- On a VT-bound seat `seat_activate` looks for an owner of the current VT. -/
theorem owns_of_seatActivateTarget {s : Server} {c : ClientId} (hb : s.seat.vtBound = true)
    (hnext : s.seat.nextClient = none) (h : seatActivateTarget s = some c) :
    c ∈ s.seat.clients ∧ clientOwnsVt s c s.seat.curVt = true := by
  unfold seatActivateTarget at h
  rw [hnext] at h
  dsimp only at h
  rw [if_pos hb] at h
  split_ifs at h
  exact ⟨List.mem_of_find?_eq_some h, List.find?_some (p := fun o => clientOwnsVt s o s.seat.curVt) h⟩

section

variable {k : Kernel} (hk : k.OpensTtys) (s : Server) {c : ClientId}

include hk

theorem terminalOpen_ok (vt : Int) : (terminalOpen k s vt).1 = true :=
  decide_eq_true (hk s.trace vt)

theorem vtConfigure_ok (vt : Int) (session : Bool) : (vtConfigure k s vt session).1 = true := by
  unfold vtConfigure
  dsimp only
  rw [if_pos (terminalOpen_ok hk s vt)]

/-- **`vt_open` and `vt_close`** set the mode of their VT. -/
theorem inGraphics_vtConfigure (vt : Int) (session : Bool) (n : Int) :
    (vtConfigure k s vt session).2.inGraphics n = if n = vt then session else s.inGraphics n := by
  split_ifs with hn
  · subst hn
    unfold vtConfigure
    dsimp only
    rw [if_pos (terminalOpen_ok hk s n)]
    -- the mode is set last
    generalize (terminalSetKeyboard k _ n !session).2 = s1
    have htrace : (terminalSetGraphics k s1 n session).2.trace
        = .sys (.kdSetMode n session) (k.ret s1.trace (.kdSetMode n session)) :: s1.trace :=
      trace_sys k s1 _
    unfold Server.inGraphics
    rw [htrace, List.findSome?_cons]
    simp [Event.modeOf]
  · exact (calls_vtConfigure k s vt session).logs.inGraphics hn

/-! ## Opening a client -/

/-- The error path takes the VT back into text mode. -/
theorem inGraphics_seatRollBack (hb : s.seat.vtBound = true) (c : ClientId) (openVt n : Int) :
    (seatRollBack k s c openVt).inGraphics n = if n = openVt then false else s.inGraphics n := by
  obtain ⟨evs, ds, -, -, hview⟩ := view_seatDeactivateDevices k s none c
  have hseat : (seatDeactivateDevices k s c).seat = s.seat := congrArg View.seat hview
  have hmodes : (seatDeactivateDevices k s c).inGraphics = s.inGraphics :=
    (calls_seatDeactivateDevices k s c).logs.modes
  unfold seatRollBack
  dsimp only
  rw [if_pos (by rw [hseat]; exact hb)]
  show (vtConfigure k (seatDeactivateDevices k s c) openVt false).2.inGraphics n = _
  rw [inGraphics_vtConfigure hk, hmodes]

theorem seatEnableClient_modes (hb : s.seat.vtBound = true) (c : ClientId) (openVt : Int) :
    ((seatEnableClient k s c openVt).2.seat.activeClient = s.seat.activeClient
      ∧ (∀ n, (seatEnableClient k s c openVt).2.inGraphics n
        = if n = openVt then false else s.inGraphics n)
      ∧ ¬ EnablesSent ((seatEnableClient k s c openVt).2.view none).log)
    ∨ ((seatEnableClient k s c openVt).2.seat.activeClient = some c
      ∧ (seatEnableClient k s c openVt).2.inGraphics = s.inGraphics) := by
  set s1 := seatActivateDevices k s c with hs1
  have hmodes1 : s1.inGraphics = s.inGraphics := (calls_seatActivateDevices k s c).logs.modes
  have hseat1 : s1.seat = s.seat := congrArg View.seat (view_seatActivateDevices k s none c)
  set e := clientSendEnableSeat k s1 c with he
  have hmodes : e.2.inGraphics = s.inGraphics :=
    (logs_clientSendEvent (Q := Syscall.OffTty) k s1 c .enableSeat).modes.trans hmodes1
  have hseat : e.2.seat = s.seat := by
    refine Eq.trans ?_ hseat1
    rcases view_clientSendEvent k s1 none c (m := .enableSeat) rfl with
      ⟨-, hview⟩ | ⟨-, hview⟩ | ⟨-, hview⟩ <;> exact congrArg View.seat hview
  unfold seatEnableClient
  dsimp only
  split_ifs with hok
  · exact Or.inr ⟨rfl, hmodes⟩
  · obtain ⟨evs, ds, -, -, hview⟩ := seatRollBack_view k e.2 none c openVt
    refine Or.inl ⟨?_, fun n => ?_, fun hsent => ?_⟩
    · have hback : (seatRollBack k e.2 c openVt).seat = e.2.seat := congrArg View.seat hview
      rw [hback, hseat]
    · rw [inGraphics_seatRollBack hk e.2 (by rw [hseat]; exact hb), hmodes]
    · -- what could not be sent is still in the log
      rw [hview] at hsent
      have hkept : EnablesSent (e.2.view none).log := hsent.mono (List.subset_append_right evs _)
      rcases view_clientSendEvent k s1 none c (m := .enableSeat) rfl with
        ⟨hsent, -⟩ | ⟨-, hlog⟩ | ⟨-, hlog⟩
      · exact hok hsent
      · rw [show e.2.view none = _ from hlog] at hkept
        exact absurd (hkept (.unflushed c .enableSeat) List.mem_cons_self) (by simp [Event.refusesEnable])
      · rw [show e.2.view none = _ from hlog] at hkept
        exact absurd (hkept (.frame c .enableSeat false) List.mem_cons_self) (by simp [Event.refusesEnable])

/-- **`seat_open_client`**, for a client that owns the VT on the screen, fails and lights no VT, nor
darkens one unless the client could not be told, or makes the client the active one and lights that
VT. -/
theorem seatOpenClient_modes (hb : s.seat.vtBound = true) (hgroups : (s.view none).GroupsPos)
    (howns : clientOwnsVt s c s.seat.curVt = true) :
    ((seatOpenClient k s c).2.seat.activeClient = s.seat.activeClient
      ∧ (∀ n, (seatOpenClient k s c).2.inGraphics n = true → s.inGraphics n = true)
      ∧ (EnablesSent ((seatOpenClient k s c).2.view none).log →
        (seatOpenClient k s c).2.inGraphics = s.inGraphics))
    ∨ ((seatOpenClient k s c).2.seat.activeClient = some c
      ∧ ∀ n, (seatOpenClient k s c).2.inGraphics n
        = (decide (n = s.seat.curVt) || s.inGraphics n)) := by
  unfold seatOpenClient
  by_cases hst : (s.clients c).state ≠ .new ∧ (s.clients c).state ≠ .disabled
  · rw [if_pos hst]
    exact Or.inl ⟨rfl, fun _ => id, fun _ => rfl⟩
  rw [if_neg hst]
  by_cases hactive : s.seat.activeClient ≠ none
  · rw [if_pos hactive]
    exact Or.inl ⟨rfl, fun _ => id, fun _ => rfl⟩
  rw [if_neg hactive, vtForClientOpen_eq hgroups howns]
  dsimp only
  rw [if_pos hb, if_pos (show (vtOpen k s s.seat.curVt).1 = true from
    vtConfigure_ok hk s _ true)]
  set vt := s.seat.curVt with hvt
  have hseat : (vtOpen k s vt).2.seat = s.seat := congrArg View.seat (view_vtOpen k s none vt)
  have hlit : ∀ n, (vtOpen k s vt).2.inGraphics n = if n = vt then true else s.inGraphics n :=
    inGraphics_vtConfigure hk s vt true
  rcases seatEnableClient_modes hk (vtOpen k s vt).2 (by rw [hseat]; exact hb) c vt with
    ⟨hsame, hmodes, hrefused⟩ | ⟨hopened, hmodes⟩
  · refine Or.inl ⟨hsame.trans (by rw [hseat]), fun n hn => ?_, fun hsent => absurd hsent hrefused⟩
    rw [hmodes, hlit] at hn
    split_ifs at hn
    exact hn
  · refine Or.inr ⟨hopened, fun n => ?_⟩
    rw [hmodes, hlit]
    by_cases hn : n = vt <;> simp [hn]

/-- **`seat_activate`** opens an owner of the VT on the screen. -/
theorem seatActivate_modes (hb : s.seat.vtBound = true) (hgroups : (s.view none).GroupsPos)
    (hnext : s.seat.nextClient = none) :
    ((seatActivate k s).2.seat.activeClient = s.seat.activeClient
      ∧ (∀ n, (seatActivate k s).2.inGraphics n = true → s.inGraphics n = true)
      ∧ (EnablesSent ((seatActivate k s).2.view none).log →
        (seatActivate k s).2.inGraphics = s.inGraphics))
    ∨ ∃ c ∈ s.seat.clients, clientOwnsVt s c s.seat.curVt = true
      ∧ (seatActivate k s).2.seat.activeClient = some c
      ∧ ∀ n, (seatActivate k s).2.inGraphics n = (decide (n = s.seat.curVt) || s.inGraphics n) := by
  unfold seatActivate
  split_ifs
  · exact Or.inl ⟨rfl, fun _ => id, fun _ => rfl⟩
  · cases htarget : seatActivateTarget s with
    | none => exact Or.inl ⟨rfl, fun _ => id, fun _ => rfl⟩
    | some c =>
        obtain ⟨hc, howns⟩ := owns_of_seatActivateTarget hb hnext htarget
        have hsame : s.setSeat { s.seat with nextClient := none } = s := by
          rw [← hnext]
          rfl
        dsimp only
        rw [hsame]
        exact (seatOpenClient_modes hk s hb hgroups howns).imp id fun h => ⟨c, hc, howns, h⟩

/-! ## Removing a client -/

theorem inGraphics_seatRemoveGroupVts (hb : s.seat.vtBound = true) (c : ClientId)
    (gs : List GroupVt) (n : Int) :
    (seatRemoveGroupVts k c s gs).inGraphics n = true
      ↔ s.inGraphics n = true ∧ ∀ g ∈ gs, g.owner = c → g.vt ≠ n := by
  induction gs generalizing s with
  | nil => simp [seatRemoveGroupVts]
  | cons g gs ih =>
      simp only [seatRemoveGroupVts]
      by_cases howner : g.owner = c
      · rw [if_pos howner]
        set s1 := s.setSeat { s.seat with groupVts := s.seat.groupVts.erase g } with hs1
        rw [if_pos (show s1.seat.vtBound = true from hb)]
        have hb2 : (vtClose k s1 g.vt).2.seat.vtBound = true := by
          rw [show (vtClose k s1 g.vt).2.seat = s1.seat from
            congrArg View.seat (view_vtClose k s1 none g.vt)]
          exact hb
        rw [ih _ hb2, show (vtClose k s1 g.vt).2.inGraphics n = _ from
          inGraphics_vtConfigure hk s1 g.vt false n]
        rw [List.forall_mem_cons]
        have hsame : s1.inGraphics n = s.inGraphics n := rfl
        by_cases hn : n = g.vt
        · simp [hn, howner]
        · simp [hn, hsame, howner, Ne.symm hn]
      · rw [if_neg howner, ih s hb, List.forall_mem_cons]
        simp [howner]

/-- The client's group VTs are closed when it is unlinked. -/
theorem inGraphics_seatStripClient (hb : s.seat.vtBound = true) (c : ClientId) (n : Int) :
    (seatStripClient k s c).inGraphics n = true
      ↔ s.inGraphics n = true ∧ ∀ g ∈ s.seat.groupVts, g.owner = c → g.vt ≠ n := by
  unfold seatStripClient
  dsimp only
  set s1 := s.setSeat { s.seat with
    nextClient := if s.seat.nextClient = some c then none else s.seat.nextClient,
    clients := s.seat.clients.erase c } with hs1
  have hseat : (seatCloseDevices k c (closeRounds (s1.clients c).devices) s1).seat = s1.seat :=
    (seat_of_closes k (seatCloseDevices_path k s1 (some c) (Or.inr rfl) _)).1
  have hmodes : (seatCloseDevices k c (closeRounds (s1.clients c).devices) s1).inGraphics
      = s.inGraphics :=
    (calls_seatCloseDevices k s1 c _).logs.modes
  rw [inGraphics_seatRemoveGroupVts hk _ (by rw [hseat]; exact hb), hmodes, hseat]
  exact Iff.rfl

/-- **Removing a client that is not the active one** darkens the VTs it has, and no others. -/
theorem inGraphics_seatRemoveClient (hs : s.OnVts) (hc : c ∈ s.seat.clients)
    (hother : s.seat.activeClient ≠ some c) (n : Int) :
    (seatRemoveClient k s c).inGraphics n = true
      ↔ s.inGraphics n = true ∧ ¬ (s.view none).Has c n := by
  obtain ⟨hpath, -, -, hactive⟩ := seatStripClient_path k s hc
  have hstrip := inGraphics_seatStripClient hk s hs.vtBound c n
  have hseat := seatStripClient_seat k s c
  obtain ⟨hstate, hsession, -⟩ := client_of_strips hpath c
  set s1 := seatStripClient k s c with hs1
  have hother1 : s1.seat.activeClient ≠ some c := by
    rw [hactive]
    exact hother
  have hopen : (s1.clients c).state ≠ .closed := by
    rw [show (s1.clients c).state = (s.clients c).state from hstate]
    exact (hs.wf.onSeat c hc).2.1
  have hvt : (s1.clients c).session = (s.clients c).session := hsession
  have hclean : seatCleanVt k s1 c false = (vtClose k s1 (s.clients c).session).2 := by
    unfold seatCleanVt
    rw [if_pos (by rw [hseat]; exact hs.vtBound), if_neg (by simp), if_pos ⟨by simp, hopen⟩, hvt]
  have hremove : (seatRemoveClient k s c).inGraphics n
      = (vtClose k s1 (s.clients c).session).2.inGraphics n := by
    rw [← hclean, seatRemoveClient_eq_other k s hother1]
    rfl
  rw [hremove, show (vtClose k s1 (s.clients c).session).2.inGraphics n = _ from
    inGraphics_vtConfigure hk s1 _ false n]
  have hhas : (s.view none).Has c n ↔ (s.clients c).session = n
      ∨ ∃ g ∈ s.seat.groupVts, g.owner = c ∧ g.vt = n := by
    refine or_congr_right ⟨fun hmem => ⟨_, hmem, rfl, rfl⟩, ?_⟩
    rintro ⟨⟨owner, vt⟩, hmem, rfl, rfl⟩
    exact hmem
  by_cases hn : n = (s.clients c).session
  · rw [if_pos hn]
    exact ⟨fun h => (Bool.false_ne_true h).elim, fun h => absurd (hhas.mpr (Or.inl hn.symm)) h.2⟩
  · rw [if_neg hn, hstrip, hhas]
    refine and_congr_right fun _ => ⟨?_, fun h g hg howner heq => h (Or.inr ⟨g, hg, howner, heq⟩)⟩
    rintro h (heq | ⟨g, hg, howner, heq⟩)
    · exact hn heq.symm
    · exact h g hg howner heq

omit hk in
/-- The client that takes over from the active client when that is removed. -/
theorem target_of_seatStripClient {c o : ClientId} (hs : s.OnVts) (hc : c ∈ s.seat.clients)
    (ho : o ∈ (seatStripClient k s c).seat.clients)
    (howns : clientOwnsVt (seatStripClient k s c) o s.seat.curVt = true) :
    o ∈ s.seat.clients ∧ o ≠ c ∧ clientOwnsVt s o s.seat.curVt = true := by
  obtain ⟨hstrip, -, -, -⟩ := seatStripClient_path k s hc
  have hseat := seatStripClient_seat k s c
  have hwf1 := hs.wf.path hstrip
  have hhas := (hwf1.owns_iff ho _).mp ((clientOwnsVt_iff _ (some c) o _).mp howns)
  rw [hseat] at ho
  obtain ⟨hne, hmem⟩ := hs.wf.clientsNodup.mem_erase_iff.mp ho
  refine ⟨hmem, hne, (clientOwnsVt_iff_has hs.wf hmem _).mpr ?_⟩
  rcases hhas with hsession | hgroup
  · exact Or.inl ((client_of_strips hstrip o).2.1.symm.trans hsession)
  · have hgroup' : ⟨o, s.seat.curVt⟩ ∈ (seatStripClient k s c).seat.groupVts := hgroup
    rw [hseat] at hgroup'
    exact Or.inr (List.mem_of_mem_filter hgroup')

/-- **Removing the active client**: if nobody takes over, the VTs it has are dark, and no others
unless a client could not be told; if another client does, its group VTs are, and the VT on the
screen, which the other client owns, is lit. -/
theorem seatRemoveClient_modes (hs : s.OnVts) (hcur : s.seat.activeClient = some c) :
    ((seatRemoveClient k s c).seat.activeClient = none
      ∧ (∀ n, (seatRemoveClient k s c).inGraphics n = true →
        s.inGraphics n = true ∧ ¬ (s.view none).Has c n)
      ∧ (EnablesSent ((seatRemoveClient k s c).view none).log → ∀ n, s.inGraphics n = true →
        ¬ (s.view none).Has c n → (seatRemoveClient k s c).inGraphics n = true))
    ∨ ∃ o ∈ s.seat.clients, o ≠ c ∧ clientOwnsVt s o s.seat.curVt = true
      ∧ (seatRemoveClient k s c).seat.activeClient = some o
      ∧ ∀ n, (seatRemoveClient k s c).inGraphics n = true
        ↔ n = s.seat.curVt ∨ s.inGraphics n = true ∧ ∀ g ∈ s.seat.groupVts, g.owner = c → g.vt ≠ n := by
  have hc : c ∈ s.seat.clients := (hs.wf.active c hcur).1.resolve_right (fun h => by cases h)
  obtain ⟨hpath, -, -, hactive⟩ := seatStripClient_path k s hc
  have hstrip := inGraphics_seatStripClient hk s hs.vtBound c
  have hseat := seatStripClient_seat k s c
  have hwf1 := hs.wf.path hpath
  have hgroups : ((seatStripClient k s c).view (some c)).GroupsPos :=
    hs.groups.path (fun _ hg => False.elim hg) hpath
  have htarget := fun o => target_of_seatStripClient (k := k) s (o := o) hs hc
  obtain ⟨-, hsession1, -⟩ := client_of_strips hpath c
  set s1 := seatStripClient k s c with hs1
  set s1' := s1.setSeat { s1.seat with activeClient := none } with hs1'
  have hb1 : s1'.seat.vtBound = true := by
    show s1.seat.vtBound = true
    rw [hseat]
    exact hs.vtBound
  have hcurVt : s1'.seat.curVt = s.seat.curVt := by
    show s1.seat.curVt = _
    rw [hseat]
  have hcur1 : s1.seat.activeClient = some c := hactive.trans hcur
  have hnext : s1'.seat.nextClient = none := hwf1.nextVt hb1
  have hopens := seatActivate_path_unqueued k s1' (some c) rfl hnext
  set s2 := (seatActivate k s1').2 with hs2
  have hsession : (s2.clients c).session = (s.clients c).session :=
    (session_of_opens hopens c).trans hsession1
  have hremove := seatRemoveClient_eq_current k s hcur1 hs2
  have hactive2 : (seatRemoveClient k s c).seat.activeClient = s2.seat.activeClient := by
    rw [hremove]
    exact congrArg (fun v => (View.seat v).activeClient) (view_seatCleanVt k s2 none c true)
  have hb2 : s2.seat.vtBound = true := (vtBound_of_path hopens).trans hb1
  rcases seatActivate_modes hk s1' hb1 hgroups hnext with
    ⟨hnone, hdim, hsame⟩ | ⟨o, ho, howns, hopened, hlit⟩
  · -- nobody is active, so the session is closed too
    have hnone2 : s2.seat.activeClient = none := hnone
    have hmode : ∀ n, (seatRemoveClient k s c).inGraphics n
        = if n = (s.clients c).session then false else s2.inGraphics n := by
      have hclean : seatCleanVt k s2 c true = (vtClose k s2 (s.clients c).session).2 := by
        unfold seatCleanVt
        rw [if_pos hb2, if_pos ⟨rfl, hnone2⟩, hsession]
      rw [hremove, hclean]
      exact inGraphics_vtConfigure hk s2 _ false
    refine Or.inl ⟨hactive2.trans hnone2, fun n hn => ?_, fun hsent n hn hhas => ?_⟩
    · rw [hmode] at hn
      split_ifs at hn with hses
      obtain ⟨hlit, hgroups⟩ := (hstrip n).mp (hdim n hn)
      exact ⟨hlit, fun hhas => hhas.elim (fun h => hses h.symm) fun hg => hgroups _ hg rfl rfl⟩
    · have hlog : ((seatRemoveClient k s c).view none).log = (s2.view none).log := by
        have hclean := congrArg View.log (view_seatCleanVt k s2 none c true)
        rw [hremove]
        exact hclean
      rw [hmode, if_neg fun heq => hhas (Or.inl heq.symm), hsame (hlog ▸ hsent)]
      refine (hstrip n).mpr ⟨hn, ?_⟩
      rintro ⟨owner, vt⟩ hg rfl rfl
      exact hhas (Or.inr hg)
  · have hsome : s2.seat.activeClient = some o := hopened
    rw [hcurVt] at howns hlit
    obtain ⟨hmem, hne, hbefore⟩ := htarget o ho howns
    refine Or.inr ⟨o, hmem, hne, hbefore, hactive2.trans hsome, fun n => ?_⟩
    have hclean : seatCleanVt k s2 c true = s2 := by
      unfold seatCleanVt
      rw [if_pos hb2, if_neg (by simp [hsome]), if_neg (by simp)]
    rw [hremove, hclean, ← hstrip n, ← decide_eq_true_iff (p := n = s.seat.curVt), ← Bool.or_eq_true]
    exact Bool.eq_iff_iff.mp (hlit n)

/-! ## Group VTs -/

/-- **`seat_create_group_vt`** fails and lights no VT, or registers the VT and lights it. -/
theorem seatCreateGroupVt_modes (c : ClientId) (requestedVt : Int) :
    ((seatCreateGroupVt k s c requestedVt).2.view none = s.view none
      ∧ (seatCreateGroupVt k s c requestedVt).2.inGraphics = s.inGraphics)
    ∨ ∃ vt, (seatCreateGroupVt k s c requestedVt).2.view none
        = (s.view none).setSeat { s.seat with groupVts := ⟨c, vt⟩ :: s.seat.groupVts }
      ∧ ∀ n, (seatCreateGroupVt k s c requestedVt).2.inGraphics n
        = (decide (n = vt) || s.inGraphics n) := by
  have hchoice : (groupVtChoice k s requestedVt).2.inGraphics = s.inGraphics :=
    (calls_groupVtChoice k s requestedVt).logs.modes
  have hview : (groupVtChoice k s requestedVt).2.view none = s.view none := by
    unfold groupVtChoice
    split_ifs <;> simp
  unfold seatCreateGroupVt
  dsimp only
  generalize groupVtChoice k s requestedVt = q at hchoice hview ⊢
  have halloc : (q.2.sys k .alloc).2.inGraphics = s.inGraphics :=
    ((Calls.refl q.2).sys k (by trivial : Syscall.OffTty .alloc)).logs.modes.trans hchoice
  have hview' : (q.2.sys k .alloc).2.view none = s.view none := (view_sys k q.2 none rfl).trans hview
  split_ifs with h1 h2 h3 h4 h5 h6
  · exact Or.inl ⟨rfl, rfl⟩
  · exact Or.inl ⟨rfl, rfl⟩
  · exact Or.inl ⟨hview, hchoice⟩
  · exact Or.inl ⟨hview, hchoice⟩
  · exact Or.inl ⟨hview', halloc⟩
  · have hopen : (vtOpen k (q.2.sys k .alloc).2 q.1).2.view none = s.view none :=
      (view_vtOpen k _ none _).trans hview'
    refine Or.inr ⟨q.1, ?_, fun n => ?_⟩
    · rw [view_setSeat, hopen, show (vtOpen k (q.2.sys k .alloc).2 q.1).2.seat = s.seat from
        congrArg View.seat hopen]
    · show (vtConfigure k (q.2.sys k .alloc).2 q.1 true).2.inGraphics n = _
      rw [inGraphics_vtConfigure hk, halloc]
      by_cases hn : n = q.1 <;> simp [hn]
  · exact absurd (vtConfigure_ok hk _ _ true) h6

/-- **`seat_destroy_group_vt`** darkens the VT, if it is registered. -/
theorem inGraphics_seatDestroyGroupVt (hb : s.seat.vtBound = true) {vt : Int} {g : GroupVt}
    (hfind : seatFindGroupVt s.seat vt = some g) (n : Int) :
    (seatDestroyGroupVt k s vt).2.inGraphics n = if n = vt then false else s.inGraphics n := by
  obtain rfl : g.vt = vt := by simpa using List.find?_some hfind
  unfold seatDestroyGroupVt
  rw [hfind]
  dsimp only
  rw [if_pos (show (s.setSeat { s.seat with groupVts := s.seat.groupVts.erase g }).seat.vtBound = true
    from hb)]
  exact inGraphics_vtConfigure hk _ g.vt false n

end

/-! ## VT events -/

section

variable (k : Kernel) (s : Server)

/-- Storing the VT and telling the control clients changes no modes. -/
theorem inGraphics_seatNoteVt (oldVt newVt : Int) :
    (seatNoteVt k s oldVt newVt).inGraphics = s.inGraphics := by
  unfold seatNoteVt
  extract_lets pending seat s1
  split_ifs
  · rfl
  · exact (logs_controlBroadcastVtChange (Q := Syscall.OffTty) k s1 oldVt newVt).modes

/-- While a client holds the seat, a VT event changes no modes. -/
theorem inGraphics_seatHandleVtEvent {a : ClientId} (ha : s.seat.activeClient = some a)
    (oldVt newVt : Int) : (seatHandleVtEvent k s oldVt newVt).inGraphics = s.inGraphics := by
  have hmodes := inGraphics_seatNoteVt k s oldVt newVt
  rw [seatHandleVtEvent_some k s ha]
  split_ifs
  · exact (calls_seatRestoreClientDrmMaster k _ a).logs.modes.trans hmodes
  · exact (logs_seatDisableClient (O := fun _ => False) k _ a).modes.trans hmodes
  · exact hmodes

end

end DdeSeatd
