import DdeSeatd.Calls
import DdeSeatd.ServerRefinement

set_option autoImplicit false

/-! # Somebody is on the seat

`seat_activate` looks for one client and tries to open it; it does not try another one if that
fails. It is called only where the seat has just been given up, or a VT has come up. Here it is
shown that the client it picks can always be opened as long as sends and openings of ttys succeed
(`seatActivate_succeeds`), and that it picks somebody if anybody is eligible. So no seat without
VTs is ever without an active client while it has clients, and a seat with VTs is not right after
the calls that should have found one (`eligible_client_active`).
-/

namespace DdeSeatd

open ClientState Labelled

/-! ## Runs without failures -/

/-- A frame could not be put on a connection, or a seat event could not be flushed. -/
def Event.sendFailed : Event → Bool
  | .frame _ _ ok => !ok
  | .unflushed _ _ => true
  | _ => false

/-- A tty could not be opened. -/
def Event.openFailed : Event → Bool
  | .sys (.terminalOpen _) r => r < 0
  | _ => false

/-- Every send succeeded. -/
def SendsSucceed (trace : List Event) : Prop := ∀ e ∈ trace, e.sendFailed = false

/-- Every tty that was asked for could be opened. -/
def TerminalsOpen (trace : List Event) : Prop := ∀ e ∈ trace, e.openFailed = false

instance (trace : List Event) : Decidable (SendsSucceed trace) :=
  inferInstanceAs (Decidable (∀ e ∈ trace, e.sendFailed = false))

instance (trace : List Event) : Decidable (TerminalsOpen trace) :=
  inferInstanceAs (Decidable (∀ e ∈ trace, e.openFailed = false))

theorem SendsSucceed.mono {tr tr' : List Event} (h : SendsSucceed tr') (hsub : tr ⊆ tr') :
    SendsSucceed tr := fun e he => h e (hsub he)

theorem TerminalsOpen.mono {tr tr' : List Event} (h : TerminalsOpen tr') (hsub : tr ⊆ tr') :
    TerminalsOpen tr := fun e he => h e (hsub he)

theorem SendsSucceed.log {s : Server} (h : SendsSucceed s.trace) (x : Option ClientId) :
    SendsSucceed (s.view x).log := h.mono (List.filter_subset_self _)

/-- The machine only adds to its log. -/
theorem log_suffix_of_path {k : Kernel} {P : Act → Prop} {v v' : View} (hp : Act.Path k P v v') :
    v.log <:+ v'.log := by
  refine Path.invariant (I := fun u => v.log <:+ u.log) ?_ hp List.suffix_rfl
  rintro a u u' - ⟨evs, -, -, -, rfl⟩ hu
  have hlog : (a.effect u).log = u.log := by
    cases a <;> rfl
  show v.log <:+ evs ++ (a.effect u).log
  rw [hlog]
  exact hu.trans (List.suffix_append _ _)

section

variable (k : Kernel) (s : Server) {c : ClientId} {v v' : View} {P : Act → Prop} {a : Act}

/-! ## Opening a client -/

theorem vtOpen_succeeds {vt : Int} (h : TerminalsOpen (vtOpen k s vt).2.trace) :
    (vtOpen k s vt).1 = true := by
  unfold vtOpen vtConfigure at h ⊢
  dsimp only at h ⊢
  by_cases hopen : (terminalOpen k s vt).1 = true
  · rw [if_pos hopen]
  · rw [if_neg hopen] at h
    -- the failed call is the last thing in the trace
    have hmem : .sys (.terminalOpen vt) (k.ret s.trace (.terminalOpen vt))
        ∈ (terminalOpen k s vt).2.trace := by
      rw [show (terminalOpen k s vt).2.trace = _ from trace_sys k s _]
      exact List.mem_cons_self
    have hret : ¬ k.ret s.trace (.terminalOpen vt) < 0 := of_decide_eq_false (h _ hmem)
    exact absurd (decide_eq_true (Int.not_lt.mp hret)) hopen

/-- `s'` is `s` after `seat_open_client` has succeeded for `c`. -/
structure Server.OpensTo (s s' : Server) (c : ClientId) : Prop where
  seat : s'.seat = { s.seat with activeClient := some c }
  log : ∀ x, (s'.view x).log = .frame c .enableSeat true :: (s.view x).log

theorem seatEnableClient_succeeds {openVt : Int}
    (hsends : SendsSucceed ((seatEnableClient k s c openVt).2.view none).log) :
    s.OpensTo (seatEnableClient k s c openVt).2 c := by
  set s1 := seatActivateDevices k s c with hs1
  have hview1 : ∀ x, s1.view x
      = (s.view x).setDevices c ((s.clients c).devices.map SeatDevice.up) := fun x =>
    view_seatActivateDevices k s x c
  unfold seatEnableClient at hsends ⊢
  dsimp only at hsends ⊢
  by_cases hok : (clientSendEnableSeat k s1 c).1 = true
  · rw [if_pos hok]
    have hsent : ∀ x, (clientSendEnableSeat k s1 c).2.view x
        = (s1.view x).push [.frame c .enableSeat true] := fun x => by
      rcases view_clientSendEvent k s1 x c (m := .enableSeat) rfl with
        ⟨-, hsent⟩ | ⟨hfail, -⟩ | ⟨hfail, -⟩
      · exact hsent
      · exact absurd hok (ne_true_of_eq_false hfail)
      · exact absurd hok (ne_true_of_eq_false hfail)
    have hseat : (clientSendEnableSeat k s1 c).2.seat = s.seat := by
      have := congrArg View.seat (hsent none)
      rw [hview1] at this
      exact this
    refine ⟨?_, fun x => ?_⟩
    · show ({ (clientSendEnableSeat k s1 c).2.seat with activeClient := some c } : Seat) = _
      rw [hseat]
    · show ((clientSendEnableSeat k s1 c).2.view x).log = _
      rw [hsent, hview1]
      rfl
  · rw [if_neg hok] at hsends
    -- what could not be sent is still in the log after the roll back
    obtain ⟨evs, ds, -, -, hback⟩ :=
      seatRollBack_view k (clientSendEnableSeat k s1 c).2 none c openVt
    rw [hback] at hsends
    have hkept : SendsSucceed ((clientSendEnableSeat k s1 c).2.view none).log :=
      hsends.mono (List.subset_append_right evs _)
    rcases view_clientSendEvent k s1 none c (m := .enableSeat) rfl with
      ⟨hsent, -⟩ | ⟨-, hsent⟩ | ⟨-, hsent⟩
    · exact absurd hsent hok
    · rw [show clientSendEnableSeat k s1 c = clientSendEvent k s1 c .enableSeat from rfl,
        hsent] at hkept
      have hfalse : true = false := hkept (.unflushed c .enableSeat) List.mem_cons_self
      cases hfalse
    · rw [show clientSendEnableSeat k s1 c = clientSendEvent k s1 c .enableSeat from rfl,
        hsent] at hkept
      have hfalse : true = false := hkept (.frame c .enableSeat false) List.mem_cons_self
      cases hfalse

/-- **A client that may be opened is opened**, if nothing fails. -/
theorem seatOpenClient_succeeds (hactive : s.seat.activeClient = none)
    (hst : (s.clients c).state = new ∨ (s.clients c).state = disabled)
    (hsends : SendsSucceed ((seatOpenClient k s c).2.view none).log)
    (hopens : s.seat.vtBound = true → TerminalsOpen (seatOpenClient k s c).2.trace) :
    s.OpensTo (seatOpenClient k s c).2 c := by
  have hst' : ¬ ((s.clients c).state ≠ new ∧ (s.clients c).state ≠ disabled) := by
    rcases hst with hst | hst <;> simp [hst]
  unfold seatOpenClient at hsends hopens ⊢
  rw [if_neg hst', if_neg (not_not.mpr hactive)] at hsends hopens ⊢
  dsimp only at hsends hopens ⊢
  by_cases hb : s.seat.vtBound = true
  · simp only [if_pos hb] at hsends hopens ⊢
    have hvt : (vtOpen k s (vtForClientOpen s c)).1 = true := by
      by_contra hfail
      rw [if_neg hfail] at hopens
      exact hfail (vtOpen_succeeds k s (hopens hb))
    rw [if_pos hvt] at hsends ⊢
    obtain ⟨hseat, hlog⟩ := seatEnableClient_succeeds k _ hsends
    have hview : ∀ x, (vtOpen k s (vtForClientOpen s c)).2.view x = s.view x := fun x =>
      view_vtOpen k s x _
    refine ⟨hseat.trans ?_, fun x => (hlog x).trans ?_⟩
    · rw [show (vtOpen k s (vtForClientOpen s c)).2.seat = s.seat from
        congrArg View.seat (hview none)]
    · rw [hview]
  · simp only [if_neg hb, if_true] at hsends ⊢
    exact seatEnableClient_succeeds k s hsends

/-! ## Activation -/

/-- The client could be the active one. -/
def View.Eligible (v : View) (c : ClientId) : Prop :=
  c ∈ v.seat.clients ∧ (v.seat.vtBound = true → v.Owns c v.seat.curVt)

/-- Somebody is active, or nobody could be. -/
def View.Attended (v : View) : Prop := v.seat.activeClient = none → ∀ c, ¬ v.Eligible c

/-- No client on the seat owns the VT −1. -/
def View.VtsReal (v : View) : Prop := ∀ g ∈ v.seat.groupVts, g.vt ≠ -1

theorem View.VtsReal.not_owns {v : View} (h : v.VtsReal)
    (hsession : (v.client c).session ≠ -1) : ¬ v.Owns c (-1) := by
  rintro (heq | ⟨-, g, hg, -⟩)
  · exact hsession heq
  · exact h g (List.mem_of_find?_eq_some hg) (by simpa using List.find?_some hg)

/-- The transition adds no group VT −1. -/
def Act.RealVts : Act → Prop
  | .addGroup g => g.vt ≠ -1
  | _ => True

theorem View.VtsReal.trans {k : Kernel} (h : v.VtsReal) (ht : a.Trans k v v')
    (ha : a.RealVts) : v'.VtsReal := by
  obtain ⟨evs, -, -, -, rfl⟩ := ht
  cases a with
  | addGroup g =>
      intro g' hg'
      rcases List.mem_cons.mp hg' with rfl | hg'
      · exact ha
      · exact h g' hg'
  | destroyGroup g | removeGroup g => exact fun g' hg' => h g' (List.mem_of_mem_erase hg')
  | _ => exact h

theorem View.VtsReal.path {k : Kernel} (hP : ∀ a, P a → a.RealVts) (hp : Act.Path k P v v')
    (h : v.VtsReal) : v'.VtsReal :=
  Path.invariant (I := View.VtsReal) (fun a _ _ ha ht hv => hv.trans ht (hP a ha)) hp h

/-- `seat_create_group_vt` registers no VT −1. -/
theorem Step.Allows.realVts {k : Kernel} {s : Server} {st : Step}
    (h : st.Allows k s a) : a.RealVts := by
  cases a with
  | addGroup g =>
      obtain ⟨i, pid, vt, -, -, hok, hvt⟩ := h.cause
      intro heq
      exact hok (seatCreateGroupVt_fails k s g.owner (hvt.symm.trans heq))
  | _ => trivial

/-- Whom `seat_activate` finds: nobody only if nobody is eligible. -/
theorem not_eligible_of_seatActivateTarget (hreal : (s.view none).VtsReal)
    (hsessions : ∀ c ∈ s.seat.clients, (s.clients c).session ≠ -1)
    (htarget : seatActivateTarget s = none) (c : ClientId) : ¬ (s.view none).Eligible c := by
  rintro ⟨hmem, howns⟩
  unfold seatActivateTarget at htarget
  cases hnext : s.seat.nextClient with
  | some n => simp [hnext] at htarget
  | none =>
      rw [hnext] at htarget
      dsimp only at htarget
      by_cases hb : s.seat.vtBound = true
      · rw [if_pos hb] at htarget
        have howns' := howns hb
        by_cases hcur : s.seat.curVt = -1
        · rw [show (s.view none).seat.curVt = -1 from hcur] at howns'
          exact hreal.not_owns (hsessions c hmem) howns'
        · rw [if_neg hcur] at htarget
          have hno := List.find?_eq_none.mp htarget c hmem
          exact hno ((clientOwnsVt_iff s none c _).mpr howns')
      · rw [if_neg hb] at htarget
        rw [show (s.view none).seat.clients = [] from List.head?_eq_none_iff.mp htarget] at hmem
        cases hmem

/-- **`seat_activate` succeeds with the client it picks**, if nothing fails. -/
theorem seatActivate_succeeds (hactive : s.seat.activeClient = none)
    (htarget : seatActivateTarget s = some c)
    (hst : (s.clients c).state = new ∨ (s.clients c).state = disabled)
    (hsends : SendsSucceed ((seatActivate k s).2.view none).log)
    (hopens : s.seat.vtBound = true → TerminalsOpen (seatActivate k s).2.trace) :
    (s.setSeat { s.seat with nextClient := none }).OpensTo (seatActivate k s).2 c := by
  unfold seatActivate at hsends hopens ⊢
  rw [if_neg (not_not.mpr hactive), htarget] at hsends hopens ⊢
  exact seatOpenClient_succeeds k (s.setSeat { s.seat with nextClient := none }) hactive hst hsends
    hopens

theorem seatActivate_nobody (htarget : seatActivateTarget s = none) : (seatActivate k s).2 = s := by
  unfold seatActivate
  rw [htarget]
  split_ifs <;> rfl

/-- **Somebody is active after `seat_activate`**, or nobody could be. -/
theorem attended_seatActivate (hactive : s.seat.activeClient = none)
    (hst : ∀ c ∈ s.seat.clients, (s.clients c).state = new ∨ (s.clients c).state = disabled)
    (hnext : ∀ n, s.seat.nextClient = some n → n ∈ s.seat.clients)
    (hsessions : ∀ c ∈ s.seat.clients, (s.clients c).session ≠ -1) (hreal : (s.view none).VtsReal)
    (hsends : SendsSucceed ((seatActivate k s).2.view none).log)
    (hopens : s.seat.vtBound = true → TerminalsOpen (seatActivate k s).2.trace) :
    ((seatActivate k s).2.view none).Attended := by
  cases htarget : seatActivateTarget s with
  | none =>
      rw [seatActivate_nobody k s htarget]
      exact fun _ => not_eligible_of_seatActivateTarget s hreal hsessions htarget
  | some c =>
      have hc : c ∈ s.seat.clients := (mem_of_seatActivateTarget s htarget).elim id (hnext c)
      have hopened := seatActivate_succeeds k s hactive htarget (hst c hc) hsends hopens
      intro hnone
      rw [show ((seatActivate k s).2.view none).seat = _ from hopened.seat] at hnone
      cases hnone

/-! ## The calls that should find somebody -/

/-- A removed client is closed; whether anybody is active or eligible is as before. -/
theorem View.Attended.close {v : View} (h : v.Attended) (hc : c ∉ v.seat.clients)
    (cl : ClientView) : (v.set c cl).Attended := by
  intro hnone o ho
  have hne : o ≠ c := fun heq => hc (heq ▸ ho.1)
  refine h hnone o ⟨ho.1, fun hb => ?_⟩
  have howns := ho.2 hb
  unfold View.Owns at howns ⊢
  rwa [View.client_set, if_neg hne] at howns

theorem attended_seatAckDisableClient (hwf : (s.view none).WF) (hreal : (s.view none).VtsReal)
    (hc : c ∈ s.seat.clients) (hok : (seatAckDisableClient k s c).1 = true)
    (hsends : SendsSucceed ((seatAckDisableClient k s c).2.view none).log)
    (hopens : s.seat.vtBound = true → TerminalsOpen (seatAckDisableClient k s c).2.trace) :
    ((seatAckDisableClient k s c).2.view none).Attended := by
  unfold seatAckDisableClient at hok hsends hopens ⊢
  by_cases hst : (s.clients c).state = pendingDisable
  · rw [if_neg (not_not.mpr hst)] at hsends hopens ⊢
    have hactive : s.seat.activeClient = some c := hwf.only c hc (Or.inr hst)
    have hcur : ¬ (s.setState c disabled).seat.activeClient ≠ some c := not_not.mpr hactive
    dsimp only at hsends hopens ⊢
    rw [if_neg hcur] at hsends hopens ⊢
    refine attended_seatActivate k _ rfl (fun o ho => ?_) (fun n hn => (hwf.next n hn).1)
      (fun o ho => ?_) hreal hsends hopens
    · -- the others were not active, and this one is disabled now
      by_cases hoc : o = c
      · right
        simp [hoc, Server.setSeat, Server.setState, Server.setClient]
      · have hopenable : (s.clients o).state = new ∨ (s.clients o).state = disabled := by
          refine hwf.openable_of_ne ho ?_
          rw [show (s.view none).seat.activeClient = some c from hactive]
          exact fun heq => hoc (Option.some.inj heq).symm
        simpa [Server.setSeat, Server.setState, Server.setClient, Function.update_apply, hoc]
          using hopenable
    · have hsession : (s.clients o).session ≠ -1 := (hwf.onSeat o ho).2.2
      by_cases hoc : o = c
      · subst hoc
        simpa [Server.setSeat, Server.setState, Server.setClient] using hsession
      · simpa [Server.setSeat, Server.setState, Server.setClient, Function.update_apply, hoc]
          using hsession
  · rw [if_pos hst] at hok
    cases hok

/-- The end of `seat_remove_client`: the VT is cleaned up and the client closed. -/
theorem view_closeClient (c : ClientId) (wasCurrent : Bool) (x : Option ClientId) :
    ((seatCleanVt k s c wasCurrent).setClient c
        { (seatCleanVt k s c wasCurrent).clients c with state := closed, seat := false }).view x
      = (s.view x).set c { (s.view x).client c with state := closed, seat := false } := by
  have hclient : ((seatCleanVt k s c wasCurrent).clients c).view = (s.clients c).view :=
    congrArg (fun v : View => v.client c) (view_seatCleanVt k s x c wasCurrent)
  rw [view_setClient, view_seatCleanVt]
  exact congrArg (View.set _ c) (congrArg (fun cl : ClientView =>
    { cl with state := closed, seat := false }) hclient)

/-- `seat_remove_client` of a client that holds the seat: another one is looked for. -/
theorem seatRemoveClient_eq_current {s2 : Server}
    (hcur : (seatStripClient k s c).seat.activeClient = some c)
    (hs2 : s2 = (seatActivate k ((seatStripClient k s c).setSeat
      { (seatStripClient k s c).seat with activeClient := none })).2) :
    seatRemoveClient k s c = (seatCleanVt k s2 c true).setClient c
      { (seatCleanVt k s2 c true).clients c with state := closed, seat := false } := by
  unfold seatRemoveClient
  simp only [hcur, decide_true, if_true, hs2]

/-- `seat_remove_client` of a client that does not hold the seat. -/
theorem seatRemoveClient_eq_other (hother : (seatStripClient k s c).seat.activeClient ≠ some c) :
    seatRemoveClient k s c = (seatCleanVt k (seatStripClient k s c) c false).setClient c
      { (seatCleanVt k (seatStripClient k s c) c false).clients c with
        state := closed, seat := false } := by
  unfold seatRemoveClient
  simp only [hother, decide_false, if_false, Bool.false_eq_true]

theorem seatRemoveClient_current {s2 : Server}
    (hcur : (seatStripClient k s c).seat.activeClient = some c)
    (hs2 : s2 = (seatActivate k ((seatStripClient k s c).setSeat
      { (seatStripClient k s c).seat with activeClient := none })).2) :
    (∀ x, (seatRemoveClient k s c).view x
      = (s2.view x).set c { (s2.view x).client c with state := closed, seat := false })
    ∧ s2.trace ⊆ (seatRemoveClient k s c).trace := by
  rw [seatRemoveClient_eq_current k s hcur hs2]
  refine ⟨fun x => view_closeClient k s2 c true x, ?_⟩
  obtain ⟨calls, htrace, -⟩ := (calls_seatCleanVt k s2 c true).trace
  show s2.trace ⊆ (seatCleanVt k s2 c true).trace
  rw [htrace]
  exact List.subset_append_right _ _

theorem seatRemoveClient_other (hother : (seatStripClient k s c).seat.activeClient ≠ some c)
    (x : Option ClientId) :
    (seatRemoveClient k s c).view x = ((seatStripClient k s c).view x).set c
      { ((seatStripClient k s c).view x).client c with state := closed, seat := false } := by
  rw [seatRemoveClient_eq_other k s hother]
  exact view_closeClient k _ c false x

/-- The removal of the active client. -/
theorem attended_seatRemoveClient (hwf : (s.view none).WF) (hreal : (s.view none).VtsReal)
    (hcur : s.seat.activeClient = some c)
    (hsends : SendsSucceed ((seatRemoveClient k s c).view none).log)
    (hopens : s.seat.vtBound = true → TerminalsOpen (seatRemoveClient k s c).trace) :
    ((seatRemoveClient k s c).view none).Attended := by
  have hc : c ∈ s.seat.clients := (hwf.active c hcur).1.resolve_right (fun h => by cases h)
  obtain ⟨hstrip, -, -, hactive⟩ := seatStripClient_path k s hc
  have hseat := seatStripClient_seat k s c
  set s1 := seatStripClient k s c with hs1
  have hwf1 : (s1.view (some c)).WF := hwf.path hstrip
  have hoff : c ∉ s1.seat.clients := (hwf1.leaving_off c rfl).2
  have hcur1 : s1.seat.activeClient = some c := hactive.trans hcur
  obtain ⟨hview, hsub⟩ := seatRemoveClient_current k s hcur1 rfl
  set s1' := s1.setSeat { s1.seat with activeClient := none } with hs1'
  have hreal1 : (s1'.view none).VtsReal := fun g hg => by
    have hg' : g ∈ s1.seat.groupVts := hg
    rw [hseat] at hg'
    exact hreal g (List.mem_of_mem_filter hg')
  have hsends1 : SendsSucceed ((seatActivate k s1').2.view none).log := by
    rw [hview] at hsends
    exact hsends
  have hattended : ((seatActivate k s1').2.view none).Attended := by
    refine attended_seatActivate k s1' rfl (fun o ho => ?_) (fun n hn => (hwf1.next n hn).1)
      (fun o ho => (hwf1.onSeat o ho).2.2) hreal1 hsends1 fun hb => ?_
    · refine hwf1.openable_of_ne ho ?_
      rw [show (s1.view (some c)).seat.activeClient = some c from hcur1]
      exact fun heq => hoff ((Option.some.inj heq) ▸ ho)
    · have hb' : s1.seat.vtBound = true := hb
      rw [hseat] at hb'
      exact (hopens hb').mono hsub
  have hoff2 : c ∉ (seatActivate k s1').2.seat.clients := by
    have hopen := seatActivate_path k s1' none rfl (fun n hn => (hwf1.next n hn).1) hwf1.nextVt
    have hkeep : ((seatActivate k s1').2.view none).seat.clients = s1.seat.clients := by
      refine Path.invariant (I := fun v : View => v.seat.clients = s1.seat.clients) ?_ hopen rfl
      rintro a u u' ha ⟨evs, -, -, -, rfl⟩ hu
      cases a <;> first | exact hu | exact False.elim ha
    exact fun hmem => hoff (hkeep ▸ hmem)
  rw [hview]
  exact hattended.close hoff2 _

/-- The transition takes the seat from nobody. -/
def Act.KeepsActive : Act → Prop
  | .acked _ | .vacate _ => False
  | _ => True

/-- Whoever is active stays so. -/
theorem active_of_keeps (hP : ∀ a, P a → a.KeepsActive) (hp : Act.Path k P v v')
    (hv : v.seat.activeClient ≠ none) : v'.seat.activeClient ≠ none := by
  refine Path.invariant (I := fun u : View => u.seat.activeClient ≠ none) ?_ hp hv
  rintro a u u' ha ⟨evs, -, -, -, rfl⟩ hu
  cases a with
  | acked c => exact False.elim (hP _ ha)
  | vacate c => exact False.elim (hP _ ha)
  | opened c => exact Option.some_ne_none c
  | _ => exact hu

/-- A VT event. -/
theorem attended_seatHandleVtEvent (hwf : (s.view none).WF) (hreal : (s.view none).VtsReal)
    {oldVt newVt : Int}
    (hsends : SendsSucceed ((seatHandleVtEvent k s oldVt newVt).view none).log)
    (hopens : s.seat.vtBound = true → TerminalsOpen (seatHandleVtEvent k s oldVt newVt).trace) :
    ((seatHandleVtEvent k s oldVt newVt).view none).Attended := by
  cases ha : s.seat.activeClient with
  | some a =>
      have hpath : Act.Path k Act.KeepsActive (s.view none)
          ((seatHandleVtEvent k s oldVt newVt).view none) :=
        seatHandleVtEvent_path k s trivial (fun _ _ _ => trivial) (fun _ _ => trivial)
          (fun a ha => by cases a <;> trivial) hwf
      have hactive : (s.view none).seat.activeClient ≠ none := by
        show s.seat.activeClient ≠ none
        rw [ha]
        exact Option.some_ne_none a
      exact fun hnone => absurd hnone (active_of_keeps k (fun _ => id) hpath hactive)
  | none =>
      have hview := view_seatNoteVt k s none oldVt newVt
      rw [seatHandleVtEvent_none k s ha] at hsends hopens ⊢
      set s2 := seatNoteVt k s oldVt newVt
      have hactive : s2.seat.activeClient = none := (congrArg (·.seat.activeClient) hview).trans ha
      have hwf2 : (s2.view none).WF := by
        rw [hview]
        exact (hwf.trans (Act.Trans.silent (k := k) (a := .vtEvent newVt) trivial (fun _ => rfl) rfl))
      refine attended_seatActivate k s2 hactive (fun o ho => hwf2.openable hactive ho)
        (fun n hn => (hwf2.next n hn).1) (fun o ho => (hwf2.onSeat o ho).2.2) ?_ hsends fun hb => ?_
      · rw [hview]
        exact hreal
      · exact hopens ((congrArg (·.seat.vtBound) hview).symm.trans hb)

theorem active_seatOpenClient (hactive : s.seat.activeClient ≠ none) :
    (seatOpenClient k s c).2.seat.activeClient ≠ none := by
  unfold seatOpenClient
  rw [if_pos hactive]
  split_ifs <;> exact hactive

/-- A client that has opened the seat finds somebody active, in the end itself. -/
theorem active_handleOpenSeat (hwf : (s.view none).WF) (hlive : c ∈ s.live)
    (hok : (handleOpenSeat k s c).1 = true)
    (hsends : SendsSucceed ((handleOpenSeat k s c).2.view none).log)
    (hopens : s.seat.vtBound = true → TerminalsOpen (handleOpenSeat k s c).2.trace) :
    (handleOpenSeat k s c).2.seat.activeClient ≠ none := by
  rcases seatAddClient_cases k s hwf hlive with ⟨hfail, -⟩ | ⟨hadded, s1, n, hpath, hjoin, -⟩
  · unfold handleOpenSeat at hok
    dsimp only at hok
    rw [if_neg (ne_true_of_eq_false hfail)] at hok
    exact absurd hok (ne_true_of_eq_false hfail)
  have hput := view_clientPutMsg k (seatAddClient k s c).2 none c (m := .seatOpened SEAT0) rfl
  have hwf2 : ((clientPutMsg k (seatAddClient k s c).2 c (.seatOpened SEAT0)).2.view none).WF :=
    hput ▸ (hwf.path hpath).trans hjoin
  obtain ⟨evs, -, -, -, hview⟩ := hjoin
  rw [← hput] at hview
  unfold handleOpenSeat at hok hsends hopens ⊢
  dsimp only at hok hsends hopens ⊢
  rw [if_pos hadded] at hok hsends hopens ⊢
  set r := clientPutMsg k (seatAddClient k s c).2 c (.seatOpened SEAT0) with hr
  have hb : r.2.seat.vtBound = s.seat.vtBound := by
    exact (congrArg (·.seat.vtBound) hview).trans (vtBound_of_path hpath)
  have hsent : r.1 = true := by
    by_contra hfail
    rw [if_neg hfail] at hok
    exact hfail hok
  rw [if_pos hsent] at hsends hopens ⊢
  by_cases hactive : r.2.seat.activeClient = none
  · have hmem : c ∈ r.2.seat.clients := by
      rw [show r.2.seat.clients = c :: s1.seat.clients from congrArg (·.seat.clients) hview]
      exact List.mem_cons_self
    have hopened := seatOpenClient_succeeds k r.2 hactive (hwf2.openable hactive hmem) hsends
      fun hb2 => hopens (hb ▸ hb2)
    rw [hopened.seat]
    exact Option.some_ne_none c
  · exact active_seatOpenClient k r.2 hactive

/-! ## Seats without VTs -/

/-- If a client with the property is on the seat, somebody is active. -/
def View.Occupied (v : View) (Q : ClientId → Prop) : Prop :=
  ∀ c ∈ v.seat.clients, Q c → v.seat.activeClient ≠ none

theorem View.Occupied.of_attended {v : View} (h : v.Attended) (hb : v.seat.vtBound = false) :
    v.Occupied fun _ => True := by
  intro c hc _ hnone
  refine h hnone c ⟨hc, fun hb' => ?_⟩
  rw [hb] at hb'
  cases hb'

theorem View.Occupied.mono {v : View} {Q Q' : ClientId → Prop} (h : v.Occupied Q)
    (hQ : ∀ c ∈ v.seat.clients, Q' c → Q c) : v.Occupied Q' :=
  fun c hc hc' => h c hc (hQ c hc hc')

/-- The transition lets no client with the property join. -/
def Act.JoinsNo (Q : ClientId → Prop) : Act → Prop
  | .join c _ => ¬ Q c
  | _ => True

theorem View.Occupied.path {Q : ClientId → Prop} (hP : ∀ a, P a → a.KeepsActive ∧ a.JoinsNo Q)
    (hp : Act.Path k P v v') (h : v.Occupied Q) : v'.Occupied Q := by
  refine Path.invariant (I := fun u : View => u.Occupied Q) ?_ hp h
  rintro a u u' ha ⟨evs, -, -, -, rfl⟩ hu
  obtain ⟨hkeeps, hjoins⟩ := hP a ha
  cases a with
  | acked c => cases hkeeps
  | vacate c => cases hkeeps
  | opened c => exact fun _ _ _ => Option.some_ne_none c
  | join c n =>
      intro o ho hQ
      rcases List.mem_cons.mp ho with rfl | ho
      · exact absurd hQ hjoins
      · exact hu o ho hQ
  | detach c => exact fun o ho hQ => hu o (List.mem_of_mem_erase ho) hQ
  | _ => exact hu

/-- Removing a client, if somebody was active on behalf of the others. -/
theorem occupied_seatRemoveClient (hwf : (s.view none).WF) (hreal : (s.view none).VtsReal)
    (hb : s.seat.vtBound = false) (hc : c ∈ s.seat.clients) (h : (s.view none).Occupied (· ≠ c))
    (hsends : SendsSucceed ((seatRemoveClient k s c).view none).log) :
    ((seatRemoveClient k s c).view none).Occupied fun _ => True := by
  obtain ⟨hpath, -, -⟩ := seatRemoveClient_path k s hwf hc
  by_cases hcur : s.seat.activeClient = some c
  · refine .of_attended (attended_seatRemoveClient k s hwf hreal hcur hsends fun hb' => ?_) ?_
    · rw [hb] at hb'
      cases hb'
    · exact (vtBound_of_path hpath).trans hb
  · have hseat := seatStripClient_seat k s c
    have hother : (seatStripClient k s c).seat.activeClient ≠ some c := by
      rw [hseat]
      exact hcur
    rw [seatRemoveClient_other k s hother]
    intro o ho _
    have ho' : o ∈ (seatStripClient k s c).seat.clients := ho
    show (seatStripClient k s c).seat.activeClient ≠ none
    rw [hseat] at ho' ⊢
    have hne : o ≠ c := fun heq => (hwf.clientsNodup.not_mem_erase) (heq ▸ ho')
    exact h o (List.mem_of_mem_erase ho') hne

theorem occupied_clientDestroy (hwf : (s.view none).WF) (hreal : (s.view none).VtsReal)
    (hb : s.seat.vtBound = false) (hlive : c ∈ s.live) (h : (s.view none).Occupied (· ≠ c))
    (hsends : SendsSucceed ((clientDestroy k s c).view none).log) :
    ((clientDestroy k s c).view none).Occupied fun _ => True := by
  cases hseat : (s.clients c).seat with
  | true =>
      have hview : ((clientDestroy k s c).view none).seat = ((seatRemoveClient k s c).view none).seat
          ∧ ((clientDestroy k s c).view none).log = ((seatRemoveClient k s c).view none).log := by
        unfold clientDestroy
        dsimp only
        rw [view_record_quiet _ none rfl, view_setConnection, if_pos hseat]
        exact ⟨rfl, rfl⟩
      have hremoved := occupied_seatRemoveClient k s hwf hreal hb (mem_of_seat s hwf hlive hseat) h
        (hview.2 ▸ hsends)
      unfold View.Occupied at hremoved ⊢
      rw [hview.1]
      exact hremoved
  | false =>
      have hview : ((clientDestroy k s c).view none).seat = s.seat := by
        unfold clientDestroy
        dsimp only
        rw [view_record_quiet _ none rfl, view_setConnection, if_neg (ne_true_of_eq_false hseat)]
        rfl
      have hoff := hwf.idle_off c (mem_idle_of_seat s hwf hlive hseat)
      intro o ho _
      rw [hview] at ho ⊢
      exact h o ho fun heq => hoff (heq ▸ ho)

/-- Requests that neither let a client join nor make one give up the seat. -/
def Request.StaysPut : Request → Prop
  | .openSeat | .closeSeat | .disableSeat => False
  | _ => True

theorem Request.Allows.staysPut {r : Request} (hr : r.StaysPut) (ha : r.Allows k s c a)
    (Q : ClientId → Prop) : a.KeepsActive ∧ a.JoinsNo Q := by
  cases a with
  | acked o | vacate o | join o n => rw [ha.1] at hr; cases hr
  | _ => exact ⟨trivial, trivial⟩

/-- What a request leaves behind: if its handler fails, the client is about to be destroyed. -/
theorem occupied_handleRequest (hwf : (s.view none).WF) (hreal : (s.view none).VtsReal)
    (hb : s.seat.vtBound = false) (hlive : c ∈ s.live) (r : Request)
    (h : (s.view none).Occupied fun _ => True)
    (hsends : SendsSucceed ((handleRequest k s c r).2.view none).log) :
    ((handleRequest k s c r).2.view none).Occupied (· ≠ c)
    ∧ ((handleRequest k s c r).1 = true →
      ((handleRequest k s c r).2.view none).Occupied fun _ => True) := by
  have hnot : ∀ {P : Prop}, s.seat.vtBound = true → P := fun hb' => by
    rw [hb] at hb'
    cases hb'
  have hweak : ∀ {v : View}, (v.Occupied fun _ => True) → v.Occupied (· ≠ c) := fun hv =>
    hv.mono fun _ _ _ => trivial
  have hput : r.StaysPut → ((handleRequest k s c r).2.view none).Occupied fun _ => True := fun hr =>
    h.path k (fun a ha => ha.staysPut k s hr _) (handleRequest_path k s hwf hlive r)
  cases r with
  | openSeat =>
      refine ⟨?_, fun hok o _ _ => active_handleOpenSeat k s hwf hlive hok hsends hnot⟩
      refine (hweak h).path k ?_ (handleRequest_path k s hwf hlive .openSeat)
      intro a ha
      cases a with
      | acked o => cases ha.1
      | vacate o => cases ha.1
      | join o n => exact ⟨trivial, fun hne => hne ha.2.1⟩
      | _ => exact ⟨trivial, trivial⟩
  | closeSeat =>
      suffices hres : ((handleCloseSeat k s c).2.view none).Occupied fun _ => True from
        ⟨hweak hres, fun _ => hres⟩
      have hsends' : SendsSucceed ((handleCloseSeat k s c).2.view none).log := hsends
      unfold handleCloseSeat at hsends' ⊢
      by_cases hseat : (s.clients c).seat = false
      · rw [if_pos hseat]
        exact h
      · rw [if_neg hseat] at hsends' ⊢
        dsimp only at hsends' ⊢
        rw [view_clientPutMsg k _ none c rfl] at hsends' ⊢
        exact occupied_seatRemoveClient k s hwf hreal hb
          (mem_of_seat s hwf hlive (by simpa using hseat)) (hweak h) hsends'
  | disableSeat =>
      suffices hres : ((handleDisableSeat k s c).2.view none).Occupied fun _ => True from
        ⟨hweak hres, fun _ => hres⟩
      cases hseat : (s.clients c).seat with
      | false =>
          unfold handleDisableSeat
          rw [if_pos hseat]
          exact h
      | true =>
          have hc := mem_of_seat s hwf hlive hseat
          have hview := view_handleDisableSeat k s hseat
          have hsends' : SendsSucceed ((handleDisableSeat k s c).2.view none).log := hsends
          rw [hview] at hsends' ⊢
          by_cases hst : (s.clients c).state = pendingDisable
          · have hok : (seatAckDisableClient k s c).1 = true := by
              unfold seatAckDisableClient
              rw [if_neg (not_not.mpr hst)]
              dsimp only
              split_ifs <;> rfl
            have hpath : Act.Path k (fun _ => True) (s.view none)
                ((seatAckDisableClient k s c).2.view none) :=
              seatAckDisableClient_path k s trivial (fun _ _ _ _ => trivial) hwf hc
            exact .of_attended (attended_seatAckDisableClient k s hwf hreal hc hok hsends' hnot)
              ((vtBound_of_path hpath).trans hb)
          · -- an ack that is refused changes nothing
            unfold seatAckDisableClient
            rw [if_pos hst]
            exact h
  | openDevice path | closeDevice id | switchSession session | ping =>
      exact ⟨hweak (hput trivial), fun _ => hput trivial⟩

theorem occupied_clientHandleRequest (hwf : (s.view none).WF) (hreal : (s.view none).VtsReal)
    (hb : s.seat.vtBound = false) (hlive : c ∈ s.live) (r : Request)
    (h : (s.view none).Occupied fun _ => True)
    (hsends : SendsSucceed ((clientHandleRequest k s c r).view none).log) :
    ((clientHandleRequest k s c r).view none).Occupied fun _ => True := by
  have hpath := handleRequest_path k s hwf hlive r
  have hallows : ∀ a, r.Allows k s c a → Step.Allows k s (.request c r) a := fun _ => Or.inl
  have hreal' := hreal.path (fun a ha => (hallows a ha).realVts) hpath
  rcases clientHandleRequest_cases k s c r with ⟨hok, hsame⟩ | ⟨s', hs', heq, -⟩
  · rw [hsame] at hsends ⊢
    exact (occupied_handleRequest k s hwf hreal hb hlive r h hsends).2 hok
  · have hlive' := live_of_handleRequest k s hwf hlive r hs'
    rw [← hs'] at hpath hreal'
    have hwf' := hwf.path hpath
    rw [heq] at hsends ⊢
    -- what was sent before the client was destroyed
    have hbefore : SendsSucceed ((handleRequest k s c r).2.view none).log := by
      rw [← hs']
      exact hsends.mono (log_suffix_of_path (clientDestroy_path k s' hwf' hlive')).subset
    have hbut := (occupied_handleRequest k s hwf hreal hb hlive r h hbefore).1
    rw [← hs'] at hbut
    exact occupied_clientDestroy k s' hwf' hreal' ((vtBound_of_path hpath).trans hb) hlive' hbut
      hsends

theorem occupied_clientHandleWritable (hwf : (s.view none).WF) (hreal : (s.view none).VtsReal)
    (hb : s.seat.vtBound = false) (hlive : c ∈ s.live) (h : (s.view none).Occupied fun _ => True)
    (hsends : SendsSucceed ((clientHandleWritable k s c).view none).log) :
    ((clientHandleWritable k s c).view none).Occupied fun _ => True := by
  rcases clientHandleWritable_cases k s c with hsame | ⟨s', hs', heq, -⟩
  · rw [hsame]
    exact h
  · have hlive' : c ∈ s'.live := by
      rw [show s'.live = s.live from congrArg View.live hs']
      exact hlive
    have hb' : s'.seat.vtBound = false := (congrArg (·.seat.vtBound) hs').trans hb
    rw [heq] at hsends ⊢
    rw [← hs'] at hwf hreal h
    exact occupied_clientDestroy k s' hwf hreal hb' hlive' (h.mono fun _ _ _ => trivial) hsends

/-- Steps that are not about one client. -/
theorem Step.Allows.staysPut {st : Step} (hst : st.client = none) (ha : st.Allows k s a)
    (Q : ClientId → Prop) : a.KeepsActive ∧ a.JoinsNo Q := by
  cases st <;> cases hst
  all_goals cases a <;> first
    | exact ⟨trivial, trivial⟩
    | simp [Step.Allows, ControlRequest.Allows, Act.Frees, Act.Opens] at ha

/-- **On a seat without VTs, every step leaves somebody active** if there are clients. -/
theorem occupied_step (hwf : (s.view none).WF) (hreal : (s.view none).VtsReal)
    (hb : s.seat.vtBound = false) (h : (s.view none).Occupied fun _ => True) (st : Step)
    (hsends : SendsSucceed ((step k s st).view none).log) :
    ((step k s st).view none).Occupied fun _ => True := by
  cases hclient : st.client with
  | none => exact h.path k (fun a ha => ha.staysPut k s hclient _) (step_path k s hwf st)
  | some c =>
      unfold step at hsends ⊢
      split_ifs at hsends ⊢ with hgone
      · exact h
      have hlive := (here_of_made hgone).1 c hclient
      cases st with
      | request o r =>
          cases hclient
          exact occupied_clientHandleRequest k s hwf hreal hb hlive r h hsends
      | writable o =>
          cases hclient
          exact occupied_clientHandleWritable k s hwf hreal hb hlive h hsends
      | disconnect o =>
          cases hclient
          exact occupied_clientDestroy k s hwf hreal hb hlive (h.mono fun _ _ _ => trivial) hsends
      | _ => cases hclient

end

/-! ## Runs -/

theorem vtsReal_step {k : Kernel} {s : Server} (hwf : (s.view none).WF)
    (h : (s.view none).VtsReal) (st : Step) : ((step k s st).view none).VtsReal :=
  h.path (fun _ ha => ha.realVts) (step_path k s hwf st)

/-- The states in which the daemon calls the functions of the seat: between two steps, and when it
is about to destroy a client, after the handler of a request or a flush. -/
inductive Reached (k : Kernel) (vtBound : Bool) : Server → Prop where
  | idle (steps : List Step) : Reached k vtBound (run k vtBound steps)
  | handled (steps : List Step) {c : ClientId} (hlive : c ∈ (run k vtBound steps).live)
      (r : Request) : Reached k vtBound (handleRequest k (run k vtBound steps) c r).2
  | unflushed (steps : List Step) {c : ClientId} (hlive : c ∈ (run k vtBound steps).live)
      (r : Request) :
      Reached k vtBound (clientFlush k (handleRequest k (run k vtBound steps) c r).2 c).2
  | unwritable (steps : List Step) (c : ClientId) :
      Reached k vtBound ((run k vtBound steps).flush k (.client c)).2

theorem vtsReal_run (k : Kernel) (vtBound : Bool) (steps : List Step) :
    ((run k vtBound steps).view none).WF ∧ ((run k vtBound steps).view none).VtsReal :=
  Run.run_invariant (P := fun s : Server => (s.view none).WF ∧ (s.view none).VtsReal)
    (fun s st h => ⟨h.1.path (step_path k s h.1 st), vtsReal_step h.1 h.2 st⟩)
    ⟨wf_init vtBound, fun _ hg => absurd hg List.not_mem_nil⟩ steps

theorem Reached.wf {k : Kernel} {vtBound : Bool} {s : Server} (h : Reached k vtBound s) :
    (s.view none).WF ∧ (s.view none).VtsReal ∧ s.seat.vtBound = vtBound := by
  have hidle : ∀ steps, ((run k vtBound steps).view none).WF
      ∧ ((run k vtBound steps).view none).VtsReal
      ∧ ((run k vtBound steps).view none).seat.vtBound = vtBound := fun steps =>
    ⟨(vtsReal_run k vtBound steps).1, (vtsReal_run k vtBound steps).2, vtBound_run k vtBound steps⟩
  have hhandled : ∀ steps c, c ∈ (run k vtBound steps).live → ∀ r,
      ((handleRequest k (run k vtBound steps) c r).2.view none).WF
      ∧ ((handleRequest k (run k vtBound steps) c r).2.view none).VtsReal
      ∧ ((handleRequest k (run k vtBound steps) c r).2.view none).seat.vtBound = vtBound := by
    intro steps c hlive r
    obtain ⟨hwf, hreal, hb⟩ := hidle steps
    have hpath := handleRequest_path k (run k vtBound steps) hwf hlive r
    have hallows : ∀ a, r.Allows k (run k vtBound steps) c a →
        Step.Allows k (run k vtBound steps) (.request c r) a := fun _ => Or.inl
    exact ⟨hwf.path hpath, hreal.path (fun a ha => (hallows a ha).realVts) hpath,
      (vtBound_of_path hpath).trans hb⟩
  show (s.view none).WF ∧ (s.view none).VtsReal ∧ (s.view none).seat.vtBound = vtBound
  cases h with
  | idle steps => exact hidle steps
  | handled steps hlive r => exact hhandled steps _ hlive r
  | unflushed steps hlive r =>
      rw [view_clientFlush]
      exact hhandled steps _ hlive r
  | unwritable steps c =>
      rw [view_flush]
      exact hidle steps

/-- Nobody is active only if no client on the seat owns the current VT. -/
def Server.FindsOwner (s : Server) : Prop :=
  s.seat.activeClient = none → ∀ c ∈ s.seat.clients, clientOwnsVt s c s.seat.curVt = false

instance (s : Server) : Decidable s.FindsOwner :=
  inferInstanceAs (Decidable (_ → _))

theorem View.Attended.findsOwner {s : Server} (h : (s.view none).Attended) : s.FindsOwner := by
  intro hnone c hc
  by_contra howns
  refine h hnone c ⟨hc, fun _ => ?_⟩
  exact (clientOwnsVt_iff s none c s.seat.curVt).mp (Bool.eq_true_of_not_eq_false howns)

/-- **No seat is left without an active client while one is eligible**, if all sends and all
openings of ttys succeed: a seat without VTs that has clients has an active one, and a seat with
VTs has one if a client owns the current VT, right after a client has opened the seat or
acknowledged its disable, the active client was removed, or a VT event was handled. -/
theorem eligible_client_active (k : Kernel) :
    (∀ steps, SendsSucceed (run k false steps).trace → (run k false steps).seat.clients ≠ [] →
      (run k false steps).seat.activeClient ≠ none)
    ∧ ∀ s, Reached k true s →
      (∀ c ∈ s.live, ∀ s', handleOpenSeat k s c = (true, s') →
        SendsSucceed s'.trace → TerminalsOpen s'.trace → s'.FindsOwner)
      ∧ (∀ c ∈ s.seat.clients, ∀ s', seatAckDisableClient k s c = (true, s') →
        SendsSucceed s'.trace → TerminalsOpen s'.trace → s'.FindsOwner)
      ∧ (∀ c, s.seat.activeClient = some c → SendsSucceed (seatRemoveClient k s c).trace →
        TerminalsOpen (seatRemoveClient k s c).trace → (seatRemoveClient k s c).FindsOwner)
      ∧ ∀ oldVt newVt, SendsSucceed (seatHandleVtEvent k s oldVt newVt).trace →
        TerminalsOpen (seatHandleVtEvent k s oldVt newVt).trace →
        (seatHandleVtEvent k s oldVt newVt).FindsOwner := by
  constructor
  · intro steps hsends hclients
    -- while the sends have succeeded, there has been an active client whenever there were clients
    have hinv : ∀ steps, SendsSucceed ((run k false steps).view none).log →
        ((run k false steps).view none).Occupied fun _ => True := by
      intro steps
      induction steps using List.reverseRecOn with
      | nil => exact fun _ c hc => absurd hc List.not_mem_nil
      | append_singleton steps st ih =>
          have hrun : run k false (steps ++ [st]) = step k (run k false steps) st :=
            Run.run_append (serverInit false) steps [st]
          obtain ⟨hwf, hreal⟩ := vtsReal_run k false steps
          rw [hrun]
          intro hlog
          have hbefore := hlog.mono (log_suffix_of_path (step_path k _ hwf st)).subset
          exact occupied_step k _ hwf hreal (vtBound_run k false steps) (ih hbefore) st hlog
    obtain ⟨c, hc⟩ := List.exists_mem_of_ne_nil _ hclients
    exact hinv steps (hsends.log none) c hc trivial
  · intro s hs
    obtain ⟨hwf, hreal, -⟩ := hs.wf
    refine ⟨fun c hlive s' heq hsends hopens => ?_, fun c hc s' heq hsends hopens => ?_,
      fun c hcur hsends hopens => ?_, fun oldVt newVt hsends hopens => ?_⟩
    · have hactive := active_handleOpenSeat k s hwf hlive (by rw [heq])
        (by rw [heq]; exact hsends.log none) (fun _ => by rw [heq]; exact hopens)
      rw [heq] at hactive
      exact fun hnone => absurd hnone hactive
    · have hattended := attended_seatAckDisableClient k s hwf hreal hc (by rw [heq])
        (by rw [heq]; exact hsends.log none) (fun _ => by rw [heq]; exact hopens)
      rw [heq] at hattended
      exact hattended.findsOwner
    · exact (attended_seatRemoveClient k s hwf hreal hcur (hsends.log none)
        fun _ => hopens).findsOwner
    · exact (attended_seatHandleVtEvent k s hwf hreal (hsends.log none) fun _ => hopens).findsOwner

/-- Two clients of a seat without VTs, of which the first leaves; and a client on VT 1 that gave up
the seat and is switched back to. -/
theorem eligible_client_active_two :
    (run (.obliging 1) false [.connect 7, .connect 8, .request 0 .openSeat, .request 1 .openSeat,
      .disconnect 0]).seat.activeClient ≠ none
    ∧ (seatHandleVtEvent (.obliging 1) (run (.obliging 1) true
      [.connect 7, .request 0 .openSeat, .vtEvent 1 2, .request 0 .disableSeat]) 2 1).FindsOwner := by
  constructor
  · exact (eligible_client_active (.obliging 1)).1 _ (by decide +kernel) (by decide +kernel)
  · exact ((eligible_client_active (.obliging 1)).2 _ (.idle _)).2.2.2 2 1 (by decide +kernel)
      (by decide +kernel)

end DdeSeatd
