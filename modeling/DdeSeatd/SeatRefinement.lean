import DdeSeatd.Transitions

set_option autoImplicit false

/-! # The seat functions run along the seat machine

Every function of `seatd/seat.c` that moves clients, sessions or devices takes the view along
a path of the machine. The lemmas say which transitions the path uses; that is all the later
files need to know about the functions.
-/

namespace DdeSeatd

open Labelled ClientState

/-- A path of the seat machine. -/
abbrev Act.Path (k : Kernel) (P : Act → Prop) : View → View → Prop := Labelled.Path (Act.Trans k) P

theorem View.WF.path {k : Kernel} {P : Act → Prop} {v v' : View} (h : v.WF)
    (hp : Act.Path k P v v') : v'.WF :=
  Path.invariant (I := View.WF) (fun _ _ _ _ ht hv => hv.trans ht) hp h

/-- A transition that records nothing. -/
theorem Act.Trans.silent {k : Kernel} {a : Act} {v : View} (hg : a.Guard k v [])
    (hf : a.frame []) (hq : a.fds = []) : a.Trans k v (a.effect v) :=
  ⟨[], hg, hf, hq.symm, rfl⟩

/-- Transitions on the way to the seat of a client that satisfies `Q`. -/
def Act.Opens (Q : ClientId → Prop) : Act → Prop
  | .opened o | .openFailed o _ => Q o
  | _ => False

/-- Transitions that close devices of `c`. -/
def Act.Closes (c : ClientId) : Act → Prop
  | .adjust o _ | .closeDevice o _ => o = c
  | _ => False

/-- Transitions of the first part of `seat_remove_client`. -/
def Act.Strips (c : ClientId) : Act → Prop
  | .detach o | .adjust o _ | .closeDevice o _ => o = c
  | .removeGroup g => g.owner = c
  | _ => False

/-- Transitions by which `c` leaves the seat; if it was the current client, another one takes
its place. -/
def Act.Removes (c : ClientId) (current : Prop) : Act → Prop
  | .detach o | .vacate o | .retire o | .adjust o _ | .closeDevice o _ => o = c
  | .removeGroup g => g.owner = c
  | .opened o | .openFailed o _ => current ∧ o ≠ c
  | _ => False

theorem Act.Opens.mono {Q Q' : ClientId → Prop} (hQ : ∀ o, Q o → Q' o) {a : Act}
    (h : a.Opens Q) : a.Opens Q' := by
  cases a <;> first | exact hQ _ h | cases h

theorem Act.Opens.removes {Q : ClientId → Prop} {c : ClientId} {current : Prop} (hcur : current)
    (hQ : ∀ o, Q o → o ≠ c) {a : Act} (h : a.Opens Q) : a.Removes c current := by
  cases a <;> first | exact ⟨hcur, hQ _ h⟩ | cases h

theorem Act.Closes.strips {c : ClientId} {a : Act} (h : a.Closes c) : a.Strips c := by
  cases a <;> trivial

theorem Act.Strips.removes {c : ClientId} {current : Prop} {a : Act} (h : a.Strips c) :
    a.Removes c current := by
  cases a <;> trivial

theorem Act.Removes.imp {c : ClientId} {current current' : Prop} (hcur : current → current')
    {a : Act} (h : a.Removes c current) : a.Removes c current' := by
  cases a <;> first | exact h | exact ⟨hcur h.1, h.2⟩

theorem session_of_path {k : Kernel} {P : Act → Prop}
    (hP : ∀ a, P a → a ≠ .create ∧ ∀ c n, a ≠ .join c n) {v v' : View} (hp : Act.Path k P v v')
    (o : ClientId) : (v'.client o).session = (v.client o).session :=
  Path.invariant (I := fun u : View => (u.client o).session = (v.client o).session)
    (fun a _ _ ha ht hu => (ht.session (hP a ha).1 (hP a ha).2 o).trans hu) hp rfl

theorem session_of_opens {k : Kernel} {Q : ClientId → Prop} {v v' : View}
    (hp : Act.Path k (Act.Opens Q) v v') (o : ClientId) :
    (v'.client o).session = (v.client o).session :=
  session_of_path (fun a ha => by cases a <;> simp_all [Act.Opens]) hp o

/-- Unlinking a client changes neither its state nor its session. -/
theorem client_of_strips {k : Kernel} {c : ClientId} {v v' : View}
    (hp : Act.Path k (Act.Strips c) v v') (o : ClientId) :
    (v'.client o).state = (v.client o).state ∧ (v'.client o).session = (v.client o).session
      ∧ (v'.client o).seat = (v.client o).seat := by
  refine Path.invariant (I := fun u : View => (u.client o).state = (v.client o).state
    ∧ (u.client o).session = (v.client o).session ∧ (u.client o).seat = (v.client o).seat)
    ?_ hp ⟨rfl, rfl, rfl⟩
  rintro a u u' ha ⟨evs, -, -, -, rfl⟩ hu
  cases a with
  | adjust c' ds | closeDevice c' i =>
      by_cases ho : o = c'
      · subst ho
        simpa [Act.effect, View.push] using hu
      · simpa [Act.effect, View.push, ho] using hu
  | detach c' | removeGroup g => exact hu
  | _ => cases ha

/-! ## Views -/

theorem View.setDevices_setState (v : View) (c : ClientId) (ds : List SeatDevice)
    (st : ClientState) :
    (v.setDevices c ds).setState c st = v.set c { v.client c with state := st, devices := ds } := by
  simp [View.setDevices, View.setState, View.set]

theorem View.setDevices_setDevices (v : View) (c : ClientId) (ds ds' : List SeatDevice) :
    (v.setDevices c ds).setDevices c ds' = v.setDevices c ds' := by
  simp [View.setDevices, View.set]

theorem clientOwnsVt_iff (s : Server) (x : Option ClientId) (c : ClientId) (vt : Int) :
    clientOwnsVt s c vt = true ↔ (s.view x).Owns c vt := by
  unfold clientOwnsVt View.Owns
  show _ ↔ (s.clients c).session = vt ∨ (s.clients c).seat = true
    ∧ ∃ g, seatFindGroupVt s.seat vt = some g ∧ g.owner = c
  by_cases hsession : (s.clients c).session = vt
  · simp [hsession]
  · cases hseat : (s.clients c).seat with
    | false => simp [hsession]
    | true => cases hfind : seatFindGroupVt s.seat vt <;> simp [hsession]

/-! ## Opening a client -/

section

variable (k : Kernel) (s : Server) (x : Option ClientId) {c : ClientId} {d : SeatDevice}

theorem seatFrames_frame (c o : ClientId) {m : ServerMsg} (h : m.isSeatEvent = true)
    (evs : List Event) :
    seatFrames o (.frame c m true :: evs) = if o = c then m :: seatFrames o evs
      else seatFrames o evs := by
  by_cases ho : o = c
  · simp [seatFrames, ho, h]
  · simp [seatFrames, ho, Ne.symm ho]

theorem seatRollBack_view (c : ClientId) (openVt : Int) :
    ∃ evs ds, Quiet evs ∧ List.Forall₂ (Down k evs) (s.clients c).devices ds
      ∧ (seatRollBack k s c openVt).view x = ((s.view x).setDevices c ds).push evs := by
  obtain ⟨evs, ds, hq, hdown, hview⟩ := view_seatDeactivateDevices k s x c
  refine ⟨evs, ds, hq, hdown, ?_⟩
  unfold seatRollBack
  dsimp only
  split_ifs
  · rw [view_vtClose, hview]
  · exact hview

theorem seatEnableClient_path (openVt : Int) (hc : c ∈ s.seat.clients)
    (hst : (s.clients c).state = .new ∨ (s.clients c).state = .disabled)
    (hactive : s.seat.activeClient = none) (hnext : s.seat.nextClient = none)
    (howns : s.seat.vtBound = true → (s.view x).Owns c s.seat.curVt) :
    Act.Path k (Act.Opens (· = c)) (s.view x) ((seatEnableClient k s c openVt).2.view x) := by
  set s1 := seatActivateDevices k s c with hs1
  have hview1 : s1.view x = (s.view x).setDevices c ((s.clients c).devices.map SeatDevice.up) :=
    view_seatActivateDevices k s x c
  have hdown : ∀ {evs ds es}, (clientSendEnableSeat k s1 c).2.view x = (s1.view x).push es →
      List.Forall₂ (Down k evs) ((clientSendEnableSeat k s1 c).2.clients c).devices ds →
      List.Forall₂ (Down k (evs ++ es)) ((s.clients c).devices.map SeatDevice.up) ds := by
    intro evs ds es hsent hall
    have hdevs : ((clientSendEnableSeat k s1 c).2.clients c).devices
        = (s.clients c).devices.map SeatDevice.up := by
      show (((clientSendEnableSeat k s1 c).2.view x).client c).devices = _
      rw [hsent, hview1]
      simp [View.push]
    rw [← hdevs]
    exact hall.imp fun _ _ h => h.mono (List.subset_append_left _ _)
  unfold seatEnableClient
  dsimp only
  obtain ⟨evs, ds, hq, hall, hback⟩ :=
    seatRollBack_view k (clientSendEnableSeat k s1 c).2 x c openVt
  have houtcome := view_clientSendEvent k s1 x c (m := .enableSeat) rfl
  rw [← clientSendEnableSeat] at houtcome
  rcases houtcome with ⟨hok, hsent⟩ | ⟨hok, hsent⟩ | ⟨hok, hsent⟩
  · rw [if_pos hok]
    refine .single (.opened c) rfl
      ⟨[.frame c .enableSeat true], ⟨hc, hst, hactive, hnext, howns⟩, fun o => ?_, rfl, ?_⟩
    · rw [seatFrames_frame c o rfl]
      rfl
    · have hseat : (clientSendEnableSeat k s1 c).2.seat = s.seat := by
        have := congrArg View.seat hsent
        rw [hview1] at this
        exact this
      show (((clientSendEnableSeat k s1 c).2.setState c .active).setSeat _).view x = _
      rw [view_setSeat, view_setState, hsent, hview1]
      show (((((s.view x).setDevices c _).setState c .active).push _).setSeat
        { (clientSendEnableSeat k s1 c).2.seat with activeClient := some c }) = _
      rw [hseat, View.setDevices_setState]
      rfl
  -- the two failures differ in whether the frame stays in the ring
  · rw [if_neg (ne_true_of_eq_false hok)]
    refine .single (.openFailed c ds) rfl
      ⟨evs ++ [.unflushed c .enableSeat, .frame c .enableSeat true],
        ⟨hc, hst, hactive, hnext, hdown hsent hall⟩, Or.inr ⟨by simp, fun o => ?_⟩, ?_, ?_⟩
    · rw [seatFrames_append, hq.1, List.nil_append]
      show seatFrames o [.frame c .enableSeat true] = _
      rw [seatFrames_frame c o rfl]
      rfl
    · rw [queuedFds_append, hq.2]
      rfl
    · rw [hback, hsent, hview1, View.push_setDevices, View.push_push,
        View.setDevices_setDevices]
      rfl
  · rw [if_neg (ne_true_of_eq_false hok)]
    refine .single (.openFailed c ds) rfl
      ⟨evs ++ [.frame c .enableSeat false],
        ⟨hc, hst, hactive, hnext, hdown hsent hall⟩, Or.inl fun o => ?_, ?_, ?_⟩
    · rw [seatFrames_append, hq.1]
      rfl
    · rw [queuedFds_append, hq.2]
      rfl
    · rw [hback, hsent, hview1, View.push_setDevices, View.push_push,
        View.setDevices_setDevices]
      rfl

theorem seatOpenClient_path (hc : c ∈ s.seat.clients)
    (hnext : s.seat.activeClient = none → s.seat.nextClient = none)
    (howns : s.seat.vtBound = true → (s.view x).Owns c s.seat.curVt) :
    Act.Path k (Act.Opens (· = c)) (s.view x) ((seatOpenClient k s c).2.view x) := by
  unfold seatOpenClient
  by_cases hst : (s.clients c).state ≠ .new ∧ (s.clients c).state ≠ .disabled
  · rw [if_pos hst]
    exact .refl _
  rw [if_neg hst]
  by_cases hactive : s.seat.activeClient ≠ none
  · rw [if_pos hactive]
    exact .refl _
  rw [if_neg hactive]
  dsimp only
  generalize vtForClientOpen s c = openVt
  -- the VT, if there is one, is configured first
  obtain ⟨v, hv, hview⟩ : ∃ v : Bool × Server,
      (if s.seat.vtBound = true then vtOpen k s openVt else (true, s)) = v
        ∧ v.2.view x = s.view x := by
    refine ⟨_, rfl, ?_⟩
    split_ifs <;> simp
  have hseat : v.2.seat = s.seat := congrArg View.seat hview
  have hstate : (v.2.clients c).state = (s.clients c).state :=
    congrArg (fun u => (View.client u c).state) hview
  rw [hv, ← hview]
  by_cases hopen : v.1 = true
  · rw [if_pos hopen]
    have hactive' : s.seat.activeClient = none := by simpa using hactive
    refine seatEnableClient_path k v.2 x openVt (hseat ▸ hc) ?_ (hseat ▸ hactive')
      (hseat ▸ hnext hactive') ?_
    · rw [hstate]
      by_contra hno
      exact hst (not_or.mp hno)
    · rw [hseat, hview]
      exact howns
  · rw [if_neg hopen]
    exact .refl _

/-- The client that `seat_activate` picks is queued, or on the seat. -/
theorem mem_of_seatActivateTarget {x : ClientId} (h : seatActivateTarget s = some x) :
    x ∈ s.seat.clients ∨ s.seat.nextClient = some x := by
  unfold seatActivateTarget at h
  split at h
  · next n hn =>
      cases h
      exact .inr hn
  · split_ifs at h
    · exact .inl (List.mem_of_find?_eq_some h)
    · exact .inl (List.mem_of_mem_head? h)

/-- `seat_activate`, called when nobody is active: the queued client is taken off the queue
and opened, or the client that owns the current VT, or the first. -/
theorem seatActivate_path (hactive : s.seat.activeClient = none)
    (hnext : ∀ n, s.seat.nextClient = some n → n ∈ s.seat.clients)
    (hvt : s.seat.vtBound = true → s.seat.nextClient = none) :
    Act.Path k (Act.Opens (· ∈ s.seat.clients)) ((s.view x).setSeat { s.seat with nextClient := none })
      ((seatActivate k s).2.view x) := by
  unfold seatActivate
  rw [if_neg (by simp [hactive])]
  cases htarget : seatActivateTarget s with
  | none =>
      have hnone : s.seat.nextClient = none := by
        unfold seatActivateTarget at htarget
        split at htarget
        · cases htarget
        · assumption
      have : (s.view x).setSeat { s.seat with nextClient := none } = s.view x := by
        rw [← hnone]
        rfl
      rw [this]
      exact .refl _
  | some c =>
      have hc : c ∈ s.seat.clients ∧ (s.seat.vtBound = true → (s.view x).Owns c s.seat.curVt) := by
        unfold seatActivateTarget at htarget
        split at htarget
        · next n hn =>
            cases htarget
            refine ⟨hnext c hn, fun hb => ?_⟩
            rw [hvt hb] at hn
            cases hn
        · split_ifs at htarget with hb hcur
          · refine ⟨List.mem_of_find?_eq_some htarget, fun _ => ?_⟩
            exact (clientOwnsVt_iff s x c _).mp (by simpa using List.find?_some htarget)
          · exact ⟨List.mem_of_mem_head? (by simp [htarget]), fun hb' => absurd hb' hb⟩
      exact (seatOpenClient_path k (s.setSeat { s.seat with nextClient := none }) x hc.1
        (fun _ => rfl) hc.2).mono fun _ => Act.Opens.mono fun _ ho => ho ▸ hc.1

/-- `seat_activate`, called when nobody is active or queued. -/
theorem seatActivate_path_unqueued (hactive : s.seat.activeClient = none)
    (hnext : s.seat.nextClient = none) :
    Act.Path k (Act.Opens (· ∈ s.seat.clients)) (s.view x) ((seatActivate k s).2.view x) := by
  have hsame : s.view x = (s.view x).setSeat { s.seat with nextClient := none } := by
    rw [← hnext]
    rfl
  rw [hsame]
  refine seatActivate_path k s x hactive (fun n hn => ?_) fun _ => hnext
  rw [hnext] at hn
  cases hn

/-! ## Disabling a client -/

/-- `seat_disable_client` after `next_client` has been set to `next`. -/
theorem seatDisableClient_trans (next : Option ClientId) (hactive : s.seat.activeClient = some c)
    (hst : (s.clients c).state = .active)
    (hnext : next = s.seat.nextClient
      ∨ s.seat.vtBound = false ∧ ∃ t ∈ s.seat.clients, t ≠ c ∧ next = some t) :
    ∃ ds, (Act.disabled c ds next).Trans k (s.view x)
      ((seatDisableClient k (s.setSeat { s.seat with nextClient := next }) c).2.view x) := by
  set s1 := s.setSeat { s.seat with nextClient := next } with hs1
  obtain ⟨evs, ds, hq, hdown, hview⟩ := view_seatDeactivateDevices k s1 x c
  set s2 := (seatDeactivateDevices k s1 c).setState c .pendingDisable with hs2
  have hview2 : s2.view x = ((Act.disabled c ds next).effect (s.view x)).push evs := by
    rw [hs2, view_setState, hview]
    show (((s1.view x).setDevices c ds).setState c .pendingDisable).push evs = _
    rw [View.setDevices_setState]
    rfl
  have hres : seatDisableClient k s1 c = clientSendEvent k s2 c .disableSeat := by
    unfold seatDisableClient
    rw [if_neg (by simpa [hs1, Server.setSeat] using hst)]
    rfl
  have hguard : ∀ evs', evs ⊆ evs' → (Act.disabled c ds next).Guard k (s.view x) evs' :=
    fun evs' hsub => ⟨hactive, hst, hdown.imp fun _ _ h => h.mono hsub, hnext⟩
  rw [hres]
  refine ⟨ds, ?_⟩
  rcases view_clientSendEvent k s2 x c (m := .disableSeat) rfl with
    ⟨-, hsent⟩ | ⟨-, hsent⟩ | ⟨-, hsent⟩
  · refine ⟨[.frame c .disableSeat true] ++ evs, hguard _ (List.subset_append_right _ _),
      Or.inr fun o => ?_, ?_, ?_⟩
    · rw [List.singleton_append, seatFrames_frame c o rfl, hq.1]
    · rw [queuedFds_append, hq.2]
      rfl
    · rw [hsent, hview2, View.push_push]
  · refine ⟨[.unflushed c .disableSeat, .frame c .disableSeat true] ++ evs,
      hguard _ (List.subset_append_right _ _), Or.inr fun o => ?_, ?_, ?_⟩
    · show seatFrames o (.frame c .disableSeat true :: evs) = _
      rw [seatFrames_frame c o rfl, hq.1]
    · rw [queuedFds_append, hq.2]
      rfl
    · rw [hsent, hview2, View.push_push]
  · refine ⟨[.frame c .disableSeat false] ++ evs, hguard _ (List.subset_append_right _ _),
      Or.inl ⟨by simp, fun o => ?_⟩, ?_, ?_⟩
    · rw [seatFrames_append, hq.1]
      rfl
    · rw [queuedFds_append, hq.2]
      rfl
    · rw [hsent, hview2, View.push_push]

theorem seatAckDisableClient_path {P : Act → Prop} (hacked : P (.acked c))
    (hopens : s.seat.activeClient = some c → (s.clients c).state = .pendingDisable →
      ∀ a, a.Opens (· ∈ s.seat.clients) → P a) (h : (s.view none).WF) (hc : c ∈ s.seat.clients) :
    Act.Path k P (s.view none) ((seatAckDisableClient k s c).2.view none) := by
  unfold seatAckDisableClient
  by_cases hst : (s.clients c).state ≠ .pendingDisable
  · rw [if_pos hst]
    exact .refl _
  rw [if_neg hst]
  have hst' : (s.clients c).state = .pendingDisable := by simpa using hst
  have hactive : s.seat.activeClient = some c := h.only c hc (Or.inr hst')
  rw [if_neg (show ¬ (s.setState c .disabled).seat.activeClient ≠ some c by
    simpa [Server.setState, Server.setClient] using hactive)]
  set s1 := (s.setState c .disabled).setSeat { s.seat with activeClient := none } with hs1
  have hview1 : s1.view none = ((s.view none).setState c .disabled).setSeat
      { s.seat with activeClient := none } := by
    rw [hs1, view_setSeat, view_setState]
  have hack : (Act.acked c).Trans k (s.view none)
      ((s1.view none).setSeat { s1.seat with nextClient := none }) := by
    rw [hview1]
    exact Act.Trans.silent ⟨hactive, hst'⟩ (fun _ => rfl) rfl
  refine .head (.acked c) hacked hack ?_
  exact (seatActivate_path k s1 none rfl (fun n hn => (h.next n hn).1) h.nextVt).mono
    (hopens hactive hst')

/-! ## Closing devices -/

/-- A reference less. -/
theorem view_seatCloseDevice_unref {i : Nat} (hd : (s.clients c).devices[i]? = some d)
    (href : 0 < d.refCnt - 1) :
    (seatCloseDevice k s c i).view x = (s.view x).setDevices c
      ((s.clients c).devices.modify i fun d => { d with refCnt := d.refCnt - 1 }) := by
  unfold seatCloseDevice
  rw [hd]
  dsimp only
  rw [if_pos href, view_setDevices]

/-- The last reference. -/
theorem view_seatCloseDevice_last {i : Nat} (hd : (s.clients c).devices[i]? = some d)
    (href : ¬ 0 < d.refCnt - 1) :
    ∃ evs d', Quiet evs ∧ Down k evs d d' ∧ (seatCloseDevice k s c i).view x
      = ((s.view x).setDevices c ((s.clients c).devices.eraseIdx i)).push evs := by
  obtain ⟨evs, hq, hdown, hview⟩ := seatDeactivateDevice_down k
    (s.setDevices c ((s.clients c).devices.eraseIdx i)) x d
  refine ⟨evs, _, hq, hdown, ?_⟩
  unfold seatCloseDevice
  rw [hd]
  dsimp only
  rw [if_neg href, view_setErrno, view_sys k _ x rfl, hview, view_setDevices]

theorem seatCloseDevice_path (hc : c ∈ s.seat.clients ∨ x = some c) (i : Nat) :
    Act.Path k (Act.Closes c) (s.view x) ((seatCloseDevice k s c i).view x) := by
  cases hd : (s.clients c).devices[i]? with
  | none =>
      unfold seatCloseDevice
      rw [hd]
      exact .refl _
  | some d =>
      by_cases href : 0 < d.refCnt - 1
      · rw [view_seatCloseDevice_unref k s x hd href]
        refine .single (.adjust c _) rfl (Act.Trans.silent ⟨hc, ?_⟩ (fun _ => rfl) rfl)
        refine ListRel.forall₂_modify ?_ ?_ (s.clients c).devices i <;> exact fun _ => rfl
      · obtain ⟨evs, d', hq, hdown, hview⟩ := view_seatCloseDevice_last k s x hd href
        rw [hview]
        exact .single (.closeDevice c i) rfl ⟨evs, ⟨hc, d, d', hd, hdown⟩, hq.1, hq.2, rfl⟩

/-- Closing devices of a client changes nothing else. -/
theorem seat_of_closes {v v' : View} (hp : Act.Path k (Act.Closes c) v v') :
    v'.seat = v.seat ∧ (v'.client c).state = (v.client c).state
      ∧ (v'.client c).session = (v.client c).session := by
  refine Path.invariant (I := fun u => u.seat = v.seat ∧ (u.client c).state = (v.client c).state
    ∧ (u.client c).session = (v.client c).session) ?_ hp ⟨rfl, rfl, rfl⟩
  rintro a u u' ha ⟨evs, -, -, -, rfl⟩ hu
  cases a <;> cases ha
  all_goals
    refine ⟨hu.1, ?_, ?_⟩
    all_goals simp only [Act.effect, View.push, View.client_setDevices, if_pos]
    · exact hu.2.1
    · exact hu.2.2

theorem seatCloseDevices_path (hc : c ∈ s.seat.clients ∨ x = some c) (fuel : Nat) :
    Act.Path k (Act.Closes c) (s.view x) ((seatCloseDevices k c fuel s).view x) := by
  induction fuel generalizing s with
  | zero => exact .refl _
  | succ fuel ih =>
      unfold seatCloseDevices
      split_ifs
      · exact .refl _
      · have hp := seatCloseDevice_path k s x hc 0
        refine hp.trans (ih _ ?_)
        rwa [show (seatCloseDevice k s c 0).seat = s.seat from (seat_of_closes k hp).1]

/-- Closing the first device drops a reference. -/
theorem closeRounds_seatCloseDevice {ds : List SeatDevice} (hds : (s.clients c).devices = d :: ds) :
    closeRounds ((seatCloseDevice k s c 0).clients c).devices
      < closeRounds (s.clients c).devices := by
  have hd : (s.clients c).devices[0]? = some d := by rw [hds]; rfl
  have hview : ∀ {v : View}, (seatCloseDevice k s c 0).view none = v →
      ((seatCloseDevice k s c 0).clients c).devices = (v.client c).devices := by
    rintro v rfl
    rfl
  by_cases href : 0 < d.refCnt - 1
  · rw [hview (view_seatCloseDevice_unref k s none hd href), hds]
    simp only [View.client_setDevices, if_pos, List.modify_zero_cons, closeRounds, List.map_cons,
      List.sum_cons]
    omega
  · obtain ⟨evs, d', -, -, hv⟩ := view_seatCloseDevice_last k s none hd href
    rw [hview hv, hds]
    simp only [View.push, View.client_setDevices, if_pos, List.eraseIdx_zero, List.tail_cons,
      closeRounds, List.map_cons, List.sum_cons]
    omega

/-- The close loop ends with no device left. -/
theorem seatCloseDevices_empty (fuel : Nat) (hfuel : closeRounds (s.clients c).devices ≤ fuel) :
    ((seatCloseDevices k c fuel s).clients c).devices = [] := by
  induction fuel generalizing s with
  | zero =>
      cases hds : (s.clients c).devices with
      | nil => exact hds
      | cons d ds =>
          rw [hds] at hfuel
          simp [closeRounds] at hfuel
  | succ fuel ih =>
      unfold seatCloseDevices
      split_ifs with hnil
      · exact hnil
      · obtain ⟨d, ds, hds⟩ := List.exists_cons_of_ne_nil hnil
        have := closeRounds_seatCloseDevice k s hds
        exact ih _ (by omega)

/-! ## Removing a client -/

/-- The loop over the group VTs removes those of the client. -/
theorem seatRemoveGroupVts_path (gs kept : List GroupVt) (hall : s.seat.groupVts = kept ++ gs)
    (hkept : ∀ g ∈ kept, g.owner ≠ c) :
    Act.Path k (Act.Strips c) (s.view (some c))
      ((seatRemoveGroupVts k c s gs).view (some c))
    ∧ (seatRemoveGroupVts k c s gs).view (some c) = (s.view (some c)).setSeat
        { s.seat with groupVts := kept ++ gs.filter fun g => g.owner ≠ c } := by
  induction gs generalizing s kept with
  | nil =>
      refine ⟨.refl _, ?_⟩
      rw [List.append_nil] at hall
      simp only [seatRemoveGroupVts, List.filter_nil, List.append_nil, ← hall]
      rfl
  | cons g gs ih =>
      by_cases hg : g.owner = c
      · set s1 := s.setSeat { s.seat with groupVts := s.seat.groupVts.erase g } with hs1
        set s2 := if s1.seat.vtBound = true then (vtClose k s1 g.vt).2 else s1 with hs2
        have hview2 : s2.view (some c) = s1.view (some c) := by
          rw [hs2]
          split_ifs <;> simp
        have herase : s.seat.groupVts.erase g = kept ++ gs := by
          rw [hall, List.erase_append_right _ fun hmem => hkept g hmem hg, List.erase_cons_head]
        have hseat2 : s2.seat = { s.seat with groupVts := kept ++ gs } := by
          have := congrArg View.seat hview2
          rw [← herase]
          exact this
        have hres : seatRemoveGroupVts k c s (g :: gs) = seatRemoveGroupVts k c s2 gs := by
          simp only [seatRemoveGroupVts, if_pos hg]
          rfl
        obtain ⟨hpath, hview⟩ := ih s2 kept (by rw [hseat2]) hkept
        rw [hres]
        constructor
        · have htrans : (Act.removeGroup g).Trans k (s.view (some c)) (s1.view (some c)) := by
            refine Act.Trans.silent ⟨?_, by rw [hg]; rfl⟩ (fun _ => rfl) rfl
            rw [show (s.view (some c)).seat.groupVts = kept ++ g :: gs from hall]
            simp
          refine .head (.removeGroup g) hg htrans ?_
          rw [← hview2]
          exact hpath
        · rw [hview, hview2, hseat2, List.filter_cons_of_neg (by simpa using hg)]
          rfl
      · have hres : seatRemoveGroupVts k c s (g :: gs) = seatRemoveGroupVts k c s gs := by
          simp only [seatRemoveGroupVts, if_neg hg]
        obtain ⟨hpath, hview⟩ := ih s (kept ++ [g]) (by rw [hall]; simp) (by
          intro g' hg'
          rcases List.mem_append.mp hg' with h | h
          · exact hkept g' h
          · rw [List.mem_singleton.mp h]
            exact hg)
        rw [hres]
        refine ⟨hpath, ?_⟩
        rw [hview, List.filter_cons_of_pos (by simpa using hg), List.append_assoc]
        rfl

theorem seatStripClient_path (hc : c ∈ s.seat.clients) :
    Act.Path k (Act.Strips c) (s.view none) ((seatStripClient k s c).view (some c))
    ∧ ((seatStripClient k s c).clients c).devices = []
    ∧ (∀ g ∈ (seatStripClient k s c).seat.groupVts, g.owner ≠ c)
    ∧ (seatStripClient k s c).seat.activeClient = s.seat.activeClient := by
  set s1 := s.setSeat { s.seat with
    nextClient := if s.seat.nextClient = some c then none else s.seat.nextClient,
    clients := s.seat.clients.erase c } with hs1
  have hdetach : (Act.detach c).Trans k (s.view none) (s1.view (some c)) :=
    Act.Trans.silent ⟨rfl, hc⟩ (fun _ => rfl) rfl
  set s2 := seatCloseDevices k c (closeRounds (s1.clients c).devices) s1 with hs2
  have hclose := seatCloseDevices_path k s1 (some c) (Or.inr rfl)
    (closeRounds (s1.clients c).devices)
  have hempty : (s2.clients c).devices = [] := seatCloseDevices_empty k s1 _ le_rfl
  have hseat2 : s2.seat = s1.seat := (seat_of_closes k hclose).1
  obtain ⟨hgroups, hview⟩ := seatRemoveGroupVts_path k s2 (c := c) s2.seat.groupVts [] rfl
    (fun _ h => by cases h)
  refine ⟨?_, ?_, ?_, ?_⟩
  · exact .head (.detach c) rfl hdetach
      ((hclose.mono fun _ => Act.Closes.strips).trans hgroups)
  · show (((seatRemoveGroupVts k c s2 s2.seat.groupVts).view (some c)).client c).devices = []
    rw [hview]
    exact hempty
  · intro g hg
    have : g ∈ ((seatRemoveGroupVts k c s2 s2.seat.groupVts).view (some c)).seat.groupVts := hg
    rw [hview] at this
    exact by simpa using (List.mem_filter.mp this).2
  · show ((seatRemoveGroupVts k c s2 s2.seat.groupVts).view (some c)).seat.activeClient = _
    rw [hview]
    show s2.seat.activeClient = _
    rw [hseat2]
    rfl

/-- What `seat_remove_client` does to the seat before it looks for another client. -/
theorem seatStripClient_seat (c : ClientId) :
    (seatStripClient k s c).seat = { s.seat with
      nextClient := if s.seat.nextClient = some c then none else s.seat.nextClient,
      clients := s.seat.clients.erase c,
      groupVts := s.seat.groupVts.filter fun g => g.owner ≠ c } := by
  set s1 := s.setSeat { s.seat with
    nextClient := if s.seat.nextClient = some c then none else s.seat.nextClient,
    clients := s.seat.clients.erase c } with hs1
  set s2 := seatCloseDevices k c (closeRounds (s1.clients c).devices) s1 with hs2
  have hclose := seatCloseDevices_path k s1 (some c) (Or.inr rfl)
    (closeRounds (s1.clients c).devices)
  have hseat : s2.seat = s1.seat := (seat_of_closes k hclose).1
  obtain ⟨-, hview⟩ := seatRemoveGroupVts_path k s2 (c := c) s2.seat.groupVts [] rfl
    (fun _ h => by cases h)
  show ((seatRemoveGroupVts k c s2 s2.seat.groupVts).view (some c)).seat = _
  rw [hview]
  show ({ s2.seat with groupVts := _ } : Seat) = _
  rw [hseat]
  rfl

/-- The client has nothing left that `seat_remove_client` takes away. -/
def View.Stripped (v : View) (c : ClientId) : Prop :=
  v.leaving = some c ∧ c ∉ v.seat.clients ∧ (v.client c).devices = []
    ∧ (∀ g ∈ v.seat.groupVts, g.owner ≠ c) ∧ v.seat.activeClient ≠ some c

/-- Opening another client does not give it anything back. -/
theorem View.Stripped.opens {Q : ClientId → Prop} {v v' : View} (h : v.Stripped c)
    (hp : Act.Path k (Act.Opens Q) v v') : v'.Stripped c := by
  refine Path.invariant (I := fun u => u.Stripped c) ?_ hp h
  rintro a u u' ha ⟨evs, hg, -, -, rfl⟩ ⟨hleave, hoff, hds, hgroups, hactive⟩
  have hne : ∀ {o}, o ∈ u.seat.clients → c ≠ o := fun ho h => hoff (h ▸ ho)
  cases a <;> first | exact False.elim ha | skip
  case opened o =>
    refine ⟨hleave, hoff, ?_, hgroups, ?_⟩
    · simpa [Act.effect, View.push, View.setSeat, View.set, hne hg.1] using hds
    · simpa [Act.effect, View.push, View.setSeat] using (hne hg.1).symm
  case openFailed o ds =>
    refine ⟨hleave, hoff, ?_, hgroups, hactive⟩
    simpa [Act.effect, View.push, View.setDevices, View.set, hne hg.1] using hds

theorem view_seatCleanVt (c : ClientId) (wasCurrent : Bool) :
    (seatCleanVt k s c wasCurrent).view x = s.view x := by
  unfold seatCleanVt
  split_ifs <;> simp

/-- **`seat_remove_client`** takes the client off the seat; it is then closed and on no list. -/
theorem seatRemoveClient_path (h : (s.view none).WF) (hc : c ∈ s.seat.clients) :
    Act.Path k (Act.Removes c (s.seat.activeClient = some c)) (s.view none)
      ((seatRemoveClient k s c).view (some c))
    ∧ ((seatRemoveClient k s c).clients c).state = .closed
    ∧ ((seatRemoveClient k s c).clients c).seat = false := by
  obtain ⟨hstrip, hds, hgroups, hactive⟩ := seatStripClient_path k s hc
  set s1 := seatStripClient k s c with hs1
  have hwf1 : (s1.view (some c)).WF := h.path hstrip
  set wasCurrent : Bool := decide (s1.seat.activeClient = some c) with hwas
  set s2 := if wasCurrent = true then
      (seatActivate k (s1.setSeat { s1.seat with activeClient := none })).2
    else s1 with hs2
  -- the seat is handed over, if the client held it
  have hover : Act.Path k (Act.Removes c (s.seat.activeClient = some c)) (s1.view (some c))
      (s2.view (some c)) ∧ (s2.view (some c)).Stripped c := by
    have hoff : c ∉ s1.seat.clients := (hwf1.leaving_off c rfl).2
    by_cases hcur : s1.seat.activeClient = some c
    · rw [hs2, if_pos (by simpa [hwas] using hcur)]
      have hvacate : (Act.vacate c).Trans k (s1.view (some c))
          ((s1.view (some c)).setSeat { s1.seat with activeClient := none, nextClient := none }) :=
        Act.Trans.silent ⟨rfl, hcur, hds⟩ (fun _ => rfl) rfl
      have hother : ∀ o ∈ s1.seat.clients, o ≠ c := fun o ho heq => hoff (heq ▸ ho)
      have hopen := seatActivate_path k (s1.setSeat { s1.seat with activeClient := none }) (some c)
        rfl (fun n hn => (hwf1.next n hn).1) hwf1.nextVt
      refine ⟨.head (.vacate c) rfl hvacate (hopen.mono fun _ ha => ha.removes
        (hactive.symm.trans hcur) hother), ?_⟩
      exact View.Stripped.opens k ⟨rfl, hoff, hds, hgroups, Option.some_ne_none c |>.symm⟩ hopen
    · rw [hs2, if_neg (by simpa [hwas] using hcur)]
      exact ⟨.refl _, rfl, hoff, hds, hgroups, hcur⟩
  have hclean := view_seatCleanVt k s2 (some c) c wasCurrent
  set s3 := seatCleanVt k s2 c wasCurrent with hs3
  have hres : seatRemoveClient k s c
      = s3.setClient c { s3.clients c with state := .closed, seat := false } := rfl
  rw [hres]
  have hremoves : Act.Path k (Act.Removes c (s.seat.activeClient = some c)) (s.view none)
      (s1.view (some c)) := hstrip.mono fun _ => Act.Strips.removes
  refine ⟨(hremoves.trans hover.1).tail (.retire c) rfl ?_, ?_, ?_⟩
  · rw [view_setClient, ← hclean]
    obtain ⟨hleave, -, hds3, hgroups3, hactive3⟩ := hclean ▸ hover.2
    exact Act.Trans.silent ⟨hleave, hactive3, hds3, hgroups3⟩ (fun _ => rfl) rfl
  · simp [Server.setClient]
  · simp [Server.setClient]

/-! ## Switching -/

section

variable {P : Act → Prop}

theorem seatUpdateVt_path (hP : P (.setVt (seatUpdateVt k s).2.seat.curVt)) :
    Act.Path k P (s.view x) ((seatUpdateVt k s).2.view x) := by
  rcases view_seatUpdateVt k s x with h | ⟨n, hn, hret, h⟩
  · rw [h]
    exact .refl _
  · have hcur : (seatUpdateVt k s).2.seat.curVt = n := congrArg (·.seat.curVt) h
    rw [hcur] at hP
    rw [h]
    exact .single (.setVt n) hP (Act.Trans.silent ⟨hn, hret⟩ (fun _ => rfl) rfl)

theorem seatRequestVt_path {vt : Int} (hP : ∀ n, n = vt ∨ n = 0 → P (.setPending n))
    (hb : s.seat.vtBound = true) :
    Act.Path k P (s.view x) ((seatRequestVt k s vt).2.view x) := by
  set s1 := s.setSeat { s.seat with pendingVtSwitch := vt } with hs1
  have hview := view_vtSwitch k s1 x vt
  have hseat : (vtSwitch k s1 vt).2.seat = s1.seat := congrArg View.seat hview
  have hset : (Act.setPending vt).Trans k (s.view x) (s1.view x) :=
    Act.Trans.silent hb (fun _ => rfl) rfl
  unfold seatRequestVt
  dsimp only
  split_ifs
  · rw [hview]
    exact .single (.setPending vt) (hP vt (Or.inl rfl)) hset
  · rw [view_setSeat, hview, hseat]
    refine .head (.setPending vt) (hP vt (Or.inl rfl)) hset
      (.single (.setPending 0) (hP 0 (Or.inr rfl)) ?_)
    exact Act.Trans.silent hb (fun _ => rfl) rfl

/-- On a VT-bound seat `seat_set_next_session` only asks for a VT switch. -/
theorem seatSetNextSession_vt (session : Int)
    (hpending : ∀ n, n = session ∨ n = 0 → P (.setPending n)) (hb : s.seat.vtBound = true)
    (c : ClientId) :
    Act.Path k P (s.view x) ((seatSetNextSession k s c session).2.view x) := by
  have hrequest := seatRequestVt_path k s x hpending hb
  unfold seatSetNextSession
  rw [if_pos hb]
  split_ifs
  all_goals first | exact .refl _ | exact hrequest

theorem seatSetNextSession_path {session : Int}
    (hpending : ∀ n, n = session ∨ n = 0 → P (.setPending n))
    (hdisabled : ∀ c ds next, P (.disabled c ds next)) (h : (s.view none).WF) {c : ClientId}
    (hc : c ∈ s.seat.clients) :
    Act.Path k P (s.view none) ((seatSetNextSession k s c session).2.view none) := by
  by_cases hb : s.seat.vtBound = true
  · exact seatSetNextSession_vt k s none session hpending hb c
  unfold seatSetNextSession
  by_cases hst : (s.clients c).state ≠ .active
  · rw [if_pos hst]
    exact .refl _
  rw [if_neg hst, if_neg hb]
  have hst' : (s.clients c).state = .active := by simpa using hst
  have hactive : s.seat.activeClient = some c := h.only c hc (Or.inl hst')
  split_ifs with h1 h2 h3 h4 h5
  · exact .refl _
  · exact .refl _
  · exact .refl _
  · exact .refl _
  · exact .refl _
  · cases hfind : s.seat.clients.find? fun o => (s.clients o).session = session with
    | none => exact .refl _
    | some target =>
        have hmem := List.mem_of_find?_eq_some hfind
        have hsession : (s.clients target).session = session := by
          simpa using List.find?_some hfind
        have hne : target ≠ c := by
          rintro rfl
          exact h3 ⟨hb, hsession.symm⟩
        dsimp only
        rw [show (s.setSeat { s.seat with nextClient := some target }).seat.activeClient = some c
          from hactive]
        obtain ⟨ds, htrans⟩ := seatDisableClient_trans k s none (some target) hactive hst'
          (Or.inr ⟨by simpa using hb, target, hmem, hne, rfl⟩)
        exact .single _ (hdisabled c ds _) htrans

/-! ## VT signals and events -/

theorem seatVtActivate_path (hP : P (.setVt (seatUpdateVt k s).2.seat.curVt)) :
    Act.Path k P (s.view x) ((seatVtActivate k s).2.view x) := by
  unfold seatVtActivate
  split_ifs
  · exact .refl _
  · rw [view_vtAck]
    exact seatUpdateVt_path k s x hP

theorem seatVtRelease_path (hvt : P (.setVt (seatUpdateVt k s).2.seat.curVt))
    (hdrop : ∀ c ds, P (.dropDrm c ds)) :
    Act.Path k P (s.view x) ((seatVtRelease k s).2.view x) := by
  unfold seatVtRelease
  by_cases hb : s.seat.vtBound = false
  · rw [if_pos hb]
    exact .refl _
  rw [if_neg hb]
  dsimp only
  rw [view_vtAck]
  refine (seatUpdateVt_path k s x hvt).trans ?_
  set s1 := (seatUpdateVt k s).2 with hs1
  cases hactive : s1.seat.activeClient with
  | none => exact .refl _
  | some a =>
      dsimp only
      split_ifs with hst hkeep
      · exact .refl _
      · obtain ⟨evs, ds, hq, hdown, hview⟩ := view_seatDropClientDrmMaster k s1 x a
        rw [hview]
        exact .single (.dropDrm a ds) (hdrop a ds)
          ⟨evs, ⟨hactive, hst, hdown⟩, hq.1, hq.2, rfl⟩
      · exact .refl _

/-- What `seat_handle_vt_event` does before it looks at the active client. -/
def seatNoteVt (k : Kernel) (s : Server) (oldVt newVt : Int) : Server :=
  let pending := if 0 < s.seat.pendingVtSwitch then 0 else s.seat.pendingVtSwitch
  let s := s.setSeat { s.seat with pendingVtSwitch := pending, curVt := newVt }
  if s.seat.clients = [] then s else controlBroadcastVtChange k s oldVt newVt

theorem view_seatNoteVt (oldVt newVt : Int) :
    (seatNoteVt k s oldVt newVt).view x = (Act.vtEvent newVt).effect (s.view x) := by
  unfold seatNoteVt
  extract_lets pending seat s1
  split_ifs
  · rfl
  · exact view_controlBroadcastVtChange k s1 x oldVt newVt

theorem clientOwnsVt_vtEvent {s2 : Server} {newVt : Int}
    (hview : s2.view x = (Act.vtEvent newVt).effect (s.view x)) (a : ClientId) (vt : Int) :
    clientOwnsVt s2 a vt = clientOwnsVt s a vt := by
  rw [Bool.eq_iff_iff, clientOwnsVt_iff s2 x, clientOwnsVt_iff s x, hview]
  rfl

/-- What it does then, if nobody is active. -/
theorem seatHandleVtEvent_none (ha : s.seat.activeClient = none) (oldVt newVt : Int) :
    seatHandleVtEvent k s oldVt newVt = (seatActivate k (seatNoteVt k s oldVt newVt)).2 := by
  have hactive : (seatNoteVt k s oldVt newVt).seat.activeClient = none :=
    (congrArg (·.seat.activeClient) (view_seatNoteVt k s none oldVt newVt)).trans ha
  unfold seatHandleVtEvent
  unfold seatNoteVt at hactive ⊢
  dsimp only at hactive ⊢
  rw [hactive]

/-- What it does with the active client. -/
theorem seatHandleVtEvent_some {a : ClientId} (ha : s.seat.activeClient = some a)
    (oldVt newVt : Int) :
    let s2 := seatNoteVt k s oldVt newVt
    seatHandleVtEvent k s oldVt newVt =
      if clientOwnsVt s a newVt then seatRestoreClientDrmMaster k s2 a
      else if (s.clients a).state = .active then (seatDisableClient k s2 a).2 else s2 := by
  have hview := view_seatNoteVt k s none oldVt newVt
  have hactive : (seatNoteVt k s oldVt newVt).seat.activeClient = some a :=
    (congrArg (·.seat.activeClient) hview).trans ha
  have hstate : ((seatNoteVt k s oldVt newVt).clients a).state = (s.clients a).state :=
    congrArg (fun v => (View.client v a).state) hview
  rw [← clientOwnsVt_vtEvent s none hview, ← hstate]
  unfold seatHandleVtEvent
  unfold seatNoteVt at hactive ⊢
  dsimp only at hactive ⊢
  rw [hactive]

/-- A VT event to a VT of the active client gives it DRM master back. -/
theorem view_seatHandleVtEvent_owned {a : ClientId} {newVt : Int}
    (ha : s.seat.activeClient = some a) (hown : clientOwnsVt s a newVt = true) (oldVt : Int) :
    (seatHandleVtEvent k s oldVt newVt).view x = ((Act.vtEvent newVt).effect (s.view x)).setDevices a
      ((s.clients a).devices.map SeatDevice.up) := by
  have hview := view_seatNoteVt k s x oldVt newVt
  have hdevs : ((seatNoteVt k s oldVt newVt).clients a).devices = (s.clients a).devices :=
    congrArg (fun u => (View.client u a).devices) hview
  rw [seatHandleVtEvent_some k s ha, if_pos hown, view_seatRestoreClientDrmMaster, hview, hdevs]

theorem seatHandleVtEvent_path {oldVt newVt : Int} (hvt : P (.vtEvent newVt))
    (hrestore : ∀ a, s.seat.activeClient = some a → clientOwnsVt s a newVt = true →
      P (.restoreDrm a (s.clients a).state))
    (hdisabled : ∀ c ds, P (.disabled c ds s.seat.nextClient))
    (hopens : ∀ a, a.Opens (· ∈ s.seat.clients) → P a) (h : (s.view none).WF) :
    Act.Path k P (s.view none) ((seatHandleVtEvent k s oldVt newVt).view none) := by
  refine .head (.vtEvent newVt) hvt (Act.Trans.silent trivial (fun _ => rfl) rfl) ?_
  have hview := view_seatNoteVt k s none oldVt newVt
  set s2 := seatNoteVt k s oldVt newVt with hs2
  cases ha : s.seat.activeClient with
  | none =>
      have hactive : s2.seat.activeClient = none := (congrArg (·.seat.activeClient) hview).trans ha
      have hnone : s2.seat.nextClient = none :=
        (congrArg (·.seat.nextClient) hview).trans (h.next_none ha)
      rw [seatHandleVtEvent_none k s ha, ← hview, ← hs2]
      have hclients : s2.seat.clients = s.seat.clients := congrArg (·.seat.clients) hview
      refine (seatActivate_path_unqueued k s2 none hactive hnone).mono fun a ha => hopens a ?_
      rwa [hclients] at ha
  | some a =>
      by_cases hown : clientOwnsVt s a newVt = true
      · rw [view_seatHandleVtEvent_owned k s none ha hown]
        exact .single (.restoreDrm a (s.clients a).state) (hrestore a ha hown)
          (Act.Trans.silent ⟨ha, rfl, (clientOwnsVt_iff s none a newVt).mp hown⟩ (fun _ => rfl) rfl)
      · rw [seatHandleVtEvent_some k s ha, ← hview, if_neg hown, ← hs2]
        split_ifs with hst
        · obtain ⟨ds, htrans⟩ := seatDisableClient_trans k s2 none (c := a) _
            ((congrArg (·.seat.activeClient) hview).trans ha)
            ((congrArg (fun v => (View.client v a).state) hview).trans hst) (Or.inl rfl)
          have hnext : s2.seat.nextClient = s.seat.nextClient :=
            congrArg (·.seat.nextClient) hview
          refine .single (.disabled a ds s2.seat.nextClient) ?_ htrans
          rw [hnext]
          exact hdisabled a ds
        · exact .refl _

end

end

end DdeSeatd
