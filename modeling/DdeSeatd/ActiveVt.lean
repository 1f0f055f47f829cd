import DdeSeatd.VtSteps

set_option autoImplicit false

/-! # The VT under the running compositor

While a client is ACTIVE and owns the VT on the screen, that VT should be in graphics mode, or the
text console and the kernel's keyboard come through under the compositor (`Server.Lit`). It is so as
long as all VTs are lit that a client may come to run on: the group VTs, and the sessions of the
clients that have been opened (`Server.Bright`). Opening a client lights the VT on the screen, and
registering a group VT lights it. What goes wrong, and when:

* `vt_close` goes by the number of the VT and not by its owner, so a client that leaves takes VTs it
  shares with others into text mode (`Step.ClosesShared`), and so does a group VT that is destroyed
  while it is the session of a client (`Step.DestroysSession`);
* a client that has to wait for the seat and is opened on a group VT first is never opened on its
  session (`Step.OpensAstray`);
* if a client cannot be told that it is enabled, its VT is closed again (`EnablesSent`).

Every run without these keeps the VT lit (`active_vt_lit`).
-/

namespace DdeSeatd

open ClientState Labelled

/-! ## Running clients -/

/-- The client is ACTIVE and owns the VT on the screen. -/
def Server.Runs (s : Server) (a : ClientId) : Prop :=
  s.seat.activeClient = some a ∧ (s.clients a).state = active
    ∧ clientOwnsVt s a s.seat.curVt = true

/-- The VT on the screen is in graphics mode while a client runs on it. -/
def Server.Lit (s : Server) : Prop :=
  ∀ a ∈ s.seat.activeClient, s.Runs a → s.inGraphics s.seat.curVt = true

instance (s : Server) (a : ClientId) : Decidable (s.Runs a) := inferInstanceAs (Decidable (_ ∧ _))

instance (s : Server) : Decidable s.Lit := inferInstanceAs (Decidable (∀ _ ∈ _, _))

/-- The group VTs are in graphics mode, and so are the sessions of the clients that have been opened
at some time. -/
structure Server.Bright (s : Server) : Prop where
  groups : ∀ g ∈ s.seat.groupVts, s.inGraphics g.vt = true
  sessions : ∀ c ∈ s.seat.clients, (s.clients c).state ≠ new →
    s.inGraphics (s.clients c).session = true

/-- They are, as long as every ENABLE_SEAT was sent. -/
def Server.StaysBright (s : Server) : Prop := EnablesSent (s.view none).log → s.Bright

theorem Server.Bright.lit {s : Server} (h : s.Bright) (hwf : (s.view none).WF) : s.Lit := by
  rintro a - ⟨hactive, hstate, howns⟩
  have hmem : a ∈ s.seat.clients := (hwf.active a hactive).1.resolve_right nofun
  rcases (clientOwnsVt_iff_has hwf hmem _).mp howns with hsession | hgroup
  · rw [← show (s.clients a).session = s.seat.curVt from hsession]
    exact h.sessions a hmem (by simp [hstate])
  · exact h.groups _ hgroup

theorem staysBright_aboutSeat : AboutSeat Server.StaysBright := by
  intro s s' hseat hclient hmodes hlog h hsent
  obtain ⟨hgroups, hsessions⟩ := h (hlog ▸ hsent)
  have hstate : ∀ o, (s'.clients o).state = (s.clients o).state :=
    fun o => congrArg ClientView.state (congrFun hclient o)
  have hsession : ∀ o, (s'.clients o).session = (s.clients o).session :=
    fun o => congrArg ClientView.session (congrFun hclient o)
  constructor <;> simpa only [hseat, hmodes, hstate, hsession]

/-! ## Paths -/

/-- Transitions by which nobody joins and no group VT is registered, apart from an acknowledged
disable. -/
def Act.Settles : Act → Prop
  | .create | .join _ _ | .addGroup _ | .acked _ => False
  | _ => True

/-- What is left of the clients and their VTs, on a way on which nobody but the client that has the
seat in the end is opened for the first time. -/
structure View.Settles (v v' : View) : Prop where
  within : v.Within v'
  opened : ∀ o ∈ v'.seat.clients, (v'.client o).state ≠ new →
    (v.client o).state ≠ new ∨ v'.seat.activeClient = some o

theorem settles_of_path {k : Kernel} {P : Act → Prop} (hP : ∀ a, P a → a.Settles) {v v' : View}
    (hwf : v.WF) (hp : Act.Path k P v v') : v.Settles v' := by
  refine (Path.invariant (I := fun u : View => u.WF ∧ v.Settles u) ?_ hp
    ⟨hwf, ⟨List.Subset.refl _, fun _ _ => rfl, List.Subset.refl _⟩, fun _ _ => Or.inl⟩).2
  rintro a u u' ha ht ⟨hwfu, hu⟩
  have hsettles := hP a ha
  refine ⟨hwfu.trans ht, hu.within.trans ht ?_ ?_ ?_, fun o ho hstate => ?_⟩
  · rintro rfl
    cases hsettles
  · rintro c n rfl
    cases hsettles
  · rintro g rfl
    cases hsettles
  have hleft : ∀ {o}, o ∈ u.seat.clients → u.leaving ≠ some o := fun ho heq =>
    (hwfu.leaving_off _ heq).2 ho
  have hopened : o ∈ u.seat.clients → ¬ a.SetsState o →
      (v.client o).state ≠ new ∨ u.seat.activeClient = some o := fun ho hst =>
    hu.opened o ho (ht.state hst (by rintro rfl; cases hsettles) ▸ hstate)
  obtain ⟨evs, hg, -, -, rfl⟩ := ht
  cases a with
  | create | join | addGroup | acked => cases hsettles
  | opened c =>
      by_cases hoc : c = o
      · exact Or.inr (congrArg some hoc)
      · refine (hopened ho hoc).imp_right fun heq => ?_
        cases hg.2.2.1.symm.trans heq
  | disabled c ds next =>
      by_cases hoc : c = o
      · exact Or.inr (hoc ▸ hg.1)
      · exact hopened ho hoc
  | vacate c =>
      refine (hopened ho id).imp_right fun heq => ?_
      obtain rfl : c = o := Option.some.inj (hg.2.1.symm.trans heq)
      exact absurd hg.1 (hleft ho)
  | retire c => exact hopened ho fun heq : c = o => hleft ho (heq ▸ hg.1)
  | detach c => exact hopened (List.mem_of_mem_erase ho) id
  | _ => exact hopened ho id

/-- A client that has been opened is not new again. -/
theorem new_of_path {k : Kernel} {P : Act → Prop} (hP : ¬ P .create) {v v' : View}
    (hp : Act.Path k P v v') {o : ClientId} (h : (v'.client o).state = new) :
    (v.client o).state = new := by
  revert h
  refine Path.invariant (I := fun u : View => (u.client o).state = new → (v.client o).state = new)
    ?_ hp id
  intro a u u' ha ht hu h
  refine hu ((ht.state (fun hsets => ?_) fun hcreate => absurd (hcreate ▸ ha) hP).symm.trans h)
  obtain ⟨evs, -, -, -, rfl⟩ := ht
  cases a with
  | opened c | disabled c _ _ | acked c | retire c =>
      obtain rfl : c = o := hsets
      simp [Act.effect, View.push] at h
  | _ => exact hsets

/-- Transitions that leave the seat to the client that has it. -/
def Act.LeavesSeat : Act → Prop
  | .acked _ | .vacate _ => False
  | _ => True

/-- The seat is not given to anybody while a client has it. -/
theorem active_of_path {k : Kernel} {P : Act → Prop} (hP : ∀ a, P a → a.LeavesSeat) {v v' : View}
    (hopened : ∀ c, P (.opened c) → v.seat.activeClient ≠ none) (hp : Act.Path k P v v') :
    v'.seat.activeClient = v.seat.activeClient := by
  refine Path.invariant (I := fun u : View => u.seat.activeClient = v.seat.activeClient) ?_ hp rfl
  rintro a u u' ha ⟨evs, hg, -, -, rfl⟩ hu
  have hleaves := hP a ha
  cases a with
  | acked | vacate => cases hleaves
  | opened c => exact absurd (hu.symm.trans hg.2.2.1) (hopened c ha)
  | _ => exact hu

section

variable {k : Kernel} {s s' : Server} {x : Option ClientId}

/-- What was sent on the way to a state was sent. -/
theorem Server.StaysBright.before {P : Act → Prop} (h : s.StaysBright)
    (hp : Act.Path k P (s.view none) (s'.view x)) (hsent : EnablesSent (s'.view none).log) :
    s.Bright :=
  h (hsent.mono (log_suffix_of_path hp).subset)

/-- VTs that are left stay lit if they are not closed, and if a client that has been opened for the
first time was opened on its session. -/
theorem Server.Bright.of_settles (h : s.Bright) (hset : (s.view none).Settles (s'.view x))
    (hgroups : ∀ g ∈ s'.seat.groupVts, s.inGraphics g.vt = true → s'.inGraphics g.vt = true)
    (hsessions : ∀ o ∈ s'.seat.clients, s.inGraphics (s.clients o).session = true →
      s'.inGraphics (s.clients o).session = true)
    (hnew : ∀ o ∈ s'.seat.clients, s'.seat.activeClient = some o → (s.clients o).state = new →
      s'.inGraphics (s.clients o).session = true) : s'.Bright := by
  refine ⟨fun g hg => hgroups g hg (h.groups g (hset.within.groups hg)), fun o ho hstate => ?_⟩
  have hmem : o ∈ s.seat.clients := hset.within.clients ho
  rw [show (s'.clients o).session = (s.clients o).session from hset.within.session o ho]
  by_cases hst : (s.clients o).state = new
  · exact hnew o ho ((hset.opened o ho hstate).resolve_left (not_not.mpr hst)) hst
  · exact hsessions o ho (h.sessions o hmem hst)

/-- The client that has the seat is not new. -/
theorem not_new_of_active (hwf : (s.view none).WF) {o : ClientId} (ho : s.seat.activeClient = some o) :
    (s.clients o).state ≠ new := by
  rcases (hwf.active o ho).2 with hst | hst <;> simp [show (s.clients o).state = _ from hst]

/-- Nobody gets the seat who did not have it, and no modes change. -/
theorem Server.Bright.of_same (h : s.Bright) (hwf : (s.view none).WF)
    (hset : (s.view none).Settles (s'.view x)) (hmodes : s'.inGraphics = s.inGraphics)
    (hactive : s'.seat.activeClient = s.seat.activeClient) : s'.Bright :=
  h.of_settles hset (fun _ _ hg => hmodes ▸ hg) (fun _ _ ho => hmodes ▸ ho) fun _ _ ho hst =>
    absurd hst (not_new_of_active hwf (hactive ▸ ho))

/-- **A way on which nobody gets the seat and no modes change.** -/
theorem Server.StaysBright.of_path {P : Act → Prop} (h : s.StaysBright) (hwf : (s.view none).WF)
    (hP : ∀ a, P a → a.Settles ∧ a.LeavesSeat)
    (hopened : ∀ c, P (.opened c) → s.seat.activeClient ≠ none)
    (hp : Act.Path k P (s.view none) (s'.view none)) (hmodes : s'.inGraphics = s.inGraphics) :
    s'.StaysBright := fun hsent =>
  (h.before hp hsent).of_same hwf (settles_of_path (fun a ha => (hP a ha).1) hwf hp) hmodes
    (active_of_path (fun a ha => (hP a ha).2) hopened hp)

end

/-! ## Opening clients -/

/-- A client that has not been opened yet owns the VT, but not as its session. -/
def Server.Astray (s : Server) (vt : Int) : Prop :=
  ∃ o ∈ s.seat.clients, (s.clients o).state = new ∧ clientOwnsVt s o vt = true
    ∧ (s.clients o).session ≠ vt

instance (s : Server) (vt : Int) : Decidable (s.Astray vt) :=
  inferInstanceAs (Decidable (∃ _ ∈ _, _))

section

variable {k : Kernel} (hk : k.OpensTtys) {s : Server} {c : ClientId}

include hk

theorem bright_seatOpenClient (hs : s.OnVts) (h : s.StaysBright) (hc : c ∈ s.seat.clients)
    (hsession : (s.clients c).session = s.seat.curVt) : (seatOpenClient k s c).2.StaysBright := by
  intro hsent
  have howns : clientOwnsVt s c s.seat.curVt = true :=
    (clientOwnsVt_iff s none c _).mpr (Or.inl hsession)
  have hpath := seatOpenClient_path k s none hc hs.wf.next_none fun _ =>
    (clientOwnsVt_iff s none c _).mp howns
  have hb := h.before hpath hsent
  have hset := settles_of_path (fun a ha => by cases a <;> trivial) hs.wf hpath
  rcases seatOpenClient_modes hk s hs.vtBound hs.groups howns with
    ⟨hactive, -, hsame⟩ | ⟨hactive, hlit⟩
  · exact hb.of_same hs.wf hset (hsame hsent) hactive
  · refine hb.of_settles hset (fun g _ hg => ?_) (fun o _ ho => ?_) fun o _ ho _ => ?_
    · simp [hlit, hg]
    · simp [hlit, ho]
    · obtain rfl : c = o := Option.some.inj (hactive.symm.trans ho)
      simp [hlit, hsession]

/-- **Whoever `seat_activate` opens keeps its session lit**, if it is not opened astray. -/
theorem bright_seatActivate (hs : s.OnVts) (h : s.StaysBright) (hnone : s.seat.activeClient = none)
    (hsafe : ¬ s.Astray s.seat.curVt) : (seatActivate k s).2.StaysBright := by
  intro hsent
  have hnext : s.seat.nextClient = none := hs.wf.next_none hnone
  have hpath := seatActivate_path_unqueued k s none hnone hnext
  have hb := h.before hpath hsent
  have hset := settles_of_path (fun a ha => by cases a <;> trivial) hs.wf hpath
  rcases seatActivate_modes hk s hs.vtBound hs.groups hnext with
    ⟨hactive, -, hsame⟩ | ⟨c, hc, howns, hactive, hlit⟩
  · exact hb.of_same hs.wf hset (hsame hsent) hactive
  · refine hb.of_settles hset (fun g _ hg => ?_) (fun o _ ho => ?_) fun o _ ho hst => ?_
    · simp [hlit, hg]
    · simp [hlit, ho]
    · obtain rfl : c = o := Option.some.inj (hactive.symm.trans ho)
      have hsession : (s.clients c).session = s.seat.curVt := by
        by_contra hne
        exact hsafe ⟨c, hc, hst, howns, hne⟩
      simp [hlit, hsession]

/-- An acknowledged disable opens a client on the VT on the screen. -/
theorem bright_seatAckDisableClient (hs : s.OnVts) (h : s.StaysBright) (hc : c ∈ s.seat.clients)
    (hsafe : s.seat.activeClient = some c → (s.clients c).state = pendingDisable →
      ¬ s.Astray s.seat.curVt) : (seatAckDisableClient k s c).2.StaysBright := by
  rcases seatAckDisableClient_settles k hs hc with hsame | ⟨s1, htrans, hs1, hmodes, hnone, -, heq⟩
  · exact staysBright_aboutSeat.of_alike h hsame
  have hpath : Act.Path k (· = .acked c) (s.view none) (s1.view none) := .single _ rfl htrans
  have hsame : (s.view none).SameVts (s1.view none) :=
    sameVts_of_path (by rintro a rfl; trivial) hpath
  have hnew : ∀ {o}, (s1.clients o).state = new → (s.clients o).state = new :=
    fun hst => new_of_path nofun hpath hst
  have hclients : s1.seat.clients = s.seat.clients := hsame.clients
  have hgroups : s1.seat.groupVts = s.seat.groupVts := hsame.groupVts
  have hsession : ∀ o, (s1.clients o).session = (s.clients o).session := hsame.session
  obtain ⟨evs, ⟨hactive, hpending⟩, -, -, hview⟩ := htrans
  have hstate : ∀ {o}, (s.clients o).state = new → (s1.clients o).state = new := fun {o} hst => by
    have hne : o ≠ c := by
      rintro rfl
      cases hpending.symm.trans hst
    have hbefore : ((s.view none).client o).state = new := hst
    refine (congrArg (fun v => (View.client v o).state) hview).trans ?_
    simpa [Act.effect, View.push, hne] using hbefore
  rw [heq]
  refine bright_seatActivate hk hs1 (fun hsent => ?_) hnone ?_
  · obtain ⟨hlit, hses⟩ := h.before hpath hsent
    refine ⟨fun g hg => ?_, fun o ho hst => ?_⟩
    · rw [hmodes]
      exact hlit g (hgroups ▸ hg)
    · rw [hmodes, hsession]
      exact hses o (hclients ▸ ho) (mt hstate hst)
  · rintro ⟨o, ho, hst, howns, hne⟩
    rw [hclients] at ho
    rw [hsame.clientOwnsVt hs.wf hs1.wf ho, show s1.seat.curVt = s.seat.curVt from hsame.curVt] at howns
    rw [hsession, show s1.seat.curVt = s.seat.curVt from hsame.curVt] at hne
    exact hsafe hactive hpending ⟨o, ho, hnew hst, howns, hne⟩

end

/-! ## Removing clients -/

/-- The VTs that are closed when the client is removed. -/
def Server.vtsOf (s : Server) (c : ClientId) : List Int :=
  (s.clients c).session :: (s.seat.groupVts.filter (·.owner = c)).map GroupVt.vt

/-- Another client on the seat owns a VT of the client. -/
def Server.Overlaps (s : Server) (c : ClientId) : Prop :=
  ∃ vt ∈ s.vtsOf c, ∃ o ∈ s.seat.clients, o ≠ c ∧ clientOwnsVt s o vt = true

/-- The client is on the seat, and its removal closes a VT of another client or opens a client
astray. -/
def Server.LeavesDark (s : Server) (c : ClientId) : Prop :=
  c ∈ s.seat.clients
    ∧ (s.Overlaps c ∨ s.seat.activeClient = some c ∧ s.Astray s.seat.curVt)

instance (s : Server) (c : ClientId) : Decidable (s.Overlaps c) :=
  inferInstanceAs (Decidable (∃ _ ∈ _, _))

section

variable {s s' : Server} {c : ClientId}

theorem mem_vtsOf {vt : Int} : vt ∈ s.vtsOf c ↔ (s.view none).Has c vt := by
  have hgroup : vt ∈ (s.seat.groupVts.filter (·.owner = c)).map GroupVt.vt
      ↔ (⟨c, vt⟩ : GroupVt) ∈ s.seat.groupVts := by
    simp only [List.mem_map, List.mem_filter, decide_eq_true_iff]
    constructor
    · rintro ⟨⟨owner, n⟩, ⟨hg, rfl⟩, rfl⟩
      exact hg
    · exact fun hg => ⟨_, ⟨hg, rfl⟩, rfl⟩
  rw [Server.vtsOf, List.mem_cons, hgroup, eq_comm]
  exact Iff.rfl

theorem overlaps_iff (hwf : (s.view none).WF) : s.Overlaps c ↔
    ∃ vt, (s.view none).Has c vt ∧ ∃ o ∈ s.seat.clients, o ≠ c ∧ (s.view none).Has o vt := by
  refine exists_congr fun vt => and_congr mem_vtsOf (exists_congr fun o => ?_)
  exact and_congr_right fun ho => and_congr_right fun _ => clientOwnsVt_iff_has hwf ho vt

/-- Where the VTs are the same and nobody is new again, a removal does no more harm than before. -/
theorem Server.LeavesDark.before (h : s'.LeavesDark c)
    (hsame : (s.view none).SameVts (s'.view none)) (hwf : (s.view none).WF)
    (hwf' : (s'.view none).WF) (hnew : ∀ o, (s'.clients o).state = new → (s.clients o).state = new)
    (hactive : s'.seat.activeClient = some c → s.seat.activeClient = some c) : s.LeavesDark c := by
  have hclients : s'.seat.clients = s.seat.clients := hsame.clients
  have hcur : s'.seat.curVt = s.seat.curVt := hsame.curVt
  refine ⟨hclients ▸ h.1, h.2.imp (fun hover => ?_) ?_⟩
  · obtain ⟨vt, hc, o, ho, hne, hhas⟩ := (overlaps_iff hwf').mp hover
    exact (overlaps_iff hwf).mpr ⟨vt, (hsame.has c vt).mp hc, o, hclients ▸ ho, hne,
      (hsame.has o vt).mp hhas⟩
  · rintro ⟨hact, o, ho, hst, howns, hne⟩
    rw [hclients] at ho
    rw [hsame.clientOwnsVt hwf hwf' ho, hcur] at howns
    rw [hcur, show (s'.clients o).session = (s.clients o).session from hsame.session o] at hne
    exact ⟨hactive hact, o, ho, hnew o hst, howns, hne⟩

theorem leavesDark_aboutSeat (c : ClientId) : AboutSeat fun s => s.LeavesDark c := by
  rintro s s' hseat hclient - - h
  have hstate : ∀ o, (s'.clients o).state = (s.clients o).state :=
    fun o => congrArg ClientView.state (congrFun hclient o)
  have hsession : ∀ o, (s'.clients o).session = (s.clients o).session :=
    fun o => congrArg ClientView.session (congrFun hclient o)
  have howns := fun o vt => clientOwnsVt_congr hseat hclient o vt
  simpa only [Server.LeavesDark, Server.Overlaps, Server.Astray, Server.vtsOf, hseat, hstate, hsession,
    howns] using h

end

/-- **Removing a client keeps the VTs of the others lit**, if it has none of them and nobody is
opened astray. -/
theorem bright_seatRemoveClient {k : Kernel} (hk : k.OpensTtys) {s : Server} {c : ClientId}
    (hs : s.OnVts) (h : s.StaysBright) (hc : c ∈ s.seat.clients) (hsafe : ¬ s.LeavesDark c) :
    (seatRemoveClient k s c).StaysBright := by
  intro hsent
  obtain ⟨hpath, hclosed, -⟩ := seatRemoveClient_path k s hs.wf hc
  have hb := h.before hpath hsent
  have hset := settles_of_path (fun a ha => by cases a <;> trivial) hs.wf hpath
  have hwf' := hs.wf.path hpath
  obtain ⟨-, -, hgone⟩ := hwf'.retired c rfl hclosed
  have hoff := (hwf'.leaving_off c rfl).2
  have hstrip := (seatStripClient_path k s hc).2.2.2
  have hother := seatRemoveClient_other k s (c := c)
  set s' := seatRemoveClient k s c with hs'
  have hfree : ∀ {o vt}, o ∈ s.seat.clients → o ≠ c → (s.view none).Has o vt →
      ¬ (s.view none).Has c vt := fun ho hne hhas hhas' =>
    hsafe ⟨hc, Or.inl ((overlaps_iff hs.wf).mpr ⟨_, hhas', _, ho, hne, hhas⟩)⟩
  have hsessions : ∀ {o}, o ∈ s'.seat.clients → ¬ (s.view none).Has c (s.clients o).session :=
    fun ho => hfree (hset.within.clients ho) (fun heq => hoff (heq ▸ ho)) (Or.inl rfl)
  have hgroups : ∀ {g}, g ∈ s'.seat.groupVts → ¬ (s.view none).Has c g.vt := fun {g} hg => by
    have hmem : g ∈ s.seat.groupVts := hset.within.groups hg
    exact hfree ((hs.wf.owner g hmem).resolve_right nofun) (hgone g hg) (Or.inr hmem)
  by_cases hcur : s.seat.activeClient = some c
  · rcases seatRemoveClient_modes hk s hs hcur with
      ⟨hnone, -, hlit⟩ | ⟨o, ho, hne, howns, hactive, hlit⟩
    · refine hb.of_settles hset (fun g hg hl => hlit hsent _ hl (hgroups hg))
        (fun o ho hl => hlit hsent _ hl (hsessions ho)) fun o _ ho _ => ?_
      cases hnone.symm.trans ho
    · have hstays : ∀ {n}, s.inGraphics n = true → ¬ (s.view none).Has c n →
          s'.inGraphics n = true := fun {n} hl hhas => by
        refine (hlit n).mpr (Or.inr ⟨hl, ?_⟩)
        rintro ⟨owner, vt⟩ hg rfl rfl
        exact hhas (Or.inr hg)
      refine hb.of_settles hset (fun g hg hl => hstays hl (hgroups hg))
        (fun o ho hl => hstays hl (hsessions ho)) fun o' _ ho' hst => ?_
      obtain rfl : o = o' := Option.some.inj (hactive.symm.trans ho')
      refine (hlit _).mpr (Or.inl ?_)
      by_contra hsession
      exact hsafe ⟨hc, Or.inr ⟨hcur, o, ho, hst, howns, hsession⟩⟩
  · have hstays : ∀ {n}, s.inGraphics n = true → ¬ (s.view none).Has c n →
        s'.inGraphics n = true := fun hl hhas =>
      (inGraphics_seatRemoveClient hk s hs hc hcur _).mpr ⟨hl, hhas⟩
    refine hb.of_settles hset (fun g hg hl => hstays hl (hgroups hg))
      (fun o ho hl => hstays hl (hsessions ho)) fun o _ ho hst => ?_
    have hsame : s'.seat.activeClient = s.seat.activeClient :=
      (congrArg (fun v => (View.seat v).activeClient) (hother (hstrip ▸ hcur) none)).trans hstrip
    exact absurd hst (not_new_of_active hs.wf (hsame ▸ ho))

/-! ## Requests -/

section

variable {k : Kernel} {s : Server} {c : ClientId}

/-- A client that joins is new, and nothing is lit or darkened for it. -/
theorem bright_seatAddClient (hs : s.OnVts) (h : s.StaysBright) (hlive : c ∈ s.live) :
    (seatAddClient k s c).2.StaysBright := by
  have hmodes : (seatAddClient k s c).2.inGraphics = s.inGraphics :=
    (calls_seatAddClient k s c).logs.modes
  rcases seatAddClient_cases k s hs.wf hlive with ⟨-, hpath⟩ | ⟨hok, s1, n, hpath, hjoin, -⟩
  · exact h.of_path hs.wf (by rintro a rfl; exact ⟨trivial, trivial⟩) (fun _ => nofun) hpath hmodes
  intro hsent
  obtain ⟨hgroups, hsessions⟩ := h.before ((hpath.mono fun _ _ => trivial).tail
    (P := fun _ => True) _ trivial hjoin) hsent
  obtain ⟨⟨hoff, hfresh⟩, -, -, hview⟩ := seatAddClient_joins hs.vtBound hok
  have hidle := hs.wf.idle c (mem_idle_of_seat s hs.wf hlive hoff)
  have hnew : ((s.view none).client c).state = new :=
    hidle.2.2.elim And.left fun hclosed => absurd hfresh hclosed.2
  set s' := (seatAddClient k s c).2 with hs'
  have hseat : s'.seat = { s.seat with curVt := s.vtShown k, clients := c :: s.seat.clients } :=
    congrArg View.seat hview
  refine ⟨fun g hg => ?_, fun o ho hst => ?_⟩
  · rw [hseat] at hg
    rw [hmodes]
    exact hgroups g hg
  · have hclient := congrArg (fun v => View.client v o) hview
    by_cases hoc : o = c
    · subst hoc
      refine absurd ((congrArg ClientView.state hclient).trans ?_) hst
      simpa [Act.effect, View.set] using hnew
    · simp only [Act.effect, View.client_set, if_neg hoc, View.client_setSeat] at hclient
      have hmem : o ∈ s.seat.clients := by
        rw [hseat] at ho
        exact (List.mem_cons.mp ho).resolve_left hoc
      rw [hmodes, show (s'.clients o).session = (s.clients o).session from
        congrArg ClientView.session hclient]
      refine hsessions o hmem ?_
      rwa [← show (s'.clients o).state = (s.clients o).state from congrArg ClientView.state hclient]

theorem bright_handleRequest (hk : k.OpensTtys) (hs : s.OnVts) (h : s.StaysBright)
    (hlive : c ∈ s.live) {r : Request} (hclose : r = .closeSeat → ¬ s.LeavesDark c)
    (hack : r = .disableSeat → s.seat.activeClient = some c → (s.clients c).state = pendingDisable →
      ¬ s.Astray s.seat.curVt) : (handleRequest k s c r).2.StaysBright := by
  have hput : r.StaysPut → (handleRequest k s c r).2.StaysBright := fun hr => by
    refine h.of_path hs.wf (fun a ha => ?_) (fun o ho => ?_) (handleRequest_path k s hs.wf hlive r)
      (handleRequest_minor k hs hlive hr).2
    · cases r <;> cases a <;> simp_all [Request.Allows, Request.StaysPut, Act.Settles, Act.LeavesSeat]
    · cases r <;> simp_all [Request.Allows, Request.StaysPut]
  exact staysBright_aboutSeat.handled hs hlive h (bright_seatAddClient hs h hlive)
    (fun _ hs' h' => bright_seatOpenClient hk hs' h')
    (fun hr hc => bright_seatRemoveClient hk hs h hc (hclose hr))
    (fun hr hc => bright_seatAckDisableClient hk hs h hc (hack hr)) hput

/-- A client that is destroyed for its OPEN_SEAT closes the VT it joined on. -/
theorem leavesDark_handleOpenSeat (hs : s.OnVts) (hlive : c ∈ s.live)
    (h : (handleOpenSeat k s c).2.LeavesDark c) :
    s.LeavesDark c
    ∨ (s.clients c).seat = false ∧ ∃ o ∈ s.seat.clients, clientOwnsVt s o (s.vtShown k) = true := by
  by_cases hok : (seatAddClient k s c).1 = true
  · obtain ⟨⟨hoff, -⟩, -, -, hview⟩ := seatAddClient_joins hs.vtBound hok
    refine Or.inr ⟨hoff, ?_⟩
    have hopens := handleOpenSeat_joined k s hs.wf hlive hok
    have hwf' := (wf_seatAddClient (k := k) hs.wf hlive).path hopens
    have hsame := sameVts_of_path (fun a ha => by cases a <;> trivial) hopens
    rw [hview] at hsame
    set s' := (handleOpenSeat k s c).2 with hs'
    have hclients : s'.seat.clients = c :: s.seat.clients := hsame.clients
    have hsession : (s'.clients c).session = s.vtShown k := by
      refine (hsame.session c).trans ?_
      simp [Act.effect, View.set]
    have hcur : s'.seat.curVt = s.vtShown k := hsame.curVt
    -- the others have what they had
    have hothers : ∀ {o vt}, o ∈ s'.seat.clients → o ≠ c → (s'.view none).Has o vt →
        o ∈ s.seat.clients ∧ clientOwnsVt s o vt = true := fun {o vt} ho hne hhas => by
      have hmem : o ∈ s.seat.clients := by
        rw [hclients] at ho
        exact (List.mem_cons.mp ho).resolve_left hne
      refine ⟨hmem, (clientOwnsVt_iff_has hs.wf hmem vt).mpr (hhas.imp (fun hses => ?_) fun hg => ?_)⟩
      · rw [hsame.session o] at hses
        simpa [Act.effect, View.set, hne] using hses
      · rw [hsame.groupVts] at hg
        exact hg
    rcases h.2 with hover | ⟨-, o, ho, -, howns, hne⟩
    · obtain ⟨vt, hc, o, ho, hne, hhas⟩ := (overlaps_iff hwf').mp hover
      obtain rfl : s.vtShown k = vt := by
        refine hc.elim (fun hses => hsession.symm.trans hses) fun hg => ?_
        rw [hsame.groupVts] at hg
        have howner := (hs.wf.owner _ hg).resolve_right fun hno => by cases hno
        cases hoff.symm.trans (hs.wf.onSeat c howner).1
      exact ⟨o, hothers ho hne hhas⟩
    · have hoc : o ≠ c := by
        rintro rfl
        exact hne (hsession.trans hcur.symm)
      exact ⟨o, hcur ▸ hothers ho hoc ((clientOwnsVt_iff_has hwf' ho _).mp howns)⟩
  · have heq : (handleOpenSeat k s c).2 = (seatAddClient k s c).2 := by
      unfold handleOpenSeat
      dsimp only
      rw [if_neg hok]
    obtain ⟨n, hview, hn⟩ := seatAddClient_refused hok
    rw [heq] at h
    have hmem : c ∈ s.seat.clients := by
      rw [← show (seatAddClient k s c).2.seat.clients = s.seat.clients from
        congrArg (fun v => (View.seat v).clients) hview]
      exact h.1
    obtain rfl := hn (hs.wf.onSeat c hmem).1
    exact Or.inl ((leavesDark_aboutSeat c).before_alike h
      ⟨hview, (calls_seatAddClient k s c).logs.modes⟩)

/-- Of the other requests only a disable makes a later removal of the client worse. -/
theorem leavesDark_handleRequest (hs : s.OnVts) (hlive : c ∈ s.live) {r : Request}
    (hopen : r ≠ .openSeat) (hclose : r ≠ .closeSeat)
    (h : (handleRequest k s c r).2.LeavesDark c) : s.LeavesDark c := by
  have hpath := handleRequest_path k s hs.wf hlive r
  have hsame : (s.view none).SameVts ((handleRequest k s c r).2.view none) :=
    sameVts_of_path (fun a ha => by
      cases r <;> cases a <;> simp_all [Request.Allows, Act.KeepsVts]) hpath
  refine h.before hsame hs.wf (hs.wf.path hpath) (fun o ho => new_of_path id hpath ho) fun hact => ?_
  exact (active_of_allows k s hpath hact).resolve_right fun h => hopen h.1

end

/-! ## VT events and group VTs -/

section

variable {k : Kernel} (hk : k.OpensTtys) {s : Server}

include hk

/-- A VT event opens a client on the new VT, if nobody has the seat. -/
theorem bright_seatHandleVtEvent (hs : s.OnVts) (h : s.StaysBright) (oldVt : Int) {newVt : Int}
    (hsafe : s.seat.activeClient = none → ¬ s.Astray newVt) :
    (seatHandleVtEvent k s oldVt newVt).StaysBright := by
  cases hactive : s.seat.activeClient with
  | none =>
      have hview := view_seatNoteVt k s none oldVt newVt
      have hmodes := inGraphics_seatNoteVt k s oldVt newVt
      rw [seatHandleVtEvent_none k s hactive]
      set s2 := seatNoteVt k s oldVt newVt
      have hpath : Act.Path k (· = .vtEvent newVt) (s.view none) (s2.view none) := by
        rw [hview]
        exact .single _ rfl (Act.Trans.silent trivial (fun _ => rfl) rfl)
      have hs2 : s2.OnVts := hs.path (fun _ hg => by cases hg) hpath
      refine bright_seatActivate hk hs2
        (h.of_path hs.wf (by rintro a rfl; exact ⟨trivial, trivial⟩) (fun _ => nofun) hpath hmodes)
        ((congrArg (fun v => (View.seat v).activeClient) hview).trans hactive) ?_
      rintro ⟨o, ho, hst, howns, hne⟩
      have hcur : s2.seat.curVt = newVt := congrArg (fun v => (View.seat v).curVt) hview
      rw [hcur] at howns hne
      refine hsafe hactive ⟨o, ?_, ?_, clientOwnsVt_vtEvent s none hview o newVt ▸ howns, ?_⟩
      · rwa [show s2.seat.clients = s.seat.clients from
          congrArg (fun v => (View.seat v).clients) hview] at ho
      · exact (congrArg (fun v => (View.client v o).state) hview).symm.trans hst
      · rwa [show (s2.clients o).session = (s.clients o).session from
          congrArg (fun v => (View.client v o).session) hview] at hne
  | some a =>
      refine h.of_path hs.wf (P := fun act => act.Settles ∧ act.LeavesSeat) (fun _ => id)
        (fun _ _ => by simp [hactive]) (seatHandleVtEvent_path k s ⟨trivial, trivial⟩
          (fun _ _ _ => ⟨trivial, trivial⟩) (fun _ _ => ⟨trivial, trivial⟩) (fun act hact => ?_) hs.wf)
        (inGraphics_seatHandleVtEvent k s hactive oldVt newVt)
      cases act <;> first | exact ⟨trivial, trivial⟩ | cases hact

/-- Registering a group VT lights it. -/
theorem bright_seatCreateGroupVt (h : s.StaysBright) (owner : ClientId) (vt : Int) :
    (seatCreateGroupVt k s owner vt).2.StaysBright := by
  rcases seatCreateGroupVt_modes hk s owner vt with ⟨hview, hmodes⟩ | ⟨n, hview, hmodes⟩
  · exact staysBright_aboutSeat.of_alike h ⟨hview, hmodes⟩
  intro hsent
  rw [hview] at hsent
  obtain ⟨hgroups, hsessions⟩ := h hsent
  set s' := (seatCreateGroupVt k s owner vt).2 with hs'
  have hseat : s'.seat = { s.seat with groupVts := ⟨owner, n⟩ :: s.seat.groupVts } :=
    congrArg View.seat hview
  refine ⟨fun g hg => ?_, fun o ho hst => ?_⟩
  · rw [hseat] at hg
    rw [hmodes, Bool.or_eq_true, decide_eq_true_iff]
    rcases List.mem_cons.mp hg with rfl | hg
    · exact Or.inl rfl
    · exact Or.inr (hgroups g hg)
  · rw [hseat] at ho
    rw [show (s'.clients o).state = (s.clients o).state from
      congrArg (fun v => (View.client v o).state) hview] at hst
    rw [hmodes, Bool.or_eq_true, show (s'.clients o).session = (s.clients o).session from
      congrArg (fun v => (View.client v o).session) hview]
    exact Or.inr (hsessions o ho hst)

/-- Destroying a group VT darkens it, which matters if it is the session of a client. -/
theorem bright_seatDestroyGroupVt (hs : s.OnVts) (h : s.StaysBright) {vt : Int}
    (hsafe : (seatFindGroupVt s.seat vt).isSome → ∀ c ∈ s.seat.clients, (s.clients c).session ≠ vt) :
    (seatDestroyGroupVt k s vt).2.StaysBright := by
  cases hfind : seatFindGroupVt s.seat vt with
  | none =>
      rw [seatDestroyGroupVt, hfind]
      exact staysBright_aboutSeat.of_alike h ⟨rfl, rfl⟩
  | some g =>
      have hother := hsafe (by rw [hfind]; rfl)
      obtain ⟨gs, hview, hgs⟩ := view_seatDestroyGroupVt (k := k) hs.wf vt
      have hmodes := inGraphics_seatDestroyGroupVt hk s hs.vtBound hfind
      intro hsent
      rw [hview] at hsent
      obtain ⟨hgroups, hsessions⟩ := h hsent
      set s' := (seatDestroyGroupVt k s vt).2 with hs'
      have hseat : s'.seat = { s.seat with groupVts := gs } := congrArg View.seat hview
      refine ⟨fun g' hg' => ?_, fun o ho hst => ?_⟩
      · rw [hseat] at hg'
        obtain ⟨hmem, hne⟩ := (hgs g').mp hg'
        rw [hmodes, if_neg hne]
        exact hgroups g' hmem
      · rw [hseat] at ho
        rw [show (s'.clients o).state = (s.clients o).state from
          congrArg (fun v => (View.client v o).state) hview] at hst
        rw [show (s'.clients o).session = (s.clients o).session from
          congrArg (fun v => (View.client v o).session) hview, hmodes, if_neg (hother o ho)]
        exact hsessions o ho hst

end

/-! ## Steps -/

/-- The step closes a VT of a client on the seat for another client: one that leaves the seat, or one
that joins on the VT and is destroyed at once. -/
def Step.ClosesShared (k : Kernel) (s : Server) (st : Step) : Prop :=
  ∃ c ∈ st.client, st.TakesOff k s c ∧ (c ∈ s.seat.clients ∧ s.Overlaps c
    ∨ st = .request c .openSeat ∧ (s.clients c).seat = false
      ∧ ∃ o ∈ s.seat.clients, clientOwnsVt s o (s.vtShown k) = true)

/-- The step destroys a group VT that is the session of a client on the seat. -/
def Step.DestroysSession (s : Server) : Step → Prop
  | .control i (.destroyGroupVt vt) => i ∈ s.controlClients
      ∧ (seatFindGroupVt s.seat vt).isSome = true ∧ ∃ c ∈ s.seat.clients, (s.clients c).session = vt
  | _ => False

/-- The seat becomes free on a VT of a client that is new and has another VT as its session. -/
def Step.OpensAstray (k : Kernel) (s : Server) (st : Step) : Prop :=
  ∃ vt ∈ st.seatFreeOn k s, s.Astray vt

/-- The steps after which a client may come to run on a VT in text mode. -/
def Step.Darkens (k : Kernel) (s : Server) (st : Step) : Prop :=
  st.ClosesShared k s ∨ st.DestroysSession s ∨ st.OpensAstray k s

instance (k : Kernel) (s : Server) (st : Step) : Decidable (st.ClosesShared k s) :=
  inferInstanceAs (Decidable (∃ _ ∈ _, _))

instance (s : Server) : (st : Step) → Decidable (st.DestroysSession s)
  | .control _ (.destroyGroupVt _) => inferInstanceAs (Decidable (_ ∧ _))
  | .control _ (.createGroupVt _ _) | .control _ .getActiveVt | .control _ .findFreeVt
  | .control _ (.switchVt _) | .control _ .invalid
  | .connect _ | .request _ _ | .writable _ | .disconnect _ | .vtRelease | .vtAcquire
  | .vtEvent _ _ | .controlConnect _ | .controlWritable _ | .controlDisconnect _ => .isFalse id

instance (k : Kernel) (s : Server) (st : Step) : Decidable (st.OpensAstray k s) :=
  inferInstanceAs (Decidable (∃ _ ∈ _, _))

instance (k : Kernel) (s : Server) (st : Step) : Decidable (st.Darkens k s) :=
  inferInstanceAs (Decidable (_ ∨ _ ∨ _))

theorem Step.TakesOff.client {k : Kernel} {s : Server} {c : ClientId} {st : Step}
    (h : st.TakesOff k s c) : st.client = some c := by
  cases st with
  | request | writable => exact congrArg some h.1
  | disconnect => exact congrArg some h
  | _ => cases h

/-- Connecting a client concerns nobody on the seat. -/
theorem bright_serverAddClient {k : Kernel} {s : Server} (hs : s.OnVts) (h : s.StaysBright)
    (pid : Int) : (serverAddClient k s pid).StaysBright := by
  have hmodes : (serverAddClient k s pid).inGraphics = s.inGraphics :=
    (logs_serverAddClient (Q := Syscall.OffTty) k s (fun _ => id) pid).modes
  have hpath := serverAddClient_path k s pid
  have hsame := Path.invariant (I := fun u : View => u.seat = s.seat
      ∧ s.nextClientId ≤ u.nextId ∧ ∀ o < s.nextClientId, u.client o = (s.view none).client o)
    (fun a u u' ha ht hu => ?_) hpath ⟨rfl, le_refl s.nextClientId, fun _ _ => rfl⟩
  · intro hsent
    obtain ⟨hgroups, hsessions⟩ := h.before hpath hsent
    obtain ⟨hseat, -, hclient⟩ := hsame
    have hseat' : (serverAddClient k s pid).seat = s.seat := hseat
    refine ⟨fun g hg => ?_, fun o ho hst => ?_⟩
    · rw [hseat'] at hg
      rw [hmodes]
      exact hgroups g hg
    · rw [hseat'] at ho
      have hview := hclient o (hs.wf.fresh o ((hs.wf.live_iff o).mpr (Or.inr (Or.inl ho))))
      rw [hmodes, show ((serverAddClient k s pid).clients o).session = (s.clients o).session from
        congrArg ClientView.session hview]
      refine hsessions o ho ?_
      rwa [← show ((serverAddClient k s pid).clients o).state = (s.clients o).state from
        congrArg ClientView.state hview]
  · obtain ⟨hseat, hnext, hclient⟩ := hu
    obtain ⟨evs, -, -, -, rfl⟩ := ht
    rcases ha with rfl | ha
    · refine ⟨hseat, Nat.le_succ_of_le hnext, fun o ho => ?_⟩
      have hne : o ≠ u.nextId := Nat.ne_of_lt (lt_of_lt_of_le ho hnext)
      simpa [Act.effect, View.push, hne] using hclient o ho
    · cases a with
      | freeIdle c | free c => exact ⟨hseat, hnext, hclient⟩
      | _ => cases ha

/-- **A step keeps the VTs lit that clients may come to run on**, unless it is one of those
listed. -/
theorem bright_step {k : Kernel} (hk : k.OpensTtys) {s : Server} (hs : s.OnVts) (h : s.StaysBright)
    {st : Step} (hst : ¬ st.Darkens k s) : (step k s st).StaysBright := by
  have hI := staysBright_aboutSeat
  obtain ⟨hcloses, hdestroys, hastray⟩ := by simpa only [Step.Darkens, not_or] using hst
  have hremove : ∀ {c} {s' : Server}, s'.OnVts → s'.StaysBright → c ∈ s'.seat.clients →
      ¬ s'.LeavesDark c → (seatRemoveClient k s' c).StaysBright := fun hs' h' hc =>
    bright_seatRemoveClient hk hs' h' hc
  have hvacates : ∀ {c}, st.client = some c → st.Vacates k s c → ¬ s.Astray s.seat.curVt :=
    fun hc hvac hbad => hastray ⟨_, hvac.seatFreeOn hc, hbad⟩
  have hsafe : ∀ {c}, st.TakesOff k s c → ¬ s.LeavesDark c := by
    rintro c htakes ⟨hc, hover | ⟨hactive, hbad⟩⟩
    · exact hcloses ⟨c, htakes.client, htakes, Or.inl ⟨hc, hover⟩⟩
    · exact hvacates htakes.client ⟨hactive, Or.inl htakes⟩ hbad
  -- reading the VT and asking for a switch give nobody the seat
  have hreads : ∀ {s' : Server}, Act.Path k (fun a => (a.Settles ∧ a.LeavesSeat) ∧ ∀ c, a ≠ .opened c)
      (s.view none) (s'.view none) → s'.inGraphics = s.inGraphics → s'.StaysBright := fun hp hmodes =>
    h.of_path hs.wf (fun a ha => ha.1) (fun c hc => absurd rfl (hc.2 c)) hp hmodes
  have hvt : ∀ n, (Act.setVt n).Settles ∧ (Act.setVt n).LeavesSeat := fun _ => ⟨trivial, trivial⟩
  unfold step
  split_ifs with hgone
  · exact h
  obtain ⟨hlive, hcontrol⟩ := here_of_made hgone
  cases st with
  | connect pid => exact bright_serverAddClient hs h pid
  | request c r =>
      refine hI.clientHandleRequest (leavesDark_aboutSeat c) hs (hlive c rfl) ?_ hremove
        fun hr hfails hbad => ?_
      · refine bright_handleRequest hk hs h (hlive c rfl) (fun hr => hsafe ⟨rfl, Or.inl hr⟩) ?_
        rintro rfl hactive hpending
        exact hvacates rfl ⟨hactive, Or.inr ⟨rfl, hpending⟩⟩
      · have htakes : (Step.request c r).TakesOff k s c := ⟨rfl, Or.inr hfails⟩
        by_cases hopen : r = .openSeat
        · subst hopen
          rcases leavesDark_handleOpenSeat hs (hlive c rfl) hbad with hbad | ⟨hoff, howns⟩
          · exact hsafe htakes hbad
          · exact hcloses ⟨c, rfl, htakes, Or.inr ⟨rfl, hoff, howns⟩⟩
        · exact hsafe htakes (leavesDark_handleRequest hs (hlive c rfl) hopen hr hbad)
  | writable c =>
      exact hI.clientHandleWritable (leavesDark_aboutSeat c) hs h (hlive c rfl) hremove fun hfails =>
        hsafe ⟨rfl, hfails⟩
  | disconnect c =>
      exact hI.clientDestroy h fun hon =>
        hremove hs h (mem_of_seat s hs.wf (hlive c rfl) hon) (hsafe rfl)
  | vtRelease =>
      exact hreads (seatVtRelease_path k s none ⟨hvt _, nofun⟩ fun _ _ => ⟨⟨trivial, trivial⟩, nofun⟩)
        (logs_seatVtRelease (O := fun _ => True) k s trivial fun _ => trivial).modes
  | vtAcquire =>
      exact hreads (seatVtActivate_path k s none ⟨hvt _, nofun⟩) (calls_seatVtActivate k s).logs.modes
  | vtEvent oldVt newVt =>
      refine bright_seatHandleVtEvent hk hs h oldVt fun hnone hbad => hastray ⟨newVt, ?_, hbad⟩
      simp [Step.seatFreeOn, hnone]
  | controlConnect pid => exact hI.controlAddClient h pid
  | control i r =>
      refine hI.controlHandleRequest (hI.handleControlRequest h i ?_ ?_ ?_ ?_)
      · exact fun _ vt owner _ => bright_seatCreateGroupVt hk h owner vt
      · rintro vt rfl
        refine bright_seatDestroyGroupVt hk hs h fun hsome c hc hsession => ?_
        exact hdestroys ⟨hcontrol i rfl, hsome, c, hc, hsession⟩
      · rintro rfl
        exact hreads (seatGetActiveVt_path k s ⟨hvt _, nofun⟩) (calls_seatGetActiveVt k s).logs.modes
      · rintro vt rfl
        exact hreads (seatSwitchVt_path k s (fun _ => ⟨hvt _, nofun⟩)
          fun _ _ _ => ⟨⟨trivial, trivial⟩, nofun⟩) (calls_seatSwitchVt k s vt).logs.modes
  | controlWritable i => exact hI.controlHandleWritable h i
  | controlDisconnect i => exact hI.controlClientDestroy h i

/-! ## Runs -/

/-- **The VT under the running compositor stays in graphics mode**: on a VT-bound seat and a system
where ttys can be opened, after every run without a step that darkens a VT and in which every
ENABLE_SEAT was sent. -/
theorem active_vt_lit (k : Kernel) (hk : k.OpensTtys) (steps : List Step)
    (hmeets : Run.Meets (step k) (fun s st => ¬ st.Darkens k s) (serverInit true) steps)
    (hsent : EnablesSent (run k true steps).trace) : (run k true steps).Lit := by
  obtain ⟨hs, hbright⟩ := Run.run_invariant_of_meets
    (P := fun s : Server => s.OnVts ∧ s.StaysBright)
    (fun s st h hst => ⟨onVts_step h.1 st, bright_step hk h.1 h.2 hst⟩)
    ⟨onVts_init, fun _ => ⟨nofun, nofun⟩⟩ steps hmeets
  exact (hbright (hsent.mono (List.filter_subset_self _))).lit hs.wf

/-- A compositor goes from VT 1 to its group VT and back, and the group VT is destroyed. -/
theorem active_vt_lit_group :
    (run (.obliging 1) true [.connect 100, .request 0 .openSeat, .controlConnect 1,
      .control 0 (.createGroupVt 100 2), .vtEvent 1 2, .vtEvent 2 1,
      .control 0 (.destroyGroupVt 2)]).Lit :=
  active_vt_lit (.obliging 1) (fun _ _ => by simp [Kernel.obliging]) _ (by decide +kernel)
    (by decide +kernel)

/-- A compositor runs on VT 1, and VT 1 is made a group VT of a client in the background. When that
client disconnects, VT 1 goes back to text mode. -/
theorem screen_closed_by_other : ¬ (run .fromOneToTwo true [.connect 100, .request 0 .openSeat,
    .vtEvent 1 2, .connect 101, .request 1 .openSeat, .request 0 .disableSeat, .vtEvent 2 1,
    .request 1 .disableSeat, .controlConnect 1, .control 0 (.createGroupVt 101 1),
    .disconnect 1]).Lit := by
  decide +kernel

end DdeSeatd
