import DdeSeatd.Machine

set_option autoImplicit false

/-! # Well-formed seats

The invariant that ties the lists, the pointers and the clients' states together, and the
proof that every transition of the seat machine keeps it. -/

namespace DdeSeatd

open ClientState

/-- The client holds the seat or is giving it up. -/
def ClientState.Holds (st : ClientState) : Prop := st = active ∨ st = pendingDisable

namespace View

@[simp] theorem client_set (v : View) (c o : ClientId) (cl : ClientView) :
    (v.set c cl).client o = if o = c then cl else v.client o := by
  simp [set, Function.update_apply]

@[simp] theorem client_setDevices (v : View) (c o : ClientId) (ds : List SeatDevice) :
    (v.setDevices c ds).client o
      = if o = c then { v.client c with devices := ds } else v.client o := by
  simp [setDevices]

@[simp] theorem client_setState (v : View) (c o : ClientId) (st : ClientState) :
    (v.setState c st).client o
      = if o = c then { v.client c with state := st } else v.client o := by
  simp [setState]

@[simp] theorem seat_set (v : View) (c : ClientId) (cl : ClientView) :
    (v.set c cl).seat = v.seat := rfl

@[simp] theorem seat_setDevices (v : View) (c : ClientId) (ds : List SeatDevice) :
    (v.setDevices c ds).seat = v.seat := rfl

@[simp] theorem seat_setSeat (v : View) (seat : Seat) : (v.setSeat seat).seat = seat := rfl

@[simp] theorem client_setSeat (v : View) (seat : Seat) : (v.setSeat seat).client = v.client := rfl

/-- **The well-formedness of the seat.** -/
structure WF (v : View) : Prop where
  liveNodup : v.live.Nodup
  idleNodup : v.idle.Nodup
  clientsNodup : v.seat.clients.Nodup
  live_iff : ∀ c, c ∈ v.live ↔ c ∈ v.idle ∨ c ∈ v.seat.clients ∨ v.leaving = some c
  idle_off : ∀ c ∈ v.idle, c ∉ v.seat.clients
  leaving_off : ∀ c, v.leaving = some c → c ∉ v.idle ∧ c ∉ v.seat.clients
  fresh : ∀ c ∈ v.live, c < v.nextId
  idle : ∀ c ∈ v.idle, (v.client c).seat = false ∧ (v.client c).devices = []
    ∧ ((v.client c).state = new ∧ (v.client c).session = -1
      ∨ (v.client c).state = closed ∧ (v.client c).session ≠ -1)
  onSeat : ∀ c ∈ v.seat.clients, (v.client c).seat = true ∧ (v.client c).state ≠ closed
    ∧ (v.client c).session ≠ -1
  leavingSession : ∀ c, v.leaving = some c → (v.client c).session ≠ -1
  retired : ∀ c, v.leaving = some c → (v.client c).state = closed →
    (v.client c).devices = [] ∧ v.seat.activeClient ≠ some c ∧ ∀ g ∈ v.seat.groupVts, g.owner ≠ c
  active : ∀ a, v.seat.activeClient = some a →
    (a ∈ v.seat.clients ∨ v.leaving = some a) ∧ (v.client a).state.Holds
  only : ∀ c ∈ v.seat.clients, (v.client c).state.Holds → v.seat.activeClient = some c
  next : ∀ n, v.seat.nextClient = some n →
    n ∈ v.seat.clients ∧ v.seat.activeClient ≠ some n ∧ v.seat.activeClient ≠ none
  nextVt : v.seat.vtBound = true → v.seat.nextClient = none
  owner : ∀ g ∈ v.seat.groupVts, g.owner ∈ v.seat.clients ∨ v.leaving = some g.owner
  groupNodup : (v.seat.groupVts.map GroupVt.vt).Nodup

/-! ## Changes that keep it -/

theorem WF.push {v : View} (h : v.WF) (evs : List Event) : (v.push evs).WF :=
  ⟨h.liveNodup, h.idleNodup, h.clientsNodup, h.live_iff, h.idle_off, h.leaving_off, h.fresh,
    h.idle, h.onSeat, h.leavingSession, h.retired, h.active, h.only, h.next, h.nextVt, h.owner,
    h.groupNodup⟩

/-- Neither the current VT nor the pending switch matters. -/
theorem WF.setVts {v : View} (h : v.WF) (curVt pending : Int) :
    (v.setSeat { v.seat with curVt := curVt, pendingVtSwitch := pending }).WF :=
  ⟨h.liveNodup, h.idleNodup, h.clientsNodup, h.live_iff, h.idle_off, h.leaving_off, h.fresh,
    h.idle, h.onSeat, h.leavingSession, h.retired, h.active, h.only, h.next, h.nextVt, h.owner,
    h.groupNodup⟩

/-- The devices of a client on the seat, or leaving it, may change; those of a client that has
been closed are gone for good. -/
theorem WF.setDevices {v : View} (h : v.WF) {c : ClientId} {ds : List SeatDevice}
    (hc : c ∈ v.seat.clients ∨ v.leaving = some c)
    (hds : (v.client c).state = closed → (v.client c).devices = [] → ds = []) :
    (v.setDevices c ds).WF := by
  cases h
  constructor <;> simp only [View.setDevices, View.set, Function.update_apply] at *
  all_goals grind

theorem WF.eraseGroup {v : View} (h : v.WF) (g : GroupVt) :
    (v.setSeat { v.seat with groupVts := v.seat.groupVts.erase g }).WF := by
  have hsub := List.erase_sublist (a := g) (l := v.seat.groupVts)
  refine ⟨h.liveNodup, h.idleNodup, h.clientsNodup, h.live_iff, h.idle_off, h.leaving_off,
    h.fresh, h.idle, h.onSeat, h.leavingSession, ?_, h.active, h.only, h.next, h.nextVt, ?_, ?_⟩
  · intro c hc hst
    have := h.retired c hc hst
    exact ⟨this.1, this.2.1, fun g' hg' => this.2.2 g' (hsub.subset hg')⟩
  · exact fun g' hg' => h.owner g' (hsub.subset hg')
  · exact h.groupNodup.sublist (hsub.map _)

/-! ## Clients come and go -/

section

variable {k : Kernel} {v : View} {evs : List Event} {c : ClientId}

theorem wf_create (h : v.WF) (hg : Act.create.Guard k v evs) : (Act.create.effect v).WF := by
  -- the new identifier is above every live one, so it is on no list
  simp only [Act.Guard] at hg
  cases h
  constructor <;> simp only [Act.effect, Function.update_apply, Holds] at *
  all_goals grind

theorem wf_join (h : v.WF) {n : Int} (hg : (Act.join c n).Guard k v evs) :
    ((Act.join c n).effect v).WF := by
  -- an idle client without a session is new: it has not been closed, and it holds nothing
  obtain ⟨hleave, hidle, hsession, hn, -⟩ := hg
  cases h
  constructor <;> simp only [Act.effect, View.set, Function.update_apply, Holds] at *
  all_goals grind [List.Nodup.erase, List.Nodup.mem_erase_iff]

theorem wf_detach (h : v.WF) (hg : (Act.detach c).Guard k v evs) :
    ((Act.detach c).effect v).WF := by
  obtain ⟨hleave, hc⟩ := hg
  cases h
  constructor <;> simp only [Act.effect, View.setSeat, Holds] at *
  all_goals grind [List.Nodup.erase, List.Nodup.mem_erase_iff]

theorem wf_vacate (h : v.WF) (hg : (Act.vacate c).Guard k v evs) :
    ((Act.vacate c).effect v).WF := by
  -- the client that held the seat is no longer on it, and nobody else held it
  obtain ⟨hleave, hactive, hds⟩ := hg
  cases h
  constructor <;> simp only [Act.effect, View.setSeat, Holds] at *
  all_goals grind

theorem wf_retire (h : v.WF) (hg : (Act.retire c).Guard k v evs) :
    ((Act.retire c).effect v).WF := by
  obtain ⟨hleave, hactive, hds, hgroups⟩ := hg
  cases h
  constructor <;> simp only [Act.effect, View.set, Function.update_apply, Holds] at *
  all_goals grind

theorem wf_shelve (h : v.WF) (hg : (Act.shelve c).Guard k v evs) :
    ((Act.shelve c).effect v).WF := by
  obtain ⟨hleave, hstate, hseat⟩ := hg
  cases h
  constructor <;> simp only [Act.effect, Holds] at *
  all_goals grind

theorem wf_free (h : v.WF) (hg : (Act.free c).Guard k v evs) :
    ((Act.free c).effect v).WF := by
  obtain ⟨hleave, hstate, hseat⟩ := hg
  cases h
  constructor <;> simp only [Act.effect, Holds] at *
  all_goals grind [List.Nodup.erase, List.Nodup.mem_erase_iff]

theorem wf_freeIdle (h : v.WF) (hg : (Act.freeIdle c).Guard k v evs) :
    ((Act.freeIdle c).effect v).WF := by
  obtain ⟨hleave, hidle⟩ := hg
  cases h
  constructor <;> simp only [Act.effect, Holds] at *
  all_goals grind [List.Nodup.erase, List.Nodup.mem_erase_iff]

/-! ## The seat changes hands -/

theorem wf_opened (h : v.WF) (hg : (Act.opened c).Guard k v evs) :
    ((Act.opened c).effect v).WF := by
  -- no client holds the seat before, and none is queued
  obtain ⟨hc, hst, ha, hn, -⟩ := hg
  cases h
  constructor <;> simp only [Act.effect, View.setSeat, View.set, Function.update_apply, Holds] at *
  all_goals grind

theorem wf_disabled (h : v.WF) {ds : List SeatDevice} {next : Option ClientId}
    (hg : (Act.disabled c ds next).Guard k v evs) : ((Act.disabled c ds next).effect v).WF := by
  obtain ⟨ha, hst, -, hn⟩ := hg
  cases h
  constructor <;> simp only [Act.effect, View.setSeat, View.set, Function.update_apply, Holds] at *
  all_goals grind

theorem wf_acked (h : v.WF) (hg : (Act.acked c).Guard k v evs) :
    ((Act.acked c).effect v).WF := by
  obtain ⟨ha, hst⟩ := hg
  cases h
  constructor <;> simp only [Act.effect, View.setSeat, View.setState, View.set,
    Function.update_apply, Holds] at *
  all_goals grind

theorem wf_addGroup (h : v.WF) {g : GroupVt} (hg : (Act.addGroup g).Guard k v evs) :
    ((Act.addGroup g).effect v).WF := by
  obtain ⟨-, howner, -, hnew⟩ := hg
  refine ⟨h.liveNodup, h.idleNodup, h.clientsNodup, h.live_iff, h.idle_off, h.leaving_off,
    h.fresh, h.idle, h.onSeat, h.leavingSession, ?_, h.active, h.only, h.next, h.nextVt, ?_, ?_⟩
  · intro c hc hst
    have hret := h.retired c hc hst
    refine ⟨hret.1, hret.2.1, fun g' hg' => ?_⟩
    rcases List.mem_cons.mp hg' with rfl | hg'
    · rintro rfl
      exact (h.leaving_off _ hc).2 howner
    · exact hret.2.2 g' hg'
  · intro g' hg'
    rcases List.mem_cons.mp hg' with rfl | hg'
    · exact Or.inl howner
    · exact h.owner g' hg'
  · show (g.vt :: v.seat.groupVts.map GroupVt.vt).Nodup
    refine List.nodup_cons.mpr ⟨fun hmem => ?_, h.groupNodup⟩
    obtain ⟨g', hg', heq⟩ := List.mem_map.mp hmem
    exact hnew g' hg' heq

/-! ## Every transition -/

/-- A client that holds the seat is not closed. -/
theorem WF.active_place (h : v.WF) (hc : v.seat.activeClient = some c) :
    (c ∈ v.seat.clients ∨ v.leaving = some c) ∧ (v.client c).state ≠ closed := by
  obtain ⟨hplace, hst⟩ := h.active c hc
  refine ⟨hplace, fun hcl => ?_⟩
  rw [hcl] at hst
  rcases hst with hst | hst <;> cases hst

/-- Nobody is queued while nobody is active. -/
theorem WF.next_none (h : v.WF) (ha : v.seat.activeClient = none) : v.seat.nextClient = none := by
  by_contra hne
  obtain ⟨n, hn⟩ := Option.ne_none_iff_exists'.mp hne
  exact (h.next n hn).2.2 ha

/-- Every client on the seat but the active one can be opened. -/
theorem WF.openable_of_ne (h : v.WF) (hc : c ∈ v.seat.clients)
    (hne : v.seat.activeClient ≠ some c) :
    (v.client c).state = new ∨ (v.client c).state = disabled := by
  have hholds : ¬ (v.client c).state.Holds := fun hst => hne (h.only c hc hst)
  have hclosed := (h.onSeat c hc).2.1
  unfold ClientState.Holds at hholds
  cases hst : (v.client c).state with
  | new => exact .inl rfl
  | disabled => exact .inr rfl
  | active => exact absurd (.inl hst) hholds
  | pendingDisable => exact absurd (.inr hst) hholds
  | closed => exact absurd hst hclosed

/-- While nobody is active, every client on the seat can be opened. -/
theorem WF.openable (h : v.WF) (ha : v.seat.activeClient = none)
    (hc : c ∈ v.seat.clients) : (v.client c).state = new ∨ (v.client c).state = disabled :=
  h.openable_of_ne hc (by rw [ha]; exact Option.some_ne_none c |>.symm)

/-- **Every transition of the seat machine keeps the seat well-formed.** -/
theorem WF.trans (h : v.WF) {a : Act} {v' : View} (ht : a.Trans k v v') : v'.WF := by
  obtain ⟨evs, hg, -, -, rfl⟩ := ht
  refine WF.push ?_ evs
  cases a with
  | create => exact wf_create h hg
  | join c n => exact wf_join h hg
  | opened c => exact wf_opened h hg
  | openFailed c ds | openDevice c d =>
      exact h.setDevices (Or.inl hg.1) fun hcl => absurd hcl (h.onSeat c hg.1).2.1
  | disabled c ds next => exact wf_disabled h hg
  | acked c => exact wf_acked h hg
  | detach c => exact wf_detach h hg
  | vacate c => exact wf_vacate h hg
  | retire c => exact wf_retire h hg
  | shelve c => exact wf_shelve h hg
  | free c => exact wf_free h hg
  | freeIdle c => exact wf_freeIdle h hg
  | dropDrm c ds | restoreDrm c st =>
      have hc := h.active_place hg.1
      exact h.setDevices hc.1 fun hcl => absurd hcl hc.2
  | addGroup g => exact wf_addGroup h hg
  | destroyGroup g => exact h.eraseGroup g
  | removeGroup g => exact h.eraseGroup g
  | adjust c ds =>
      refine h.setDevices hg.1 fun _ hnil => ?_
      have := hg.2
      rw [hnil] at this
      exact List.forall₂_nil_left_iff.mp this
  | closeDevice c i =>
      refine h.setDevices hg.1 fun _ hnil => ?_
      rw [hnil, List.eraseIdx_nil]
  | queueFd c d => exact h
  | setVt n => exact h.setVts n v.seat.pendingVtSwitch
  | vtEvent n => exact h.setVts n _
  | setPending n => exact h.setVts v.seat.curVt n

end

end View

end DdeSeatd
