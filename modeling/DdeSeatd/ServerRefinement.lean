import DdeSeatd.Calls
import DdeSeatd.SeatRefinement

set_option autoImplicit false

/-! # The daemon refines the seat machine

The remaining functions that change the seat, the request handlers, and the theorem the safety
proofs start from: a step of the daemon is a path of the seat machine (`step_path`), whose
transitions are those its kind allows (`Step.Allows`).
-/

namespace DdeSeatd

open Labelled ClientState

/-! ## Failing flushes -/

/-- Sending what is queued for the peer fails, and not for lack of room. -/
def FlushFails (k : Kernel) (s : Server) (p : Peer) : Prop :=
  match (connectionFlush (s.connection p) (k.sendmsg s.trace p)).ret with
  | .ok _ => False
  | .error e => e ≠ EAGAIN

theorem flushFails_iff (k : Kernel) (s : Server) (p : Peer) :
    FlushFails k s p ↔ (s.flush k p).1 = false ∧ (s.flush k p).2.errno ≠ EAGAIN := by
  unfold FlushFails Server.flush Server.finishIo
  cases hret : (connectionFlush (s.connection p) (k.sendmsg s.trace p)).ret with
  | ok n => simp
  | error e => simp [Server.setErrno]

instance (k : Kernel) (s : Server) (p : Peer) : Decidable (FlushFails k s p) :=
  decidable_of_iff _ (flushFails_iff k s p).symm

theorem clientFlush_fails_iff (k : Kernel) (s : Server) (c : ClientId) :
    (clientFlush k s c).1 = false ↔ FlushFails k s (.client c) := by
  rw [flushFails_iff]
  unfold clientFlush
  dsimp only
  cases hok : (s.flush k (.client c)).1 with
  | true => simp [hok]
  | false =>
      by_cases hagain : (s.flush k (.client c)).2.errno = EAGAIN
      · simp [hagain]
      · simp [hagain, hok]

/-- The client is destroyed for its request: the handler fails, or what is queued cannot be
sent. -/
def Request.Fails (k : Kernel) (s : Server) (c : ClientId) (r : Request) : Prop :=
  (handleRequest k s c r).1 = false ∨ FlushFails k (handleRequest k s c r).2 (.client c)

/-- The step takes the client off the seat, if it is on it: the client closes the seat, disconnects
or is destroyed. -/
def Step.TakesOff (k : Kernel) (s : Server) (c : ClientId) : Step → Prop
  | .request o r => o = c ∧ (r = .closeSeat ∨ r.Fails k s c)
  | .writable o => o = c ∧ FlushFails k s (.client c)
  | .disconnect o => o = c
  | _ => False

instance (k : Kernel) (s : Server) (c : ClientId) (r : Request) : Decidable (r.Fails k s c) :=
  inferInstanceAs (Decidable (_ ∨ _))

instance (k : Kernel) (s : Server) (c : ClientId) : (st : Step) → Decidable (st.TakesOff k s c)
  | .request _ _ => inferInstanceAs (Decidable (_ ∧ _))
  | .writable _ => inferInstanceAs (Decidable (_ ∧ _))
  | .disconnect _ => inferInstanceAs (Decidable (_ = _))
  | .connect _ | .vtRelease | .vtAcquire | .vtEvent _ _ | .controlConnect _ | .control _ _
  | .controlWritable _ | .controlDisconnect _ => .isFalse id

/-! ## What a step may do -/

/-- Transitions that free a client. -/
def Act.Frees : Act → Prop
  | .free _ | .freeIdle _ => True
  | _ => False

/-- Transitions by which `c` is destroyed. -/
def Act.Destroys (c : ClientId) (current : Prop) (a : Act) : Prop :=
  a.Removes c current ∨ a = .free c ∨ a = .freeIdle c

/-- The transitions of the handler of a request of `c`. -/
def Request.Allows (k : Kernel) (s : Server) (c : ClientId) (r : Request) : Act → Prop
  | .setVt n => r = .openSeat ∧ n = (seatUpdateVt k s).2.seat.curVt
  | .join o n => r = .openSeat ∧ o = c ∧ (seatAddClient k s c).1 = true
      ∧ (s.seat.vtBound = true → n = (seatUpdateVt k s).2.seat.curVt)
  | .opened o | .openFailed o _ => r = .openSeat ∧ o = c ∧ (seatAddClient k s c).1 = true
      ∨ s.seat.activeClient = some c ∧ (r = .disableSeat ∧ (s.clients c).state = pendingDisable
        ∨ r = .closeSeat ∧ o ≠ c)
  | .disabled _ _ _ => ∃ session, r = .switchSession session
  | .setPending n => ∃ session, r = .switchSession session ∧ (n = session ∨ n = 0)
  | .acked o => r = .disableSeat ∧ o = c
  | .detach o | .vacate o | .retire o | .shelve o => r = .closeSeat ∧ o = c
  | .removeGroup g => r = .closeSeat ∧ g.owner = c
  | .openDevice o d => o = c ∧ (s.clients c).state = .active ∧ ∃ path p, r = .openDevice path
      ∧ k.realpath s.trace path = .ok p ∧ deviceType k.platform p = some d.type
  | .queueFd o _ => o = c ∧ ∃ path, r = .openDevice path
  | .adjust o _ | .closeDevice o _ => o = c
  | _ => False

/-- The transitions of the handler of a control request. -/
def ControlRequest.Allows (k : Kernel) (s : Server) (r : ControlRequest) : Act → Prop
  | .addGroup g => ∃ pid vt, r = .createGroupVt pid vt
      ∧ controlFindOwnerClient s pid = some g.owner ∧ (seatCreateGroupVt k s g.owner vt).1 ≠ -1
      ∧ g.vt = (groupVtChoice k s vt).1
  | .destroyGroup g => r = .destroyGroupVt g.vt
  | .setVt _ => True
  | .setPending _ => (∃ vt, r = .switchVt vt ∧ 0 < vt) ∧ (seatUpdateVt k s).1 = true
  | _ => False

/-- The transitions of a step. A client whose request fails is destroyed, so such a request also
does what a disconnect does. -/
def Step.Allows (k : Kernel) (s : Server) (st : Step) (a : Act) : Prop :=
  match st with
  | .connect _ => a = .create ∨ a.Frees
  | .request c r => r.Allows k s c a ∨ r.Fails k s c
      ∧ a.Destroys c (s.seat.activeClient = some c ∨ r = .openSeat ∧ s.seat.activeClient = none)
  | .writable c => FlushFails k s (.client c) ∧ a.Destroys c (s.seat.activeClient = some c)
  | .disconnect c => a.Destroys c (s.seat.activeClient = some c)
  | .vtRelease => (∃ n, a = .setVt n) ∨ ∃ c ds, a = .dropDrm c ds
  | .vtAcquire => ∃ n, a = .setVt n
  | .vtEvent _ n =>
      a = .vtEvent n ∨ a.Opens (· ∈ s.seat.clients) ∨ (∃ c ds, a = .disabled c ds s.seat.nextClient)
        ∨ ∃ c, s.seat.activeClient = some c ∧ clientOwnsVt s c n = true
          ∧ a = .restoreDrm c (s.clients c).state
  | .control _ r => r.Allows k s a
  | .controlConnect _ | .controlWritable _ | .controlDisconnect _ => False

/-- The client holds the seat and the step makes it free: the client acknowledges its disable, or is
taken off the seat. -/
def Step.Vacates (k : Kernel) (s : Server) (c : ClientId) (st : Step) : Prop :=
  s.seat.activeClient = some c ∧ (st.TakesOff k s c
    ∨ st = .request c .disableSeat ∧ (s.clients c).state = pendingDisable)

instance (k : Kernel) (s : Server) (c : ClientId) (st : Step) : Decidable (st.Vacates k s c) :=
  inferInstanceAs (Decidable (_ ∧ _))

/-- The VT on which `seat_activate` looks for a client to get the seat: the current client makes the
seat free, or one that has just got it is destroyed, or a VT event comes while nobody has it. -/
def Step.seatFreeOn (k : Kernel) (s : Server) (st : Step) : Option Int :=
  match st, st.client with
  | .vtEvent _ newVt, _ => if s.seat.activeClient = none then some newVt else none
  | _, some c =>
      if st.Vacates k s c then some s.seat.curVt
      else if s.seat.activeClient = none ∧ st = .request c .openSeat ∧ st.TakesOff k s c then
        some (s.vtShown k)
      else none
  | _, none => none

/-- The step may hand the seat to `o`, which owns the VT on which it is free. A client that leaves
does not get it back. -/
def Step.HandsTo (k : Kernel) (s : Server) (o : ClientId) (st : Step) : Prop :=
  (∃ vt ∈ st.seatFreeOn k s, clientOwnsVt s o vt = true)
    ∧ (st.client = some o → st = .request o .disableSeat)

instance (k : Kernel) (s : Server) (o : ClientId) (st : Step) : Decidable (st.HandsTo k s o) :=
  inferInstanceAs (Decidable (_ ∧ _))

theorem Step.Vacates.seatFreeOn {k : Kernel} {s : Server} {c : ClientId} {st : Step}
    (h : st.Vacates k s c) (hclient : st.client = some c) :
    st.seatFreeOn k s = some s.seat.curVt := by
  unfold Step.seatFreeOn
  cases st <;> simp_all [Step.client]

/-- The step a transition comes from, where the proofs ask for it. -/
def Step.Cause (k : Kernel) (s : Server) (st : Step) : Act → Prop
  -- only `server_add_client` makes a client
  | .create => ∃ pid, st = .connect pid
  -- only a client that asks for it joins the seat
  | .join c n => st = .request c .openSeat ∧ (seatAddClient k s c).1 = true
      ∧ (s.seat.vtBound = true → n = (seatUpdateVt k s).2.seat.curVt)
  | .addGroup g => ∃ i pid vt, st = .control i (.createGroupVt pid vt)
      ∧ controlFindOwnerClient s pid = some g.owner ∧ (seatCreateGroupVt k s g.owner vt).1 ≠ -1
      ∧ g.vt = (groupVtChoice k s vt).1
  -- devices are opened by an ACTIVE client, and are what their path says
  | .openDevice c d => (s.clients c).state = active ∧ ∃ path p, st = .request c (.openDevice path)
      ∧ k.realpath s.trace path = .ok p ∧ deviceType k.platform p = some d.type
  -- a step of a client looks at the current VT when the client joins
  | .setVt n => st.client ≠ none →
      (∃ c, st = .request c .openSeat) ∧ n = (seatUpdateVt k s).2.seat.curVt
  | .destroyGroup g => ∃ i, st = .control i (.destroyGroupVt g.vt)
  | .vtEvent n => ∃ oldVt, st = .vtEvent oldVt n
  -- a client is opened when it joins, when the current one leaves or acknowledges its disable, or
  -- at a VT event
  | .opened o =>
      (∃ c, st = .request c .openSeat)
      ∨ (∃ c, st.client = some c ∧ st.Vacates k s c ∧ (o = c → st = .request c .disableSeat))
      ∨ ∃ oldVt newVt, st = .vtEvent oldVt newVt
  -- DRM master is given back by a VT event to a VT of the active client
  | .restoreDrm c _ => ∃ oldVt newVt, st = .vtEvent oldVt newVt ∧ s.seat.activeClient = some c
      ∧ clientOwnsVt s c newVt = true
  | _ => True

section

variable {k : Kernel} {s : Server} {st : Step}

/-- Every transition is allowed only by the steps it can come from. -/
theorem Step.Allows.cause {a : Act} (h : st.Allows k s a) : st.Cause k s a := by
  cases a <;> first
    | trivial
    | (cases st <;> simp_all [Step.Cause, Step.Allows, Request.Allows, ControlRequest.Allows,
        Act.Destroys, Act.Removes, Act.Opens, Act.Frees, Step.client, Step.Vacates,
        Step.TakesOff])
  case opened.request => grind

end

/-- Everything but creating and freeing keeps the list of live clients. -/
theorem live_of_path {k : Kernel} {P : Act → Prop} (hP : ∀ a, P a → a ≠ .create ∧ ¬ a.Frees)
    {v v' : View} (hp : Act.Path k P v v') : v'.live = v.live := by
  refine Path.invariant (I := fun u => u.live = v.live) ?_ hp rfl
  rintro a u u' ha ⟨evs, -, -, -, rfl⟩ hu
  obtain ⟨hcreate, hfree⟩ := hP a ha
  cases a <;> first | exact hu | exact absurd rfl hcreate | exact absurd trivial hfree

/-- `vt_bound` is set once and for all. -/
theorem vtBound_of_path {k : Kernel} {P : Act → Prop} {v v' : View} (hp : Act.Path k P v v') :
    v'.seat.vtBound = v.seat.vtBound := by
  refine Path.invariant (I := fun u => u.seat.vtBound = v.seat.vtBound) ?_ hp rfl
  rintro a u u' - ⟨evs, -, -, -, rfl⟩ hu
  cases a <;> exact hu

section

variable (k : Kernel) (s : Server) {c : ClientId} {P : Act → Prop}

/-! ## Places -/

theorem mem_of_seat (h : (s.view none).WF) (hlive : c ∈ s.live)
    (hseat : (s.clients c).seat = true) : c ∈ s.seat.clients := by
  rcases (h.live_iff c).mp hlive with hidle | hc | hleave
  · have := (h.idle c hidle).1
    rw [show ((s.view none).client c).seat = (s.clients c).seat from rfl, hseat] at this
    cases this
  · exact hc
  · cases hleave

theorem mem_idle_of_seat (h : (s.view none).WF) (hlive : c ∈ s.live)
    (hseat : (s.clients c).seat = false) : c ∈ s.idleClients := by
  rcases (h.live_iff c).mp hlive with hidle | hc | hleave
  · exact hidle
  · have := (h.onSeat c hc).1
    rw [show ((s.view none).client c).seat = (s.clients c).seat from rfl, hseat] at this
    cases this
  · cases hleave

/-! ## Group VTs -/

section

variable {P : Act → Prop}

/-- `seat_create_group_vt` fails and changes nothing, or registers a VT, the requested one or
one that is free, that neither is the owner's session nor registered already. -/
theorem seatCreateGroupVt_cases (x : Option ClientId) (c : ClientId) (requestedVt : Int) :
    (seatCreateGroupVt k s c requestedVt).2.view x = s.view x
    ∨ ∃ vt, s.seat.vtBound = true ∧ (s.clients c).seat = true
        ∧ vt = (groupVtChoice k s requestedVt).1 ∧ (seatCreateGroupVt k s c requestedVt).1 = vt
        ∧ vt ≠ -1 ∧ vt ≠ (s.clients c).session ∧ (∀ g ∈ s.seat.groupVts, g.vt ≠ vt)
        ∧ (seatCreateGroupVt k s c requestedVt).2.view x
          = (s.view x).setSeat { s.seat with groupVts := ⟨c, vt⟩ :: s.seat.groupVts } := by
  unfold seatCreateGroupVt
  by_cases hb : s.seat.vtBound = false
  · rw [if_pos hb]
    exact Or.inl rfl
  rw [if_neg hb]
  by_cases hseat : (s.clients c).seat = false
  · rw [if_pos hseat]
    exact Or.inl rfl
  rw [if_neg hseat]
  dsimp only
  obtain ⟨q, hq, hview⟩ : ∃ q, groupVtChoice k s requestedVt = q ∧ q.2.view x = s.view x := by
    refine ⟨_, rfl, ?_⟩
    unfold groupVtChoice
    split_ifs <;> simp
  have hseats : q.2.seat = s.seat := congrArg View.seat hview
  have hsession : (q.2.clients c).session = (s.clients c).session :=
    congrArg (fun u => (View.client u c).session) hview
  rw [hq, hseats, hsession]
  have halloc := (view_sys k q.2 x (c := .alloc) rfl).trans hview
  have hopen : (vtOpen k (q.2.sys k .alloc).2 q.1).2.view x = s.view x := by
    rw [view_vtOpen, halloc]
  split_ifs with h1 h2 h3 h4
  · exact Or.inl hview
  · exact Or.inl hview
  · exact Or.inl halloc
  · refine Or.inr ⟨q.1, by simpa using hb, by simpa using hseat, rfl, rfl, h1, ?_, ?_, ?_⟩
    · exact fun heq => h2 (Or.inl heq)
    · intro g hg heq
      refine h2 (Or.inr ?_)
      rw [seatFindGroupVt, List.find?_isSome]
      exact ⟨g, hg, by simpa using heq⟩
    · rw [view_setSeat, hopen, show (vtOpen k (q.2.sys k .alloc).2 q.1).2.seat = s.seat from
        congrArg View.seat hopen]
  · exact Or.inl hopen

theorem seatCreateGroupVt_fails (owner : ClientId) {requestedVt : Int}
    (h : (groupVtChoice k s requestedVt).1 = -1) :
    (seatCreateGroupVt k s owner requestedVt).1 = -1 := by
  unfold seatCreateGroupVt
  dsimp only
  rw [if_pos h]
  split_ifs <;> rfl

theorem seatCreateGroupVt_path {c : ClientId} {requestedVt : Int}
    (hP : (seatCreateGroupVt k s c requestedVt).1 ≠ -1 →
      P (.addGroup ⟨c, (groupVtChoice k s requestedVt).1⟩))
    (hc : c ∈ s.seat.clients) :
    Act.Path k P (s.view none) ((seatCreateGroupVt k s c requestedVt).2.view none) := by
  rcases seatCreateGroupVt_cases k s none c requestedVt with
    hview | ⟨vt, hb, -, rfl, hres, hne, hsession, hnew, hview⟩
  · rw [hview]
    exact .refl _
  · rw [hview]
    exact .single (.addGroup ⟨c, _⟩) (hP (hres ▸ hne))
      (Act.Trans.silent ⟨hb, hc, hsession, hnew⟩ (fun _ => rfl) rfl)

theorem seatDestroyGroupVt_path (vt : Int) (hP : ∀ g, g.vt = vt → P (.destroyGroup g)) :
    Act.Path k P (s.view none) ((seatDestroyGroupVt k s vt).2.view none) := by
  unfold seatDestroyGroupVt
  cases hfind : seatFindGroupVt s.seat vt with
  | none => exact .refl _
  | some g =>
      have hg : g.vt = vt := by simpa using List.find?_some hfind
      refine .single (.destroyGroup g) (hP g hg) ?_
      have htrans : (Act.destroyGroup g).Trans k (s.view none)
          ((s.setSeat { s.seat with groupVts := s.seat.groupVts.erase g }).view none) :=
        Act.Trans.silent (List.mem_of_find?_eq_some hfind) (fun _ => rfl) rfl
      dsimp only
      split_ifs
      · rw [view_vtClose]
        exact htrans
      · exact htrans

end

/-! ## Joining -/

/-- The restarting loop stops at a number that is not taken, or runs through as many numbers
as it has rounds. -/
theorem nextSessionLoop_spec (sessions : List Int) (fuel : Nat) (n : Int) :
    n ≤ nextSessionLoop sessions fuel n
    ∧ (∀ m, n ≤ m → m < nextSessionLoop sessions fuel n → m ∈ sessions)
    ∧ (nextSessionLoop sessions fuel n ∉ sessions ∨ nextSessionLoop sessions fuel n = n + fuel) := by
  induction fuel generalizing n with
  | zero =>
      simp only [nextSessionLoop, le_refl, true_and]
      exact ⟨fun m h1 h2 => by omega, Or.inr (by simp)⟩
  | succ fuel ih =>
      unfold nextSessionLoop
      split_ifs with hmem
      · obtain ⟨h1, h2, h3⟩ := ih (n + 1)
        refine ⟨by omega, fun m hm hlt => ?_, h3.imp_right fun h => by rw [h]; push_cast; ring⟩
        rcases eq_or_lt_of_le hm with rfl | hm
        · exact hmem
        · exact h2 m (by omega) hlt
      · exact ⟨le_rfl, fun m h1 h2 => by omega, Or.inl hmem⟩

/-- Numbers that are all taken are not more than there are sessions. -/
theorem le_length_of_taken {n : Int} {sessions : List Int}
    (htaken : ∀ m, 1 ≤ m → m < n → m ∈ sessions) : n ≤ sessions.length + 1 := by
  have hsub : (List.range (n - 1).toNat).map (fun i : Nat => (i : Int) + 1) ⊆ sessions := by
    intro m hm
    obtain ⟨i, hi, rfl⟩ := List.mem_map.mp hm
    have := List.mem_range.mp hi
    exact htaken _ (by omega) (by omega)
  have hnodup : ((List.range (n - 1).toNat).map (fun i : Nat => (i : Int) + 1)).Nodup :=
    List.nodup_range.map fun i j hij => by simpa using hij
  have hlen := (List.subperm_of_subset hnodup hsub).length_le
  rw [List.length_map, List.length_range] at hlen
  omega

/-- The session number of a new client is positive and nobody's. -/
theorem nextSession_spec :
    1 ≤ nextSession s ∧ ∀ o ∈ s.seat.clients, (s.clients o).session ≠ nextSession s := by
  set sessions := s.seat.clients.map fun c => (s.clients c).session with hsessions
  obtain ⟨h1, h2, h3⟩ := nextSessionLoop_spec sessions (s.seat.clients.length + 1) 1
  have hfree : nextSession s ∉ sessions := by
    rcases h3 with h3 | h3
    · exact h3
    · -- otherwise more sessions than clients are taken
      have hlen := le_length_of_taken h2
      rw [h3, hsessions, List.length_map] at hlen
      omega
  refine ⟨h1, fun o ho heq => hfree ?_⟩
  rw [← heq]
  exact List.mem_map_of_mem ho

theorem view_seatLinkClient (c : ClientId) (n : Int) :
    (seatLinkClient s c n).view none = (Act.join c n).effect (s.view none) := by
  have hset := view_setClient s none c { s.clients c with session := n, seat := true }
  have hclient := congrArg View.client hset
  unfold seatLinkClient Act.effect Server.view
  dsimp only
  congr 1

/-- **`seat_add_client`** fails, having at most looked at the current VT, or the client joins:
on a VT-bound seat with the current VT as its session. -/
theorem seatAddClient_cases (h : (s.view none).WF) (hlive : c ∈ s.live) :
    ((seatAddClient k s c).1 = false
      ∧ Act.Path k (fun a => a = .setVt (seatUpdateVt k s).2.seat.curVt) (s.view none)
          ((seatAddClient k s c).2.view none))
    ∨ ((seatAddClient k s c).1 = true ∧ ∃ s1 n,
        Act.Path k (fun a => a = .setVt (seatUpdateVt k s).2.seat.curVt) (s.view none)
          (s1.view none)
        ∧ (Act.join c n).Trans k (s1.view none) ((seatAddClient k s c).2.view none)
        ∧ (s.seat.vtBound = true → s1 = (seatUpdateVt k s).2
          ∧ n = (seatUpdateVt k s).2.seat.curVt)) := by
  have hupd := seatUpdateVt_path k s none
    (P := fun a => a = .setVt (seatUpdateVt k s).2.seat.curVt) rfl
  unfold seatAddClient
  by_cases hseat : (s.clients c).seat = true
  · rw [if_pos hseat]
    exact Or.inl ⟨rfl, .refl _⟩
  rw [if_neg hseat]
  dsimp only
  split_ifs with hbusy hsession hb hcur hpending
  · exact Or.inl ⟨rfl, .refl _⟩
  · exact Or.inl ⟨rfl, .refl _⟩
  · exact Or.inl ⟨rfl, hupd⟩
  · exact Or.inl ⟨rfl, hupd⟩
  · have hidle := mem_idle_of_seat s h hlive (by simpa using hseat)
    refine Or.inr ⟨rfl, (seatUpdateVt k s).2, _, hupd, ?_, fun _ => ⟨rfl, rfl⟩⟩
    have hsame : ∀ {w : View}, (seatUpdateVt k s).2.view none = w → w.leaving = none →
        w.idle = s.idleClients → w.client = (s.view none).client → w.seat.vtBound = true →
        (Act.join c (seatUpdateVt k s).2.seat.curVt).Guard k ((seatUpdateVt k s).2.view none) [] := by
      intro w hw h1 h2 h3 h4
      refine ⟨rfl, ?_, ?_, hcur, ?_⟩
      · rw [hw, h2]
        exact hidle
      · rw [hw, h3]
        exact not_not.mp hsession
      · rw [if_pos (by rw [hw]; exact h4)]
        rfl
    rw [view_seatLinkClient]
    refine Act.Trans.silent ?_ (fun _ => rfl) rfl
    rcases view_seatUpdateVt k s none with hw | ⟨n, -, -, hw⟩
    · exact hsame hw rfl rfl rfl hb
    · exact hsame hw rfl rfl rfl hb
  · have hidle := mem_idle_of_seat s h hlive (by simpa using hseat)
    refine Or.inr ⟨rfl, s, nextSession s, .refl _, ?_, fun hb' => absurd hb' hb⟩
    rw [view_seatLinkClient]
    obtain ⟨hpos, hfree⟩ := nextSession_spec s
    refine Act.Trans.silent ⟨rfl, hidle, not_not.mp hsession, by omega, ?_⟩ (fun _ => rfl) rfl
    show if s.seat.vtBound = true then _ else _
    rw [if_neg hb]
    exact ⟨hpos, hfree⟩

/-! ## Devices -/

theorem openNewDevice_cases (c : ClientId) (path : CString) (type : SeatDeviceType) :
    ((openNewDevice k s c path type).1 = none
      ∧ (openNewDevice k s c path type).2.view none = s.view none)
    ∨ ∃ fd, (openNewDevice k s c path type).1 = some 0
        ∧ (openNewDevice k s c path type).2.view none = (s.view none).setDevices c
            (⟨nextDeviceId (s.clients c).devices, fd, 1, true, path, type⟩
              :: (s.clients c).devices) := by
  have hopen := view_sys k s none (c := .openDevice path) rfl
  set o := s.sys k (.openDevice path) with ho
  set s1 := if type = .drm then (drmSetMaster k o.2.newFd o.2.nextFd).2 else o.2.newFd with hs1
  have hmaster : s1.view none = s.view none := by
    rw [hs1]
    split_ifs
    · exact (view_call k _ none rfl).trans hopen
    · exact hopen
  have halloc : (s1.sys k .alloc).2.view none = s.view none :=
    (view_sys k s1 none rfl).trans hmaster
  unfold openNewDevice
  dsimp only
  rw [← ho, ← hs1]
  split_ifs
  · exact Or.inl ⟨rfl, hopen⟩
  · exact Or.inl ⟨rfl, (view_sys k _ none rfl).trans halloc⟩
  · exact Or.inr ⟨_, rfl, by rw [view_setDevices, halloc]⟩

/-- **`seat_open_device`** fails and changes nothing, or yields a device of the client, which is
the active one. -/
theorem seatOpenDevice_cases (h : (s.view none).WF) (hc : c ∈ s.seat.clients) (path : CString) :
    ((seatOpenDevice k s c path).1 = none
      ∧ (seatOpenDevice k s c path).2.view none = s.view none)
    ∨ ∃ i d, (seatOpenDevice k s c path).1 = some i
        ∧ ((seatOpenDevice k s c path).2.clients c).devices[i]? = some d
        ∧ (seatOpenDevice k s c path).2.seat = s.seat ∧ s.seat.activeClient = some c
        ∧ ((seatOpenDevice k s c path).2.clients c).state = .active
        ∧ Act.Path k (Request.Allows k s c (.openDevice path)) (s.view none)
            ((seatOpenDevice k s c path).2.view none) := by
  unfold seatOpenDevice
  dsimp only
  by_cases hst : (s.clients c).state ≠ .active
  · rw [if_pos hst]
    exact Or.inl ⟨rfl, rfl⟩
  rw [if_neg hst]
  have hst' : (s.clients c).state = .active := not_not.mp hst
  have hactive : s.seat.activeClient = some c := h.only c hc (Or.inl hst')
  -- a change of the devices keeps the rest
  have hkeep : ∀ {s' : Server} {ds : List SeatDevice},
      s'.view none = (s.view none).setDevices c ds →
      (s'.clients c).devices = ds ∧ s'.seat = s.seat ∧ (s'.clients c).state = .active := by
    intro s' ds hview
    have hcl : (s'.clients c).view = _ := congrArg (fun u => View.client u c) hview
    rw [View.client_setDevices, if_pos rfl] at hcl
    exact ⟨congrArg ClientView.devices hcl, congrArg View.seat hview,
      (congrArg ClientView.state hcl).trans hst'⟩
  cases hreal : k.realpath s.trace path with
  | error e => exact Or.inl ⟨rfl, rfl⟩
  | ok p =>
      dsimp only
      cases htype : deviceType k.platform p with
      | none => exact Or.inl ⟨rfl, rfl⟩
      | some type =>
          dsimp only
          cases hfind : (s.clients c).devices.findIdx? fun d => d.path = p with
          | some i =>
              -- the device is open already: one more reference
              obtain ⟨hi, -⟩ := List.findIdx?_eq_some_iff_getElem.mp hfind
              have hview := view_setDevices s none c
                ((s.clients c).devices.modify i fun d => { d with refCnt := d.refCnt + 1 })
              obtain ⟨hds, hseat, hstate⟩ := hkeep hview
              obtain ⟨d, hd⟩ : ∃ d, ((s.clients c).devices.modify i fun d =>
                  { d with refCnt := d.refCnt + 1 })[i]? = some d := by
                rw [List.getElem?_modify_eq, List.getElem?_eq_getElem hi]
                exact ⟨_, rfl⟩
              refine Or.inr ⟨i, d, rfl, by rw [hds]; exact hd, hseat, hactive, hstate, ?_⟩
              rw [hview]
              refine .single (.adjust c _) rfl
                (Act.Trans.silent ⟨Or.inl hc, ?_⟩ (fun _ => rfl) rfl)
              refine ListRel.forall₂_modify ?_ ?_ (s.clients c).devices i <;> exact fun _ => rfl
          | none =>
              dsimp only
              split_ifs
              · exact Or.inl ⟨rfl, rfl⟩
              · rcases openNewDevice_cases k s c p type with hfail | ⟨fd, hok, hview⟩
                · exact Or.inl hfail
                · obtain ⟨hds, hseat, hstate⟩ := hkeep hview
                  refine Or.inr ⟨0, _, hok, by rw [hds]; rfl, hseat, hactive, hstate, ?_⟩
                  rw [hview]
                  exact .single (.openDevice c _) ⟨rfl, hst', path, p, rfl, hreal, htype⟩
                    (Act.Trans.silent ⟨hc, hactive, hst', rfl⟩ (fun _ => rfl) rfl)

/-- Queueing the fd of a device of the active client. -/
theorem sendDevice_path {d : SeatDevice} (hP : P (.queueFd c d))
    (hactive : s.seat.activeClient = some c) (hst : (s.clients c).state = .active)
    (hd : d ∈ (s.clients c).devices) :
    Act.Path k P (s.view none) ((sendDevice k s c d).2.view none) := by
  unfold sendDevice
  dsimp only
  split
  · exact .refl _
  · rw [view_clientPutMsg k _ none c rfl, view_record _ none rfl, view_setConnection]
    exact .single (.queueFd c d) hP
      ⟨[.fdQueued c d.fd s.nextFd d.type], ⟨hactive, hst, hd⟩, fun _ => rfl, rfl, rfl⟩

theorem handleOpenDevice_path (h : (s.view none).WF) (hlive : c ∈ s.live) (path : CString) :
    Act.Path k (Request.Allows k s c (.openDevice path)) (s.view none)
      ((handleOpenDevice k s c path).2.view none) := by
  unfold handleOpenDevice
  by_cases hseat : (s.clients c).seat = false
  · rw [if_pos hseat]
    exact .refl _
  rw [if_neg hseat]
  have hc := mem_of_seat s h hlive (by simpa using hseat)
  dsimp only
  set o := seatOpenDevice k s c path with ho
  rcases seatOpenDevice_cases k s h hc path with
    ⟨hnone, hview⟩ | ⟨i, d, hi, hd, hsame, hactive, hst, hpath⟩
  · rw [show o.1.bind _ = none by rw [ho, hnone]; rfl]
    rw [view_clientSendError, hview]
    exact .refl _
  · rw [show (o.1.bind fun i => (o.2.clients c).devices[i]?.map fun d => (i, d)) = some (i, d) by
      rw [ho, hi]
      show ((seatOpenDevice k s c path).2.clients c).devices[i]?.map _ = _
      rw [hd]
      rfl]
    dsimp only
    refine hpath.trans ?_
    have hdup := view_call k o.2 none (c := .dup d.fd) rfl
    have hdupSeat : (o.2.call k (.dup d.fd)).2.seat = s.seat :=
      (congrArg View.seat hdup).trans hsame
    have hdupClient : ((o.2.call k (.dup d.fd)).2.clients c).view = (o.2.clients c).view :=
      congrArg (fun u => View.client u c) hdup
    rw [← ho, ← hdup]
    split_ifs
    · refine sendDevice_path k _ ⟨rfl, path, rfl⟩ (by rw [hdupSeat]; exact hactive) ?_ ?_
      · exact (congrArg ClientView.state hdupClient).trans hst
      · rw [show ((o.2.call k (.dup d.fd)).2.clients c).devices = (o.2.clients c).devices from
          congrArg ClientView.devices hdupClient]
        exact List.mem_of_getElem? hd
    · rw [view_clientSendError]
      refine (seatCloseDevice_path k _ none (Or.inl (by rw [hdupSeat]; exact hc)) i).mono
        fun a ha => ?_
      cases a <;> cases ha <;> trivial

/-! ## Handlers -/

/-- Every handler may close devices. -/
theorem Act.Closes.allows {r : Request} {a : Act} (ha : a.Closes c) :
    r.Allows k s c a := by
  cases a <;> first | exact ha | cases ha

/-- After the client has joined, `handle_open_seat` at most opens it. -/
theorem handleOpenSeat_joined (h : (s.view none).WF) (hlive : c ∈ s.live)
    (hok : (seatAddClient k s c).1 = true) :
    Act.Path k (Act.Opens (· = c)) ((seatAddClient k s c).2.view none)
      ((handleOpenSeat k s c).2.view none) := by
  rcases seatAddClient_cases k s h hlive with ⟨hfail, -⟩ | ⟨-, s1, n, hpath, hjoin, -⟩
  · rw [hok] at hfail
    cases hfail
  unfold handleOpenSeat
  dsimp only
  rw [if_pos hok]
  have hput := view_clientPutMsg k (seatAddClient k s c).2 none c (m := .seatOpened SEAT0) rfl
  set s2 := (clientPutMsg k (seatAddClient k s c).2 c (.seatOpened SEAT0)).2 with hs2
  split_ifs
  · have hwf : (s2.view none).WF := hput ▸ (h.path hpath).trans hjoin
    -- what the client needs to be opened, read off the view it joined with
    obtain ⟨evs, ⟨-, -, -, -, hsession⟩, -, -, hview⟩ := hjoin
    rw [← hput] at hview
    have hseat : s2.seat = { s1.seat with clients := c :: s1.seat.clients } :=
      congrArg View.seat hview
    have hclient : ((s2.view none).client c).session = n := by
      rw [hview]
      simp [Act.effect, View.push, View.set]
    rw [← hput]
    refine seatOpenClient_path k s2 none ?_ ?_ ?_
    · rw [hseat]
      exact List.mem_cons_self
    · exact hwf.next_none
    · intro hb
      have hb1 : (s1.view none).seat.vtBound = true := by
        rw [hseat] at hb
        exact hb
      rw [if_pos hb1] at hsession
      refine Or.inl ?_
      rw [hclient, hseat]
      exact hsession
  · rw [hput]
    exact .refl _

theorem handleOpenSeat_path (hvt : P (.setVt (seatUpdateVt k s).2.seat.curVt))
    (hjoin : (seatAddClient k s c).1 = true → ∀ n,
      (s.seat.vtBound = true → n = (seatUpdateVt k s).2.seat.curVt) → P (.join c n))
    (hopens : (seatAddClient k s c).1 = true → ∀ a, a.Opens (· = c) → P a) (h : (s.view none).WF)
    (hlive : c ∈ s.live) :
    Act.Path k P (s.view none) ((handleOpenSeat k s c).2.view none) := by
  have hvt' : ∀ a, a = Act.setVt (seatUpdateVt k s).2.seat.curVt → P a := by
    rintro _ rfl
    exact hvt
  rcases seatAddClient_cases k s h hlive with ⟨hfail, hpath⟩ | ⟨hok, s1, n, hpath, htrans, hn⟩
  · unfold handleOpenSeat
    dsimp only
    rw [if_neg (ne_true_of_eq_false hfail)]
    exact hpath.mono hvt'
  · have hjoined : Act.Path k P (s.view none) ((seatAddClient k s c).2.view none) :=
      (hpath.mono hvt').tail (.join c n) (hjoin hok n fun hb => (hn hb).2) htrans
    exact hjoined.trans ((handleOpenSeat_joined k s h hlive hok).mono (hopens hok))

theorem handleCloseSeat_path (h : (s.view none).WF) (hlive : c ∈ s.live) :
    Act.Path k (Request.Allows k s c .closeSeat) (s.view none)
      ((handleCloseSeat k s c).2.view none) := by
  unfold handleCloseSeat
  by_cases hseat : (s.clients c).seat = false
  · rw [if_pos hseat]
    exact .refl _
  rw [if_neg hseat]
  obtain ⟨hpath, hstate, hoff⟩ :=
    seatRemoveClient_path k s h (mem_of_seat s h hlive (by simpa using hseat))
  dsimp only
  rw [view_clientPutMsg k _ none c rfl]
  refine (hpath.mono fun a ha => ?_).tail (.shelve c) ⟨rfl, rfl⟩
    (Act.Trans.silent ⟨rfl, hstate, hoff⟩ (fun _ => rfl) rfl)
  cases a <;> first
    | exact ha
    | exact ⟨rfl, ha⟩
    | exact Or.inr ⟨ha.1, Or.inr ⟨rfl, ha.2⟩⟩
    | exact False.elim ha

theorem view_seatFindDevice (c : ClientId) (deviceId : Int) :
    (seatFindDevice s c deviceId).2.view none = s.view none := by
  unfold seatFindDevice
  split_ifs
  · rfl
  · cases (s.clients c).devices.findIdx? fun d => d.deviceId = deviceId <;> rfl

theorem handleCloseDevice_path (h : (s.view none).WF) (hlive : c ∈ s.live) (deviceId : Int) :
    Act.Path k (Act.Closes c) (s.view none) ((handleCloseDevice k s c deviceId).2.view none) := by
  unfold handleCloseDevice
  by_cases hseat : (s.clients c).seat = false
  · rw [if_pos hseat]
    exact .refl _
  rw [if_neg hseat]
  have hc := mem_of_seat s h hlive (by simpa using hseat)
  have hfind := view_seatFindDevice s c deviceId
  dsimp only
  rw [← hfind]
  split
  · rw [view_clientSendError]
    exact .refl _
  · rw [view_clientPutMsg k _ none c rfl]
    refine seatCloseDevice_path k _ none (Or.inl ?_) _
    rw [show (seatFindDevice s c deviceId).2.seat = s.seat from congrArg View.seat hfind]
    exact hc

theorem handleSwitchSession_path {session : Int}
    (hpending : ∀ n, n = session ∨ n = 0 → P (.setPending n))
    (hdisabled : ∀ c ds next, P (.disabled c ds next)) (h : (s.view none).WF) (hlive : c ∈ s.live) :
    Act.Path k P (s.view none) ((handleSwitchSession k s c session).2.view none) := by
  unfold handleSwitchSession
  by_cases hseat : (s.clients c).seat = false
  · rw [if_pos hseat]
    exact .refl _
  rw [if_neg hseat]
  have hpath := seatSetNextSession_path k s hpending hdisabled h
    (mem_of_seat s h hlive (by simpa using hseat))
  dsimp only
  split_ifs
  · rw [view_clientPutMsg k _ none c rfl]
    exact hpath
  · rw [view_clientSendError]
    exact hpath

/-- The response to an ack is not in the view. -/
theorem view_handleDisableSeat (hseat : (s.clients c).seat = true) :
    (handleDisableSeat k s c).2.view none = (seatAckDisableClient k s c).2.view none := by
  unfold handleDisableSeat
  rw [if_neg (by simp [hseat])]
  dsimp only
  split_ifs
  · exact view_clientPutMsg k _ none c rfl
  · exact view_clientSendError k _ none c _

theorem handleDisableSeat_path (hacked : P (.acked c))
    (hopens : s.seat.activeClient = some c → (s.clients c).state = pendingDisable →
      ∀ a, a.Opens (· ∈ s.seat.clients) → P a) (h : (s.view none).WF) (hlive : c ∈ s.live) :
    Act.Path k P (s.view none) ((handleDisableSeat k s c).2.view none) := by
  cases hseat : (s.clients c).seat with
  | false =>
      unfold handleDisableSeat
      rw [if_pos hseat]
      exact .refl _
  | true =>
      rw [view_handleDisableSeat k s hseat]
      exact seatAckDisableClient_path k s hacked hopens h (mem_of_seat s h hlive hseat)

theorem handleRequest_path (h : (s.view none).WF) (hlive : c ∈ s.live) (r : Request) :
    Act.Path k (r.Allows k s c) (s.view none) ((handleRequest k s c r).2.view none) := by
  cases r with
  | openSeat =>
      refine handleOpenSeat_path k s ⟨rfl, rfl⟩ (fun hok n hn => ⟨rfl, rfl, hok, hn⟩)
        (fun hok a ha => ?_) h hlive
      cases a <;> first | exact Or.inl ⟨rfl, ha, hok⟩ | cases ha
  | closeSeat => exact handleCloseSeat_path k s h hlive
  | openDevice path => exact handleOpenDevice_path k s h hlive path
  | closeDevice id =>
      exact (handleCloseDevice_path k s h hlive id).mono fun _ ha => ha.allows k s
  | switchSession session =>
      exact handleSwitchSession_path k s (fun _ hn => ⟨session, rfl, hn⟩)
        (fun _ _ _ => ⟨session, rfl⟩) h hlive
  | disableSeat =>
      refine handleDisableSeat_path k s ⟨rfl, rfl⟩ (fun hcur hst a ha => ?_) h hlive
      cases a <;> first | exact Or.inr ⟨hcur, Or.inl ⟨rfl, hst⟩⟩ | cases ha
  | ping =>
      show Act.Path k _ (s.view none) ((clientPutMsg k s c .pong).2.view none)
      rw [view_clientPutMsg k s none c rfl]
      exact .refl _

/-! ## Clients -/

theorem clientDestroy_path (h : (s.view none).WF) (hlive : c ∈ s.live) :
    Act.Path k (Act.Destroys c (s.seat.activeClient = some c)) (s.view none)
      ((clientDestroy k s c).view none) := by
  unfold clientDestroy
  dsimp only
  rw [view_record_quiet _ none rfl, view_setConnection]
  cases hseat : (s.clients c).seat with
  | true =>
      obtain ⟨hpath, hstate, hoff⟩ := seatRemoveClient_path k s h (mem_of_seat s h hlive hseat)
      have hnot : c ∉ (seatRemoveClient k s c).idleClients :=
        ((h.path hpath).leaving_off c rfl).1
      refine (hpath.mono fun _ => Or.inl).tail (.free c) (Or.inr (Or.inl rfl)) ?_
      simp only [if_true, List.erase_of_not_mem hnot]
      exact Act.Trans.silent ⟨rfl, hstate, hoff⟩ (fun _ => rfl) rfl
  | false =>
      have hidle := mem_idle_of_seat s h hlive hseat
      refine .single (.freeIdle c) (Or.inr (Or.inr rfl)) ?_
      simp only [Bool.false_eq_true, if_false]
      exact Act.Trans.silent ⟨rfl, hidle⟩ (fun _ => rfl) rfl

/-- A request makes its client the active one only by opening a seat nobody has, or if it was. -/
theorem active_of_allows {r : Request} {v : View} (hp : Act.Path k (r.Allows k s c) (s.view none) v)
    (hv : v.seat.activeClient = some c) :
    s.seat.activeClient = some c ∨ r = .openSeat ∧ s.seat.activeClient = none := by
  refine (Path.invariant (I := fun u => (u.seat.activeClient = some c →
    s.seat.activeClient = some c ∨ r = .openSeat ∧ s.seat.activeClient = none)
    ∧ (r = .openSeat → u.seat.activeClient = s.seat.activeClient ∨ s.seat.activeClient = none)) ?_ hp
    ⟨Or.inl, fun _ => Or.inl rfl⟩).1 hv
  rintro a u u' ha ⟨evs, hg, -, -, rfl⟩ ⟨hu, hsame⟩
  cases a with
  | opened o =>
      rcases ha with ⟨rfl, -⟩ | ⟨hcur, hr⟩
      · have hnone : s.seat.activeClient = none :=
          (hsame rfl).elim (fun heq => heq.symm.trans hg.2.2.1) id
        exact ⟨fun _ => Or.inr ⟨rfl, hnone⟩, fun _ => Or.inr hnone⟩
      · refine ⟨fun _ => Or.inl hcur, fun heq => ?_⟩
        rcases hr with ⟨rfl, -⟩ | ⟨rfl, -⟩ <;> cases heq
  | acked o | vacate o =>
      refine ⟨fun h => (nomatch h), fun heq => ?_⟩
      obtain ⟨rfl, -⟩ := ha
      cases heq
  | _ => exact ⟨hu, hsame⟩

/-- After its handler a client is left alone, if the handler succeeded, or destroyed. -/
theorem clientHandleRequest_cases (c : ClientId) (r : Request) :
    ((handleRequest k s c r).1 = true
      ∧ (clientHandleRequest k s c r).view none = (handleRequest k s c r).2.view none)
    ∨ ∃ s', s'.view none = (handleRequest k s c r).2.view none
      ∧ clientHandleRequest k s c r = clientDestroy k s' c ∧ r.Fails k s c := by
  unfold clientHandleRequest
  dsimp only
  have hflush := view_clientFlush k (handleRequest k s c r).2 none c
  split_ifs with hok hsent
  · exact Or.inl ⟨hok, hflush⟩
  · exact Or.inr ⟨_, hflush, rfl, Or.inr ((clientFlush_fails_iff k _ c).mp (by simpa using hsent))⟩
  · exact Or.inr ⟨_, rfl, rfl, Or.inl (by simpa using hok)⟩

/-- A handler frees nobody, so its client is still there to be destroyed. -/
theorem live_of_handleRequest (h : (s.view none).WF) (hlive : c ∈ s.live) (r : Request)
    {s' : Server} (hs' : s'.view none = (handleRequest k s c r).2.view none) :
    c ∈ s'.live := by
  have hkeep : s'.live = s.live := by
    refine (congrArg View.live hs').trans
      (live_of_path (fun a ha => ⟨?_, ?_⟩) (handleRequest_path k s h hlive r))
    · rintro rfl
      cases ha
    · cases a <;> first | exact id | cases ha
  exact hkeep ▸ hlive

theorem clientHandleRequest_path (h : (s.view none).WF) (hlive : c ∈ s.live) (r : Request) :
    Act.Path k (Step.Allows k s (.request c r)) (s.view none)
      ((clientHandleRequest k s c r).view none) := by
  have hpath := handleRequest_path k s h hlive r
  have hallowed := hpath.mono (Q := Step.Allows k s (.request c r)) fun _ => Or.inl
  rcases clientHandleRequest_cases k s c r with ⟨-, hsame⟩ | ⟨s', hs', heq, hfails⟩
  · rw [hsame]
    exact hallowed
  · rw [heq]
    have hlive' := live_of_handleRequest k s h hlive r hs'
    rw [← hs'] at hpath hallowed
    refine hallowed.trans ((clientDestroy_path k s' (h.path hpath) hlive').mono fun a ha =>
      Or.inr ⟨hfails, ?_⟩)
    exact ha.imp_left fun ha => ha.imp (active_of_allows k s hpath)

/-- After `seat_add_client`, the client that has joined is opened at most, or destroyed. -/
theorem openSeat_path (h : (s.view none).WF) (hlive : c ∈ s.live) :
    Act.Path k (fun a => (seatAddClient k s c).1 = true ∧ a.Opens (· = c)
        ∨ Request.openSeat.Fails k s c ∧ a.Destroys c
          ((seatAddClient k s c).2.seat.activeClient = some c
            ∨ (seatAddClient k s c).1 = true ∧ (seatAddClient k s c).2.seat.activeClient = none))
      ((seatAddClient k s c).2.view none) ((clientHandleRequest k s c .openSeat).view none) := by
  set s1 := (seatAddClient k s c).2 with hs1
  have hhandled : Act.Path k (fun a => (seatAddClient k s c).1 = true ∧ a.Opens (· = c))
      (s1.view none) ((handleRequest k s c .openSeat).2.view none) := by
    by_cases hok : (seatAddClient k s c).1 = true
    · exact (handleOpenSeat_joined k s h hlive hok).mono fun _ ha => ⟨hok, ha⟩
    · show Act.Path k _ _ ((handleOpenSeat k s c).2.view none)
      unfold handleOpenSeat
      dsimp only
      rw [if_neg hok]
      exact .refl _
  rcases clientHandleRequest_cases k s c .openSeat with ⟨-, hsame⟩ | ⟨s', hs', heq, hfails⟩
  · rw [hsame]
    exact hhandled.mono fun _ => Or.inl
  · -- it is current then if it was, or has been opened on a seat nobody had
    have hcurrent : s'.seat.activeClient = some c → s1.seat.activeClient = some c
        ∨ (seatAddClient k s c).1 = true ∧ s1.seat.activeClient = none := by
      have hactive := Path.invariant (I := fun u : View =>
        u.seat.activeClient = s1.seat.activeClient
          ∨ (seatAddClient k s c).1 = true ∧ s1.seat.activeClient = none) ?_ (hs' ▸ hhandled)
        (Or.inl rfl)
      · exact fun hc => hactive.imp_left fun heq => heq.symm.trans hc
      · rintro a u u' ⟨hok, ha⟩ ⟨evs, hg, -, -, rfl⟩ hu
        cases a with
        | opened o => exact Or.inr ⟨hok, hu.elim (fun heq => heq.symm.trans hg.2.2.1) And.right⟩
        | openFailed o ds => exact hu
        | _ => cases ha
    rw [heq]
    rw [← hs'] at hhandled
    refine (hhandled.mono fun _ => Or.inl).trans
      ((clientDestroy_path k s' ?_ ?_).mono fun a ha => Or.inr ⟨hfails, ?_⟩)
    · rw [hs']
      exact h.path (handleRequest_path k s h hlive .openSeat)
    · exact live_of_handleRequest k s h hlive .openSeat hs'
    · exact ha.imp_left fun hremoves => hremoves.imp hcurrent

/-- After the flush a client is left alone or destroyed. -/
theorem clientHandleWritable_cases (c : ClientId) :
    (clientHandleWritable k s c).view none = s.view none
    ∨ ∃ s', s'.view none = s.view none ∧ clientHandleWritable k s c = clientDestroy k s' c
      ∧ FlushFails k s (.client c) := by
  have hflush := view_flush k s none (.client c)
  unfold clientHandleWritable
  dsimp only
  split_ifs with hok hagain
  · exact Or.inl ((view_setMask _ none _ _).trans hflush)
  · exact Or.inr ⟨_, hflush, rfl, (flushFails_iff k s _).mpr ⟨by simpa using hok, hagain⟩⟩
  · exact Or.inl hflush

theorem clientHandleWritable_path (h : (s.view none).WF) (hlive : c ∈ s.live) :
    Act.Path k (fun a => FlushFails k s (.client c) ∧ a.Destroys c (s.seat.activeClient = some c))
      (s.view none) ((clientHandleWritable k s c).view none) := by
  rcases clientHandleWritable_cases k s c with hsame | ⟨s', hs', heq, hfails⟩
  · rw [hsame]
    exact .refl _
  · have hlive' : c ∈ s'.live := by
      rw [show s'.live = s.live from congrArg View.live hs']
      exact hlive
    have hseat : s'.seat = s.seat := congrArg View.seat hs'
    rw [heq, ← hs', ← hseat]
    exact (clientDestroy_path k s' (hs' ▸ h) hlive').mono fun _ ha => ⟨hfails, ha⟩

theorem Tried.view {k : Kernel} {s s' : Server} (h : Tried k s s') : s'.view none = s.view none := by
  induction h with
  | refl => rfl
  | call _ c hc ih => exact (view_call k _ none (by fin_cases hc <;> rfl)).trans ih

theorem serverAddClient_path (pid : Int) :
    Act.Path k (fun a => a = .create ∨ a.Frees) (s.view none)
      ((serverAddClient k s pid).view none) := by
  have hcreate : ∀ s₁, Tried k s s₁ → Act.create.Trans k (s.view none)
      (((clientCreate s₁ pid).call k .pollerAddFd).2.view none) := by
    intro s₁ h₁
    have hclient := congrArg View.client (view_setClient s₁ none s₁.nextClientId (clientNew pid))
    have hview : (clientCreate s₁ pid).view none = Act.create.effect (s₁.view none) := by
      unfold clientCreate Act.effect Server.view
      dsimp only
      congr 1
    rw [view_call k _ none rfl, hview, ← h₁.view]
    exact Act.Trans.silent rfl (fun _ => rfl) rfl
  refine serverAddClient_cases (motive := fun s' => Act.Path k _ _ (s'.view none)) pid
    (fun s₁ h₁ => ?_) (fun s₁ h₁ => .single .create (Or.inl rfl) (hcreate s₁ h₁)) fun s₁ h₁ => ?_
  · rw [h₁.view]
    exact .refl _
  · have hidle : s₁.nextClientId
        ∈ (((clientCreate s₁ pid).call k .pollerAddFd).2.view none).idle := by
      rw [view_call k _ none rfl]
      exact List.mem_cons_self
    refine .head .create (Or.inl rfl) (hcreate s₁ h₁) (.single (.freeIdle s₁.nextClientId)
      (Or.inr trivial) ?_)
    unfold clientDestroy
    dsimp only
    rw [view_record_quiet _ none rfl, view_setConnection, seat_clientCreate]
    simp only [Bool.false_eq_true, if_false]
    exact Act.Trans.silent ⟨rfl, hidle⟩ (fun _ => rfl) rfl

/-! ## Control clients -/

@[simp] theorem view_controlReplyVt (i : ControlId) (m : Int → ControlMsg) (r : Int × Server) :
    (controlReplyVt k i m r).2.view none = r.2.view none := by
  unfold controlReplyVt
  split_ifs <;> simp

theorem seatGetActiveVt_path (hP : P (.setVt (seatUpdateVt k s).2.seat.curVt)) :
    Act.Path k P (s.view none) ((seatGetActiveVt k s).2.view none) := by
  unfold seatGetActiveVt
  split_ifs
  · exact .refl _
  · exact seatUpdateVt_path k s none hP

theorem seatSwitchVt_path {vt : Int} (hvt : 0 < vt → P (.setVt (seatUpdateVt k s).2.seat.curVt))
    (hpending : 0 < vt → (seatUpdateVt k s).1 = true → ∀ n, P (.setPending n)) :
    Act.Path k P (s.view none) ((seatSwitchVt k s vt).2.view none) := by
  have hupd := fun hpos => seatUpdateVt_path k s none (hvt hpos)
  have hbound : (seatUpdateVt k s).2.seat.vtBound = s.seat.vtBound := by
    show ((seatUpdateVt k s).2.view none).seat.vtBound = _
    rcases view_seatUpdateVt k s none with h | ⟨n, -, -, h⟩ <;> rw [h] <;> rfl
  unfold seatSwitchVt
  dsimp only
  split_ifs with h1 h2 h3 h4 h5
  · exact .refl _
  · exact .refl _
  · exact hupd (not_le.mp h2)
  · exact hupd (not_le.mp h2)
  · exact hupd (not_le.mp h2)
  · refine (hupd (not_le.mp h2)).trans (seatRequestVt_path k _ none
      (fun n _ => hpending (not_le.mp h2) (by simpa using h3) n) ?_)
    rw [hbound]
    simpa using h1

theorem handleControlRequest_path (i : ControlId) (r : ControlRequest) :
    Act.Path k (r.Allows k s) (s.view none) ((handleControlRequest k s i r).2.view none) := by
  cases r with
  | createGroupVt pid vt =>
      show Act.Path k _ _ ((handleCreateGroupVt k s i pid vt).2.view none)
      unfold handleCreateGroupVt
      cases hfind : controlFindOwnerClient s pid with
      | none =>
          rw [view_controlSendMessage]
          exact .refl _
      | some owner =>
          have howner : owner ∈ s.seat.clients := List.mem_of_find?_eq_some hfind
          dsimp only
          split_ifs
          · rw [view_controlSendMessage]
            exact .refl _
          · rw [view_controlReplyVt]
            exact seatCreateGroupVt_path k s (fun hok => ⟨pid, vt, rfl, hfind, hok, rfl⟩) howner
  | destroyGroupVt vt =>
      have hpath := seatDestroyGroupVt_path k s vt
        (P := (ControlRequest.destroyGroupVt vt).Allows k s) fun g hg => by rw [← hg]; rfl
      show Act.Path k _ _ ((handleDestroyGroupVt k s i vt).2.view none)
      unfold handleDestroyGroupVt
      dsimp only
      split_ifs
      · exact hpath
      · rw [view_controlSendMessage]
        exact hpath
  | getActiveVt =>
      show Act.Path k _ _ ((controlReplyVt k i .activeVt (seatGetActiveVt k s)).2.view none)
      rw [view_controlReplyVt]
      exact seatGetActiveVt_path k s trivial
  | findFreeVt =>
      have hfind : (seatFindAvailableVt k s).2.view none = s.view none := by
        unfold seatFindAvailableVt
        split_ifs <;> simp
      show Act.Path k _ _ ((controlReplyVt k i .freeVt (seatFindAvailableVt k s)).2.view none)
      rw [view_controlReplyVt, hfind]
      exact .refl _
  | switchVt vt =>
      show Act.Path k _ _ ((handleSwitchVt k s i vt).2.view none)
      unfold handleSwitchVt
      rw [view_controlSendMessage]
      exact seatSwitchVt_path k s (fun _ => trivial) fun hpos hread _ => ⟨⟨vt, rfl, hpos⟩, hread⟩
  | invalid =>
      show Act.Path k _ _ ((controlSendMessage k s i (.error EPROTO)).2.view none)
      rw [view_controlSendMessage]
      exact .refl _

theorem view_controlAddClient (pid : Int) : (controlAddClient k s pid).view none = s.view none := by
  have hadd : ∀ s₁, Tried k s s₁ →
      ((controlCreate s₁ pid).call k .pollerAddFd).2.view none = s.view none :=
    fun s₁ h => (view_call k _ none rfl).trans h.view
  refine controlAddClient_cases (motive := fun s' => s'.view none = s.view none) pid
    (fun s₁ h => h.view) hadd fun s₁ h => ?_
  rw [view_controlClientDestroy]
  exact hadd s₁ h

theorem view_controlHandleWritable (i : ControlId) :
    (controlHandleWritable k s i).view none = s.view none := by
  unfold controlHandleWritable
  dsimp only
  split_ifs <;> simp

/-! ## The step theorem -/

/-- **A step of the daemon is a path of the seat machine**, along transitions its kind
allows. -/
theorem step_path (h : (s.view none).WF) (st : Step) :
    Act.Path k (st.Allows k s) (s.view none) ((step k s st).view none) := by
  unfold step
  split_ifs with hgone
  · exact .refl _
  have hlive := (here_of_made hgone).1
  cases st with
  | connect pid => exact serverAddClient_path k s pid
  | request c r => exact clientHandleRequest_path k s h (hlive c rfl) r
  | writable c => exact clientHandleWritable_path k s h (hlive c rfl)
  | disconnect c => exact clientDestroy_path k s h (hlive c rfl)
  | vtRelease =>
      exact seatVtRelease_path k s none (Or.inl ⟨_, rfl⟩) fun c ds => Or.inr ⟨c, ds, rfl⟩
  | vtAcquire => exact seatVtActivate_path k s none ⟨_, rfl⟩
  | vtEvent oldVt newVt =>
      exact seatHandleVtEvent_path k s (Or.inl rfl)
        (fun a ha hown => Or.inr (Or.inr (Or.inr ⟨a, ha, hown, rfl⟩)))
        (fun c ds => Or.inr (Or.inr (Or.inl ⟨c, ds, rfl⟩))) (fun a ha => Or.inr (Or.inl ha)) h
  | controlConnect pid =>
      show Act.Path k _ _ ((controlAddClient k s pid).view none)
      rw [view_controlAddClient]
      exact .refl _
  | control i r =>
      show Act.Path k _ _ ((controlHandleRequest k s i r).view none)
      unfold controlHandleRequest
      dsimp only
      split_ifs
      · exact handleControlRequest_path k s i r
      · rw [view_controlClientDestroy]
        exact handleControlRequest_path k s i r
  | controlWritable i =>
      show Act.Path k _ _ ((controlHandleWritable k s i).view none)
      rw [view_controlHandleWritable]
      exact .refl _
  | controlDisconnect i =>
      show Act.Path k _ _ ((controlClientDestroy s i).view none)
      rw [view_controlClientDestroy]
      exact .refl _

end

theorem vtBound_step {k : Kernel} {s : Server} (h : (s.view none).WF) (st : Step) :
    (step k s st).seat.vtBound = s.seat.vtBound := vtBound_of_path (step_path k s h st)

theorem wf_init (vtBound : Bool) : ((serverInit vtBound).view none).WF where
  liveNodup := List.nodup_nil
  idleNodup := List.nodup_nil
  clientsNodup := List.nodup_nil
  live_iff := by simp [Server.view, serverInit, seatCreate]
  idle_off := fun _ h => by cases h
  leaving_off := fun _ h => by cases h
  fresh := fun _ h => by cases h
  idle := fun _ h => by cases h
  onSeat := fun _ h => by cases h
  leavingSession := fun _ h => by cases h
  retired := fun _ h => by cases h
  active := fun _ h => by cases h
  only := fun _ h => by cases h
  next := fun _ h => by cases h
  nextVt := fun _ => rfl
  owner := fun _ h => by cases h
  groupNodup := List.nodup_nil

/-- **Invariant rule for the daemon.** What the transitions of a well-formed seat preserve, for
steps that meet a condition, holds after every run whose steps meet it. -/
theorem run_of_acts (k : Kernel) {I : View → Prop} {C : Server → Step → Prop}
    (hact : ∀ s st a v v', C s st → st.Allows k s a → v.WF → a.Trans k v v' → I v → I v')
    {s : Server} (hwf : (s.view none).WF) (hI : I (s.view none)) (steps : List Step)
    (hmeets : Run.Meets (step k) C s steps) :
    ((Run.run (step k) s steps).view none).WF ∧ I ((Run.run (step k) s steps).view none) := by
  refine Run.run_invariant_of_meets
    (P := fun s : Server => (s.view none).WF ∧ I (s.view none)) ?_ ⟨hwf, hI⟩ steps hmeets
  intro s st hs hC
  exact Path.invariant (I := fun v => v.WF ∧ I v)
    (fun a v v' ha ht hv => ⟨hv.1.trans ht, hact s st a v v' hC ha hv.1 ht hv.2⟩)
    (step_path k s hs.1 st) hs

/-- **Every state of every run is well-formed.** -/
theorem wf_run (k : Kernel) (vtBound : Bool) (steps : List Step) :
    ((run k vtBound steps).view none).WF :=
  Run.run_invariant (P := fun s : Server => (s.view none).WF)
    (fun s st h => h.path (step_path k s h st)) (wf_init vtBound) steps

theorem vtBound_run (k : Kernel) (vtBound : Bool) (steps : List Step) :
    (run k vtBound steps).seat.vtBound = vtBound :=
  (Run.run_invariant (P := fun s : Server => (s.view none).WF ∧ s.seat.vtBound = vtBound)
    (fun s st h => ⟨h.1.path (step_path k s h.1 st), (vtBound_step h.1 st).trans h.2⟩)
    ⟨wf_init vtBound, rfl⟩ steps).2

end DdeSeatd
