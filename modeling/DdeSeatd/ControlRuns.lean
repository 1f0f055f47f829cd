import DdeSeatd.ControlDialogue

set_option autoImplicit false

/-! # Replies and broadcasts over whole runs

Two things that a control client relies on, each stated with a ghost beside the daemon that
records what the client is owed: one reply to every request, in the order of the requests
(`Asked`), and one CONTROL_VT_CHANGED for every VT event (`Watch`). Neither holds in all runs. A
group VT is destroyed without a reply, and a VT event is not broadcast while the seat has no
client; the theorems say that these are the only ways to fail.
-/

namespace DdeSeatd

/-! ## Replies -/

/-- The messages that are not replies. -/
def ControlMsg.isBroadcast : ControlMsg → Bool
  | .vtChanged _ _ => true
  | _ => false

/-- The replies put on the connection of a control client, oldest first. -/
def Server.replies (s : Server) (i : ControlId) : List ControlMsg :=
  (s.messages i).filter fun m => !m.isBroadcast

/-- The daemon, and the requests taken off the connection of one control client so far. -/
structure Asked where
  server : Server
  requests : List ControlRequest

/-- The request of the control client `i` that a step is. -/
def Step.asks (i : ControlId) : Step → List ControlRequest
  | .control j r => if j = i then [r] else []
  | _ => []

def Asked.step (k : Kernel) (i : ControlId) (a : Asked) (st : Step) : Asked where
  server := DdeSeatd.step k a.server st
  requests := a.requests ++ if i ∈ a.server.controlClients then st.asks i else []

def askedRun (k : Kernel) (vtBound : Bool) (i : ControlId) (steps : List Step) : Asked :=
  Run.run (Asked.step k i) ⟨serverInit vtBound, []⟩ steps

/-- As long as the connection is there, its replies are those to the requests, in their order. -/
def Asked.Matched (i : ControlId) (a : Asked) : Prop :=
  i ∈ a.server.controlClients →
    List.Forall₂ (fun r m => r.answeredBy m = true) a.requests (a.server.replies i)

/-- The step is not a request of `i` to destroy a group VT that exists. -/
def AsksForReply (i : ControlId) (s : Server) (st : Step) : Prop :=
  ∀ vt, st = .control i (.destroyGroupVt vt) → i ∈ s.controlClients →
    seatFindGroupVt s.seat vt = none

/-- What holds between the steps. -/
structure Asked.Inv (i : ControlId) (a : Asked) : Prop where
  kept : a.server.Kept
  /-- A client that is still to come has neither asked nor been answered. -/
  fresh : a.server.nextControlId ≤ i → a.requests = [] ∧ a.server.messages i = []
  matched : a.Matched i

theorem answeredBy_not_isBroadcast {r : ControlRequest} {m : ControlMsg}
    (h : r.answeredBy m = true) : m.isBroadcast = false := by
  cases m with
  | vtChanged => cases r <;> cases h
  | groupVtCreated | ok | activeVt | freeVt | error => rfl

section

variable {k : Kernel} {i : ControlId}

/-- The replies after a step are those before it and those to the request that it is. -/
theorem step_replies {s : Server} (h : s.Kept) (hi : i ∈ s.controlClients) {st : Step}
    (hst : AsksForReply i s st) (hstay : i ∈ (step k s st).controlClients) :
    ∃ ms, (step k s st).replies i = s.replies i ++ ms
      ∧ List.Forall₂ (fun r m => r.answeredBy m = true) (st.asks i) ms := by
  rcases step_tells (k := k) h hi st with ⟨-, ms, htells, hmessages⟩ | ⟨hgone, -⟩
  swap
  · exact absurd hstay hgone
  refine ⟨ms.filter fun m => !m.isBroadcast, ?_, ?_⟩
  · unfold Server.replies
    rw [hmessages, List.filter_append]
  · cases st with
    | control j r =>
        by_cases hj : j = i
        · subst hj
          have hloud : r.silent s = false := by
            cases r with
            | destroyGroupVt vt =>
                show (seatFindGroupVt s.seat vt).isSome = false
                rw [hst vt rfl hi]
                rfl
            | createGroupVt | getActiveVt | findFreeVt | switchVt | invalid => rfl
          rw [Step.Tells, if_pos ⟨rfl, hloud⟩] at htells
          obtain ⟨m, hm, rfl⟩ := htells
          simpa [Step.asks, answeredBy_not_isBroadcast hm] using hm
        · rw [Step.Tells, if_neg fun hc => hj hc.1] at htells
          subst htells
          simp [Step.asks, hj]
    | vtEvent oldVt newVt =>
        rw [show ms = _ from htells]
        split_ifs
        · exact .nil
        · exact .nil
    | connect | request | writable | disconnect | vtRelease | vtAcquire | controlConnect
    | controlWritable | controlDisconnect =>
        rw [show ms = [] from htells]
        exact .nil

theorem Asked.Inv.step {a : Asked} (h : a.Inv i) {st : Step} (hst : AsksForReply i a.server st) :
    (a.step k i st).Inv i := by
  have hkept : (DdeSeatd.step k a.server st).Kept := kept_step h.kept st
  have hnext := nextControlId_step (k := k) h.kept st
  by_cases hi : i ∈ a.server.controlClients
  · refine ⟨hkept, fun hle => ?_, fun hstay => ?_⟩
    · exact absurd (h.kept.peers.controlsFresh i hi) (hnext.trans hle).not_gt
    · obtain ⟨ms, hreplies, hms⟩ := step_replies h.kept hi hst hstay
      show List.Forall₂ _ (a.requests ++ _) ((DdeSeatd.step k a.server st).replies i)
      rw [if_pos hi, hreplies]
      exact List.rel_append (h.matched hi) hms
  · obtain ⟨hsame, hnew⟩ := step_absent (k := k) h.kept hi st
    have hrequests : (a.step k i st).requests = a.requests := by
      show a.requests ++ _ = _
      rw [if_neg hi, List.append_nil]
    refine ⟨hkept, fun hle => ?_, fun hstay => ?_⟩
    · rw [hrequests]
      exact ⟨(h.fresh (hnext.trans hle)).1, hsame.trans (h.fresh (hnext.trans hle)).2⟩
    · obtain ⟨hnone, hnil⟩ := h.fresh (hnew hstay).ge
      rw [hrequests, hnone]
      show List.Forall₂ _ [] (List.filter _ ((DdeSeatd.step k a.server st).messages i))
      rw [hsame, hnil]
      exact .nil

/-- A group VT that is destroyed leaves its request without a reply. -/
theorem Asked.Inv.asksForReply {a : Asked} (h : a.Inv i) {st : Step}
    (hst : (a.step k i st).Matched i) : AsksForReply i a.server st := by
  rintro vt rfl hi
  by_contra hsome
  have hsilent : (ControlRequest.destroyGroupVt vt).silent a.server = true :=
    Option.isSome_iff_ne_none.mpr hsome
  obtain ⟨hstay, hmessages⟩ := step_silent (k := k) h.kept hi hsilent
  have hreplies : (DdeSeatd.step k a.server (.control i (.destroyGroupVt vt))).replies i
      = a.server.replies i := by
    unfold Server.replies
    rw [hmessages]
  have hbefore := (h.matched hi).length_eq
  have hafter : (a.requests ++ _).length = _ := (hst hstay).length_eq
  change (a.requests ++ _).length
    = ((DdeSeatd.step k a.server (.control i (.destroyGroupVt vt))).replies i).length at hafter
  rw [if_pos hi, hreplies, ← hbefore] at hafter
  simp [Step.asks] at hafter

end

/-- **One reply to every control request**, in the order of the requests, in every state of a run
if and only if no request of the client destroys a group VT that exists. -/
theorem one_reply_iff (k : Kernel) (vtBound : Bool) (i : ControlId) (steps : List Step) :
    (∀ pre, pre <+: steps → (askedRun k vtBound i pre).Matched i)
      ↔ Run.Meets (step k) (AsksForReply i) (serverInit vtBound) steps := by
  have hinit : (Asked.mk (serverInit vtBound) []).Inv i :=
    ⟨kept_init vtBound, fun _ => ⟨rfl, rfl⟩, fun _ => .nil⟩
  rw [← Run.meets_map (g := Asked.step k i) (f := Asked.server) (fun _ _ => rfl)
    ⟨serverInit vtBound, []⟩ steps]
  exact Run.forall_prefix_iff_meets (P := Asked.Matched i) (I := Asked.Inv i)
    (fun a h => h.matched) (fun a st h hst => h.step hst) (fun a st h hst => h.asksForReply hst)
    hinit steps

/-- A group VT is created and destroyed; only the first of the two requests is answered. -/
theorem destroyGroupVt_unanswered :
    let a := askedRun (.obliging 1) true 0
      [.connect 7, .request 0 .openSeat, .controlConnect 8, .control 0 (.createGroupVt 7 5),
        .control 0 (.destroyGroupVt 5)]
    0 ∈ a.server.controlClients
      ∧ a.requests = [.createGroupVt 7 5, .destroyGroupVt 5]
      ∧ a.server.replies 0 = [.groupVtCreated 7 5] := by
  decide +kernel

/-! ## Broadcasts -/

/-- The daemon, the VT changes that each control client was connected for, and the control clients
that did not survive one. -/
structure Watch where
  server : Server
  owed : ControlId → List ControlMsg
  dropped : List ControlId

def Watch.step (k : Kernel) (w : Watch) (st : Step) : Watch :=
  let s' := DdeSeatd.step k w.server st
  match st with
  | .vtEvent oldVt newVt =>
      { server := s'
        owed := fun i => if i ∈ w.server.controlClients then w.owed i ++ [.vtChanged oldVt newVt]
          else w.owed i
        dropped := w.dropped ++ w.server.controlClients.filter (· ∉ s'.controlClients) }
  | _ => { w with server := s' }

def watchRun (k : Kernel) (vtBound : Bool) (steps : List Step) : Watch :=
  Run.run (Watch.step k) ⟨serverInit vtBound, fun _ => [], []⟩ steps

/-- The broadcasts put on the connection of a control client, oldest first. -/
def Server.broadcasts (s : Server) (i : ControlId) : List ControlMsg :=
  (s.messages i).filter ControlMsg.isBroadcast

/-- Every control client that is there was told of every VT change it was connected for, once and
in their order, and sending failed to every one that was dropped. -/
def Watch.Told (w : Watch) : Prop :=
  (∀ i ∈ w.server.controlClients, w.server.broadcasts i = w.owed i)
    ∧ ∀ i ∈ w.dropped, w.server.sendFailed i = true

/-- A VT event finds a client on the seat, or no control client to tell. -/
def FindsServer (s : Server) (st : Step) : Prop :=
  ∀ oldVt newVt, st = .vtEvent oldVt newVt → s.seat.clients = [] → s.controlClients = []

structure Watch.Inv (w : Watch) : Prop where
  kept : w.server.Kept
  fresh : ∀ i, w.server.nextControlId ≤ i → w.owed i = [] ∧ w.server.messages i = []
  told : w.Told

section

variable {k : Kernel}

theorem Watch.step_server (w : Watch) (st : Step) :
    (w.step k st).server = DdeSeatd.step k w.server st := by
  cases st <;> rfl

/-- A control client is owed the VT change that a step is, if it is there. -/
def Step.changes : Step → List ControlMsg
  | .vtEvent oldVt newVt => [.vtChanged oldVt newVt]
  | _ => []

theorem Watch.step_owed (w : Watch) (st : Step) (i : ControlId) :
    (w.step k st).owed i
      = w.owed i ++ if i ∈ w.server.controlClients then st.changes else [] := by
  cases st with
  | vtEvent oldVt newVt =>
      show (if _ then _ else _) = _
      split_ifs
      · rfl
      · exact (List.append_nil _).symm
  | connect | request | writable | disconnect | vtRelease | vtAcquire | controlConnect | control
  | controlWritable | controlDisconnect => simp [Watch.step, Step.changes]

/-- The broadcasts after a step that a control client survives. -/
theorem step_broadcasts {s : Server} {i : ControlId} (h : s.Kept) (hi : i ∈ s.controlClients)
    {st : Step} (hstay : i ∈ (step k s st).controlClients) :
    (step k s st).broadcasts i
      = s.broadcasts i ++ if s.seat.clients = [] then [] else st.changes := by
  rcases step_tells (k := k) h hi st with ⟨-, ms, htells, hmessages⟩ | ⟨hgone, -⟩
  swap
  · exact absurd hstay hgone
  have hfilter : ms.filter ControlMsg.isBroadcast
      = if s.seat.clients = [] then [] else st.changes := by
    cases st with
    | control j r =>
        rw [Step.Tells] at htells
        simp only [Step.changes, ite_self]
        split_ifs at htells
        · obtain ⟨m, hm, rfl⟩ := htells
          simp [answeredBy_not_isBroadcast hm]
        · rw [htells]
          rfl
    | vtEvent oldVt newVt =>
        rw [show ms = _ from htells]
        split_ifs
        · rfl
        · rfl
    | connect | request | writable | disconnect | vtRelease | vtAcquire | controlConnect
    | controlWritable | controlDisconnect =>
        rw [show ms = [] from htells]
        simp [Step.changes]
  unfold Server.broadcasts
  rw [hmessages, List.filter_append, hfilter]

/-- Sending has failed to every control client that a step drops. -/
theorem Watch.Inv.dropped {w : Watch} (h : w.Inv) (st : Step) :
    ∀ i ∈ (w.step k st).dropped, (DdeSeatd.step k w.server st).sendFailed i = true := by
  obtain ⟨ts, htalk, -⟩ := step_control k h.kept st
  have hold : ∀ i ∈ w.dropped, (DdeSeatd.step k w.server st).sendFailed i = true :=
    fun i hi => htalk.records.sendFailed (h.told.2 i hi)
  cases st with
  | vtEvent oldVt newVt =>
      intro i hi
      rcases List.mem_append.mp hi with hi | hi
      · exact hold i hi
      · obtain ⟨hhere, hgone⟩ := List.mem_filter.mp hi
        rcases step_tells (k := k) h.kept hhere (.vtEvent oldVt newVt) with
          ⟨hstay, -⟩ | ⟨-, heq | heq | hfailed⟩
        · simp [hstay] at hgone
        · cases heq
        · cases heq
        · exact hfailed
  | connect | request | writable | disconnect | vtRelease | vtAcquire | controlConnect | control
  | controlWritable | controlDisconnect => exact hold

theorem Watch.Inv.step {w : Watch} (h : w.Inv) {st : Step} (hst : FindsServer w.server st) :
    (w.step k st).Inv := by
  have hkept : (DdeSeatd.step k w.server st).Kept := kept_step h.kept st
  have hnext := nextControlId_step (k := k) h.kept st
  have hserver := w.step_server (k := k) st
  -- a client that is still to come is not there before the step either
  have habsent : ∀ i, w.server.nextControlId ≤ i → i ∉ w.server.controlClients :=
    fun i hle hmem => (h.kept.peers.controlsFresh i hmem).not_ge hle
  refine ⟨hserver ▸ hkept, fun i hle => ?_, fun i hi => ?_, fun i hi => ?_⟩
  · rw [hserver] at hle ⊢
    have hle' := hnext.trans hle
    obtain ⟨howed, hmessages⟩ := h.fresh i hle'
    rw [w.step_owed, if_neg (habsent i hle'), howed, (step_absent h.kept (habsent i hle') st).1]
    exact ⟨rfl, hmessages⟩
  · rw [hserver] at hi ⊢
    rw [w.step_owed]
    by_cases hhere : i ∈ w.server.controlClients
    · rw [step_broadcasts h.kept hhere hi, h.told.1 i hhere, if_pos hhere]
      congr 1
      split_ifs with hempty
      · cases st with
        | vtEvent oldVt newVt =>
            rw [hst oldVt newVt rfl hempty] at hhere
            cases hhere
        | connect | request | writable | disconnect | vtRelease | vtAcquire | controlConnect
        | control | controlWritable | controlDisconnect => rfl
      · rfl
    · obtain ⟨hsame, hnew⟩ := step_absent h.kept hhere st
      obtain ⟨howed, hmessages⟩ := h.fresh i (hnew hi).ge
      unfold Server.broadcasts
      rw [hsame, hmessages, if_neg hhere, howed]
      rfl
  · rw [hserver]
    exact h.dropped st i hi

/-- Without a client on the seat nobody is told. -/
theorem Watch.Inv.findsServer {w : Watch} (h : w.Inv) {st : Step} (hst : (w.step k st).Told) :
    FindsServer w.server st := by
  rintro oldVt newVt rfl hempty
  by_contra hne
  obtain ⟨i, is, hcons⟩ := List.exists_cons_of_ne_nil hne
  have hi : i ∈ w.server.controlClients := by rw [hcons]; exact List.mem_cons_self
  obtain ⟨ts, htalk, hsaid⟩ := step_control k h.kept (.vtEvent oldVt newVt)
  have hnil := hsaid i
  rw [ControlSaid, Server.listeners, if_pos hempty, if_neg List.not_mem_nil] at hnil
  obtain ⟨hstay, -⟩ := htalk.told_nothing h.kept hi hnil
  have htold := hst.1 i (w.step_server (k := k) (.vtEvent oldVt newVt) ▸ hstay)
  rw [w.step_server, w.step_owed, step_broadcasts h.kept hi hstay, h.told.1 i hi, if_pos hi,
    if_pos hempty] at htold
  simp [Step.changes] at htold

end

/-- **Every VT change reaches every control client**, in every state of a run, if and only if no VT
event comes while a control client is connected and the seat has no client. -/
theorem vt_changes_told_iff (k : Kernel) (vtBound : Bool) (steps : List Step) :
    (∀ pre, pre <+: steps → (watchRun k vtBound pre).Told)
      ↔ Run.Meets (step k) FindsServer (serverInit vtBound) steps := by
  have hinit : (Watch.mk (serverInit vtBound) (fun _ => []) []).Inv :=
    ⟨kept_init vtBound, fun _ _ => ⟨rfl, rfl⟩, fun _ hi => (List.not_mem_nil hi).elim,
      fun _ hi => (List.not_mem_nil hi).elim⟩
  rw [← Run.meets_map (g := Watch.step k) (f := Watch.server) (fun w st => w.step_server st)
    ⟨serverInit vtBound, fun _ => [], []⟩ steps]
  exact Run.forall_prefix_iff_meets (P := Watch.Told) (I := Watch.Inv) (fun w h => h.told)
    (fun w st h hst => h.step hst) (fun w st h hst => h.findsServer hst) hinit steps

/-- A control client is connected, no seat client is, and the VT changes. -/
theorem vt_change_untold :
    let w := watchRun (.obliging 1) true [.controlConnect 8, .vtEvent 1 2]
    0 ∈ w.server.controlClients ∧ w.owed 0 = [.vtChanged 1 2] ∧ w.server.messages 0 = [] := by
  decide +kernel

end DdeSeatd
