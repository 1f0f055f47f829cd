import DdeSeatd.ServerRefinement

set_option autoImplicit false

/-! # The seat stays well-formed

The invariant of `WellFormed.lean`, read off the daemon's own lists and pointers for every
run. That a closed client never comes back to the seat is a property of what follows a state,
not of the state alone: such a client keeps its session number, and `seat_add_client` takes
only clients that never had one. -/

namespace DdeSeatd

open ClientState

/-- The client was on the seat once, and is not on it any more. -/
def View.Gone (v : View) (c : ClientId) : Prop :=
  c < v.nextId ∧ c ∉ v.seat.clients ∧ v.leaving ≠ some c ∧ (v.client c).session ≠ -1

/-- A client that is gone stays gone. -/
theorem View.Gone.trans {k : Kernel} {a : Act} {v v' : View} {c : ClientId} (h : v.Gone c)
    (ht : a.Trans k v v') : v'.Gone c := by
  obtain ⟨evs, hg, -, -, rfl⟩ := ht
  obtain ⟨hid, hoff, hleave, hsession⟩ := h
  cases a with
  | create =>
      refine ⟨Nat.lt_succ_of_lt hid, hoff, hleave, ?_⟩
      simpa [Act.effect, View.push, Function.update_apply, Nat.ne_of_lt hid] using hsession
  | join o n =>
      -- only a client without a session can join
      have hne : c ≠ o := fun h => hsession (h ▸ hg.2.2.1)
      refine ⟨hid, ?_, hleave, ?_⟩
      · simpa [Act.effect, View.push, hne] using hoff
      · simpa [Act.effect, View.push, View.set, Function.update_apply, hne] using hsession
  | detach o =>
      have hne : o ≠ c := fun h => hoff (h ▸ hg.2)
      exact ⟨hid, fun hmem => hoff (List.mem_of_mem_erase hmem), by simpa [Act.effect, View.push],
        hsession⟩
  | _ =>
      -- the others keep the sessions, and the list of clients
      refine ⟨hid, hoff, ?_, ?_⟩
      · simp_all [Act.effect, View.push, View.setSeat, View.setDevices, View.setState, View.set]
      · simp only [Act.effect, View.push, View.setSeat, View.setDevices, View.setState, View.set,
          Function.update_apply]
        grind

/-- **The seat is well-formed in every state of every run.** Every live client is on exactly one
list, according to its `seat`; the active client is on the seat and it alone is active or
waiting for an ack; the queued client is another client on the seat; group VTs have distinct
numbers and owners on the seat; clients off the seat have no devices, and a closed client is
never on the seat again. -/
theorem run_seat_wellFormed (k : Kernel) (vtBound : Bool) (steps : List Step) :
    let s := run k vtBound steps
    ((∀ c ∈ s.live,
        (c ∈ s.idleClients ∧ c ∉ s.seat.clients ∧ (s.clients c).seat = false)
        ∨ (c ∉ s.idleClients ∧ c ∈ s.seat.clients ∧ (s.clients c).seat = true))
      ∧ (∀ c ∈ s.idleClients ++ s.seat.clients, c ∈ s.live)
      ∧ s.idleClients.Nodup ∧ s.seat.clients.Nodup)
    ∧ ((∀ a, s.seat.activeClient = some a → a ∈ s.seat.clients
          ∧ ((s.clients a).state = active ∨ (s.clients a).state = pendingDisable))
      ∧ ∀ c ∈ s.live, (s.clients c).state = active ∨ (s.clients c).state = pendingDisable →
          s.seat.activeClient = some c)
    ∧ (∀ n, s.seat.nextClient = some n → n ∈ s.seat.clients ∧ s.seat.activeClient ≠ some n)
    ∧ ((∀ g ∈ s.seat.groupVts, g.owner ∈ s.seat.clients)
      ∧ (s.seat.groupVts.map GroupVt.vt).Nodup)
    ∧ ((∀ c ∈ s.live, c ∉ s.seat.clients → (s.clients c).devices = [])
      ∧ ∀ c ∈ s.live, (s.clients c).state = closed →
          ∀ more, c ∉ (run k vtBound (steps ++ more)).seat.clients) := by
  intro s
  have h : (s.view none).WF := wf_run k vtBound steps
  have hplace : ∀ c ∈ s.live, c ∈ s.idleClients ∨ c ∈ s.seat.clients := by
    intro c hc
    rcases (h.live_iff c).mp hc with hi | hs | hl
    · exact Or.inl hi
    · exact Or.inr hs
    · cases hl
  have hidle : ∀ c ∈ s.idleClients, ¬ (s.clients c).state.Holds := by
    intro c hc hst
    rcases (h.idle c hc).2.2 with hnew | hclosed
    · rw [show (s.clients c).state = new from hnew.1] at hst
      rcases hst with hst | hst <;> cases hst
    · rw [show (s.clients c).state = closed from hclosed.1] at hst
      rcases hst with hst | hst <;> cases hst
  refine ⟨⟨fun c hc => ?_, fun c hc => ?_, h.idleNodup, h.clientsNodup⟩, ⟨fun a ha => ?_,
    fun c hc hst => ?_⟩, fun n hn => ?_, ⟨fun g hg => ?_, h.groupNodup⟩, fun c hc hoff => ?_,
    fun c hc hst more => ?_⟩
  · rcases hplace c hc with hi | hs
    · exact Or.inl ⟨hi, h.idle_off c hi, (h.idle c hi).1⟩
    · exact Or.inr ⟨fun hi => h.idle_off c hi hs, hs, (h.onSeat c hs).1⟩
  · rcases List.mem_append.mp hc with hi | hs
    · exact (h.live_iff c).mpr (Or.inl hi)
    · exact (h.live_iff c).mpr (Or.inr (Or.inl hs))
  · obtain ⟨hmem | hleave, hst⟩ := h.active a ha
    · exact ⟨hmem, hst⟩
    · cases hleave
  · rcases hplace c hc with hi | hs
    · exact absurd hst (hidle c hi)
    · exact h.only c hs hst
  · exact ⟨(h.next n hn).1, (h.next n hn).2.1⟩
  · rcases h.owner g hg with hmem | hleave
    · exact hmem
    · cases hleave
  · rcases hplace c hc with hi | hs
    · exact (h.idle c hi).2.1
    · exact absurd hs hoff
  · have hi : c ∈ s.idleClients := by
      rcases hplace c hc with hi | hs
      · exact hi
      · exact absurd hst (h.onSeat c hs).2.1
    have hgone : (s.view none).Gone c := by
      refine ⟨h.fresh c hc, h.idle_off c hi, Option.some_ne_none c |>.symm, ?_⟩
      rcases (h.idle c hi).2.2 with hnew | hclosed
      · rw [show (s.clients c).state = new from hnew.1] at hst
        cases hst
      · exact hclosed.2
    have hrun := (run_of_acts k (I := fun v => v.Gone c) (C := fun _ _ => True)
      (fun _ _ _ _ _ _ _ _ ht hv => hv.trans ht) h hgone more
      (Run.meets_of_forall (fun _ _ => trivial) s more)).2
    rw [show run k vtBound (steps ++ more) = Run.run (step k) s more from
      Run.run_append (serverInit vtBound) steps more]
    exact hrun.2.1

end DdeSeatd
