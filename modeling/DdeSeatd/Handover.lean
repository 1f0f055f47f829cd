import DdeSeatd.Ownership

set_option autoImplicit false

/-! # Who may get the seat in a step

A step of a client can hand the seat to another one: the client that has it acknowledges its disable
or leaves, or a client joins and is destroyed at once. `seat_activate` then takes a client that owns
the VT the daemon takes for the current one (`Step.HandsTo`). A property of the seat that holds before
such a step holds after it if it survives that these clients are opened (`handover_step`).
-/

namespace DdeSeatd

open ClientState Labelled

/-! ## What is left on the way -/

/-- Transitions by which nobody joins, no VT changes hands, and DRM master is not given back. -/
def Act.Passes : Act → Prop
  | .create | .join _ _ | .addGroup _ | .destroyGroup _ | .setVt _ | .vtEvent _ | .restoreDrm _ _ =>
      False
  | _ => True

/-- What is left of the clients of a state: those that are still on the seat have the VTs they had. -/
structure View.Since (s : Server) (v : View) : Prop where
  within : (s.view none).Within v
  has : ∀ o ∈ v.seat.clients, ∀ vt, (s.view none).Has o vt → v.Has o vt
  curVt : v.seat.curVt = s.seat.curVt

section

variable {k : Kernel} {s : Server} {a : Act} {v v' : View}

theorem View.Since.refl (s : Server) : View.Since s (s.view none) :=
  ⟨⟨List.Subset.refl _, fun _ _ => rfl, List.Subset.refl _⟩, fun _ _ _ => id, rfl⟩

theorem View.Since.trans (h : View.Since s v) (hwf : v.WF) (ha : a.Passes) (ht : a.Trans k v v') :
    View.Since s v' := by
  have hcreate : a ≠ .create := by
    rintro rfl
    cases ha
  have hjoin : ∀ c n, a ≠ .join c n := by
    rintro c n rfl
    cases ha
  have hadd : ∀ g, a ≠ .addGroup g := by
    rintro g rfl
    cases ha
  refine ⟨h.within.trans ht hcreate hjoin hadd, fun o ho vt hhas => ?_, ?_⟩
  · have hsession := ht.session hcreate hjoin o
    have hold := h.has o
    obtain ⟨evs, hg, -, -, rfl⟩ := ht
    cases a with
    | detach c => exact (hold (List.mem_of_mem_erase ho) vt hhas).imp hsession.trans id
    | removeGroup g =>
        refine (hold ho vt hhas).imp hsession.trans fun hmem => (List.mem_erase_of_ne ?_).mpr hmem
        rintro rfl
        exact (hwf.leaving_off o hg.2).2 ho
    | create | join | addGroup | destroyGroup | setVt | vtEvent | restoreDrm => cases ha
    | _ => exact (hold ho vt hhas).imp hsession.trans id
  · have hcur := h.curVt
    obtain ⟨evs, -, -, -, rfl⟩ := ht
    cases a <;> first | exact hcur | cases ha

/-- A client that gets the seat on the way owned the VT before. -/
theorem View.Since.opened (h : View.Since s v) (hwf : (s.view none).WF) (hwfv : v.WF)
    (hb : v.seat.vtBound = true) {o : ClientId} (ht : (Act.opened o).Trans k v v') :
    o ∈ v.seat.clients ∧ o ∈ s.seat.clients ∧ clientOwnsVt s o s.seat.curVt = true := by
  obtain ⟨evs, ⟨hon, -, -, -, howns⟩, -⟩ := ht
  have hmem : o ∈ s.seat.clients := h.within.clients hon
  refine ⟨hon, hmem, ?_⟩
  rw [clientOwnsVt_iff_has hwf hmem, ← h.curVt]
  exact h.within.has hon ((hwfv.owns_iff hon _).mp (howns hb))

end

/-! ## Steps of clients -/

section

variable {k : Kernel} {s : Server}

/-- Where `seat_add_client` leaves the seat when it is to be handed to somebody else in the same
step. -/
theorem seatAddClient_hands {c o : ClientId} (hb : s.seat.vtBound = true) (hwf : (s.view none).WF)
    (hfails : Request.openSeat.Fails k s c)
    (hfree : (seatAddClient k s c).2.seat.activeClient = some c
      ∨ (seatAddClient k s c).1 = true ∧ (seatAddClient k s c).2.seat.activeClient = none)
    (hne : o ≠ c) (ho : o ∈ (seatAddClient k s c).2.seat.clients)
    (howns : clientOwnsVt (seatAddClient k s c).2 o (seatAddClient k s c).2.seat.curVt = true) :
    o ∈ s.seat.clients ∧ (Step.request c .openSeat).HandsTo k s o := by
  have htakes : (Step.request c .openSeat).TakesOff k s c := ⟨rfl, Or.inr hfails⟩
  have hself : (Step.request c .openSeat).client = some o → Step.request c .openSeat
      = .request o .disableSeat := fun heq => absurd (Option.some.inj heq).symm hne
  by_cases hok : (seatAddClient k s c).1 = true
  · -- the client has joined a seat that nobody had
    obtain ⟨⟨hoff, -⟩, -, -, hview⟩ := seatAddClient_joins hb hok
    have hseat : (seatAddClient k s c).2.seat
        = { s.seat with curVt := s.vtShown k, clients := c :: s.seat.clients } :=
      congrArg View.seat hview
    rw [hseat] at hfree ho howns
    have hmem : o ∈ s.seat.clients := (List.mem_cons.mp ho).resolve_left hne
    have hnone : s.seat.activeClient = none := by
      refine hfree.elim (fun hactive => ?_) And.right
      have hon := (hwf.onSeat c ((hwf.active c hactive).1.resolve_right nofun)).1
      exact absurd (hoff.symm.trans hon) Bool.false_ne_true
    refine ⟨hmem, ⟨s.vtShown k, ?_, ?_⟩, hself⟩
    · have hvacates : ¬ (Step.request c .openSeat).Vacates k s c := by
        rintro ⟨hactive, -⟩
        cases hnone.symm.trans hactive
      simp [Step.seatFreeOn, Step.client, hvacates, hnone, htakes]
    · rw [clientOwnsVt_iff _ none, hview] at howns
      have hclient : (View.client ((Act.join c (s.vtShown k)).effect ((s.view none).setSeat
          { s.seat with curVt := s.vtShown k })) o) = (s.view none).client o := by
        simp [Act.effect, View.set, hne]
      unfold View.Owns at howns
      rw [hclient] at howns
      exact (clientOwnsVt_iff s none o _).mpr howns
  · -- it was on the seat already
    obtain ⟨n, hview, hsame⟩ := seatAddClient_refused hok
    have hseat : (seatAddClient k s c).2.seat = { s.seat with curVt := n } :=
      congrArg View.seat hview
    have hactive : s.seat.activeClient = some c := by
      have := hfree.resolve_right fun hjoined => hok hjoined.1
      rwa [hseat] at this
    obtain rfl := hsame (hwf.onSeat c ((hwf.active c hactive).1.resolve_right nofun)).1
    rw [clientOwnsVt_iff _ none, hview, hseat] at howns
    rw [hseat] at ho
    refine ⟨ho, ⟨s.seat.curVt, ?_, ?_⟩, hself⟩
    · exact Step.Vacates.seatFreeOn ⟨hactive, Or.inl htakes⟩ rfl
    · rw [clientOwnsVt_iff _ none]
      exact howns

/-- The transitions after `seat_add_client` are among those of the step. -/
theorem allows_openSeat {c : ClientId} (hb : s.seat.vtBound = true) {a : Act}
    (ha : (seatAddClient k s c).1 = true ∧ a.Opens (· = c)
      ∨ Request.openSeat.Fails k s c ∧ a.Destroys c
        ((seatAddClient k s c).2.seat.activeClient = some c
          ∨ (seatAddClient k s c).1 = true ∧ (seatAddClient k s c).2.seat.activeClient = none)) :
    (Step.request c .openSeat).Allows k s a ∧ a.Passes := by
  have hactive : (seatAddClient k s c).2.seat.activeClient = s.seat.activeClient := by
    by_cases hok : (seatAddClient k s c).1 = true
    · exact congrArg (·.seat.activeClient) (seatAddClient_joins hb hok).2.2.2
    · obtain ⟨n, hview, -⟩ := seatAddClient_refused hok
      exact congrArg (·.seat.activeClient) hview
  rw [hactive] at ha
  rcases ha with ⟨hok, hopens⟩ | ⟨hfails, hdestroys⟩
  · cases a with
    | opened o | openFailed o => exact ⟨Or.inl (Or.inl ⟨rfl, hopens, hok⟩), trivial⟩
    | _ => cases hopens
  · refine ⟨Or.inr ⟨hfails, hdestroys.imp_left (Act.Removes.imp (Or.imp_right fun h => ⟨rfl, h.2⟩))⟩, ?_⟩
    rcases hdestroys with hremoves | rfl | rfl
    · cases a <;> trivial
    · trivial
    · trivial

/-- **A step of a client keeps a property of the seat**, if that survives the transitions of the
step, given that those who get the seat on the way have `Q`. A step in which a client joins is
taken in two parts. -/
theorem handover_step {I : Server → View → Prop} {Q : Server → ClientId → Prop} {st : Step}
    (hI : ∀ {s' : Server} {a : Act} {v v' : View}, st.Allows k s a → a.Passes → v.WF →
      View.Since s' v → a.Trans k v v' → (∀ o, a = .opened o → o ∈ v.seat.clients ∧ Q s' o) →
      I s' v → I s' v')
    (hb : s.seat.vtBound = true) (hwf : (s.view none).WF) {c : ClientId}
    (hclient : st.client = some c) (hlive : c ∈ s.live) (hstart : I s (s.view none))
    (hadd : st = .request c .openSeat → I (seatAddClient k s c).2 ((seatAddClient k s c).2.view none)
      ∧ ((seatAddClient k s c).1 = true → Q (seatAddClient k s c).2 c)
      ∧ ∀ o ∈ s.seat.clients, Q s o → Q (seatAddClient k s c).2 o)
    (hst : ∀ o ∈ s.seat.clients, st.HandsTo k s o → Q s o) :
    ∃ s', I s' ((step k s st).view none) := by
  have hpath : ∀ {s' : Server} {P : Act → Prop} {v : View},
      (∀ a, P a → st.Allows k s a ∧ a.Passes) →
      (∀ o, P (.opened o) → o ∈ s'.seat.clients → clientOwnsVt s' o s'.seat.curVt = true → Q s' o) →
      s'.seat.vtBound = true → (s'.view none).WF → I s' (s'.view none) →
      Act.Path k P (s'.view none) v → I s' v := by
    intro s' P v hP hopened hb' hwf' h' hp
    refine (Path.invariant (I := fun u : View => u.WF ∧ u.seat.vtBound = true ∧ View.Since s' u
      ∧ I s' u) ?_ hp ⟨hwf', hb', .refl s', h'⟩).2.2.2
    rintro a u u' ha ht ⟨hwfu, hbu, hsince, hu⟩
    obtain ⟨hallows, hpasses⟩ := hP a ha
    refine ⟨hwfu.trans ht, (vtBound_of_path (.single (P := P) a ha ht)).trans hbu,
      hsince.trans hwfu hpasses ht, hI hallows hpasses hwfu hsince ht ?_ hu⟩
    rintro o rfl
    obtain ⟨hon, hmem, howns⟩ := hsince.opened hwf' hwfu hbu ht
    exact ⟨hon, hopened o ha hmem howns⟩
  by_cases hopenSeat : ∃ c, st = .request c .openSeat
  · obtain ⟨c', rfl⟩ := hopenSeat
    obtain rfl : c' = c := Option.some.inj hclient
    have hstep : step k s (.request c' .openSeat) = clientHandleRequest k s c' .openSeat := by
      unfold step
      rw [if_neg (by simp [Step.client, Step.controlClient, hlive])]
      rfl
    obtain ⟨h1, hjoined, hothers⟩ := hadd rfl
    have hb1 : (seatAddClient k s c').2.seat.vtBound = true := by
      by_cases hok : (seatAddClient k s c').1 = true
      · exact (congrArg (·.seat.vtBound) (seatAddClient_joins hb hok).2.2.2).trans hb
      · obtain ⟨n, hview, -⟩ := seatAddClient_refused hok
        exact (congrArg (·.seat.vtBound) hview).trans hb
    rw [hstep]
    refine ⟨_, hpath (fun a ha => allows_openSeat hb ha) ?_ hb1 (wf_seatAddClient hwf hlive) h1
      (openSeat_path k s hwf hlive)⟩
    rintro o (⟨hok, rfl⟩ | ⟨hfails, ⟨hfree, hne⟩ | heq | heq⟩) ho howns
    · exact hjoined hok
    · obtain ⟨hmem, hhands⟩ := seatAddClient_hands hb hwf hfails hfree hne ho howns
      exact hothers o hmem (hst o hmem hhands)
    · cases heq
    · cases heq
  · have hevent : ∀ oldVt newVt, st ≠ .vtEvent oldVt newVt := by
      rintro oldVt newVt rfl
      cases hclient
    refine ⟨s, hpath (fun a ha => ⟨ha, ?_⟩) (fun o ha hmem howns => ?_) hb hwf hstart
      (step_path k s hwf st)⟩
    · cases a with
      | create =>
          obtain ⟨pid, rfl⟩ := ha.cause
          cases hclient
      | join o n => exact hopenSeat ⟨o, ha.cause.1⟩
      | addGroup g =>
          obtain ⟨i, pid, vt, rfl, -⟩ := ha.cause
          cases hclient
      | destroyGroup g =>
          obtain ⟨i, rfl⟩ := ha.cause
          cases hclient
      | setVt n => exact hopenSeat (ha.cause (by simp [hclient])).1
      | vtEvent n =>
          obtain ⟨oldVt, heq⟩ := ha.cause
          exact hevent oldVt n heq
      | restoreDrm o cst =>
          obtain ⟨oldVt, newVt, heq, -⟩ := ha.cause
          exact hevent oldVt newVt heq
      | _ => trivial
    · obtain ⟨c', hc', hvacates, hself⟩ := (ha.cause.resolve_left hopenSeat).resolve_right
        fun hvt => hvt.elim fun oldVt hnew => hnew.elim (hevent oldVt)
      refine hst o hmem ⟨⟨_, hvacates.seatFreeOn hc', howns⟩, fun ho => ?_⟩
      obtain rfl : o = c' := Option.some.inj (ho.symm.trans hc')
      exact hself rfl

end

end DdeSeatd
