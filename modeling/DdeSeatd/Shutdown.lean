import DdeSeatd.ControlReading
import DdeSeatd.Descriptors
import DdeSeatd.OrphanedVt
import DdeSeatd.Reading

set_option autoImplicit false

/-! # The end of the daemon (`server_finish`, `seat_destroy`)

When the main loop ends, `server_finish` drops the control clients, destroys the idle clients and
destroys the seat, which destroys the clients on it one by one. Each of these is what a hangup of the
peer would have done, so the end of the daemon is a run of hangups (`serverFinish_run`) and everything
proved of runs holds of it: nobody is left, and every descriptor the daemon was given was closed,
once (`serverFinish_clean`).

On a VT-bound seat this leaves no VT in graphics mode (`serverFinish_restores_vts`), provided that
nobody but the client that holds the seat owns the VT on the screen. Otherwise `seat_remove_client`
hands the seat over to a client that is itself about to be destroyed, and the session of the first
one may be left behind.

Left out: the VT event watcher and the poller, which have their own states.
-/

namespace DdeSeatd

open ClientState Labelled

/-- `seat_destroy`; the seat itself is then unlinked and freed. -/
def seatDestroy (k : Kernel) (s : Server) : Server :=
  let s := Run.drain (fun s => s.seat.clients) (clientDestroy k) s.seat.clients.length s
  -- group VTs that are left over are freed, not closed
  s.setSeat { s.seat with groupVts := [] }

def serverFinish (k : Kernel) (s : Server) : Server :=
  -- the body of the first loop is that of `control_client_destroy`
  let s := Run.drain Server.controlClients controlClientDestroy s.controlClients.length s
  let s := Run.drain Server.idleClients (clientDestroy k) s.idleClients.length s
  seatDestroy k s

/-! ## It is a run of hangups -/

def Step.Hangup : Step → Prop
  | .disconnect _ | .controlDisconnect _ => True
  | _ => False

section

variable {k : Kernel} {s : Server} {c : ClientId}

/-- Destroying a client takes it off the list of live clients and drops no control client. -/
theorem clientDestroy_peers (hs : s.Kept) (c : ClientId) :
    (clientDestroy k s c).live = s.live.erase c
      ∧ (clientDestroy k s c).controlClients = s.controlClients := by
  obtain ⟨ts, htalk, hts⟩ := clientDestroy_talks k s (c := c) hs.wf
  have hspec := htalk.spec hs.sound
  rw [hspec.live, hspec.controlClients]
  rcases hts with rfl | ⟨x, m, ok, -, -, rfl⟩ <;> exact ⟨rfl, rfl⟩

/-- Reached from `s₀` by hangups. -/
structure Finishing (k : Kernel) (s₀ s : Server) : Prop where
  accounted : s.Accounted
  hangups : ∃ steps, (∀ st ∈ steps, Step.Hangup st) ∧ s = Run.run (step k) s₀ steps

variable {s₀ : Server}

theorem Finishing.next (h : Finishing k s₀ s) {st : Step} (hst : st.Hangup) :
    Finishing k s₀ (step k s st) := by
  obtain ⟨steps, hsteps, hrun⟩ := h.hangups
  refine ⟨accounted_step h.accounted st, steps ++ [st], fun st' hst' => ?_, ?_⟩
  · rcases List.mem_append.mp hst' with hst' | hst'
    · exact hsteps st' hst'
    · exact List.mem_singleton.mp hst' ▸ hst
  · rw [Run.run_append, ← hrun]
    rfl

theorem Finishing.disconnect (h : Finishing k s₀ s) (hlive : c ∈ s.live) :
    Finishing k s₀ (clientDestroy k s c) := step_disconnect (k := k) hlive ▸ h.next trivial

/-- Destroying an idle client changes no other list. -/
theorem clientDestroy_idle (hwf : (s.view none).WF) (hidle : c ∈ s.idleClients) :
    (clientDestroy k s c).idleClients = s.idleClients.erase c := by
  have hseat : (s.clients c).seat = false := (hwf.idle c hidle).1
  unfold clientDestroy
  dsimp only
  rw [hseat]
  rfl

/-- Destroying a client puts nobody on a list, and takes it off the seat. -/
theorem clientDestroy_lists (h : s.Kept) (hlive : c ∈ s.live) :
    (clientDestroy k s c).seat.clients ⊆ s.seat.clients
      ∧ (clientDestroy k s c).idleClients ⊆ s.idleClients
      ∧ c ∉ (clientDestroy k s c).seat.clients := by
  have hpath := clientDestroy_path k s h.wf hlive
  have hwf := h.wf.path hpath
  have hsub := Path.invariant (I := fun v : View => v.seat.clients ⊆ s.seat.clients
    ∧ v.idle ⊆ s.idleClients) ?_ hpath ⟨List.Subset.refl _, List.Subset.refl _⟩
  · refine ⟨hsub.1, hsub.2, fun hc => ?_⟩
    have hlive' : c ∈ (clientDestroy k s c).live := (hwf.live_iff c).mpr (Or.inr (Or.inl hc))
    rw [(clientDestroy_peers h c).1, h.peers.liveNodup.mem_erase_iff] at hlive'
    exact hlive'.1 rfl
  · rintro a v v' ha ⟨evs, -, -, -, rfl⟩ ⟨hclients, hidle⟩
    cases a with
    | detach o => exact ⟨fun x hx => hclients (List.mem_of_mem_erase hx), hidle⟩
    | freeIdle o => exact ⟨hclients, fun x hx => hidle (List.mem_of_mem_erase hx)⟩
    | create | join | shelve => rcases ha with ha | ha | ha <;> cases ha
    | _ => exact ⟨hclients, hidle⟩

/-- Destroying a client on the seat makes the list of clients on it shorter. -/
theorem clientDestroy_shortens (h : s.Kept) {rest : List ClientId}
    (hclients : s.seat.clients = c :: rest) (hlive : c ∈ s.live) :
    (clientDestroy k s c).seat.clients.length ≤ rest.length := by
  obtain ⟨hsub, -, hc⟩ := clientDestroy_lists (k := k) h hlive
  have hnodup : (clientDestroy k s c).seat.clients.Nodup :=
    (h.wf.path (clientDestroy_path k s h.wf hlive)).clientsNodup
  refine (hnodup.subperm fun x hx => ?_).length_le
  rcases List.mem_cons.mp (hclients ▸ hsub hx) with rfl | hx'
  · exact absurd hx hc
  · exact hx'

/-! ### The three loops -/

theorem Finishing.controls (h : Finishing k s₀ s) :
    Finishing k s₀ (Run.drain Server.controlClients controlClientDestroy s.controlClients.length s)
      ∧ (Run.drain Server.controlClients controlClientDestroy s.controlClients.length
          s).controlClients = [] := by
  refine Run.drain_invariant (I := Finishing k s₀) (fun s₁ i rest h hlist => ?_) h le_rfl
  have hi : i ∈ s₁.controlClients := hlist ▸ List.mem_cons_self
  refine ⟨step_controlDisconnect (k := k) hi ▸ h.next trivial, ?_⟩
  show (s₁.controlClients.erase i).length ≤ rest.length
  rw [hlist, List.erase_cons_head]

theorem Finishing.idle (h : Finishing k s₀ s) (hcontrols : s.controlClients = []) :
    (Finishing k s₀ (Run.drain Server.idleClients (clientDestroy k) s.idleClients.length s)
      ∧ (Run.drain Server.idleClients (clientDestroy k) s.idleClients.length s).controlClients = [])
    ∧ (Run.drain Server.idleClients (clientDestroy k) s.idleClients.length s).idleClients = [] := by
  refine Run.drain_invariant (I := fun s : Server => Finishing k s₀ s ∧ s.controlClients = [])
    (fun s₁ c rest h hlist => ?_) ⟨h, hcontrols⟩ le_rfl
  have hkept := h.1.accounted.kept
  have hidle : c ∈ s₁.idleClients := hlist ▸ List.mem_cons_self
  have hlive : c ∈ s₁.live := (hkept.wf.live_iff c).mpr (Or.inl hidle)
  refine ⟨⟨h.1.disconnect hlive, (clientDestroy_peers hkept c).2.trans h.2⟩, ?_⟩
  rw [clientDestroy_idle hkept.wf hidle, hlist, List.erase_cons_head]

omit s₀ in
/-- A seat without clients is empty. -/
theorem View.WF.deserted {v : View} (h : v.WF) (hleaving : v.leaving = none)
    (hclients : v.seat.clients = []) :
    v.seat.activeClient = none ∧ v.seat.nextClient = none ∧ v.seat.groupVts = [] := by
  have hnobody : ∀ o, ¬(o ∈ v.seat.clients ∨ v.leaving = some o) := by
    simp [hclients, hleaving]
  have hactive : v.seat.activeClient = none :=
    Option.eq_none_iff_forall_ne_some.mpr fun a ha => hnobody a (h.active a ha).1
  exact ⟨hactive, h.next_none hactive,
    List.eq_nil_iff_forall_not_mem.mpr fun g hg => hnobody g.owner (h.owner g hg)⟩

theorem Finishing.seat (h : Finishing k s₀ s) (hcontrols : s.controlClients = [])
    (hidle : s.idleClients = []) :
    (Finishing k s₀ (seatDestroy k s) ∧ (seatDestroy k s).controlClients = []
      ∧ (seatDestroy k s).idleClients = [])
    ∧ (seatDestroy k s).seat.clients = [] := by
  have hround : ∀ (s₁ : Server) c rest,
      Finishing k s₀ s₁ ∧ s₁.controlClients = [] ∧ s₁.idleClients = [] →
      s₁.seat.clients = c :: rest →
      (Finishing k s₀ (clientDestroy k s₁ c) ∧ (clientDestroy k s₁ c).controlClients = []
        ∧ (clientDestroy k s₁ c).idleClients = [])
      ∧ (clientDestroy k s₁ c).seat.clients.length ≤ rest.length := by
    rintro s₁ c rest ⟨h, hcontrols, hidle⟩ hlist
    have hkept := h.accounted.kept
    have hc : c ∈ s₁.seat.clients := hlist ▸ List.mem_cons_self
    have hlive : c ∈ s₁.live := (hkept.wf.live_iff c).mpr (Or.inr (Or.inl hc))
    obtain ⟨-, hidle', -⟩ := clientDestroy_lists (k := k) hkept hlive
    exact ⟨⟨h.disconnect hlive, (clientDestroy_peers hkept c).2.trans hcontrols,
      List.subset_nil.mp (hidle ▸ hidle')⟩, clientDestroy_shortens hkept hlist hlive⟩
  obtain ⟨⟨h₁, hlists⟩, hclients⟩ := Run.drain_invariant
    (I := fun s : Server => Finishing k s₀ s ∧ s.controlClients = [] ∧ s.idleClients = [])
    hround ⟨h, hcontrols, hidle⟩ le_rfl
  -- the owner of a group VT is on the seat, so the second loop finds none
  have hgroups : (Run.drain (fun s : Server => s.seat.clients) (clientDestroy k)
      s.seat.clients.length s).seat.groupVts = [] :=
    (h₁.accounted.kept.wf.deserted rfl hclients).2.2
  have hsame : seatDestroy k s = Run.drain (fun s : Server => s.seat.clients) (clientDestroy k)
      s.seat.clients.length s := by
    unfold seatDestroy
    dsimp only
    rw [← hgroups]
    rfl
  rw [hsame]
  exact ⟨⟨h₁, hlists⟩, hclients⟩

/-- **The end of the daemon is a run of hangups**, after which nobody is left. -/
theorem serverFinish_run (hs : s.Accounted) :
    Finishing k s (serverFinish k s) ∧ (serverFinish k s).live = []
      ∧ (serverFinish k s).controlClients = [] ∧ (serverFinish k s).seat.clients = [] := by
  have hstart : Finishing k s s := ⟨hs, [], by simp, rfl⟩
  obtain ⟨h₁, hcontrols₁⟩ := hstart.controls
  obtain ⟨⟨h₂, hcontrols₂⟩, hidle₂⟩ := h₁.idle hcontrols₁
  obtain ⟨⟨h₃, hcontrols₃, hidle₃⟩, hclients⟩ := h₂.seat hcontrols₂ hidle₂
  refine ⟨h₃, List.eq_nil_iff_forall_not_mem.mpr fun c hc => ?_, hcontrols₃, hclients⟩
  rcases (h₃.accounted.kept.wf.live_iff c).mp hc with hc | hc | hc
  · exact List.not_mem_nil (hidle₃.subst (motive := (c ∈ ·)) hc)
  · exact List.not_mem_nil (hclients.subst (motive := (c ∈ ·)) hc)
  · cases hc

end

/-- **The daemon leaves nothing open.** At the end of every run, `server_finish` leaves no client, no
control client and nothing on the seat; each descriptor `open` gave out has been closed, once, and so
has each duplicate that was queued for a client. -/
theorem serverFinish_clean (k : Kernel) (vtBound : Bool) (steps : List Step) :
    let s := serverFinish k (run k vtBound steps)
    s.live = [] ∧ s.controlClients = []
      ∧ (s.seat.clients = [] ∧ s.seat.activeClient = none ∧ s.seat.nextClient = none
        ∧ s.seat.groupVts = [])
      ∧ (∀ fd, (closedFds s.trace).count fd + (queuedDups s.trace).count fd
          = if fd < s.nextFd then 1 else 0)
      ∧ ∀ c, (s.channel (.client c)).closed = (s.channel (.client c)).queued := by
  intro s
  obtain ⟨h, hlive, hcontrols, hclients⟩ :=
    serverFinish_run (k := k) (accounted_run k vtBound steps)
  refine ⟨hlive, hcontrols, ⟨hclients, h.accounted.kept.wf.deserted rfl hclients⟩, fun fd => ?_,
    fun c => ?_⟩
  · have hcount := h.accounted.count fd
    rwa [hlive, List.map_nil, List.sum_nil, Nat.add_zero] at hcount
  · rcases h.accounted.outgoing c with ⟨hhere, -⟩ | ⟨-, hgone⟩
    · exact absurd hhere (hlive ▸ List.not_mem_nil)
    · exact hgone.closed

/-! ## The VTs at the end -/

/-- Nobody but the client that holds the seat, if there is one, owns the VT on the screen. -/
def Server.Undisputed (s : Server) : Prop :=
  ∀ a ∈ s.seat.activeClient, ∀ o ∈ s.seat.clients, o ≠ a → clientOwnsVt s o s.seat.curVt = false

instance (s : Server) : Decidable s.Undisputed := inferInstanceAs (Decidable (∀ _ ∈ _, _))

section

variable {k : Kernel} {s : Server} {c : ClientId}

theorem Server.Undisputed.not_owns (h : s.Undisputed) {a o : ClientId}
    (ha : s.seat.activeClient = some a) (ho : o ∈ s.seat.clients) (hne : o ≠ a) :
    ¬ (s.view none).Owns o s.seat.curVt := by
  rw [← clientOwnsVt_iff s none o, h a ha o ho hne]
  exact Bool.false_ne_true

theorem Server.Undisputed.not_strands (h : s.Undisputed) (c : ClientId) : ¬ s.Strands c := by
  rintro ⟨hactive, ⟨o, ho, hne, howns⟩, -⟩
  rw [h c hactive o ho hne] at howns
  cases howns

/-- When a client is destroyed on an undisputed seat, nobody takes its place. -/
theorem undisputed_clientDestroy (hwf : (s.view none).WF) (hb : s.seat.vtBound = true)
    (h : s.Undisputed) (hlive : c ∈ s.live) : (clientDestroy k s c).Undisputed := by
  have hinv := Path.invariant
    (I := fun v : View => v.WF ∧ (s.view none).Within v ∧ v.seat.curVt = s.seat.curVt
      ∧ v.seat.vtBound = true
      ∧ (v.seat.activeClient = s.seat.activeClient ∨ v.seat.activeClient = none))
    ?_ (clientDestroy_path k s hwf hlive)
    ⟨hwf, ⟨List.Subset.refl _, fun _ _ => rfl, List.Subset.refl _⟩, rfl, hb, Or.inl rfl⟩
  · obtain ⟨hwf', hwithin, hvt, -, hactive⟩ := hinv
    intro a ha o ho hne
    have ha₀ : s.seat.activeClient = some a := by
      rcases hactive with hsame | hnone
      · exact hsame.symm.trans ha
      · exact absurd (hnone.symm.trans ha) (by simp)
    refine Bool.eq_false_iff.mpr fun howns => ?_
    have hhas := hwithin.has ho ((clientOwnsVt_iff_has hwf' ho _).mp howns)
    rw [show (clientDestroy k s c).seat.curVt = s.seat.curVt from hvt] at hhas
    exact h.not_owns ha₀ (hwithin.clients ho) hne ((hwf.owns_iff (hwithin.clients ho) _).mpr hhas)
  · rintro a v v' ha ht ⟨hv, hwithin, hvt, hb, hactive⟩
    have hwithin' : (s.view none).Within v' := by
      refine hwithin.trans ht ?_ ?_ ?_ <;> intros <;> rintro rfl <;>
        rcases ha with ha | ha | ha <;> cases ha
    refine ⟨hv.trans ht, hwithin', ?_⟩
    obtain ⟨evs, hg, -, -, rfl⟩ := ht
    cases a with
    | opened o =>
        -- whoever is opened owns the VT on the screen
        obtain ⟨hcur, hne⟩ : s.seat.activeClient = some c ∧ o ≠ c := by
          rcases ha with ha | ha | ha
          · exact ha
          all_goals cases ha
        obtain ⟨ho, -, -, -, howns⟩ := hg
        have hhas := hwithin.has ho ((hv.owns_iff ho _).mp (howns hb))
        rw [hvt] at hhas
        exact absurd ((hwf.owns_iff (hwithin.clients ho) _).mpr hhas)
          (h.not_owns hcur (hwithin.clients ho) hne)
    | vacate o => exact ⟨hvt, hb, Or.inr rfl⟩
    | acked | vtEvent | setVt => rcases ha with ha | ha | ha <;> cases ha
    | _ => exact ⟨hvt, hb, hactive⟩

theorem undisputed_hangup (hwf : (s.view none).WF) (hb : s.seat.vtBound = true)
    (h : s.Undisputed) {st : Step} (hst : st.Hangup) : (step k s st).Undisputed := by
  by_cases hgone : (∃ c ∈ st.client, c ∉ s.live) ∨ ∃ i ∈ st.controlClient, i ∉ s.controlClients
  · rw [step, if_pos hgone]
    exact h
  · cases st with
    | disconnect c =>
        have hlive := (here_of_made hgone).1 c rfl
        rw [step_disconnect hlive]
        exact undisputed_clientDestroy hwf hb h hlive
    | controlDisconnect i =>
        rw [step, if_neg hgone]
        exact h
    | _ => cases hst

end

/-- **The daemon gives the VTs back.** On a VT-bound seat and a system where ttys can be opened, no
VT is in graphics mode after `server_finish`, if no step of the run left one behind and only the
client that holds the seat owns the VT on the screen. -/
theorem serverFinish_restores_vts (k : Kernel) (hk : k.OpensTtys) (steps : List Step)
    (hmeets : Run.Meets (step k) (fun s st => ¬ st.Strands k s) (serverInit true) steps)
    (hscreen : (run k true steps).Undisputed) (vt : Int) :
    (serverFinish k (run k true steps)).inGraphics vt = false := by
  have hstart : (run k true steps).OnVts ∧ (run k true steps).NoOrphan := by
    refine Run.run_invariant_of_meets (P := fun s : Server => s.OnVts ∧ s.NoOrphan) ?_
      ⟨onVts_init, fun vt hvt => by cases hvt⟩ steps hmeets
    exact fun s st hs hst => ⟨onVts_step hs.1 st, noOrphan_step hk hs.1 hs.2 hst⟩
  obtain ⟨h, -, -, hclients⟩ := serverFinish_run (k := k) (accounted_run k true steps)
  obtain ⟨hangups, hhangups, hrun⟩ := h.hangups
  have hend : (serverFinish k (run k true steps)).NoOrphan := by
    rw [hrun]
    refine (Run.run_invariant_of_meets (C := fun _ st => st.Hangup ∧ True)
      (P := fun s : Server => (s.OnVts ∧ s.NoOrphan) ∧ s.Undisputed) ?_ ⟨hstart, hscreen⟩ hangups
      (Run.meets_and_of_forall hhangups (Run.meets_of_forall (fun _ _ => trivial) _ _))).1.2
    rintro s st ⟨⟨hs, hclean⟩, hscreen⟩ ⟨hst, -⟩
    have hsafe : ¬ st.Strands k s := by
      rintro ⟨c, -, hstrands, -⟩
      exact hscreen.not_strands c hstrands
    exact ⟨⟨onVts_step hs st, noOrphan_step hk hs hclean hsafe⟩,
      undisputed_hangup hs.wf hs.vtBound hscreen hst⟩
  refine Bool.eq_false_iff.mpr fun hvt => ?_
  rcases hend vt hvt with ⟨o, ho, -⟩ | ⟨g, hg, -⟩
  · exact List.not_mem_nil (hclients.subst (motive := (o ∈ ·)) ho)
  · have hgroups := (h.accounted.kept.wf.deserted rfl hclients).2.2
    exact List.not_mem_nil (hgroups.subst (motive := (g ∈ ·)) hg)

/-- A compositor on VT 1 whose group VT 2 is on the screen. -/
theorem serverFinish_restores_group :
    let steps : List Step := [.connect 100, .request 0 .openSeat, .controlConnect 1,
      .control 0 (.createGroupVt 100 2), .vtEvent 1 2]
    (run (.obliging 1) true steps).inGraphics 2 = true
      ∧ ∀ vt, (serverFinish (.obliging 1) (run (.obliging 1) true steps)).inGraphics vt = false := by
  intro steps
  exact ⟨by decide +kernel, serverFinish_restores_vts (.obliging 1)
    (fun _ _ => by simp [Kernel.obliging]) steps (by decide +kernel) (by decide +kernel)⟩

end DdeSeatd
