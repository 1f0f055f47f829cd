import DdeSeatd.ServerRefinement

set_option autoImplicit false

/-! # State and events agree

A client learns about the seat from the ENABLE_SEAT and DISABLE_SEAT frames it is sent. The
frames appended to its stream should alternate, and tell the state `seatd` keeps for it. Two
things can go wrong, and nothing else:

* `seat_open_client` puts ENABLE_SEAT on the connection, and then cannot flush it. It takes
  everything back, but the frame stays in the ring and is sent later (`unflushed`);
* `seat_disable_client` cannot put DISABLE_SEAT on the connection, and disables the client all
  the same. -/

namespace DdeSeatd

open ClientState Labelled

/-- One of the two has happened. -/
def Event.isFault : Event → Bool
  | .unflushed _ .enableSeat => true
  | .frame _ .disableSeat false => true
  | _ => false

/-- Neither has happened. -/
def NoFault (log : List Event) : Prop := ∀ e ∈ log, e.isFault = false

instance (log : List Event) : Decidable (NoFault log) := by
  unfold NoFault
  infer_instance

theorem NoFault.mono {es es' : List Event} (hsub : es ⊆ es') (h : NoFault es') : NoFault es :=
  fun e he => h e (hsub he)

/-! ## What a client has been told -/

/-- The seat events of a client, newest first, and whether the last one is ENABLE_SEAT. -/
inductive Told : List ServerMsg → Bool → Prop where
  | nothing : Told [] false
  | enable {fs : List ServerMsg} (h : Told fs false) : Told (.enableSeat :: fs) true
  | disable {fs : List ServerMsg} (h : Told fs true) : Told (.disableSeat :: fs) false

/-- What a client in this state should have been told. -/
def ClientState.Expects (st : ClientState) (fs : List ServerMsg) : Prop :=
  match st with
  | new => fs = []
  | active => Told fs true
  | pendingDisable | disabled => fs ≠ [] ∧ Told fs false
  | closed => False

/-- The seat events in the order in which they are sent, if they alternate. -/
def alternating (n : Nat) : List ServerMsg :=
  (List.range n).map fun i => if i % 2 = 0 then .enableSeat else .disableSeat

theorem Told.reverse_eq {fs : List ServerMsg} {b : Bool} (h : Told fs b) :
    fs.reverse = alternating fs.length ∧ (fs.length % 2 = 1 ↔ b = true) := by
  induction h with
  | nothing => simp [alternating]
  | @enable fs _ ih =>
      obtain ⟨heq, hlen⟩ := ih
      have heven : fs.length % 2 = 0 := by simpa using hlen
      refine ⟨?_, ?_⟩
      · rw [List.reverse_cons, heq]
        simp [alternating, List.range_succ, heven]
      · simp only [List.length_cons, iff_true]
        omega
  | @disable fs _ ih =>
      obtain ⟨heq, hlen⟩ := ih
      have hodd : fs.length % 2 = 1 := hlen.mpr rfl
      refine ⟨?_, ?_⟩
      · rw [List.reverse_cons, heq]
        simp [alternating, List.range_succ, hodd]
      · simp only [List.length_cons, Bool.false_eq_true, iff_false]
        omega

/-- Nothing is removed from the log. -/
theorem Act.Trans.log_subset {k : Kernel} {a : Act} {v v' : View} (ht : a.Trans k v v') :
    v.log ⊆ v'.log := by
  obtain ⟨evs, -, -, -, rfl⟩ := ht
  intro e he
  cases a <;> exact List.mem_append_right evs he

/-! ## The invariant -/

structure View.Agrees (v : View) : Prop where
  fresh : ∀ c, v.nextId ≤ c → seatFrames c v.log = []
  idle : ∀ c ∈ v.idle, (v.client c).session = -1 → seatFrames c v.log = []
  seat : ∀ c ∈ v.seat.clients, (v.client c).state.Expects (seatFrames c v.log)

section

variable {k : Kernel} {a : Act} {v v' : View}

/-- A transition that sends nothing. -/
theorem View.Agrees.keep {evs : List Event} (h : v.Agrees) (hquiet : ∀ o, seatFrames o evs = [])
    (hlog : v'.log = evs ++ v.log) (hnext : v.nextId ≤ v'.nextId)
    (hidle : ∀ c ∈ v'.idle, (v'.client c).session = -1 → seatFrames c v.log = [])
    (hseat : ∀ c ∈ v'.seat.clients, (v'.client c).state.Expects (seatFrames c v.log)) :
    v'.Agrees := by
  have hframes : ∀ o, seatFrames o v'.log = seatFrames o v.log := by
    intro o
    rw [hlog, seatFrames_append, hquiet, List.nil_append]
  refine ⟨fun c hc => ?_, fun c hc hs => ?_, fun c hc => ?_⟩ <;> rw [hframes]
  · exact h.fresh c (hnext.trans hc)
  · exact hidle c hc hs
  · exact hseat c hc

/-- A transition that sends one seat event to `c` and changes its state. -/
theorem View.Agrees.send {evs : List Event} {c : ClientId} {m : ServerMsg} (h : v.Agrees)
    (hevs : ∀ o, seatFrames o evs = if o = c then [m] else []) (hlog : v'.log = evs ++ v.log)
    (hnext : v'.nextId = v.nextId) (hc : c < v.nextId)
    (hidle : v'.idle = v.idle) (hoff : c ∉ v.idle) (hclients : v'.seat.clients = v.seat.clients)
    (hother : ∀ o, o ≠ c → v'.client o = v.client o)
    (hself : (v.client c).state.Expects (seatFrames c v.log) →
      (v'.client c).state.Expects (m :: seatFrames c v.log)) : v'.Agrees := by
  have hframes : ∀ o, seatFrames o v'.log
      = if o = c then m :: seatFrames o v.log else seatFrames o v.log := by
    intro o
    rw [hlog, seatFrames_append, hevs]
    split_ifs <;> rfl
  refine ⟨fun o ho => ?_, fun o ho hs => ?_, fun o ho => ?_⟩
  · rw [hnext] at ho
    rw [hframes, if_neg (Nat.lt_of_lt_of_le hc ho).ne']
    exact h.fresh o ho
  · rw [hidle] at ho
    have hne : o ≠ c := fun heq => hoff (heq ▸ ho)
    rw [hother o hne] at hs
    rw [hframes, if_neg hne]
    exact h.idle o ho hs
  · rw [hclients] at ho
    by_cases hoc : o = c
    · subst hoc
      rw [hframes, if_pos rfl]
      exact hself (h.seat o ho)
    · rw [hframes, if_neg hoc, hother o hoc]
      exact h.seat o ho

/-- **Every transition keeps state and events in agreement**, unless it is one of the two
faults. -/
theorem View.Agrees.trans (h : v.Agrees) (hwf : v.WF) (ht : a.Trans k v v')
    (hfault : NoFault v'.log) : v'.Agrees := by
  have hstate := fun o => ht.state (o := o)
  have hsession := fun o => ht.session_of_ne (o := o)
  obtain ⟨evs, hg, hframe, -, rfl⟩ := ht
  have hevs : NoFault evs := hfault.mono (List.subset_append_left _ _)
  have hfresh : ∀ {c}, c ∈ v.seat.clients ∨ v.leaving = some c → c < v.nextId :=
    fun hc => hwf.fresh _ ((hwf.live_iff _).mpr (Or.inr hc))
  have hoff : ∀ {c}, c ∈ v.seat.clients ∨ v.leaving = some c → c ∉ v.idle := by
    rintro c (hc | hc) hidle
    · exact hwf.idle_off c hidle hc
    · exact (hwf.leaving_off c hc).1 hidle
  have hidle : ∀ o ∈ v.idle, (a = .create → o ≠ v.nextId) → (∀ n, a ≠ .join o n) →
      (((a.effect v).push evs).client o).session = -1 → seatFrames o v.log = [] :=
    fun o ho hne hjoin hs => h.idle o ho ((hsession o hne hjoin).symm.trans hs)
  have hseat : ∀ o ∈ v.seat.clients, ¬ a.SetsState o → (a = .create → o ≠ v.nextId) →
      (((a.effect v).push evs).client o).state.Expects (seatFrames o v.log) :=
    fun o ho hst hne => (hstate o hst hne).symm ▸ h.seat o ho
  cases a with
  | create =>
      refine h.keep hframe rfl (Nat.le_succ _) (fun c hc hs => ?_)
        fun c hc => hseat c hc id fun _ => Nat.ne_of_lt (hfresh (Or.inl hc))
      rcases List.mem_cons.mp hc with rfl | hc
      · exact h.fresh _ le_rfl
      · have hlive := (hwf.live_iff c).mpr (Or.inl hc)
        exact hidle c hc (fun _ => Nat.ne_of_lt (hwf.fresh c hlive)) (by simp) hs
  | join c n =>
      obtain ⟨-, hc, hnone, -⟩ := hg
      refine h.keep hframe rfl le_rfl (fun o ho hs => ?_) fun o ho => ?_
      · have hne : o ≠ c := fun heq => (hwf.idleNodup.mem_erase_iff.mp ho).1 heq
        exact hidle o (List.mem_of_mem_erase ho) (by simp) (fun m heq => hne (by cases heq; rfl)) hs
      · by_cases hoc : o = c
        · -- a client without a session has never been on the seat
          subst hoc
          have hnew : (v.client o).state = new := by
            rcases (hwf.idle o hc).2.2 with ⟨hst, -⟩ | ⟨-, hne⟩
            · exact hst
            · exact absurd hnone hne
          rw [hstate o id (by simp), hnew]
          exact h.idle o hc hnone
        · exact hseat o ((List.mem_cons.mp ho).resolve_left hoc) id (by simp)
  | opened c =>
      refine h.send hframe rfl rfl (hfresh (Or.inl hg.1)) rfl (hoff (Or.inl hg.1)) rfl
        (fun o ho => by simp [Act.effect, View.push, ho]) fun htold => ?_
      have htold' : Told (seatFrames c v.log) false := by
        rcases hg.2.1 with hst | hst <;> rw [hst] at htold
        · rw [show seatFrames c v.log = [] from htold]
          exact .nothing
        · exact htold.2
      simpa [Act.effect, View.push, ClientState.Expects] using Told.enable htold'
  | openFailed c ds =>
      rcases hframe with hquiet | ⟨hunflushed, -⟩
      · exact h.keep hquiet rfl le_rfl (fun o ho => hidle o ho (by simp) (by simp))
          fun o ho => hseat o ho id (by simp)
      · exact absurd (hevs _ hunflushed) (by simp [Event.isFault])
  | disabled c ds next =>
      rcases hframe with ⟨hfailed, -⟩ | hsent
      · exact absurd (hevs _ hfailed) (by simp [Event.isFault])
      · have hplace := (hwf.active c hg.1).1
        refine h.send hsent rfl rfl (hfresh hplace) rfl (hoff hplace) rfl
          (fun o ho => by simp [Act.effect, View.push, ho]) fun htold => ?_
        rw [hg.2.1] at htold
        simpa [Act.effect, View.push, ClientState.Expects] using Told.disable htold
  | acked c =>
      refine h.keep hframe rfl le_rfl (fun o ho => hidle o ho (by simp) (by simp)) fun o ho => ?_
      by_cases hoc : o = c
      · have htold := h.seat c (hoc ▸ ho)
        rw [hg.2] at htold
        simpa [Act.effect, View.push, hoc, ClientState.Expects] using htold
      · exact hseat o ho (Ne.symm hoc) (by simp)
  | detach c =>
      exact h.keep hframe rfl le_rfl h.idle fun o ho => h.seat o (List.mem_of_mem_erase ho)
  | retire c =>
      refine h.keep hframe rfl le_rfl (fun o ho => hidle o ho (by simp) (by simp)) fun o ho => ?_
      exact hseat o ho (fun hc : c = o => (hwf.leaving_off c hg.1).2 (hc ▸ ho)) (by simp)
  | shelve c =>
      refine h.keep hframe rfl le_rfl (fun o ho hs => ?_) h.seat
      rcases List.mem_cons.mp ho with rfl | ho
      · exact absurd hs (hwf.leavingSession o hg.1)
      · exact h.idle o ho hs
  | freeIdle c =>
      exact h.keep hframe rfl le_rfl (fun o ho => h.idle o (List.mem_of_mem_erase ho)) h.seat
  | dropDrm c ds | restoreDrm c st | openDevice c d | adjust c ds | closeDevice c i =>
      exact h.keep hframe rfl le_rfl (fun o ho => hidle o ho (by simp) (by simp))
        fun o ho => hseat o ho id (by simp)
  | _ => exact h.keep hframe rfl le_rfl h.idle h.seat

end

/-! ## Runs -/

/-- What a client in a state should have been told, read off the last event. -/
theorem ClientState.Expects.last {st : ClientState} {fs : List ServerMsg} (h : st.Expects fs) :
    (fs = [] ↔ st = new) ∧ (fs.head? = some .disableSeat ↔ st = pendingDisable ∨ st = disabled)
      ∧ (fs.head? = some .enableSeat ↔ st = active) := by
  cases st with
  | new => simp [show fs = [] from h]
  | active =>
      cases show Told fs true from h with
      | enable h => simp
  | pendingDisable | disabled =>
      obtain ⟨hne, htold⟩ := h
      cases htold with
      | nothing => exact absurd rfl hne
      | disable h => simp
  | closed => exact False.elim h

theorem ClientState.Expects.alternates {st : ClientState} {fs : List ServerMsg}
    (h : st.Expects fs) : fs.reverse = alternating fs.length := by
  cases st with
  | new => simp [show fs = [] from h, alternating]
  | active => exact (show Told fs true from h).reverse_eq.1
  | pendingDisable => exact h.2.reverse_eq.1
  | disabled => exact h.2.reverse_eq.1
  | closed => exact False.elim h

/-- **State and events agree.** In every state of a run in which every ENABLE_SEAT frame could be
flushed and every DISABLE_SEAT frame could be queued, the seat events put on the connection of a
client on the seat alternate, starting with ENABLE_SEAT; there is none exactly if the client is
NEW, the last is DISABLE_SEAT exactly if it is PENDING_DISABLE or DISABLED, and ENABLE_SEAT
exactly if it is ACTIVE. -/
theorem seat_events_agree (k : Kernel) (vtBound : Bool) (steps : List Step)
    (hfault : NoFault (run k vtBound steps).trace) (c : ClientId)
    (hc : c ∈ (run k vtBound steps).seat.clients) :
    let s := run k vtBound steps
    let frames := (seatFrames c s.trace).reverse
    frames = alternating frames.length
    ∧ (frames = [] ↔ (s.clients c).state = new)
    ∧ (frames.getLast? = some .disableSeat ↔
        (s.clients c).state = pendingDisable ∨ (s.clients c).state = disabled)
    ∧ (frames.getLast? = some .enableSeat ↔ (s.clients c).state = active) := by
  intro s frames
  have hinit : ((serverInit vtBound).view none).Agrees :=
    ⟨fun _ _ => rfl, fun _ hc => (nomatch hc), fun _ hc => (nomatch hc)⟩
  obtain ⟨-, hagrees⟩ := run_of_acts k (I := fun v => NoFault v.log → v.Agrees)
    (C := fun _ _ => True)
    (fun _ _ _ _ _ _ _ hwf ht h hfault => (h (hfault.mono ht.log_subset)).trans hwf ht hfault)
    (wf_init vtBound) (fun _ => hinit) steps (Run.meets_of_forall (fun _ _ => trivial) _ _)
  have htold := (hagrees (hfault.mono (List.filter_subset_self _))).seat c hc
  rw [seatFrames_view] at htold
  obtain ⟨hnil, hdis, hen⟩ := htold.last
  refine ⟨?_, ?_, ?_, ?_⟩
  · show (seatFrames c s.trace).reverse = alternating (seatFrames c s.trace).reverse.length
    rw [List.length_reverse]
    exact htold.alternates
  · exact List.reverse_eq_nil_iff.trans hnil
  · rw [List.getLast?_reverse]
    exact hdis
  · rw [List.getLast?_reverse]
    exact hen

/-- A system on which no socket can be written to. -/
def Kernel.stalled : Kernel := { Kernel.obliging 1 with sendmsg := fun _ _ => [] }

/-- If the socket is full when a client opens the seat, it stays NEW and is told that it is
enabled. -/
theorem told_enabled_while_new :
    let s := run .stalled true [.connect 100, .request 0 .openSeat]
    0 ∈ s.seat.clients ∧ (s.clients 0).state = new ∧ seatFrames 0 s.trace = [.enableSeat] := by
  decide +kernel

/-- A compositor that is switched away from, acknowledges it, and is switched back to. -/
def switchAndBack : List Step :=
  [.connect 100, .request 0 .openSeat, .vtEvent 1 2, .request 0 .disableSeat, .vtEvent 2 1]

theorem switchAndBack_agrees :
    (seatFrames 0 (run (.obliging 1) true switchAndBack).trace).reverse
        = [.enableSeat, .disableSeat, .enableSeat]
    ∧ ((run (.obliging 1) true switchAndBack).clients 0).state = active := by
  have h := seat_events_agree (.obliging 1) true switchAndBack (by decide +kernel) 0
    (by decide +kernel)
  exact ⟨by decide +kernel, h.2.2.2.mp (by decide +kernel)⟩

end DdeSeatd
