import DdeSeatd.Ownership

set_option autoImplicit false

/-! # Session numbers without VTs

On a seat without VTs `seat_add_client` looks for a session number by counting up from 1. Its loop
sends its own iterator back to the head of the list whenever a client has the number it tries, so
what makes it stop is not the place in the list: either the numbers still taken become fewer, or
the places left do. The loop is modelled with that iterator (`sessionLoop`) and shown to find what
`nextSession` does, the least number that no client has.

In a run, then, the sessions on the seat are distinct (`Server.view`'s `SessionsApart`), and a
client gets a number above those in use only if as many clients are on the seat.
-/

namespace DdeSeatd

open Labelled

/-! ## The restarting loop -/

/-- Raising the bound to one above a member leaves fewer members above it. -/
theorem countP_above_lt {n : Int} {sessions : List Int} (h : n ∈ sessions) :
    sessions.countP (fun m => decide (n + 1 ≤ m)) < sessions.countP (fun m => decide (n ≤ m)) := by
  induction sessions with
  | nil => exact absurd h List.not_mem_nil
  | cons m sessions ih =>
      have hle : sessions.countP (fun m => decide (n + 1 ≤ m))
          ≤ sessions.countP (fun m => decide (n ≤ m)) :=
        List.countP_mono_left fun m _ hm => by
          rw [decide_eq_true_iff] at hm ⊢
          omega
      rw [List.countP_cons, List.countP_cons]
      rcases List.mem_cons.mp h with rfl | h
      · simp only [decide_eq_true_iff, le_refl, if_true]
        rw [if_neg (by omega)]
        omega
      · have := ih h
        split_ifs with h1 h2 h2 <;> simp only [decide_eq_true_iff] at h1 h2 <;> omega

/-- The loop of `seat_add_client`: `rest` is what the iterator has before it, `n` is
`next_session`. -/
def sessionLoop (sessions : List Int) (rest : { l : List Int // l <:+ sessions }) (n : Int) : Int :=
  match rest with
  | ⟨[], _⟩ => n
  | ⟨m :: rest, h⟩ =>
      -- `elem = &seat->clients`, and the loop's own step moves on to the first client
      if m = n then sessionLoop sessions ⟨sessions, List.suffix_rfl⟩ (n + 1)
      else sessionLoop sessions ⟨rest, (List.suffix_cons m rest).trans h⟩ n
termination_by (sessions.countP (fun m => decide (n ≤ m)), rest.1.length)
decreasing_by
  · rename_i hm
    exact Prod.Lex.left _ _ (countP_above_lt (hm ▸ h.subset List.mem_cons_self))
  · exact Prod.Lex.right _ (Nat.lt_succ_self _)

/-- The loop from the head of the list. -/
def allocateSession (sessions : List Int) : Int :=
  sessionLoop sessions ⟨sessions, List.suffix_rfl⟩ 1

/-- The loop passes over numbers that are taken and stops at one that is not. -/
theorem sessionLoop_spec (sessions : List Int) (rest : { l : List Int // l <:+ sessions }) (n : Int)
    (hseen : n ∈ sessions → n ∈ rest.1) :
    n ≤ sessionLoop sessions rest n ∧ sessionLoop sessions rest n ∉ sessions
      ∧ ∀ m, n ≤ m → m < sessionLoop sessions rest n → m ∈ sessions := by
  -- what the iterator has passed is not the number that is tried
  fun_induction sessionLoop sessions rest n with
  | case1 n hnil =>
      exact ⟨le_rfl, fun hmem => absurd (hseen hmem) List.not_mem_nil, fun m h1 h2 => by omega⟩
  | case2 m rest h ih =>
      obtain ⟨hle, hfree, htaken⟩ := ih fun hmem => hmem
      refine ⟨by omega, hfree, fun i h1 h2 => ?_⟩
      rcases eq_or_lt_of_le h1 with rfl | h1
      · exact h.subset List.mem_cons_self
      · exact htaken i (by omega) h2
  | case3 n m rest h hne ih =>
      refine ih fun hmem => ?_
      rcases List.mem_cons.mp (hseen hmem) with heq | hrest
      · exact absurd heq.symm hne
      · exact hrest

/-- **The loop finds the least positive number that is no client's session.** -/
theorem allocateSession_isLeast (sessions : List Int) :
    IsLeast {n : Int | 1 ≤ n ∧ n ∉ sessions} (allocateSession sessions) := by
  obtain ⟨hle, hfree, htaken⟩ := sessionLoop_spec sessions ⟨sessions, List.suffix_rfl⟩ 1 id
  refine ⟨⟨hle, hfree⟩, fun n hn => ?_⟩
  by_contra hlt
  exact hn.2 (htaken n hn.1 (lt_of_not_ge hlt))

theorem allocateSession_le (sessions : List Int) :
    allocateSession sessions ≤ sessions.length + 1 := by
  obtain ⟨-, hleast⟩ := allocateSession_isLeast sessions
  refine le_length_of_taken fun m hm hlt => ?_
  by_contra hfree
  exact absurd (hleast ⟨hm, hfree⟩) (not_le.mpr hlt)

/-- The sessions of the clients on the seat. -/
def Server.sessions (s : Server) : List Int := s.seat.clients.map fun c => (s.clients c).session

/-- What the model of `seat_add_client` computes is what the loop does. -/
theorem nextSession_eq (s : Server) : nextSession s = allocateSession s.sessions := by
  refine IsLeast.unique (s := {n : Int | 1 ≤ n ∧ n ∉ s.sessions}) ?_ (allocateSession_isLeast _)
  obtain ⟨hpos, hfree⟩ := nextSession_spec s
  obtain ⟨-, htaken, -⟩ := nextSessionLoop_spec s.sessions (s.seat.clients.length + 1) 1
  refine ⟨⟨hpos, fun hmem => ?_⟩, fun n hn => ?_⟩
  · obtain ⟨o, ho, heq⟩ := List.mem_map.mp hmem
    exact hfree o ho heq
  · by_contra hlt
    exact hn.2 (htaken n hn.1 (lt_of_not_ge hlt))

/-! ## Joining -/

/-- **A client that joins a seat without VTs gets that number.** -/
theorem seatAddClient_unbound {k : Kernel} {s : Server} {c : ClientId}
    (hb : s.seat.vtBound = false) (hok : (seatAddClient k s c).1 = true) :
    (seatAddClient k s c).2 = seatLinkClient s c (allocateSession s.sessions) := by
  have hb' : ¬ s.seat.vtBound = true := by simp [hb]
  unfold seatAddClient at hok ⊢
  rw [nextSession_eq] at hok ⊢
  dsimp only at hok ⊢
  split_ifs at hok ⊢ with hseat hbusy hsession
  rfl

/-! ## Runs -/

/-- Different clients on the seat have different sessions. -/
def View.SessionsApart (v : View) : Prop :=
  ∀ c ∈ v.seat.clients, ∀ o ∈ v.seat.clients, (v.client c).session = (v.client o).session → c = o

section

variable {k : Kernel} {v v' : View}

theorem View.SessionsApart.mono (h : v.SessionsApart) (hsub : v'.seat.clients ⊆ v.seat.clients)
    (hsession : ∀ c ∈ v'.seat.clients, (v'.client c).session = (v.client c).session) :
    v'.SessionsApart := by
  intro c hc o ho heq
  rw [hsession c hc, hsession o ho] at heq
  exact h c (hsub hc) o (hsub ho) heq

/-- Without VTs every transition keeps the sessions apart: a client joins with a free one. -/
theorem View.SessionsApart.trans {a : Act} (h : v.SessionsApart) (hwf : v.WF)
    (hb : v.seat.vtBound = false) (ht : a.Trans k v v') : v'.SessionsApart := by
  have hsession := ht.session
  obtain ⟨evs, hg, -, -, rfl⟩ := ht
  cases a with
  | join c n =>
      obtain ⟨-, hidle, -, -, hn⟩ := hg
      rw [if_neg (by simp [hb])] at hn
      have hoff := hwf.idle_off c hidle
      have hold : ∀ o ∈ v.seat.clients,
          ((((Act.join c n).effect v).push evs).client o).session = (v.client o).session := by
        intro o ho
        have hne : o ≠ c := fun heq => hoff (heq ▸ ho)
        simp [Act.effect, View.push, View.set, hne]
      have hnew : ((((Act.join c n).effect v).push evs).client c).session = n := by
        simp [Act.effect, View.push, View.set]
      intro o ho o' ho' heq
      rcases List.mem_cons.mp ho with rfl | hon <;> rcases List.mem_cons.mp ho' with rfl | hon'
      · rfl
      · rw [hnew, hold o' hon'] at heq
        exact absurd heq.symm (hn.2 o' hon')
      · rw [hnew, hold o hon] at heq
        exact absurd heq (hn.2 o hon)
      · rw [hold o hon, hold o' hon'] at heq
        exact h o hon o' hon' heq
  | create =>
      refine h.mono (fun _ => id) fun c hc => ?_
      have hne : c ≠ v.nextId :=
        Nat.ne_of_lt (hwf.fresh c ((hwf.live_iff c).mpr (Or.inr (Or.inl hc))))
      simp [Act.effect, View.push, hne]
  | detach c => exact h.mono (fun _ => List.mem_of_mem_erase) fun _ _ => rfl
  | _ => exact h.mono (fun _ => id) fun o _ => hsession (by simp) (by simp) o

/-- Of the clients of `v`, each was there before with the session it has, except for `c`, which
has joined with the session `n`. -/
def View.Joined (v0 : View) (c : ClientId) (n : Int) (v : View) : Prop :=
  ∀ o ∈ v.seat.clients,
    (o ∈ v0.seat.clients ∧ (v.client o).session = (v0.client o).session)
    ∨ (o = c ∧ (v.client o).session = n ∧ v.seat.clients.length = v0.seat.clients.length + 1)

theorem View.Joined.trans {a : Act} {v0 : View} {c : ClientId} {n : Int} (h : v0.Joined c n v)
    (hwf : v.WF) (ht : a.Trans k v v') (hjoin : ∀ o m, a ≠ .join o m)
    (hdetach : ∀ o, a = .detach o → o = c) : v0.Joined c n v' := by
  have hsession := ht.session
  obtain ⟨evs, -, -, -, rfl⟩ := ht
  intro o ho
  cases a with
  | create =>
      have hne : o ≠ v.nextId :=
        Nat.ne_of_lt (hwf.fresh o ((hwf.live_iff o).mpr (Or.inr (Or.inl ho))))
      simpa [Act.effect, View.push, hne] using h o ho
  | join o m => exact absurd rfl (hjoin o m)
  | detach o' =>
      obtain rfl := hdetach o' rfl
      -- what is left was there before
      obtain ⟨hne, hon⟩ := (hwf.clientsNodup.mem_erase_iff).mp ho
      exact Or.inl ((h o hon).resolve_right fun hnew => hne hnew.1)
  | _ =>
      rw [hsession (by simp) (by simp) o]
      exact h o ho

/-- The same along a path. -/
theorem View.Joined.path {P : Act → Prop} {v0 : View} {c : ClientId} {n : Int}
    (h : v0.Joined c n v) (hwf : v.WF) (hp : Act.Path k P v v')
    (hjoin : ∀ o m, ¬ P (.join o m)) (hdetach : ∀ o, P (.detach o) → o = c) : v0.Joined c n v' := by
  refine (Path.invariant (I := fun u => u.WF ∧ v0.Joined c n u) ?_ hp ⟨hwf, h⟩).2
  intro a u u' ha ht hu
  exact ⟨hu.1.trans ht, hu.2.trans hu.1 ht (fun o m heq => hjoin o m (heq ▸ ha))
    fun o heq => hdetach o (heq ▸ ha)⟩

end

section

variable {k : Kernel} {s : Server}

theorem seatLinkClient_joined {c : ClientId} (hc : c ∉ s.seat.clients) (n : Int) :
    (s.view none).Joined c n ((seatLinkClient s c n).view none) := by
  intro o ho
  rcases List.mem_cons.mp ho with rfl | hon
  · refine Or.inr ⟨rfl, ?_, List.length_cons⟩
    show ((seatLinkClient s o n).clients o).session = n
    simp [seatLinkClient, Server.setClient]
  · have hne : o ≠ c := fun heq => hc (heq ▸ hon)
    refine Or.inl ⟨hon, ?_⟩
    show ((seatLinkClient s c n).clients o).session = (s.clients o).session
    simp [seatLinkClient, Server.setClient, hne]

theorem handleOpenSeat_joins {c : ClientId} (hb : s.seat.vtBound = false)
    (hwf : (s.view none).WF) (hlive : c ∈ s.live) :
    (s.view none).Joined c (allocateSession s.sessions) ((handleOpenSeat k s c).2.view none) := by
  have hrefl : (s.view none).Joined c (allocateSession s.sessions) (s.view none) :=
    fun o ho => Or.inl ⟨ho, rfl⟩
  rcases seatAddClient_cases k s hwf hlive with ⟨hfail, hpath⟩ | ⟨hok, s1, n, hpath, hjoin, -⟩
  · have heq : (handleOpenSeat k s c).2 = (seatAddClient k s c).2 := by
      unfold handleOpenSeat
      dsimp only
      rw [if_neg (ne_true_of_eq_false hfail)]
    rw [heq]
    exact hrefl.path hwf hpath (fun _ _ h => by cases h) fun _ h => by cases h
  · have hwf1 : ((seatAddClient k s c).2.view none).WF := (hwf.path hpath).trans hjoin
    have hoff : c ∉ s.seat.clients := by
      intro hc
      have hseat : (s.clients c).seat = true := (hwf.onSeat c hc).1
      unfold seatAddClient at hok
      rw [if_pos hseat] at hok
      cases hok
    have hlinked := seatLinkClient_joined hoff (allocateSession s.sessions)
    rw [← seatAddClient_unbound hb hok] at hlinked
    exact hlinked.path hwf1 (handleOpenSeat_joined k s hwf hlive hok) (fun _ _ h => h)
      fun _ h => h.elim

/-- Clients leave the seat only by steps of their own. -/
theorem Step.Allows.detach {st : Step} {o : ClientId} (h : st.Allows k s (.detach o)) :
    st.client = some o := by
  cases st <;> simp_all [Step.Allows, Request.Allows, ControlRequest.Allows, Act.Destroys,
    Act.Removes, Act.Opens, Act.Frees, Step.client]
  case request => exact (h.elim And.right And.right).symm

/-- **What a step does to the sessions on a seat without VTs**: clients keep theirs, and a client
that joins gets the number the loop finds. -/
theorem step_joined (hb : s.seat.vtBound = false) (hwf : (s.view none).WF) (st : Step) :
    ∃ c, (s.view none).Joined c (allocateSession s.sessions) ((step k s st).view none) := by
  have hrefl : ∀ c, (s.view none).Joined c (allocateSession s.sessions) (s.view none) :=
    fun c o ho => Or.inl ⟨ho, rfl⟩
  by_cases hopen : ∃ c, st = .request c .openSeat
  · obtain ⟨c, rfl⟩ := hopen
    refine ⟨c, ?_⟩
    unfold step
    split_ifs with hgone
    · exact hrefl c
    have hlive := (here_of_made hgone).1 c rfl
    have hjoined := handleOpenSeat_joins (k := k) hb hwf hlive
    show (s.view none).Joined c _ ((clientHandleRequest k s c .openSeat).view none)
    rcases clientHandleRequest_cases k s c .openSeat with ⟨-, hsame⟩ | ⟨s', hs', heq, -⟩
    · rw [hsame]
      exact hjoined
    · have hwf' : (s'.view none).WF := hs' ▸ hwf.path (handleRequest_path k s hwf hlive .openSeat)
      have hlive' := live_of_handleRequest k s hwf hlive .openSeat hs'
      have hbefore : (s.view none).Joined c (allocateSession s.sessions) (s'.view none) :=
        hs' ▸ hjoined
      rw [heq]
      refine hbefore.path hwf' (clientDestroy_path k s' hwf' hlive') (fun _ _ h => ?_) fun o h => ?_
      · simp [Act.Destroys, Act.Removes] at h
      · simpa [Act.Destroys, Act.Removes] using h
  · refine ⟨st.client.getD 0, (hrefl _).path hwf (step_path k s hwf st) (fun o m h => ?_)
      fun o h => ?_⟩
    · exact hopen ⟨o, h.cause.1⟩
    · rw [h.detach]
      rfl

end

/-- **Session numbers without VTs.** The loop of `seat_add_client` ends with the least positive
number that is no client's session, and that is what a client that joins gets. In every run the
sessions on the seat are distinct, and none is larger than the number of clients that were on the
seat at some time. -/
theorem session_allocation :
    (∀ sessions : List Int,
      IsLeast {n : Int | 1 ≤ n ∧ n ∉ sessions} (allocateSession sessions))
    ∧ (∀ (k : Kernel) (s : Server) (c : ClientId), s.seat.vtBound = false →
      (seatAddClient k s c).1 = true →
      ((seatAddClient k s c).2.clients c).session = allocateSession s.sessions)
    ∧ ∀ (k : Kernel) (steps : List Step),
      (run k false steps).sessions.Nodup
      ∧ ∀ n ∈ (run k false steps).sessions,
        ∃ pre, pre <+: steps ∧ n ≤ (run k false pre).seat.clients.length := by
  refine ⟨allocateSession_isLeast, fun k s c hb hok => ?_, fun k steps => ⟨?_, ?_⟩⟩
  · rw [seatAddClient_unbound hb hok]
    simp [seatLinkClient, Server.setClient]
  · have hapart : ((run k false steps).view none).SessionsApart :=
      (Run.run_invariant (P := fun s : Server => (s.view none).WF ∧ s.seat.vtBound = false
          ∧ (s.view none).SessionsApart) (fun s st hs => ?_)
        ⟨wf_init false, rfl, fun _ hc => absurd hc List.not_mem_nil⟩ steps).2.2
    · exact (List.nodup_map_iff_inj_on (wf_run k false steps).clientsNodup).mpr
        fun c hc o ho heq => hapart c hc o ho heq
    · have hkeep := Path.invariant (I := fun v => v.WF ∧ v.seat.vtBound = false ∧ v.SessionsApart)
        (fun a v v' _ ht hv => ⟨hv.1.trans ht, (by
          obtain ⟨evs, -, -, -, rfl⟩ := ht
          cases a <;> exact hv.2.1), hv.2.2.trans hv.1 hv.2.1 ht⟩) (step_path k s hs.1 st) hs
      exact hkeep
  · induction steps using List.reverseRecOn with
    | nil => exact fun n hn => absurd hn List.not_mem_nil
    | append_singleton steps st ih =>
        intro n hn
        have hb := vtBound_run k false steps
        have hlast : run k false (steps ++ [st]) = step k (run k false steps) st := by
          simp [run, Run.run_append]
        obtain ⟨o, ho, rfl⟩ := List.mem_map.mp hn
        rw [hlast] at ho ⊢
        obtain ⟨c, hjoined⟩ := step_joined (k := k) hb (wf_run k false steps) st
        rcases hjoined o ho with ⟨hold, hsame⟩ | ⟨rfl, hnew, hlen⟩
        · -- a client that was there: its session is bounded already
          obtain ⟨pre, hpre, hle⟩ := ih _ (List.mem_map_of_mem hold)
          exact ⟨pre, hpre.trans (List.prefix_append _ _), hsame.le.trans hle⟩
        · -- the client that joined: as many clients are on the seat as its session says
          refine ⟨steps ++ [st], List.prefix_rfl, ?_⟩
          have hle := allocateSession_le (run k false steps).sessions
          rw [hlast]
          have hlength : (run k false steps).sessions.length
              = (run k false steps).seat.clients.length := List.length_map _
          have hnow : (step k (run k false steps) st).seat.clients.length
              = (run k false steps).seat.clients.length + 1 := hlen
          have hsession : ((step k (run k false steps) st).clients o).session
              = allocateSession (run k false steps).sessions := hnew
          omega

/-- Of three clients the second one leaves. -/
def sessionGap : List Step :=
  [.connect 100, .request 0 .openSeat, .connect 101, .request 1 .openSeat, .connect 102,
    .request 2 .openSeat, .disconnect 1, .connect 103]

/-- The sessions are 1 and 3, and the next client gets 2. -/
theorem session_allocation_gap :
    let s := run (.obliging 1) false sessionGap
    s.sessions = [3, 1]
      ∧ ((seatAddClient (.obliging 1) s 3).2.clients 3).session = 2
      ∧ ((seatAddClient (.obliging 1) s 3).2.clients 3).session = allocateSession s.sessions :=
  ⟨by decide +kernel, by decide +kernel, session_allocation.2.1 (.obliging 1)
    (run (.obliging 1) false sessionGap) 3 (by decide +kernel) (by decide +kernel)⟩

end DdeSeatd
