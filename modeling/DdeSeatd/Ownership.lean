import DdeSeatd.ServerRefinement

set_option autoImplicit false

/-! # VT ownership

A client on the seat owns its session and the group VTs registered for it. Sessions are given
out by `seat_add_client`, group VTs by `seat_create_group_vt`, and neither looks at what the
other has given out:

* `seat_add_client` compares the current VT with the sessions only while somebody is active,
  and never with the group VTs;
* `seat_create_group_vt` compares the VT with the session of its owner and the group VTs, not
  with the sessions of others.

So a VT may get two owners, by one of these two kinds of steps (`SharesVt`) and by no other. -/

namespace DdeSeatd

open ClientState Labelled

/-! ## Ownership on a well-formed seat -/

/-- What `client_owns_vt` means for a client on the seat. -/
def View.Has (v : View) (c : ClientId) (vt : Int) : Prop :=
  (v.client c).session = vt ∨ ⟨c, vt⟩ ∈ v.seat.groupVts

section

variable {v : View}

/-- Group VTs have distinct numbers, so the search finds every one of them. -/
theorem View.WF.find_group (h : v.WF) {g : GroupVt} {vt : Int} :
    seatFindGroupVt v.seat vt = some g ↔ g ∈ v.seat.groupVts ∧ g.vt = vt := by
  constructor
  · intro hfind
    exact ⟨List.mem_of_find?_eq_some hfind, by simpa using List.find?_some hfind⟩
  · rintro ⟨hmem, hvt⟩
    have hsome : (seatFindGroupVt v.seat vt).isSome := by
      rw [seatFindGroupVt, List.find?_isSome]
      exact ⟨g, hmem, by simpa using hvt⟩
    obtain ⟨g', hg'⟩ := Option.isSome_iff_exists.mp hsome
    have hvt' : g'.vt = vt := by simpa using List.find?_some hg'
    rw [hg', List.inj_on_of_nodup_map h.groupNodup (List.mem_of_find?_eq_some hg') hmem
      (hvt'.trans hvt.symm)]

theorem View.WF.owns_iff (h : v.WF) {c : ClientId} (hc : c ∈ v.seat.clients) (vt : Int) :
    v.Owns c vt ↔ v.Has c vt := by
  refine or_congr_right ⟨?_, fun hmem => ⟨(h.onSeat c hc).1, ⟨c, vt⟩, ?_, rfl⟩⟩
  · rintro ⟨-, ⟨owner, n⟩, hfind, rfl⟩
    obtain ⟨hmem, rfl⟩ := h.find_group.mp hfind
    exact hmem
  · exact h.find_group.mpr ⟨hmem, rfl⟩

end

theorem clientOwnsVt_iff_has {s : Server} (h : (s.view none).WF) {c : ClientId}
    (hc : c ∈ s.seat.clients) (vt : Int) :
    clientOwnsVt s c vt = true ↔ (s.view none).Has c vt :=
  (clientOwnsVt_iff s none c vt).trans (h.owns_iff hc vt)

/-- `seat_destroy_group_vt` removes the one group VT with the number. -/
theorem view_seatDestroyGroupVt {k : Kernel} {s : Server} (hwf : (s.view none).WF) (vt : Int) :
    ∃ gs, (seatDestroyGroupVt k s vt).2.view none
        = (s.view none).setSeat { s.seat with groupVts := gs }
      ∧ ∀ g, g ∈ gs ↔ g ∈ s.seat.groupVts ∧ g.vt ≠ vt := by
  unfold seatDestroyGroupVt
  cases hfind : seatFindGroupVt s.seat vt with
  | none =>
      refine ⟨s.seat.groupVts, rfl, fun g => ⟨fun hg => ⟨hg, fun hvt => ?_⟩, And.left⟩⟩
      cases hfind.symm.trans (hwf.find_group.mpr ⟨hg, hvt⟩)
  | some g0 =>
      obtain ⟨hmem, rfl⟩ := hwf.find_group.mp hfind
      have hnodup : s.seat.groupVts.Nodup := List.Nodup.of_map GroupVt.vt hwf.groupNodup
      refine ⟨s.seat.groupVts.erase g0, ?_, fun g => ?_⟩
      · dsimp only
        split_ifs
        · rw [view_vtClose]
          rfl
        · rfl
      · rw [hnodup.mem_erase_iff, and_comm]
        refine and_congr_right fun hg => not_congr ⟨congrArg GroupVt.vt, fun hvt => ?_⟩
        exact List.inj_on_of_nodup_map hwf.groupNodup hg hmem hvt

/-! ## One owner for each VT -/

/-- Every VT has at most one owner on the seat. -/
def View.UniqueOwner (v : View) : Prop :=
  ∀ c ∈ v.seat.clients, ∀ o ∈ v.seat.clients, ∀ vt, v.Has c vt → v.Has o vt → c = o

section

variable {v : View}

/-- Clients may leave and VTs may be given up. -/
theorem View.UniqueOwner.mono (h : v.UniqueOwner) {v' : View}
    (hsub : v'.seat.clients ⊆ v.seat.clients)
    (hhas : ∀ c ∈ v'.seat.clients, ∀ vt, v'.Has c vt → v.Has c vt) : v'.UniqueOwner :=
  fun c hc o ho vt hcv hov =>
    h c (hsub hc) o (hsub ho) vt (hhas c hc vt hcv) (hhas o ho vt hov)

/-- A client joins with a VT that nobody has. -/
theorem View.UniqueOwner.join (h : v.UniqueOwner) (hwf : v.WF) (hleave : v.leaving = none)
    {c : ClientId} (hc : c ∈ v.idle) {n : Int} (hfree : ∀ o ∈ v.seat.clients, ¬ v.Has o n) :
    ((Act.join c n).effect v).UniqueOwner := by
  have hoff := hwf.idle_off c hc
  -- the others have what they had, the client has the VT and nothing else
  have hother : ∀ {o vt}, o ≠ c → ((Act.join c n).effect v).Has o vt → v.Has o vt := by
    intro o vt hne hhas
    simpa [View.Has, Act.effect, View.set, hne] using hhas
  have hself : ∀ {vt}, ((Act.join c n).effect v).Has c vt → vt = n := by
    rintro vt (hsession | hgroup)
    · simpa [Act.effect, View.set, eq_comm] using hsession
    · rcases hwf.owner _ hgroup with hon | hleaving
      · exact absurd hon hoff
      · rw [hleave] at hleaving
        cases hleaving
  intro o ho o' ho' vt hov hov'
  rcases List.mem_cons.mp ho with rfl | hon <;> rcases List.mem_cons.mp ho' with rfl | hon'
  · rfl
  · have hne : o' ≠ o := fun heq => hoff (heq ▸ hon')
    exact absurd (hself hov ▸ hother hne hov') (hfree o' hon')
  · have hne : o ≠ o' := fun heq => hoff (heq ▸ hon)
    exact absurd (hself hov' ▸ hother hne hov) (hfree o hon)
  · have hne : ∀ {a}, a ∈ v.seat.clients → a ≠ c := fun ha heq => hoff (heq ▸ ha)
    exact h o hon o' hon' vt (hother (hne hon) hov) (hother (hne hon') hov')

/-- A group VT is registered that is not the session of another client. -/
theorem View.UniqueOwner.addGroup (h : v.UniqueOwner) {g : GroupVt}
    (hnew : ∀ g' ∈ v.seat.groupVts, g'.vt ≠ g.vt)
    (hfree : ∀ o ∈ v.seat.clients, o ≠ g.owner → (v.client o).session ≠ g.vt) :
    ((Act.addGroup g).effect v).UniqueOwner := by
  -- a client other than the owner that has the new VT
  have hclash : ∀ {o}, o ∈ v.seat.clients → o ≠ g.owner → ¬ v.Has o g.vt := by
    rintro o ho hne (hsession | hgroup)
    · exact hfree o ho hne hsession
    · exact hnew _ hgroup rfl
  have hcases : ∀ {o vt}, ((Act.addGroup g).effect v).Has o vt →
      v.Has o vt ∨ o = g.owner ∧ vt = g.vt := by
    rintro o vt (hsession | hgroup)
    · exact Or.inl (Or.inl hsession)
    · rcases List.mem_cons.mp hgroup with heq | hgroup
      · exact Or.inr ⟨congrArg GroupVt.owner heq, congrArg GroupVt.vt heq⟩
      · exact Or.inl (Or.inr hgroup)
  intro o ho o' ho' vt hov hov'
  rcases hcases hov with hov | ⟨hown, hvt⟩ <;> rcases hcases hov' with hov' | ⟨hown', hvt'⟩
  · exact h o ho o' ho' vt hov hov'
  · by_contra hne
    exact hclash ho (fun heq => hne (heq.trans hown'.symm)) (hvt' ▸ hov)
  · by_contra hne
    exact hclash ho' (fun heq => hne (hown.trans heq.symm)) (hvt ▸ hov')
  · rw [hown, hown']

/-- Every other transition keeps it. -/
theorem View.UniqueOwner.trans {k : Kernel} {a : Act} {v' : View} (h : v.UniqueOwner)
    (hwf : v.WF) (ht : a.Trans k v v')
    (hjoin : ∀ c n, a = .join c n → ∀ o ∈ v.seat.clients, ¬ v.Has o n)
    (hadd : ∀ g, a = .addGroup g →
      ∀ o ∈ v.seat.clients, o ≠ g.owner → (v.client o).session ≠ g.vt) : v'.UniqueOwner := by
  have hsession := ht.session
  obtain ⟨evs, hg, -, -, rfl⟩ := ht
  cases a with
  | join c n => exact h.join hwf hg.1 hg.2.1 (hjoin c n rfl)
  | addGroup g => exact h.addGroup hg.2.2.2 (hadd g rfl)
  | create =>
      refine h.mono (fun _ => id) fun c hc vt hhas => ?_
      have hne : c ≠ v.nextId :=
        Nat.ne_of_lt (hwf.fresh c ((hwf.live_iff c).mpr (Or.inr (Or.inl hc))))
      simpa [View.Has, Act.effect, View.push, hne] using hhas
  | detach c => exact h.mono (fun _ => List.mem_of_mem_erase) fun _ _ _ => id
  | destroyGroup g | removeGroup g =>
      exact h.mono (fun _ => id) fun _ _ _ => Or.imp_right List.mem_of_mem_erase
  | _ =>
      -- sessions and group VTs stay as they are
      exact h.mono (fun _ => id) fun o _ vt =>
        Or.imp_left (hsession (by simp) (by simp) o).symm.trans

end

/-! ## Steps -/

/-- What is left, during a step, of the clients and VTs the step started with. -/
structure View.Within (v0 v : View) : Prop where
  clients : v.seat.clients ⊆ v0.seat.clients
  session : ∀ c ∈ v.seat.clients, (v.client c).session = (v0.client c).session
  groups : v.seat.groupVts ⊆ v0.seat.groupVts

theorem View.Within.has {v0 v : View} (h : v0.Within v) {c : ClientId} (hc : c ∈ v.seat.clients)
    {vt : Int} (hhas : v.Has c vt) : v0.Has c vt :=
  hhas.imp (h.session c hc).symm.trans fun hgroup => h.groups hgroup

/-- Only joining and registering a group VT add anything. -/
theorem View.Within.trans {k : Kernel} {a : Act} {v0 v v' : View} (h : v0.Within v)
    (ht : a.Trans k v v') (hcreate : a ≠ .create) (hjoin : ∀ c n, a ≠ .join c n)
    (hadd : ∀ g, a ≠ .addGroup g) : v0.Within v' := by
  have hsession : ∀ o ∈ v.seat.clients, (v'.client o).session = (v0.client o).session :=
    fun o ho => (ht.session hcreate hjoin o).trans (h.session o ho)
  obtain ⟨evs, -, -, -, rfl⟩ := ht
  obtain ⟨hclients, -, hgroups⟩ := h
  cases a with
  | create => exact absurd rfl hcreate
  | join c n => exact absurd rfl (hjoin c n)
  | addGroup g => exact absurd rfl (hadd g)
  | detach c =>
      exact ⟨fun _ ho => hclients (List.mem_of_mem_erase ho),
        fun o ho => hsession o (List.mem_of_mem_erase ho), hgroups⟩
  | destroyGroup g | removeGroup g =>
      exact ⟨hclients, hsession, fun _ ho => hgroups (List.mem_of_mem_erase ho)⟩
  | _ => exact ⟨hclients, hsession, hgroups⟩

/-- A free VT as the kernel reports it, or -1. Only Linux does. -/
def Server.vtFree (k : Kernel) (s : Server) : Int :=
  let tty := k.ret s.trace (.terminalOpen 0)
  let vt := k.ret (.sys (.terminalOpen 0) tty :: s.trace) .vtOpenQry
  match k.platform with
  | .linux _ => if tty < 0 ∨ vt ≤ 0 then -1 else vt
  | _ => -1

/-- Steps by which a VT may get a second owner: a client asks for the seat while nobody is active
and the VT on the screen is somebody's group VT or, if nobody has the seat, somebody's session; or a
VT is asked for as a group VT that is the session of another client. -/
def Step.SharesVt (k : Kernel) (s : Server) : Step → Prop
  | .request c .openSeat => (s.clients c).seat = false
      ∧ (∀ a ∈ s.seat.activeClient, (s.clients a).state = pendingDisable)
      ∧ ∃ o ∈ s.seat.clients, ⟨o, s.vtShown k⟩ ∈ s.seat.groupVts
          ∨ s.seat.activeClient = none ∧ (s.clients o).session = s.vtShown k
  | .control _ (.createGroupVt ownerPid vt) => ∃ owner ∈ controlFindOwnerClient s ownerPid,
      ∃ o ∈ s.seat.clients, o ≠ owner
        ∧ (s.clients o).session = if vt ≤ 0 then s.vtFree k else vt
  | _ => False

instance (k : Kernel) (s : Server) : (st : Step) → Decidable (st.SharesVt k s)
  | .request _ .openSeat => show Decidable (_ ∧ _) from inferInstance
  | .control _ (.createGroupVt _ _) => show Decidable (∃ _ ∈ _, _) from inferInstance
  | .request _ .closeSeat | .request _ (.openDevice _) | .request _ (.closeDevice _)
  | .request _ (.switchSession _) | .request _ .disableSeat | .request _ .ping
  | .control _ (.destroyGroupVt _) | .control _ .getActiveVt | .control _ .findFreeVt
  | .control _ (.switchVt _) | .control _ .invalid
  | .connect _ | .writable _ | .disconnect _ | .vtRelease | .vtAcquire | .vtEvent _ _
  | .controlConnect _ | .controlWritable _ | .controlDisconnect _ => .isFalse id

/-- `seat_create_group_vt` is to register the requested VT, or one that the kernel reports free. -/
theorem groupVtChoice_eq (k : Kernel) (s : Server) (vt : Int) :
    (groupVtChoice k s vt).1 = if vt ≤ 0 then s.vtFree k else vt := by
  unfold groupVtChoice
  split_ifs with hvt
  · have htrace : (terminalOpen k s 0).2.trace
        = .sys (.terminalOpen 0) (k.ret s.trace (.terminalOpen 0)) :: s.trace := trace_sys k s _
    have hopen : (terminalOpen k s 0).1 = decide (0 ≤ k.ret s.trace (.terminalOpen 0)) := rfl
    have hfind : (terminalFindAvailable k (terminalOpen k s 0).2).1
        = match k.platform with
          | .linux _ =>
              if k.ret (terminalOpen k s 0).2.trace .vtOpenQry ≤ 0 then -1
              else k.ret (terminalOpen k s 0).2.trace .vtOpenQry
          | _ => -1 := by
      unfold terminalFindAvailable
      cases k.platform with
      | linux version =>
          dsimp only
          rw [show ((terminalOpen k s 0).2.sys k .vtOpenQry).1
            = k.ret (terminalOpen k s 0).2.trace .vtOpenQry from rfl]
          split_ifs <;> first | rfl | omega
      | freebsd | netbsd => rfl
    unfold findAvailableVt Server.vtFree
    dsimp only
    rw [hopen, ← htrace]
    by_cases htty : k.ret s.trace (.terminalOpen 0) < 0
    · rw [if_neg (by simpa using htty)]
      split <;> simp [htty]
    · rw [if_pos (by simpa using htty), hfind]
      simp only [htty, false_or]
  · rfl

section

variable {k : Kernel} {s : Server} {c : ClientId}

/-- What `seat_add_client` has looked at before a client joins a VT-bound seat, and where the client
is then. -/
theorem seatAddClient_joins (hb : s.seat.vtBound = true) (h : (seatAddClient k s c).1 = true) :
    ((s.clients c).seat = false ∧ (s.clients c).session = -1)
    ∧ (∀ a ∈ s.seat.activeClient, (s.clients a).state = pendingDisable)
    ∧ (s.seat.activeClient = none ∨ ∀ o ∈ s.seat.clients, (s.clients o).session ≠ s.vtShown k)
    ∧ (seatAddClient k s c).2.view none = (Act.join c (s.vtShown k)).effect
        ((s.view none).setSeat { s.seat with curVt := s.vtShown k }) := by
  have hview := view_seatUpdateVt_curVt k s none
  have hseat : (seatUpdateVt k s).2.seat = { s.seat with curVt := s.vtShown k } :=
    congrArg View.seat hview
  have hsession : ∀ o, ((seatUpdateVt k s).2.clients o).session = (s.clients o).session :=
    fun o => congrArg (fun u => (View.client u o).session) hview
  unfold seatAddClient at h ⊢
  dsimp only at h ⊢
  rw [if_pos hb, hseat] at h ⊢
  split_ifs at h ⊢ with hon hbusy hold hunknown htaken
  rw [view_seatLinkClient, hview]
  simp only [hb, hsession, true_and, not_exists, not_and, not_not] at hbusy htaken
  exact ⟨⟨by simpa using hon, not_not.mp hold⟩, hbusy, or_iff_not_imp_left.mpr htaken, rfl⟩

/-- A client that is refused may have made the daemon look at the VT, unless it was on the seat. -/
theorem seatAddClient_refused (h : (seatAddClient k s c).1 ≠ true) :
    ∃ n, (seatAddClient k s c).2.view none = (s.view none).setSeat { s.seat with curVt := n }
      ∧ ((s.clients c).seat = true → n = s.seat.curVt) := by
  have hview := view_seatUpdateVt_curVt k s none
  unfold seatAddClient at h ⊢
  dsimp only at h ⊢
  split_ifs at h ⊢ with hon
  · exact ⟨s.seat.curVt, rfl, fun _ => rfl⟩
  · exact ⟨s.seat.curVt, rfl, fun _ => rfl⟩
  · exact ⟨s.seat.curVt, rfl, fun _ => rfl⟩
  · exact ⟨_, hview, fun h => absurd h hon⟩
  · exact ⟨_, hview, fun h => absurd h hon⟩
  · exact absurd rfl h
  · exact absurd rfl h

theorem wf_seatAddClient (hwf : (s.view none).WF) (hlive : c ∈ s.live) :
    ((seatAddClient k s c).2.view none).WF := by
  rcases seatAddClient_cases k s hwf hlive with ⟨-, hpath⟩ | ⟨-, s1, n, hpath, hjoin, -⟩
  · exact hwf.path hpath
  · exact (hwf.path hpath).trans hjoin

theorem uniqueOwner_control {i : ControlId} {r : ControlRequest} (hwf : (s.view none).WF)
    (h : (s.view none).UniqueOwner) (hst : ¬ (Step.control i r).SharesVt k s) :
    ((step k s (.control i r)).view none).UniqueOwner := by
  -- clients stay what they are
  refine (Path.invariant (I := fun v => v.WF ∧ v.UniqueOwner
    ∧ v.client = (s.view none).client ∧ v.seat.clients = s.seat.clients) ?_
    (step_path k s hwf (.control i r)) ⟨hwf, h, rfl, rfl⟩).2.1
  rintro a v v' ha ht ⟨hwfv, hv, hclient, hclients⟩
  refine ⟨hwfv.trans ht, hv.trans hwfv ht ?_ ?_, ?_⟩
  · rintro c n rfl
    cases ha.cause.1
  · rintro g rfl o ho hne heq
    obtain ⟨ownerPid, vt, rfl, howner, -, hvt⟩ := ha
    rw [hclient] at heq
    exact hst ⟨g.owner, howner, o, hclients ▸ ho, hne, groupVtChoice_eq k s vt ▸ hvt ▸ heq⟩
  · obtain ⟨evs, -, -, -, rfl⟩ := ht
    cases a <;> first | exact ⟨hclient, hclients⟩ | cases ha

theorem uniqueOwner_openSeat (hb : s.seat.vtBound = true) (hwf : (s.view none).WF)
    (h : (s.view none).UniqueOwner) (hst : ¬ (Step.request c .openSeat).SharesVt k s) :
    ((step k s (.request c .openSeat)).view none).UniqueOwner := by
  -- until the client joins, nothing is added
  refine (Path.invariant (I := fun v => v.WF ∧ v.UniqueOwner
    ∧ ((v.client c).session = -1 → (s.view none).Within v)) ?_
    (step_path k s hwf (.request c .openSeat))
    ⟨hwf, h, fun _ => ⟨fun _ => id, fun _ _ => rfl, fun _ => id⟩⟩).2.1
  rintro a v v' ha ht ⟨hwfv, hv, hwithin⟩
  have hadd : ∀ g, a ≠ .addGroup g := by
    rintro g rfl
    obtain ⟨_, _, _, heq, -⟩ := ha.cause
    cases heq
  have hcreate : a ≠ .create := by
    rintro rfl
    obtain ⟨_, heq⟩ := ha.cause
    cases heq
  refine ⟨hwfv.trans ht, hv.trans hwfv ht ?_ fun g hg => absurd hg (hadd g), fun hnone => ?_⟩
  · rintro o n rfl o' ho' hhas
    obtain ⟨heq, hok, hn⟩ := ha.cause
    cases heq
    obtain ⟨-, ⟨-, -, hsession, -⟩, -⟩ := ht
    have hw := hwithin hsession
    obtain ⟨⟨hoff, -⟩, hidle, hfree, -⟩ := seatAddClient_joins hb hok
    refine hst ⟨hoff, hidle, o', hw.clients ho', ?_⟩
    rw [← curVt_seatUpdateVt, ← hn hb]
    rcases hw.has ho' hhas with hses | hgroup
    · refine Or.inr ⟨hfree.resolve_right fun hne => hne o' (hw.clients ho') ?_, hses⟩
      rw [← curVt_seatUpdateVt, ← hn hb]
      exact hses
    · exact Or.inl hgroup
  · by_cases hjoin : ∀ o n, a ≠ .join o n
    · exact (hwithin ((ht.session hcreate hjoin c).symm.trans hnone)).trans ht hcreate hjoin hadd
    · push Not at hjoin
      obtain ⟨o, n, rfl⟩ := hjoin
      obtain ⟨heq, -⟩ := ha.cause
      cases heq
      obtain ⟨evs, ⟨-, -, -, hn, -⟩, -, -, rfl⟩ := ht
      exact absurd (by simpa [Act.effect, View.push, View.set] using hnone) hn

/-- **A step keeps VTs with one owner**, unless it is one of those. -/
theorem uniqueOwner_step (hb : s.seat.vtBound = true) (hwf : (s.view none).WF)
    (h : (s.view none).UniqueOwner) {st : Step} (hst : ¬ st.SharesVt k s) :
    ((step k s st).view none).UniqueOwner := by
  by_cases hopen : ∃ c, st = .request c .openSeat
  · obtain ⟨c, rfl⟩ := hopen
    exact uniqueOwner_openSeat hb hwf h hst
  by_cases hcontrol : ∃ i r, st = .control i r
  · obtain ⟨i, r, rfl⟩ := hcontrol
    exact uniqueOwner_control hwf h hst
  refine (Path.invariant (I := fun v => v.WF ∧ v.UniqueOwner) (fun a v v' ha ht hv =>
    ⟨hv.1.trans ht, hv.2.trans hv.1 ht ?_ ?_⟩) (step_path k s hwf st) ⟨hwf, h⟩).2
  · rintro c n rfl
    exact absurd ⟨c, ha.cause.1⟩ hopen
  · rintro g rfl
    obtain ⟨i, pid, vt, heq, -⟩ := ha.cause
    exact absurd ⟨i, _, heq⟩ hcontrol

end

/-! ## Runs -/

/-- No VT has two owners on the seat. -/
def Server.SingleOwner (s : Server) : Prop :=
  ∀ vt, ∀ c ∈ s.seat.clients, ∀ o ∈ s.seat.clients,
    clientOwnsVt s c vt = true → clientOwnsVt s o vt = true → c = o

/-- **A VT has one owner.** On a VT-bound seat, no VT has two owners after any run in which nobody
asks for the seat or for a group VT as in `SharesVt`. -/
theorem vt_single_owner (k : Kernel) (steps : List Step)
    (hmeets : Run.Meets (step k) (fun s st => ¬ st.SharesVt k s) (serverInit true) steps) :
    (run k true steps).SingleOwner := by
  obtain ⟨-, hwf, howner⟩ := Run.run_invariant_of_meets
    (P := fun s : Server => s.seat.vtBound = true ∧ (s.view none).WF ∧ (s.view none).UniqueOwner)
    (fun s st h hst => ⟨(vtBound_step h.2.1 st).trans h.1, h.2.1.path (step_path k s h.2.1 st),
      uniqueOwner_step h.1 h.2.1 h.2.2 hst⟩)
    ⟨rfl, wf_init true, fun _ hc => (nomatch hc)⟩ steps hmeets
  intro vt c hc o ho hcv hov
  exact howner c hc o ho vt ((clientOwnsVt_iff_has hwf hc vt).mp hcv)
    ((clientOwnsVt_iff_has hwf ho vt).mp hov)

/-- The system reports VT 1 the first time it is asked, and VT 2 from then on. -/
def Kernel.fromOneToTwo : Kernel :=
  { Kernel.obliging 2 with ret := fun tr call =>
      if call = .vtGetState then if .sys .vtGetState 1 ∈ tr then 2 else 1 else 0 }

/-- Two compositors, on VT 1 and VT 2, with a group VT each. -/
def twoOwners : List Step :=
  [.connect 100, .request 0 .openSeat, .vtEvent 1 2, .request 0 .disableSeat, .connect 101,
    .request 1 .openSeat, .controlConnect 1, .control 0 (.createGroupVt 100 3),
    .control 0 (.createGroupVt 101 4)]

theorem twoOwners_single_owner :
    (run .fromOneToTwo true twoOwners).SingleOwner
    ∧ (run .fromOneToTwo true twoOwners).seat.clients = [1, 0]
    ∧ (run .fromOneToTwo true twoOwners).seat.groupVts = [⟨1, 4⟩, ⟨0, 3⟩] :=
  ⟨vt_single_owner .fromOneToTwo twoOwners (by decide +kernel), by decide +kernel,
    by decide +kernel⟩

/-- A compositor on VT 1 with the group VT 2. -/
def twoVts : List Step :=
  [.connect 100, .request 0 .openSeat, .controlConnect 1, .control 0 (.createGroupVt 100 2)]

/-- The compositor is switched away from and gives up the seat; before the event for the switch
back to VT 1 is handled, another client joins and gets VT 1 too. -/
theorem session_given_twice :
    ¬ (run (.obliging 1) true (twoVts ++ [.vtEvent 1 3, .request 0 .disableSeat, .connect 101,
      .request 1 .openSeat])).SingleOwner := by
  intro h
  exact absurd (h 1 0 (by decide +kernel) 1 (by decide +kernel) (by decide +kernel)
    (by decide +kernel)) (by decide)

end DdeSeatd
