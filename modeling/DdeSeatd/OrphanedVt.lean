import DdeSeatd.VtSteps

set_option autoImplicit false

/-! # VTs left in graphics mode

A VT in graphics mode shows nothing and takes no keys unless a compositor runs on it, so each one
should be the session of a client on the seat or a group VT (`Server.NoOrphan`). The daemon closes
the group VTs of a client it removes and, with one exception, its session. The exception is a
client that holds the seat while another client owns the VT on the screen: that one is opened in its
place, and `seat_remove_client`, which takes an active client for a sign that the VT was taken over,
leaves the session as it is (`Step.Strands`). Every run without such a step leaves no VT behind
(`no_orphaned_vt`).
-/

namespace DdeSeatd

open ClientState Labelled

/-! ## Registered VTs -/

/-- The VT is the session of a client on the seat or a group VT. -/
def View.Registered (v : View) (vt : Int) : Prop :=
  (∃ o ∈ v.seat.clients, (v.client o).session = vt) ∨ ∃ g ∈ v.seat.groupVts, g.vt = vt

/-- The same for clients other than `c`. -/
def View.RegisteredBut (v : View) (c : ClientId) (vt : Int) : Prop :=
  (∃ o ∈ v.seat.clients, o ≠ c ∧ (v.client o).session = vt)
    ∨ ∃ g ∈ v.seat.groupVts, g.owner ≠ c ∧ g.vt = vt

/-- Every VT in graphics mode is registered. -/
def Server.NoOrphan (s : Server) : Prop :=
  ∀ vt, s.inGraphics vt = true → (s.view none).Registered vt

instance (v : View) (vt : Int) : Decidable (v.Registered vt) :=
  inferInstanceAs (Decidable (_ ∨ _))

instance (v : View) (c : ClientId) (vt : Int) : Decidable (v.RegisteredBut c vt) :=
  inferInstanceAs (Decidable (_ ∨ _))

section

variable {v v' : View} {c o : ClientId} {vt : Int} {k : Kernel}

theorem View.RegisteredBut.registered (h : v.RegisteredBut c vt) : v.Registered vt :=
  h.imp (fun ⟨o, ho, _, hvt⟩ => ⟨o, ho, hvt⟩) fun ⟨g, hg, _, hvt⟩ => ⟨g, hg, hvt⟩

/-- What the client does not have, somebody else has. -/
theorem View.Registered.but (h : v.Registered vt) (hhas : ¬ v.Has c vt) : v.RegisteredBut c vt := by
  rcases h with ⟨o, ho, hvt⟩ | ⟨g, hg, hvt⟩
  · refine Or.inl ⟨o, ho, fun heq => ?_, hvt⟩
    subst heq
    exact hhas (Or.inl hvt)
  · refine Or.inr ⟨g, hg, fun heq => ?_, hvt⟩
    subst heq hvt
    exact hhas (Or.inr hg)

theorem View.Has.registeredBut (h : v.Has o vt) (ho : o ∈ v.seat.clients) (hne : o ≠ c) :
    v.RegisteredBut c vt :=
  h.imp (fun hsession => ⟨o, ho, hne, hsession⟩) fun hg => ⟨_, hg, hne, rfl⟩

theorem View.Has.registered (h : v.Has o vt) (ho : o ∈ v.seat.clients) : v.Registered vt :=
  h.imp (fun hsession => ⟨o, ho, hsession⟩) fun hg => ⟨_, hg, rfl⟩

/-- It is all about the seat and the sessions. -/
theorem View.Registered.congr (h : v.Registered vt) (hclients : v'.seat.clients = v.seat.clients)
    (hgroups : v'.seat.groupVts = v.seat.groupVts)
    (hsession : ∀ o ∈ v.seat.clients, (v'.client o).session = (v.client o).session) :
    v'.Registered vt := by
  unfold View.Registered
  rw [hclients, hgroups]
  exact h.imp_left fun ⟨o, ho, hvt⟩ => ⟨o, ho, (hsession o ho).trans hvt⟩

/-- Transitions that give up neither a client nor a group VT. -/
def Act.Retains : Act → Prop
  | .detach _ | .destroyGroup _ | .removeGroup _ => False
  | _ => True

theorem View.Registered.trans {a : Act} (h : v.Registered vt) (hwf : v.WF) (ht : a.Trans k v v')
    (ha : a.Retains) : v'.Registered vt := by
  have hsession := ht.session
  obtain ⟨evs, hg, -, -, rfl⟩ := ht
  cases a with
  | create =>
      refine h.congr rfl rfl fun o ho => ?_
      have hne : o ≠ v.nextId :=
        Nat.ne_of_lt (hwf.fresh o ((hwf.live_iff o).mpr (Or.inr (Or.inl ho))))
      simp [Act.effect, View.push, hne]
  | join c n =>
      refine h.imp_left ?_
      rintro ⟨o, ho, hvt⟩
      refine ⟨o, List.mem_cons_of_mem c ho, ?_⟩
      have hne : o ≠ c := fun heq => hwf.idle_off c hg.2.1 (heq ▸ ho)
      simpa [Act.effect, View.push, View.set, hne] using hvt
  | addGroup g =>
      refine h.imp_right ?_
      rintro ⟨g', hg', hvt⟩
      exact ⟨g', List.mem_cons_of_mem g hg', hvt⟩
  | detach c | destroyGroup g | removeGroup g => cases ha
  | _ => exact h.congr rfl rfl fun o _ => hsession (by simp) (by simp) o

theorem View.Registered.path {P : Act → Prop} (hP : ∀ a, P a → a.Retains) (hp : Act.Path k P v v')
    (hwf : v.WF) (h : v.Registered vt) : v'.Registered vt :=
  (Path.invariant (I := fun u : View => u.WF ∧ u.Registered vt)
    (fun a _ _ ha ht hu => ⟨hu.1.trans ht, hu.2.trans hu.1 ht (hP a ha)⟩) hp ⟨hwf, h⟩).2

/-- What the others have stays when a client is removed. -/
theorem View.RegisteredBut.path {current : Prop} (hp : Act.Path k (Act.Removes c current) v v')
    (h : v.RegisteredBut c vt) :
    v'.RegisteredBut c vt := by
  refine Path.invariant (I := fun u : View => u.RegisteredBut c vt) ?_ hp h
  intro a u u' ha ht hu
  have hsession := ht.session
  obtain ⟨evs, -, -, -, rfl⟩ := ht
  cases a with
  | create | join => cases ha
  | detach c' =>
      obtain rfl : c' = c := ha
      exact hu.imp_left fun ⟨o, ho, hne, hvt⟩ => ⟨o, (List.mem_erase_of_ne hne).mpr ho, hne, hvt⟩
  | removeGroup g =>
      refine hu.imp_right fun ⟨g', hg', hne, hvt⟩ => ⟨g', (List.mem_erase_of_ne ?_).mpr hg', hne, hvt⟩
      rintro rfl
      exact hne ha
  | destroyGroup g | addGroup g => cases ha
  | _ =>
      exact hu.imp_left fun ⟨o, ho, hne, hvt⟩ =>
        ⟨o, ho, hne, (hsession (by simp) (by simp) o).trans hvt⟩

theorem Server.NoOrphan.keep {P : Act → Prop} {s s' : Server} (h : s.NoOrphan)
    (hwf : (s.view none).WF) (hP : ∀ a, P a → a.Retains)
    (hp : Act.Path k P (s.view none) (s'.view none))
    (hnew : ∀ vt, s'.inGraphics vt = true → s.inGraphics vt = true ∨ (s.view none).Registered vt) :
    s'.NoOrphan :=
  fun vt hvt => .path hP hp hwf ((hnew vt hvt).elim (h vt) id)

theorem noOrphan_aboutSeat : AboutSeat Server.NoOrphan := by
  intro s s' hseat hclient hmodes _ h vt hvt
  rw [hmodes] at hvt
  refine (h vt hvt).congr (congrArg Seat.clients hseat) (congrArg Seat.groupVts hseat) fun o _ => ?_
  exact congrArg ClientView.session (congrFun hclient o)

theorem Server.NoOrphan.of_alike {s s' : Server} (h : s.NoOrphan) (halike : Alike s s') :
    s'.NoOrphan := noOrphan_aboutSeat.of_alike h halike

end

/-! ## Opening clients -/

section

variable {k : Kernel} (hk : k.OpensTtys) {s : Server} {c : ClientId}

omit hk in
/-- The VT on the screen is registered if a client on the seat owns it. -/
theorem registered_of_clientOwnsVt (hs : s.OnVts) (hc : c ∈ s.seat.clients) {vt : Int}
    (howns : clientOwnsVt s c vt = true) : (s.view none).Registered vt :=
  ((clientOwnsVt_iff_has hs.wf hc vt).mp howns).registered hc

include hk

theorem noOrphan_seatOpenClient (hs : s.OnVts) (h : s.NoOrphan) (hc : c ∈ s.seat.clients)
    (howns : clientOwnsVt s c s.seat.curVt = true) : (seatOpenClient k s c).2.NoOrphan := by
  refine h.keep hs.wf (P := Act.Opens (· = c)) (fun a ha => by cases a <;> trivial)
    (seatOpenClient_path k s none hc hs.wf.next_none fun _ => (clientOwnsVt_iff s none c _).mp howns)
    fun vt hvt => ?_
  rcases seatOpenClient_modes hk s hs.vtBound hs.groups howns with ⟨-, hdim, -⟩ | ⟨-, hlit⟩
  · exact Or.inl (hdim vt hvt)
  · rw [hlit, Bool.or_eq_true, decide_eq_true_iff] at hvt
    refine hvt.symm.imp_right ?_
    rintro rfl
    exact registered_of_clientOwnsVt hs hc howns

theorem noOrphan_seatActivate (hs : s.OnVts) (h : s.NoOrphan)
    (hactive : s.seat.activeClient = none) : (seatActivate k s).2.NoOrphan := by
  have hnext : s.seat.nextClient = none := hs.wf.next_none hactive
  refine h.keep hs.wf (P := Act.Opens (· ∈ s.seat.clients)) (fun a ha => by cases a <;> trivial)
    (seatActivate_path_unqueued k s none hactive hnext) fun vt hvt => ?_
  rcases seatActivate_modes hk s hs.vtBound hs.groups hnext with
    ⟨-, hdim, -⟩ | ⟨o, ho, howns, -, hlit⟩
  · exact Or.inl (hdim vt hvt)
  · rw [hlit, Bool.or_eq_true, decide_eq_true_iff] at hvt
    refine hvt.symm.imp_right ?_
    rintro rfl
    exact registered_of_clientOwnsVt hs ho howns

theorem noOrphan_seatAckDisableClient (hs : s.OnVts) (h : s.NoOrphan) (hc : c ∈ s.seat.clients) :
    (seatAckDisableClient k s c).2.NoOrphan := by
  rcases seatAckDisableClient_settles k hs hc with hsame | ⟨s1, htrans, hs1, hmodes, hactive, -, heq⟩
  · exact h.of_alike hsame
  · rw [heq]
    refine noOrphan_seatActivate hk hs1 ?_ hactive
    refine h.keep hs.wf (P := (· = .acked c)) (fun a ha => ?_) (.single _ rfl htrans) fun vt hvt => ?_
    · rw [ha]
      trivial
    · rw [hmodes] at hvt
      exact Or.inl hvt

/-! ## Removing clients -/

omit hk in
/-- The client holds the seat, another client owns the VT on the screen, and the session of the
client is in graphics mode and nobody else's. -/
def Server.Strands (s : Server) (c : ClientId) : Prop :=
  s.seat.activeClient = some c
    ∧ (∃ o ∈ s.seat.clients, o ≠ c ∧ clientOwnsVt s o s.seat.curVt = true)
    ∧ s.inGraphics (s.clients c).session = true
    ∧ ¬ (s.view none).RegisteredBut c (s.clients c).session

/-- **Removing a client leaves no VT behind**, unless it holds the seat and another client takes
over on another VT. -/
theorem noOrphan_seatRemoveClient (hs : s.OnVts) (h : s.NoOrphan) (hc : c ∈ s.seat.clients)
    (hsafe : ¬ s.Strands c) : (seatRemoveClient k s c).NoOrphan := by
  obtain ⟨hpath, -, -⟩ := seatRemoveClient_path k s hs.wf hc
  have hafter : ∀ {vt}, (s.view none).RegisteredBut c vt →
      ((seatRemoveClient k s c).view none).Registered vt := fun hbut =>
    (View.RegisteredBut.path hpath hbut).registered
  intro vt hvt
  by_cases hcur : s.seat.activeClient = some c
  · rcases seatRemoveClient_modes hk s hs hcur with ⟨-, hdim, -⟩ | ⟨o, ho, hne, howns, -, hlit⟩
    · obtain ⟨hvt, hhas⟩ := hdim vt hvt
      exact hafter ((h vt hvt).but hhas)
    · by_contra horphan
      have hbut : ¬ (s.view none).RegisteredBut c vt := fun hbut => horphan (hafter hbut)
      rcases (hlit vt).mp hvt with rfl | ⟨hvt, hgroups⟩
      · exact hbut (((clientOwnsVt_iff_has hs.wf ho _).mp howns).registeredBut ho hne)
      · have hhas : (s.view none).Has c vt := by
          by_contra hhas
          exact hbut ((h vt hvt).but hhas)
        rcases hhas with hsession | hgroup
        · have hvt' : (s.clients c).session = vt := hsession
          rw [← hvt'] at hvt hbut
          exact hsafe ⟨hcur, ⟨o, ho, hne, howns⟩, hvt, hbut⟩
        · exact hgroups _ hgroup rfl rfl
  · obtain ⟨hvt, hhas⟩ := (inGraphics_seatRemoveClient hk s hs hc hcur vt).mp hvt
    exact hafter ((h vt hvt).but hhas)

/-! ## Requests -/

theorem noOrphan_handleRequest (hs : s.OnVts) (h : s.NoOrphan) (hlive : c ∈ s.live) {r : Request}
    (hsafe : r = .closeSeat → ¬ s.Strands c) : (handleRequest k s c r).2.NoOrphan := by
  have hwf := hs.wf
  have hput : r.StaysPut → (handleRequest k s c r).2.NoOrphan := by
    intro hr
    obtain ⟨hsame, hmodes⟩ := handleRequest_minor k hs hlive hr
    intro vt hvt
    rw [hmodes] at hvt
    refine (h vt hvt).congr ?_ ?_ fun o _ => (hsame.client o).2.1
    · rw [hsame.seat]
    · rw [hsame.seat]
  have hpath : Act.Path k Act.Retains (s.view none) ((seatAddClient k s c).2.view none) := by
    rcases seatAddClient_cases k s hwf hlive with ⟨-, hpath⟩ | ⟨-, s1, n, hpath, hjoin, -⟩
    · exact hpath.mono fun a ha => ha ▸ trivial
    · exact (hpath.mono fun a ha => ha ▸ trivial).tail (.join c n) trivial hjoin
  have hmodes := (calls_seatAddClient k s c).logs.modes
  exact noOrphan_aboutSeat.handled hs hlive h
    (h.keep hwf (fun _ => id) hpath fun vt hvt => Or.inl (congrFun hmodes vt ▸ hvt))
    (fun s' hs' h' hc hsession => noOrphan_seatOpenClient hk hs' h' hc
      ((clientOwnsVt_iff s' none c _).mpr (Or.inl hsession)))
    (fun hr hc => noOrphan_seatRemoveClient hk hs h hc (hsafe hr))
    (fun _ hc => noOrphan_seatAckDisableClient hk hs h hc) hput

end

/-! ## After a request

A client is destroyed for a request that fails, in the state its handler has left. -/

section

variable {s s' : Server} {c : ClientId}

/-- A client that could leave a VT behind after its request could before, if it held the seat and
its session was in graphics mode. -/
theorem Server.Strands.before (h : s'.Strands c) (hwf : (s.view none).WF) (hwf' : (s'.view none).WF)
    (hsame : (s.view none).SameVts (s'.view none)) (hactive : s.seat.activeClient = some c)
    (hlit : s.inGraphics (s.clients c).session = true) : s.Strands c := by
  obtain ⟨-, ⟨o, ho, hne, howns⟩, -, hbut⟩ := h
  have ho' : o ∈ s.seat.clients := hsame.clients ▸ ho
  have hsession : ∀ o, (s'.clients o).session = (s.clients o).session := hsame.session
  refine ⟨hactive, ⟨o, ho', hne, ?_⟩, hlit, fun hreg => hbut ?_⟩
  · rwa [hsame.clientOwnsVt hwf hwf' ho', show s'.seat.curVt = s.seat.curVt from hsame.curVt] at howns
  · rw [hsession]
    unfold View.RegisteredBut
    rw [hsame.clients, hsame.groupVts]
    exact hreg.imp_left fun ⟨o, ho, hne, hvt⟩ => ⟨o, ho, hne, (hsession o).trans hvt⟩

theorem strands_aboutSeat (c : ClientId) : AboutSeat fun s => s.Strands c := by
  rintro s s' hseat hclient hmodes - ⟨hactive, ⟨o, ho, hne, howns⟩, hlit, hbut⟩
  have hsession : (s'.clients c).session = (s.clients c).session :=
    congrArg ClientView.session (congrFun hclient c)
  refine ⟨hseat ▸ hactive, ⟨o, hseat ▸ ho, hne, ?_⟩, ?_, ?_⟩
  · rw [clientOwnsVt_congr hseat hclient, hseat]
    exact howns
  · rw [hsession, hmodes]
    exact hlit
  · unfold View.RegisteredBut
    rw [hsession, hclient, show (s'.view none).seat = (s.view none).seat from hseat]
    exact hbut

theorem Server.Strands.of_alike (h : s'.Strands c) (halike : Alike s s') : s.Strands c :=
  (strands_aboutSeat c).before_alike h halike

/-- A client whose session is the VT on the screen does not leave it behind: whoever takes over
owns it too. -/
theorem not_strands_of_session (hwf : (s.view none).WF) (h : (s.clients c).session = s.seat.curVt) :
    ¬ s.Strands c := by
  rintro ⟨-, ⟨o, ho, hne, howns⟩, -, hbut⟩
  rw [h] at hbut
  exact hbut (((clientOwnsVt_iff_has hwf ho _).mp howns).registeredBut ho hne)

end

section

variable {k : Kernel} (hk : k.OpensTtys) {s : Server} {c : ClientId}

include hk

/-- An acknowledged disable may open the client again, on the VT on the screen. -/
theorem not_strands_seatAckDisableClient (hs : s.OnVts) (hc : c ∈ s.seat.clients)
    (h : ¬ s.Strands c) : ¬ (seatAckDisableClient k s c).2.Strands c := by
  rcases seatAckDisableClient_settles k hs hc with
    hsame | ⟨s1, htrans, hs1, hmodes, hnone, hnext, heq⟩
  · exact fun hstrands => h (hstrands.of_alike hsame)
  rw [heq]
  intro hstrands
  have hopens := seatActivate_path_unqueued k s1 none hnone hnext
  have hwf2 := hs1.wf.path hopens
  have hsame1 : (s1.view none).SameVts ((seatActivate k s1).2.view none) :=
    sameVts_of_path (fun a ha => by cases a <;> trivial) hopens
  have hsame : (s.view none).SameVts ((seatActivate k s1).2.view none) := by
    refine sameVts_of_path (P := Act.KeepsVts) (fun _ => id) (.head (.acked c) trivial htrans ?_)
    exact hopens.mono fun a ha => by cases a <;> trivial
  rcases seatActivate_modes hk s1 hs1.vtBound hs1.groups hnext with ⟨hstays, -⟩ | ⟨o, -, -, -, hlit⟩
  · have hcur := hstrands.1
    rw [hstays, hnone] at hcur
    cases hcur
  · have hsession := hstrands.2.2.1
    rw [hlit, Bool.or_eq_true, decide_eq_true_iff, hmodes] at hsession
    rcases hsession with hsession | hsession
    · exact not_strands_of_session hwf2 (hsession.trans hsame1.curVt.symm) hstrands
    · obtain ⟨evs, ⟨hcur, -⟩, -⟩ := htrans
      refine h (hstrands.before hs.wf hwf2 hsame hcur ?_)
      rwa [show (s.clients c).session = ((seatActivate k s1).2.clients c).session from
        (hsame.session c).symm]

/-- A request that fails does not bring the client into a place where it leaves a VT behind. -/
theorem not_strands_handleRequest (hs : s.OnVts) (hlive : c ∈ s.live) (h : ¬ s.Strands c)
    {r : Request} (hr : r ≠ .closeSeat) : ¬ (handleRequest k s c r).2.Strands c := by
  have hwf := hs.wf
  have hpath := handleRequest_path k s hwf hlive r
  have hput : r.StaysPut → ¬ (handleRequest k s c r).2.Strands c := by
    intro hr hstrands
    obtain ⟨hsame, hmodes⟩ := handleRequest_minor k hs hlive hr
    have hactive : s.seat.activeClient = some c := by
      have hcur : ((handleRequest k s c r).2.view none).seat.activeClient = some c := hstrands.1
      rw [hsame.seat] at hcur
      exact hcur
    refine h (hstrands.before hwf (hwf.path hpath) hsame.sameVts hactive ?_)
    rw [← hmodes, show (s.clients c).session = ((handleRequest k s c r).2.clients c).session from
      (hsame.client c).2.1.symm]
    exact hstrands.2.2.1
  cases r with
  | openSeat =>
      show ¬ (handleOpenSeat k s c).2.Strands c
      by_cases hok : (seatAddClient k s c).1 = true
      · -- its session is the VT on the screen
        obtain ⟨-, hsession, -⟩ := session_seatAddClient k hs hlive hok
        have hsame : View.SameVts _ ((handleOpenSeat k s c).2.view none) :=
          sameVts_of_path (fun a ha => by cases a <;> trivial) (handleOpenSeat_joined k s hwf hlive hok)
        refine not_strands_of_session (hwf.path hpath) ?_
        exact (hsame.session c).trans (hsession.trans hsame.curVt.symm)
      · have hres : (handleOpenSeat k s c).2 = (seatAddClient k s c).2 := by
          unfold handleOpenSeat
          dsimp only
          rw [if_neg hok]
        rw [hres]
        intro hstrands
        rcases seatAddClient_cases k s hwf hlive with ⟨-, hvt⟩ | ⟨hok', -⟩
        · have hactive : ((seatAddClient k s c).2.view none).seat.activeClient = s.seat.activeClient := by
            refine Path.invariant (I := fun u : View => u.seat.activeClient = s.seat.activeClient) ?_
              hvt rfl
            rintro a u u' rfl ⟨evs, -, -, -, rfl⟩ hu
            exact hu
          have hcur : s.seat.activeClient = some c := hactive.symm.trans hstrands.1
          have hseat : (s.clients c).seat = true :=
            (hwf.onSeat c ((hwf.active c hcur).1.resolve_right fun h => by cases h)).1
          have hbusy : (seatAddClient k s c).2 = s.setErrno EBUSY := by
            unfold seatAddClient
            rw [if_pos hseat]
          rw [hbusy] at hstrands
          exact h (hstrands.of_alike ⟨rfl, rfl⟩)
        · exact hok hok'
  | closeSeat => exact absurd rfl hr
  | disableSeat =>
      show ¬ (handleDisableSeat k s c).2.Strands c
      cases hseat : (s.clients c).seat with
      | false =>
          unfold handleDisableSeat
          rw [if_pos hseat]
          exact h
      | true =>
          intro hstrands
          exact not_strands_seatAckDisableClient hk hs (mem_of_seat s hwf hlive hseat) h
            (hstrands.of_alike (alike_handleDisableSeat k hseat))
  | openDevice path | closeDevice id | switchSession session | ping => exact hput trivial

/-! ## Steps -/

theorem noOrphan_seatHandleVtEvent (hs : s.OnVts) (h : s.NoOrphan) (oldVt newVt : Int) :
    (seatHandleVtEvent k s oldVt newVt).NoOrphan := by
  cases hactive : s.seat.activeClient with
  | none =>
      have hview := view_seatNoteVt k s none oldVt newVt
      have hmodes := inGraphics_seatNoteVt k s oldVt newVt
      rw [seatHandleVtEvent_none k s hactive]
      set s2 := seatNoteVt k s oldVt newVt
      have hpath : Act.Path k (· = .vtEvent newVt) (s.view none) (s2.view none) := by
        rw [hview]
        exact .single _ rfl (Act.Trans.silent trivial (fun _ => rfl) rfl)
      have h2 : s2.NoOrphan := by
        refine h.keep hs.wf (fun a ha => ?_) hpath fun vt hvt => Or.inl (congrFun hmodes vt ▸ hvt)
        rw [ha]
        trivial
      refine noOrphan_seatActivate hk (hs.path (fun _ hg => by cases hg) hpath) h2 ?_
      exact (congrArg (fun v => (View.seat v).activeClient) hview).trans hactive
  | some a =>
      have hpath : Act.Path k Act.Retains (s.view none)
          ((seatHandleVtEvent k s oldVt newVt).view none) :=
        seatHandleVtEvent_path k s trivial (fun _ _ _ => trivial) (fun _ _ => trivial)
          (fun a ha => by cases a <;> trivial) hs.wf
      refine h.keep hs.wf (fun _ => id) hpath fun vt hvt => Or.inl ?_
      rwa [inGraphics_seatHandleVtEvent k s hactive] at hvt

theorem noOrphan_seatCreateGroupVt (h : s.NoOrphan) (owner : ClientId) (vt : Int) :
    (seatCreateGroupVt k s owner vt).2.NoOrphan := by
  rcases seatCreateGroupVt_modes hk s owner vt with ⟨hview, hmodes⟩ | ⟨n, hview, hmodes⟩
  · exact noOrphan_aboutSeat.of_alike h ⟨hview, hmodes⟩
  · intro m hm
    rw [hmodes, Bool.or_eq_true, decide_eq_true_iff] at hm
    rw [hview]
    rcases hm with rfl | hm
    · exact Or.inr ⟨_, List.mem_cons_self, rfl⟩
    · exact (h m hm).imp_right fun ⟨g, hg, hvt⟩ => ⟨g, List.mem_cons_of_mem _ hg, hvt⟩

theorem noOrphan_seatDestroyGroupVt (hs : s.OnVts) (h : s.NoOrphan) (vt : Int) :
    (seatDestroyGroupVt k s vt).2.NoOrphan := by
  cases hfind : seatFindGroupVt s.seat vt with
  | none =>
      rw [seatDestroyGroupVt, hfind]
      exact noOrphan_aboutSeat.of_alike h ⟨rfl, rfl⟩
  | some g =>
      obtain ⟨gs, hview, hgs⟩ := view_seatDestroyGroupVt (k := k) hs.wf vt
      intro n hn
      rw [inGraphics_seatDestroyGroupVt hk s hs.vtBound hfind] at hn
      split_ifs at hn with hne
      rw [hview]
      refine (h n hn).imp_right ?_
      rintro ⟨g', hg', hvt⟩
      refine ⟨g', (hgs g').mpr ⟨hg', ?_⟩, hvt⟩
      rw [hvt]
      exact hne

end

/-- The step takes the client that holds the seat off it, and leaves its VT in graphics mode to
nobody: another client owns the VT on the screen and is opened in its place. -/
def Step.Strands (k : Kernel) (s : Server) (st : Step) : Prop :=
  ∃ c ∈ s.seat.activeClient, s.Strands c ∧ st.TakesOff k s c

instance (s : Server) (c : ClientId) : Decidable (s.Strands c) := inferInstanceAs (Decidable (_ ∧ _))

instance (k : Kernel) (s : Server) (st : Step) : Decidable (st.Strands k s) :=
  inferInstanceAs (Decidable (∃ _ ∈ _, _))

/-- **A step leaves no VT behind**, unless it strands one. -/
theorem noOrphan_step {k : Kernel} (hk : k.OpensTtys) {s : Server} (hs : s.OnVts) (h : s.NoOrphan)
    {st : Step} (hst : ¬ st.Strands k s) : (step k s st).NoOrphan := by
  have hI := noOrphan_aboutSeat
  have hsafe : ∀ {c}, st.TakesOff k s c → ¬ s.Strands c := fun htakes hstrands =>
    hst ⟨_, hstrands.1, hstrands, htakes⟩
  have hremove : ∀ {c} {s' : Server}, s'.OnVts → s'.NoOrphan → c ∈ s'.seat.clients → ¬ s'.Strands c →
      (seatRemoveClient k s' c).NoOrphan := fun hs' h' hc => noOrphan_seatRemoveClient hk hs' h' hc
  -- a step that gives up no registration and changes no modes
  have hkeep : ∀ {s' : Server}, Act.Path k Act.Retains (s.view none) (s'.view none) →
      s'.inGraphics = s.inGraphics → s'.NoOrphan := fun hp hmodes =>
    h.keep hs.wf (fun _ => id) hp fun vt hvt => Or.inl (by rwa [hmodes] at hvt)
  unfold step
  split_ifs with hgone
  · exact h
  have hlive := (here_of_made hgone).1
  cases st with
  | connect pid =>
      refine hkeep ((serverAddClient_path k s pid).mono fun a ha => ?_)
        (logs_serverAddClient (Q := Syscall.OffTty) k s (fun _ => id) pid).modes
      rcases ha with rfl | ha
      · trivial
      · cases a <;> trivial
  | request c r =>
      refine hI.clientHandleRequest (strands_aboutSeat c) hs (hlive c rfl) ?_ hremove fun hr hfails => ?_
      · exact noOrphan_handleRequest hk hs h (hlive c rfl) fun hr => hsafe ⟨rfl, Or.inl hr⟩
      · exact not_strands_handleRequest hk hs (hlive c rfl) (hsafe ⟨rfl, Or.inr hfails⟩) hr
  | writable c =>
      exact hI.clientHandleWritable (strands_aboutSeat c) hs h (hlive c rfl) hremove fun hfails =>
        hsafe ⟨rfl, hfails⟩
  | disconnect c =>
      exact hI.clientDestroy h fun hon =>
        hremove hs h (mem_of_seat s hs.wf (hlive c rfl) hon) (hsafe rfl)
  | vtRelease =>
      exact hkeep (seatVtRelease_path k s none trivial fun _ _ => trivial)
        (logs_seatVtRelease (O := fun _ => True) k s trivial fun _ => trivial).modes
  | vtAcquire =>
      exact hkeep (seatVtActivate_path k s none trivial) (calls_seatVtActivate k s).logs.modes
  | vtEvent oldVt newVt => exact noOrphan_seatHandleVtEvent hk hs h oldVt newVt
  | controlConnect pid => exact hI.controlAddClient h pid
  | control i r =>
      refine hI.controlHandleRequest (hI.handleControlRequest h i ?_ ?_ ?_ ?_)
      · exact fun _ vt owner _ => noOrphan_seatCreateGroupVt hk h owner vt
      · exact fun vt _ => noOrphan_seatDestroyGroupVt hk hs h vt
      · exact fun _ => hkeep (seatGetActiveVt_path k s trivial) (calls_seatGetActiveVt k s).logs.modes
      · exact fun vt _ => hkeep (seatSwitchVt_path k s (fun _ => trivial) fun _ _ _ => trivial)
          (calls_seatSwitchVt k s vt).logs.modes
  | controlWritable i => exact hI.controlHandleWritable h i
  | controlDisconnect i => exact hI.controlClientDestroy h i

/-! ## Runs -/

/-- **No VT is left behind in graphics mode**: on a VT-bound seat and a system where ttys can be
opened, after every run without a step that strands one, every VT in graphics mode is the session
of a client on the seat or a group VT. -/
theorem no_orphaned_vt (k : Kernel) (hk : k.OpensTtys) (steps : List Step)
    (hmeets : Run.Meets (step k) (fun s st => ¬ st.Strands k s) (serverInit true) steps) :
    (run k true steps).NoOrphan := by
  refine (Run.run_invariant_of_meets (P := fun s : Server => s.OnVts ∧ s.NoOrphan) ?_ ?_ steps
    hmeets).2
  · intro s st hs hst
    exact ⟨onVts_step hs.1 st, noOrphan_step hk hs.1 hs.2 hst⟩
  · refine ⟨onVts_init, fun vt hvt => ?_⟩
    cases hvt

/-- A compositor on VT 1 with the group VT 2 is switched away from, gives up the seat and
disconnects. -/
theorem no_orphaned_vt_group :
    (run (.obliging 1) true [.connect 100, .request 0 .openSeat, .controlConnect 1,
      .control 0 (.createGroupVt 100 2), .vtEvent 1 3, .request 0 .disableSeat,
      .disconnect 0]).NoOrphan :=
  no_orphaned_vt (.obliging 1) (fun _ _ => by simp [Kernel.obliging]) _ (by decide +kernel)

/-- A compositor on VT 1 is switched away from. Another client joins on VT 2, and the first
disconnects without having acknowledged: VT 1 stays in graphics mode. -/
theorem session_left_in_graphics : ¬ (run .fromOneToTwo true [.connect 100, .request 0 .openSeat,
    .vtEvent 1 2, .connect 101, .request 1 .openSeat, .disconnect 0]).NoOrphan := by
  intro h
  exact absurd (h 1 (by decide +kernel)) (by decide +kernel)

end DdeSeatd
